/-
  MqttBenchmark.Paho.Framing
  ──────────────────────────
  **WHAT IS SENT IS READ BACK, HOWEVER THE NETWORK CUTS IT.**

    • `decode_encode` — the remaining length, below `2 ^ 28`,
    • `factory_error`, `factoryReader` — no read beyond a packet, and the laws
      of a reader,
    • `publish_iff` — exactly the `PUBLISH` packets that are read back,
    • `accepted_publish` — what was read from any bytes can be sent on,
    • `stream_read` — packets in a row, cut anywhere.
-/
import MqttBenchmark.Lib.Varint
import MqttBenchmark.Paho.Packet
import Mathlib.Tactic.Linarith
import Mathlib.Data.List.TakeWhile

namespace MqttBenchmark.Paho.MQTTPacket

open Lib

/-! ## §1. The remaining length. -/

/-- The top bit tells that another byte follows. -/
theorem top_bit (c : UInt8) : c &&& 128 ≠ 0 ↔ 128 ≤ c.toNat := by
  have hall : ∀ k < 256, UInt8.ofNat k &&& 128 ≠ 0 ↔ 128 ≤ (UInt8.ofNat k).toNat := by
    decide +kernel
  have hc := hall c.toNat c.toNat_lt
  rwa [UInt8.ofNat_toNat] at hc

/-- The other bits are a digit. -/
theorem low_bits (c : UInt8) : (c &&& 127).toNat = c.toNat % 128 := by
  rw [UInt8.toNat_and]
  exact Nat.and_two_pow_sub_one_eq_mod c.toNat 7

theorem set_top_bit : ∀ k < 128, UInt8.ofNat k ||| 128 = UInt8.ofNat (k + 128) := by
  decide +kernel

/-- The loop writes the digits, the lowest first. -/
theorem encodeLoop_eq : ∀ {fuel n : Nat}, n < fuel → encodeLoop fuel n = Varint.encode n := by
  intro fuel
  induction fuel with
  | zero => intro n h; omega
  | succ fuel ih =>
      intro n h
      by_cases hlt : n < 128
      · have hdiv : ¬ n / 128 > 0 := by omega
        simp only [encodeLoop, if_neg hdiv]
        rw [Varint.encode_of_lt hlt, Nat.mod_eq_of_lt hlt]
      · have hdiv : n / 128 > 0 := by omega
        simp only [encodeLoop, if_pos hdiv]
        rw [Varint.encode_of_le (by omega), ih (by omega),
          set_top_bit _ (Nat.mod_lt _ (by omega))]

theorem encode_eq (n : Nat) : encode n = Varint.encode n := encodeLoop_eq (Nat.lt_succ_self n)

/-- What the loop has read so far is a value and a power of 128. -/
theorem decodeLoop_eq : ∀ (net : Bytes) (len multiplier value : Nat),
    len ≤ maxRemainingLengthBytes →
    decodeLoop len multiplier value net =
      match Varint.decode (maxRemainingLengthBytes - len) net with
      | .complete v rest => .complete (value + v * multiplier) rest
      | .interrupted => .interrupted
      | .error _ => .error .socketError := by
  intro net
  induction net with
  | nil =>
      intro len multiplier value hle
      by_cases hlast : len + 1 > maxRemainingLengthBytes
      · rw [show maxRemainingLengthBytes - len = 0 by omega]
        simp only [decodeLoop, if_pos hlast, Varint.decode]
      · rw [show maxRemainingLengthBytes - len = (maxRemainingLengthBytes - (len + 1)) + 1 by omega]
        simp only [decodeLoop, if_neg hlast, Varint.decode]
  | cons c net ih =>
      intro len multiplier value hle
      by_cases hlast : len + 1 > maxRemainingLengthBytes
      · rw [show maxRemainingLengthBytes - len = 0 by omega]
        simp only [decodeLoop, if_pos hlast, Varint.decode]
      · rw [show maxRemainingLengthBytes - len = (maxRemainingLengthBytes - (len + 1)) + 1 by omega]
        simp only [decodeLoop, if_neg hlast, top_bit, low_bits]
        by_cases hmore : 128 ≤ c.toNat
        · have hc := c.toNat_lt
          rw [if_pos hmore, Varint.decode_more hmore, ih _ _ _ (by omega)]
          cases Varint.decode (maxRemainingLengthBytes - (len + 1)) net with
          | complete v rest =>
              have hdigit : c.toNat % 128 = c.toNat - 128 := by omega
              simp only [hdigit]
              congr 1
              ring
          | interrupted => rfl
          | error e => rfl
        · rw [if_neg hmore, Varint.decode_last (by omega), Nat.mod_eq_of_lt (by omega)]

/-- The loop of the reader, with its limit of four bytes. -/
theorem decode_eq (net : Bytes) :
    decode net =
      match Varint.decode maxRemainingLengthBytes net with
      | .complete v rest => .complete v rest
      | .interrupted => .interrupted
      | .error _ => .error .socketError := by
  show decodeLoop 0 1 0 net = _
  rw [decodeLoop_eq net 0 1 0 (Nat.zero_le _)]
  simp only [Nat.sub_zero, Nat.zero_add, Nat.mul_one]

/-- **A length of less than `2 ^ 28` is read back.** -/
theorem decode_encode {n : Nat} (h : n < 2 ^ 28) (rest : Bytes) :
    decode (encode n ++ rest) = .complete n rest := by
  have hread : Varint.decode maxRemainingLengthBytes (Varint.encode n ++ rest) = .complete n rest :=
    Varint.decode_encode (k := 3) h rest
  rw [encode_eq, decode_eq, hread]

/-- A longer one is refused. -/
theorem decode_encode_of_le {n : Nat} (h : 2 ^ 28 ≤ n) (rest : Bytes) :
    decode (encode n ++ rest) = .error .socketError := by
  have hread : Varint.decode maxRemainingLengthBytes (Varint.encode n ++ rest) = .error () :=
    Varint.decode_encode_of_le (k := 4) h rest
  rw [encode_eq, decode_eq, hread]

/-- A length that is read is one of the general coding. -/
theorem decode_complete_iff {net rest : Bytes} {n : Nat} :
    decode net = .complete n rest ↔ Varint.decode maxRemainingLengthBytes net = .complete n rest := by
  rw [decode_eq]
  cases Varint.decode maxRemainingLengthBytes net <;> simp

/-- A fifth byte is an error. -/
theorem decode_error {net : Bytes} {e : ReadError} (h : decode net = .error e) :
    e = .socketError ∧ Varint.decode maxRemainingLengthBytes net = .error () := by
  rw [decode_eq] at h
  cases hread : Varint.decode maxRemainingLengthBytes net with
  | complete v rest => rw [hread] at h; cases h
  | interrupted => rw [hread] at h; cases h
  | error e' =>
      rw [hread] at h
      cases h
      exact ⟨rfl, rfl⟩

/-! ## §2. The laws of a reader. -/

/-- What the readers find in at least two bytes. -/
theorem exists_two (data : Bytes) (h : ¬ data.length < 2) :
    ∃ a b rest, data = a :: b :: rest := by
  match data with
  | [] => simp at h
  | [a] => simp at h
  | a :: b :: rest => exact ⟨a, b, rest, rfl⟩

/-- `enddata` bounds every read of a topic. -/
theorem readUTFlen_isSome (data : Bytes) : (readUTFlen data).isSome := by
  unfold readUTFlen
  split
  next hlong =>
    obtain ⟨a, b, rest, rfl⟩ := exists_two data (by omega)
    show (if _ then _ else _ : Option (Option (Bytes × Bytes))).isSome
    split <;> rfl
  · rfl

/-- So no reader of a PUBLISH reads beyond the packet. -/
theorem publish_isSome (header : UInt8) (data : Bytes) : (publish header data).isSome := by
  unfold publish
  obtain ⟨read, hread⟩ := Option.isSome_iff_exists.mp (readUTFlen_isSome data)
  cases read with
  | none =>
      simp only [hread]
      rfl
  | some field =>
      obtain ⟨topic, curdata⟩ := field
      simp only [hread]
      show (if _ then (if _ then _ else _) else _ : Built).isSome
      split
      · split
        · rfl
        next hlong =>
          obtain ⟨a, b, rest, rfl⟩ := exists_two _ hlong
          rfl
      · rfl

/-- **No reader leaves the packet**, whatever bytes it is given. -/
theorem newPacket_isSome {t : MsgType} {newPacket : UInt8 → Bytes → Built}
    (ht : newPackets t = some newPacket) (header : UInt8) (data : Bytes) :
    (newPacket header data).isSome := by
  by_cases hshort : data.length < 2
  · -- every reader but those of `PUBLISH` and of a header alone gives up at once
    cases t <;> cases ht <;> first
      | exact publish_isSome header data
      | rfl
      | simp only [ack, connack, suback, unsuback, if_pos hshort, Option.isSome_some]
  · obtain ⟨a, b, rest, rfl⟩ := exists_two _ hshort
    cases t <;> cases ht <;> first
      | exact publish_isSome header _
      | rfl
      | skip
    simp only [suback, if_neg hshort]
    show (if _ then _ else _ : Built).isSome
    split <;> rfl

/-- A bad packet is a `SOCKET_ERROR`. -/
theorem build_error {header : UInt8} {data : Bytes} {e : ReadError}
    (h : build header data = .error e) : e = .socketError := by
  unfold build at h
  split at h
  · cases h
  next newPacket hnew =>
    obtain ⟨t, -, ht⟩ := Option.bind_eq_some_iff.mp hnew
    have hsome := newPacket_isSome ht header data
    split at h
    next hnone =>
      rw [hnone] at hsome
      cases hsome
    · cases h
      rfl
    · cases h

/-- What a complete packet is made of. -/
theorem factory_complete {net rest : Bytes} {p : Option Packet}
    (h : factory net = .complete p rest) :
    ∃ header net₀ n net₁, net = header :: net₀ ∧ decode net₀ = .complete n net₁
      ∧ n ≤ net₁.length ∧ build header (net₁.take n) = .ok p ∧ rest = net₁.drop n := by
  cases net with
  | nil => cases h
  | cons header net₀ =>
      simp only [factory] at h
      split at h
      · cases h
      · cases h
      next n net₁ hdecode =>
        simp only [readData] at h
        split at h
        · cases h
        next hlong =>
          split at h
          next pack hbuild =>
            cases h
            exact ⟨header, net₀, n, net₁, rfl, hdecode, by omega, hbuild, rfl⟩
          · cases h

/-- And the converse. -/
theorem factory_of_decode {header : UInt8} {net₀ net₁ : Bytes} {n : Nat} {p : Option Packet}
    (hdecode : decode net₀ = .complete n net₁) (hle : n ≤ net₁.length)
    (hbuild : build header (net₁.take n) = .ok p) :
    factory (header :: net₀) = .complete p (net₁.drop n) := by
  have hlong : ¬ net₁.length < n := by omega
  simp only [factory, hdecode, readData, if_neg hlong, hbuild]

/-- Bytes behind a length stay unread. -/
theorem decode_append {net rest : Bytes} {n : Nat} (h : decode net = .complete n rest)
    (more : Bytes) : decode (net ++ more) = .complete n (rest ++ more) := by
  rw [decode_complete_iff] at h ⊢
  exact Varint.decode_complete_append h more

/-- A length takes at least one byte. -/
theorem decode_shorter {net rest : Bytes} {n : Nat} (h : decode net = .complete n rest) :
    rest.length < net.length :=
  Varint.decode_shorter (decode_complete_iff.mp h)

/-- So does a packet. -/
theorem factory_shorter {net rest : Bytes} {p : Option Packet}
    (h : factory net = .complete p rest) : rest.length < net.length := by
  obtain ⟨header, net₀, n, net₁, rfl, hdecode, -, -, rfl⟩ := factory_complete h
  have hlt := decode_shorter hdecode
  rw [List.length_cons, List.length_drop]
  omega

/-- Bytes behind a packet stay unread. -/
theorem factory_append {net rest : Bytes} {p : Option Packet}
    (h : factory net = .complete p rest) (more : Bytes) :
    factory (net ++ more) = .complete p (rest ++ more) := by
  obtain ⟨header, net₀, n, net₁, rfl, hdecode, hle, hbuild, rfl⟩ := factory_complete h
  have htake : (net₁ ++ more).take n = net₁.take n := List.take_append_of_le_length hle
  have hdrop : (net₁ ++ more).drop n = net₁.drop n ++ more := List.drop_append_of_le_length hle
  rw [← hdrop]
  apply factory_of_decode (decode_append hdecode more)
  · rw [List.length_append]
    omega
  · rw [htake]
    exact hbuild

/-- The ways to fail: the length is too long, or the packet is bad. -/
theorem factory_error {net : Bytes} {e : ReadError} (h : factory net = .error e) :
    e = .socketError ∧ ∀ more, factory (net ++ more) = .error .socketError := by
  cases net with
  | nil => cases h
  | cons header net₀ =>
      simp only [factory] at h
      split at h
      · cases h
      next hdecode =>
        cases h
        obtain ⟨rfl, hlong⟩ := decode_error hdecode
        refine ⟨rfl, ?_⟩
        intro more
        have hmore : decode (net₀ ++ more) = .error .socketError := by
          rw [decode_eq, Varint.decode_error_append hlong more]
        simp only [List.cons_append, factory, hmore]
      next n net₁ hdecode =>
        simp only [readData] at h
        split at h
        · cases h
        next hlong =>
          split at h
          · cases h
          next hbuild =>
            cases h
            obtain rfl := build_error hbuild
            refine ⟨rfl, ?_⟩
            intro more
            have htake : (net₁ ++ more).take n = net₁.take n :=
              List.take_append_of_le_length (by omega)
            have hlong' : ¬ (net₁ ++ more).length < n := by
              rw [List.length_append]
              omega
            simp only [List.cons_append, factory, decode_append hdecode more, readData,
              if_neg hlong', htake, hbuild]

/-- `MQTTPacket_Factory` on the bytes the socket has kept and received. -/
def factoryReader : Reader ReadError (Option Packet) where
  read := factory
  shorter := factory_shorter
  complete_append := factory_append
  error_append := by
    intro bs e h more
    obtain ⟨rfl, happend⟩ := factory_error h
    exact happend more

/-! ## §3. What is sent is read back. -/

/-- Several buffers are written as one. -/
theorem sends_eq (h : Header) (bufs : List Bytes) : sends h bufs = send h bufs.flatten := by
  unfold sends send
  rw [List.length_flatten]

/-- The call of a builder is the end of `MQTTPacket_Factory`. -/
def built (rest : Bytes) : Except ReadError (Option Packet) → Outcome ReadError (Option Packet)
  | .ok pack => .complete pack rest
  | .error e => .error e

/-- A packet of less than `2 ^ 28` bytes reaches its builder whole. -/
theorem factory_send {h : Header} {data : Bytes} (hlt : data.length < 2 ^ 28) (rest : Bytes) :
    factory (send h data ++ rest) = built rest (build h.byte data) := by
  have hlong : ¬ (data ++ rest).length < data.length := by
    rw [List.length_append]
    omega
  have happend : send h data ++ rest = h.byte :: (encode data.length ++ (data ++ rest)) := by
    simp only [send, List.cons_append, List.append_assoc]
  rw [happend]
  unfold factory readData
  dsimp only
  rw [decode_encode hlt]
  dsimp only
  rw [if_neg hlong, List.take_left' rfl, List.drop_left' rfl]
  cases build h.byte data with
  | ok pack => rfl
  | error e => rfl

/-- A longer one is refused for its length. -/
theorem factory_send_of_le {h : Header} {data : Bytes} (hle : 2 ^ 28 ≤ data.length)
    (rest : Bytes) : factory (send h data ++ rest) = .error .socketError := by
  have happend : send h data ++ rest = h.byte :: (encode data.length ++ (data ++ rest)) := by
    simp only [send, List.cons_append, List.append_assoc]
  rw [happend]
  simp only [factory, decode_encode_of_le hle]

/-- Two bytes keep a number modulo `2 ^ 16`. -/
theorem readInt_writeInt (n : Nat) (rest : Bytes) :
    readInt (writeInt n ++ rest) = some (n % 2 ^ 16, rest) := by
  show some (256 * (UInt8.ofNat (n / 256)).toNat + (UInt8.ofNat (n % 256)).toNat, rest) = _
  rw [UInt8.toNat_ofNat', UInt8.toNat_ofNat']
  congr 2
  omega

theorem writeInt_length (n : Nat) : (writeInt n).length = 2 := rfl

/-- A topic behind its length is read whole. -/
theorem readUTFlen_writeInt {n : Nat} (hn : n < 2 ^ 16) {topic : Bytes} (htopic : topic.length = n)
    (rest : Bytes) :
    readUTFlen (writeInt n ++ (topic ++ rest)) = some (some (topic, rest)) := by
  have hlong : (writeInt n ++ (topic ++ rest)).length > 1 := by
    rw [List.length_append, writeInt_length]
    omega
  have hle : n ≤ (topic ++ rest).length := by
    rw [List.length_append]
    omega
  unfold readUTFlen
  rw [if_pos hlong, readInt_writeInt, Nat.mod_eq_of_lt hn]
  show (if n ≤ (topic ++ rest).length then _ else _) = _
  rw [if_pos hle, List.take_left' htopic, List.drop_left' htopic]

/-- What `sendPublish` puts behind the header. -/
def publishData (pack : Publish) (qos : Int) : Bytes :=
  let topic := pack.topic.takeWhile (· ≠ 0)
  writeInt topic.length
    ++ (topic ++ ((if qos > 0 then writeInt pack.msgId else []) ++ pack.payload))

/-- A PUBLISH is its header, a length and its data. -/
theorem sendPublish_eq (pack : Publish) (dup : Bool) (qos : Int) (retained : Bool) :
    sendPublish pack dup qos retained
      = send ⟨MsgType.publish.code, dup, BitVec.ofInt 2 qos, retained⟩ (publishData pack qos) := by
  unfold sendPublish publishData
  by_cases hqos : qos > 0
  · simp only [if_pos hqos, sends_eq, List.flatten_cons, List.flatten_nil, List.append_nil]
  · simp only [if_neg hqos, sends_eq, List.flatten_cons, List.flatten_nil, List.append_nil,
      List.nil_append]

/-- What the call of a builder comes to. -/
def packetOf : Built → Except ReadError (Option Packet)
  | none => .error .overrun
  | some none => .error .socketError
  | some (some pack) => .ok (some pack)

/-- The type in the header picks the reader. -/
theorem build_publish (h : Header) (htype : h.type = MsgType.publish.code) (data : Bytes) :
    build h.byte data = packetOf (publish h.byte data) := by
  unfold build
  rw [Header.ofByte_byte, htype, MsgType.ofCode_code]
  rcases hpub : publish h.byte data with _ | _ | pack
  · simp only [Option.bind_some, newPackets, hpub, packetOf]
  · simp only [Option.bind_some, newPackets, hpub, packetOf]
  · simp only [Option.bind_some, newPackets, hpub, packetOf]

/-- `publish` behind its topic. -/
theorem publish_of_topic {header : UInt8} {data topic curdata : Bytes}
    (h : readUTFlen data = some (some (topic, curdata))) :
    publish header data =
      if (Header.ofByte header).qos > 0 then
        if curdata.length < 2 then some none
        else (readInt curdata).bind fun (msgId, curdata) =>
          some (some (.publish ⟨Header.ofByte header, topic, msgId, curdata⟩))
      else some (some (.publish ⟨Header.ofByte header, topic, 0, curdata⟩)) := by
  unfold publish
  simp only [h]
  rfl

/-- Two bytes hold less than `2 ^ 16`. -/
theorem readInt_lt {ptr rest : Bytes} {n : Nat} (h : readInt ptr = some (n, rest)) :
    n < 2 ^ 16 := by
  match ptr with
  | [] => cases h
  | [a] => cases h
  | a :: b :: ptr =>
      cases h
      have ha := a.toNat_lt
      have hb := b.toNat_lt
      omega

/-- What is read as a topic has a length of two bytes and is in the packet. -/
theorem readUTFlen_some {data topic curdata : Bytes}
    (h : readUTFlen data = some (some (topic, curdata))) :
    topic.length < 2 ^ 16 ∧ 2 + topic.length + curdata.length = data.length := by
  unfold readUTFlen at h
  split at h
  next hlong =>
    obtain ⟨a, b, rest, rfl⟩ := exists_two data (by omega)
    have hint : readInt (a :: b :: rest) = some (256 * a.toNat + b.toNat, rest) := rfl
    have hlt := readInt_lt hint
    have h' : (if 256 * a.toNat + b.toNat ≤ rest.length then
        some (some (rest.take (256 * a.toNat + b.toNat), rest.drop (256 * a.toNat + b.toNat)))
      else some none) = some (some (topic, curdata)) := h
    split at h'
    next hle =>
      cases h'
      rw [List.length_take_of_le hle, List.length_drop, List.length_cons, List.length_cons]
      omega
    · cases h'
  · cases h

/-- What a `PUBLISH` packet that is read is made of. -/
theorem publish_cases {header : UInt8} {data : Bytes} {p : Packet}
    (h : publish header data = some (some p)) :
    ∃ topic curdata msgId payload, readUTFlen data = some (some (topic, curdata))
      ∧ p = .publish ⟨Header.ofByte header, topic, msgId, payload⟩
      ∧ ((Header.ofByte header).qos > 0 ∧ readInt curdata = some (msgId, payload)
        ∨ ¬ (Header.ofByte header).qos > 0 ∧ msgId = 0 ∧ payload = curdata) := by
  obtain ⟨read, hread⟩ := Option.isSome_iff_exists.mp (readUTFlen_isSome data)
  cases read with
  | none =>
      simp only [publish, hread] at h
      cases h
  | some field =>
      obtain ⟨topic, curdata⟩ := field
      rw [publish_of_topic hread] at h
      split at h
      next hqos =>
        split at h
        · cases h
        · obtain ⟨⟨msgId, payload⟩, hint, heq⟩ := Option.bind_eq_some_iff.mp h
          cases heq
          exact ⟨topic, curdata, msgId, payload, hread, rfl, .inl ⟨hqos, hint⟩⟩
      next hqos =>
        cases h
        exact ⟨topic, curdata, 0, curdata, hread, rfl, .inr ⟨hqos, rfl, rfl⟩⟩

/-- A topic that is read has a two-byte length, and so has a message id. -/
theorem publish_bounds {header : UInt8} {data : Bytes} {q : Publish}
    (h : publish header data = some (some (.publish q))) :
    q.topic.length < 2 ^ 16 ∧ q.msgId < 2 ^ 16 := by
  obtain ⟨topic, curdata, msgId, payload, hread, heq, hrest⟩ := publish_cases h
  cases heq
  refine ⟨(readUTFlen_some hread).1, ?_⟩
  rcases hrest with ⟨-, hint⟩ | ⟨-, rfl, -⟩
  · exact readInt_lt hint
  · show 0 < 2 ^ 16
    omega

/-- The `PUBLISH` packets that fit: a topic without NUL and of at most 65535
bytes, a QoS of two bits, a message id of two bytes, a length of 28 bits. -/
structure Fits (pack : Publish) (qos : Int) : Prop where
  topic_nulFree : 0 ∉ pack.topic
  topic_length : pack.topic.length < 2 ^ 16
  qos_range : 0 ≤ qos ∧ qos ≤ 3
  msgId_lt : 0 < qos → pack.msgId < 2 ^ 16
  total : (publishData pack qos).length < 2 ^ 28

/-- These bytes are read as this packet, whatever follows. -/
def ReadAs (bytes : Bytes) (pack : Publish) (dup : Bool) (qos : Int) (retained : Bool) : Prop :=
  ∃ q : BitVec 2, (q.toNat : Int) = qos ∧ ∀ rest,
    factory (bytes ++ rest) = .complete (some (.publish
      ⟨⟨MsgType.publish.code, dup, q, retained⟩, pack.topic, if qos > 0 then pack.msgId else 0,
        pack.payload⟩)) rest

/-- `strlen` is the length of a topic without NUL. -/
theorem takeWhile_eq_iff (topic : Bytes) : topic.takeWhile (· ≠ 0) = topic ↔ 0 ∉ topic := by
  rw [List.takeWhile_eq_self_iff]
  constructor
  · intro h h0
    simpa using h 0 h0
  · intro h b hb
    have hne : b ≠ 0 := fun h0 => h (h0 ▸ hb)
    simpa using hne

/-- The bits of a QoS between 0 and 3 are that QoS. -/
theorem toNat_qos {qos : Int} (h : 0 ≤ qos ∧ qos ≤ 3) : ((BitVec.ofInt 2 qos).toNat : Int) = qos := by
  rw [BitVec.toNat_ofInt]
  omega

/-- The two bits of the header are positive when the `int` is. -/
theorem qos_pos {qos : Int} (h : 0 ≤ qos ∧ qos ≤ 3) : BitVec.ofInt 2 qos > 0 ↔ qos > 0 := by
  have hbits := toNat_qos h
  rw [gt_iff_lt, BitVec.lt_def]
  show 0 < (BitVec.ofInt 2 qos).toNat ↔ _
  omega

/-- The topic `sendPublish` writes, as it is read. -/
theorem readUTFlen_publishData (pack : Publish) (qos : Int)
    (h : (pack.topic.takeWhile (· ≠ 0)).length < 2 ^ 16) :
    readUTFlen (publishData pack qos) = some (some (pack.topic.takeWhile (· ≠ 0),
      (if qos > 0 then writeInt pack.msgId else []) ++ pack.payload)) :=
  readUTFlen_writeInt h rfl _

/-- **A packet within the limits is read back.** -/
theorem Fits.read {pack : Publish} {qos : Int} (h : Fits pack qos) (dup retained : Bool) :
    ReadAs (sendPublish pack dup qos retained) pack dup qos retained := by
  refine ⟨BitVec.ofInt 2 qos, toNat_qos h.qos_range, ?_⟩
  intro rest
  have htake := (takeWhile_eq_iff _).mpr h.topic_nulFree
  have hread := readUTFlen_publishData pack qos (by rw [htake]; exact h.topic_length)
  rw [htake] at hread
  rw [sendPublish_eq, factory_send h.total, build_publish _ rfl, publish_of_topic hread,
    Header.ofByte_byte]
  by_cases hqos : qos > 0
  · have hlong : ¬ (writeInt pack.msgId ++ pack.payload).length < 2 := by
      rw [List.length_append, writeInt_length]
      omega
    simp only [if_pos hqos, if_pos ((qos_pos h.qos_range).mpr hqos), if_neg hlong,
      readInt_writeInt, Nat.mod_eq_of_lt (h.msgId_lt hqos), Option.bind_some, packetOf, built]
  · simp only [if_neg hqos, if_neg fun hpos => hqos ((qos_pos h.qos_range).mp hpos),
      List.nil_append, packetOf, built]

/-- A packet that is read back was short enough, and its data were taken. -/
theorem of_readAs {pack : Publish} {dup retained : Bool} {qos : Int}
    (h : ReadAs (sendPublish pack dup qos retained) pack dup qos retained) :
    (publishData pack qos).length < 2 ^ 28 ∧ ∃ q : BitVec 2, (q.toNat : Int) = qos
      ∧ publish (Header.byte ⟨MsgType.publish.code, dup, BitVec.ofInt 2 qos, retained⟩)
          (publishData pack qos)
        = some (some (.publish ⟨⟨MsgType.publish.code, dup, q, retained⟩, pack.topic,
            if qos > 0 then pack.msgId else 0, pack.payload⟩)) := by
  obtain ⟨q, hq, hread⟩ := h
  have hread := hread []
  rw [sendPublish_eq] at hread
  by_cases hlt : (publishData pack qos).length < 2 ^ 28
  · refine ⟨hlt, q, hq, ?_⟩
    rw [factory_send hlt, build_publish _ rfl] at hread
    rcases hpub : publish _ (publishData pack qos) with _ | _ | p
    · rw [hpub] at hread
      cases hread
    · rw [hpub] at hread
      cases hread
    · rw [hpub] at hread
      cases hread
      rfl
  · rw [factory_send_of_le (by omega)] at hread
    cases hread

/-- A packet that is read back fits. -/
theorem fits_of_readAs {pack : Publish} {dup retained : Bool} {qos : Int}
    (h : ReadAs (sendPublish pack dup qos retained) pack dup qos retained) : Fits pack qos := by
  obtain ⟨hlt, q, hq, hpub⟩ := of_readAs h
  obtain ⟨htopic, hmsgId⟩ := publish_bounds hpub
  have hq4 := q.isLt
  refine ⟨?_, htopic, by omega, ?_, hlt⟩
  · -- the topic that is read ends at the first NUL
    have hle : (pack.topic.takeWhile (· ≠ 0)).length < 2 ^ 16 :=
      lt_of_le_of_lt (List.takeWhile_sublist _).length_le htopic
    obtain ⟨topic, curdata, msgId, payload, hcut, heq, -⟩ := publish_cases hpub
    rw [readUTFlen_publishData pack qos hle] at hcut
    simp only [Option.some.injEq, Prod.mk.injEq] at hcut
    simp only [Packet.publish.injEq, Publish.mk.injEq] at heq
    rw [← takeWhile_eq_iff, hcut.1]
    exact heq.2.1.symm
  · intro hqos
    simpa [hqos] using hmsgId

/-- **EXACTLY THE PACKETS THAT FIT ARE READ BACK**: what
`MQTTPacket_send_publish` puts on the socket `MQTTPacket_Factory` reads as the
same topic, message id, payload and flags if and only if the packet fits. -/
theorem publish_iff (pack : Publish) (dup : Bool) (qos : Int) (retained : Bool) :
    ReadAs (sendPublish pack dup qos retained) pack dup qos retained ↔ Fits pack qos := by
  constructor
  · intro h
    exact fits_of_readAs h
  · intro h
    exact h.read dup retained

/-! ## §4. What is accepted. -/

/-- Only the reader of `PUBLISH` makes a `PUBLISH` packet. -/
theorem newPacket_publish {t : MsgType} {newPacket : UInt8 → Bytes → Built}
    (ht : newPackets t = some newPacket) {header : UInt8} {data : Bytes} {q : Publish}
    (h : newPacket header data = some (some (.publish q))) : t = .publish := by
  by_cases hshort : data.length < 2
  · cases t <;> cases ht <;> first
      | rfl
      | cases h
      | simp [ack, connack, suback, unsuback, hshort] at h
  · obtain ⟨a, b, rest, rfl⟩ := exists_two _ hshort
    cases t <;> cases ht <;> first
      | rfl
      | cases h
      | skip
    -- of `SUBACK` alone more than two bytes are needed
    have hsuback : (if rest = [] then some none
        else some (some (Packet.suback ⟨Header.ofByte header, 256 * a.toNat + b.toNat,
          rest.map UInt8.toNat⟩))) = some (some (Packet.publish q)) := h
    split at hsuback <;> cases hsuback

/-- Four bits name one type. -/
theorem code_of_ofCode {c : BitVec 4} {t : MsgType} (h : MsgType.ofCode c = some t) :
    t.code = c := by
  simpa using List.find?_some h

/-- A `PUBLISH` packet has its type in the header. -/
theorem build_eq_publish {header : UInt8} {data : Bytes} {q : Publish}
    (h : build header data = .ok (some (.publish q))) :
    (Header.ofByte header).type = MsgType.publish.code
      ∧ publish header data = some (some (.publish q)) := by
  unfold build at h
  split at h
  · cases h
  next newPacket hnew =>
    obtain ⟨t, hcode, ht⟩ := Option.bind_eq_some_iff.mp hnew
    split at h
    · cases h
    · cases h
    next hbuilt =>
      cases h
      obtain rfl := newPacket_publish ht hbuilt
      cases ht
      exact ⟨(code_of_ofCode hcode).symm, hbuilt⟩

/-- The bytes the remaining length counts. -/
theorem publishData_length (pack : Publish) (qos : Int) :
    (publishData pack qos).length
      = 2 + (pack.topic.takeWhile (· ≠ 0)).length + (if qos > 0 then 2 else 0)
        + pack.payload.length := by
  unfold publishData
  split <;> simp [writeInt_length] <;> omega

/-- What the data of a `PUBLISH` packet leave no more than. -/
theorem publishData_le {header : UInt8} {data : Bytes} {q : Publish}
    (h : publish header data = some (some (.publish q))) :
    (publishData q q.header.qos.toNat).length ≤ data.length := by
  obtain ⟨topic, curdata, msgId, payload, hread, heq, hrest⟩ := publish_cases h
  have hlen := (readUTFlen_some hread).2
  have htake : (topic.takeWhile (· ≠ 0)).length ≤ topic.length :=
    (List.takeWhile_sublist _).length_le
  cases heq
  rw [publishData_length]
  show 2 + (topic.takeWhile (· ≠ 0)).length
    + (if ((Header.ofByte header).qos.toNat : Int) > 0 then 2 else 0) + payload.length ≤ _
  rcases hrest with ⟨-, hint⟩ | ⟨hqos, -, rfl⟩
  · -- the message id takes two bytes of what follows the topic
    have hpayload : curdata.length = 2 + payload.length := by
      match curdata with
      | [] => cases hint
      | [a] => cases hint
      | a :: b :: rest =>
          cases hint
          rw [List.length_cons, List.length_cons]
          omega
    split <;> omega
  · rw [gt_iff_lt, BitVec.lt_def] at hqos
    have h0 : (Header.ofByte header).qos.toNat = 0 := Nat.eq_zero_of_not_pos hqos
    simp only [h0]
    rw [if_neg (by omega)]
    omega

/-- **What is accepted can be sent on**: a `PUBLISH` packet that was read, from
whatever bytes, is read back from what `sendPublish` makes of it unless its
topic contains a NUL, and takes no more bytes than before. -/
theorem accepted_publish {net rest : Bytes} {q : Publish}
    (h : factory net = .complete (some (.publish q)) rest) :
    (ReadAs (sendPublish q q.header.dup q.header.qos.toNat q.header.retain) q q.header.dup
        q.header.qos.toNat q.header.retain ↔ 0 ∉ q.topic)
      ∧ (sendPublish q q.header.dup q.header.qos.toNat q.header.retain).length + rest.length
        ≤ net.length := by
  obtain ⟨header, net₀, n, net₁, rfl, hdecode, hle, hbuild, rfl⟩ := factory_complete h
  obtain ⟨-, hpub⟩ := build_eq_publish hbuild
  rw [decode_complete_iff] at hdecode
  have hn : n < 2 ^ 28 := Varint.decode_lt hdecode
  have hshort := Varint.encode_length_le hdecode
  have hdata := publishData_le hpub
  rw [List.length_take_of_le hle] at hdata
  obtain ⟨htopic, hmsgId⟩ := publish_bounds hpub
  have hq := q.header.qos.isLt
  constructor
  · constructor
    · intro h
      exact (fits_of_readAs h).topic_nulFree
    · intro hnul
      have hfits : Fits q q.header.qos.toNat := ⟨hnul, htopic, by omega, fun _ => hmsgId, by omega⟩
      exact hfits.read _ _
  · have hmono := Varint.encode_length_mono hdata
    rw [sendPublish_eq]
    simp only [send, encode_eq, List.length_append, List.length_cons, List.length_drop]
    omega

/-- A message with a length of two bytes where one would do, and one byte of
the next packet. -/
def padded : Bytes := [0x32, 0x87, 0x00, 0, 1, 116, 0, 5, 104, 105, 0xC0]

/-- It is sent on in one byte less. -/
theorem accepted_publish_padded :
    (ReadAs (sendPublish ⟨Header.ofByte 0x32, [116], 5, [104, 105]⟩ false 1 false)
        ⟨Header.ofByte 0x32, [116], 5, [104, 105]⟩ false 1 false ↔ 0 ∉ ([116] : Bytes))
      ∧ (sendPublish ⟨Header.ofByte 0x32, [116], 5, [104, 105]⟩ false 1 false).length + 1 ≤ 11 :=
  @accepted_publish padded [0xC0] ⟨Header.ofByte 0x32, [116], 5, [104, 105]⟩ (by decide +kernel)

/-! ## §5. Streams of packets. -/

/-- The acknowledgement packets `sendAck` writes. -/
def ackHeader (t : MsgType) (dup : Bool) : Header :=
  ⟨t.code, dup, if t = .pubrel then 1 else 0, false⟩

/-- What the library sends. -/
inductive Sent where
  | publish (pack : Publish)
  | ack (t : MsgType) (msgid : Nat) (dup : Bool)
  | pingreq

namespace Sent

/-- Its bytes. -/
def bytes : Sent → Bytes
  | .publish pack => sendPublish pack pack.header.dup pack.header.qos.toNat pack.header.retain
  | .ack t msgid dup => sendAck t msgid dup
  | .pingreq => sendPingreq

/-- The packet it is read as. -/
def packet : Sent → Packet
  | .publish pack => .publish pack
  | .ack t msgid dup => .ack ⟨ackHeader t dup, msgid⟩
  | .pingreq => .headerOnly ⟨MsgType.pingreq.code, false, 0, false⟩

/-- It is within the limits of the format. -/
def Fits : Sent → Prop
  | .publish pack => MQTTPacket.Fits pack pack.header.qos.toNat
      ∧ pack.header.type = MsgType.publish.code ∧ (pack.header.qos = 0 → pack.msgId = 0)
  | .ack t msgid _ => (t = .puback ∨ t = .pubrec ∨ t = .pubrel ∨ t = .pubcomp) ∧ msgid < 2 ^ 16
  | .pingreq => True

end Sent

/-- An acknowledgement is read back. -/
theorem factory_sendAck {t : MsgType} (ht : newPackets t = some ack) {msgid : Nat}
    (h : msgid < 2 ^ 16) (dup : Bool) (rest : Bytes) :
    factory (sendAck t msgid dup ++ rest) = .complete (some (.ack ⟨ackHeader t dup, msgid⟩)) rest := by
  have hread : readInt (writeInt msgid) = some (msgid, []) := by
    have hread := readInt_writeInt msgid []
    rwa [List.append_nil, Nat.mod_eq_of_lt h] at hread
  have hack : ack (ackHeader t dup).byte (writeInt msgid)
      = some (some (.ack ⟨ackHeader t dup, msgid⟩)) := by
    unfold ack
    rw [if_neg (by rw [writeInt_length]; omega), hread, Header.ofByte_byte]
    rfl
  have hbuild : build (ackHeader t dup).byte (writeInt msgid)
      = .ok (some (.ack ⟨ackHeader t dup, msgid⟩)) := by
    have htype : MsgType.ofCode (ackHeader t dup).type = some t := MsgType.ofCode_code t
    unfold build
    rw [Header.ofByte_byte, htype, Option.bind_some, ht]
    simp only [hack]
  have hlt : (writeInt msgid).length < 2 ^ 28 := by
    rw [writeInt_length]
    omega
  show factory (send (ackHeader t dup) (writeInt msgid) ++ rest) = _
  rw [factory_send hlt, hbuild]
  rfl

/-- **What is sent is read back**, whatever follows it. -/
theorem factory_sent {p : Sent} (h : p.Fits) (rest : Bytes) :
    factory (p.bytes ++ rest) = .complete (some p.packet) rest := by
  cases p with
  | publish pack =>
      obtain ⟨hfits, htype, hid⟩ := h
      obtain ⟨q, hq, hread⟩ := hfits.read pack.header.dup pack.header.retain
      obtain rfl : q = pack.header.qos := BitVec.eq_of_toNat_eq (by omega)
      have hmsgId : (if (pack.header.qos.toNat : Int) > 0 then pack.msgId else 0) = pack.msgId := by
        split
        · rfl
        next hqos =>
          have h0 : pack.header.qos.toNat = 0 := by omega
          exact (hid (BitVec.eq_of_toNat_eq h0)).symm
      have hread := hread rest
      rw [hmsgId, ← htype] at hread
      exact hread
  | ack t msgid dup =>
      obtain ⟨ht, hlt⟩ := h
      refine factory_sendAck ?_ hlt dup rest
      rcases ht with rfl | rfl | rfl | rfl <;> rfl
  | pingreq =>
      show factory (send _ [] ++ rest) = _
      rw [factory_send (by decide)]
      rfl

/-- **HOWEVER THE NETWORK CUTS THE STREAM**, the packets that were sent are the
packets that are read, in their order, and no byte is left. -/
theorem stream_read (ps : List Sent) (hfits : ∀ p ∈ ps, p.Fits) (pieces : List Bytes)
    (h : pieces.flatten = (ps.map Sent.bytes).flatten) :
    pieces.foldl factoryReader.feed (factoryReader.drain [])
      = ⟨ps.map fun p => some p.packet, [], none⟩ := by
  rw [Reader.foldl_feed, h]
  exact Reader.drain_flatten rfl ps fun p hp rest => factory_sent (hfits p hp) rest

/-- A message, the release of another and a ping. -/
def burst : List Sent :=
  [.publish ⟨⟨MsgType.publish.code, false, 1, false⟩, [116, 111, 112, 105, 99], 7, [65, 66, 0]⟩,
    .ack .pubrel 6 false, .pingreq]

/-- Byte by byte. -/
theorem stream_read_bytewise :
    ((burst.map Sent.bytes).flatten.map fun b => [b]).foldl factoryReader.feed
        (factoryReader.drain [])
      = ⟨burst.map fun p => some p.packet, [], none⟩ :=
  stream_read burst
    (by
      intro p hp
      simp only [burst, List.mem_cons, List.not_mem_nil, or_false] at hp
      rcases hp with rfl | rfl | rfl
      · exact ⟨⟨by decide, by decide, by decide, by decide, by decide⟩, rfl, by decide⟩
      · exact ⟨by decide, by decide⟩
      · trivial)
    _ (by decide +kernel)

end MqttBenchmark.Paho.MQTTPacket
