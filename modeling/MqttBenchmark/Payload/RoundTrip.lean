/-
  MqttBenchmark.Payload.RoundTrip
  ───────────────────────────────
  **PUBLISHER AND SUBSCRIBER AGREE ON THE PAYLOAD, OVER THE WHOLE RUN.**

  The buffer keeps one shape through every iteration,

      CLIENTID 0 | counter (4) | timestamp (8) | filler,

  because each `stampPayload` overwrites exactly the two middle fields.  The
  decoder finds the same split: the client id has no NUL of its own.

    • `initBuffer_eq`, `stampPayload_eq`, `publishLoop_eq` — the encoder,
    • `decodePayload_eq` — the decoder on that shape,
    • `rtt_ofInt` — the 32-bit sample is the difference of whole microseconds.
-/
import MqttBenchmark.Payload.Def
import Mathlib.Tactic.Linarith

namespace MqttBenchmark

open Lib

/-! ## §1. The clock. -/

theorem Timespec.micros_eq (tv : Timespec) :
    tv.micros = tv.tvSec * 1000000 + (tv.tvNsec / 1000 : Nat) := by
  unfold Timespec.micros Timespec.nanos
  omega

/-- The 64-bit reading is the whole microseconds modulo `2 ^ 64`. -/
theorem getUsTime_eq (tv : Timespec) : getUsTime tv = UInt64.ofInt tv.micros := by
  -- the nanoseconds are below a billion, so their division is exact in 64 bits
  have hns : UInt64.ofNat tv.tvNsec / 1000 = UInt64.ofInt (tv.tvNsec / 1000 : Nat) := by
    have h := tv.normalized
    apply UInt64.toNat.inj
    unfold UInt64.ofInt
    rw [UInt64.toNat_div, UInt64.toNat_ofNat_of_lt' (by simp [UInt64.size]; omega),
        UInt64.toNat_ofNat_of_lt' (by simp [UInt64.size]; omega)]
    show tv.tvNsec / 1000 = _
    omega
  unfold getUsTime
  rw [hns, tv.micros_eq, UInt64.ofInt_add, UInt64.ofInt_mul]
  rfl

/-- **No wrap-around**: two readings at most `2 ^ 32 - 1` microseconds apart
give their difference in whole microseconds. -/
theorem rtt_ofInt {a b : Int} (h0 : 0 ≤ a - b) (h1 : a - b < 2 ^ 32) :
    ((rtt (UInt64.ofInt a) (UInt64.ofInt b)).toNat : Int) = a - b := by
  unfold rtt
  -- modulo 2 ^ 64 and then 2 ^ 32 the difference is still the integer one
  rw [UInt64.sub_eq_add_neg, ← UInt64.ofInt_neg, ← UInt64.ofInt_add, UInt64.toNat_toUInt32]
  unfold UInt64.ofInt
  rw [UInt64.toNat_ofNat_of_lt' (by simp [UInt64.size]; omega)]
  omega

/-! ## §2. The encoder keeps the shape of the buffer. -/

theorem fillPayload_length {rand : Nat → Nat} {n i : Nat} {buf buf' : Bytes}
    (h : fillPayload rand n i buf = some buf') : buf'.length = buf.length := by
  induction n generalizing i buf with
  | zero =>
      injection h with h
      rw [h]
  | succ n ih =>
      simp only [fillPayload] at h
      split at h
      next => rw [ih h, List.length_set]
      next => exact absurd h (by simp)

/-- Inside the buffer and below `INT_MAX` the filler loop runs through. -/
theorem fillPayload_isSome (rand : Nat → Nat) {n i : Nat} {b : Bytes}
    (hbuf : i + n ≤ b.length) (hint : i + n ≤ intMax) :
    (fillPayload rand n i b).isSome := by
  induction n generalizing i b with
  | zero => rfl
  | succ n ih =>
      simp only [fillPayload]
      rw [if_pos ⟨by omega, by omega⟩]
      -- one byte written: the same bounds from the next index on
      exact ih (by rw [List.length_set]; omega) (by omega)

/-- The loop bound, when the size is not 0. -/
theorem size_sub_one {cfg : Config} (hpos : 0 < cfg.payloadSize.toNat) :
    (cfg.payloadSize - 1).toNat = cfg.payloadSize.toNat - 1 := by
  rw [UInt32.toNat_sub_of_le _ _ (by rw [UInt32.le_iff_toNat_le]; simp; omega)]
  rfl

/-- With a size from 1 to `2 ^ 31`, memory for it and for the client id, the
client id comes first. -/
theorem initBuffer_eq (cfg : Config) (rand : Nat → Nat) (buf : Bytes)
    (hpos : 0 < cfg.payloadSize.toNat) (hint : cfg.payloadSize.toNat ≤ 2 ^ 31)
    (hlen : cfg.payloadSize.toNat ≤ buf.length) (hid : cfg.clientId.toMemory.length ≤ buf.length) :
    ∃ rest, initBuffer cfg rand buf = some (cfg.clientId.toMemory ++ rest)
      ∧ cfg.clientId.toMemory.length + rest.length = buf.length := by
  have hsize := size_sub_one hpos
  have hsome := fillPayload_isSome rand (n := (cfg.payloadSize - 1).toNat) (i := 0) (b := buf)
    (by omega) (by rw [hsize, intMax]; omega)
  obtain ⟨filled, hfill⟩ := Option.isSome_iff_exists.mp hsome
  have hfilled : filled.length = buf.length := fillPayload_length hfill
  -- the terminating 0 goes to the last byte of the payload
  have hnul : ∃ nulled, Bytes.writeAt filled (cfg.payloadSize - 1).toNat [0] = some nulled := by
    unfold Bytes.writeAt
    rw [if_pos (by rw [List.length_singleton]; omega)]
    exact ⟨_, rfl⟩
  obtain ⟨nulled, hnul⟩ := hnul
  have hnulled : nulled.length = buf.length := (Bytes.writeAt_length hnul).trans hfilled
  -- the client id goes over the first bytes
  obtain ⟨front, rest, rfl, hfront⟩ :=
    Bytes.exists_split (b := nulled) (n := cfg.clientId.toMemory.length) (by omega)
  have hwrite : Bytes.writeAt (front ++ rest) 0 cfg.clientId.toMemory
      = some (cfg.clientId.toMemory ++ rest) := by
    have h := Bytes.writeAt_append [] front rest cfg.clientId.toMemory hfront.symm
    simpa using h
  refine ⟨rest, ?_, ?_⟩
  · unfold initBuffer
    simp only [hfill, Option.bind_eq_bind, Option.bind_some, hnul]
    exact hwrite
  · rw [List.length_append] at hnulled
    omega

/-- The offsets of counter and timestamp, when 32 bits are enough for them. -/
theorem headerOffset_toNat (cfg : Config) (hwrap : cfg.clientId.bytes.length + 13 ≤ 2 ^ 32) :
    (headerOffset cfg).toNat = cfg.clientId.bytes.length + 1
      ∧ (headerOffset cfg + 4).toNat = cfg.clientId.bytes.length + 5 := by
  have hoff : (headerOffset cfg).toNat = cfg.clientId.bytes.length + 1 := by
    rw [headerOffset, UInt32.toNat_ofNat_of_lt' (by simp [UInt32.size]; omega)]
  refine ⟨hoff, ?_⟩
  rw [UInt32.toNat_add, hoff]
  show (_ + 4) % 2 ^ 32 = _
  omega

/-- One iteration overwrites the two fields behind the client id. -/
theorem stampPayload_eq (o : ByteOrder) (cfg : Config)
    (hwrap : cfg.clientId.bytes.length + 13 ≤ 2 ^ 32) (fields tail : Bytes)
    (hfields : fields.length = 12) (it : UInt32) (deliverTs : UInt64) :
    stampPayload o cfg (cfg.clientId.toMemory ++ fields ++ tail) it deliverTs
      = some (cfg.clientId.toMemory
          ++ (Bytes.store o 4 it.toNat ++ Bytes.store o 8 deliverTs.toNat) ++ tail) := by
  obtain ⟨hoff, hoff4⟩ := headerOffset_toNat cfg hwrap
  have hid : cfg.clientId.bytes.length + 1 = cfg.clientId.toMemory.length :=
    (CString.toMemory_length _).symm
  have hctrEnd : cfg.clientId.bytes.length + 5
      = (cfg.clientId.toMemory ++ Bytes.store o 4 it.toNat).length := by
    rw [List.length_append, Bytes.store_length, CString.toMemory_length]
  rw [hid] at hoff
  rw [hctrEnd] at hoff4
  obtain ⟨ctr, stamp, rfl, hctr⟩ := Bytes.exists_split (b := fields) (n := 4) (by omega)
  rw [List.length_append] at hfields
  -- the counter overwrites four bytes, the timestamp the eight behind them
  have hfirst := Bytes.writeAt_append cfg.clientId.toMemory ctr (stamp ++ tail)
    (Bytes.store o 4 it.toNat) (by simp [hctr])
  have hsecond := Bytes.writeAt_append (cfg.clientId.toMemory ++ Bytes.store o 4 it.toNat) stamp tail
    (Bytes.store o 8 deliverTs.toNat) (by simp; omega)
  unfold stampPayload
  simp only [hoff, hoff4, Option.bind_eq_bind, ← List.append_assoc] at hfirst hsecond ⊢
  rw [hfirst, Option.bind_some, hsecond]

section Encoder

variable (o : ByteOrder) (cfg : Config) (rand : Nat → Nat)
variable (hfit : cfg.clientId.bytes.length + 13 ≤ cfg.payloadSize.toNat)

include hfit

/-- Before the loop: the client id, then `PAYLOAD_SIZE - strlen - 1` bytes. -/
theorem initPayload_eq (hint : cfg.payloadSize.toNat ≤ 2 ^ 31) :
    ∃ rest, initPayload cfg rand = some (cfg.clientId.toMemory ++ rest)
      ∧ cfg.clientId.toMemory.length + rest.length = cfg.payloadSize.toNat := by
  have h := initBuffer_eq cfg rand (List.replicate cfg.payloadSize.toNat 0) (by omega) hint
    (by rw [List.length_replicate])
    (by rw [CString.toMemory_length, List.length_replicate]; omega)
  rwa [List.length_replicate] at h

/-- **The loop invariant of `publish_thread`**: in iteration `n` the buffer
holds the client id, `n` modulo `2 ^ 32` and the timestamp of iteration `n`. -/
theorem publishLoop_eq (hint : cfg.payloadSize.toNat < 2 ^ 31) (ts : Nat → UInt64) :
    ∃ tail, cfg.clientId.toMemory.length + 12 + tail.length = cfg.payloadSize.toNat
      ∧ ∀ n, publishLoop o cfg rand ts n
          = some (cfg.clientId.toMemory
              ++ (Bytes.store o 4 (UInt32.ofNat n).toNat ++ Bytes.store o 8 (ts n).toNat) ++ tail,
              UInt32.ofNat n) := by
  obtain ⟨rest, hinit, hrest⟩ := initPayload_eq cfg rand hfit hint.le
  have hid := cfg.clientId.toMemory_length
  have hwrap : cfg.clientId.bytes.length + 13 ≤ 2 ^ 32 := by omega
  obtain ⟨fields, tail, rfl, hfields⟩ := Bytes.exists_split (b := rest) (n := 12) (by omega)
  rw [List.length_append] at hrest
  -- the tail is filler that no iteration touches, so it is chosen before `n`
  refine ⟨tail, by omega, ?_⟩
  intro n
  induction n with
  | zero =>
      have hstamp := stampPayload_eq o cfg hwrap fields tail hfields 0 (ts 0)
      rw [List.append_assoc] at hstamp
      simp only [publishLoop, hinit, Option.bind_eq_bind, Option.bind_some, hstamp]
      rfl
  | succ n ih =>
      -- iteration n + 1 stamps over the two fields of iteration n
      have hstamp := stampPayload_eq o cfg hwrap
        (Bytes.store o 4 (UInt32.ofNat n).toNat ++ Bytes.store o 8 (ts n).toNat) tail (by simp)
        (UInt32.ofNat n + 1) (ts (n + 1))
      simp only [publishLoop, ih, Option.bind_eq_bind, Option.bind_some, hstamp]
      rw [UInt32.ofNat_add]
      rfl

end Encoder

/-- The filler loop that runs through stays below `INT_MAX`. -/
theorem fillPayload_le {rand : Nat → Nat} {n i : Nat} {buf buf' : Bytes}
    (h : fillPayload rand n i buf = some buf') (hi : i ≤ intMax) : i + n ≤ intMax := by
  induction n generalizing i buf with
  | zero => exact hi
  | succ n ih =>
      simp only [fillPayload] at h
      split at h
      next hlt =>
        -- the guard of this round bounds `i + 1`, the induction the rest
        have hle := ih h (by omega)
        omega
      next => cases h

/-- Memory that was initialised starts with the client id. -/
theorem initBuffer_some {cfg : Config} {rand : Nat → Nat} {mem buf : Bytes}
    (h : initBuffer cfg rand mem = some buf) :
    0 < cfg.payloadSize.toNat ∧ cfg.payloadSize.toNat ≤ 2 ^ 31 ∧ buf.length = mem.length
      ∧ ∃ rest, buf = cfg.clientId.toMemory ++ rest := by
  unfold initBuffer at h
  simp only [Option.bind_eq_bind, Option.bind_eq_some_iff] at h
  obtain ⟨filled, hfill, nulled, hnul, hid⟩ := h
  have hle := fillPayload_le hfill (Nat.zero_le _)
  -- at PAYLOAD_SIZE = 0 the unsigned loop bound is 2 ^ 32 - 1
  have hpos : 0 < cfg.payloadSize.toNat := by
    by_contra hzero
    obtain hz : cfg.payloadSize = 0 := UInt32.toNat_inj.mp (Nat.le_zero.mp (Nat.not_lt.mp hzero))
    rw [hz] at hle
    exact absurd hle (by decide)
  rw [size_sub_one hpos, intMax] at hle
  have hlen : buf.length = mem.length := by
    rw [Bytes.writeAt_length hid, Bytes.writeAt_length hnul, fillPayload_length hfill]
  refine ⟨hpos, by omega, hlen, ?_⟩
  unfold Bytes.writeAt at hid
  split at hid <;> cases hid
  exact ⟨nulled.drop (0 + cfg.clientId.toMemory.length), by simp⟩

/-- A buffer that was initialised starts with the client id. -/
theorem initPayload_some {cfg : Config} {rand : Nat → Nat} {buf : Bytes}
    (h : initPayload cfg rand = some buf) :
    cfg.payloadSize.toNat ≤ 2 ^ 31 ∧ buf.length = cfg.payloadSize.toNat
      ∧ ∃ rest, buf = cfg.clientId.toMemory ++ rest := by
  obtain ⟨-, hsize, hlen, hid⟩ := initBuffer_some h
  rw [List.length_replicate] at hlen
  exact ⟨hsize, hlen, hid⟩

/-- Every iteration works on the buffer that was initialised before the loop. -/
theorem initPayload_of_publishLoop {o : ByteOrder} {cfg : Config} {rand : Nat → Nat}
    {ts : Nat → UInt64} {n : Nat} {p : Bytes × UInt32}
    (h : publishLoop o cfg rand ts n = some p) : ∃ buf, initPayload cfg rand = some buf := by
  induction n generalizing p with
  | zero =>
      simp only [publishLoop, Option.bind_eq_bind, Option.bind_eq_some_iff] at h
      obtain ⟨buf, hinit, -⟩ := h
      exact ⟨buf, hinit⟩
  | succ n ih =>
      simp only [publishLoop, Option.bind_eq_bind, Option.bind_eq_some_iff] at h
      obtain ⟨q, hq, -⟩ := h
      exact ih hq

/-- Memory that was stamped has room for both fields, where the code puts
them. -/
theorem stampPayload_room {o : ByteOrder} {cfg : Config} {buf buf' : Bytes} {it : UInt32}
    {deliverTs : UInt64} (h : stampPayload o cfg buf it deliverTs = some buf') :
    (headerOffset cfg).toNat + 4 ≤ buf.length ∧ (headerOffset cfg + 4).toNat + 8 ≤ buf.length
      ∧ buf'.length = buf.length := by
  unfold stampPayload at h
  simp only [Option.bind_eq_bind, Option.bind_eq_some_iff] at h
  obtain ⟨mid, hctr, hts⟩ := h
  have hmid := Bytes.writeAt_length hctr
  refine ⟨?_, ?_, (Bytes.writeAt_length hts).trans hmid⟩
  · unfold Bytes.writeAt at hctr
    split at hctr
    next hle => simpa using hle
    next => cases hctr
  · unfold Bytes.writeAt at hts
    split at hts
    next hle => simpa [hmid] using hle
    next => cases hts

/-- With that room it can be stamped. -/
theorem exists_stampPayload (o : ByteOrder) {cfg : Config} {buf : Bytes}
    (hctr : (headerOffset cfg).toNat + 4 ≤ buf.length)
    (hts : (headerOffset cfg + 4).toNat + 8 ≤ buf.length) (it : UInt32) (deliverTs : UInt64) :
    ∃ buf', stampPayload o cfg buf it deliverTs = some buf' := by
  have hfirst : ∃ mid, Bytes.writeAt buf (headerOffset cfg).toNat (Bytes.store o 4 it.toNat)
      = some mid := by
    unfold Bytes.writeAt
    rw [Bytes.store_length, if_pos hctr]
    exact ⟨_, rfl⟩
  obtain ⟨mid, hmid⟩ := hfirst
  have hlen := Bytes.writeAt_length hmid
  unfold stampPayload
  simp only [hmid, Option.bind_eq_bind, Option.bind_some]
  -- the second write is into memory of the same size
  unfold Bytes.writeAt
  rw [Bytes.store_length, hlen, if_pos hts]
  exact ⟨_, rfl⟩

/-- A buffer that was stamped has room for the header. -/
theorem stampPayload_some {o : ByteOrder} {cfg : Config} {buf buf' : Bytes} {it : UInt32}
    {deliverTs : UInt64} (h : stampPayload o cfg buf it deliverTs = some buf')
    (hlen : buf.length = cfg.payloadSize.toNat)
    (hid : cfg.clientId.toMemory.length ≤ buf.length) :
    cfg.clientId.bytes.length + 13 ≤ cfg.payloadSize.toNat := by
  have hlt := cfg.payloadSize.toNat_lt
  rw [CString.toMemory_length] at hid
  have hoff : (headerOffset cfg).toNat = cfg.clientId.bytes.length + 1 := by
    rw [headerOffset, UInt32.toNat_ofNat_of_lt' (by simp [UInt32.size]; omega)]
  obtain ⟨hctr, hts, -⟩ := stampPayload_room h
  -- each write was in bounds; the second one ends at strlen + 13
  have hoff4 : (headerOffset cfg + 4).toNat = cfg.clientId.bytes.length + 5 := by
    rw [UInt32.toNat_add, hoff]
    show (_ + 4) % 2 ^ 32 = _
    omega
  omega

/-! ## §3. What is sent, and the decoder. -/

/-- `payloadlen` as the `int` it is: below `2 ^ 31` the size itself. -/
theorem payloadlen_of_lt {cfg : Config} (h : cfg.payloadSize.toNat < 2 ^ 31) :
    cfg.payloadSize.toInt32.toInt = cfg.payloadSize.toNat := by
  show cfg.payloadSize.toBitVec.toInt = _
  rw [BitVec.toInt_eq_toNat_of_lt (by rw [UInt32.toNat_toBitVec]; omega), UInt32.toNat_toBitVec]

/-- From `2 ^ 31` on it is negative. -/
theorem payloadlen_of_ge {cfg : Config} (h : 2 ^ 31 ≤ cfg.payloadSize.toNat) :
    cfg.payloadSize.toInt32.toInt < 0 := by
  show cfg.payloadSize.toBitVec.toInt < 0
  have hlt := cfg.payloadSize.toNat_lt
  rw [BitVec.toInt_eq_toNat_cond, UInt32.toNat_toBitVec, if_neg (by omega)]
  omega

/-- The first `PAYLOAD_SIZE` bytes are copied when that is an `int`. -/
theorem publishedPayload_take {cfg : Config} (hint : cfg.payloadSize.toNat < 2 ^ 31) (buf : Bytes) :
    publishedPayload cfg buf = buf.take cfg.payloadSize.toNat := by
  unfold publishedPayload
  rw [payloadlen_of_lt hint]
  split
  next => rw [Int.toNat_natCast]
  next h =>
    -- nothing of an empty buffer is not copied either
    have hnil : cfg.payloadSize.toNat = 0 := by omega
    rw [hnil, List.take_zero]

/-- The whole buffer is sent when its size is a positive `int`. -/
theorem publishedPayload_eq {cfg : Config} {buf : Bytes} (hint : cfg.payloadSize.toNat < 2 ^ 31)
    (hlen : buf.length = cfg.payloadSize.toNat) : publishedPayload cfg buf = buf := by
  rw [publishedPayload_take hint, ← hlen, List.take_length]

/-- Nothing is sent when its size does not fit an `int`. -/
theorem publishedPayload_eq_nil {cfg : Config} (h : 2 ^ 31 ≤ cfg.payloadSize.toNat) (buf : Bytes) :
    publishedPayload cfg buf = [] := by
  have hneg := payloadlen_of_ge h
  unfold publishedPayload
  rw [if_neg (by omega)]

/-- **The decoder on the shape of the buffer**, whatever follows it. -/
theorem decodePayload_eq (o : ByteOrder) (id : CString) (it : UInt32) (deliverTs : UInt64)
    (rest : Bytes) (hlen : id.bytes.length + 13 < 2 ^ 32) :
    decodePayload o (id.toMemory ++ (Bytes.store o 4 it.toNat ++ Bytes.store o 8 deliverTs.toNat)
        ++ rest)
      = some { clientId := id.bytes, pktNo := it, deliverTime := deliverTs } := by
  -- `strlen` stops at the terminator of the id, where the encoder started
  have hoff : (UInt32.ofNat (id.bytes.length + 1)).toNat = id.toMemory.length := by
    rw [UInt32.toNat_ofNat_of_lt' (by simp [UInt32.size]; omega), CString.toMemory_length]
  have hoff4 : (UInt32.ofNat (id.bytes.length + 1) + 4).toNat
      = (id.toMemory ++ Bytes.store o 4 it.toNat).length := by
    rw [UInt32.toNat_add, hoff, List.length_append, Bytes.store_length, CString.toMemory_length]
    show (_ + 4) % 2 ^ 32 = _
    omega
  have hctr := Bytes.readAt_append id.toMemory (Bytes.store o 4 it.toNat)
    (Bytes.store o 8 deliverTs.toNat ++ rest)
  have hts := Bytes.readAt_append (id.toMemory ++ Bytes.store o 4 it.toNat)
    (Bytes.store o 8 deliverTs.toNat) rest
  rw [Bytes.store_length] at hctr hts
  have hit : UInt32.ofNat (Bytes.load o (Bytes.store o 4 it.toNat)) = it := by
    rw [Bytes.load_store, show 256 ^ 4 = 2 ^ 32 from rfl, Nat.mod_eq_of_lt it.toNat_lt,
        UInt32.ofNat_toNat]
  have hdt : UInt64.ofNat (Bytes.load o (Bytes.store o 8 deliverTs.toNat)) = deliverTs := by
    rw [Bytes.load_store, show 256 ^ 8 = 2 ^ 64 from rfl, Nat.mod_eq_of_lt deliverTs.toNat_lt,
        UInt64.ofNat_toNat]
  unfold decodePayload
  simp only [List.append_assoc] at hctr hts ⊢
  simp only [CString.strlen_toMemory, Option.bind_eq_bind, Option.bind_some, hoff, hoff4, hctr, hts,
    hit, hdt]
  simp [CString.toMemory]

/-! ## §4. The round trip. -/

/-- The payload that iteration `n` of `publish_thread` publishes. -/
def messageOf (o : ByteOrder) (cfg : Config) (rand : Nat → Nat) (ts : Nat → UInt64) (n : Nat) :
    Option Bytes :=
  (publishLoop o cfg rand ts n).map fun p => publishedPayload cfg p.1

/-- A published message decodes to its own client id, counter and timestamp. -/
theorem messageOf_decodes (o : ByteOrder) (cfg : Config) (rand : Nat → Nat) (ts : Nat → UInt64)
    (n : Nat) (hfit : cfg.clientId.bytes.length + 13 ≤ cfg.payloadSize.toNat)
    (hint : cfg.payloadSize.toNat < 2 ^ 31) :
    ∃ payload, messageOf o cfg rand ts n = some payload
      ∧ payload.length = cfg.payloadSize.toNat
      ∧ ∀ beyond, decodePayload o (payload ++ beyond)
          = some { clientId := cfg.clientId.bytes, pktNo := UInt32.ofNat n, deliverTime := ts n } := by
  obtain ⟨tail, hlen, hloop⟩ := publishLoop_eq o cfg rand hfit hint ts
  have hsize : (cfg.clientId.toMemory ++ (Bytes.store o 4 (UInt32.ofNat n).toNat
      ++ Bytes.store o 8 (ts n).toNat) ++ tail).length = cfg.payloadSize.toNat := by
    simp only [List.length_append, Bytes.store_length]
    omega
  refine ⟨_, ?_, hsize, ?_⟩
  · rw [messageOf, hloop n, Option.map_some, publishedPayload_eq hint hsize]
  · intro beyond
    rw [List.append_assoc _ tail beyond]
    exact decodePayload_eq o cfg.clientId (UInt32.ofNat n) (ts n) (tail ++ beyond)
      (by have h := cfg.payloadSize.toNat_lt; omega)

/-- The sample of two normalized readings at most `2 ^ 32 - 1` microseconds
apart is the difference of their whole microseconds. -/
theorem rtt_getUsTime {publish arrival : Timespec} (h0 : publish.nanos ≤ arrival.nanos)
    (h1 : arrival.nanos - publish.nanos ≤ (2 ^ 32 - 1) * 1000) :
    ((rtt (getUsTime arrival) (getUsTime publish)).toNat : Int) = arrival.micros - publish.micros := by
  rw [getUsTime_eq, getUsTime_eq]
  apply rtt_ofInt <;> (unfold Timespec.micros; omega)

/-- What the two ends of one message agree on: client id, iteration number
modulo `2 ^ 32` and timestamp come through, and the 32-bit sample is the
elapsed time, rounded to whole microseconds on both clocks. -/
def RoundTrips (o : ByteOrder) (cfg : Config) (rand : Nat → Nat) (publish : Nat → Timespec)
    (arrival : Timespec) (n : Nat) (beyond : Bytes) : Prop :=
  ∃ payload header, messageOf o cfg rand (fun k => getUsTime (publish k)) n = some payload
    ∧ decodePayload o (payload ++ beyond) = some header
    ∧ header.clientId = cfg.clientId.bytes
    ∧ header.pktNo.toNat = n % 2 ^ 32
    ∧ header.deliverTime = getUsTime (publish n)
    ∧ ((rtt (getUsTime arrival) header.deliverTime).toNat : Int)
        = arrival.micros - (publish n).micros
    ∧ |((rtt (getUsTime arrival) header.deliverTime).toNat : Int) * 1000
        - (arrival.nanos - (publish n).nanos)| < 1000

/-- **PUBLISHER AND SUBSCRIBER AGREE OVER THE WHOLE RUN**, in every iteration
of `publish_thread`, for every size that fits the header and an `int`. -/
theorem payload_round_trip (o : ByteOrder) (cfg : Config) (rand : Nat → Nat)
    (publish : Nat → Timespec) (arrival : Timespec) (n : Nat) (beyond : Bytes)
    (hfit : cfg.clientId.bytes.length + 13 ≤ cfg.payloadSize.toNat)
    (hint : cfg.payloadSize.toNat < 2 ^ 31)
    (h0 : (publish n).nanos ≤ arrival.nanos)
    (h1 : arrival.nanos - (publish n).nanos ≤ (2 ^ 32 - 1) * 1000) :
    RoundTrips o cfg rand publish arrival n beyond := by
  obtain ⟨payload, hmsg, -, hdec⟩ :=
    messageOf_decodes o cfg rand (fun k => getUsTime (publish k)) n hfit hint
  have hrtt := rtt_getUsTime h0 h1
  refine ⟨payload, _, hmsg, hdec beyond, rfl, UInt32.toNat_ofNat', rfl, hrtt, ?_⟩
  show |((rtt (getUsTime arrival) (getUsTime (publish n))).toNat : Int) * 1000
    - (arrival.nanos - (publish n).nanos)| < 1000
  -- each reading loses less than a microsecond to the division
  rw [hrtt, abs_lt]
  unfold Timespec.micros
  omega

/-- The round trip at the default options, at iteration 3, one second and 749
nanoseconds after the publish. -/
theorem payload_round_trip_default :
    RoundTrips .little (Config.default ["topic"] ["topic"]) (fun i => i)
      (fun k => ⟨k, 250, by decide⟩) ⟨4, 999, by decide⟩ 3 [] :=
  payload_round_trip .little (Config.default ["topic"] ["topic"]) (fun i => i)
    (fun k => ⟨k, 250, by decide⟩) ⟨4, 999, by decide⟩ 3 [] (by decide) (by decide) (by decide)
    (by decide)

/-- From `2 ^ 31` on, `payloadlen` is negative, nothing of the payload is
sent, and there is nothing to decode. -/
theorem not_roundTrips_of_ge (o : ByteOrder) (cfg : Config) (rand : Nat → Nat)
    (publish : Nat → Timespec) (arrival : Timespec) (n : Nat)
    (h : 2 ^ 31 ≤ cfg.payloadSize.toNat) :
    ¬ RoundTrips o cfg rand publish arrival n [] := by
  intro h
  obtain ⟨payload, header, hmsg, hdec, -⟩ := h
  simp only [messageOf, Option.map_eq_some_iff] at hmsg
  obtain ⟨p, -, hp⟩ := hmsg
  rw [publishedPayload_eq_nil h] at hp
  -- `strlen` finds no byte to read
  subst hp
  exact absurd hdec (by simp [decodePayload, Bytes.strlen])

/-- Beyond `2 ^ 31` the filler loop overflows its counter: no payload is ever
published. -/
theorem not_roundTrips_of_gt (o : ByteOrder) (cfg : Config) (rand : Nat → Nat)
    (publish : Nat → Timespec) (arrival : Timespec) (n : Nat) (beyond : Bytes)
    (h : 2 ^ 31 < cfg.payloadSize.toNat) :
    ¬ RoundTrips o cfg rand publish arrival n beyond := by
  intro h
  obtain ⟨payload, header, hmsg, -⟩ := h
  simp only [messageOf, Option.map_eq_some_iff] at hmsg
  obtain ⟨p, hloop, -⟩ := hmsg
  obtain ⟨buf, hinit⟩ := initPayload_of_publishLoop hloop
  have hle := (initPayload_some hinit).1
  omega

/-- `--size=2147483648` fits the header and its message does not decode; one
byte more and there is no message. -/
theorem payload_round_trip_fails_at_two_pow_31 :
    testClient.bytes.length + 13 ≤ (2147483648 : UInt32).toNat
      ∧ ¬ RoundTrips .little { Config.default ["topic"] ["topic"] with payloadSize := 2147483648 }
          (fun i => i) (fun k => ⟨k, 0, by decide⟩) ⟨0, 0, by decide⟩ 0 []
      ∧ ∀ beyond,
          ¬ RoundTrips .little { Config.default ["topic"] ["topic"] with payloadSize := 2147483649 }
            (fun i => i) (fun k => ⟨k, 0, by decide⟩) ⟨0, 0, by decide⟩ 0 beyond :=
  ⟨by decide, not_roundTrips_of_ge _ _ _ _ _ _ (by decide),
    fun beyond => not_roundTrips_of_gt _ _ _ _ _ _ beyond (by decide)⟩

end MqttBenchmark
