/-
  MqttBenchmark.Paho.Packet
  ─────────────────────────
  **THE PACKETS OF THE CLIENT LIBRARY AND THEIR BYTES.**

  `MQTTPacket.c` writes packets as bytes and reads them back: a header byte,
  the length of the rest in seven bits a byte, the rest.  The benchmark
  connects with MQTT 3.1.1, so the branches for version 5 and its properties
  are left out.

    • `Header` — the bit fields of the header byte,
    • `encode`, `decode` — the remaining length,
    • `sendPublish`, `sendAck`, `sendPingreq` — what is put on the socket,
    • `publish`, `ack`, `connack`, `suback`, `unsuback` — the readers of the
      rest of a packet; they have no result where they would read beyond it,
    • `factory` — `MQTTPacket_Factory`.

  MODELLING CHOICES.  `malloc` succeeds.  The socket keeps the bytes of a
  packet that is not complete yet and hands them out again with the next
  ones.  An `int` that the callers keep non-negative is a `Nat`.
-/
import MqttBenchmark.Lib.Reader

namespace MqttBenchmark.Paho

open Lib

/-! ## §1. The header byte. -/

/-- `enum msgTypes`. -/
inductive MsgType where
  | connect | connack | publish | puback | pubrec | pubrel | pubcomp | subscribe | suback
  | unsubscribe | unsuback | pingreq | pingresp | disconnect | auth
  deriving DecidableEq, Repr

namespace MsgType

/-- The value of the enumerator; `CONNECT` is 1. -/
def code (t : MsgType) : BitVec 4 := BitVec.ofNat 4 (t.ctorIdx + 1)

/-- None for the reserved type 0. -/
def ofCode (c : BitVec 4) : Option MsgType :=
  [connect, connack, publish, puback, pubrec, pubrel, pubcomp, subscribe, suback, unsubscribe,
    unsuback, pingreq, pingresp, disconnect, auth].find? fun t => t.code = c

@[simp] theorem ofCode_code (t : MsgType) : ofCode t.code = some t := by
  cases t <;> decide

end MsgType

/-- The bit fields of `Header`. -/
structure Header where
  type : BitVec 4
  dup : Bool
  qos : BitVec 2
  retain : Bool
  deriving DecidableEq, Repr

namespace Header

def byte (h : Header) : UInt8 :=
  ⟨h.type ++ BitVec.ofBool h.dup ++ h.qos ++ BitVec.ofBool h.retain⟩

def ofByte (b : UInt8) : Header where
  type := b.toBitVec.extractLsb' 4 4
  dup := b.toBitVec.getLsbD 3
  qos := b.toBitVec.extractLsb' 1 2
  retain := b.toBitVec.getLsbD 0

/-- The fields of a header byte are its fields. -/
@[simp] theorem ofByte_byte (h : Header) : ofByte h.byte = h := by
  obtain ⟨type, dup, qos, retain⟩ := h
  revert type dup qos retain
  decide +kernel

end Header

/-! ## §2. Packets. -/

/-- `Publish`; `topiclen` and `payloadlen` are the lengths of its lists. -/
structure Publish where
  header : Header
  topic : Bytes
  msgId : Nat
  payload : Bytes
  deriving DecidableEq, Repr

/-- `Ack`, which is also `Puback`, `Pubrec`, `Pubrel` and `Pubcomp`. -/
structure Ack where
  header : Header
  msgId : Nat
  deriving DecidableEq, Repr

structure Connack where
  header : Header
  flags : UInt8
  rc : UInt8
  deriving DecidableEq, Repr

structure Suback where
  header : Header
  msgId : Nat
  qoss : List Nat
  deriving DecidableEq, Repr

structure Unsuback where
  header : Header
  msgId : Nat
  deriving DecidableEq, Repr

/-- What `MQTTPacket_Factory` returns. -/
inductive Packet where
  | connack (p : Connack)
  | publish (p : Publish)
  | ack (p : Ack)
  | suback (p : Suback)
  | unsuback (p : Unsuback)
  | headerOnly (h : Header)
  deriving DecidableEq, Repr

namespace MQTTPacket

/-! ## §3. The remaining length. -/

/-- The loop of `MQTTPacket_encode`, at most `fuel` rounds. -/
def encodeLoop : Nat → Nat → Bytes
  | 0, _ => []
  | fuel + 1, length =>
      let d := UInt8.ofNat (length % 128)
      let length := length / 128
      -- more digits to encode: set the top bit of this one
      if length > 0 then (d ||| 0x80) :: encodeLoop fuel length else [d]

/-- `MQTTPacket_encode`; every round makes the length smaller. -/
def encode (length : Nat) : Bytes := encodeLoop (length + 1) length

inductive ReadError where
  /-- `SOCKET_ERROR` -/
  | socketError
  /-- A read outside the packet: undefined behaviour. -/
  | overrun
  deriving DecidableEq, Repr

/-- `MAX_NO_OF_REMAINING_LENGTH_BYTES` -/
def maxRemainingLengthBytes : Nat := 4

/-- The loop of `MQTTPacket_decode`. -/
def decodeLoop (len multiplier value : Nat) : Bytes → Outcome ReadError Nat
  | [] => if len + 1 > maxRemainingLengthBytes then .error .socketError else .interrupted
  | c :: net =>
      if len + 1 > maxRemainingLengthBytes then .error .socketError
      else
        let value := value + (c &&& 127).toNat * multiplier
        if c &&& 128 ≠ 0 then decodeLoop (len + 1) (multiplier * 128) value net
        else .complete value net

/-- `MQTTPacket_decode`. -/
def decode (net : Bytes) : Outcome ReadError Nat := decodeLoop 0 1 0 net

/-! ## §4. Writing. -/

def writeInt (anInt : Nat) : Bytes := [UInt8.ofNat (anInt / 256), UInt8.ofNat (anInt % 256)]

/-- `MQTTPacket_send`: one buffer. -/
def send (header : Header) (buffer : Bytes) : Bytes :=
  header.byte :: encode buffer.length ++ buffer

/-- `MQTTPacket_sends`: several buffers in one write. -/
def sends (header : Header) (bufs : List Bytes) : Bytes :=
  header.byte :: encode (bufs.map List.length).sum ++ bufs.flatten

/-- `MQTTPacket_send_publish`.  The topic is a C string: it ends at its first
NUL.  A QoS fills two bits of the header. -/
def sendPublish (pack : Publish) (dup : Bool) (qos : Int) (retained : Bool) : Bytes :=
  let header : Header := ⟨MsgType.publish.code, dup, BitVec.ofInt 2 qos, retained⟩
  let topic := pack.topic.takeWhile (· ≠ 0)
  if qos > 0 then
    sends header [writeInt topic.length, topic, writeInt pack.msgId, pack.payload]
  else sends header [writeInt topic.length, topic, pack.payload]

/-- `MQTTPacket_send_ack`. -/
def sendAck (type : MsgType) (msgid : Nat) (dup : Bool) : Bytes :=
  send ⟨type.code, dup, if type = .pubrel then 1 else 0, false⟩ (writeInt msgid)

def sendPuback (msgid : Nat) : Bytes := sendAck .puback msgid false

def sendPubrec (msgid : Nat) : Bytes := sendAck .pubrec msgid false

def sendPubrel (msgid : Nat) (dup : Bool) : Bytes := sendAck .pubrel msgid dup

def sendPubcomp (msgid : Nat) : Bytes := sendAck .pubcomp msgid false

def sendPingreq : Bytes := send ⟨MsgType.pingreq.code, false, 0, false⟩ []

/-! ## §5. Reading. -/

/-- None beyond the end of the data. -/
def readInt : Bytes → Option (Nat × Bytes)
  | a :: b :: ptr => some (256 * a.toNat + b.toNat, ptr)
  | _ => none

/-- None beyond the end of the data. -/
def readChar : Bytes → Option (UInt8 × Bytes)
  | c :: ptr => some (c, ptr)
  | [] => none

/-- The inner `none` is `NULL`. -/
def readUTFlen (ptr : Bytes) : Option (Option (Bytes × Bytes)) := do
  if ptr.length > 1 then
    let (len, ptr) ← readInt ptr
    if len ≤ ptr.length then some (some (ptr.take len, ptr.drop len)) else some none
  else some none

/-- What a function of `new_packets` returns: the inner `none` is `NULL`. -/
abbrev Built := Option (Option Packet)

def publish (aHeader : UInt8) (data : Bytes) : Built := do
  let header := Header.ofByte aHeader
  match ← readUTFlen data with
  | none => some none
  | some (topic, curdata) =>
      if header.qos > 0 then
        if curdata.length < 2 then some none
        else
          let (msgId, curdata) ← readInt curdata
          some (some (.publish ⟨header, topic, msgId, curdata⟩))
      else some (some (.publish ⟨header, topic, 0, curdata⟩))

def ack (aHeader : UInt8) (data : Bytes) : Built := do
  if data.length < 2 then some none
  else
    let (msgId, _) ← readInt data
    some (some (.ack ⟨Header.ofByte aHeader, msgId⟩))

def connack (aHeader : UInt8) (data : Bytes) : Built := do
  if data.length < 2 then some none
  else
    let (flags, curdata) ← readChar data
    let (rc, _) ← readChar curdata
    some (some (.connack ⟨Header.ofByte aHeader, flags, rc⟩))

def suback (aHeader : UInt8) (data : Bytes) : Built := do
  if data.length < 2 then some none
  else
    let (msgId, curdata) ← readInt data
    -- one QoS a byte, and at least one
    if curdata = [] then some none
    else some (some (.suback ⟨Header.ofByte aHeader, msgId, curdata.map UInt8.toNat⟩))

def unsuback (aHeader : UInt8) (data : Bytes) : Built := do
  if data.length < 2 then some none
  else
    let (msgId, _) ← readInt data
    some (some (.unsuback ⟨Header.ofByte aHeader, msgId⟩))

def headerOnly (aHeader : UInt8) (_data : Bytes) : Built :=
  some (some (.headerOnly (Header.ofByte aHeader)))

/-- `new_packets`, without the types a client of version 3.1.1 does not
accept. -/
def newPackets : MsgType → Option (UInt8 → Bytes → Built)
  | .connack => some connack
  | .publish => some publish
  | .puback | .pubrec | .pubrel | .pubcomp => some ack
  | .suback => some suback
  | .unsuback => some unsuback
  | .pingreq | .pingresp => some headerOnly
  | .connect | .subscribe | .unsubscribe | .disconnect | .auth => none

/-- The call through `new_packets`: no packet for a type that is logged and
skipped, `SOCKET_ERROR` for a bad one. -/
def build (header : UInt8) (data : Bytes) : Except ReadError (Option Packet) :=
  match (MsgType.ofCode (Header.ofByte header).type).bind newPackets with
  | none => .ok none
  | some newPacket =>
      match newPacket header data with
      | none => .error .overrun
      | some none => .error .socketError
      | some (some pack) => .ok (some pack)

/-- The data of a packet, once its header and its length are read. -/
def readData (header : UInt8) (remainingLength : Nat) (net : Bytes) :
    Outcome ReadError (Option Packet) :=
  if net.length < remainingLength then .interrupted
  else
    match build header (net.take remainingLength) with
    | .ok pack => .complete pack (net.drop remainingLength)
    | .error e => .error e

/-- `MQTTPacket_Factory`. -/
def factory (net : Bytes) : Outcome ReadError (Option Packet) :=
  match net with
  | [] => .interrupted
  | header :: net =>
      match decode net with
      | .interrupted => .interrupted
      | .error e => .error e
      | .complete remainingLength net => readData header remainingLength net

end MQTTPacket

end MqttBenchmark.Paho
