/-
  MqttBenchmark.Payload.Def
  ─────────────────────────
  **THE PAYLOAD: `[CLIENTID][packetctr][timestamp]`.**

  Both ends of the format, each with its own offset logic as in `mqtt.c`:

    • `initBuffer`, `stampPayload` — `publish_thread` fills one buffer and
      overwrites counter and timestamp in place on every iteration,
    • `publishedPayload` — the bytes the client library copies out of it,
    • `decodePayload`, `rtt` — `msgarrvd` finds its offsets with `strlen`.

  Every access is bounds-checked: a definition has no result where the C
  code would leave the buffer (undefined behaviour).
-/
import MqttBenchmark.Config

namespace MqttBenchmark

open Lib

/-! ## §1. The clock. -/

/-- A `struct timespec` as `clock_gettime` returns it. -/
structure Timespec where
  tvSec : Int
  tvNsec : Nat
  normalized : tvNsec < 1000000000

namespace Timespec

/-- Nanoseconds on the clock. -/
def nanos (tv : Timespec) : Int := tv.tvSec * 1000000000 + tv.tvNsec

/-- Whole microseconds on the clock. -/
def micros (tv : Timespec) : Int := tv.nanos / 1000

end Timespec

/-- `get_us_time`: 64-bit microseconds. -/
def getUsTime (tv : Timespec) : UInt64 :=
  UInt64.ofInt tv.tvSec * 1000000 + UInt64.ofNat tv.tvNsec / 1000

/-! ## §2. `publish_thread`: writing the payload. -/

/-- `INT_MAX`: the filler loop counts in an `int`. -/
def intMax : Nat := 2147483647

/-- One filler byte, `(rand() % 26) + 'A'`. -/
def fillerByte (r : Nat) : UInt8 := UInt8.ofNat (r % 26 + 65)

/-- `n` more rounds of the filler loop from index `i`.  No result when a
write leaves the buffer, or when `i++` overflows. -/
def fillPayload (rand : Nat → Nat) : (n i : Nat) → Bytes → Option Bytes
  | 0, _, buf => some buf
  | n + 1, i, buf =>
      if i < buf.length ∧ i < intMax then
        fillPayload rand n (i + 1) (buf.set i (fillerByte (rand i)))
      else none

/-- What `publish_thread` writes before its loop, into the memory at
`payload`: filler, terminating 0, client id with its NUL.  The loop bound
`PAYLOAD_SIZE - 1` is unsigned. -/
def initBuffer (cfg : Config) (rand : Nat → Nat) (buf : Bytes) : Option Bytes := do
  let buf ← fillPayload rand (cfg.payloadSize - 1).toNat 0 buf
  let buf ← Bytes.writeAt buf (cfg.payloadSize - 1).toNat [0]
  Bytes.writeAt buf 0 cfg.clientId.toMemory

/-- The payload buffer before the loop, when `malloc` returns `PAYLOAD_SIZE`
bytes and no more.  They are indeterminate and all overwritten. -/
def initPayload (cfg : Config) (rand : Nat → Nat) : Option Bytes :=
  initBuffer cfg rand (List.replicate cfg.payloadSize.toNat 0)

/-- `bptr`: where the packet counter starts. -/
def headerOffset (cfg : Config) : UInt32 := UInt32.ofNat (cfg.clientId.bytes.length + 1)

/-- The two `ENCODE_PL` of one iteration, over whatever the last one left. -/
def stampPayload (o : ByteOrder) (cfg : Config) (buf : Bytes) (it : UInt32) (deliverTs : UInt64) :
    Option Bytes := do
  let ptr := headerOffset cfg
  let buf ← Bytes.writeAt buf ptr.toNat (Bytes.store o 4 it.toNat)
  let ptr := ptr + 4
  Bytes.writeAt buf ptr.toNat (Bytes.store o 8 deliverTs.toNat)

/-- The loop of `publish_thread` up to the publish of iteration `n` (from 0):
the buffer it publishes and its counter `it`.  `ts k` is the clock reading
of iteration `k`. -/
def publishLoop (o : ByteOrder) (cfg : Config) (rand : Nat → Nat) (ts : Nat → UInt64) :
    Nat → Option (Bytes × UInt32)
  | 0 => do
      let buf ← initPayload cfg rand
      let buf ← stampPayload o cfg buf 0 (ts 0)
      some (buf, 0)
  | n + 1 => do
      let (buf, it) ← publishLoop o cfg rand ts n
      let buf ← stampPayload o cfg buf (it + 1) (ts (n + 1))
      some (buf, it + 1)

/-- What the library copies: `payloadlen` is an `int` set from `PAYLOAD_SIZE`,
and the payload is copied only when it is positive. -/
def publishedPayload (cfg : Config) (buf : Bytes) : Bytes :=
  if 0 < cfg.payloadSize.toInt32.toInt then buf.take cfg.payloadSize.toInt32.toInt.toNat else []

/-! ## §3. `msgarrvd`: reading the payload. -/

/-- What `msgarrvd` reads from a payload. -/
structure Header where
  clientId : Bytes
  pktNo : UInt32
  deliverTime : UInt64
  deriving DecidableEq, Repr

/-- Decode from the memory that starts at `message->payload`; no result when
a read leaves that memory. -/
def decodePayload (o : ByteOrder) (mem : Bytes) : Option Header := do
  let len ← Bytes.strlen mem
  let msgPt := UInt32.ofNat (len + 1)
  let pktNo ← Bytes.readAt mem msgPt.toNat 4
  let msgPt := msgPt + 4
  let deliverTime ← Bytes.readAt mem msgPt.toNat 8
  some
    { clientId := mem.take len
      pktNo := UInt32.ofNat (Bytes.load o pktNo)
      deliverTime := UInt64.ofNat (Bytes.load o deliverTime) }

/-- The sample stored in `rtt_ts`: a 64-bit difference cast to 32 bits. -/
def rtt (receiveTime deliverTime : UInt64) : UInt32 := (receiveTime - deliverTime).toUInt32

end MqttBenchmark
