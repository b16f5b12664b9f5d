/-
  MqttBenchmark.Cluster.Def
  ─────────────────────────
  **PROCESSES, THEIR CLOCKS AND ONE BROKER.**

  A cluster runs one process per device `δ`, each with its own configuration
  and its own clock, and a broker between them.  A message is in one of two
  places: in the broker's `inbox` from its publish until the broker handles
  it, then in the `queue` of every process subscribed to its topic at that
  moment until it is delivered.  Both are left in any order, after any delay.

    • `published` — what a broker reads of a PUBLISH, for every QoS,
    • `publishStep` — a publish thread, now with the bytes it writes,
    • `step` — one step of a process, of the broker, or of time.

  MODELLING CHOICES.  Filters are matched by equality: the scripts use no
  wildcard.  The reading of a clock is true time plus the device's offset.
  A payload buffer has some bytes behind it that belong to nothing else; a
  write behind those ends the process.  A broker drops a PUBLISH with both QoS
  bits set, or without the message id its QoS asks for.
-/
import MqttBenchmark.Process.Def

namespace MqttBenchmark

open Lib

/-- The reading with this many nanoseconds on the clock. -/
def Timespec.ofNanos (n : Int) : Timespec :=
  ⟨n / 1000000000, (n % 1000000000).toNat, by omega⟩

/-- The base arguments of `run_benchmark.py` that every process gets. -/
structure Options where
  /-- `--iterations` -/
  iterations : UInt32
  /-- `--size` -/
  size : UInt32
  /-- `--qos` -/
  qos : UInt32

/-- The configuration of `./benchmark --name=.. --pub=.. --sub=..`. -/
def Options.config (opts : Options) (name : CString) (pubs subs : List String) : Config where
  clientId := name
  pubs := pubs
  subs := subs
  maxIter := opts.iterations
  payloadSize := opts.size
  qos := opts.qos

namespace Cluster

open Function Process

/-- What runs on every device. -/
structure Deployment (δ : Type) where
  order : ByteOrder
  config : δ → Config
  /-- The stream of `rand()` -/
  rand : δ → Nat → Nat
  /-- Nanoseconds the clock is ahead of true time. -/
  offset : δ → Int
  /-- Bytes behind a payload buffer that `malloc` returned as well, or that
  nothing uses. -/
  slack : δ → Nat

variable {δ : Type}

/-- The memory a publish thread gets for its payload. -/
def Deployment.memory (D : Deployment δ) (d : δ) : Bytes :=
  List.replicate ((D.config d).payloadSize.toNat + D.slack d) 0

/-- What `get_us_time` reads on a device. -/
def Deployment.clock (D : Deployment δ) (d : δ) (now : Int) : UInt64 :=
  getUsTime (Timespec.ofNanos (now + D.offset d))

/-- The processes, the payload buffer of every publish thread, and the
messages under way.  A message's `origin` is the device that published it. -/
structure State (δ : Type) where
  /-- True time in nanoseconds. -/
  now : Int
  procs : δ → Process.State δ
  payload : δ → Nat → Bytes
  inbox : List (Message δ)
  queue : δ → List (Message δ)

/-- Every process is connected; nothing else has happened. -/
def initial : State δ where
  now := 0
  procs _ := Process.initial
  payload _ _ := []
  inbox := []
  queue _ := []

variable [DecidableEq δ]

namespace State

def setProc (s : State δ) (d : δ) (p : Process.State δ) : State δ :=
  { s with procs := update s.procs d p }

def setPayload (s : State δ) (d : δ) (i : Nat) (buf : Bytes) : State δ :=
  { s with payload := update s.payload d (update (s.payload d) i buf) }

end State

/-- The two bytes of a message id. -/
def msgIdBytes (token : Int) : Bytes := [UInt8.ofInt (token / 256), UInt8.ofInt token]

/-- A PUBLISH behind its topic, as `MQTTPacket_send_publish` writes it: a
message id when the `int` QoS is positive, then the payload. -/
def publishBody (qos : UInt32) (token : Int) (payload : Bytes) : Bytes :=
  if 0 < qos.toInt32.toInt then msgIdBytes token ++ payload else payload

/-- The payload a broker reads of it.  The header has two bits for the QoS, and
with 1 or 2 in them the body begins with a message id. -/
def readBody (qos : UInt32) (body : Bytes) : Option Bytes :=
  if qos % 4 = 0 then some body
  else if qos % 4 = 3 ∨ body.length < 2 then none
  else some (body.drop 2)

/-- What the broker gets of a publish of this buffer. -/
def published (cfg : Config) (token : Int) (buf : Bytes) : Option Bytes :=
  readBody cfg.qos (publishBody cfg.qos token (publishedPayload cfg buf))

/-- A step of publish thread `i`: the step of `Process`, with the payload
buffer it initialises, stamps and publishes. -/
def publishStep (D : Deployment δ) (s : State δ) (d : δ) (i : Nat) (e : Answer) :
    Option (State δ) :=
  let cfg := D.config d
  let p := s.procs d
  match Process.step D.order cfg p (.pub i e) with
  | none => none
  | some p' =>
      match (p.pubs i).pc with
      | .start =>
          match initBuffer cfg (D.rand d) (D.memory d) with
          | some buf => some ((s.setProc d p').setPayload d i buf)
          | none => some (s.setProc d p.fault)
      | .stamp =>
          match stampPayload D.order cfg (s.payload d i) (p.pubs i).it e.clock with
          | some buf => some ((s.setProc d p').setPayload d i buf)
          | none => some (s.setProc d p.fault)
      | .publish =>
          -- the message is under way once the library has accepted it
          if p'.paho.issued = p.paho.issued then some (s.setProc d p')
          else if cfg.payloadSize.toInt32.toInt < 0 then some (s.setProc d (unsent cfg p p'))
          else
            let payload := published cfg e.token (s.payload d i)
            some { s.setProc d p' with
              inbox := s.inbox ++ (payload.map fun b => ⟨cfg.pub0, b, [], d⟩).toList }
      | _ => some (s.setProc d p')

inductive Action (δ : Type) where
  | tick (ns : Nat)
  /-- A step of one process that is not the arrival of a message. -/
  | proc (d : δ) (a : Process.Action δ)
  /-- The broker handles the `k`-th message of its inbox. -/
  | route (k : Nat)
  /-- The `k`-th message waiting for a process arrives there. -/
  | deliver (d : δ) (k : Nat) (beyond : Bytes)

/-- The process that acts. -/
def Action.actor : Action δ → Option δ
  | .proc d _ => some d
  | .deliver d _ _ => some d
  | _ => none

/-- The broker hands a message to every process subscribed to its topic. -/
def broadcast (s : State δ) (m : Message δ) : δ → List (Message δ) := fun d =>
  if m.topicName ∈ (s.procs d).paho.subscribed then s.queue d ++ [m] else s.queue d

def step (D : Deployment δ) (s : State δ) (a : Action δ) : Option (State δ) :=
  match a with
  | .tick ns => some { s with now := s.now + ns }
  | .proc _ (.arrive _ _) => none
  | .proc d (.pub i e) => publishStep D s d i { e with clock := D.clock d s.now }
  | .proc d a => (Process.step D.order (D.config d) (s.procs d) a).map (s.setProc d)
  | .route k =>
      match s.inbox[k]? with
      | none => none
      | some m => some { s with inbox := s.inbox.eraseIdx k, queue := broadcast s m }
  | .deliver d k beyond =>
      match (s.queue d)[k]? with
      | none => none
      | some m =>
          (Process.step D.order (D.config d) (s.procs d)
            (.arrive { m with beyond := beyond } (D.clock d s.now))).map fun p =>
              { s.setProc d p with queue := update s.queue d ((s.queue d).eraseIdx k) }

/-- **The cluster as a transition system.** -/
def system (D : Deployment δ) : System (State δ) (Action δ) where
  init := initial
  step := step D

end Cluster

end MqttBenchmark
