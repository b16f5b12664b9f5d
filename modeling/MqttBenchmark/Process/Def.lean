/-
  MqttBenchmark.Process.Def
  ─────────────────────────
  **ONE BENCHMARK PROCESS AS A TRANSITION SYSTEM.**

  The state is the globals of `mqtt.c`, a program counter for `main`, for
  every subscribe and publish thread and for the one callback thread of the
  client library, and what that library and the broker know.  One action is
  one access to a shared variable, or one call that leaves the process, by
  one thread; `system cfg` interleaves them in every order.

    • `mainStep`, `subscribeStep`, `publishStep`, `callbackStep` — the code,
    • `arrive`, `confirm`, `lose` — the library calls `msgarrvd`, calls
      `delivered`, loses the connection.

  Sleeps, log output and the bytes of an outgoing payload (`Payload`) decide
  nothing here.  A run starts when `MQTTClient_connect` has succeeded.

  MODELLING CHOICES.  The broker may deliver any message once a filter that
  could match it was subscribed, in any order and after any delay.  A filter
  other than plain `pubkill` could be a wildcard.  A call to the library may
  fail whenever the source exits on failure; after a connection loss every
  call fails.  A `pthread_join` of a thread already joined returns at once.
-/
import MqttBenchmark.Payload.Def
import MqttBenchmark.Lib.Semaphore
import MqttBenchmark.Lib.Transition
import Mathlib.Logic.Function.Basic

namespace MqttBenchmark.Process

open Lib Function

/-! ## §1. Program counters. -/

/-- Where `main` stands, from the first `sem_init` on. -/
inductive MainPC where
  | initDone | initStop | initMutex
  | createSubs (i : Nat)
  | createPubs (i : Nat)
  | destroyDone | destroyStop | destroyMutex
  | joinSubs (i : Nat)
  | summary
  | joinPubs (i : Nat)
  | disconnect
  | returned
  deriving DecidableEq, Repr

/-- Where a subscribe thread stands.  `inWaitDone`: suspended inside
`sem_wait(&done_receiving)`. -/
inductive SubPC where
  | absent
  | allocReceive | allocRtt
  | subscribe | subscribing
  | waitDone | inWaitDone
  | postStop
  | unsubscribe
  | ended
  deriving DecidableEq, Repr

/-- Where a publish thread stands.  `publish` to `postMutex` is the body of
`PUBLISH_MESSAGE`; `publishing` is inside `MQTTClient_publishMessage`, which
will return this token. -/
inductive PubPC where
  | absent
  | start
  | subscribe | subscribing
  | reset | stamp
  | publish | publishing (tok : Int) | spin | postMutex
  | interval
  | tryStop
  | unsubscribe
  | ended
  deriving DecidableEq, Repr

/-- A publish thread: counter `it`, the timestamp of this iteration, the
token of the last publish; `current` numbers the publish in progress. -/
structure PubThread where
  pc : PubPC
  it : UInt32
  deliverTs : UInt64
  token : Int
  current : Nat
  deriving DecidableEq, Repr

/-- What the library hands to `msgarrvd`: topic, payload, and the readable
memory behind the payload.  `origin` labels the publisher; no code reads it. -/
structure Message (ι : Type) where
  topicName : String
  payload : Bytes
  beyond : Bytes
  origin : ι

/-- Where the callback thread stands: idle, in `delivered` for publish `n`,
or in `msgarrvd` for a message that arrived at a clock reading. -/
inductive CallbackPC (ι : Type) where
  | idle
  | delivered (n : Nat) (dt : Int)
  | inWaitMutex (n : Nat) (dt : Int)
  | storeToken (n : Nat) (dt : Int)
  | arrived (m : Message ι) (receiveTime : UInt64)
  | storeRtt (m : Message ι) (receiveTime : UInt64) (sample : UInt32)
  | count (m : Message ι) (receiveTime : UInt64)

/-! ## §2. The state. -/

inductive Outcome where
  | running
  /-- `main` returned, or a thread called `exit`. -/
  | exited
  /-- An access outside an object: undefined behaviour. -/
  | faulted
  deriving DecidableEq, Repr

/-- What the library and the broker know about this client. -/
structure Paho where
  /-- Topic filters ever accepted from this client. -/
  subscribed : List String
  /-- Publishes accepted so far; they are numbered from 0. -/
  issued : Nat
  /-- QoS 1/2 publishes whose `delivered` has not been called yet. -/
  inflight : List (Nat × Int)
  /-- Publishes for which `delivered` has run. -/
  confirmed : List Nat
  /-- The connection is lost. -/
  lost : Bool

/-- History variables: no step reads them. -/
structure History (ι : Type) where
  /-- Every call of `msgarrvd` so far, with its clock reading. -/
  arrivals : List (Message ι × UInt64)
  /-- Every sample stored so far, with its message and clock reading. -/
  recorded : List (Message ι × UInt64 × UInt32)
  /-- Posts of `stop_publish` by `msgarrvd`. -/
  killPosts : Nat
  /-- Posts of `stop_publish` by subscribe threads. -/
  endPosts : Nat
  /-- Posts of `done_receiving`. -/
  donePosts : Nat
  /-- Joins of each subscribe and each publish thread. -/
  subJoins : Nat → Nat
  pubJoins : Nat → Nat

/-- One process.  `receiveTs` and `rttTs` are `none` while `NULL`; `subTid`
and `pubTid` are the handles `main` keeps; `it` is the static counter of
`msgarrvd`. -/
structure State (ι : Type) where
  main : MainPC
  subs : Nat → SubPC
  pubs : Nat → PubThread
  callback : CallbackPC ι
  outcome : Outcome
  doneReceiving : Sem
  stopPublish : Sem
  qos1Pubmutex : Sem
  deliveredtoken : Int
  receiveTs : Option (List UInt64)
  rttTs : Option (List UInt32)
  it : UInt32
  subTid : Option Nat
  pubTid : Option Nat
  paho : Paho
  hist : History ι

variable {ι : Type}

/-- A publish thread as `pthread_create` starts it. -/
def PubThread.fresh : PubThread := ⟨.start, 0, 0, 0, 0⟩

/-- After `MQTTClient_connect`, before the first `sem_init`. -/
def initial : State ι where
  main := .initDone
  subs _ := .absent
  pubs _ := { PubThread.fresh with pc := .absent }
  callback := .idle
  outcome := .running
  doneReceiving := Sem.raw
  stopPublish := Sem.raw
  qos1Pubmutex := Sem.raw
  deliveredtoken := -1
  receiveTs := none
  rttTs := none
  it := 0
  subTid := none
  pubTid := none
  paho := ⟨[], 0, [], [], false⟩
  hist := ⟨[], [], 0, 0, 0, fun _ => 0, fun _ => 0⟩

namespace State

/-- `exit(rc)`. -/
@[simp] def exit (s : State ι) : State ι := { s with outcome := .exited }

/-- Undefined behaviour. -/
@[simp] def fault (s : State ι) : State ι := { s with outcome := .faulted }

@[simp] def setSub (s : State ι) (i : Nat) (pc : SubPC) : State ι :=
  { s with subs := update s.subs i pc }

@[simp] def setPub (s : State ι) (i : Nat) (pc : PubPC) : State ι :=
  { s with pubs := update s.pubs i { s.pubs i with pc := pc } }

/-- The broker has accepted a filter from this client. -/
@[simp] def addFilter (s : State ι) (topic : String) : State ι :=
  { s with paho := { s.paho with subscribed := topic :: s.paho.subscribed } }

end State

/-! ## §3. The threads. -/

/-- What the outside answers to the call a step makes: the return code, the
clock reading, the delivery token, the order in which `qsort` leaves the
samples. -/
structure Answer where
  ok : Bool
  clock : UInt64
  token : Int
  sorted : List UInt32

/-- The next step of `main`. -/
def mainStep (cfg : Config) (s : State ι) (e : Answer) : Option (State ι) :=
  match s.main with
  | .initDone => some { s with doneReceiving := Sem.init 0, main := .initStop }
  | .initStop => some { s with stopPublish := Sem.init 0, main := .initMutex }
  | .initMutex => some { s with qos1Pubmutex := Sem.init 1, main := .createSubs 0 }
  | .createSubs i =>
      if i < cfg.numSubs then
        some { s with subs := update s.subs i .allocReceive, subTid := some i,
                      main := .createSubs (i + 1) }
      else some { s with main := .createPubs 0 }
  | .createPubs i =>
      if i < cfg.numPubs then
        some { s with pubs := update s.pubs i PubThread.fresh, pubTid := some i,
                      main := .createPubs (i + 1) }
      else some { s with main := .destroyDone }
  | .destroyDone => some { s with doneReceiving := s.doneReceiving.destroy, main := .destroyStop }
  | .destroyStop => some { s with stopPublish := s.stopPublish.destroy, main := .destroyMutex }
  | .destroyMutex => some { s with qos1Pubmutex := s.qos1Pubmutex.destroy, main := .joinSubs 0 }
  | .joinSubs i =>
      if i < cfg.numSubs then
        match s.subTid with
        | none => none
        | some k =>
            -- blocks until that thread has terminated
            if s.subs k = .ended then
              some { s with hist := { s.hist with
                              subJoins := update s.hist.subJoins k (s.hist.subJoins k + 1) },
                            main := .joinSubs (i + 1) }
            else none
      else some { s with main := .summary }
  | .summary =>
      match s.rttTs with
      | none => some { s with main := .joinPubs 0 }
      | some buf =>
          -- `summary_stats` sorts the global buffer in place
          if e.sorted.Perm buf then
            some { s with rttTs := some e.sorted, main := .joinPubs 0 }
          else none
  | .joinPubs i =>
      if i < cfg.numPubs then
        match s.pubTid with
        | none => none
        | some k =>
            if (s.pubs k).pc = .ended then
              some { s with hist := { s.hist with
                              pubJoins := update s.hist.pubJoins k (s.hist.pubJoins k + 1) },
                            main := .joinPubs (i + 1) }
            else none
      else some { s with main := .disconnect }
  | .disconnect => some { s with main := .returned, outcome := .exited }
  | .returned => none

/-- The next step of subscribe thread `i`. -/
def subscribeStep (cfg : Config) (s : State ι) (i : Nat) (e : Answer) : Option (State ι) :=
  match s.subs i with
  | .absent => none
  | .allocReceive =>
      some ({ s with receiveTs := some (List.replicate cfg.maxIter.toNat 0) }.setSub i .allocRtt)
  | .allocRtt =>
      some ({ s with rttTs := some (List.replicate cfg.maxIter.toNat 0) }.setSub i .subscribe)
  | .subscribe =>
      -- `MQTTClient_subscribe` refuses a QoS above 2 without sending anything
      if cfg.qos ≤ 2 ∧ s.paho.lost = false then
        some ((s.addFilter cfg.sub0).setSub i .subscribing)
      else some s.exit
  | .subscribing =>
      if e.ok ∧ s.paho.lost = false then some (s.setSub i .waitDone) else some s.exit
  | .waitDone =>
      match s.doneReceiving.take with
      | some d => some ({ s with doneReceiving := d }.setSub i .postStop)
      | none => some (s.setSub i .inWaitDone)
  | .inWaitDone =>
      match s.doneReceiving.take with
      | some d => some ({ s with doneReceiving := d }.setSub i .postStop)
      | none => none
  | .postStop =>
      some ({ s with stopPublish := s.stopPublish.post,
                     hist := { s.hist with endPosts := s.hist.endPosts + 1 } }.setSub i .unsubscribe)
  | .unsubscribe =>
      if e.ok ∧ s.paho.lost = false then some (s.setSub i .ended) else some s.exit
  | .ended => none

/-- The next step of publish thread `i`. -/
def publishStep (cfg : Config) (s : State ι) (i : Nat) (e : Answer) : Option (State ι) :=
  match (s.pubs i).pc with
  | .absent => none
  | .start => some (s.setPub i .subscribe)
  | .subscribe =>
      if s.paho.lost = false then some ((s.addFilter pubkill).setPub i .subscribing)
      else some s.exit
  | .subscribing =>
      if e.ok ∧ s.paho.lost = false then some (s.setPub i .reset) else some s.exit
  | .reset => some ({ s with deliveredtoken := 0 }.setPub i .stamp)
  | .stamp =>
      some { s with pubs := update s.pubs i { s.pubs i with pc := .publish, deliverTs := e.clock } }
  | .publish =>
      if e.ok ∧ s.paho.lost = false then
        -- the library numbers QoS 1/2 publishes with a non-zero token
        if e.token ≠ 0 then
          some { s with
            paho := { s.paho with
              issued := s.paho.issued + 1
              inflight := if cfg.qos ≠ 0 then s.paho.inflight ++ [(s.paho.issued, e.token)]
                          else s.paho.inflight }
            pubs := update s.pubs i
              { s.pubs i with pc := .publishing e.token, current := s.paho.issued } }
        else none
      else some s.exit
  | .publishing tok =>
      if cfg.qos ≠ 0 then
        some { s with pubs := update s.pubs i { s.pubs i with pc := .spin, token := tok } }
      else some (s.setPub i .interval)
  | .spin => if s.deliveredtoken = (s.pubs i).token then some (s.setPub i .postMutex) else none
  | .postMutex => some ({ s with qos1Pubmutex := s.qos1Pubmutex.post }.setPub i .interval)
  | .interval =>
      some { s with pubs := update s.pubs i { s.pubs i with pc := .tryStop, it := (s.pubs i).it + 1 } }
  | .tryStop =>
      match s.stopPublish.take with
      | some d => some ({ s with stopPublish := d }.setPub i .unsubscribe)
      | none => some (s.setPub i .reset)
  | .unsubscribe =>
      if e.ok ∧ s.paho.lost = false then some (s.setPub i .ended) else some s.exit
  | .ended => none

/-- A publish of a negative length, in place of the step from `s` to `t`: its
write fails and the library disconnects.  `MQTTClient_publish5` returns success
all the same when the QoS is positive: the packet would be sent again. -/
def unsent (cfg : Config) (s t : State ι) : State ι :=
  if 0 < cfg.qos.toInt32.toInt then { t with paho := { t.paho with lost := true } } else s.exit

/-! ## §4. The callback thread. -/

/-- `buf[i] = v` for a buffer that may be `NULL`; no result out of bounds. -/
def storeAt {α : Type} (buf : Option (List α)) (i : Nat) (v : α) : Option (Option (List α)) :=
  match buf with
  | none => none
  | some b => if i < b.length then some (some (b.set i v)) else none

/-- The sample `msgarrvd` computes for a message. -/
def sampleOf (o : ByteOrder) (m : Message ι) (receiveTime : UInt64) : Option UInt32 :=
  (decodePayload o (m.payload ++ m.beyond)).map fun h => rtt receiveTime h.deliverTime

/-- The next step of the callback thread. -/
def callbackStep (o : ByteOrder) (cfg : Config) (s : State ι) : Option (State ι) :=
  match s.callback with
  | .idle => none
  | .delivered n dt =>
      match s.qos1Pubmutex.take with
      | some d => some { s with qos1Pubmutex := d, callback := .storeToken n dt }
      | none => some { s with callback := .inWaitMutex n dt }
  | .inWaitMutex n dt =>
      match s.qos1Pubmutex.take with
      | some d => some { s with qos1Pubmutex := d, callback := .storeToken n dt }
      | none => none
  | .storeToken n dt =>
      some { s with deliveredtoken := dt, callback := .idle,
                    paho := { s.paho with confirmed := n :: s.paho.confirmed } }
  | .arrived m t =>
      if m.topicName = pubkill then
        some { s with stopPublish := s.stopPublish.post, callback := .idle,
                      hist := { s.hist with killPosts := s.hist.killPosts + 1 } }
      else if s.it < cfg.maxIter then
        match sampleOf o m t, storeAt s.receiveTs s.it.toNat t with
        | some x, some buf => some { s with receiveTs := buf, callback := .storeRtt m t x }
        | _, _ => some s.fault
      else if s.it = cfg.maxIter then
        some { s with doneReceiving := s.doneReceiving.post, callback := .count m t,
                      hist := { s.hist with donePosts := s.hist.donePosts + 1 } }
      else some { s with callback := .count m t }
  | .storeRtt m t x =>
      match storeAt s.rttTs s.it.toNat x with
      | some buf =>
          some { s with rttTs := buf, callback := .count m t,
                        hist := { s.hist with recorded := s.hist.recorded ++ [(m, t, x)] } }
      | none => some s.fault
  | .count _ _ => some { s with it := s.it + 1, callback := .idle }

/-! ## §5. The system. -/

inductive Action (ι : Type) where
  | main (e : Answer)
  | sub (i : Nat) (e : Answer)
  | pub (i : Nat) (e : Answer)
  | callback
  /-- The library calls `msgarrvd`, which reads the clock first. -/
  | arrive (m : Message ι) (receiveTime : UInt64)
  /-- The library calls `delivered` for the `k`-th publish in flight. -/
  | confirm (k : Nat)
  /-- The connection is lost. -/
  | lose

/-- A subscribed filter could match the message. -/
def couldMatch (filters : List String) (topicName : String) : Prop :=
  ∃ f ∈ filters, f = pubkill → topicName = pubkill

instance (filters : List String) (topicName : String) : Decidable (couldMatch filters topicName) :=
  inferInstanceAs (Decidable (∃ f ∈ filters, f = pubkill → topicName = pubkill))

/-- One step of the process, while it runs. -/
def step (o : ByteOrder) (cfg : Config) (s : State ι) (a : Action ι) : Option (State ι) :=
  if s.outcome = .running then
    match a with
    | .main e => mainStep cfg s e
    | .sub i e => subscribeStep cfg s i e
    | .pub i e => publishStep cfg s i e
    | .callback => callbackStep o cfg s
    | .arrive m t =>
        match s.callback with
        | .idle =>
            if s.paho.lost = false ∧ couldMatch s.paho.subscribed m.topicName then
              some { s with callback := .arrived m t,
                            hist := { s.hist with arrivals := s.hist.arrivals ++ [(m, t)] } }
            else none
        | _ => none
    | .confirm k =>
        match s.callback, s.paho.inflight[k]? with
        | .idle, some (n, dt) =>
            if s.paho.lost = false then
              some { s with callback := .delivered n dt,
                            paho := { s.paho with inflight := s.paho.inflight.eraseIdx k } }
            else none
        | _, _ => none
    | .lose => some { s with paho := { s.paho with lost := true } }
  else none

/-- **The process as a transition system.** -/
def system (o : ByteOrder) (cfg : Config) : System (State ι) (Action ι) where
  init := initial
  step := step o cfg

end MqttBenchmark.Process
