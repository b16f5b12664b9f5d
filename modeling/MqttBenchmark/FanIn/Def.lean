/-
  MqttBenchmark.FanIn.Def
  ───────────────────────
  **THE ROUNDS OF `fan_in`, WITH THE PROCESSES THEY DEPLOY.**

  For every subscriber and every choice of publishers the script deploys one
  subscribe process and `num` publish processes, waits for the output of the
  subscriber, and tells the publishers to stop with one message on `pubkill`.
  All rounds use the same `topic` and the same broker.

    • `rounds` — the rounds in the order of the script,
    • `scriptStep` — `_main` and `kill_pubs`, one statement at a time,
    • `step` — the script, the broker and the deployed processes interleave.

  MODELLING CHOICES.  A process that is deployed may start at any later time.
  The deployer (not in this repository) ends when its remote process ends, so
  `communicate` returns then.  A sleep guarantees nothing.
-/
import MqttBenchmark.Cluster.Runs

namespace MqttBenchmark.FanIn

open Lib Function Process

/-! ## §1. The rounds. -/

/-- `itertools.combinations(pool, r)`. -/
def combinations {α : Type} : List α → Nat → List (List α)
  | _, 0 => [[]]
  | [], _ + 1 => []
  | x :: xs, r + 1 => (combinations xs r).map (x :: ·) ++ combinations xs (r + 1)

/-- One round: its subscriber and its publishers. -/
structure Round where
  subDev : String
  pubDevs : List String
  deriving DecidableEq, Repr

/-- The rounds of `_main`; none when it raises its `ValueError`. -/
def rounds (devices : List String) (num : Nat) : List Round :=
  if devices.length ≤ num then []
  else
    devices.flatMap fun subDev =>
      let pubChoices := devices.filter (· ≠ subDev)
      (combinations pubChoices num).map fun pubDevs => ⟨subDev, pubDevs⟩

/-! ## §2. The processes. -/

/-- What a process of a round is for.  `manager` is the client of `kill_pubs`;
it is no process of the cluster. -/
inductive Role where
  | sub
  | pub (k : Nat)
  | manager
  deriving DecidableEq, Repr

/-- A process, by the round it is deployed in. -/
structure ProcId where
  round : Nat
  role : Role
  deriving DecidableEq, Repr

/-- What a benchmark is run with. -/
structure Setup where
  order : ByteOrder
  opts : Options
  hostname : String → CString
  rand : ProcId → Nat → Nat
  /-- Nanoseconds the clock of a device is ahead. -/
  offset : String → Int
  /-- Bytes behind a payload buffer that nothing else uses. -/
  slack : ProcId → Nat
  devices : List String
  num : Nat

namespace Setup

def rounds (S : Setup) : List Round := FanIn.rounds S.devices S.num

/-- The publishers of a round. -/
def pubDevs (S : Setup) (r : Nat) : List String := (S.rounds[r]?.map Round.pubDevs).getD []

/-- The device a process runs on. -/
def device (S : Setup) (p : ProcId) : String :=
  match p.role with
  | .sub => (S.rounds[p.round]?.map Round.subDev).getD ""
  | .pub k => (S.pubDevs p.round).getD k ""
  | .manager => ""

/-- `sub_cmds` and `pub_cmds`. -/
def config (S : Setup) (p : ProcId) : Config :=
  match p.role with
  | .sub => S.opts.config (S.hostname (S.device p)) [] ["topic"]
  | .pub _ => S.opts.config (S.hostname (S.device p)) ["topic"] []
  | .manager => S.opts.config (S.hostname (S.device p)) [] []

def deployment (S : Setup) : Cluster.Deployment ProcId where
  order := S.order
  config := S.config
  rand := S.rand
  offset p := S.offset (S.device p)
  slack := S.slack

end Setup

/-! ## §3. The script. -/

/-- Where the script stands in a round; `publishKill` and `waitSync` are in
`kill_pubs`. -/
inductive ScriptPC where
  | deploySub
  | deployPubs
  | communicate
  | publishKill
  | waitSync
  | append
  /-- An exception ended the script. -/
  | raised
  deriving DecidableEq, Repr

namespace ScriptPC

/-- The subscriber of this round is deployed. -/
def subDeployed : ScriptPC → Bool
  | .deploySub => false
  | _ => true

/-- The publishers of this round are deployed. -/
def pubsDeployed : ScriptPC → Bool
  | .deploySub | .deployPubs => false
  | _ => true

end ScriptPC

/-- What a sample comes from: its message, the receive time, the sample. -/
abbrev Sample : Type := Message ProcId × UInt64 × UInt32

structure State where
  net : Cluster.State ProcId
  round : Nat
  pc : ScriptPC
  /-- `sync_var`, a global of `common.py`. -/
  syncVar : Bool
  /-- The broker has acknowledged the kill of this round. -/
  acked : Bool
  /-- For every round that is over, the samples its subscriber stored. -/
  outs : List (List Sample)

def initial : State where
  net := Cluster.initial
  round := 0
  pc := .deploySub
  syncVar := false
  acked := false
  outs := []

/-- The process has been deployed. -/
def deployed (S : Setup) (s : State) (p : ProcId) : Bool :=
  match p.role with
  | .sub => p.round < s.round || (p.round == s.round && s.pc.subDeployed)
  | .pub k => decide (k < (S.pubDevs p.round).length)
      && (p.round < s.round || (p.round == s.round && s.pc.pubsDeployed))
  | .manager => false

/-- The message `"kill"` on `pubkill` of a round. -/
def kill (r : Nat) : Message ProcId := ⟨pubkill, [107, 105, 108, 108], [], ⟨r, .manager⟩⟩

/-- The next statement of the script; `ok`: `client.publish` succeeds. -/
def scriptStep (S : Setup) (s : State) (ok : Bool) : Option State :=
  match s.pc with
  | .deploySub =>
      if s.round < S.rounds.length then some { s with pc := .deployPubs } else none
  | .deployPubs => some { s with pc := .communicate }
  | .communicate =>
      if (s.net.procs ⟨s.round, .sub⟩).outcome ≠ .running then some { s with pc := .publishKill }
      else none
  | .publishKill =>
      if ok then
        some { s with net := { s.net with inbox := s.net.inbox ++ [kill s.round] },
                      pc := .waitSync, acked := false }
      else some { s with pc := .raised }
  | .waitSync =>
      -- once `sync_var` is set, in whichever round, nothing is waited for
      if s.syncVar then some { s with pc := .append } else none
  | .append =>
      some { s with outs := s.outs ++ [(s.net.procs ⟨s.round, .sub⟩).hist.recorded],
                    round := s.round + 1, pc := .deploySub }
  | .raised => none

/-! ## §4. The system. -/

inductive Action where
  | script (ok : Bool)
  /-- `killpub_callback`. -/
  | onPublish
  /-- A step of the cluster. -/
  | net (a : Cluster.Action ProcId)

/-- Only deployed processes act. -/
def allowed (S : Setup) (s : State) (a : Cluster.Action ProcId) : Bool :=
  match a.actor with
  | some p => deployed S s p
  | none => true

/-- The broker handles the kill of this round, which it will acknowledge. -/
def handlesKill (s : State) : Cluster.Action ProcId → Bool
  | .route k => (s.net.inbox[k]?.map Message.origin) == some ⟨s.round, .manager⟩
  | _ => false

def step (S : Setup) (s : State) (a : Action) : Option State :=
  match a with
  | .script ok => scriptStep S s ok
  | .onPublish =>
      if s.pc = .waitSync ∧ s.acked then some { s with syncVar := true, acked := false } else none
  | .net a =>
      if allowed S s a then
        (Cluster.step S.deployment s.net a).map fun n =>
          { s with net := n, acked := s.acked || handlesKill s a }
      else none

/-- **`fan_in` as a transition system.** -/
def system (S : Setup) : System State Action where
  init := initial
  step := step S

end MqttBenchmark.FanIn
