/-
  MqttBenchmark.KillPubs.Def
  ──────────────────────────
  **THE SCRIPTS THAT CALL `kill_pubs`, AND ITS GLOBAL FLAG.**

  `fan_in`, `fan_out` and `one_to_one_isolated` run one round after the other:
  deploy, wait for the subscribers, `kill_pubs`.  Each call makes a client of
  its own, but all calls wait for the same `sync_var`.

    • `Script.rounds` — the rounds of a script, in its order,
    • `scriptStep` — `_main` and `kill_pubs`, one statement at a time,
    • `step` — the script, the broker and the network loop of the client.

  MODELLING CHOICES.  `on_publish` fires in the network loop of the client it
  is set on, any time after the broker has acknowledged the message of that
  client.  `communicate` returns at any time, and a sleep guarantees nothing.
-/
import MqttBenchmark.FanIn.Def

namespace MqttBenchmark.KillPubs

open Lib

/-! ## §1. The rounds. -/

/-- The devices of one round. -/
structure Round where
  subDevs : List String
  pubDevs : List String
  deriving DecidableEq, Repr

inductive Script where
  | fanIn (num : Nat)
  | fanOut (num : Nat)
  | oneToOneIsolated
  deriving DecidableEq, Repr

/-- The rounds of `_main`; none when it raises its `ValueError`. -/
def Script.rounds (script : Script) (devices : List String) : List Round :=
  match script with
  | .fanIn num => (FanIn.rounds devices num).map fun r => ⟨[r.subDev], r.pubDevs⟩
  | .fanOut num =>
      if devices.length ≤ num then []
      else
        devices.flatMap fun pubDev =>
          let subChoices := devices.filter (· ≠ pubDev)
          (FanIn.combinations subChoices num).map fun subDevs => ⟨subDevs, [pubDev]⟩
  | .oneToOneIsolated =>
      let combs := FanIn.combinations devices 2
      let allCombs := combs ++ combs.map List.reverse
      allCombs.filterMap fun
        | [d1, d2] => some ⟨[d1], [d2]⟩
        | _ => none

/-! ## §2. The script. -/

/-- Where the script stands in a round; from `connect` to `disconnect` it is
in `kill_pubs`. -/
inductive PC where
  | deploySub
  | deployPub
  | communicate
  | connect
  | setCallback
  | loopStart
  | publish
  | waitSync
  | sleep
  | loopStop
  | disconnect
  | append
  /-- An exception ended the script. -/
  | raised
  deriving DecidableEq, Repr

structure State where
  round : Nat
  pc : PC
  /-- `sync_var`, a global of `common.py`. -/
  syncVar : Bool
  /-- `client.on_publish` is set. -/
  callback : Bool
  /-- The network loop of `client` runs. -/
  looping : Bool
  /-- The calls whose message has been handed to the library. -/
  published : List Nat
  /-- The calls whose message the broker has acknowledged. -/
  acked : List Nat
  deriving DecidableEq, Repr

def initial : State where
  round := 0
  pc := .deploySub
  syncVar := false
  callback := false
  looping := false
  published := []
  acked := []

/-- The next statement; `ok`: the call of the library in it succeeds. -/
def scriptStep (rounds : List Round) (s : State) (ok : Bool) : Option State :=
  match s.pc with
  | .deploySub => if s.round < rounds.length then some { s with pc := .deployPub } else none
  | .deployPub => some { s with pc := .communicate }
  | .communicate => some { s with pc := .connect }
  | .connect =>
      if ok then some { s with pc := .setCallback, callback := false, looping := false }
      else some { s with pc := .raised }
  | .setCallback => some { s with pc := .loopStart, callback := true }
  | .loopStart => some { s with pc := .publish, looping := true }
  | .publish =>
      if ok then some { s with pc := .waitSync, published := s.published ++ [s.round] }
      else some { s with pc := .raised }
  -- `while not sync_var`: no step until the flag is set
  | .waitSync => if s.syncVar then some { s with pc := .sleep } else none
  | .sleep => some { s with pc := .loopStop }
  | .loopStop => some { s with pc := .disconnect, looping := false }
  | .disconnect => some { s with pc := .append }
  | .append => some { s with pc := .deploySub, round := s.round + 1 }
  | .raised => none

/-! ## §3. The system. -/

inductive Action where
  | script (ok : Bool)
  /-- The broker acknowledges the message of a call. -/
  | ack (call : Nat)
  /-- `killpub_callback`, in the network loop of the client. -/
  | onPublish
  deriving DecidableEq, Repr

def step (rounds : List Round) (s : State) (a : Action) : Option State :=
  match a with
  | .script ok => scriptStep rounds s ok
  | .ack call =>
      if call ∈ s.published ∧ call ∉ s.acked then some { s with acked := s.acked ++ [call] }
      else none
  | .onPublish =>
      -- `sync_var` belongs to the module, whichever call the message is of
      if s.looping ∧ s.callback ∧ s.round ∈ s.acked then some { s with syncVar := true } else none

/-- **One run of a script as a transition system.** -/
def system (rounds : List Round) : System State Action where
  init := initial
  step := step rounds

/-- The call of a round has returned. -/
def Returned (s : State) (r : Nat) : Prop := r < s.round ∨ r = s.round ∧ s.pc = .append

/-- Every call that has returned returned after its own message was
acknowledged. -/
def Confirmed (s : State) : Prop := ∀ r, Returned s r → r ∈ s.acked

end MqttBenchmark.KillPubs
