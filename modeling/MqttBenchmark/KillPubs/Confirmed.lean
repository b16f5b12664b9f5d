/-
  MqttBenchmark.KillPubs.Confirmed
  ────────────────────────────────
  **WHAT THE RETURN OF `kill_pubs` CONFIRMS.**

  `sync_var` is set by the first callback and never reset.  From then on it
  says that some call's message was delivered, not this call's.

    • `exists_acked_of_returned` — what a return does confirm,
    • `confirmed_iff` — a call confirms its own message in every run exactly
      when it is the only one,
    • `fanIn_simulated` — the rounds of `FanIn` are runs of this script.
-/
import MqttBenchmark.KillPubs.Def

namespace MqttBenchmark.KillPubs

open Lib System

variable {rounds : List Round} {s s' : State}

/-! ## §1. What a return confirms. -/

/-- The wait is over in this round. -/
def PC.waited : PC → Bool
  | .sleep | .loopStop | .disconnect | .append => true
  | _ => false

/-- Some call up to this one has been acknowledged. -/
def AckedBy (s : State) (r : Nat) : Prop := ∃ q ∈ s.acked, q ≤ r

structure Inv (rounds : List Round) (s : State) : Prop where
  range : s.round ≤ rounds.length ∧ (s.pc ≠ .deploySub → s.round < rounds.length)
  flag : s.syncVar = true → AckedBy s s.round
  waited : s.pc.waited = true → AckedBy s s.round
  returned : ∀ r < s.round, AckedBy s r

theorem initial_inv (rounds : List Round) : Inv rounds initial := by
  refine ⟨⟨Nat.zero_le _, ?_⟩, ?_, ?_, ?_⟩
  · intro h
    exact absurd rfl h
  · intro h
    cases h
  · intro h
    cases h
  · intro r hr
    exact absurd hr (Nat.not_lt_zero r)

/-- What a statement does to the flag and the rounds. -/
theorem script_cases {ok : Bool} (h : scriptStep rounds s ok = some s') :
    s'.syncVar = s.syncVar ∧ s'.acked = s.acked
    ∧ ((s.pc = .append ∧ s'.round = s.round + 1 ∧ s'.pc = .deploySub)
      ∨ (s'.round = s.round ∧ (s.pc = .deploySub → s.round < rounds.length)
        ∧ (s'.pc.waited = true → s.pc.waited = true ∨ s.syncVar = true))) := by
  unfold scriptStep at h
  split at h
  case h_1 hpc =>
    by_cases hlt : s.round < rounds.length
    · rw [if_pos hlt] at h
      cases h
      simp [hlt, PC.waited]
    · rw [if_neg hlt] at h
      cases h
  case h_4 hpc | h_7 hpc =>
    cases ok with
    | false =>
        cases h
        simp [hpc, PC.waited]
    | true =>
        cases h
        simp [hpc, PC.waited]
  -- the wait is the one statement that needs the flag
  case h_8 hpc =>
    by_cases hflag : s.syncVar = true
    · rw [if_pos hflag] at h
      cases h
      simp [hpc, hflag]
    · rw [if_neg hflag] at h
      cases h
  case h_13 => cases h
  all_goals
    rename_i hpc
    cases h
    simp [hpc, PC.waited]

theorem AckedBy.mono {r : Nat} (h : AckedBy s r) (hsub : ∀ q ∈ s.acked, q ∈ s'.acked) :
    AckedBy s' r := by
  obtain ⟨q, hq, hle⟩ := h
  exact ⟨q, hsub q hq, hle⟩

theorem Inv.script (hi : Inv rounds s) {ok : Bool} (h : scriptStep rounds s ok = some s') :
    Inv rounds s' := by
  obtain ⟨hflag, hacked, hcases⟩ := script_cases h
  have hsub : ∀ q ∈ s.acked, q ∈ s'.acked := by
    intro q hq
    rw [hacked]
    exact hq
  rcases hcases with ⟨hpc, hround, hpc'⟩ | ⟨hround, hlt, hwaited⟩
  · -- the call of this round has waited, so it is one of those that returned
    have hby := hi.waited (by rw [hpc]; rfl)
    have hlt := hi.range.2 (by rw [hpc]; decide)
    refine ⟨⟨by omega, fun hne => absurd hpc' hne⟩, ?_, ?_, ?_⟩
    · intro _
      obtain ⟨q, hq, hle⟩ := hby
      exact ⟨q, hsub q hq, by omega⟩
    · rw [hpc']
      intro hw
      cases hw
    · intro r hr
      by_cases heq : r = s.round
      · subst heq
        exact hby.mono hsub
      · exact (hi.returned r (by omega)).mono hsub
  · have hle := hi.range.1
    refine ⟨⟨by omega, ?_⟩, ?_, ?_, ?_⟩
    · intro _
      rw [hround]
      by_cases hpc : s.pc = .deploySub
      · exact hlt hpc
      · exact hi.range.2 hpc
    · rw [hflag, hround]
      intro h
      exact (hi.flag h).mono hsub
    · rw [hround]
      intro hw
      rcases hwaited hw with hw | hw
      · exact (hi.waited hw).mono hsub
      · exact (hi.flag hw).mono hsub
    · rw [hround]
      intro r hr
      exact (hi.returned r hr).mono hsub

theorem inv_of_reachable (h : (system rounds).Reachable s) : Inv rounds s := by
  apply h.induct (initial_inv rounds)
  intro s a s' _ hi hstep
  cases a with
  | script ok => exact hi.script hstep
  | ack call =>
      change (if _ then _ else none) = _ at hstep
      split at hstep
      next =>
        cases hstep
        have hsub : ∀ q ∈ s.acked, q ∈ s.acked ++ [call] := fun q hq => List.mem_append_left _ hq
        exact ⟨hi.range, fun h => (hi.flag h).mono hsub, fun h => (hi.waited h).mono hsub,
          fun r hr => (hi.returned r hr).mono hsub⟩
      next => cases hstep
  | onPublish =>
      change (if _ then _ else none) = _ at hstep
      split at hstep
      next hguard =>
        cases hstep
        -- the callback is the one of this round's message
        exact ⟨hi.range, fun _ => ⟨s.round, hguard.2.2, Nat.le_refl _⟩, hi.waited, hi.returned⟩
      next => cases hstep

/-- A call that has returned is one of the script's, and some call up to it
has been acknowledged. -/
theorem Inv.of_returned (hi : Inv rounds s) {r : Nat} (h : Returned s r) :
    r < rounds.length ∧ AckedBy s r := by
  rcases h with hlt | ⟨rfl, hpc⟩
  · have hle := hi.range.1
    exact ⟨by omega, hi.returned r hlt⟩
  · exact ⟨hi.range.2 (by rw [hpc]; decide), hi.waited (by rw [hpc]; rfl)⟩

/-- **What a return confirms**: the message of this call or of an earlier
one. -/
theorem exists_acked_of_returned (h : (system rounds).Reachable s) {r : Nat} (hr : Returned s r) :
    ∃ q ∈ s.acked, q ≤ r := ((inv_of_reachable h).of_returned hr).2

/-! ## §2. Two calls. -/

/-- A call that waits for its own callback. -/
def ownRound (r : Nat) : List Action :=
  List.replicate 7 (.script true) ++ [.ack r, .onPublish] ++ List.replicate 5 (.script true)

/-- A call that finds the flag set. -/
def staleRound : List Action := List.replicate 11 (.script true)

/-- The second call returns with only the first message acknowledged. -/
theorem stale_return (r₀ r₁ : Round) (rest : List Round) :
    ∃ s, (system (r₀ :: r₁ :: rest)).Reachable s ∧ Returned s 1 ∧ s.acked = [0] := by
  have hrun : (system (r₀ :: r₁ :: rest)).run (ownRound 0 ++ staleRound) initial
      = some { initial with round := 1, pc := .append, syncVar := true, callback := true,
                            published := [0, 1], acked := [0] } := by
    rfl
  exact ⟨_, leads_of_run _ hrun, Or.inr ⟨rfl, rfl⟩, rfl⟩

/-- **WHEN EVERY CALL CONFIRMS ITS OWN MESSAGE**: when the script makes at
most one. -/
theorem confirmed_iff (script : Script) (devices : List String) :
    (∀ s, (system (script.rounds devices)).Reachable s → Confirmed s)
      ↔ (script.rounds devices).length ≤ 1 := by
  generalize script.rounds devices = rounds
  constructor
  · intro h
    match rounds, h with
    | [], _ => exact Nat.zero_le 1
    | [_], _ => exact Nat.le_refl 1
    | r₀ :: r₁ :: rest, h =>
        obtain ⟨s, hs, hreturned, hacked⟩ := stale_return r₀ r₁ rest
        have hown := h s hs 1 hreturned
        rw [hacked] at hown
        exact absurd hown (by decide)
  · intro hle s hs r hr
    obtain ⟨hlt, q, hq, hqr⟩ := (inv_of_reachable hs).of_returned hr
    -- with one call there is no earlier one
    have heq : q = r := by omega
    rw [← heq]
    exact hq

/-- `fan_out --num=1` on two devices: two calls, and the second returns before
its message is acknowledged. -/
theorem confirmed_fails_for_fan_out :
    ∃ s, (system (Script.rounds (.fanOut 1) ["hc-1", "hc-2"])).Reachable s ∧ s.acked = [0]
      ∧ Returned s 1 ∧ ¬ Confirmed s := by
  have hrounds : Script.rounds (.fanOut 1) ["hc-1", "hc-2"]
      = [⟨["hc-2"], ["hc-1"]⟩, ⟨["hc-1"], ["hc-2"]⟩] := by decide
  rw [hrounds]
  obtain ⟨s, hs, hreturned, hacked⟩ := stale_return ⟨["hc-2"], ["hc-1"]⟩ ⟨["hc-1"], ["hc-2"]⟩ []
  refine ⟨s, hs, hacked, hreturned, ?_⟩
  intro hconfirmed
  have hown := hconfirmed 1 hreturned
  rw [hacked] at hown
  exact absurd hown (by decide)

/-! ## §3. The rounds of `fan_in` with their processes. -/

/-- Where this script stands when the one of `FanIn` stands there. -/
def atPC : FanIn.ScriptPC → PC
  | .deploySub => .deploySub
  | .deployPubs => .deployPub
  | .communicate => .communicate
  | .publishKill => .connect
  | .waitSync => .waitSync
  | .append => .append
  | .raised => .raised

/-- The same round, the same statement, the same flag; an acknowledgement
`FanIn` waits with has been seen here. -/
structure Simulates (u : FanIn.State) (s : State) : Prop where
  round : s.round = u.round
  pc : s.pc = atPC u.pc
  flag : s.syncVar = u.syncVar
  waiting : u.pc = .waitSync → s.looping = true ∧ s.callback = true ∧ s.round ∈ s.published
  acked : u.pc = .waitSync → u.acked = true → s.round ∈ s.acked

/-- Outside of the wait there is nothing to be waited for. -/
theorem Simulates.of_ne {u : FanIn.State} (hround : s.round = u.round) (hpc : s.pc = atPC u.pc)
    (hflag : s.syncVar = u.syncVar) (hne : u.pc ≠ .waitSync) : Simulates u s :=
  ⟨hround, hpc, hflag, fun h => absurd h hne, fun h => absurd h hne⟩

/-- A statement of `FanIn` is one or several statements here. -/
theorem script_simulated {S : FanIn.Setup} {u u' : FanIn.State} {ok : Bool}
    (hsim : Simulates u s) (h : FanIn.scriptStep S u ok = some u') :
    ∃ s', (system (Script.rounds (.fanIn S.num) S.devices)).Leads s s' ∧ Simulates u' s' := by
  obtain ⟨round, pc, syncVar, callback, looping, published, acked⟩ := s
  obtain ⟨hround, hpc, hflag, -, -⟩ := hsim
  change round = u.round at hround
  change pc = atPC u.pc at hpc
  change syncVar = u.syncVar at hflag
  unfold FanIn.scriptStep at h
  cases hu : u.pc with
  | deploySub =>
      rw [hu] at h hpc
      change (if _ then _ else none) = _ at h
      split at h
      next hlt =>
        cases h
        have hlength : round < (Script.rounds (.fanIn S.num) S.devices).length := by
          rw [hround]
          exact hlt.trans_eq (List.length_map ..).symm
        subst hpc
        exact ⟨⟨round, .deployPub, syncVar, callback, looping, published, acked⟩,
          Leads.single (a := .script true) (if_pos hlength), Simulates.of_ne hround rfl hflag nofun⟩
      next => cases h
  | deployPubs =>
      rw [hu] at h hpc
      cases h
      subst hpc
      exact ⟨_, Leads.single (a := .script true) rfl, Simulates.of_ne hround rfl hflag nofun⟩
  | communicate =>
      rw [hu] at h hpc
      change (if _ then _ else none) = _ at h
      split at h
      next =>
        cases h
        subst hpc
        exact ⟨_, Leads.single (a := .script true) rfl, Simulates.of_ne hround rfl hflag nofun⟩
      next => cases h
  | publishKill =>
      rw [hu] at h hpc
      subst hpc
      cases ok with
      | true =>
          cases h
          -- `connect`, `on_publish`, `loop_start` and `publish`
          refine ⟨_, leads_of_run (List.replicate 4 (.script true)) rfl,
            ⟨hround, rfl, hflag, ?_, ?_⟩⟩
          · intro _
            exact ⟨rfl, rfl, List.mem_append_right _ (List.mem_singleton_self _)⟩
          · intro _ hacked
            cases hacked
      | false =>
          cases h
          exact ⟨_, Leads.single (a := .script false) rfl, Simulates.of_ne hround rfl hflag nofun⟩
  | waitSync =>
      rw [hu] at h hpc
      change (if _ then _ else none) = _ at h
      split at h
      next hset =>
        cases h
        subst hpc
        rw [hset] at hflag
        subst hflag
        -- the wait, the sleep, `loop_stop` and `disconnect`
        exact ⟨_, leads_of_run (List.replicate 4 (.script true)) rfl,
          Simulates.of_ne hround rfl hset.symm nofun⟩
      next => cases h
  | append =>
      rw [hu] at h hpc
      cases h
      subst hpc
      have hnext : round + 1 = u.round + 1 := congrArg (· + 1) hround
      exact ⟨_, Leads.single (a := .script true) rfl, Simulates.of_ne hnext rfl hflag nofun⟩
  | raised =>
      rw [hu] at h
      cases h

/-- **The rounds of `FanIn` are runs of this script.** -/
theorem fanIn_simulated (S : FanIn.Setup) {u : FanIn.State} (h : (FanIn.system S).Reachable u) :
    ∃ s, (system (Script.rounds (.fanIn S.num) S.devices)).Reachable s ∧ Simulates u s := by
  apply h.induct
  · exact ⟨initial, Reachable.init, Simulates.of_ne rfl rfl rfl nofun⟩
  · rintro u a u' - ⟨s, hs, hsim⟩ hstep
    cases a with
    | script ok =>
        obtain ⟨s', hleads, hsim'⟩ := script_simulated hsim hstep
        exact ⟨s', hs.leads hleads, hsim'⟩
    | onPublish =>
        change (if _ then _ else none) = _ at hstep
        split at hstep
        next hguard =>
          cases hstep
          obtain ⟨hlooping, hcallback, -⟩ := hsim.waiting hguard.1
          have hacked := hsim.acked hguard.1 hguard.2
          refine ⟨{ s with syncVar := true }, hs.step (a := .onPublish) ?_,
            ⟨hsim.round, hsim.pc, rfl, hsim.waiting, ?_⟩⟩
          · exact if_pos ⟨hlooping, hcallback, hacked⟩
          · intro _ h
            cases h
        next => cases hstep
    | net a =>
        change (if _ then _ else none) = _ at hstep
        split at hstep
        next =>
          obtain ⟨n, -, rfl⟩ := Option.map_eq_some_iff.mp hstep
          by_cases hack : u.pc = .waitSync ∧ s.round ∉ s.acked
          · -- whatever the broker acknowledges here it may acknowledge there
            obtain ⟨hpc, hnot⟩ := hack
            obtain ⟨hlooping, hcallback, hpublished⟩ := hsim.waiting hpc
            refine ⟨{ s with acked := s.acked ++ [s.round] }, hs.step (a := .ack s.round) ?_,
              ⟨hsim.round, hsim.pc, hsim.flag, hsim.waiting, ?_⟩⟩
            · exact if_pos ⟨hpublished, hnot⟩
            · intro _ _
              exact List.mem_append_right _ (List.mem_singleton_self _)
          · refine ⟨s, hs, ⟨hsim.round, hsim.pc, hsim.flag, hsim.waiting, ?_⟩⟩
            intro hpc _
            by_contra hnot
            exact hack ⟨hpc, hnot⟩
        next => cases hstep

end MqttBenchmark.KillPubs
