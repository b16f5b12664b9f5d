/-
  MqttBenchmark.Process.Loss
  ──────────────────────────
  **WHAT A CONNECTION LOSS LEAVES WAITING.**

  `connlost` prints and returns.  A thread that calls the library afterwards
  gets an error and ends the process; a thread that waits for the callback
  thread calls nothing.

    • `step_of_lost` — after a loss, outside of a callback, only the threads
      move,
    • `starved_stuck`, `orphaned_stuck` — a wait for `done_receiving` and a
      wait for a token, which then never end,
    • `loss_iff` — the processes in which nothing waits that way.
-/
import MqttBenchmark.Process.Shutdown
import MqttBenchmark.Process.Publish

namespace MqttBenchmark.Process

open Lib Lib.System Function

variable {ι : Type} {o : ByteOrder} {cfg : Config} {s t : State ι}

/-! ## §1. After the loss. -/

/-- A lost connection stays lost. -/
theorem Move.lost (h : Move o cfg s t) (hlost : s.paho.lost = true) : t.paho.lost = true := by
  cases h with
  | main h => rw [h.frame.paho, hlost]
  | sub i h => cases h <;> exact hlost
  | pub i h => cases h <;> exact hlost
  | callback h => cases h <;> exact hlost
  | paho h =>
      cases h with
      | lose => rfl
      | _ => exact hlost

/-- **After a loss the library starts no callback any more.** -/
theorem step_of_lost {a : Action ι} (hlost : s.paho.lost = true) (hidle : s.callback = .idle)
    (h : step o cfg s a = some t) :
    MainMove cfg s t ∨ (∃ i, SubMove cfg s i t) ∨ (∃ i, PubMove cfg s i t) ∨ t = s := by
  have hrun := step_running h
  cases a with
  | main e =>
      left
      rw [step, if_pos hrun] at h
      exact mainStep_move h
  | sub i e =>
      right; left
      rw [step, if_pos hrun] at h
      exact ⟨i, subscribeStep_move h⟩
  | pub i e =>
      right; right; left
      exact ⟨i, step_pub h⟩
  | callback =>
      -- the callback thread has nothing to run
      simp only [step, hrun, if_true, callbackStep, hidle] at h
      cases h
  | arrive m x =>
      simp only [step, hrun, if_true, hidle, hlost, Bool.true_eq_false, false_and, if_false] at h
      cases h
  | confirm k =>
      exfalso
      simp only [step, hrun, if_true, hidle] at h
      split at h
      next => simp only [hlost, Bool.true_eq_false, if_false] at h; cases h
      next => cases h
  | lose =>
      right; right; right
      rw [step, if_pos hrun] at h
      cases h
      rw [← hlost]

/-! ## §2. Waits that never end. -/

/-- A subscribe thread waits for `done_receiving`. -/
def SubPC.waiting : SubPC → Bool
  | .waitDone | .inWaitDone => true
  | _ => false

/-- Thread 0 waits for a post of `done_receiving` and nobody posts it. -/
structure Starved (s : State ι) : Prop where
  created : s.main.created = true
  lost : s.paho.lost = true
  idle : s.callback = .idle
  value : s.doneReceiving.value = 0
  waiting : (s.subs 0).waiting = true

/-- **A subscribe thread that is starved stays so.** -/
theorem starved_stuck : (system o cfg).Stuck (Starved (ι := ι)) := by
  intro s a t hs hstep
  have hlost := (step_move hstep).2.lost hs.lost
  obtain ⟨h1, h2, h3, h4, h5⟩ := hs
  have htake : s.doneReceiving.take = none := Sem.take_eq_none.mpr h4
  rcases step_of_lost h2 h3 hstep with hm | ⟨i, hm⟩ | ⟨i, hm⟩ | rfl
  · have f := hm.frame
    have g := hm.created_frame h1
    exact ⟨g.created, hlost, by rwa [f.callback], by rwa [g.doneReceiving], by rwa [g.subs]⟩
  · have f := hm.frame
    refine ⟨by rwa [f.main], hlost, by rwa [f.callback], ?_, ?_⟩
    · cases hm with
      -- the value stays 0: only the callback thread posts this semaphore
      | passed d hpc hd =>
          rw [htake] at hd
          cases hd
      | _ => exact h4
    · -- the thread itself can only go to sleep in its wait
      by_cases hi : 0 = i
      · subst hi
        cases hm with
        | passed d hpc hd =>
            rw [htake] at hd
            cases hd
        | blocked hpc hd =>
            show (update s.subs 0 SubPC.inWaitDone 0).waiting = true
            rw [update_self]
            rfl
        | exit => exact h5
        | _ =>
            rw [‹s.subs 0 = _›] at h5
            cases h5
      · rw [f.others 0 hi]
        exact h5
  · have f := hm.frame
    exact ⟨by rwa [f.main], hlost, by rwa [f.callback], by rwa [f.doneReceiving], by rwa [f.subs]⟩
  · exact ⟨h1, h2, h3, h4, h5⟩

/-- Thread 0 waits for a token and nobody stores one. -/
structure Orphaned (s : State ι) : Prop where
  created : s.main.created = true
  lost : s.paho.lost = true
  idle : s.callback = .idle
  token : s.deliveredtoken = 0
  spinning : (s.pubs 0).pc = .spin
  own : (s.pubs 0).token ≠ 0

/-- **A publish thread that is orphaned stays so.** -/
theorem orphaned_stuck : (system o cfg).Stuck (Orphaned (ι := ι)) := by
  intro s a t hs hstep
  have hlost := (step_move hstep).2.lost hs.lost
  obtain ⟨h1, h2, h3, h4, h5, h6⟩ := hs
  rcases step_of_lost h2 h3 hstep with hm | ⟨i, hm⟩ | ⟨i, hm⟩ | rfl
  · have f := hm.frame
    have g := hm.created_frame h1
    exact ⟨g.created, hlost, by rwa [f.callback], by rwa [f.deliveredtoken], by rwa [g.pubs],
      by rwa [g.pubs]⟩
  · have f := hm.frame
    exact ⟨by rwa [f.main], hlost, by rwa [f.callback], by rwa [f.deliveredtoken], by rwa [f.pubs],
      by rwa [f.pubs]⟩
  · have f := hm.frame
    by_cases hi : 0 = i
    · subst hi
      cases hm with
      | leave hpc htok => exact absurd (htok.symm.trans h4) h6
      | exit => exact ⟨h1, hlost, h3, h4, h5, h6⟩
      | _ =>
          rw [‹(s.pubs 0).pc = _›] at h5
          cases h5
    · refine ⟨by rwa [f.main], hlost, by rwa [f.callback], ?_, ?_, ?_⟩
      · -- another thread writes the token only to reset it
        cases hm with
        | reset hpc => rfl
        | _ => exact h4
      · rw [f.others 0 hi]
        exact h5
      · rw [f.others 0 hi]
        exact h6
  · exact ⟨h1, h2, h3, h4, h5, h6⟩

/-! ## §3. Which processes have such waits. -/

theorem leads_lose (hrun : s.outcome = .running) :
    (system o cfg).Leads s { s with paho := { s.paho with lost := true } } := by
  apply Leads.single (a := .lose)
  simp only [system, step, hrun, if_true]

/-- Every thread that waits for an event can still see it happen. -/
structure NotWedged (o : ByteOrder) (cfg : Config) (s : State ι) : Prop where
  token : ∀ i, (s.pubs i).pc = .spin →
    ∃ t, (system o cfg).Leads s t ∧ (t.pubs i).pc ≠ .spin
  done : ∀ i, (s.subs i).waiting = true →
    ∃ t, (system o cfg).Leads s t ∧ (t.subs i).waiting = false

theorem starved_reachable (cfg : Config) (hsubs : 0 < cfg.numSubs) (hqos : cfg.qos ≤ 2) :
    ∃ s : State ι, (system o cfg).Reachable s ∧ s.outcome = .running ∧ Starved s := by
  refine ⟨_, (reachable_subscribed o hsubs hqos).leads (leads_lose rfl), rfl,
    ⟨rfl, rfl, rfl, rfl, ?_⟩⟩
  simp [subscribedState, SubPC.waiting]

theorem orphaned_reachable (cfg : Config) (hpubs : 0 < cfg.numPubs) (hqos : cfg.qos ≠ 0) :
    ∃ s : State ι, (system o cfg).Reachable s ∧ s.outcome = .running ∧ Orphaned s := by
  have hready := leads_spawned.trans
    (leads_pub_subscribed (ι := ι) (o := o) 0 rfl (spawned₀_pubs hpubs) rfl)
  have hspin := hready.trans (leads_pub_spin 0 rfl (by simp) rfl hqos)
  refine ⟨_, hspin.trans (leads_lose rfl), rfl, ⟨rfl, rfl, rfl, rfl, ?_, ?_⟩⟩
  · simp
  · simp

/-- A publish thread waits for a token only above QoS 0. -/
theorem qos_of_spin (h : (system o cfg).Reachable s) :
    ∀ i, (s.pubs i).pc = .spin → cfg.qos ≠ 0 := by
  apply reachable_induct (P := fun s : State ι => ∀ i, (s.pubs i).pc = .spin → cfg.qos ≠ 0) h
  · intro i hpc
    cases hpc
  · intro s s' _ _ ih hm i hspin
    cases hm with
    | main hm =>
        cases hm with
        | createPub j hpc hj =>
            change (update s.pubs j PubThread.fresh i).pc = _ at hspin
            by_cases hi : i = j
            · subst hi
              rw [update_self] at hspin
              cases hspin
            · rw [update_of_ne hi] at hspin
              exact ih i hspin
        | _ => exact ih i hspin
    | sub j hm =>
        rw [hm.frame.pubs] at hspin
        exact ih i hspin
    | pub j hm =>
        have f := hm.frame
        by_cases hi : i = j
        · subst hi
          cases hm with
          -- the one way into the spin
          | published tok hpc hqos => exact hqos
          | exit => exact ih i hspin
          | _ =>
              simp only [State.setPub, State.addFilter, update_self] at hspin
              cases hspin
        · rw [f.others i hi] at hspin
          exact ih i hspin
    | callback hm =>
        rw [hm.frame.pubs] at hspin
        exact ih i hspin
    | paho hm =>
        rw [hm.frame.pubs] at hspin
        exact ih i hspin

/-- No subscribe thread waits where there is none, or none is accepted. -/
theorem not_waiting (hsubs : cfg.numSubs = 0 ∨ 2 < cfg.qos) (hs : (system o cfg).Reachable s)
    (i : Nat) : (s.subs i).waiting = false := by
  rcases hsubs with hzero | hqos
  · rw [sub_absent hs (by omega)]
    rfl
  · have hearly := sub_early hqos hs i
    revert hearly
    cases s.subs i <;> decide

/-- No publish thread spins where there is none, or none is confirmed. -/
theorem not_spinning (hpubs : cfg.numPubs = 0 ∨ cfg.qos = 0) (hs : (system o cfg).Reachable s)
    (i : Nat) : (s.pubs i).pc ≠ .spin := by
  intro hspin
  rcases hpubs with hzero | hqos
  · rw [pub_absent hs (by omega)] at hspin
    cases hspin
  · exact qos_of_spin hs i hspin hqos

/-- **WHICH PROCESSES A CONNECTION LOSS CANNOT WEDGE**: those in which no
thread ever comes to wait for the callback thread. -/
theorem loss_iff (o : ByteOrder) (cfg : Config) :
    (∀ s : State ι, (system o cfg).Reachable s → s.outcome = .running → s.paho.lost = true →
        NotWedged o cfg s)
      ↔ (cfg.numSubs = 0 ∨ 2 < cfg.qos) ∧ (cfg.numPubs = 0 ∨ cfg.qos = 0) := by
  constructor
  · intro hall
    constructor
    · by_contra hcond
      obtain ⟨hsubs, hqos⟩ := not_or.mp hcond
      rw [UInt32.not_lt] at hqos
      obtain ⟨s, hs, hrun, hstarved⟩ := starved_reachable (ι := ι) (o := o) cfg (by omega) hqos
      obtain ⟨t, hleads, hpassed⟩ := (hall s hs hrun hstarved.lost).done 0 hstarved.waiting
      have hstill := (starved_stuck.leads hstarved hleads).waiting
      rw [hpassed] at hstill
      cases hstill
    · by_contra hcond
      obtain ⟨hpubs, hqos⟩ := not_or.mp hcond
      obtain ⟨s, hs, hrun, horphaned⟩ := orphaned_reachable (ι := ι) (o := o) cfg (by omega) hqos
      obtain ⟨t, hleads, hleft⟩ := (hall s hs hrun horphaned.lost).token 0 horphaned.spinning
      exact hleft (orphaned_stuck.leads horphaned hleads).spinning
  · intro h s hs _ _
    obtain ⟨hsubs, hpubs⟩ := h
    constructor
    · intro i hspin
      exact absurd hspin (not_spinning hpubs hs i)
    · intro i hwaiting
      rw [not_waiting hsubs hs i] at hwaiting
      cases hwaiting

/-- `--pub=topic` at the default QoS 1: the publisher spins for a token that
was dropped with the connection. -/
theorem loss_wedges_publisher :
    ∃ s : State Unit, (system .little (Config.default ["topic"] [])).Reachable s
      ∧ s.outcome = .running ∧ s.paho.lost = true ∧ (s.pubs 0).pc = .spin
      ∧ (∀ t, (system .little (Config.default ["topic"] [])).Leads s t → (t.pubs 0).pc = .spin)
      ∧ ¬ NotWedged .little (Config.default ["topic"] []) s := by
  obtain ⟨s, hs, hrun, horphaned⟩ := orphaned_reachable (ι := Unit) (o := .little)
    (Config.default ["topic"] []) (by decide) (by decide)
  have hforever : ∀ t, (system .little (Config.default ["topic"] [])).Leads s t →
      (t.pubs 0).pc = .spin := fun t ht => (orphaned_stuck.leads horphaned ht).spinning
  refine ⟨s, hs, hrun, horphaned.lost, horphaned.spinning, hforever, ?_⟩
  intro hnot
  obtain ⟨t, hleads, hleft⟩ := hnot.token 0 horphaned.spinning
  exact hleft (hforever t hleads)

end MqttBenchmark.Process
