/-
  MqttBenchmark.Process.Stopped
  ─────────────────────────────
  **A PUBLISH PROCESS BEFORE AND AFTER ITS KILL.**

    • `subscribed_sound` — which filters a process can have,
    • `KillSeen` — a `pubkill` message has reached `msgarrvd`,
    • `Over` — the publish thread has ended, or the process has: nothing is
      published any more,
    • `over_of_taken` — a kill that was seen, posted and taken ends it.
-/
import MqttBenchmark.Process.Shutdown

namespace MqttBenchmark.Process

open Lib Lib.System Function

variable {ι : Type} {o : ByteOrder} {cfg : Config} {s s' : State ι}

/-! ## §1. Filters and threads. -/

/-- Subscribe threads ask for `SUBS[0]`, publish threads for `pubkill`. -/
theorem subscribed_sound (h : (system o cfg).Reachable s) :
    ∀ f ∈ s.paho.subscribed, 0 < cfg.numSubs ∧ f = cfg.sub0 ∨ 0 < cfg.numPubs ∧ f = pubkill := by
  refine reachable_induct (P := fun s => ∀ f ∈ s.paho.subscribed,
    0 < cfg.numSubs ∧ f = cfg.sub0 ∨ 0 < cfg.numPubs ∧ f = pubkill) h (by simp [initial]) ?_
  intro s s' hs _ ih hm
  have hadd : ∀ {g : String}, (0 < cfg.numSubs ∧ g = cfg.sub0 ∨ 0 < cfg.numPubs ∧ g = pubkill) →
      ∀ f ∈ g :: s.paho.subscribed,
        0 < cfg.numSubs ∧ f = cfg.sub0 ∨ 0 < cfg.numPubs ∧ f = pubkill := by
    intro g hg f hf
    rcases List.mem_cons.mp hf with rfl | hf
    · exact hg
    · exact ih f hf
  cases hm with
  | main h => rw [h.frame.paho]; exact ih
  | callback h => rw [h.frame.subscribed]; exact ih
  | paho h => rw [h.frame.subscribed]; exact ih
  | sub i h =>
      cases h with
      | subscribe hpc hqos hlost =>
          have hlt := sub_lt_numSubs hs (i := i) (by rw [hpc]; simp)
          exact hadd (.inl ⟨by omega, rfl⟩)
      | _ => exact ih
  | pub i h =>
      cases h with
      | subscribe hpc hlost =>
          have hlt := pub_lt_numPubs hs (i := i) (by rw [hpc]; simp)
          exact hadd (.inr ⟨by omega, rfl⟩)
      | _ => exact ih

/-- A process without publish threads never gets to publish. -/
theorem not_publish (h : (system o cfg).Reachable s) (hpubs : cfg.numPubs = 0) (i : Nat) :
    (s.pubs i).pc ≠ .publish := by
  rw [pub_absent h (by omega)]
  simp

/-! ## §2. The kill. -/

/-- `msgarrvd` has been called for a `pubkill` message. -/
def KillSeen (s : State ι) : Prop :=
  (∃ m t, s.callback = .arrived m t ∧ m.topicName = pubkill) ∨ 0 < s.hist.killPosts

theorem KillSeen.step {a : Action ι} (hk : KillSeen s) (h : step o cfg s a = some s') :
    KillSeen s' := by
  have hsame : s'.callback = s.callback → s'.hist.killPosts = s.hist.killPosts → KillSeen s' := by
    intro h1 h2
    unfold KillSeen
    rwa [h1, h2]
  have hm := (step_move h).2
  cases hm with
  | main h => exact hsame h.frame.callback h.frame.killPosts
  | sub i h => exact hsame h.frame.callback h.frame.killPosts
  | pub i h => exact hsame h.frame.callback (by rw [h.frame.hist])
  | callback h =>
      rcases hk with ⟨m, t, hcb, htopic⟩ | hpost
      -- handling the message is what counts it
      · cases h with
        | kill m' t' hpc htopic' => exact .inr (Nat.succ_pos _)
        | fault => exact .inl ⟨m, t, hcb, htopic⟩
        | take n dt d hpc hd => rw [hcb] at hpc; simp at hpc
        | storeReceive m' t' x buf hpc hne hit hx hbuf =>
            rw [hcb] at hpc
            cases hpc
            exact absurd htopic hne
        | full m' t' hpc hne hit =>
            rw [hcb] at hpc
            cases hpc
            exact absurd htopic hne
        | skip m' t' hpc hne hit =>
            rw [hcb] at hpc
            cases hpc
            exact absurd htopic hne
        | _ => rw [hcb] at *; contradiction
      · right
        cases h <;> simp only [State.fault] <;> omega
  | paho h =>
      rcases hk with ⟨m, t, hcb, htopic⟩ | hpost
      · cases h with
        | lose => exact .inl ⟨m, t, hcb, htopic⟩
        | arrive m' t' hpc hmatch => rw [hcb] at hpc; cases hpc
        | confirm k n dt hpc hk => rw [hcb] at hpc; cases hpc
      · exact .inr (by rw [h.frame.killPosts]; exact hpost)

/-- No callback is running. -/
def CallbackPC.isIdle : CallbackPC ι → Bool
  | .idle => true
  | _ => false

/-! ## §3. The end. -/

/-- The process or its publish thread has ended. -/
def Over (s : State ι) : Prop := s.outcome ≠ .running ∨ (s.pubs 0).pc = .ended

instance (s : State ι) : Decidable (Over s) := inferInstanceAs (Decidable (_ ∨ _))

theorem Over.step {a : Action ι} (hs : (system o cfg).Reachable s) (ho : Over s)
    (h : step o cfg s a = some s') : Over s' := by
  obtain ⟨hrun, hm⟩ := step_move h
  have hend := ho.resolve_left (not_not.mpr hrun)
  right
  cases hm with
  | main h =>
      cases h with
      | createPub i hpc hi =>
          -- thread 0 exists, so it is not created again
          have hlt := pub_lt hs (i := 0) (by rw [hend]; simp)
          rw [hpc] at hlt
          simp only [MainPC.pubsMade] at hlt
          simpa [update_of_ne (show (0 : Nat) ≠ i by omega)] using hend
      | _ => exact hend
  | sub i h => rw [h.frame.pubs]; exact hend
  | callback h => rw [h.frame.pubs]; exact hend
  | paho h => rw [h.frame.pubs]; exact hend
  | pub i h =>
      by_cases hi : i = 0
      · subst hi
        cases h with
        | exit => exact hend
        | _ => rw [hend] at *; contradiction
      · rw [h.frame.others 0 (Ne.symm hi)]
        exact hend

/-- A process that is over publishes nothing. -/
theorem Over.not_publish (hs : (system o cfg).Reachable s) (hpubs : cfg.numPubs ≤ 1) (ho : Over s)
    (hrun : s.outcome = .running) (i : Nat) : (s.pubs i).pc ≠ .publish := by
  intro hpc
  have hend := ho.resolve_left (not_not.mpr hrun)
  have hlt := pub_lt_numPubs hs (i := i) (by rw [hpc]; simp)
  obtain rfl : i = 0 := by omega
  rw [hend] at hpc
  cases hpc

theorem Over.issued_step (hs : (system o cfg).Reachable s) (hpubs : cfg.numPubs ≤ 1) (ho : Over s)
    {a : Action ι} (h : Process.step o cfg s a = some s') : s'.paho.issued = s.paho.issued := by
  obtain ⟨hrun, hm⟩ := step_move h
  cases hm with
  | main h => rw [h.frame.paho]
  | sub i h => exact h.frame.issued
  | callback h => exact h.frame.issued
  | paho h => exact h.frame.issued
  | pub i h =>
      cases h with
      | publish tok hpc htok hlost => exact absurd hpc (ho.not_publish hs hpubs hrun i)
      | _ => rfl

/-- **A kill that was seen, and whose post was taken, has ended the thread**,
once its last call has returned. -/
theorem over_of_taken (hs : (system o cfg).Reachable s) (hpubs : cfg.numPubs ≤ 1)
    (hseen : KillSeen s) (hidle : s.callback.isIdle = true) (hvalue : s.stopPublish.value = 0)
    (hcall : (s.pubs 0).pc ≠ .unsubscribe) : Over s := by
  have hpost : 0 < stopPosts s := by
    rcases hseen with ⟨m, t, hcb, -⟩ | hpost
    · rw [hcb] at hidle
      cases hidle
    · exact Nat.lt_of_lt_of_le hpost (Nat.le_add_right _ _)
  have hstopped : (s.pubs 0).pc.hasStopped = true := by
    by_contra hne
    -- a thread that has not stopped would find the post still there
    have hpos := stop_waits hpubs hs hpost (by simpa using hne)
    omega
  right
  unfold PubPC.hasStopped at hstopped
  split at hstopped
  next hpc => exact absurd hpc hcall
  next hpc => exact hpc
  next => cases hstopped

end MqttBenchmark.Process
