/-
  MqttBenchmark.Process.Publish
  ─────────────────────────────
  **ONE PUBLISH THREAD, AND WHY NOT TWO.**

    • `single_publisher` — with one publish thread the hand-off of
      `deliveredtoken` and `qos1_pubmutex` is correct and a stop ends the
      loop after at most one more publish,
    • `confirm_iff` — no confirmation is lost exactly with one publish
      thread: the reset of one thread can erase the token of another.
-/
import MqttBenchmark.Process.Handoff
import MqttBenchmark.Process.Shutdown

namespace MqttBenchmark.Process

open Lib Lib.System Function

variable {ι : Type} {o : ByteOrder} {cfg : Config} {s s' t : State ι}

/-! ## §1. One publish thread: the hand-off. -/

/-- Inside the body of `PUBLISH_MESSAGE`. -/
def PubPC.inPublishMessage : PubPC → Bool
  | .publish | .publishing _ | .spin | .postMutex => true
  | _ => false

/-- A callback that exists runs after the semaphores were initialised. -/
theorem initialised_of_callback (h : (system o cfg).Reachable s) (hcb : s.callback ≠ .idle) :
    s.main.initialising = false := by
  by_contra hinit
  exact hcb (startup h (by simpa using hinit)).callback

/-- A publish thread that exists runs after the semaphores were initialised. -/
theorem initialised_of_pub (h : (system o cfg).Reachable s) {i : Nat}
    (hpc : (s.pubs i).pc ≠ .absent) : s.main.initialising = false := by
  by_contra hinit
  have hlt := pub_lt h hpc
  rw [(MainPC.made_of_initialising (by simpa using hinit)).2] at hlt
  omega

/-- `delivered` always finds the mutex free. -/
theorem delivered_not_blocked (hpubs : cfg.numPubs = 1) (h : (system o cfg).Reachable s) (n : Nat)
    (dt : Int) : s.callback ≠ .inWaitMutex n dt := by
  intro hcb
  have hinv := handoff_inv hpubs h (initialised_of_callback h (by simp [hcb]))
  have hbusy : (handoff s).delivery ≠ .idle := by simp [handoff, hcb, CallbackPC.delivery]
  obtain ⟨-, tok, -, hp⟩ := hinv.busy (.inl hbusy)
  have hplace := hp.place
  simp [handoff, hcb, CallbackPC.delivery] at hplace

theorem Handoff.Inv.mutex_le_one {v : Handoff} (hi : v.Inv cfg) : v.mutex ≤ 1 := by
  have hquiet : v.Quiet cfg → v.mutex ≤ 1 := fun h => h.mutex.le
  have hpend : ∀ n dt, v.Pending n dt → v.mutex ≤ 1 := by
    intro n dt h
    rcases h.place with h | h | h <;> omega
  have hconf : ∀ n dt, v.Confirmed n dt → v.mutex ≤ 1 := fun n dt h => by
    rw [h.mutex]
    omega
  unfold Inv at hi
  split at hi
  next tok hpc =>
    split at hi
    · exact hquiet hi
    · exact hi.elim (hpend _ _) (hconf _ _)
  next => exact hi.2.elim (hpend _ _) (hconf _ _)
  next => exact hconf _ _ hi.2
  next => exact hquiet hi.1
  next => exact hquiet hi.1
  next => exact hquiet hi

theorem Handoff.Inv.quiet_of_outside {v : Handoff} (hi : v.Inv cfg)
    (hout : v.pub.pc.inPublishMessage = false) : v.Quiet cfg := by
  unfold Inv at hi
  split at hi
  next tok hpc => rw [hpc] at hout; cases hout
  next hpc => rw [hpc] at hout; cases hout
  next hpc => rw [hpc] at hout; cases hout
  next => exact hi.1
  next => exact hi.1
  next => exact hi

/-- `qos1_pubmutex` stays in {0,1}. -/
theorem mutex_le_one (hpubs : cfg.numPubs = 1) (h : (system o cfg).Reachable s) :
    s.qos1Pubmutex.value ≤ 1 := by
  cases hinit : s.main.initialising with
  | false => exact (handoff_inv hpubs h hinit).mutex_le_one
  | true =>
      -- before `sem_init` the mutex is 0 and stays so
      refine (reachable_induct (P := fun s => s.main.initialising = true → s.qos1Pubmutex.value ≤ 1)
        h (fun _ => Nat.zero_le _) ?_) hinit
      intro s s' hs _ ih hm hinit
      cases hm with
      | main h =>
          cases h <;> first | exact ih (by rw [‹s.main = _›]; rfl) | simp [MainPC.initialising] at hinit
      | sub i h =>
          rw [h.frame.qos1Pubmutex]
          rw [h.frame.main] at hinit
          exact ih hinit
      | pub i h =>
          rw [h.frame.main] at hinit
          rcases h.made hs with rfl | hlt
          · exact ih hinit
          · rw [(MainPC.made_of_initialising hinit).2] at hlt
            omega
      | callback h =>
          rw [h.frame.main] at hinit
          cases h with
          | take n dt d hpc hd =>
              have hcb := (startup hs hinit).callback
              rw [hcb] at hpc
              simp at hpc
          | _ => exact ih hinit
      | paho h =>
          rw [h.frame.qos1Pubmutex]
          rw [h.frame.main] at hinit
          exact ih hinit

/-- Outside `PUBLISH_MESSAGE` the mutex is free. -/
theorem mutex_free_outside (hpubs : cfg.numPubs = 1) (h : (system o cfg).Reachable s)
    (hpc : (s.pubs 0).pc ≠ .absent) (hout : (s.pubs 0).pc.inPublishMessage = false) :
    s.qos1Pubmutex.value = 1 :=
  ((handoff_inv hpubs h (initialised_of_pub h hpc)).quiet_of_outside hout).mutex

/-- The spin of publish `n` is left only once publish `n` is confirmed. -/
theorem confirmed_of_leave (hpubs : cfg.numPubs = 1) (h : (system o cfg).Reachable s)
    {a : Action ι} (hstep : step o cfg s a = some t) (hpc : (s.pubs 0).pc = .spin)
    (hleft : (t.pubs 0).pc ≠ .spin) : (s.pubs 0).current ∈ s.paho.confirmed := by
  have hinv := handoff_inv hpubs h (initialised_of_pub h (i := 0) (by simp [hpc]))
  have hmain : s.main.pubsMade cfg = 1 := by
    have hlt := pub_lt h (i := 0) (by simp [hpc])
    have hle := (spawned h).pubsLe
    omega
  have hm := (step_move hstep).2
  cases hm with
  | main hm =>
      cases hm with
      | createPub i hmain' hi =>
          rw [hmain'] at hmain
          have hne : (0 : Nat) ≠ i := by
            simp only [MainPC.pubsMade] at hmain
            omega
          exact absurd hpc (by simpa [update_of_ne hne] using hleft)
      | _ => exact absurd hpc hleft
  | sub i hm => exact absurd hpc (by simpa [hm.frame.pubs] using hleft)
  | callback hm => exact absurd hpc (by simpa [hm.frame.pubs] using hleft)
  | paho hm => exact absurd hpc (by simpa [hm.frame.pubs] using hleft)
  | pub i hm =>
      rcases Nat.eq_zero_or_pos i with rfl | hpos
      · cases hm with
        -- it read its own token, which is not the 0 of a pending publish
        | leave hpc' htok =>
            simp only [Handoff.Inv, handoff, hpc] at hinv
            rcases hinv.2 with hp | hc
            · exact absurd (htok.symm.trans hp.token) hp.nonzero
            · exact (hc.confirmed _).mpr (Nat.le_refl _)
        | exit => exact absurd hpc hleft
        | _ => rw [‹(s.pubs 0).pc = _›] at hpc; cases hpc
      · have hsame := hm.frame.others 0 (by omega)
        exact absurd hpc (by rwa [hsame] at hleft)

/-- **A publish is issued only when every earlier one is confirmed**, at any
QoS that is confirmed at all. -/
theorem confirmed_of_issue (hpubs : cfg.numPubs = 1) (h : (system o cfg).Reachable s)
    {a : Action ι} (hstep : step o cfg s a = some t) (hiss : t.paho.issued ≠ s.paho.issued)
    (hqos : cfg.qos ≠ 0) (n : Nat) (hn : n < s.paho.issued) : n ∈ s.paho.confirmed := by
  have hm := (step_move hstep).2
  cases hm with
  | main hm => exact absurd (by rw [hm.frame.paho]) hiss
  | sub i hm => exact absurd hm.frame.issued hiss
  | callback hm => exact absurd hm.frame.issued hiss
  | paho hm => exact absurd hm.frame.issued hiss
  | pub i hm =>
      rcases hm.lt_numPubs h with rfl | hlt
      · exact absurd rfl hiss
      obtain rfl : i = 0 := by omega
      cases hm with
      | publish tok hpc htok hlost =>
          have hinv := handoff_inv hpubs h (initialised_of_pub h (i := 0) (by simp [hpc]))
          simp only [Handoff.Inv, handoff, hpc] at hinv
          exact (hinv.1.confirmed hqos n).mpr hn
      | _ => exact absurd rfl hiss

/-! ## §2. One publish thread: the stop. -/

/-- Publishes the thread may still issue before it looks at `stop_publish`. -/
def PubPC.owes : PubPC → Nat
  | .absent | .start | .subscribe | .subscribing | .reset | .stamp | .publish => 1
  | _ => 0

/-- One move after a stop was posted: nothing is owed twice. -/
theorem owes_step (hpubs : cfg.numPubs = 1) (h : (system o cfg).Reachable s)
    (hpost : 0 < stopPosts s) (hm : Move o cfg s t) :
    t.paho.issued + (t.pubs 0).pc.owes ≤ s.paho.issued + (s.pubs 0).pc.owes := by
  cases hm with
  | main hm =>
      have f := hm.frame
      cases hm with
      | createPub i hmain hi =>
          obtain rfl : i = 0 := by omega
          have habs : (s.pubs 0).pc = .absent :=
            ((spawned h).pubs 0).mpr (by rw [hmain]; exact Nat.le_refl 0)
          simp [habs, PubThread.fresh, PubPC.owes]
      | _ => exact Nat.le_refl _
  | sub i hm => rw [hm.frame.issued, hm.frame.pubs]
  | callback hm => rw [hm.frame.issued, hm.frame.pubs]
  | paho hm => rw [hm.frame.issued, hm.frame.pubs]
  | pub i hm =>
      rcases hm.lt_numPubs h with rfl | hlt
      · exact Nat.le_refl _
      obtain rfl : i = 0 := by omega
      cases hm with
      | again hpc hd =>
          -- the stop is there, so `sem_trywait` takes it
          have hpos := stop_waits hpubs.le h hpost (by rw [hpc]; rfl)
          rw [Sem.take_eq_none.mp hd] at hpos
          omega
      | exit => exact Nat.le_refl _
      | _ => simp [‹(s.pubs 0).pc = _›, PubPC.owes]

theorem stopPosts_mono (hm : Move o cfg s t) : stopPosts s ≤ stopPosts t := by
  cases hm with
  | main hm => simp only [stopPosts, hm.frame.killPosts, hm.frame.endPosts, le_refl]
  | sub i hm =>
      cases hm <;> simp only [stopPosts, State.setSub, State.addFilter, State.exit] <;> omega
  | pub i hm => simp only [stopPosts, hm.frame.hist, le_refl]
  | callback hm => cases hm <;> simp only [stopPosts, State.fault] <;> omega
  | paho hm => simp only [stopPosts, hm.frame.killPosts, hm.frame.endPosts, le_refl]

/-- **After the first stop at most one more message is published.** -/
theorem issued_after_stop (hpubs : cfg.numPubs = 1) (h : (system o cfg).Reachable s)
    (hpost : 0 < stopPosts s) (hlead : (system o cfg).Leads s t) :
    t.paho.issued ≤ s.paho.issued + 1 := by
  -- what is issued and what is still owed never grow together
  have hbudget : 0 < stopPosts t ∧
      t.paho.issued + (t.pubs 0).pc.owes ≤ s.paho.issued + (s.pubs 0).pc.owes := by
    refine hlead.induct (P := fun u => 0 < stopPosts u ∧
      u.paho.issued + (u.pubs 0).pc.owes ≤ s.paho.issued + (s.pubs 0).pc.owes)
      ⟨hpost, Nat.le_refl _⟩ ?_
    intro u a v hu hP hstep
    have hm := (step_move hstep).2
    exact ⟨hP.1.trans_le (stopPosts_mono hm), (owes_step hpubs (h.leads hu) hP.1 hm).trans hP.2⟩
  have hone : (s.pubs 0).pc.owes ≤ 1 := by
    unfold PubPC.owes
    split <;> omega
  omega

theorem issued_step (hm : Move o cfg s t) :
    t.paho.issued = s.paho.issued ∨ t.paho.issued = s.paho.issued + 1 := by
  cases hm with
  | main hm => exact .inl (by rw [hm.frame.paho])
  | sub i hm => exact .inl hm.frame.issued
  | pub i hm => cases hm <;> first | exact .inl rfl | exact .inr rfl
  | callback hm => exact .inl hm.frame.issued
  | paho hm => exact .inl hm.frame.issued

/-- **The publisher of a process with one publish thread.**  `delivered`
never blocks; `qos1_pubmutex` stays in {0,1} and is 1 outside
`PUBLISH_MESSAGE`; the spin is left only when `delivered` ran for this very
publish; a publish is issued only when every earlier one is confirmed; after
the first post of `stop_publish` the next `sem_trywait` takes it and at most
one more message is published. -/
theorem single_publisher (o : ByteOrder) (cfg : Config) (hpubs : cfg.numPubs = 1) (s : State ι)
    (h : (system o cfg).Reachable s) :
    (∀ n dt, s.callback ≠ .inWaitMutex n dt)
    ∧ s.qos1Pubmutex.value ≤ 1
    ∧ ((s.pubs 0).pc ≠ .absent → (s.pubs 0).pc.inPublishMessage = false →
        s.qos1Pubmutex.value = 1)
    ∧ (∀ a t, step o cfg s a = some t → (s.pubs 0).pc = .spin → (t.pubs 0).pc ≠ .spin →
        (s.pubs 0).current ∈ s.paho.confirmed)
    ∧ (∀ a t, step o cfg s a = some t → t.paho.issued ≠ s.paho.issued →
        t.paho.issued = s.paho.issued + 1
        ∧ (cfg.qos ≠ 0 → ∀ n < s.paho.issued, n ∈ s.paho.confirmed))
    ∧ (0 < stopPosts s → (s.pubs 0).pc = .tryStop → 0 < s.stopPublish.value)
    ∧ (0 < stopPosts s → ∀ t, (system o cfg).Leads s t → t.paho.issued ≤ s.paho.issued + 1) := by
  refine ⟨delivered_not_blocked hpubs h, mutex_le_one hpubs h, mutex_free_outside hpubs h,
    fun a t hstep => confirmed_of_leave hpubs h hstep, fun a t hstep hiss => ⟨?_, ?_⟩,
    ?_, fun hpost t hlead => issued_after_stop hpubs h hpost hlead⟩
  · exact (issued_step (step_move hstep).2).resolve_left hiss
  · exact fun hqos n hn => confirmed_of_issue hpubs h hstep hiss hqos n hn
  · intro hpost hpc
    exact stop_waits hpubs.le h hpost (by rw [hpc]; rfl)

/-- One publish thread up to the confirmation of its first publish. -/
def confirmSchedule : List (Action Unit) :=
  List.replicate 6 (.main granted) ++ List.replicate 7 (.pub 0 granted)
    ++ [.confirm 0, .callback, .callback]

/-- It leaves its spin, and a stop comes before it looks for one. -/
def stopSchedule : List (Action Unit) :=
  confirmSchedule ++ List.replicate 2 (.pub 0 granted) ++ killCall ++ [.pub 0 granted]

/-- `--pub=topic`, every other option at its default: the thread that spins
leaves once its publish is confirmed; after the stop there is a unit for it to
take, and one more publish at most. -/
theorem single_publisher_stopped :
    (∃ s t : State Unit,
      (system .little (Config.default ["topic"] [])).run confirmSchedule initial = some s
      ∧ step .little (Config.default ["topic"] []) s (.pub 0 granted) = some t
      ∧ (t.pubs 0).pc = .postMutex ∧ (s.pubs 0).current ∈ s.paho.confirmed)
    ∧ ∃ s : State Unit,
      (system .little (Config.default ["topic"] [])).run stopSchedule initial = some s
      ∧ s.paho.issued = 1 ∧ s.qos1Pubmutex.value = 1 ∧ 0 < s.stopPublish.value
      ∧ ∀ t, (system .little (Config.default ["topic"] [])).Leads s t → t.paho.issued ≤ 2 := by
  constructor
  · -- up to the confirmation, and the step that leaves the spin
    have hrun : ((system .little (Config.default ["topic"] [])).run confirmSchedule initial).map
        (fun s => ((s.pubs 0).pc,
          (step .little (Config.default ["topic"] []) s (.pub 0 granted)).map fun t => (t.pubs 0).pc))
        = some (.spin, some .postMutex) := rfl
    obtain ⟨s, hs, hfacts⟩ := Option.map_eq_some_iff.mp hrun
    simp only [Prod.mk.injEq] at hfacts
    obtain ⟨hspin, hnext⟩ := hfacts
    obtain ⟨t, ht, hleft⟩ := Option.map_eq_some_iff.mp hnext
    obtain ⟨-, -, -, hconfirmed, -⟩ := single_publisher .little (Config.default ["topic"] []) rfl s
      (leads_of_run _ hs)
    exact ⟨s, t, hs, ht, hleft, hconfirmed _ t ht hspin (by rw [hleft]; simp)⟩
  · -- up to the look at `stop_publish`
    have hrun : ((system .little (Config.default ["topic"] [])).run stopSchedule initial).map
        (fun s => ((s.pubs 0).pc, s.paho.issued, stopPosts s)) = some (.tryStop, 1, 1) := rfl
    obtain ⟨s, hs, hfacts⟩ := Option.map_eq_some_iff.mp hrun
    simp only [Prod.mk.injEq] at hfacts
    obtain ⟨htry, hissued, hstop⟩ := hfacts
    obtain ⟨-, -, hfree, -, -, hwaits, hlast⟩ := single_publisher .little
      (Config.default ["topic"] []) rfl s (leads_of_run _ hs)
    refine ⟨s, hs, hissued, ?_, hwaits (by omega) htry, ?_⟩
    · exact hfree (by rw [htry]; simp) (by rw [htry]; rfl)
    · intro t ht
      have hle := hlast (by omega) t ht
      omega

/-! ## §3. Any number of publish threads. -/

/-- No confirmation is lost: a thread whose publish is confirmed can still
leave its spin, and `delivered` never waits for a post nobody can make. -/
structure ConfirmSafe (o : ByteOrder) (cfg : Config) (s : State ι) : Prop where
  observed : ∀ i, (s.pubs i).pc = .spin → (s.pubs i).current ∈ s.paho.confirmed →
    ∃ t, (system o cfg).Leads s t ∧ (t.pubs i).pc = .postMutex
  unblocked : ∀ n dt, s.callback = .inWaitMutex n dt → s.qos1Pubmutex.value = 0 →
    ∃ t i, (system o cfg).Leads s t ∧ (t.pubs i).pc = .postMutex

/-- With one publish thread no confirmation is lost. -/
theorem confirm_safe (hpubs : cfg.numPubs = 1) (h : (system o cfg).Reachable s)
    (hrun : s.outcome = .running) : ConfirmSafe o cfg s := by
  refine ⟨?_, fun n dt hcb _ => absurd hcb (delivered_not_blocked hpubs h n dt)⟩
  intro i hpc hconf
  have hlt := pub_lt_numPubs h (i := i) (by simp [hpc])
  obtain rfl : i = 0 := by omega
  have hinv := handoff_inv hpubs h (initialised_of_pub h (i := 0) (by simp [hpc]))
  simp only [Handoff.Inv, handoff, hpc] at hinv
  rcases hinv.2 with hp | hc
  · exact absurd ((hp.confirmed _).mp hconf) (Nat.lt_irrefl _)
  · refine ⟨s.setPub 0 .postMutex, leads_pub 0 granted hrun ?_, by simp⟩
    have htok : s.deliveredtoken = (s.pubs 0).token := hc.token
    simp [publishStep, hpc, htok]

/-- `main` has created every thread. -/
def MainPC.created : MainPC → Bool
  | .initDone | .initStop | .initMutex | .createSubs _ | .createPubs _ => false
  | _ => true

/-- The token of thread 0 is gone: it spins on a confirmed publish, and
nobody can store a token, take the mutex or post it any more. -/
structure Erased (s : State ι) : Prop where
  created : s.main.created = true
  mutex : s.qos1Pubmutex.value = 0
  token : s.deliveredtoken = 0
  callback : ∀ n dt, s.callback ≠ .storeToken n dt
  posting : ∀ i, (s.pubs i).pc ≠ .postMutex
  spinning : ∀ i, (s.pubs i).pc = .spin → (s.pubs i).token ≠ 0
  publishing : ∀ i tok, (s.pubs i).pc = .publishing tok → tok ≠ 0
  waiting : (s.pubs 0).pc = .spin

/-- What `main` leaves alone once it has created every thread. -/
structure CreatedFrame (s t : State ι) : Prop where
  created : t.main.created = true
  subs : t.subs = s.subs
  pubs : t.pubs = s.pubs
  doneReceiving : t.doneReceiving.value = s.doneReceiving.value
  qos1Pubmutex : t.qos1Pubmutex.value = s.qos1Pubmutex.value

theorem MainMove.created_frame (hm : MainMove cfg s t) (hcreated : s.main.created = true) :
    CreatedFrame s t := by
  cases hm <;> first
    | (rw [‹s.main = _›] at hcreated; cases hcreated; done)
    | exact ⟨rfl, rfl, rfl, rfl, rfl⟩

theorem Erased.main_move (he : Erased s) (hm : MainMove cfg s t) : Erased t := by
  have f := hm.frame
  have g := hm.created_frame he.created
  refine ⟨g.created, ?_, ?_, ?_, ?_, ?_, ?_, ?_⟩
  · rw [g.qos1Pubmutex]
    exact he.mutex
  · rw [f.deliveredtoken]
    exact he.token
  · rw [f.callback]
    exact he.callback
  · rw [g.pubs]
    exact he.posting
  · rw [g.pubs]
    exact he.spinning
  · rw [g.pubs]
    exact he.publishing
  · rw [g.pubs]
    exact he.waiting

theorem Erased.pub_move (he : Erased s) {i : Nat} (hm : PubMove cfg s i t) : Erased t := by
  obtain ⟨h1, h2, h3, h4, h5, h6, h7, h8⟩ := he
  have hwait : ∀ p : PubThread, i ≠ 0 → (update s.pubs i p 0).pc = .spin := by
    intro p hne
    rw [update_of_ne (Ne.symm hne)]
    exact h8
  have hne : (s.pubs i).pc ≠ .spin → i ≠ 0 := by
    rintro hpc rfl
    exact hpc h8
  cases hm with
  -- nobody leaves a spin: every token awaited is non-zero
  | leave hpc htok => exact absurd (htok.symm.trans h3) (h6 i hpc)
  | postMutex hpc => exact absurd hpc (h5 i)
  | exit => exact ⟨h1, h2, h3, h4, h5, h6, h7, h8⟩
  | _ =>
      refine ⟨h1, h2, ?_, h4, ?_, ?_, ?_, ?_⟩
      · first | exact h3 | rfl
      · intro j
        simp only [State.setPub, State.addFilter, update_apply]
        grind
      · intro j
        simp only [State.setPub, State.addFilter, update_apply]
        grind
      · intro j
        simp only [State.setPub, State.addFilter, update_apply]
        grind
      · exact hwait _ (hne (by rw [‹(s.pubs i).pc = _›]; simp))

/-- **Once the token is erased it stays erased.** -/
theorem erased_stuck : (system o cfg).Stuck (Erased (ι := ι)) := by
  intro s a t he hstep
  have hm := (step_move hstep).2
  cases hm with
  | main hm => exact he.main_move hm
  | pub i hm => exact he.pub_move hm
  | sub i hm =>
      obtain ⟨h1, h2, h3, h4, h5, h6, h7, h8⟩ := he
      have f := hm.frame
      refine ⟨by rwa [f.main], by rwa [f.qos1Pubmutex], by rwa [f.deliveredtoken], ?_, ?_, ?_, ?_, ?_⟩
      · rwa [f.callback]
      all_goals rwa [f.pubs]
  | callback hm =>
      obtain ⟨h1, h2, h3, h4, h5, h6, h7, h8⟩ := he
      cases hm with
      -- the mutex is 0 and nobody is about to post it
      | take n dt d hpc hd =>
          have hval := (Sem.take_eq_some.mp hd).1
          omega
      | storeToken n dt hpc => exact absurd hpc (h4 n dt)
      | fault => exact ⟨h1, h2, h3, h4, h5, h6, h7, h8⟩
      | _ => exact ⟨h1, h2, h3, by simp, h5, h6, h7, h8⟩
  | paho hm =>
      obtain ⟨h1, h2, h3, h4, h5, h6, h7, h8⟩ := he
      cases hm with
      | lose => exact ⟨h1, h2, h3, h4, h5, h6, h7, h8⟩
      | _ => exact ⟨h1, h2, h3, by simp, h5, h6, h7, h8⟩

/-- Two publish threads: the second resets the token the first waits for. -/
theorem erased_reachable (cfg : Config) (hpubs : 2 ≤ cfg.numPubs) (hqos : cfg.qos ≠ 0) :
    ∃ s : State ι, (system o cfg).Reachable s ∧ s.outcome = .running ∧ Erased s
      ∧ (s.pubs 0).current ∈ s.paho.confirmed := by
  have hpc₀ : ((spawned₀ cfg : State ι).pubs 0).pc = .start := spawned₀_pubs (by omega)
  have hpc₁ : ((spawned₀ cfg : State ι).pubs 1).pc = .start := spawned₀_pubs (by omega)
  have hready := (leads_spawned.trans (leads_pub_subscribed 0 rfl hpc₀ rfl)).trans
    (leads_pub_subscribed (o := o) 1 rfl (by simpa using hpc₁) rfl)
  have hspin := hready.trans (leads_pub_spin 0 rfl (by simp) rfl hqos)
  have hconf := hspin.trans (leads_delivered 0 1 [] ⟨0, .live⟩ rfl rfl rfl rfl rfl)
  refine ⟨_, hconf.trans (leads_pub 1 granted rfl (by simp [publishStep]; rfl)), rfl, ?_, ?_⟩
  · refine ⟨rfl, rfl, rfl, by simp, ?_, ?_, ?_, ?_⟩
    · intro i
      simp only [spawned₀, spawnedState, update_apply]
      grind [PubThread.fresh]
    · intro i
      simp only [spawned₀, spawnedState, update_apply]
      grind [PubThread.fresh]
    · intro i
      simp only [spawned₀, spawnedState, update_apply]
      grind [PubThread.fresh]
    · simp
  · simp [spawned₀, spawnedState]

/-- **No confirmation is lost exactly with one publish thread.** -/
theorem confirm_iff (o : ByteOrder) (cfg : Config) (hpubs : 1 ≤ cfg.numPubs) (hqos : 1 ≤ cfg.qos) :
    (∀ s : State ι, (system o cfg).Reachable s → s.outcome = .running → ConfirmSafe o cfg s)
      ↔ cfg.numPubs = 1 := by
  constructor
  · intro hall
    by_contra hne
    have hqos : cfg.qos ≠ 0 := by
      intro heq
      rw [heq] at hqos
      exact absurd hqos (by decide)
    obtain ⟨s, hs, hrun, he, hconf⟩ :=
      erased_reachable (ι := ι) (o := o) cfg (by omega) hqos
    obtain ⟨t, hlead, hpost⟩ := (hall s hs hrun).observed 0 he.waiting hconf
    exact (erased_stuck.leads he hlead).posting 0 hpost
  · intro hone s hs hrun
    exact confirm_safe hone hs hrun

/-- At `--pub=topic`, with every other option at its default. -/
theorem confirm_iff_default :
    (∀ s : State Unit, (system .little (Config.default ["topic"] [])).Reachable s →
        s.outcome = .running → ConfirmSafe .little (Config.default ["topic"] []) s)
      ↔ (Config.default ["topic"] []).numPubs = 1 :=
  confirm_iff .little (Config.default ["topic"] []) (by decide) (by decide)

/-- `--pub=a,b`: a confirmation is lost. -/
theorem confirm_fails_for_two_publishers :
    ¬ ∀ s : State Unit, (system .little (Config.default ["a", "b"] [])).Reachable s →
        s.outcome = .running → ConfirmSafe .little (Config.default ["a", "b"] []) s := by
  intro hall
  obtain ⟨s, hs, hrun, he, hconf⟩ := erased_reachable (ι := Unit) (o := .little)
    (Config.default ["a", "b"] []) (by decide) (by decide)
  obtain ⟨t, hlead, hpost⟩ := (hall s hs hrun).observed 0 he.waiting hconf
  exact (erased_stuck.leads he hlead).posting 0 hpost

end MqttBenchmark.Process
