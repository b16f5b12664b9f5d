/-
  MqttBenchmark.Process.Shutdown
  ──────────────────────────────
  **DOES A POST REACH EVERY THREAD THAT WAITS FOR IT?**

  `stop_publish` stops publish threads, `done_receiving` subscribe threads;
  every post releases one thread, and each site posts once.

    • `no_data` — nothing but `pubkill` is seen without a data subscription,
    • `stop_waits`, `done_waits` — with one consumer the post stays there
      until that consumer takes it,
    • `shutdown_iff` — the posts suffice exactly for at most one consumer
      (or, for `done_receiving`, when it can never be posted).
-/
import MqttBenchmark.Process.Runs

namespace MqttBenchmark.Process

open Lib Lib.System Function

variable {ι : Type} {o : ByteOrder} {cfg : Config} {s s' : State ι}

/-! ## §1. Whether data can arrive. -/

/-- A subscribe thread exists and can subscribe to more than `pubkill`. -/
def receivesData (cfg : Config) : Prop :=
  0 < cfg.numSubs ∧ cfg.qos ≤ 2 ∧ cfg.sub0 ≠ pubkill

instance (cfg : Config) : Decidable (receivesData cfg) :=
  inferInstanceAs (Decidable (_ ∧ _ ∧ _))

/-- Only `pubkill` messages have been seen. -/
structure NoData (s : State ι) : Prop where
  filters : ∀ f ∈ s.paho.subscribed, f = pubkill
  arrived : ∀ m t, s.callback = .arrived m t → m.topicName = pubkill
  storing : ∀ m t x, s.callback ≠ .storeRtt m t x
  counting : ∀ m t, s.callback ≠ .count m t
  recorded : s.hist.recorded = []
  donePosts : s.hist.donePosts = 0
  arrivals : ∀ p ∈ s.hist.arrivals, p.1.topicName = pubkill

theorem NoData.congr (h : NoData s) (hsub : s'.paho.subscribed = s.paho.subscribed)
    (hcb : s'.callback = s.callback) (hrec : s'.hist.recorded = s.hist.recorded)
    (hdone : s'.hist.donePosts = s.hist.donePosts)
    (harr : s'.hist.arrivals = s.hist.arrivals) : NoData s' := by
  obtain ⟨h1, h2, h3, h4, h5, h6, h7⟩ := h
  exact ⟨by rwa [hsub], by rwa [hcb], by rwa [hcb], by rwa [hcb], by rwa [hrec], by rwa [hdone],
    by rwa [harr]⟩

/-- The subscribe thread has not subscribed. -/
def SubPC.early : SubPC → Bool
  | .absent | .allocReceive | .allocRtt | .subscribe => true
  | _ => false

/-- A subscribe thread does not go back before its subscription. -/
theorem SubMove.early {i : Nat} (h : SubMove cfg s i s') (hearly : ∀ j, (s'.subs j).early = true)
    (j : Nat) : (s.subs j).early = true := by
  rcases eq_or_ne j i with rfl | hne
  · cases h with
    | exit => exact hearly j
    | allocReceive hpc => rw [hpc]; rfl
    | allocRtt hpc => rw [hpc]; rfl
    | subscribe hpc hqos hlost => rw [hpc]; rfl
    | _ =>
        have hj := hearly j
        simp [SubPC.early] at hj
  · rw [← h.frame.others j hne]
    exact hearly j

/-- **Without a data subscription no data is ever seen**: none is possible,
or none was made yet. -/
theorem no_data (h : (system o cfg).Reachable s) :
    (¬ receivesData cfg ∨ ∀ i, (s.subs i).early = true) → NoData s := by
  refine reachable_induct
    (P := fun s => (¬ receivesData cfg ∨ ∀ i, (s.subs i).early = true) → NoData s) h ?_ ?_
  · intro _
    exact ⟨by simp [initial], by simp [initial], by simp [initial], by simp [initial], rfl, rfl,
      by simp [initial]⟩
  intro s s' hs _ ih hm hno
  cases hm with
  | main h =>
      have f := h.frame
      refine (ih (hno.imp_right ?_)).congr (by rw [f.paho]) f.callback f.recorded
        f.donePosts f.arrivals
      intro hearly j
      have hj := hearly j
      cases h with
      | createSub i hpc hi =>
          rcases eq_or_ne j i with rfl | hne
          · rw [((spawned hs).subs j).mpr (by rw [hpc]; exact Nat.le_refl j)]
            rfl
          · simpa [update_of_ne hne] using hj
      | _ => exact hj
  | sub i h =>
      have f := h.frame
      have ih := ih (hno.imp_right h.early)
      cases h with
      | subscribe hpc hqos hlost =>
          obtain ⟨h1, h2, h3, h4, h5, h6, h7⟩ := ih
          refine ⟨?_, h2, h3, h4, h5, h6, h7⟩
          intro g hg
          rcases List.mem_cons.mp hg with rfl | hg
          · rcases hno with hcfg | hearly
            -- a subscription on another topic than `pubkill` is one for data
            · have hlt := sub_lt_numSubs hs (i := i) (by rw [hpc]; simp)
              by_contra hne
              exact hcfg ⟨by omega, hqos, hne⟩
            · have hi := hearly i
              simp [SubPC.early] at hi
          · exact h1 g hg
      | _ => exact ih.congr rfl f.callback f.recorded f.donePosts f.arrivals
  | pub i h =>
      have f := h.frame
      rw [f.subs] at hno
      have ih := ih hno
      cases h with
      | subscribe hpc hlost =>
          obtain ⟨h1, h2, h3, h4, h5, h6, h7⟩ := ih
          refine ⟨?_, h2, h3, h4, h5, h6, h7⟩
          intro g hg
          rcases List.mem_cons.mp hg with rfl | hg
          · rfl
          · exact h1 g hg
      | _ => exact ih.congr rfl f.callback (by rw [f.hist]) (by rw [f.hist]) (by rw [f.hist])
  | callback h =>
      rw [h.frame.subs] at hno
      obtain ⟨h1, h2, h3, h4, h5, h6, h7⟩ := ih hno
      cases h with
      | kill m t hpc htopic =>
          exact ⟨h1, by simp, by simp, by simp, h5, h6, h7⟩
      | storeReceive m t x buf hpc htopic hit hx hbuf => exact absurd (h2 m t hpc) htopic
      | full m t hpc htopic hit => exact absurd (h2 m t hpc) htopic
      | skip m t hpc htopic hit => exact absurd (h2 m t hpc) htopic
      | storeRtt m t x buf hpc hbuf => exact absurd hpc (h3 m t x)
      | count m t hpc => exact absurd hpc (h4 m t)
      | fault => exact ⟨h1, h2, h3, h4, h5, h6, h7⟩
      | _ => exact ⟨h1, by simp, by simp, by simp, h5, h6, h7⟩
  | paho h =>
      rw [h.frame.subs] at hno
      obtain ⟨h1, h2, h3, h4, h5, h6, h7⟩ := ih hno
      cases h with
      | arrive m t hpc hmatch =>
          have htopic : m.topicName = pubkill := by
            obtain ⟨g, hg, himp⟩ := hmatch
            exact himp (h1 g hg)
          refine ⟨h1, ?_, by simp, by simp, h5, h6, ?_⟩
          · intro m' t' heq
            cases heq
            exact htopic
          · intro p hp
            rcases List.mem_append.mp hp with hp | hp
            · exact h7 p hp
            · rw [List.mem_singleton.mp hp]
              exact htopic
      | confirm k n dt hpc hk => exact ⟨h1, by simp, by simp, by simp, h5, h6, h7⟩
      | lose => exact ⟨h1, h2, h3, h4, h5, h6, h7⟩

/-- With one subscribe thread nothing was received before it subscribed. -/
theorem no_data_of_early (hsubs : cfg.numSubs ≤ 1) (h : (system o cfg).Reachable s)
    (hearly : (s.subs 0).early = true) : NoData s := by
  apply no_data h
  right
  intro i
  rcases Nat.eq_zero_or_pos i with rfl | hpos
  · exact hearly
  · rw [sub_absent h (by omega)]
    rfl

/-- A subscribe thread gets to its wait only with a QoS the library accepts. -/
theorem sub_early (hqos : 2 < cfg.qos) (h : (system o cfg).Reachable s) :
    ∀ i, (s.subs i).early = true := by
  apply reachable_induct (P := fun s : State ι => ∀ i, (s.subs i).early = true) h
  · intro i
    rfl
  · intro s s' _ _ ih hm i
    cases hm with
    | main hm =>
        cases hm with
        | createSub j hpc hj =>
            show (update s.subs j SubPC.allocReceive i).early = true
            by_cases hi : i = j
            · subst hi
              rw [update_self]
              rfl
            · rw [update_of_ne hi]
              exact ih i
        | _ => exact ih i
    | sub j hm =>
        have f := hm.frame
        by_cases hi : i = j
        · subst hi
          have hearly := ih i
          cases hm with
          | allocReceive hpc =>
              show (update s.subs i SubPC.allocRtt i).early = true
              rw [update_self]
              rfl
          | allocRtt hpc =>
              show (update s.subs i SubPC.subscribe i).early = true
              rw [update_self]
              rfl
          -- the library refuses the QoS, and the thread ends the process
          | subscribe hpc hle hlost =>
              rw [UInt32.le_iff_toNat_le] at hle
              rw [UInt32.lt_iff_toNat_lt] at hqos
              omega
          | exit => exact hearly
          | passed d hpc hd =>
              rcases hpc with hpc | hpc
              · rw [hpc] at hearly
                cases hearly
              · rw [hpc] at hearly
                cases hearly
          | _ =>
              rw [‹s.subs i = _›] at hearly
              cases hearly
        · rw [f.others i hi]
          exact ih i
    | pub j hm =>
        rw [hm.frame.subs]
        exact ih i
    | callback hm =>
        rw [hm.frame.subs]
        exact ih i
    | paho hm =>
        rw [hm.frame.subs]
        exact ih i

/-! ## §2. One consumer. -/

/-- The thread has taken its stop. -/
def PubPC.hasStopped : PubPC → Bool
  | .unsubscribe | .ended => true
  | _ => false

/-- The thread has passed `sem_wait(&done_receiving)`. -/
def SubPC.hasPassed : SubPC → Bool
  | .postStop | .unsubscribe | .ended => true
  | _ => false

/-- Posts of `stop_publish` so far. -/
def stopPosts (s : State ι) : Nat := s.hist.killPosts + s.hist.endPosts

/-- Before the threads exist nothing has been posted. -/
theorem no_posts (h : (system o cfg).Reachable s) (hinit : s.main.initialising = true) :
    stopPosts s = 0 ∧ s.hist.donePosts = 0 := by
  have hu := startup h hinit
  simp [stopPosts, hu.hist, initial]

/-- **A stop waits for the publish thread**, when there is only one. -/
theorem stop_waits (hpubs : cfg.numPubs ≤ 1) (h : (system o cfg).Reachable s) :
    0 < stopPosts s → (s.pubs 0).pc.hasStopped = false → 0 < s.stopPublish.value := by
  refine reachable_induct
    (P := fun s => 0 < stopPosts s → (s.pubs 0).pc.hasStopped = false → 0 < s.stopPublish.value)
    h (fun h => absurd h (by simp [stopPosts, initial])) ?_
  intro s s' hs _ ih hm hpost hpc
  cases hm with
  | main h =>
      have f := h.frame
      have hposted : 0 < stopPosts s := by
        simpa only [stopPosts, f.killPosts, f.endPosts] using hpost
      cases h with
      | initStop hmain => rw [(no_posts hs (by rw [hmain]; rfl)).1] at hposted; omega
      | createPub i hmain hi =>
          -- thread 0 has not taken a stop before it exists
          obtain rfl : i = 0 := by omega
          have habs : (s.pubs 0).pc = .absent :=
            ((spawned hs).pubs 0).mpr (by rw [hmain]; exact Nat.le_refl 0)
          exact ih hposted (by rw [habs]; rfl)
      | _ => exact ih hposted hpc
  | sub i h =>
      cases h with
      | postStop hsub => exact Sem.post_pos _
      | _ => exact ih hpost hpc
  | pub i h =>
      rcases h.lt_numPubs hs with rfl | hlt
      · exact ih hpost hpc
      obtain rfl : i = 0 := by omega
      have hposted : 0 < stopPosts s := by simpa only [stopPosts, h.frame.hist] using hpost
      cases h with
      | stop d hpc' hd => simp [PubPC.hasStopped] at hpc
      | unsubscribed hpc' => simp [PubPC.hasStopped] at hpc
      | exit => exact ih hposted hpc
      | _ => exact ih hposted (by rw [‹(s.pubs 0).pc = _›]; rfl)
  | callback h =>
      cases h with
      | kill m t hcb htopic => exact Sem.post_pos _
      | _ => exact ih hpost hpc
  | paho h => cases h <;> exact ih hpost hpc

/-- **The end of reception waits for the subscribe thread**, when there is
only one. -/
theorem done_waits (hsubs : cfg.numSubs ≤ 1) (h : (system o cfg).Reachable s) :
    0 < s.hist.donePosts → (s.subs 0).hasPassed = false → 0 < s.doneReceiving.value := by
  refine reachable_induct
    (P := fun s => 0 < s.hist.donePosts → (s.subs 0).hasPassed = false → 0 < s.doneReceiving.value)
    h (fun h => absurd h (by simp [initial])) ?_
  intro s s' hs _ ih hm hpost hpc
  cases hm with
  | main h =>
      have f := h.frame
      have hposted : 0 < s.hist.donePosts := by simpa only [f.donePosts] using hpost
      cases h with
      | initDone hmain => rw [(no_posts hs (by rw [hmain]; rfl)).2] at hposted; omega
      | createSub i hmain hi =>
          obtain rfl : i = 0 := by omega
          have habs : s.subs 0 = .absent :=
            ((spawned hs).subs 0).mpr (by rw [hmain]; exact Nat.le_refl 0)
          exact ih hposted (by rw [habs]; rfl)
      | _ => exact ih hposted hpc
  | sub i h =>
      rcases h.lt_numSubs hs with rfl | hlt
      · exact ih hpost hpc
      obtain rfl : i = 0 := by omega
      have hposted : 0 < s.hist.donePosts := by simpa only [h.frame.donePosts] using hpost
      cases h with
      -- only passing the wait takes the post away
      | passed d hpc' hd => simp [SubPC.hasPassed] at hpc
      | postStop hpc' => simp [SubPC.hasPassed] at hpc
      | unsubscribed hpc' => simp [SubPC.hasPassed] at hpc
      | exit => exact ih hposted hpc
      | _ => exact ih hposted (by rw [‹s.subs 0 = _›]; rfl)
  | pub i h =>
      have f := h.frame
      rw [f.doneReceiving]
      rw [f.hist] at hpost
      rw [f.subs] at hpc
      exact ih hpost hpc
  | callback h =>
      cases h with
      | full m t hcb htopic hit => exact Sem.post_pos _
      | _ => exact ih hpost hpc
  | paho h => cases h <;> exact ih hpost hpc

/-! ## §3. Any number of consumers. -/

/-- Publish threads of the process that have not taken a stop. -/
def pubsLeft (cfg : Config) (s : State ι) : Nat :=
  (List.range cfg.numPubs).countP fun i => !(s.pubs i).pc.hasStopped

/-- Subscribe threads of the process that have not passed their wait. -/
def subsLeft (cfg : Config) (s : State ι) : Nat :=
  (List.range cfg.numSubs).countP fun i => !(s.subs i).hasPassed

/-- The posts made so far suffice for the threads that are left. -/
structure ShutdownSafe (cfg : Config) (s : State ι) : Prop where
  stop : 0 < stopPosts s → pubsLeft cfg s ≤ s.stopPublish.value
  done : 0 < s.hist.donePosts → subsLeft cfg s ≤ s.doneReceiving.value
  /-- No publish thread loops for a post that will not come. -/
  loops : 0 < stopPosts s → ∀ i < cfg.numPubs, (s.pubs i).pc.hasStopped = false →
    0 < s.stopPublish.value
  /-- No subscribe thread waits for a post that will not come. -/
  waits : 0 < s.hist.donePosts → ∀ i < cfg.numSubs, (s.subs i).hasPassed = false →
    0 < s.doneReceiving.value

theorem countP_range_le_one {n v : Nat} (p : Nat → Bool) (hn : n ≤ 1) (h : p 0 = true → 0 < v) :
    (List.range n).countP p ≤ v := by
  rcases Nat.le_one_iff_eq_zero_or_eq_one.mp hn with rfl | rfl
  · exact Nat.zero_le _
  · rw [show List.range 1 = [0] from rfl, List.countP_singleton]
    split
    next hp => exact h hp
    next => exact Nat.zero_le _

theorem countP_range_all {n : Nat} {p : Nat → Bool} (h : ∀ i < n, p i = true) :
    (List.range n).countP p = n := by
  rw [List.countP_eq_length.mpr fun i hi => h i (List.mem_range.mp hi), List.length_range]

/-- One consumer of each kind is always reached. -/
theorem shutdown_safe (hpubs : cfg.numPubs ≤ 1) (hsubs : cfg.numSubs ≤ 1 ∨ ¬ receivesData cfg)
    (h : (system o cfg).Reachable s) : ShutdownSafe cfg s := by
  have hstop := stop_waits hpubs h
  have hdone : 0 < s.hist.donePosts → cfg.numSubs ≤ 1 ∧
      ((s.subs 0).hasPassed = false → 0 < s.doneReceiving.value) := by
    intro hpost
    rcases hsubs with hle | hno
    · exact ⟨hle, done_waits hle h hpost⟩
    · rw [(no_data h (.inl hno)).donePosts] at hpost
      omega
  refine ⟨?_, ?_, ?_, ?_⟩
  · intro hpost
    exact countP_range_le_one _ hpubs fun hp => hstop hpost (by simpa using hp)
  · intro hpost
    exact countP_range_le_one _ (hdone hpost).1 fun hp => (hdone hpost).2 (by simpa using hp)
  · intro hpost i hi hpc
    obtain rfl : i = 0 := by omega
    exact hstop hpost hpc
  · intro hpost i hi hpc
    have hle := (hdone hpost).1
    obtain rfl : i = 0 := by omega
    exact (hdone hpost).2 hpc

/-- Two publish threads: one `pubkill` message is one post too few. -/
theorem stop_short [Inhabited ι] (cfg : Config) (hpubs : 2 ≤ cfg.numPubs) :
    ∃ s : State ι, (system o cfg).Reachable s ∧ 0 < stopPosts s
      ∧ s.stopPublish.value < pubsLeft cfg s := by
  refine ⟨_, (leads_spawned.trans (leads_pub_subscribed 0 rfl (spawned₀_pubs (by omega)) rfl)).trans
    (leads_kill ⟨pubkill, [], [], default⟩ rfl rfl rfl rfl ⟨pubkill, List.mem_cons_self⟩), ?_, ?_⟩
  · exact Nat.succ_pos _
  -- one post, and none of the threads has stopped
  · rw [pubsLeft, countP_range_all]
    · exact hpubs
    · intro i hi
      simp only [spawned₀, spawnedState, State.setPub, State.addFilter, update_apply, hi, if_true]
      split <;> rfl

/-- Two subscribe threads: the one post of `done_receiving` is too few. -/
theorem done_short [Inhabited ι] (cfg : Config) (hsubs : 2 ≤ cfg.numSubs) (hdata : receivesData cfg) :
    ∃ s : State ι, (system o cfg).Reachable s ∧ 0 < s.hist.donePosts
      ∧ s.doneReceiving.value < subsLeft cfg s := by
  obtain ⟨hpos, hqos, hne⟩ := hdata
  obtain ⟨rts, rtts, arr, rec, hlead⟩ := leads_subscribed_full (o := o) cfg (default : ι)
    (s := spawned₀ cfg) 0 rfl rfl rfl rfl hne
  refine ⟨_, (reachable_subscribed o hpos hqos).leads hlead, Nat.succ_pos _, ?_⟩
  rw [subsLeft, countP_range_all]
  · exact hsubs
  · intro i hi
    simp only [received, subscribedState, spawned₀, spawnedState, State.setSub, State.addFilter,
      update_apply, hi, if_true]
    split <;> rfl

/-- **Shutdown reaches every thread exactly when there is at most one to
reach**: at most one publish thread, and at most one subscribe thread unless
`done_receiving` can never be posted. -/
theorem shutdown_iff [Inhabited ι] (o : ByteOrder) (cfg : Config) :
    (∀ s : State ι, (system o cfg).Reachable s → ShutdownSafe cfg s)
      ↔ cfg.numPubs ≤ 1 ∧ (cfg.numSubs ≤ 1 ∨ ¬ receivesData cfg) := by
  constructor
  · intro hall
    constructor
    · by_contra hpubs
      obtain ⟨s, hs, hpost, hlt⟩ := stop_short (ι := ι) (o := o) cfg (by omega)
      have hle := (hall s hs).stop hpost
      omega
    · by_contra hno
      obtain ⟨hsubs, hdata⟩ := not_or.mp hno
      obtain ⟨s, hs, hpost, hlt⟩ :=
        done_short (ι := ι) (o := o) cfg (by omega) (not_not.mp hdata)
      have hle := (hall s hs).done hpost
      omega
  · intro h s hs
    obtain ⟨hpubs, hsubs⟩ := h
    exact shutdown_safe hpubs hsubs hs

/-- `--pub=a,b`: one `pubkill` leaves a publisher looping. -/
theorem shutdown_fails_for_two_publishers :
    ¬ ∀ s : State Unit, (system .little (Config.default ["a", "b"] [])).Reachable s →
        ShutdownSafe (Config.default ["a", "b"] []) s := by
  intro hall
  obtain ⟨s, hs, hpost, hlt⟩ :=
    stop_short (ι := Unit) (o := .little) (Config.default ["a", "b"] []) (by decide)
  have hle := (hall s hs).stop hpost
  omega

end MqttBenchmark.Process
