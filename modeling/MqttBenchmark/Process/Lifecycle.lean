/-
  MqttBenchmark.Process.Lifecycle
  ───────────────────────────────
  **JOINS AND BUFFERS IN `main`.**

  `main` creates `n` threads of a kind into ONE handle and then joins that
  handle `n` times; every subscribe thread allocates the global buffers anew.

    • `joined` — how often the kept handle was joined, and that its thread
      has ended by then,
    • `lifecycle_iff` — the life cycle is right exactly for at most one
      thread of each kind, or when `main` never gets to join any.
-/
import MqttBenchmark.Process.Shutdown

namespace MqttBenchmark.Process

open Lib Lib.System Function

variable {ι : Type} {o : ByteOrder} {cfg : Config} {s s' t : State ι}

/-! ## §1. The joins. -/

/-- Joins of subscribe threads made so far. -/
def MainPC.subsJoined (cfg : Config) : MainPC → Nat
  | .joinSubs i => i
  | .summary | .joinPubs _ | .disconnect | .returned => cfg.numSubs
  | _ => 0

/-- Joins of publish threads made so far. -/
def MainPC.pubsJoined (cfg : Config) : MainPC → Nat
  | .joinPubs i => i
  | .disconnect | .returned => cfg.numPubs
  | _ => 0

/-- Only the kept handle was joined, and its thread has ended. -/
structure Joined (cfg : Config) (s : State ι) : Prop where
  subsLe : s.main.subsJoined cfg ≤ cfg.numSubs
  pubsLe : s.main.pubsJoined cfg ≤ cfg.numPubs
  subs : ∀ k, s.hist.subJoins k = if s.subTid = some k then s.main.subsJoined cfg else 0
  pubs : ∀ k, s.hist.pubJoins k = if s.pubTid = some k then s.main.pubsJoined cfg else 0
  subEnded : 0 < s.main.subsJoined cfg → ∀ k, s.subTid = some k → s.subs k = .ended
  pubEnded : 0 < s.main.pubsJoined cfg → ∀ k, s.pubTid = some k → (s.pubs k).pc = .ended

/-- One more join of the handle that is kept. -/
theorem joins_update {joins : Nat → Nat} {tid : Option Nat} {k n : Nat} (htid : tid = some k)
    (h : ∀ j, joins j = if tid = some j then n else 0) (j : Nat) :
    update joins k (joins k + 1) j = if tid = some j then n + 1 else 0 := by
  subst htid
  by_cases hj : j = k
  · subst hj
    rw [update_self, h j, if_pos rfl, if_pos rfl]
  · have hne : some k ≠ some j := fun heq => hj (Option.some.inj heq).symm
    rw [update_of_ne hj, h j, if_neg hne, if_neg hne]

theorem Joined.main_move (hj : Joined cfg s) (hm : MainMove cfg s s') : Joined cfg s' := by
  obtain ⟨h1, h2, h3, h4, h5, h6⟩ := hj
  cases hm with
  | joinSub i k hpc hi htid hend =>
      rw [hpc] at h1 h2 h3 h4 h5 h6
      refine ⟨hi, h2, joins_update htid h3, h4, ?_, h6⟩
      intro _ j hj
      cases htid.symm.trans hj
      exact hend
  | joinPub i k hpc hi htid hend =>
      rw [hpc] at h1 h2 h3 h4 h5 h6
      refine ⟨h1, hi, h3, joins_update htid h4, h5, ?_⟩
      intro _ j hj
      cases htid.symm.trans hj
      exact hend
  | subsJoined i hpc hi =>
      rw [hpc] at h1 h2 h3 h4 h5 h6
      -- the loop ends with its counter at the bound
      simp only [MainPC.subsJoined] at h1 h3 h5
      obtain rfl : i = cfg.numSubs := by omega
      exact ⟨h1, h2, h3, h4, h5, h6⟩
  | pubsJoined i hpc hi =>
      rw [hpc] at h1 h2 h3 h4 h5 h6
      simp only [MainPC.pubsJoined] at h2 h4 h6
      obtain rfl : i = cfg.numPubs := by omega
      exact ⟨h1, h2, h3, h4, h5, h6⟩
  | createSub i hpc hi =>
      rw [hpc] at h1 h2 h3 h4 h5 h6
      -- the handle changes, but nothing has been joined yet
      simp only [MainPC.subsJoined, ite_self] at h3
      exact ⟨h1, h2, fun k => by simp [h3 k, MainPC.subsJoined], h4,
        fun hpos => absurd hpos (Nat.lt_irrefl 0), h6⟩
  | createPub i hpc hi =>
      rw [hpc] at h1 h2 h3 h4 h5 h6
      simp only [MainPC.pubsJoined, ite_self] at h4
      exact ⟨h1, h2, h3, fun k => by simp [h4 k, MainPC.pubsJoined], h5,
        fun hpos => absurd hpos (Nat.lt_irrefl 0)⟩
  | _ =>
      rw [‹s.main = _›] at h1 h2 h3 h4 h5 h6
      exact ⟨h1, h2, h3, h4, h5, h6⟩

/-- A thread that has ended stays so. -/
theorem SubMove.ended {i k : Nat} (h : SubMove cfg s i s') (hk : s.subs k = .ended) :
    s'.subs k = .ended := by
  rcases eq_or_ne k i with rfl | hne
  · cases h with
    | exit => exact hk
    | passed d hpc hd => rw [hk] at hpc; simp at hpc
    | _ => rw [hk] at *; contradiction
  · rw [h.frame.others k hne]
    exact hk

theorem PubMove.ended {i k : Nat} (h : PubMove cfg s i s') (hk : (s.pubs k).pc = .ended) :
    (s'.pubs k).pc = .ended := by
  rcases eq_or_ne k i with rfl | hne
  · cases h with
    | exit => exact hk
    | _ => rw [hk] at *; contradiction
  · rw [h.frame.others k hne]
    exact hk

theorem Joined.congr (hj : Joined cfg s) (hmain : s'.main = s.main) (hst : s'.subTid = s.subTid)
    (hpt : s'.pubTid = s.pubTid) (hsj : s'.hist.subJoins = s.hist.subJoins)
    (hpj : s'.hist.pubJoins = s.hist.pubJoins)
    (hsub : ∀ k, s.subs k = .ended → s'.subs k = .ended)
    (hpub : ∀ k, (s.pubs k).pc = .ended → (s'.pubs k).pc = .ended) : Joined cfg s' := by
  obtain ⟨h1, h2, h3, h4, h5, h6⟩ := hj
  refine ⟨?_, ?_, ?_, ?_, fun hpos k hk => hsub k ?_, fun hpos k hk => hpub k ?_⟩
  · rwa [hmain]
  · rwa [hmain]
  · rwa [hsj, hst, hmain]
  · rwa [hpj, hpt, hmain]
  · rw [hmain] at hpos
    rw [hst] at hk
    exact h5 hpos k hk
  · rw [hmain] at hpos
    rw [hpt] at hk
    exact h6 hpos k hk

/-- **The join invariant.** -/
theorem joined (h : (system o cfg).Reachable s) : Joined cfg s := by
  refine reachable_induct h ?_ ?_
  · refine ⟨Nat.zero_le _, Nat.zero_le _, ?_, ?_, ?_, ?_⟩
    · intro k
      simp [initial]
    · intro k
      simp [initial]
    · intro h
      exact absurd h (Nat.lt_irrefl 0)
    · intro h
      exact absurd h (Nat.lt_irrefl 0)
  intro s s' _ _ ih hm
  cases hm with
  | main h => exact ih.main_move h
  | sub i h =>
      have f := h.frame
      exact ih.congr f.main f.subTid f.pubTid f.subJoins f.pubJoins (fun _ => h.ended)
        (by simp [f.pubs])
  | pub i h =>
      have f := h.frame
      exact ih.congr f.main f.subTid f.pubTid (by rw [f.hist]) (by rw [f.hist]) (by simp [f.subs])
        (fun _ => h.ended)
  | callback h =>
      have f := h.frame
      exact ih.congr f.main f.subTid f.pubTid f.subJoins f.pubJoins (by simp [f.subs])
        (by simp [f.pubs])
  | paho h =>
      have f := h.frame
      exact ih.congr f.main f.subTid f.pubTid f.subJoins f.pubJoins (by simp [f.subs])
        (by simp [f.pubs])

/-! ## §2. When reception never ends. -/

/-- `main` has not joined a thread. -/
def MainPC.unjoined : MainPC → Bool
  | .joinSubs i => i == 0
  | .summary | .joinPubs _ | .disconnect | .returned => false
  | _ => true

/-- No subscribe thread has passed its wait, and `main` waits for one. -/
structure NeverEnds (s : State ι) : Prop where
  value : s.doneReceiving.value = 0
  subs : ∀ i, (s.subs i).hasPassed = false
  main : s.main.unjoined = true

/-- **A subscribe thread that receives no data never ends.** -/
theorem never_ends (hsubs : 1 ≤ cfg.numSubs) (hno : ¬ receivesData cfg)
    (h : (system o cfg).Reachable s) : NeverEnds s := by
  apply reachable_induct h ⟨rfl, fun _ => rfl, rfl⟩
  intro s s' hs _ ih hm
  obtain ⟨h1, h2, h3⟩ := ih
  have hset : ∀ i pc, pc.hasPassed = false → ∀ j, (update s.subs i pc j).hasPassed = false := by
    intro i pc hpc j
    rw [update_apply]
    split
    · exact hpc
    · exact h2 j
  cases hm with
  | main h =>
      cases h with
      | initDone hpc => exact ⟨rfl, h2, rfl⟩
      | createSub i hpc hi => exact ⟨h1, hset i _ rfl, rfl⟩
      -- a join would need a subscribe thread that has passed its wait
      | joinSub i k hpc hi htid hend =>
          have hk := h2 k
          rw [hend] at hk
          cases hk
      | subsJoined i hpc hi =>
          rw [hpc] at h3
          simp only [MainPC.unjoined, beq_iff_eq] at h3
          omega
      | noSummary hpc hbuf => rw [hpc] at h3; cases h3
      | summary buf sorted hpc hbuf hperm => rw [hpc] at h3; cases h3
      | joinPub i k hpc hi htid hend => rw [hpc] at h3; cases h3
      | pubsJoined i hpc hi => rw [hpc] at h3; cases h3
      | disconnect hpc => rw [hpc] at h3; cases h3
      | _ => exact ⟨h1, h2, rfl⟩
  | sub i h =>
      cases h with
      | passed d hpc hd =>
          have hval := (Sem.take_eq_some.mp hd).1
          omega
      | exit => exact ⟨h1, h2, h3⟩
      | postStop hpc =>
          have hi := h2 i
          rw [hpc] at hi
          cases hi
      | unsubscribed hpc =>
          have hi := h2 i
          rw [hpc] at hi
          cases hi
      | _ => exact ⟨h1, hset i _ rfl, h3⟩
  | pub i h =>
      have f := h.frame
      exact ⟨by rw [f.doneReceiving]; exact h1, by rw [f.subs]; exact h2, by rw [f.main]; exact h3⟩
  | callback h =>
      cases h with
      | full m t hpc htopic hit => exact absurd ((no_data hs (.inl hno)).arrived m t hpc) htopic
      | _ => exact ⟨h1, h2, h3⟩
  | paho h => cases h <;> exact ⟨h1, h2, h3⟩

/-! ## §3. The life cycle. -/

/-- Threads are joined once, the summary and the disconnect wait for them,
and no buffer is replaced after a sample was stored. -/
structure LifecycleSafe (o : ByteOrder) (cfg : Config) (s : State ι) : Prop where
  subsOnce : ∀ i < cfg.numSubs, s.hist.subJoins i ≤ 1
  pubsOnce : ∀ i < cfg.numPubs, s.hist.pubJoins i ≤ 1
  allJoined : s.main = .disconnect ∨ s.main = .returned →
    (∀ i < cfg.numSubs, s.hist.subJoins i = 1) ∧ (∀ i < cfg.numPubs, s.hist.pubJoins i = 1)
  summary : s.main = .summary → s.rttTs ≠ none → ∀ i < cfg.numSubs, s.subs i = .ended
  disconnect : s.main = .disconnect → ∀ i < cfg.numPubs, (s.pubs i).pc = .ended
  kept : ∀ i e t, step o cfg s (.sub i e) = some t →
    s.subs i = .allocReceive ∨ s.subs i = .allocRtt → s.hist.recorded = []

/-- At most one thread of each kind: the kept handle is its handle. -/
theorem lifecycle_safe_of_single (hsubs : cfg.numSubs ≤ 1) (hpubs : cfg.numPubs ≤ 1)
    (h : (system o cfg).Reachable s) : LifecycleSafe o cfg s := by
  have hj := joined h
  have hsp := spawned h
  refine ⟨?_, ?_, ?_, ?_,
    ?_, ?_⟩
  · intro i _
    rw [hj.subs i]
    have hle := hj.subsLe
    split <;> omega
  · intro i _
    rw [hj.pubs i]
    have hle := hj.pubsLe
    split <;> omega
  · intro hmain
    have hmade : s.main.subsMade cfg = cfg.numSubs ∧ s.main.pubsMade cfg = cfg.numPubs
        ∧ s.main.subsJoined cfg = cfg.numSubs ∧ s.main.pubsJoined cfg = cfg.numPubs := by
      rcases hmain with hmain | hmain <;> rw [hmain] <;> exact ⟨rfl, rfl, rfl, rfl⟩
    obtain ⟨hm1, hm2, hj1, hj2⟩ := hmade
    constructor
    · intro i hi
      have hone : cfg.numSubs = 1 := by omega
      obtain rfl : i = 0 := by omega
      rw [hj.subs 0, hsp.subTid, hm1, hj1, hone]
      rfl
    · intro i hi
      have hone : cfg.numPubs = 1 := by omega
      obtain rfl : i = 0 := by omega
      rw [hj.pubs 0, hsp.pubTid, hm2, hj2, hone]
      rfl
  · intro hmain _ i hi
    have hone : cfg.numSubs = 1 := by omega
    obtain rfl : i = 0 := by omega
    refine hj.subEnded ?_ 0 ?_
    · rw [hmain]
      exact hi
    · rw [hsp.subTid, hmain]
      show lastTid cfg.numSubs = some 0
      rw [hone]
      rfl
  · intro hmain i hi
    have hone : cfg.numPubs = 1 := by omega
    obtain rfl : i = 0 := by omega
    refine hj.pubEnded ?_ 0 ?_
    · rw [hmain]
      exact hi
    · rw [hsp.pubTid, hmain]
      show lastTid cfg.numPubs = some 0
      rw [hone]
      rfl
  · intro i e t hstep halloc
    -- the only subscribe thread has not subscribed yet
    have hlt := sub_lt_numSubs h (i := i) (by rcases halloc with hpc | hpc <;> rw [hpc] <;> simp)
    obtain rfl : i = 0 := by omega
    apply (no_data_of_early hsubs h _).recorded
    rcases halloc with hpc | hpc <;> rw [hpc] <;> rfl

/-- A `main` that never joins breaks no rule about joins. -/
theorem lifecycle_safe_of_no_data (hsubs : 1 ≤ cfg.numSubs) (hno : ¬ receivesData cfg)
    (h : (system o cfg).Reachable s) : LifecycleSafe o cfg s := by
  have hj := joined h
  have hn := never_ends hsubs hno h
  have hzero : s.main.subsJoined cfg = 0 ∧ s.main.pubsJoined cfg = 0 := by
    have hmain := hn.main
    cases hs : s.main <;> rw [hs] at hmain <;>
      simp_all [MainPC.subsJoined, MainPC.pubsJoined, MainPC.unjoined]
  refine ⟨?_, ?_, ?_, ?_, ?_,
    fun _ _ _ _ _ => (no_data h (.inl hno)).recorded⟩
  · intro i _
    rw [hj.subs i, hzero.1, ite_self]
    exact Nat.zero_le _
  · intro i _
    rw [hj.pubs i, hzero.2, ite_self]
    exact Nat.zero_le _
  · intro hmain
    have hun := hn.main
    rcases hmain with hmain | hmain <;> rw [hmain] at hun <;> cases hun
  · intro hmain
    have hun := hn.main
    rw [hmain] at hun
    cases hun
  · intro hmain
    have hun := hn.main
    rw [hmain] at hun
    cases hun

/-! ## §4. Where it goes wrong. -/

/-- The kept subscribe handle is joined a second time. -/
theorem leads_join_sub_twice (cfg : Config) (k : Nat) (hrun : s.outcome = .running) (hmain : s.main = .joinSubs 0)
    (htid : s.subTid = some k) (hend : s.subs k = .ended) (hsubs : 2 ≤ cfg.numSubs) :
    ∃ t, (system o cfg).Leads s t ∧ t.hist.subJoins k = s.hist.subJoins k + 2 := by
  refine ⟨_, (leads_main granted hrun (t := { s with
      hist := { s.hist with subJoins := update s.hist.subJoins k (s.hist.subJoins k + 1) }
      main := .joinSubs 1 }) ?_).trans (leads_main granted (by exact hrun) (t := { s with
      hist := { s.hist with subJoins := update s.hist.subJoins k (s.hist.subJoins k + 2) }
      main := .joinSubs 2 }) ?_), ?_⟩
  · simp [mainStep, hmain, htid, hend, show 0 < cfg.numSubs by omega]
  · simp [mainStep, htid, hend, show 1 < cfg.numSubs by omega]
  · simp

theorem leads_join_pub_twice (cfg : Config) (k : Nat) (hrun : s.outcome = .running) (hmain : s.main = .joinPubs 0)
    (htid : s.pubTid = some k) (hend : (s.pubs k).pc = .ended) (hpubs : 2 ≤ cfg.numPubs) :
    ∃ t, (system o cfg).Leads s t ∧ t.hist.pubJoins k = s.hist.pubJoins k + 2 := by
  refine ⟨_, (leads_main granted hrun (t := { s with
      hist := { s.hist with pubJoins := update s.hist.pubJoins k (s.hist.pubJoins k + 1) }
      main := .joinPubs 1 }) ?_).trans (leads_main granted (by exact hrun) (t := { s with
      hist := { s.hist with pubJoins := update s.hist.pubJoins k (s.hist.pubJoins k + 2) }
      main := .joinPubs 2 }) ?_), ?_⟩
  · simp [mainStep, hmain, htid, hend, show 0 < cfg.numPubs by omega]
  · simp [mainStep, htid, hend, show 1 < cfg.numPubs by omega]
  · simp

/-- What joining a publish thread twice starts from. -/
structure PubsUnjoined (k : Nat) (s : State ι) : Prop where
  running : s.outcome = .running
  main : s.main = .joinPubs 0
  tid : s.pubTid = some k
  start : (s.pubs k).pc = .start
  lost : s.paho.lost = false
  idle : s.callback = .idle
  inflight : s.paho.inflight = []
  mutex : s.qos1Pubmutex.value = 1
  joins : s.hist.pubJoins k = 0

/-- The last publish thread subscribes, is killed and is joined twice. -/
theorem leads_last_pub_joined_twice [Inhabited ι] (cfg : Config) {k : Nat} (hs : PubsUnjoined k s)
    (hpubs : 2 ≤ cfg.numPubs) :
    ∃ t, (system o cfg).Leads s t ∧ t.hist.pubJoins k = 2 := by
  have hready : (system o cfg).Leads s _ := (leads_pub_subscribed k hs.running hs.start hs.lost).trans
    (leads_kill ⟨pubkill, [], [], default⟩ rfl (by exact hs.running) (by exact hs.idle)
      (by exact hs.lost) ⟨pubkill, List.mem_cons_self⟩)
  -- the thread finds the mutex free and its stop posted
  obtain ⟨d, hd⟩ : ∃ d, s.qos1Pubmutex.take = some d :=
    ⟨⟨0, s.qos1Pubmutex.stage⟩, Sem.take_eq_some.mpr ⟨hs.mutex, rfl⟩⟩
  obtain ⟨stop, hstop⟩ : ∃ stop, s.stopPublish.post.take = some stop := by
    refine ⟨⟨s.stopPublish.post.value - 1, s.stopPublish.stage⟩, Sem.take_eq_some.mpr ⟨?_, rfl⟩⟩
    have hpos := s.stopPublish.post_pos
    show s.stopPublish.post.value = s.stopPublish.post.value - 1 + 1
    omega
  obtain ⟨tok, p, paho, mutex, hp, hended⟩ := leads_pub_ended (o := o) cfg k
    (s := { (s.addFilter pubkill).setPub k .reset with
      stopPublish := s.stopPublish.post
      callback := .idle
      hist := { s.hist with arrivals := s.hist.arrivals ++ [(⟨pubkill, [], [], default⟩, 0)]
                            killPosts := s.hist.killPosts + 1 } })
    (by exact hs.running) (by simp) (by exact hs.lost) rfl (by exact hs.inflight) (by exact hd)
    (by exact hstop)
  obtain ⟨t, hlead, hjoin⟩ := leads_join_pub_twice (o := o) cfg k
    (s := { s with
      deliveredtoken := tok
      pubs := update s.pubs k p
      paho := paho
      qos1Pubmutex := mutex
      stopPublish := stop
      callback := .idle
      hist := { s.hist with arrivals := s.hist.arrivals ++ [(⟨pubkill, [], [], default⟩, 0)]
                            killPosts := s.hist.killPosts + 1 } })
    (by exact hs.running) (by exact hs.main) (by exact hs.tid) (by simpa using hp) hpubs
  refine ⟨t, (hready.trans hended).trans ?_, by rw [hjoin]; simp [hs.joins]⟩
  simpa using hlead

/-- Without subscribe threads `main` goes straight to the publish threads. -/
theorem pubs_unjoined_of_no_subs (hsubs : cfg.numSubs = 0) (hpubs : 2 ≤ cfg.numPubs) :
    ∃ s : State ι, (system o cfg).Reachable s ∧ PubsUnjoined (cfg.numPubs - 1) s := by
  refine ⟨{ destroyed₀ cfg with main := .joinPubs 0 }, leads_destroyed.trans
    ((leads_main granted rfl (t := { destroyed₀ cfg with main := .summary }) ?_).trans
      (leads_main granted rfl rfl)), ?_⟩
  · simp [mainStep, destroyed₀, spawned₀, spawnedState, hsubs]
  · obtain ⟨n, hn⟩ : ∃ n, cfg.numPubs = n + 1 := ⟨cfg.numPubs - 1, by omega⟩
    refine ⟨rfl, rfl, ?_, ?_, rfl, rfl, rfl, rfl, rfl⟩
    · simp [destroyed₀, spawned₀, spawnedState, hn, lastTid]
    · simp [destroyed₀, spawned₀, spawnedState, hn, PubThread.fresh]

/-- The last subscribe thread receives everything and ends, and nothing else
happens. -/
theorem leads_last_sub_ended [Inhabited ι] (hdata : receivesData cfg) :
    ∃ s : State ι, (system o cfg).Reachable s ∧ s.outcome = .running ∧ s.main = .joinSubs 0
      ∧ s.subTid = some (cfg.numSubs - 1) ∧ s.subs (cfg.numSubs - 1) = .ended
      ∧ s.rttTs ≠ none ∧ s.pubs = (destroyed₀ cfg : State ι).pubs
      ∧ s.pubTid = lastTid cfg.numPubs ∧ s.callback = .idle ∧ s.paho.lost = false
      ∧ s.paho.inflight = [] ∧ s.qos1Pubmutex.value = 1
      ∧ s.hist.subJoins = (fun _ => 0) ∧ s.hist.pubJoins = (fun _ => 0) := by
  obtain ⟨hpos, hqos, hne⟩ := hdata
  obtain ⟨n, hn⟩ : ∃ n, cfg.numSubs = n + 1 := ⟨cfg.numSubs - 1, by omega⟩
  have hsub := (leads_destroyed (ι := ι)).trans
    (leads_sub_subscribed (o := o) (cfg.numSubs - 1) rfl (destroyed₀_subs (by omega)) rfl hqos)
  -- the samples fill the buffers, and the message after them posts the end
  obtain ⟨rts, rtts, arr, rec, hfull⟩ := leads_subscribed_full (o := o) cfg (default : ι)
    (s := destroyed₀ cfg) (cfg.numSubs - 1) rfl rfl rfl rfl hne
  refine ⟨_, (hsub.trans hfull).trans (leads_sub_ended (cfg.numSubs - 1) rfl (by simp [received, subscribedState]) rfl
    (d := ⟨0, .destroyed⟩) rfl), rfl, rfl, ?_, ?_, ?_, rfl, rfl, rfl, rfl, rfl, rfl, rfl, rfl⟩
  · simp [received, subscribedState, destroyed₀, spawned₀, spawnedState, hn, lastTid]
  · simp
  · simp [received]

/-- One subscribe thread: it ends, is joined, and the publish threads follow. -/
theorem pubs_unjoined_of_one_sub [Inhabited ι] (hsubs : cfg.numSubs = 1) (hpubs : 2 ≤ cfg.numPubs)
    (hdata : receivesData cfg) :
    ∃ s : State ι, (system o cfg).Reachable s ∧ PubsUnjoined (cfg.numPubs - 1) s := by
  obtain ⟨s, hs, hrun, hmain, htid, hend, hrtt, hp, hptid, hcb, hlost, hfl, hmu, -, hpj⟩ :=
    leads_last_sub_ended (ι := ι) (o := o) hdata
  obtain ⟨buf, hbuf⟩ := Option.ne_none_iff_exists'.mp hrtt
  have hlast : cfg.numSubs - 1 = 0 := by omega
  rw [hlast] at htid hend
  -- join, end of the loop, summary
  have hjoin : (system o cfg).Leads s _ := leads_main granted hrun (t := { s with
    hist := { s.hist with subJoins := update s.hist.subJoins 0 (s.hist.subJoins 0 + 1) }
    main := .joinSubs 1 }) (by simp [mainStep, hmain, htid, hend, hsubs])
  have hjoined := hjoin.trans (leads_main granted (by exact hrun) (t := { s with
    hist := { s.hist with subJoins := update s.hist.subJoins 0 (s.hist.subJoins 0 + 1) }
    main := .summary }) (by simp [mainStep, hsubs]))
  refine ⟨_, hs.leads (hjoined.trans (leads_main { granted with sorted := buf } (by exact hrun)
    (t := { s with
      hist := { s.hist with subJoins := update s.hist.subJoins 0 (s.hist.subJoins 0 + 1) }
      main := .joinPubs 0 }) (by simp [mainStep, hbuf]))), ?_⟩
  obtain ⟨n, hn⟩ : ∃ n, cfg.numPubs = n + 1 := ⟨cfg.numPubs - 1, by omega⟩
  refine ⟨hrun, rfl, ?_, ?_, hlost, hcb, hfl, hmu, ?_⟩
  · show s.pubTid = _
    rw [hptid, hn]
    rfl
  · show (s.pubs _).pc = _
    rw [hp]
    simp [destroyed₀, spawned₀, spawnedState, hn, PubThread.fresh]
  · show s.hist.pubJoins _ = 0
    rw [hpj]

/-- Two subscribe threads: the last one is joined twice. -/
theorem sub_joined_twice [Inhabited ι] (cfg : Config) (hsubs : 2 ≤ cfg.numSubs) (hdata : receivesData cfg) :
    ∃ s : State ι, (system o cfg).Reachable s ∧ ∃ i < cfg.numSubs, 1 < s.hist.subJoins i := by
  obtain ⟨s, hs, hrun, hmain, htid, hend, -, -, -, -, -, -, -, hsj, -⟩ :=
    leads_last_sub_ended (ι := ι) (o := o) hdata
  obtain ⟨t, hlead, hjoin⟩ := leads_join_sub_twice (o := o) cfg _ hrun hmain htid hend hsubs
  exact ⟨t, hs.leads hlead, cfg.numSubs - 1, by omega, by rw [hjoin]; omega⟩

/-- Two publish threads: the last one is joined twice. -/
theorem pub_joined_twice [Inhabited ι] (cfg : Config) (hpubs : 2 ≤ cfg.numPubs)
    (hsubs : cfg.numSubs = 0 ∨ cfg.numSubs = 1 ∧ receivesData cfg) :
    ∃ s : State ι, (system o cfg).Reachable s ∧ ∃ i < cfg.numPubs, 1 < s.hist.pubJoins i := by
  obtain ⟨s, hs, hready⟩ : ∃ s : State ι, (system o cfg).Reachable s
      ∧ PubsUnjoined (cfg.numPubs - 1) s := by
    rcases hsubs with hzero | ⟨hone, hdata⟩
    · exact pubs_unjoined_of_no_subs hzero hpubs
    · exact pubs_unjoined_of_one_sub hone hpubs hdata
  obtain ⟨t, hlead, hjoin⟩ := leads_last_pub_joined_twice (o := o) cfg hready hpubs
  exact ⟨t, hs.leads hlead, cfg.numPubs - 1, by omega, by omega⟩

/-- **The life cycle is right exactly for at most one thread of each kind**,
or when a subscribe thread exists that never ends, so that `main` joins
nobody. -/
theorem lifecycle_iff [Inhabited ι] (o : ByteOrder) (cfg : Config) :
    (∀ s : State ι, (system o cfg).Reachable s → LifecycleSafe o cfg s)
      ↔ (cfg.numSubs ≤ 1 ∧ cfg.numPubs ≤ 1) ∨ (1 ≤ cfg.numSubs ∧ ¬ receivesData cfg) := by
  constructor
  · intro hall
    by_contra hno
    obtain ⟨hmany, hdata⟩ := not_or.mp hno
    by_cases hsubs : 2 ≤ cfg.numSubs
    · have hd : receivesData cfg := by
        by_contra hnd
        exact hdata ⟨by omega, hnd⟩
      obtain ⟨s, hs, i, hi, htwice⟩ := sub_joined_twice (ι := ι) (o := o) cfg hsubs hd
      have honce := (hall s hs).subsOnce i hi
      omega
    · have hpubs : 2 ≤ cfg.numPubs := by omega
      have hd : cfg.numSubs = 0 ∨ cfg.numSubs = 1 ∧ receivesData cfg := by
        rcases Nat.eq_zero_or_pos cfg.numSubs with hzero | hpos
        · exact .inl hzero
        · refine .inr ⟨by omega, ?_⟩
          by_contra hnd
          exact hdata ⟨hpos, hnd⟩
      obtain ⟨s, hs, i, hi, htwice⟩ := pub_joined_twice (ι := ι) (o := o) cfg hpubs hd
      have honce := (hall s hs).pubsOnce i hi
      omega
  · rintro (⟨hsubs, hpubs⟩ | ⟨hsubs, hno⟩) s hs
    · exact lifecycle_safe_of_single hsubs hpubs hs
    · exact lifecycle_safe_of_no_data hsubs hno hs

/-- `--pub=a,b`: the second thread is joined twice, the first never. -/
theorem lifecycle_fails_for_two_publishers :
    ¬ ∀ s : State Unit, (system .little (Config.default ["a", "b"] [])).Reachable s →
        LifecycleSafe .little (Config.default ["a", "b"] []) s := by
  intro hall
  obtain ⟨s, hs, i, hi, htwice⟩ := pub_joined_twice (ι := Unit) (o := .little)
    (Config.default ["a", "b"] []) (by decide) (.inl rfl)
  have honce := (hall s hs).pubsOnce i hi
  omega

end MqttBenchmark.Process
