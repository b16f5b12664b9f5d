/-
  MqttBenchmark.Process.Topics
  ────────────────────────────
  **WHICH TOPICS THE THREADS USE.**

  `pthread_create` passes `NULL` to every thread, so no thread knows its
  number: each names `PUBS[0]` or `SUBS[0]` in its calls of the library.

    • `PubCalls`, `SubCalls` — the calls that succeed in some run,
    • `publishes_iff`, `subscribes_iff`, `unsubscribes_iff` — their topics,
    • `every_topic_used_iff` — when these are all topics of the lists.
-/
import MqttBenchmark.Process.Lifecycle
import MqttBenchmark.Process.Publish

namespace MqttBenchmark.Process

open Lib Lib.System Function

variable {ι : Type} {o : ByteOrder} {cfg : Config} {s t : State ι}

/-! ## §1. Calls with a topic. -/

/-- The functions of the library that take a topic. -/
inductive LibCall where
  | subscribe
  | publish
  | unsubscribe
  deriving DecidableEq, Repr

/-- The call a subscribe thread is about to make. -/
def SubPC.libCall (cfg : Config) : SubPC → Option (LibCall × String)
  | .subscribe => some (.subscribe, cfg.sub0)
  | .unsubscribe => some (.unsubscribe, cfg.sub0)
  | _ => none

/-- The call a publish thread is about to make. -/
def PubPC.libCall (cfg : Config) : PubPC → Option (LibCall × String)
  | .subscribe => some (.subscribe, pubkill)
  | .publish => some (.publish, cfg.pub0)
  | .unsubscribe => some (.unsubscribe, pubkill)
  | _ => none

/-- A packet has 16 bits for the length of a topic. -/
def Carried (topic : String) : Prop := topic.length < 2 ^ 16

instance (topic : String) : Decidable (Carried topic) := inferInstanceAs (Decidable (_ < _))

section Calls

variable (S : System (State ι) (Action ι)) (cfg : Config)

/-- Some run of `S` has a subscribe thread make this call, and go on after it,
connected. -/
def SubCalls (call : LibCall) (topic : String) : Prop :=
  Carried topic ∧ ∃ (s t : State ι) (i : Nat) (e : Answer), S.Reachable s
    ∧ (s.subs i).libCall cfg = some (call, topic)
    ∧ S.step s (.sub i e) = some t ∧ t.outcome = .running ∧ t.paho.lost = false

/-- The same for a publish thread. -/
def PubCalls (call : LibCall) (topic : String) : Prop :=
  Carried topic ∧ ∃ (s t : State ι) (i : Nat) (e : Answer), S.Reachable s
    ∧ (s.pubs i).pc.libCall cfg = some (call, topic)
    ∧ S.step s (.pub i e) = some t ∧ t.outcome = .running ∧ t.paho.lost = false

end Calls

/-! ## §2. The topics of one configuration. -/

/-- The publish threads publish on `PUBS[0]`. -/
theorem publishes_iff (o : ByteOrder) (cfg : Config) (topic : String) :
    PubCalls (system (ι := ι) o cfg) cfg .publish topic
      ↔ (0 < cfg.numPubs ∧ Carried cfg.pub0) ∧ topic = cfg.pub0 := by
  constructor
  · intro h
    obtain ⟨hcarried, s, t, i, e, hs, hcall, -⟩ := h
    cases hpc : (s.pubs i).pc with
    | publish =>
        rw [hpc] at hcall
        cases hcall
        have hlt := pub_lt_numPubs hs (i := i) (by rw [hpc]; simp)
        exact ⟨⟨by omega, hcarried⟩, rfl⟩
    | _ =>
        rw [hpc] at hcall
        cases hcall
  · intro h
    obtain ⟨⟨hpos, hcarried⟩, rfl⟩ := h
    refine ⟨hcarried, ?_⟩
    -- thread 0 alone, up to the call
    have hreset := leads_spawned.trans
      (leads_pub_subscribed (ι := ι) (o := o) 0 rfl (spawned₀_pubs hpos) rfl)
    have hpublish := hreset.trans (leads_pub_publish 0 rfl rfl)
    exact ⟨_, _, 0, granted, hpublish, rfl, rfl, rfl, rfl⟩

/-- A subscribe thread that has allocated the buffers. -/
theorem subscribe_reachable (o : ByteOrder) (hpos : 0 < cfg.numSubs) :
    ∃ s : State ι, (system o cfg).Reachable s ∧ s.outcome = .running ∧ s.subs 0 = .subscribe
      ∧ s.paho.lost = false := by
  have hpc : (spawned₀ cfg : State ι).subs 0 = .allocReceive := spawned₀_subs hpos
  have hrtt : (system o cfg).Reachable
      ({ spawned₀ (ι := ι) cfg with
          receiveTs := some (List.replicate cfg.maxIter.toNat 0) }.setSub 0 .allocRtt) :=
    leads_spawned.trans (leads_sub 0 granted rfl (by simp [subscribeStep, hpc]))
  exact ⟨_, hrtt.leads (leads_sub 0 granted rfl rfl), rfl, rfl, rfl⟩

/-- The subscribe threads subscribe to `SUBS[0]`, at a QoS the library takes. -/
theorem subscribes_iff (o : ByteOrder) (cfg : Config) (topic : String) :
    SubCalls (system (ι := ι) o cfg) cfg .subscribe topic
      ↔ (0 < cfg.numSubs ∧ cfg.qos ≤ 2 ∧ Carried cfg.sub0) ∧ topic = cfg.sub0 := by
  constructor
  · intro h
    obtain ⟨hcarried, s, t, i, e, hs, hcall, hstep, hrun, -⟩ := h
    have hstep : step o cfg s (.sub i e) = some t := hstep
    cases hpc : s.subs i with
    | subscribe =>
        rw [hpc] at hcall
        cases hcall
        have hlt := sub_lt_numSubs hs (i := i) (by rw [hpc]; simp)
        refine ⟨⟨by omega, ?_, hcarried⟩, rfl⟩
        -- at another QoS the thread exits
        by_contra hqos
        simp only [step, step_running hstep, if_true, subscribeStep, hpc, hqos, false_and,
          if_false, Option.some.injEq] at hstep
        rw [← hstep] at hrun
        cases hrun
    | _ =>
        rw [hpc] at hcall
        cases hcall
  · intro h
    obtain ⟨⟨hpos, hqos, hcarried⟩, rfl⟩ := h
    obtain ⟨s, hs, hrun, hpc, hlost⟩ := subscribe_reachable (ι := ι) o hpos
    refine ⟨hcarried, s, (s.addFilter cfg.sub0).setSub 0 .subscribing, 0, granted, hs, ?_, ?_, hrun,
      hlost⟩
    · rw [hpc]
      rfl
    · simp [system, step, hrun, subscribeStep, hpc, hlost, hqos]

/-- A subscribe thread alone, from its first step to the data that ends it. -/
theorem unsubscribe_reachable [Inhabited ι] (o : ByteOrder) (hdata : receivesData cfg) :
    ∃ s : State ι, (system o cfg).Reachable s ∧ s.outcome = .running ∧ s.subs 0 = .unsubscribe
      ∧ s.paho.lost = false := by
  obtain ⟨hpos, hqos, hne⟩ := hdata
  obtain ⟨rts, rtts, arr, rec, hfull⟩ := leads_subscribed_full (o := o) cfg (default : ι)
    (s := spawned₀ cfg) 0 rfl rfl rfl rfl hne
  -- the post is there, so the wait is passed
  have hpassed := ((reachable_subscribed o hpos hqos).leads hfull).trans (leads_sub 0 granted rfl rfl)
  have hposted := hpassed.trans (leads_sub 0 granted rfl rfl)
  exact ⟨_, hposted, rfl, rfl, rfl⟩

/-- They unsubscribe from it only after data, which has to be expected. -/
theorem unsubscribes_iff [Inhabited ι] (o : ByteOrder) (cfg : Config) (topic : String) :
    SubCalls (system (ι := ι) o cfg) cfg .unsubscribe topic
      ↔ (receivesData cfg ∧ Carried cfg.sub0) ∧ topic = cfg.sub0 := by
  constructor
  · intro h
    obtain ⟨hcarried, s, t, i, e, hs, hcall, -⟩ := h
    cases hpc : s.subs i with
    | unsubscribe =>
        rw [hpc] at hcall
        cases hcall
        have hlt := sub_lt_numSubs hs (i := i) (by rw [hpc]; simp)
        refine ⟨⟨?_, hcarried⟩, rfl⟩
        by_contra hno
        have hpassed := (never_ends (by omega) hno hs).subs i
        rw [hpc] at hpassed
        cases hpassed
    | _ =>
        rw [hpc] at hcall
        cases hcall
  · intro h
    obtain ⟨⟨hdata, hcarried⟩, rfl⟩ := h
    obtain ⟨s, hs, hrun, hpc, hlost⟩ := unsubscribe_reachable (ι := ι) o hdata
    refine ⟨hcarried, s, s.setSub 0 .ended, 0, granted, hs, ?_, ?_, hrun, hlost⟩
    · rw [hpc]
      rfl
    · simp [system, step, hrun, subscribeStep, hpc, hlost, granted]

/-! ## §3. All topics of the lists. -/

/-- What two lists of topics ask of a process: one thread for each, and calls
that name all of them and no other. -/
structure UsesTopics (S : System (State ι) (Action ι)) (cfg : Config) (pubs subs : List String) :
    Prop where
  published : ∀ topic, PubCalls S cfg .publish topic ↔ topic ∈ pubs
  subscribed : ∀ topic, SubCalls S cfg .subscribe topic ↔ topic ∈ subs
  unsubscribed : ∀ topic, SubCalls S cfg .unsubscribe topic ↔ topic ∈ subs
  pubThreads : ∀ s : State ι, S.Reachable s → s.main.created = true →
    ∀ i, (s.pubs i).pc ≠ .absent ↔ i < pubs.length
  subThreads : ∀ s : State ι, S.Reachable s → s.main.created = true →
    ∀ i, s.subs i ≠ .absent ↔ i < subs.length

/-- A run of one system is one of the other. -/
theorem SubCalls.mono {S T : System (State ι) (Action ι)} {call : LibCall} {topic : String}
    (hreach : ∀ s, S.Reachable s → T.Reachable s)
    (hstep : ∀ s a, S.Reachable s → S.step s a = T.step s a) (h : SubCalls S cfg call topic) :
    SubCalls T cfg call topic := by
  obtain ⟨hcarried, s, t, i, e, hs, hcall, hst, hgood⟩ := h
  rw [hstep s _ hs] at hst
  exact ⟨hcarried, s, t, i, e, hreach s hs, hcall, hst, hgood⟩

/-- The same for a publish thread. -/
theorem PubCalls.mono {S T : System (State ι) (Action ι)} {call : LibCall} {topic : String}
    (hreach : ∀ s, S.Reachable s → T.Reachable s)
    (hstep : ∀ s a, S.Reachable s → S.step s a = T.step s a) (h : PubCalls S cfg call topic) :
    PubCalls T cfg call topic := by
  obtain ⟨hcarried, s, t, i, e, hs, hcall, hst, hgood⟩ := h
  rw [hstep s _ hs] at hst
  exact ⟨hcarried, s, t, i, e, hreach s hs, hcall, hst, hgood⟩

/-- The use of topics depends on the reachable states and the steps out of them. -/
theorem UsesTopics.congr {S T : System (State ι) (Action ι)} {pubs subs : List String}
    (hreach : ∀ s, S.Reachable s ↔ T.Reachable s)
    (hstep : ∀ s a, T.Reachable s → S.step s a = T.step s a)
    (h : UsesTopics S cfg pubs subs) : UsesTopics T cfg pubs subs := by
  have hto : ∀ s a, S.Reachable s → S.step s a = T.step s a := fun s a hs =>
    hstep s a ((hreach s).mp hs)
  have hfrom : ∀ s a, T.Reachable s → T.step s a = S.step s a := fun s a hs => (hstep s a hs).symm
  have hsubs : ∀ call topic, SubCalls T cfg call topic ↔ SubCalls S cfg call topic := by
    intro call topic
    exact ⟨SubCalls.mono (fun s => (hreach s).mpr) hfrom, SubCalls.mono (fun s => (hreach s).mp) hto⟩
  constructor
  · intro topic
    rw [← h.published]
    exact ⟨PubCalls.mono (fun s => (hreach s).mpr) hfrom, PubCalls.mono (fun s => (hreach s).mp) hto⟩
  · intro topic
    rw [← h.subscribed, hsubs]
  · intro topic
    rw [← h.unsubscribed, hsubs]
  · intro s hs
    exact h.pubThreads s ((hreach s).mpr hs)
  · intro s hs
    exact h.subThreads s ((hreach s).mpr hs)

/-- No topic but the first, however often. -/
def OneTopic (topics : List String) : Prop := ∀ topic ∈ topics, topic = topics.headD ""

instance (topics : List String) : Decidable (OneTopic topics) :=
  inferInstanceAs (Decidable (∀ topic ∈ topics, topic = topics.headD ""))

/-- A call that can be made names the first topic, so the calls name them all
when there is no other. -/
theorem first_topic_iff (topics : List String) (enabled : Prop) :
    (∀ topic, ((0 < topics.length ∧ enabled) ∧ topic = topics.headD "") ↔ topic ∈ topics)
      ↔ topics = [] ∨ enabled ∧ OneTopic topics := by
  cases topics with
  | nil => simp
  | cons first rest =>
      constructor
      · intro h
        right
        refine ⟨((h first).mpr List.mem_cons_self).1.2, ?_⟩
        intro topic htopic
        exact ((h topic).mpr htopic).2
      · intro h topic
        obtain ⟨hen, hone⟩ := h.resolve_left (List.cons_ne_nil first rest)
        constructor
        · intro hcall
          rw [hcall.2]
          exact List.mem_cons_self
        · intro htopic
          exact ⟨⟨Nat.succ_pos _, hen⟩, hone topic htopic⟩

/-- The loops of `main` create one thread for each topic. -/
theorem threads_created (hs : (system o cfg).Reachable s) (hcreated : s.main.created = true) :
    (∀ i, (s.pubs i).pc ≠ .absent ↔ i < cfg.numPubs) ∧ ∀ i, s.subs i ≠ .absent ↔ i < cfg.numSubs := by
  have hsp := spawned hs
  have hmade : s.main.pubsMade cfg = cfg.numPubs ∧ s.main.subsMade cfg = cfg.numSubs := by
    cases hpc : s.main with
    | initDone => rw [hpc] at hcreated; cases hcreated
    | initStop => rw [hpc] at hcreated; cases hcreated
    | initMutex => rw [hpc] at hcreated; cases hcreated
    | createSubs i => rw [hpc] at hcreated; cases hcreated
    | createPubs i => rw [hpc] at hcreated; cases hcreated
    | _ => exact ⟨rfl, rfl⟩
  constructor
  · intro i
    rw [Ne, hsp.pubs, hmade.1, Nat.not_le]
  · intro i
    rw [Ne, hsp.subs, hmade.2, Nat.not_le]

/-- **Every topic is used exactly when there is one to use** in each list, the
packets can carry it, and the subscribe threads can subscribe to theirs and
see it end. -/
theorem every_topic_used_iff [Inhabited ι] (o : ByteOrder) (cfg : Config) :
    UsesTopics (system (ι := ι) o cfg) cfg cfg.pubs cfg.subs
      ↔ (cfg.pubs = [] ∨ Carried cfg.pub0 ∧ OneTopic cfg.pubs)
        ∧ (cfg.subs = []
          ∨ (cfg.qos ≤ 2 ∧ cfg.sub0 ≠ pubkill ∧ Carried cfg.sub0) ∧ OneTopic cfg.subs) := by
  have hpub := first_topic_iff cfg.pubs (Carried cfg.pub0)
  have hsub := first_topic_iff cfg.subs (cfg.qos ≤ 2 ∧ Carried cfg.sub0)
  have hunsub := first_topic_iff cfg.subs (cfg.qos ≤ 2 ∧ cfg.sub0 ≠ pubkill ∧ Carried cfg.sub0)
  have hunsubscribes : ∀ topic, SubCalls (system (ι := ι) o cfg) cfg .unsubscribe topic
      ↔ (0 < cfg.subs.length ∧ cfg.qos ≤ 2 ∧ cfg.sub0 ≠ pubkill ∧ Carried cfg.sub0)
        ∧ topic = cfg.subs.headD "" := by
    intro topic
    rw [unsubscribes_iff, receivesData, and_assoc, and_assoc, and_assoc, and_assoc, and_assoc,
      and_assoc]
    rfl
  constructor
  · intro h
    constructor
    · rw [← hpub]
      intro topic
      rw [← h.published, publishes_iff]
      rfl
    · rw [← hunsub]
      intro topic
      rw [← h.unsubscribed, hunsubscribes]
  · intro h
    obtain ⟨hpubs, hsubs⟩ := h
    refine ⟨?_, ?_, ?_, ?_, ?_⟩
    · intro topic
      rw [← hpub.mpr hpubs, publishes_iff]
      rfl
    · intro topic
      rw [← hsub.mpr (hsubs.imp_right fun h => ⟨⟨h.1.1, h.1.2.2⟩, h.2⟩), subscribes_iff]
      rfl
    · intro topic
      rw [← hunsub.mpr hsubs, hunsubscribes]
    · intro s hs hcreated
      exact (threads_created hs hcreated).1
    · intro s hs hcreated
      exact (threads_created hs hcreated).2

end MqttBenchmark.Process
