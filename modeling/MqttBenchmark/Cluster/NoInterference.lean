/-
  MqttBenchmark.Cluster.NoInterference
  ────────────────────────────────────
  **THE DEVICES OF `rtt_nointerference` DO NOT INTERFERE.**

  Every device gets a topic of its own (`uuidgen`), and all run at the same
  time on one broker.  What a device can do then is exactly what it could do
  alone: the cluster, restricted to one device, is a run in which only that
  device acts.

    • `restrict` — what of a cluster belongs to one device,
    • `restrict_step` — a step of the cluster is a step of that device alone,
      or none,
    • `no_interference` — same behaviour as alone, samples of its own
      messages only, whatever the other devices are.
-/
import MqttBenchmark.Cluster.FullInterference
import MqttBenchmark.Process.Stopped
import MqttBenchmark.Lib.Simulation

namespace MqttBenchmark

namespace Lib

/-! ## §1. Positions in a filtered list. -/

variable {α : Type} {p : α → Bool}

/-- An element that passes has its place among those that do. -/
theorem exists_filter_eraseIdx {l : List α} {k : Nat} {x : α} (hk : l[k]? = some x)
    (hp : p x = true) :
    ∃ j, (l.filter p)[j]? = some x ∧ (l.filter p).eraseIdx j = (l.eraseIdx k).filter p := by
  induction l generalizing k with
  | nil => cases hk
  | cons y l ih =>
      cases k with
      | zero =>
          obtain rfl : y = x := by simpa using hk
          exact ⟨0, by simp [hp], by simp [hp]⟩
      | succ k =>
          obtain ⟨j, h1, h2⟩ := ih (by simpa using hk)
          -- the head moves the place by one if it passes itself
          by_cases hy : p y = true
          · exact ⟨j + 1, by simp [hy, h1], by simp [hy, h2]⟩
          · exact ⟨j, by simp [hy, h1], by simp [hy, h2]⟩

/-- Losing an element that does not pass is not seen. -/
theorem filter_eraseIdx {l : List α} {k : Nat} {x : α} (hk : l[k]? = some x) (hp : p x = false) :
    (l.eraseIdx k).filter p = l.filter p := by
  induction l generalizing k with
  | nil => cases hk
  | cons y l ih =>
      cases k with
      | zero =>
          obtain rfl : y = x := by simpa using hk
          simp [hp]
      | succ k =>
          have hl := ih (k := k) (by simpa using hk)
          simp [List.filter_cons, hl]

end Lib

namespace Cluster

open Lib Lib.System Function Process

variable {δ : Type} [DecidableEq δ] {D : Deployment δ} {s s' : State δ} {d : δ}

/-! ## §2. One device of a cluster. -/

/-- No other device publishes what `d` subscribes to. -/
def Apart (D : Deployment δ) (d : δ) : Prop :=
  ∀ e, e ≠ d → (D.config e).pub0 ≠ (D.config d).sub0 ∧ (D.config e).pub0 ≠ pubkill

/-- What belongs to `d`: its process, its buffers, its messages at the broker
and those waiting for it. -/
def restrict (d : δ) (s : State δ) : State δ where
  now := s.now
  procs := update (fun _ => Process.initial) d (s.procs d)
  payload := update (fun _ _ => []) d (s.payload d)
  inbox := s.inbox.filter fun m => m.origin = d
  queue := update (fun _ => []) d (s.queue d)

@[simp] theorem restrict_procs (s : State δ) (d : δ) : (restrict d s).procs d = s.procs d := by
  simp [restrict]

@[simp] theorem restrict_payload (s : State δ) (d : δ) : (restrict d s).payload d = s.payload d := by
  simp [restrict]

@[simp] theorem restrict_queue (s : State δ) (d : δ) : (restrict d s).queue d = s.queue d := by
  simp [restrict]

theorem restrict_initial (d : δ) : restrict d (initial : State δ) = initial := by
  unfold restrict initial
  simp only [List.filter_nil]
  congr 1
  · exact update_eq_self d _
  · exact update_eq_self d _
  · exact update_eq_self d _

theorem restrict_setProc (s : State δ) (d : δ) (p : Process.State δ) :
    restrict d (s.setProc d p) = (restrict d s).setProc d p := by
  unfold restrict State.setProc
  simp

theorem restrict_setPayload (s : State δ) (d : δ) (i : Nat) (buf : Bytes) :
    restrict d (s.setPayload d i buf) = (restrict d s).setPayload d i buf := by
  unfold restrict State.setPayload
  simp

/-- Another process acts: nothing changes for `d`. -/
theorem restrict_setProc_of_ne {e : δ} (s : State δ) (p : Process.State δ) (h : d ≠ e) :
    restrict d (s.setProc e p) = restrict d s := by
  unfold restrict
  rw [setProc_of_ne _ _ h]
  rfl

theorem restrict_setPayload_of_ne {e : δ} (s : State δ) (i : Nat) (buf : Bytes) (h : d ≠ e) :
    restrict d (s.setPayload e i buf) = restrict d s := by
  have hpayload : (s.setPayload e i buf).payload d = s.payload d := by
    funext j
    exact setPayload_of_ne _ _ (.inl h)
  unfold restrict
  rw [hpayload]
  rfl

/-- What `d` publishes is under way for it as well. -/
theorem restrict_issue (s : State δ) (ms : List (Message δ)) (hms : ∀ m ∈ ms, m.origin = d) :
    restrict d { s with inbox := s.inbox ++ ms }
      = { restrict d s with inbox := (restrict d s).inbox ++ ms } := by
  have hall : ms.filter (fun m => m.origin = d) = ms := by
    rw [List.filter_eq_self]
    intro m hm
    exact decide_eq_true (hms m hm)
  unfold restrict
  simp only [List.filter_append, hall]

/-- Other devices' messages are not among those of `d`. -/
theorem restrict_issue_of_ne (s : State δ) (ms : List (Message δ)) (hms : ∀ m ∈ ms, m.origin ≠ d) :
    restrict d { s with inbox := s.inbox ++ ms } = restrict d s := by
  have hnone : ms.filter (fun m => m.origin = d) = [] := by
    rw [List.filter_eq_nil_iff]
    intro m hm
    simpa using hms m hm
  unfold restrict
  simp only [List.filter_append, hnone, List.append_nil]

/-- The broker hands a message of the restriction to no other device: none
has subscribed. -/
theorem restrict_route (s : State δ) (m : Message δ) (inbox : List (Message δ)) :
    restrict d { s with inbox := inbox, queue := broadcast s m }
      = { restrict d s with
          inbox := inbox.filter fun m => m.origin = d, queue := broadcast (restrict d s) m } := by
  have hqueue : update (fun _ => []) d (broadcast s m d) = broadcast (restrict d s) m := by
    funext e
    unfold broadcast
    by_cases he : e = d
    · subst he
      simp
    · simp [restrict, update_of_ne he, Process.initial]
  unfold restrict at hqueue ⊢
  simp only [hqueue]

theorem restrict_deliver (s : State δ) (p : Process.State δ) (q : List (Message δ)) :
    restrict d { s.setProc d p with queue := update s.queue d q }
      = { (restrict d s).setProc d p with queue := update (restrict d s).queue d q } := by
  unfold restrict State.setProc
  simp

/-! ## §3. A step of the cluster, seen by one device. -/

/-- What its own publish thread does, it does alone. -/
theorem publishStep_restrict {i : Nat} {e : Answer} (h : publishStep D s d i e = some s') :
    publishStep D (restrict d s) d i e = some (restrict d s') := by
  unfold publishStep at h ⊢
  simp only [restrict_procs, restrict_payload] at h ⊢
  split at h
  next => cases h
  next p hp =>
    split at h
    next =>
      split at h <;> cases h
      · rw [restrict_setPayload, restrict_setProc]
      · rw [restrict_setProc]
    next =>
      split at h <;> cases h
      · rw [restrict_setPayload, restrict_setProc]
      · rw [restrict_setProc]
    next =>
      split at h
      next hiss =>
        cases h
        rw [if_pos hiss, restrict_setProc]
      next hiss =>
        rw [if_neg hiss]
        split at h <;> cases h
        · next hneg => rw [if_pos hneg, restrict_setProc]
        · next hlen =>
            rw [if_neg hlen]
            have hmsg := restrict_issue (d := d) (s.setProc d p) (message D s d i e.token).toList
              fun m hm => (exists_of_message (Option.mem_toList.mp hm)).2.1
            rw [restrict_setProc] at hmsg
            exact congrArg some hmsg.symm
    next =>
      cases h
      rw [restrict_setProc]

/-- What a publish thread of another device does is not seen. -/
theorem publishStep_restrict_of_ne {e : δ} {i : Nat} {ans : Answer} (hne : d ≠ e)
    (h : publishStep D s e i ans = some s') : restrict d s' = restrict d s := by
  unfold publishStep at h
  simp only at h
  split at h
  next => cases h
  next p hp =>
    split at h
    next =>
      split at h <;> cases h
      · rw [restrict_setPayload_of_ne _ _ _ hne, restrict_setProc_of_ne _ _ hne]
      · rw [restrict_setProc_of_ne _ _ hne]
    next =>
      split at h <;> cases h
      · rw [restrict_setPayload_of_ne _ _ _ hne, restrict_setProc_of_ne _ _ hne]
      · rw [restrict_setProc_of_ne _ _ hne]
    next =>
      split at h
      next =>
        cases h
        rw [restrict_setProc_of_ne _ _ hne]
      next =>
        split at h <;> cases h
        · rw [restrict_setProc_of_ne _ _ hne]
        · refine (restrict_issue_of_ne (s.setProc e p) (message D s e i ans.token).toList ?_).trans
            (restrict_setProc_of_ne _ _ hne)
          intro m hm
          rw [(exists_of_message (Option.mem_toList.mp hm)).2.1]
          exact Ne.symm hne
    next =>
      cases h
      rw [restrict_setProc_of_ne _ _ hne]

/-- The messages that can reach `d` are its own. -/
structure Own (d : δ) (s : State δ) : Prop where
  queue : ∀ m ∈ s.queue d, m.origin = d
  arrivals : ∀ r ∈ (s.procs d).hist.arrivals, r.1.origin = d

/-- A message of a topic that `d` has subscribed to is its own. -/
theorem own_of_subscribed (hs : (system D).Reachable s) (hapart : Apart D d) {m : Message δ}
    (hm : m ∈ s.inbox) (hsub : m.topicName ∈ (s.procs d).paho.subscribed) : m.origin = d := by
  by_contra hne
  obtain ⟨hpub, hkill⟩ := hapart m.origin hne
  have htopic := ((everywhere_sent hs).inbox m hm).topic
  have hsound := (isProcess hs d).holds
    (P := fun p => ∀ f ∈ p.paho.subscribed, f = (D.config d).sub0 ∨ f = pubkill)
    (fun q hq f hf => (subscribed_sound hq f hf).imp And.right And.right) fun _ hp => hp
  -- neither its data topic nor `pubkill` is the topic of another publisher
  rcases hsound _ hsub with heq | heq
  · exact hpub (htopic.symm.trans heq)
  · exact hkill (htopic.symm.trans heq)

theorem own (hs : (system D).Reachable s) (hapart : Apart D d) : Own d s := by
  refine reachable_induct hs ⟨by simp [initial], by simp [initial, Process.initial]⟩ ?_
  intro s s' hs ho hm
  obtain ⟨hq, ha⟩ := ho
  constructor
  · intro m hmem
    rcases hm.queue hmem with hold | ⟨hold, hsub⟩
    · exact hq m hold
    · exact own_of_subscribed hs hapart hold hsub
  · intro r hmem
    rcases hm.arrivals hmem with hold | ⟨-, m, hold, b, heq⟩
    · exact ha r hold
    · rw [heq]
      exact hq m hold

/-- **A step of the cluster is a step of the device alone, or none.** -/
theorem restrict_step (hs : (system D).Reachable s) (hapart : Apart D d) {a : Action δ}
    (h : step D s a = some s') :
    restrict d s' = restrict d s
      ∨ ∃ b, b.isBy (· = d) ∧ step D (restrict d s) b = some (restrict d s') := by
  cases a with
  | tick ns =>
      cases h
      exact .inr ⟨.tick ns, (fun _ hx => by cases hx), rfl⟩
  | route k =>
      simp only [step] at h
      split at h <;> cases h
      next m hk =>
        by_cases hm : m.origin = d
        · -- at its place among the messages of `d`
          right
          obtain ⟨j, hj, herase⟩ :=
            exists_filter_eraseIdx (p := fun m : Message δ => decide (m.origin = d)) hk (by simpa)
          refine ⟨.route j, (fun _ hx => by cases hx), ?_⟩
          have hj' : (restrict d s).inbox[j]? = some m := hj
          simp only [step, hj']
          rw [restrict_route, ← herase]
          rfl
        · left
          have hsub : m.topicName ∉ (s.procs d).paho.subscribed := fun hsub =>
            hm (own_of_subscribed hs hapart (List.mem_of_getElem? hk) hsub)
          unfold restrict broadcast
          simp only [hsub, if_false]
          rw [filter_eraseIdx hk (by simpa using hm)]
  | deliver e k beyond =>
      simp only [step] at h
      split at h
      next => cases h
      next m hk =>
        obtain ⟨p, hp, rfl⟩ := Option.map_eq_some_iff.mp h
        by_cases he : d = e
        · subst he
          right
          refine ⟨.deliver d k beyond, ?_, ?_⟩
          · intro x hx
            cases hx
            rfl
          · simp only [step, restrict_queue, restrict_procs, hk]
            rw [restrict_deliver]
            show (Process.step D.order (D.config d) (s.procs d)
              (.arrive { m with beyond := beyond } (D.clock d s.now))).map _ = _
            rw [hp]
            rfl
        · left
          unfold restrict
          simp only [update_of_ne he, setProc_of_ne _ _ he]
          rfl
  | proc e a =>
      by_cases he : d = e
      · subst he
        right
        refine ⟨.proc d a, isBy_proc (A := (· = d)) rfl a, ?_⟩
        cases a with
        | arrive m x => cases h
        | pub i ans => exact publishStep_restrict h
        | _ =>
            obtain ⟨p, hp, rfl⟩ := Option.map_eq_some_iff.mp h
            simp only [step, restrict_procs]
            rw [hp, Option.map_some, restrict_setProc]
      · left
        cases a with
        | arrive m x => cases h
        | pub i ans => exact publishStep_restrict_of_ne he h
        | _ =>
            obtain ⟨p, hp, rfl⟩ := Option.map_eq_some_iff.mp h
            exact restrict_setProc_of_ne _ _ he

/-! ## §4. The same as alone. -/

/-- The runs in which only `d` acts. -/
def LeadsAlone (D : Deployment δ) (d : δ) (s : State δ) : Prop := LeadsBy D (· = d) initial s

/-- The cluster is simulated by the device alone. -/
theorem restrict_simulation (hapart : Apart D d) :
    Simulation (system D) (system D) (fun _ a => a.isBy (· = d)) fun s t => t = restrict d s where
  init := (restrict_initial d).symm
  step := by
    intro s a s' t hs ht h
    subst ht
    rcases restrict_step hs hapart h with hsame | ⟨b, hb, hstep⟩
    · exact ⟨_, .refl, hsame.symm⟩
    · exact ⟨_, .single hb hstep, rfl⟩

/-- **What a device does among others it can do alone**, and conversely. -/
theorem alone_iff (hapart : Apart D d) (p : Process.State δ) :
    (∃ s, (system D).Reachable s ∧ s.procs d = p) ↔ ∃ s, LeadsAlone D d s ∧ s.procs d = p := by
  constructor
  · rintro ⟨s, hs, rfl⟩
    obtain ⟨t, ht, rfl⟩ := (restrict_simulation hapart).reaches hs
    exact ⟨_, ht, restrict_procs s d⟩
  · rintro ⟨s, hs, rfl⟩
    exact ⟨s, LeadsWhen.leads hs, rfl⟩

/-- Two deployments that give `d` the same clock, bytes and configuration. -/
structure SameFor (D D' : Deployment δ) (d : δ) : Prop where
  order : D'.order = D.order
  config : D'.config d = D.config d
  rand : D'.rand d = D.rand d
  offset : D'.offset d = D.offset d
  slack : D'.slack d = D.slack d

omit [DecidableEq δ] in
theorem SameFor.symm {D' : Deployment δ} (h : SameFor D D' d) : SameFor D' D d :=
  ⟨h.order.symm, h.config.symm, h.rand.symm, h.offset.symm, h.slack.symm⟩

/-- A step of `d` looks at nothing else of the deployment. -/
theorem step_sameFor {D' : Deployment δ} (h : SameFor D D' d) (s : State δ) {a : Action δ}
    (ha : a.isBy (· = d)) : step D s a = step D' s a := by
  obtain ⟨horder, hconfig, hrand, hoffset, hslack⟩ := h
  have hmemory : D'.memory d = D.memory d := by
    unfold Deployment.memory
    rw [hconfig, hslack]
  have hclock : D'.clock d s.now = D.clock d s.now := by
    unfold Deployment.clock
    rw [hoffset]
  cases a with
  | tick ns => rfl
  | route k => rfl
  | deliver e k beyond =>
      obtain rfl : e = d := ha e rfl
      simp only [step, horder, hconfig, hclock]
  | proc e a =>
      obtain rfl : e = d := ha e rfl
      cases a with
      | arrive m x => rfl
      | pub i ans => simp only [step, publishStep, horder, hconfig, hrand, hmemory, hclock]
      | _ => simp only [step, horder, hconfig]

/-- A run alone depends on one device only. -/
theorem leadsAlone_sameFor {D' : Deployment δ} (h : SameFor D D' d) (hs : LeadsAlone D d s) :
    LeadsAlone D' d s := by
  refine LeadsWhen.congr ?_ hs
  intro t b hb
  exact step_sameFor h t hb

/-! ## §5. The benchmark. -/

/-- `_main` of `rtt_nointerference.py`: `TOPIC` is what `uuidgen` printed on
the device. -/
def noInterference (order : ByteOrder) (opts : Options) (hostname : δ → CString)
    (uuid : δ → String) (rand : δ → Nat → Nat) (offset : δ → Int) (slack : δ → Nat) :
    Deployment δ where
  order := order
  config d := opts.config (hostname d) [uuid d] [uuid d]
  rand := rand
  offset := offset
  slack := slack

/-- No device of a deployment interferes with another. -/
structure NoInterference (D : Deployment δ) : Prop where
  /-- A device can get where it could get if no other device did anything. -/
  alone : ∀ d p, (∃ s, (system D).Reachable s ∧ s.procs d = p)
    ↔ ∃ s, LeadsAlone D d s ∧ s.procs d = p
  /-- Every sample is of a message of the device itself. -/
  own : ∀ s, (system D).Reachable s → ∀ d, ∀ r ∈ (s.procs d).hist.recorded, r.1.origin = d
  /-- The clock of another device makes no difference. -/
  offsets : ∀ d e x, e ≠ d → ∀ p, (∃ s, (system D).Reachable s ∧ s.procs d = p)
    ↔ ∃ s, (system (D.setOffset e x)).Reachable s ∧ s.procs d = p

theorem noInterference_of_apart (hapart : ∀ d, Apart D d) : NoInterference D := by
  refine ⟨fun d p => alone_iff (hapart d) p, ?_, ?_⟩
  · intro s hs d r hr
    exact (own hs (hapart d)).arrivals _ ((isProcess hs d).arrived hr)
  · intro d e x hne p
    have hsame : SameFor D (D.setOffset e x) d := ⟨rfl, rfl, rfl, update_of_ne hne.symm .., rfl⟩
    rw [alone_iff (hapart d), alone_iff (D := D.setOffset e x) (hapart d)]
    constructor
    · rintro ⟨s, hs, hp⟩
      exact ⟨s, leadsAlone_sameFor hsame hs, hp⟩
    · rintro ⟨s, hs, hp⟩
      exact ⟨s, leadsAlone_sameFor hsame.symm hs, hp⟩

/-- **`rtt_nointerference` DESERVES ITS NAME** when the topics of the devices
are different and none is `pubkill`, as those of `uuidgen` are. -/
theorem no_interference (order : ByteOrder) (opts : Options) (hostname : δ → CString)
    (uuid : δ → String) (rand : δ → Nat → Nat) (offset : δ → Int) (slack : δ → Nat)
    (huuid : Injective uuid) (hkill : ∀ d, uuid d ≠ pubkill) :
    NoInterference (noInterference order opts hostname uuid rand offset slack) :=
  noInterference_of_apart fun _ e hne => ⟨fun heq => hne (huuid heq), hkill e⟩

/-- Two devices with two topics. -/
theorem no_interference_two_devices :
    NoInterference (noInterference .little ⟨20, 64, 1⟩ twoDevices
      (fun d => if d then "ff9c7a3e" else "1b6e02d4") (fun _ i => i)
      (fun d => if d then 5000000 else 0) fun _ => 0) :=
  no_interference .little ⟨20, 64, 1⟩ twoDevices (fun d => if d then "ff9c7a3e" else "1b6e02d4")
    (fun _ i => i) (fun d => if d then 5000000 else 0) (fun _ => 0)
    (by intro a b; revert a b; decide) (by decide)

end Cluster

end MqttBenchmark
