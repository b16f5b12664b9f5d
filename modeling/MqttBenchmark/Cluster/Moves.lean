/-
  MqttBenchmark.Cluster.Moves
  ───────────────────────────
  **WHAT ONE STEP OF THE CLUSTER CAN DO.**

    • `Move`, `step_move` — the branches of `step`, said once,
    • `isProcess` — a process in a cluster is a process: whatever holds in
      every reachable state of `Process` holds of each of them,
    • `Everywhere` — what every published message has, every message has.
-/
import MqttBenchmark.Cluster.Def
import MqttBenchmark.Process.Frames

namespace MqttBenchmark.Cluster

open Lib Lib.System Function Process

variable {δ : Type} [DecidableEq δ] {D : Deployment δ} {s s' : State δ}

/-! ## §1. State updates. -/

@[simp] theorem setProc_self (s : State δ) (d : δ) (p : Process.State δ) :
    (s.setProc d p).procs d = p := update_self ..

theorem setProc_of_ne (s : State δ) {d e : δ} (p : Process.State δ) (h : e ≠ d) :
    (s.setProc d p).procs e = s.procs e := update_of_ne h ..

@[simp] theorem setPayload_procs (s : State δ) (d : δ) (i : Nat) (buf : Bytes) :
    (s.setPayload d i buf).procs = s.procs := rfl

@[simp] theorem setPayload_self (s : State δ) (d : δ) (i : Nat) (buf : Bytes) :
    (s.setPayload d i buf).payload d i = buf := by
  simp [State.setPayload]

theorem setPayload_of_ne (s : State δ) {d e : δ} {i j : Nat} (buf : Bytes) (h : e ≠ d ∨ j ≠ i) :
    (s.setPayload d i buf).payload e j = s.payload e j := by
  unfold State.setPayload
  -- same device, another thread; or another device
  by_cases he : e = d
  · subst he
    simp [update_of_ne (h.resolve_left (· rfl))]
  · simp [update_of_ne he]

theorem setProc_setProc (s : State δ) (d : δ) (p q : Process.State δ) :
    (s.setProc d p).setProc d q = s.setProc d q := by
  unfold State.setProc
  rw [update_idem]

theorem setProc_eq_self (s : State δ) (d : δ) : s.setProc d (s.procs d) = s := by
  unfold State.setProc
  rw [update_eq_self]

/-! ## §2. The moves. -/

/-- The message the broker gets of a publish thread, if it gets one. -/
def message (D : Deployment δ) (s : State δ) (d : δ) (i : Nat) (token : Int) : Option (Message δ) :=
  (published (D.config d) token (s.payload d i)).map fun b => ⟨(D.config d).pub0, b, [], d⟩

/-- The moves of a cluster. -/
inductive Move (D : Deployment δ) (s : State δ) : State δ → Prop
  | tick (ns : Nat) : Move D s { s with now := s.now + ns }
  | proc (d : δ) (a : Process.Action δ) (p : Process.State δ) (ha : a.isLocal)
      (h : Process.step D.order (D.config d) (s.procs d) a = some p) : Move D s (s.setProc d p)
  | init (d : δ) (i : Nat) (e : Answer) (p : Process.State δ) (buf : Bytes)
      (hpc : ((s.procs d).pubs i).pc = .start)
      (h : Process.step D.order (D.config d) (s.procs d) (.pub i e) = some p)
      (hbuf : initBuffer (D.config d) (D.rand d) (D.memory d) = some buf) :
      Move D s ((s.setProc d p).setPayload d i buf)
  | stamp (d : δ) (i : Nat) (e : Answer) (p : Process.State δ) (buf : Bytes)
      (hpc : ((s.procs d).pubs i).pc = .stamp)
      (h : Process.step D.order (D.config d) (s.procs d) (.pub i e) = some p)
      (hclock : e.clock = D.clock d s.now)
      (hbuf : stampPayload D.order (D.config d) (s.payload d i) ((s.procs d).pubs i).it e.clock
        = some buf) :
      Move D s ((s.setProc d p).setPayload d i buf)
  | crash (d : δ) : Move D s (s.setProc d (s.procs d).fault)
  | issue (d : δ) (i : Nat) (e : Answer) (p : Process.State δ)
      (hpc : ((s.procs d).pubs i).pc = .publish)
      (h : Process.step D.order (D.config d) (s.procs d) (.pub i e) = some p)
      (hiss : p.paho.issued ≠ (s.procs d).paho.issued)
      (hlen : 0 ≤ (D.config d).payloadSize.toInt32.toInt) :
      Move D s { s.setProc d p with inbox := s.inbox ++ (message D s d i e.token).toList }
  | unsent (d : δ) (i : Nat) (e : Answer) (p q : Process.State δ)
      (hpc : ((s.procs d).pubs i).pc = .publish)
      (h : Process.step D.order (D.config d) (s.procs d) (.pub i e) = some p)
      (hlose : Process.step D.order (D.config d) p .lose = some q) : Move D s (s.setProc d q)
  | pub (d : δ) (i : Nat) (e : Answer) (p : Process.State δ)
      (hstart : ((s.procs d).pubs i).pc ≠ .start) (hstamp : ((s.procs d).pubs i).pc ≠ .stamp)
      (h : Process.step D.order (D.config d) (s.procs d) (.pub i e) = some p)
      (hiss : p.paho.issued = (s.procs d).paho.issued) : Move D s (s.setProc d p)
  | route (k : Nat) (m : Message δ) (hk : s.inbox[k]? = some m) :
      Move D s { s with inbox := s.inbox.eraseIdx k, queue := broadcast s m }
  | deliver (d : δ) (k : Nat) (m : Message δ) (beyond : Bytes) (p : Process.State δ)
      (hk : (s.queue d)[k]? = some m)
      (h : Process.step D.order (D.config d) (s.procs d)
        (.arrive { m with beyond := beyond } (D.clock d s.now)) = some p) :
      Move D s { s.setProc d p with queue := update s.queue d ((s.queue d).eraseIdx k) }

/-- A publish of a negative length fails at once, or leaves the process without
a connection. -/
theorem unsent_move {d : δ} {i : Nat} {e : Answer} {p : Process.State δ}
    (hpc : ((s.procs d).pubs i).pc = .publish)
    (h : Process.step D.order (D.config d) (s.procs d) (.pub i e) = some p)
    (hiss : p.paho.issued ≠ (s.procs d).paho.issued) :
    Move D s (s.setProc d (Process.unsent (D.config d) (s.procs d) p)) := by
  have hrun := step_running h
  unfold Process.unsent
  split
  next =>
    -- the call goes on, and so does the process
    have hp : p.outcome = .running := by
      have hm := step_pub h
      cases hm with
      | exit => exact absurd rfl hiss
      | _ => exact hrun
    refine .unsent d i e p _ hpc h ?_
    unfold Process.step
    rw [if_pos hp]
  next =>
    -- the call reports a failure, and the thread exits
    refine .pub d i { e with ok := false } _ (by rw [hpc]; simp) (by rw [hpc]; simp) ?_ rfl
    unfold Process.step
    rw [if_pos hrun]
    simp [Process.publishStep, hpc]

theorem publishStep_move {d : δ} {i : Nat} {e : Answer} (hclock : e.clock = D.clock d s.now)
    (h : publishStep D s d i e = some s') : Move D s s' := by
  unfold publishStep at h
  simp only at h
  split at h
  next => cases h
  next p hp =>
    split at h
    next hpc =>
      split at h <;> cases h
      · next buf hbuf => exact .init d i e p buf hpc hp hbuf
      · exact .crash d
    next hpc =>
      split at h <;> cases h
      · next buf hbuf => exact .stamp d i e p buf hpc hp hclock hbuf
      · exact .crash d
    next hpc =>
      have hplain : ((s.procs d).pubs i).pc ≠ .start ∧ ((s.procs d).pubs i).pc ≠ .stamp := by
        rw [hpc]
        exact ⟨by simp, by simp⟩
      split at h
      next hiss => cases h; exact .pub d i e p hplain.1 hplain.2 hp hiss
      next hiss =>
        split at h
        next hneg =>
          cases h
          exact unsent_move hpc hp hiss
        next hlen => cases h; exact .issue d i e p hpc hp hiss (Int.not_lt.mp hlen)
    next hstart hstamp hpublish =>
      cases h
      -- away from `publish` the thread issues nothing
      exact .pub d i e p hstart hstamp hp (step_pub_issued hp hpublish)

/-- **The inversion of a step.** -/
theorem step_move {a : Action δ} (h : step D s a = some s') : Move D s s' := by
  cases a with
  | tick ns => cases h; exact .tick ns
  | route k =>
      simp only [step] at h
      split at h <;> cases h
      next m hk => exact .route k m hk
  | deliver d k beyond =>
      simp only [step] at h
      split at h
      next => cases h
      next m hk =>
        obtain ⟨p, hp, rfl⟩ := Option.map_eq_some_iff.mp h
        exact .deliver d k m beyond p hk hp
  | proc d a =>
      cases a with
      -- a message arrives by `deliver` only, never as a step of its own
      | arrive m x => cases h
      | pub i e => exact publishStep_move (by rfl) h
      | _ =>
          obtain ⟨p, hp, rfl⟩ := Option.map_eq_some_iff.mp h
          exact .proc d _ p (by trivial) hp

/-- A publish thread adds to the inbox, and writes its own process. -/
theorem publishStep_frame {d : δ} {i : Nat} {e : Answer} (h : publishStep D s d i e = some s') :
    (∃ ms, s'.inbox = s.inbox ++ ms) ∧ ∀ x, x ≠ d → s'.procs x = s.procs x := by
  have hplain : ∀ {p : Process.State δ}, (∃ ms, (s.setProc d p).inbox = s.inbox ++ ms)
      ∧ ∀ x, x ≠ d → (s.setProc d p).procs x = s.procs x :=
    ⟨⟨[], (List.append_nil _).symm⟩, fun x hx => setProc_of_ne _ _ hx⟩
  unfold publishStep at h
  simp only at h
  split at h
  next => cases h
  next p hp =>
    split at h
    next => split at h <;> cases h <;> exact hplain
    next => split at h <;> cases h <;> exact hplain
    next =>
      split at h
      next => cases h; exact hplain
      next => split at h <;> cases h <;> first | exact hplain | exact ⟨⟨_, rfl⟩, hplain.2⟩
    next => cases h; exact hplain

/-- What an action of no interest to a process leaves alone. -/
theorem step_frame {a : Action δ} (h : step D s a = some s') :
    ((∀ k, a ≠ .route k) → ∃ ms, s'.inbox = s.inbox ++ ms)
      ∧ ∀ d, a.actor ≠ some d → s'.procs d = s.procs d := by
  have hsame : ∃ ms, s.inbox = s.inbox ++ ms := ⟨[], (List.append_nil _).symm⟩
  cases a with
  | tick ns => cases h; exact ⟨fun _ => hsame, fun _ _ => rfl⟩
  | route k =>
      simp only [step] at h
      split at h <;> cases h
      exact ⟨fun hk => absurd rfl (hk k), fun _ _ => rfl⟩
  | deliver e k beyond =>
      simp only [step] at h
      split at h
      next => cases h
      next m hk =>
        obtain ⟨p, hp, rfl⟩ := Option.map_eq_some_iff.mp h
        exact ⟨fun _ => hsame, fun d hd => setProc_of_ne _ _ fun heq => hd (by rw [heq]; rfl)⟩
  | proc e a =>
      -- a step of process `e` writes no other process
      have hne : ∀ {d}, (Action.proc e a).actor ≠ some d → d ≠ e := by
        rintro d hd rfl
        exact hd rfl
      cases a with
      | arrive m x => cases h
      | pub i ans =>
          have f := publishStep_frame h
          exact ⟨fun _ => f.1, fun d hd => f.2 d (hne hd)⟩
      | _ =>
          obtain ⟨p, hp, rfl⟩ := Option.map_eq_some_iff.mp h
          exact ⟨fun _ => hsame, fun d hd => setProc_of_ne _ _ (hne hd)⟩

/-- The invariant rule on moves. -/
theorem reachable_induct {P : State δ → Prop} {t : State δ} (h : (system D).Reachable t)
    (h0 : P initial)
    (hmove : ∀ s s', (system D).Reachable s → P s → Move D s s' → P s') : P t :=
  h.induct h0 fun s _ s' hs hP hstep => hmove s s' hs hP (step_move hstep)

/-! ## §3. The processes. -/

/-- What a move does to one process. -/
inductive ProcMove (D : Deployment δ) (d : δ) (p : Process.State δ) : Process.State δ → Prop
  | same : ProcMove D d p p
  | step (a : Process.Action δ) {p' : Process.State δ}
      (h : Process.step D.order (D.config d) p a = some p') : ProcMove D d p p'
  | steps (a b : Process.Action δ) {p' p'' : Process.State δ}
      (h : Process.step D.order (D.config d) p a = some p')
      (h' : Process.step D.order (D.config d) p' b = some p'') : ProcMove D d p p''
  | crash : ProcMove D d p p.fault

theorem Move.procs (h : Move D s s') (d : δ) : ProcMove D d (s.procs d) (s'.procs d) := by
  -- a move that sets process `e` leaves the others as they are
  have hset : ∀ (e : δ) {p : Process.State δ}, ProcMove D e (s.procs e) p →
      ProcMove D d (s.procs d) ((s.setProc e p).procs d) := by
    intro e p hp
    by_cases hd : d = e
    · subst hd
      rwa [setProc_self]
    · rw [setProc_of_ne _ _ hd]
      exact .same
  cases h with
  | tick ns => exact .same
  | route k m hk => exact .same
  | crash e => exact hset e .crash
  | proc e a p ha h => exact hset e (.step a h)
  | init e i ans p buf hpc h hbuf => exact hset e (.step _ h)
  | stamp e i ans p buf hpc h hclock hbuf => exact hset e (.step _ h)
  | issue e i ans p hpc h hiss hlen => exact hset e (.step _ h)
  | unsent e i ans p q hpc h hlose => exact hset e (.steps _ _ h hlose)
  | pub e i ans p hstart hstamp h hiss => exact hset e (.step _ h)
  | deliver e k m beyond p hk h => exact hset e (.step _ h)

/-- A reachable state of the process on its own, up to a fault at the end. -/
def IsProcess (D : Deployment δ) (d : δ) (p : Process.State δ) : Prop :=
  ∃ q, (Process.system D.order (D.config d)).Reachable q ∧ (p = q ∨ p = q.fault)

namespace IsProcess

variable {d : δ} {p p' : Process.State δ}

omit [DecidableEq δ]

theorem initial : IsProcess D d Process.initial := ⟨_, Reachable.init, .inl rfl⟩

theorem move (h : IsProcess D d p) (hm : ProcMove D d p p') : IsProcess D d p' := by
  obtain ⟨q, hq, hp⟩ := h
  cases hm with
  | same => exact ⟨q, hq, hp⟩
  | crash =>
      refine ⟨q, hq, .inr ?_⟩
      rcases hp with rfl | rfl
      · rfl
      · rfl
  | step a hstep =>
      -- a faulted process takes no step
      rcases hp with rfl | rfl
      · exact ⟨p', hq.step (a := a) hstep, .inl rfl⟩
      · cases hstep
  | steps a b hstep hstep' =>
      rcases hp with rfl | rfl
      · exact ⟨p', (hq.step (a := a) hstep).step (a := b) hstep', .inl rfl⟩
      · cases hstep

/-- While it runs it is in a reachable state of its own. -/
theorem reachable (h : IsProcess D d p) (hrun : p.outcome = .running) :
    (Process.system D.order (D.config d)).Reachable p := by
  obtain ⟨q, hq, rfl | rfl⟩ := h
  · exact hq
  · cases hrun

/-- What holds in every reachable state and survives a fault holds of it. -/
theorem holds {P : Process.State δ → Prop} (h : IsProcess D d p)
    (hP : ∀ q, (Process.system D.order (D.config d)).Reachable q → P q)
    (hfault : ∀ q, P q → P q.fault) : P p := by
  obtain ⟨q, hq, rfl | rfl⟩ := h
  · exact hP p hq
  · exact hfault q (hP q hq)

/-- The message of every sample has arrived. -/
theorem arrived (h : IsProcess D d p) {r : Message δ × UInt64 × UInt32}
    (hr : r ∈ p.hist.recorded) : (r.1, r.2.1) ∈ p.hist.arrivals := by
  -- a fault leaves the history as it is
  have hall := h.holds (P := fun p => ∀ r ∈ p.hist.recorded, (r.1, r.2.1) ∈ p.hist.arrivals)
    (fun q hq r hr => ((seen hq).recorded r hr).1) fun _ hp => hp
  exact hall r hr

end IsProcess

/-- **A process in a cluster is a process.** -/
theorem isProcess (h : (system D).Reachable s) (d : δ) : IsProcess D d (s.procs d) :=
  reachable_induct (P := fun s => IsProcess D d (s.procs d)) h IsProcess.initial
    fun _ _ _ hp hm => hp.move (hm.procs d)

/-! ## §4. The messages. -/

omit [DecidableEq δ] in
theorem mem_broadcast {m m' : Message δ} {d : δ} (h : m' ∈ broadcast s m d) :
    m' ∈ s.queue d ∨ m' = m ∧ m.topicName ∈ (s.procs d).paho.subscribed := by
  unfold broadcast at h
  split at h
  next hsub =>
    rcases List.mem_append.mp h with h | h
    · exact .inl h
    · exact .inr ⟨List.mem_singleton.mp h, hsub⟩
  next => exact .inl h

/-- Only publish threads send. -/
theorem Move.inbox (h : Move D s s') {m : Message δ} (hm : m ∈ s'.inbox) :
    m ∈ s.inbox ∨ ∃ d i tok, message D s d i tok = some m ∧ ((s.procs d).pubs i).pc = .publish
      ∧ (s.procs d).outcome = .running ∧ 0 ≤ (D.config d).payloadSize.toInt32.toInt := by
  cases h with
  | issue d i e p hpc h hiss hlen =>
      rcases List.mem_append.mp hm with hm | hm
      · exact .inl hm
      · exact .inr ⟨d, i, e.token, Option.mem_toList.mp hm, hpc, step_running h, hlen⟩
  | route k m' hk => exact .inl (List.mem_of_mem_eraseIdx hm)
  | _ => exact .inl hm

/-- Only subscribers are sent to. -/
theorem Move.queue (h : Move D s s') {d : δ} {m : Message δ} (hm : m ∈ s'.queue d) :
    m ∈ s.queue d ∨ m ∈ s.inbox ∧ m.topicName ∈ (s.procs d).paho.subscribed := by
  cases h with
  | route k m' hk =>
      rcases mem_broadcast hm with hm | ⟨rfl, hsub⟩
      · exact .inl hm
      · exact .inr ⟨List.mem_of_getElem? hk, hsub⟩
  | deliver e k m' beyond p hk h =>
      by_cases hd : d = e
      · subst hd
        simp only [update_self] at hm
        exact .inl (List.mem_of_mem_eraseIdx hm)
      · simp only [update_of_ne hd] at hm
        exact .inl hm
  | _ => exact .inl hm

/-- What arrives was sent to the process, and gets the reading of its clock. -/
theorem Move.arrivals_clock (h : Move D s s') {d : δ} {r : Message δ × UInt64}
    (hr : r ∈ (s'.procs d).hist.arrivals) :
    r ∈ (s.procs d).hist.arrivals
      ∨ (s.procs d).outcome = .running
        ∧ ∃ m ∈ s.queue d, ∃ b, r = ({ m with beyond := b }, D.clock d s.now) := by
  -- every move but `deliver` leaves the arrivals of every process alone
  have hset : ∀ (e : δ) {p : Process.State δ}, p.hist.arrivals = (s.procs e).hist.arrivals →
      r ∈ ((s.setProc e p).procs d).hist.arrivals → r ∈ (s.procs d).hist.arrivals := by
    intro e p hp hr
    by_cases hd : d = e
    · subst hd
      rwa [setProc_self, hp] at hr
    · rwa [setProc_of_ne _ _ hd] at hr
  cases h with
  | tick ns => exact .inl hr
  | route k m hk => exact .inl hr
  | crash e => exact .inl (hset e (p := (s.procs e).fault) rfl hr)
  | proc e a p ha h => exact .inl (hset e (step_local h ha).arrivals hr)
  | init e i ans p buf hpc h hbuf => exact .inl (hset e (by rw [(step_pub h).frame.hist]) hr)
  | stamp e i ans p buf hpc h hclock hbuf => exact .inl (hset e (by rw [(step_pub h).frame.hist]) hr)
  | issue e i ans p hpc h hiss hlen =>
      exact .inl (hset e (by rw [(step_pub h).frame.hist]) hr)
  | unsent e i ans p q hpc h hlose =>
      have hlost := (step_local hlose trivial).arrivals
      exact .inl (hset e (by rw [hlost, (step_pub h).frame.hist]) hr)
  | pub e i ans p hstart hstamp h hiss => exact .inl (hset e (by rw [(step_pub h).frame.hist]) hr)
  | deliver e k m beyond p hk h =>
      have hrun := step_running h
      obtain ⟨-, rfl⟩ := step_arrive h
      by_cases hd : d = e
      · subst hd
        simp only [setProc_self] at hr
        rcases List.mem_append.mp hr with hr | hr
        · exact .inl hr
        · rw [List.mem_singleton.mp hr]
          exact .inr ⟨hrun, m, List.mem_of_getElem? hk, beyond, rfl⟩
      · simp only [setProc_of_ne _ _ hd] at hr
        exact .inl hr

/-- Only what was sent to a process arrives there. -/
theorem Move.arrivals (h : Move D s s') {d : δ} {r : Message δ × UInt64}
    (hr : r ∈ (s'.procs d).hist.arrivals) :
    r ∈ (s.procs d).hist.arrivals
      ∨ (s.procs d).outcome = .running ∧ ∃ m ∈ s.queue d, ∃ b, r.1 = { m with beyond := b } := by
  rcases h.arrivals_clock hr with hold | ⟨hrun, m, hmem, b, heq⟩
  · exact .inl hold
  · exact .inr ⟨hrun, m, hmem, b, by rw [heq]⟩

/-- Every message of the cluster, under way or arrived, has `Q`. -/
structure Everywhere (Q : Message δ → Prop) (s : State δ) : Prop where
  inbox : ∀ m ∈ s.inbox, Q m
  queue : ∀ d, ∀ m ∈ s.queue d, Q m
  arrivals : ∀ d, ∀ r ∈ (s.procs d).hist.arrivals, Q r.1

/-- **The broker makes no messages**: a move keeps `Q` everywhere when a
publish sends only messages with `Q`. -/
theorem Everywhere.move {Q : Message δ → Prop} (hbeyond : ∀ m b, Q m → Q { m with beyond := b })
    (hQ : Everywhere Q s) (hm : Move D s s')
    (hpub : ∀ d i tok, ∀ m ∈ message D s d i tok, ((s.procs d).pubs i).pc = .publish →
      0 ≤ (D.config d).payloadSize.toInt32.toInt → Q m) :
    Everywhere Q s' := by
  obtain ⟨h1, h2, h3⟩ := hQ
  refine ⟨?_, ?_, ?_⟩
  · intro m hmem
    rcases hm.inbox hmem with hold | ⟨d, i, tok, hsent, hpc, -, hlen⟩
    · exact h1 m hold
    · exact hpub d i tok m hsent hpc hlen
  -- what waits for a process was in the inbox before
  · intro d m hmem
    rcases hm.queue hmem with hold | ⟨hold, -⟩
    · exact h2 d m hold
    · exact h1 m hold
  · intro d r hmem
    rcases hm.arrivals hmem with hold | ⟨-, m, hold, b, hr⟩
    · exact h3 d r hold
    · rw [hr]
      exact hbeyond m b (h2 d m hold)

end MqttBenchmark.Cluster
