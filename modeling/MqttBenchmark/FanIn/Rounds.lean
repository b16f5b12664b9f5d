/-
  MqttBenchmark.FanIn.Rounds
  ──────────────────────────
  **WHEN THE ROUNDS OF `fan_in` STAY APART.**

  The kill of a round is one message; it reaches the publishers that are
  subscribed to `pubkill` when the broker handles it, and `kill_pubs` does
  not wait for any of them.

    • `RoundsSeparate` — a round reports only messages of its own
      publishers, and they are over when its `kill_pubs` has returned,
    • `Timely` — what a step must not be too early for,
    • `Inv` — the rounds, their processes and their messages,
    • `rounds_separate` — runs whose steps are timely keep the rounds apart.
-/
import MqttBenchmark.FanIn.Def
import MqttBenchmark.Process.Stopped

namespace MqttBenchmark.FanIn

open Lib Lib.System Function Process Cluster

variable {S : Setup} {s s' : State}

/-! ## §1. What a round promises. -/

/-- A message published by a publisher of round `r`. -/
def FromRound (S : Setup) (r : Nat) (m : Message ProcId) : Prop :=
  ∃ k < (S.pubDevs r).length, m.origin = ⟨r, .pub k⟩

/-- `kill_pubs` of round `r` has returned. -/
def Returned (s : State) (r : Nat) : Prop := r < s.round ∨ r = s.round ∧ s.pc = .append

/-- The rounds do not contaminate each other. -/
structure RoundsSeparate (S : Setup) (s : State) : Prop where
  /-- What is reported for a round comes from its own publishers. -/
  reported : ∀ r out, s.outs[r]? = some out → ∀ x ∈ out, FromRound S r x.1
  /-- So does everything its subscriber stores. -/
  stored : ∀ r, ∀ x ∈ (s.net.procs ⟨r, .sub⟩).hist.recorded, FromRound S r x.1
  /-- When `kill_pubs` has returned no publisher of the round publishes, -/
  finished : ∀ r, Returned s r → ∀ k < (S.pubDevs r).length, Over (s.net.procs ⟨r, .pub k⟩)
  /-- nor will it ever, whatever happens from there on. -/
  silent : ∀ r, Returned s r → ∀ k < (S.pubDevs r).length, ∀ t, (system S).Leads s t →
    (t.net.procs ⟨r, .pub k⟩).paho.issued = (s.net.procs ⟨r, .pub k⟩).paho.issued

/-! ## §2. What a step must wait for. -/

/-- A publisher that runs has nothing under way: no kill waits for it or is
being handled, every posted stop is taken, and its last call has returned. -/
def Settled (n : Cluster.State ProcId) (p : ProcId) : Prop :=
  (n.procs p).outcome = .running →
    n.queue p = [] ∧ (n.procs p).callback.isIdle = true ∧ (n.procs p).stopPublish.value = 0
      ∧ ((n.procs p).pubs 0).pc ≠ .unsubscribe

/-- The broker handles a kill when every publisher of its round that runs has
subscribed to `pubkill`; `kill_pubs` returns when no message is on its way to
the broker and every publisher of the round is settled. -/
def Timely (S : Setup) (s : State) : Action → Prop
  | .net (.route k) => ∀ m ∈ s.net.inbox[k]?, m.origin.role = .manager →
      ∀ j < (S.pubDevs m.origin.round).length,
        (s.net.procs ⟨m.origin.round, .pub j⟩).outcome = .running →
          pubkill ∈ (s.net.procs ⟨m.origin.round, .pub j⟩).paho.subscribed
  | .script _ => s.pc = .waitSync →
      s.net.inbox = [] ∧ ∀ j < (S.pubDevs s.round).length, Settled s.net ⟨s.round, .pub j⟩
  | _ => True

instance (n : Cluster.State ProcId) (p : ProcId) : Decidable (Settled n p) :=
  inferInstanceAs (Decidable (_ → _))

instance (S : Setup) (s : State) : ∀ a, Decidable (Timely S s a)
  | .net (.route k) => inferInstanceAs (Decidable (∀ m ∈ s.net.inbox[k]?, _))
  | .script _ => inferInstanceAs (Decidable (_ → _))
  | .onPublish | .net (.tick _) | .net (.proc _ _) | .net (.deliver _ _ _) =>
      inferInstanceAs (Decidable True)

/-! ## §3. A kill under way. -/

section Kill

variable {δ : Type} [DecidableEq δ] {D : Deployment δ} {n n' : Cluster.State δ} {d : δ}

omit [DecidableEq δ] in
theorem running_of_move {p p' : Process.State δ} (hm : ProcMove D d p p')
    (hrun : p'.outcome = .running) : p.outcome = .running := by
  cases hm with
  | same => exact hrun
  | step a h => exact step_running h
  | steps a b h h' => exact step_running h
  | crash => cases hrun

omit [DecidableEq δ] in
theorem over_of_move {p p' : Process.State δ} (hp : IsProcess D d p) (ho : Over p)
    (hm : ProcMove D d p p') : Over p' := by
  cases hm with
  | same => exact ho
  | step a h => exact ho.step (hp.reachable (step_running h)) h
  | steps a b h h' =>
      have hp' := hp.move (.step a h)
      have ho' := ho.step (hp.reachable (step_running h)) h
      exact ho'.step (hp'.reachable (step_running h')) h'
  -- a faulted process does not run
  | crash => exact .inl (by simp)

/-- A kill waits for the process or has reached it, if it runs. -/
def KillComing (n : Cluster.State δ) (d : δ) : Prop :=
  (n.procs d).outcome = .running →
    (∃ m ∈ n.queue d, m.topicName = pubkill) ∨ KillSeen (n.procs d)

theorem mem_eraseIdx {α : Type} {l : List α} {x y : α} {k : Nat} (hx : x ∈ l) (hk : l[k]? = some y)
    (hne : x ≠ y) : x ∈ l.eraseIdx k := by
  obtain ⟨i, hi⟩ := List.mem_iff_getElem?.mp hx
  rw [List.mem_eraseIdx_iff_getElem?]
  refine ⟨i, ?_, hi⟩
  rintro rfl
  rw [hk] at hi
  exact hne (Option.some.inj hi).symm

omit [DecidableEq δ] in
theorem mem_broadcast_of_mem {m m' : Message δ} (h : m' ∈ n.queue d) : m' ∈ broadcast n m d := by
  unfold broadcast
  split
  · exact List.mem_append_left _ h
  · exact h

theorem KillComing.move (h : KillComing n d) (hm : Move D n n') : KillComing n' d := by
  intro hrun'
  have hproc := hm.procs d
  have hrun := running_of_move hproc hrun'
  -- the kill still waits in the queue, or it has arrived before
  rcases h hrun with ⟨m, hmem, htopic⟩ | hseen
  · cases hm with
    | route k m' hk => exact .inl ⟨m, mem_broadcast_of_mem hmem, htopic⟩
    | deliver e k m' beyond p hk hp =>
        by_cases hd : d = e
        · subst hd
          by_cases heq : m = m'
          · -- this message arrives
            subst heq
            obtain ⟨-, rfl⟩ := step_arrive hp
            refine .inr (.inl ⟨{ m with beyond := beyond }, D.clock d n.now, ?_, htopic⟩)
            simp
          · refine .inl ⟨m, ?_, htopic⟩
            simp only [update_self]
            exact mem_eraseIdx hmem hk heq
        · refine .inl ⟨m, ?_, htopic⟩
          simp only [update_of_ne hd]
          exact hmem
    | _ => exact .inl ⟨m, hmem, htopic⟩
  · right
    generalize n'.procs d = p' at hproc hrun'
    cases hproc with
    | same => exact hseen
    | step a hp => exact hseen.step hp
    | steps a b hp hp' => exact (hseen.step hp).step hp'
    | crash => cases hrun'

end Kill

/-! ## §4. The invariant. -/

/-- The subscriber of round `r` has ended: `communicate` has returned. -/
def Communicated (s : State) (r : Nat) : Prop :=
  r < s.round ∨ r = s.round ∧ (s.pc = .publishKill ∨ s.pc = .waitSync ∨ s.pc = .append
    ∨ s.pc = .raised)

/-- **The rounds, their processes and their messages.** -/
structure Inv (S : Setup) (s : State) : Prop where
  procs : ∀ p, IsProcess S.deployment p (s.net.procs p)
  fresh : ∀ p, deployed S s p = false → s.net.procs p = Process.initial ∧ s.net.queue p = []
  inbox : ∀ m ∈ s.net.inbox, m.origin.round = s.round
    ∧ (FromRound S s.round m ∧ m.topicName = "topic"
      ∨ m.origin.role = .manager ∧ m.topicName = pubkill)
  empty : s.pc = .append → s.net.inbox = []
  killed : s.pc = .waitSync → (∃ m ∈ s.net.inbox, m.origin.role = .manager)
    ∨ ∀ k < (S.pubDevs s.round).length, KillComing s.net ⟨s.round, .pub k⟩
  finished : ∀ r, Returned s r → ∀ k < (S.pubDevs r).length, Over (s.net.procs ⟨r, .pub k⟩)
  ended : ∀ r, Communicated s r → (s.net.procs ⟨r, .sub⟩).outcome ≠ .running
  queue : ∀ r, (s.net.procs ⟨r, .sub⟩).outcome = .running →
    ∀ m ∈ s.net.queue ⟨r, .sub⟩, FromRound S r m
  arrivals : ∀ r, ∀ x ∈ (s.net.procs ⟨r, .sub⟩).hist.arrivals, FromRound S r x.1
  outs : ∀ r out, s.outs[r]? = some out → ∀ x ∈ out, FromRound S r x.1
  rounds : s.outs.length = s.round

/-- What a subscriber stores comes from its round. -/
theorem Inv.recorded (hi : Inv S s) {r : Nat} {x : Sample}
    (hx : x ∈ (s.net.procs ⟨r, .sub⟩).hist.recorded) : FromRound S r x.1 :=
  hi.arrivals r _ ((hi.procs ⟨r, .sub⟩).arrived hx)

/-- Only publishers have publish threads. -/
theorem numPubs_eq_zero {p : ProcId} (h : ∀ k, p.role ≠ .pub k) :
    (S.deployment.config p).numPubs = 0 := by
  obtain ⟨r, role⟩ := p
  cases role with
  | pub k => exact absurd rfl (h k)
  | sub => rfl
  | manager => rfl

theorem numPubs_pub (r k : Nat) : (S.deployment.config ⟨r, .pub k⟩).numPubs = 1 := rfl

/-- A process about to publish is a publisher of the current round. -/
theorem Inv.publishing (hi : Inv S s) {p : ProcId} {i : Nat}
    (hpc : ((s.net.procs p).pubs i).pc = .publish) (hrun : (s.net.procs p).outcome = .running) :
    s.pc ≠ .append ∧ p.round = s.round
      ∧ ∃ k < (S.pubDevs s.round).length, p = ⟨s.round, .pub k⟩ := by
  have hreach := (hi.procs p).reachable hrun
  -- neither a subscriber nor the manager has a publish thread
  have hrole : ∃ k, p.role = .pub k := by
    by_contra hno
    exact not_publish hreach (numPubs_eq_zero fun k hk => hno ⟨k, hk⟩) i hpc
  obtain ⟨r, role⟩ := p
  obtain ⟨k, rfl⟩ := hrole
  -- a process that has not been deployed stands at its initial state
  have hdep : deployed S s ⟨r, .pub k⟩ = true := by
    by_contra hno
    rw [(hi.fresh _ (by simpa using hno)).1] at hpc
    cases hpc
  simp only [deployed, Bool.and_eq_true, Bool.or_eq_true, decide_eq_true_eq, beq_iff_eq] at hdep
  obtain ⟨hk, hround⟩ := hdep
  -- a round that is over has no publisher left
  have hnot : ¬ Returned s r := fun hret =>
    (hi.finished r hret k hk).not_publish hreach (numPubs_pub r k).le hrun i hpc
  have hr : r = s.round := by
    rcases hround with hlt | ⟨hr, -⟩
    · exact absurd (.inl hlt) hnot
    · exact hr
  subst hr
  exact ⟨fun hpc => hnot (.inr ⟨rfl, hpc⟩), rfl, k, hk, rfl⟩

section Net

variable {a : Cluster.Action ProcId} {n : Cluster.State ProcId}

theorem Inv.net_fresh (hi : Inv S s) (hallow : allowed S s a = true)
    (h : Cluster.step S.deployment s.net a = some n) {p : ProcId} (hp : deployed S s p = false) :
    n.procs p = Process.initial ∧ n.queue p = [] := by
  obtain ⟨hinit, hqueue⟩ := hi.fresh p hp
  -- only deployed processes act, and the broker sends to subscribers only
  have hactor : a.actor ≠ some p := by
    intro heq
    rw [allowed, heq] at hallow
    rw [show deployed S s p = true from hallow] at hp
    cases hp
  refine ⟨((step_frame h).2 p hactor).trans hinit, ?_⟩
  rw [List.eq_nil_iff_forall_not_mem]
  intro m hm
  rcases (step_move h).queue hm with hold | ⟨-, hsub⟩
  · rw [hqueue] at hold
    cases hold
  · rw [hinit] at hsub
    cases hsub

theorem Inv.net_inbox (hi : Inv S s) (hm : Move S.deployment s.net n) :
    ∀ m ∈ n.inbox, m.origin.round = s.round
      ∧ (FromRound S s.round m ∧ m.topicName = "topic"
        ∨ m.origin.role = .manager ∧ m.topicName = pubkill) := by
  intro m hmem
  rcases hm.inbox hmem with hold | ⟨p, i, tok, hsent, hpc, hrun, -⟩
  · exact hi.inbox m hold
  · obtain ⟨htopic, rfl, -⟩ := exists_of_message hsent
    obtain ⟨-, hround, k, hk, horigin⟩ := hi.publishing hpc hrun
    refine ⟨by rw [horigin, ← hround, horigin], .inl ⟨⟨k, hk, horigin⟩, ?_⟩⟩
    rw [htopic, horigin]
    rfl

theorem Inv.net_empty (hi : Inv S s) (hm : Move S.deployment s.net n) (hpc : s.pc = .append) :
    n.inbox = [] := by
  rw [List.eq_nil_iff_forall_not_mem]
  intro m hmem
  rcases hm.inbox hmem with hold | ⟨p, i, tok, -, hpub, hrun, -⟩
  · rw [hi.empty hpc] at hold
    cases hold
  -- at `append` no publisher of any round publishes
  · exact (hi.publishing hpub hrun).1 hpc

/-- **The kill of a round is not lost**, when the broker handles it in time. -/
theorem Inv.net_killed (hi : Inv S s) (htimely : Timely S s (.net a))
    (h : Cluster.step S.deployment s.net a = some n) (hpc : s.pc = .waitSync) :
    (∃ m ∈ n.inbox, m.origin.role = .manager)
      ∨ ∀ k < (S.pubDevs s.round).length, KillComing n ⟨s.round, .pub k⟩ := by
  rcases hi.killed hpc with ⟨m, hmem, hrole⟩ | hcoming
  · by_cases hroute : ∃ k, a = .route k
    · obtain ⟨k, rfl⟩ := hroute
      simp only [Timely] at htimely
      simp only [Cluster.step] at h
      cases hk : s.net.inbox[k]? with
      | none => rw [hk] at h; cases h
      | some m' =>
          rw [hk] at h
          cases h
          have hin := hi.inbox m' (List.mem_of_getElem? hk)
          by_cases hrole' : m'.origin.role = .manager
          · have htopic : m'.topicName = pubkill := by
              rcases hin.2 with ⟨⟨i, -, horigin⟩, -⟩ | ⟨-, htopic⟩
              · rw [horigin] at hrole'
                cases hrole'
              · exact htopic
            -- this is the kill: every publisher that runs gets it
            refine .inr fun j hj hrun => .inl ⟨m', ?_, htopic⟩
            have hsub := htimely m' hk hrole' j (by rw [hin.1]; exact hj) (by rw [hin.1]; exact hrun)
            rw [hin.1, ← htopic] at hsub
            show m' ∈ broadcast s.net m' _
            rw [broadcast, if_pos hsub]
            exact List.mem_append_right _ (List.mem_singleton_self _)
          -- another message was handled: the kill is still in the inbox
          · refine .inl ⟨m, mem_eraseIdx hmem hk ?_, hrole⟩
            rintro rfl
            exact hrole' hrole
    -- no other step takes anything out of the inbox
    · obtain ⟨ms, hms⟩ := (step_frame h).1 fun k hk => hroute ⟨k, hk⟩
      refine .inl ⟨m, ?_, hrole⟩
      rw [hms]
      exact List.mem_append_left _ hmem
  · exact .inr fun k hk => (hcoming k hk).move (step_move h)

/-- What waits for a subscriber comes from its own round. -/
theorem Inv.net_queue (hi : Inv S s) (hm : Move S.deployment s.net n) (r : Nat)
    (hrun' : (n.procs ⟨r, .sub⟩).outcome = .running) : ∀ m ∈ n.queue ⟨r, .sub⟩, FromRound S r m := by
  intro m hmem
  have hrun := running_of_move (hm.procs ⟨r, .sub⟩) hrun'
  rcases hm.queue hmem with hold | ⟨hin, hsub⟩
  · exact hi.queue r hrun m hold
  -- the subscriber has subscribed, so it is deployed and has not ended
  have hdep : deployed S s ⟨r, .sub⟩ = true := by
    by_contra hno
    rw [(hi.fresh _ (by simpa using hno)).1] at hsub
    cases hsub
  simp only [deployed, Bool.or_eq_true, Bool.and_eq_true, decide_eq_true_eq, beq_iff_eq] at hdep
  have hr : r = s.round := by
    rcases hdep with hlt | ⟨hr, -⟩
    · exact absurd hrun (hi.ended r (.inl hlt))
    · exact hr
  subst hr
  rcases (hi.inbox m hin).2 with ⟨hfrom, -⟩ | ⟨-, htopic⟩
  · exact hfrom
  · -- it did not subscribe to `pubkill`
    rcases subscribed_sound ((hi.procs _).reachable hrun) _ hsub with ⟨-, heq⟩ | ⟨hpubs, -⟩
    · rw [htopic] at heq
      exact absurd heq (show pubkill ≠ "topic" by decide)
    · exact absurd hpubs (by rw [numPubs_eq_zero (by simp)]; exact Nat.lt_irrefl 0)

/-- **A step of the cluster keeps the rounds apart.** -/
theorem Inv.net (hi : Inv S s) (htimely : Timely S s (.net a)) (hallow : allowed S s a = true)
    (h : Cluster.step S.deployment s.net a = some n) (acked : Bool) :
    Inv S { s with net := n, acked := acked } := by
  have hm := step_move h
  refine ⟨fun p => (hi.procs p).move (hm.procs p), fun p hp => hi.net_fresh hallow h hp,
    hi.net_inbox hm, hi.net_empty hm, hi.net_killed htimely h, ?_, ?_,
    hi.net_queue hm, ?_, hi.outs, hi.rounds⟩
  · intro r hr k hk
    exact over_of_move (hi.procs _) (hi.finished r hr k hk) (hm.procs _)
  · intro r hr
    exact fun hrun => hi.ended r hr (running_of_move (hm.procs _) hrun)
  · intro r x hx
    rcases hm.arrivals hx with hold | ⟨hrun, m, hmem, b, heq⟩
    · exact hi.arrivals r x hold
    · obtain ⟨k, hk, horigin⟩ := hi.queue r hrun m hmem
      exact ⟨k, hk, by rw [heq]; exact horigin⟩

end Net

/-! ## §5. The script. -/

theorem initial_inv : Inv S initial := by
  refine ⟨fun p => IsProcess.initial, fun p _ => ⟨rfl, rfl⟩, ?_, fun _ => rfl, ?_,
    ?_, ?_, ?_, ?_, ?_, rfl⟩
  · simp [initial, Cluster.initial]
  · intro hpc
    cases hpc
  · intro r hr
    rcases hr with hlt | ⟨-, hpc⟩
    · exact absurd hlt (Nat.not_lt_zero r)
    · cases hpc
  · intro r hr
    rcases hr with hlt | ⟨-, hpc | hpc | hpc | hpc⟩
    · exact absurd hlt (Nat.not_lt_zero r)
    all_goals cases hpc
  · simp [initial, Cluster.initial]
  · simp [initial, Cluster.initial, Process.initial]
  · simp [initial]

/-- A statement of the script that only moves on. -/
theorem Inv.advance (hi : Inv S s) {pc : ScriptPC} (happend : pc ≠ .append)
    (hwait : pc ≠ .waitSync)
    (hdep : ∀ p, deployed S { s with pc := pc } p = false → deployed S s p = false)
    (hended : ∀ r, Communicated { s with pc := pc } r →
      (s.net.procs ⟨r, .sub⟩).outcome ≠ .running) : Inv S { s with pc := pc } := by
  obtain ⟨h1, h2, h3, h4, h5, h6, h7, h8, h9, h10, h11⟩ := hi
  refine ⟨h1, fun p hp => h2 p (hdep p hp), h3, fun h => absurd h happend, fun h => absurd h hwait,
    ?_, hended, h8, h9, h10, h11⟩
  intro r hr
  rcases hr with hlt | ⟨-, h⟩
  · exact h6 r (.inl hlt)
  · exact absurd h happend

theorem deployed_of_pcs {pc : ScriptPC} (hsub : s.pc.subDeployed = true → pc.subDeployed = true)
    (hpubs : s.pc.pubsDeployed = true → pc.pubsDeployed = true) (p : ProcId)
    (h : deployed S { s with pc := pc } p = false) : deployed S s p = false := by
  obtain ⟨r, role⟩ := p
  cases role with
  | manager => rfl
  | sub =>
      simp only [deployed, Bool.or_eq_false_iff, Bool.and_eq_false_iff] at h ⊢
      refine ⟨h.1, h.2.imp_right ?_⟩
      intro hpc
      by_contra hne
      rw [hsub (by simpa using hne)] at hpc
      cases hpc
  | pub k =>
      simp only [deployed, Bool.or_eq_false_iff, Bool.and_eq_false_iff] at h ⊢
      refine h.imp_right fun h => ⟨h.1, h.2.imp_right ?_⟩
      intro hpc
      by_contra hne
      rw [hpubs (by simpa using hne)] at hpc
      cases hpc

/-- `kill_pubs` sends its message. -/
theorem Inv.publishKill (hi : Inv S s) (hpc : s.pc = .publishKill) (acked : Bool) :
    Inv S { s with net := { s.net with inbox := s.net.inbox ++ [kill s.round] }, pc := .waitSync,
                   acked := acked } := by
  obtain ⟨h1, h2, h3, h4, h5, h6, h7, h8, h9, h10, h11⟩ := hi
  refine ⟨h1, fun p hp => h2 p (deployed_of_pcs ?_ ?_ p hp), ?_, by simp,
    fun _ => .inl ⟨kill s.round, List.mem_append_right _ (List.mem_singleton_self _), rfl⟩,
    ?_, ?_, h8, h9, h10, h11⟩
  · simp [ScriptPC.subDeployed]
  · simp [ScriptPC.pubsDeployed]
  · intro m hm
    rcases List.mem_append.mp hm with hm | hm
    · exact h3 m hm
    · rw [List.mem_singleton.mp hm]
      exact ⟨rfl, .inr ⟨rfl, rfl⟩⟩
  · intro r hr
    rcases hr with hlt | ⟨-, h⟩
    · exact h6 r (.inl hlt)
    · cases h
  · intro r hr
    rcases hr with hlt | ⟨hr, -⟩
    · exact h7 r (.inl hlt)
    · exact h7 r (.inr ⟨hr, .inl hpc⟩)

/-- **`kill_pubs` returns in time**: the publishers of the round are over. -/
theorem Inv.returns (hi : Inv S s) (hpc : s.pc = .waitSync) (hinbox : s.net.inbox = [])
    (hsettled : ∀ j < (S.pubDevs s.round).length, Settled s.net ⟨s.round, .pub j⟩) :
    Inv S { s with pc := .append } := by
  -- the kill is not in the inbox and not in a queue, so it was seen and taken
  have hover : ∀ k < (S.pubDevs s.round).length, Over (s.net.procs ⟨s.round, .pub k⟩) := by
    intro k hk
    by_cases hrun : (s.net.procs ⟨s.round, .pub k⟩).outcome = .running
    · obtain ⟨hqueue, hidle, hvalue, hcall⟩ := hsettled k hk hrun
      have hcoming : KillComing s.net ⟨s.round, .pub k⟩ := by
        rcases hi.killed hpc with ⟨m, hm, -⟩ | hall
        · rw [hinbox] at hm
          cases hm
        · exact hall k hk
      rcases hcoming hrun with ⟨m, hm, -⟩ | hseen
      · rw [hqueue] at hm
        cases hm
      · exact over_of_taken ((hi.procs _).reachable hrun) (numPubs_pub _ k).le hseen hidle hvalue
          hcall
    · exact .inl hrun
  obtain ⟨h1, h2, h3, h4, h5, h6, h7, h8, h9, h10, h11⟩ := hi
  refine ⟨h1, fun p hp => h2 p (deployed_of_pcs ?_ ?_ p hp), h3, fun _ => hinbox,
    by simp, ?_, ?_, h8, h9, h10, h11⟩
  · simp [ScriptPC.subDeployed]
  · simp [ScriptPC.pubsDeployed]
  · intro r hr
    rcases hr with hlt | ⟨rfl, -⟩
    · exact h6 r (.inl hlt)
    · exact hover
  · intro r hr
    rcases hr with hlt | ⟨hr, -⟩
    · exact h7 r (.inl hlt)
    · exact h7 r (.inr ⟨hr, .inr (.inl hpc)⟩)

/-- The output of the round is kept and the next round begins. -/
theorem Inv.nextRound (hi : Inv S s) (hpc : s.pc = .append) :
    Inv S { s with outs := s.outs ++ [(s.net.procs ⟨s.round, .sub⟩).hist.recorded],
                   round := s.round + 1, pc := .deploySub } := by
  have hrec : ∀ x ∈ (s.net.procs ⟨s.round, .sub⟩).hist.recorded, FromRound S s.round x.1 :=
    fun x hx => hi.recorded hx
  obtain ⟨h1, h2, h3, h4, h5, h6, h7, h8, h9, h10, h11⟩ := hi
  -- what is not deployed in the next round was not deployed in this one
  refine ⟨h1, fun p hp => h2 p ?_, ?_, by simp, by simp,
    ?_, ?_, h8, h9, ?_, ?_⟩
  · obtain ⟨r, role⟩ := p
    cases role with
    | manager => rfl
    | sub =>
        simp only [deployed, Bool.or_eq_false_iff, decide_eq_false_iff_not] at hp ⊢
        obtain ⟨hlt, -⟩ := hp
        exact ⟨by omega, by rw [beq_false_of_ne (by omega)]; rfl⟩
    | pub k =>
        simp only [deployed, Bool.or_eq_false_iff, Bool.and_eq_false_iff,
          decide_eq_false_iff_not] at hp ⊢
        apply hp.imp_right
        intro hround
        have hlt := hround.1
        exact ⟨by omega, .inl (beq_false_of_ne (by omega))⟩
  · intro m hm
    rw [h4 hpc] at hm
    cases hm
  · intro r hr
    rcases hr with hlt | ⟨-, h⟩
    · rcases Nat.lt_succ_iff_lt_or_eq.mp hlt with hlt | rfl
      · exact h6 r (.inl hlt)
      · exact h6 s.round (.inr ⟨rfl, hpc⟩)
    · cases h
  · intro r hr
    rcases hr with hlt | ⟨-, h | h | h | h⟩
    · rcases Nat.lt_succ_iff_lt_or_eq.mp hlt with hlt | rfl
      · exact h7 r (.inl hlt)
      · exact h7 s.round (.inr ⟨rfl, .inr (.inr (.inl hpc))⟩)
    all_goals cases h
  -- the earlier outputs are kept, the last one is of this round
  · intro r out hout
    by_cases hr : r < s.outs.length
    · rw [List.getElem?_append_left hr] at hout
      exact h10 r out hout
    · rw [List.getElem?_append_right (by omega), List.getElem?_singleton] at hout
      split at hout
      next heq =>
        cases hout
        obtain rfl : r = s.round := by omega
        exact hrec
      next => cases hout
  · simp [h11]

/-- **One statement of the script, taken in time, keeps the rounds apart.** -/
theorem Inv.script (hi : Inv S s) {ok : Bool} (htimely : Timely S s (.script ok))
    (h : scriptStep S s ok = some s') : Inv S s' := by
  unfold scriptStep at h
  split at h
  next hpc =>
    split at h <;> cases h
    refine hi.advance (by simp) (by simp) (deployed_of_pcs ?_ ?_) ?_
    · simp [ScriptPC.subDeployed]
    · simp [hpc, ScriptPC.pubsDeployed]
    · intro r hr
      exact hi.ended r (.inl (hr.resolve_right (by simp)))
  next hpc =>
    cases h
    refine hi.advance (by simp) (by simp) (deployed_of_pcs ?_ ?_) ?_
    · simp [ScriptPC.subDeployed]
    · simp [ScriptPC.pubsDeployed]
    · intro r hr
      exact hi.ended r (.inl (hr.resolve_right (by simp)))
  next hpc =>
    split at h <;> cases h
    next hend =>
      refine hi.advance (by simp) (by simp) (deployed_of_pcs ?_ ?_) ?_
      · simp [ScriptPC.subDeployed]
      · simp [ScriptPC.pubsDeployed]
      · intro r hr
        rcases hr with hlt | ⟨rfl, -⟩
        · exact hi.ended r (.inl hlt)
        · exact hend
  next hpc =>
    split at h <;> cases h
    · exact hi.publishKill hpc false
    · refine hi.advance (by simp) (by simp) (deployed_of_pcs ?_ ?_) ?_
      · simp [ScriptPC.subDeployed]
      · simp [ScriptPC.pubsDeployed]
      · intro r hr
        rcases hr with hlt | ⟨hr, -⟩
        · exact hi.ended r (.inl hlt)
        · exact hi.ended r (.inr ⟨hr, .inl hpc⟩)
  next hpc =>
    split at h <;> cases h
    obtain ⟨hinbox, hsettled⟩ := htimely hpc
    exact hi.returns hpc hinbox hsettled
  next hpc => cases h; exact hi.nextRound hpc
  next => cases h

/-- **The invariant holds in every run whose steps are timely.** -/
theorem inv_of_timely (h : (system S).LeadsWhen (Timely S) initial s) : Inv S s := by
  apply h.induct initial_inv
  intro s a s' _ hi htimely hstep
  cases a with
  | script ok => exact hi.script htimely hstep
  | onPublish =>
      have hstep : step S s .onPublish = some s' := hstep
      simp only [step] at hstep
      split at hstep <;> cases hstep
      obtain ⟨h1, h2, h3, h4, h5, h6, h7, h8, h9, h10, h11⟩ := hi
      exact ⟨h1, h2, h3, h4, h5, h6, h7, h8, h9, h10, h11⟩
  | net a =>
      have hstep : step S s (.net a) = some s' := hstep
      simp only [step] at hstep
      split at hstep
      next hallow =>
        obtain ⟨n, hn, rfl⟩ := Option.map_eq_some_iff.mp hstep
        exact hi.net htimely hallow hn _
      next => cases hstep

/-! ## §6. The rounds stay apart. -/

/-- What any step does to one process, in time or not. -/
theorem step_procs {a : Action} (h : step S s a = some s') (p : ProcId) :
    ProcMove S.deployment p (s.net.procs p) (s'.net.procs p) := by
  cases a with
  | script ok =>
      have h : scriptStep S s ok = some s' := h
      unfold scriptStep at h
      split at h
      next => split at h <;> cases h; exact .same
      next => cases h; exact .same
      next => split at h <;> cases h; exact .same
      next => split at h <;> cases h <;> exact .same
      next => split at h <;> cases h; exact .same
      next => cases h; exact .same
      next => cases h
  | onPublish =>
      simp only [step] at h
      split at h <;> cases h
      exact .same
  | net a =>
      simp only [step] at h
      split at h
      next =>
        obtain ⟨n, hn, rfl⟩ := Option.map_eq_some_iff.mp h
        exact (step_move hn).procs p
      next => cases h

/-- **A publisher that is over stays silent**, in every continuation. -/
theorem issued_of_over {t : State} {p : ProcId} (hp : IsProcess S.deployment p (s.net.procs p))
    (hpubs : (S.deployment.config p).numPubs ≤ 1) (ho : Over (s.net.procs p))
    (h : (system S).Leads s t) :
    (t.net.procs p).paho.issued = (s.net.procs p).paho.issued := by
  -- on the run: being over is kept, and a publisher that is over issues nothing
  refine (h.induct (P := fun t => IsProcess S.deployment p (t.net.procs p) ∧ Over (t.net.procs p)
    ∧ (t.net.procs p).paho.issued = (s.net.procs p).paho.issued) ⟨hp, ho, rfl⟩ ?_).2.2
  rintro t a u - ⟨hp, ho, hiss⟩ hstep
  have hm := step_procs hstep p
  refine ⟨hp.move hm, over_of_move hp ho hm, ?_⟩
  rw [← hiss]
  generalize u.net.procs p = q at hm ⊢
  cases hm with
  | same => rfl
  | crash => rfl
  | step a h => exact ho.issued_step (hp.reachable (step_running h)) hpubs h
  | steps a b h h' =>
      have hp' := hp.move (.step a h)
      have ho' := ho.step (hp.reachable (step_running h)) h
      calc q.paho.issued
        _ = _ := ho'.issued_step (hp'.reachable (step_running h')) hpubs h'
        _ = _ := ho.issued_step (hp.reachable (step_running h)) hpubs h

/-- **THE ROUNDS OF `fan_in` STAY APART IN EVERY RUN WHOSE STEPS ARE TIMELY**,
for every list of devices and every number of publishers. -/
theorem rounds_separate (S : Setup) (s : State)
    (h : (system S).LeadsWhen (Timely S) initial s) : RoundsSeparate S s := by
  have hi := inv_of_timely h
  refine ⟨hi.outs, fun r x hx => hi.recorded hx, hi.finished, ?_⟩
  intro r hr k hk t ht
  exact issued_of_over (hi.procs _) (numPubs_pub r k).le (hi.finished r hr k hk) ht

/-! ## §7. A round in time, and one that is too early. -/

/-- `fan_in --num=<num>` with `--iterations=1 --size=20 --qos=0`. -/
def fanIn (devices : List String) (num : Nat) : Setup where
  order := .little
  opts := ⟨1, 20, 0⟩
  hostname dev := ⟨(dev.toList.map fun c => UInt8.ofNat c.toNat).filter (· ≠ 0), by simp⟩
  rand _ _ := 0
  offset _ := 0
  slack _ := 0
  devices := devices
  num := num

/-- `k` steps of one process. -/
def acts (p : ProcId) (k : Nat) (a : Process.Action ProcId) : List Action :=
  List.replicate k (.net (.proc p a))

/-- A round in which `pub` alone supplies `sub`: it publishes twice, `sub`
stores one sample and ends, `pub` gets the kill and ends after one publish
more. -/
def roundSchedule (sub pub : ProcId) : List Action :=
  [.script true, .script true]
    ++ acts sub 6 (.main granted) ++ acts sub 4 (.sub 0 granted)
    ++ acts pub 6 (.main granted) ++ acts pub 15 (.pub 0 granted)
    ++ [.net (.route 0), .net (.route 0), .net (.deliver sub 0 [])] ++ acts sub 3 .callback
    ++ [.net (.deliver sub 0 [])] ++ acts sub 2 .callback
    ++ acts sub 3 (.sub 0 granted) ++ acts sub 8 (.main { granted with sorted := [0] })
    ++ [.script true, .script true, .net (.route 0), .onPublish, .net (.deliver pub 0 [])]
    ++ acts pub 1 .callback ++ acts pub 7 (.pub 0 granted)
    ++ [.net (.route 0), .script true, .script true]

/-- The first round of `hc-1` and `hc-2`, in time from start to end. -/
theorem rounds_separate_two_devices :
    ∃ s, s.round = 1 ∧ s.outs.map List.length = [1] ∧ RoundsSeparate (fanIn ["hc-1", "hc-2"] 1) s := by
  have hrun : ((system (fanIn ["hc-1", "hc-2"] 1)).runWhen (Timely (fanIn ["hc-1", "hc-2"] 1))
      (roundSchedule ⟨0, .sub⟩ ⟨0, .pub 0⟩) initial).map
        (fun s => (s.round, s.outs.map List.length)) = some (1, [1]) := by decide +kernel
  obtain ⟨s, hs, hout⟩ := Option.map_eq_some_iff.mp hrun
  obtain ⟨hround, hlen⟩ := Prod.mk.inj hout
  exact ⟨s, hround, hlen, rounds_separate (fanIn ["hc-1", "hc-2"] 1) s (leadsWhen_of_run _ hs)⟩

/-- Four devices, two publishers a round.  `hc-3` starts after the first round
is over: `fan_in` reports its message for the second round. -/
theorem rounds_separate_fails_for_late_publisher :
    ¬ ∀ s, (system (fanIn ["hc-1", "hc-2", "hc-3", "hc-4"] 2)).Reachable s →
        RoundsSeparate (fanIn ["hc-1", "hc-2", "hc-3", "hc-4"] 2) s := by
  intro hall
  -- in the second schedule the publisher is the second one of the first round
  have hrun : ((system (fanIn ["hc-1", "hc-2", "hc-3", "hc-4"] 2)).run
      (roundSchedule ⟨0, .sub⟩ ⟨0, .pub 0⟩ ++ roundSchedule ⟨1, .sub⟩ ⟨0, .pub 1⟩) initial).map
        (fun s => s.outs[1]?.map (List.map fun x => x.1.origin))
      = some (some [⟨0, .pub 1⟩]) := by decide +kernel
  obtain ⟨s, hs, hout⟩ := Option.map_eq_some_iff.mp hrun
  obtain ⟨out, hout, horigins⟩ := Option.map_eq_some_iff.mp hout
  obtain ⟨x, rfl, horigin⟩ := List.map_eq_singleton_iff.mp horigins
  obtain ⟨k, -, hk⟩ := (hall s (leads_of_run _ hs)).reported 1 _ hout x (List.mem_singleton_self x)
  rw [horigin] at hk
  cases hk

end MqttBenchmark.FanIn
