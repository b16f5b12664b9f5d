/-
  MqttBenchmark.Cluster.Runs
  ──────────────────────────
  **RUNS OF A CLUSTER THAT EXIST.**

  Each lemma says which devices take part (`A`), so that it can be used
  where only some processes are deployed.

    • `leads_locally` — what a process can do on its own it can do here,
    • `leads_issued` — a fresh publish thread publishes its first message,
    • `leads_sampled` — a message waiting for a process becomes a sample,
    • `leads_recorded` — from two processes that have not started, one
      records a sample of a message of the other.
-/
import MqttBenchmark.Cluster.Messages
import MqttBenchmark.Process.Runs

namespace MqttBenchmark.Cluster

open Lib Lib.System Function Process

variable {δ : Type} [DecidableEq δ] {D : Deployment δ} {s t : State δ} {A : δ → Prop}

/-! ## §1. One step. -/

/-- Only the processes in `A` act. -/
def Action.isBy (A : δ → Prop) (a : Action δ) : Prop := ∀ d, a.actor = some d → A d

omit [DecidableEq δ] in
theorem isBy_proc {d : δ} (hd : A d) (a : Process.Action δ) : (Action.proc d a).isBy A := by
  intro e he
  cases he
  exact hd

variable (D A) in
/-- Runs in which only the processes in `A` act. -/
def LeadsBy (s t : State δ) : Prop := (system D).LeadsWhen (fun _ a => a.isBy A) s t

/-- **What a process does on its own it can do in the cluster.** -/
theorem leads_locally {d : δ} (hd : A d) {p : Process.State δ}
    (h : LeadsLocally D.order (D.config d) (s.procs d) p) : LeadsBy D A s (s.setProc d p) := by
  induction h with
  | refl =>
      rw [setProc_eq_self]
      exact LeadsWhen.refl
  | @step p q a _ ha hstep ih =>
      apply LeadsWhen.step (a := .proc d a) ih (isBy_proc hd a)
      have hq : Process.step D.order (D.config d) ((s.setProc d p).procs d) a = some q := by
        rw [setProc_self]
        exact hstep
      -- the publish threads and arrivals are not local
      cases a with
      | pub i e => exact ha.elim
      | arrive m x => exact ha.elim
      | _ =>
          show (Process.step D.order (D.config d) ((s.setProc d p).procs d) _).map _ = _
          rw [hq, Option.map_some, setProc_setProc]

/-- A publish thread's step that moves no bytes. -/
theorem leads_pub_plain {d : δ} (hd : A d) (i : Nat) {p : Process.State δ}
    (hrun : (s.procs d).outcome = .running)
    (h : Process.publishStep (D.config d) (s.procs d) i { granted with clock := D.clock d s.now }
      = some p)
    (hstart : ((s.procs d).pubs i).pc ≠ .start) (hstamp : ((s.procs d).pubs i).pc ≠ .stamp)
    (hpub : ((s.procs d).pubs i).pc ≠ .publish) : LeadsBy D A s (s.setProc d p) := by
  apply LeadsWhen.single (a := .proc d (.pub i granted)) (isBy_proc hd _)
  show publishStep D s d i _ = _
  unfold publishStep
  simp only [Process.step, hrun, if_true, h]

theorem leads_pub_init {d : δ} (hd : A d) (i : Nat) (hrun : (s.procs d).outcome = .running)
    (hpc : ((s.procs d).pubs i).pc = .start) {buf : Bytes}
    (hbuf : initBuffer (D.config d) (D.rand d) (D.memory d) = some buf) :
    LeadsBy D A s ((s.setProc d ((s.procs d).setPub i .subscribe)).setPayload d i buf) := by
  apply LeadsWhen.single (a := .proc d (.pub i granted)) (isBy_proc hd _)
  show publishStep D s d i _ = _
  unfold publishStep
  simp only [Process.step, hrun, if_true, Process.publishStep, hpc, hbuf]

theorem leads_pub_stamp {d : δ} (hd : A d) (i : Nat) (hrun : (s.procs d).outcome = .running)
    (hpc : ((s.procs d).pubs i).pc = .stamp) {buf : Bytes}
    (hbuf : stampPayload D.order (D.config d) (s.payload d i) ((s.procs d).pubs i).it
      (D.clock d s.now) = some buf) :
    LeadsBy D A s ((s.setProc d
      { s.procs d with
        pubs := update (s.procs d).pubs i
          { (s.procs d).pubs i with pc := .publish, deliverTs := D.clock d s.now } }).setPayload
      d i buf) := by
  apply LeadsWhen.single (a := .proc d (.pub i granted)) (isBy_proc hd _)
  show publishStep D s d i _ = _
  unfold publishStep
  simp only [Process.step, hrun, if_true, Process.publishStep, hpc, hbuf]

/-- A process after publish thread `i` has issued a message with token 1. -/
def issuedBy (cfg : Config) (p : Process.State δ) (i : Nat) : Process.State δ :=
  { p with
    paho := { p.paho with
      issued := p.paho.issued + 1
      inflight := if cfg.qos ≠ 0 then p.paho.inflight ++ [(p.paho.issued, 1)]
                  else p.paho.inflight }
    pubs := update p.pubs i { p.pubs i with pc := .publishing 1, current := p.paho.issued } }

/-- The message of publish thread `i`, at a QoS up to 2. -/
def plainMessage (D : Deployment δ) (s : State δ) (d : δ) (i : Nat) : Message δ :=
  ⟨(D.config d).pub0, publishedPayload (D.config d) (s.payload d i), [], d⟩

omit [DecidableEq δ] in
theorem message_eq {d : δ} (hqos : (D.config d).qos ≤ 2) (i : Nat) (token : Int) :
    message D s d i token = some (plainMessage D s d i) := by
  unfold message
  rw [published_eq hqos]
  rfl

theorem leads_pub_issue {d : δ} (hd : A d) (i : Nat) (hrun : (s.procs d).outcome = .running)
    (hpc : ((s.procs d).pubs i).pc = .publish) (hlost : (s.procs d).paho.lost = false)
    (hint : (D.config d).payloadSize.toNat < 2 ^ 31) (hqos : (D.config d).qos ≤ 2) :
    LeadsBy D A s
      { s.setProc d (issuedBy (D.config d) (s.procs d) i) with
        inbox := s.inbox ++ [plainMessage D s d i] } := by
  have hlen : ¬ (D.config d).payloadSize.toInt32.toInt < 0 := by
    rw [payloadlen_of_lt hint]
    omega
  apply LeadsWhen.single (a := .proc d (.pub i granted)) (isBy_proc hd _)
  show publishStep D s d i _ = _
  unfold publishStep
  simp [Process.step, hrun, Process.publishStep, hpc, hlost, granted, issuedBy, plainMessage, hlen,
    published_eq hqos]

theorem leads_route (k : Nat) {m : Message δ} (hk : s.inbox[k]? = some m) :
    LeadsBy D A s { s with inbox := s.inbox.eraseIdx k, queue := broadcast s m } := by
  apply LeadsWhen.single (a := .route k) (fun _ h => nomatch h)
  simp only [system, step, hk]

/-! ## §2. A publish and a sample. -/

/-- `t` is `s` but for process `d`, which is `p`, and its payload buffers. -/
structure Advanced (s t : State δ) (d : δ) (p : Process.State δ) : Prop where
  now : t.now = s.now
  procs : t.procs = update s.procs d p
  inbox : t.inbox = s.inbox
  queue : t.queue = s.queue

theorem Advanced.self {d : δ} {p : Process.State δ} (h : Advanced s t d p) : t.procs d = p := by
  rw [h.procs, update_self]

theorem Advanced.trans {u : State δ} {d : δ} {p q : Process.State δ} (h₁ : Advanced s t d p)
    (h₂ : Advanced t u d q) : Advanced s u d q := by
  refine ⟨h₂.now.trans h₁.now, ?_, h₂.inbox.trans h₁.inbox, h₂.queue.trans h₁.queue⟩
  rw [h₂.procs, h₁.procs, update_idem]

theorem advanced_setProc (s : State δ) (d : δ) (p : Process.State δ) :
    Advanced s (s.setProc d p) d p :=
  ⟨rfl, rfl, rfl, rfl⟩

/-- A fresh publish thread initialises its payload, subscribes to `pubkill`
and enters its loop. -/
theorem leads_stamp {d : δ} (hd : A d) (i : Nat) (hrun : (s.procs d).outcome = .running)
    (hpc : ((s.procs d).pubs i).pc = .start) (hlost : (s.procs d).paho.lost = false)
    {buf : Bytes} (hinit : initBuffer (D.config d) (D.rand d) (D.memory d) = some buf) :
    ∃ t, LeadsBy D A s t ∧ t.payload d i = buf
      ∧ Advanced s t d
          ({ (s.procs d).addFilter pubkill with deliveredtoken := 0 }.setPub i .stamp) := by
  obtain ⟨s₁, hs₁, hbuf₁, hadv₁⟩ : ∃ t, LeadsBy D A s t ∧ t.payload d i = buf
      ∧ Advanced s t d ((s.procs d).setPub i .subscribe) :=
    ⟨_, leads_pub_init hd i hrun hpc hinit, setPayload_self .., rfl, rfl, rfl, rfl⟩
  have hproc := hadv₁.self
  -- SUBSCRIBE is sent, is acknowledged, then `deliveredtoken = 0`
  have h2 : LeadsBy D A s₁ (s₁.setProc d (((s.procs d).addFilter pubkill).setPub i .subscribing)) :=
    leads_pub_plain hd i (by simp [hproc, hrun]) (by simp [hproc, Process.publishStep, hlost])
      (by simp [hproc]) (by simp [hproc]) (by simp [hproc])
  have h3 := h2.trans (leads_pub_plain (D := D) hd i
    (p := ((s.procs d).addFilter pubkill).setPub i .reset)
    (by simp [hrun]) (by simp [Process.publishStep, hlost, granted]) (by simp) (by simp) (by simp))
  have h4 := h3.trans (leads_pub_plain (D := D) hd i
    (p := { (s.procs d).addFilter pubkill with deliveredtoken := 0 }.setPub i .stamp)
    (by simp [hrun]) (by simp [Process.publishStep]) (by simp) (by simp) (by simp))
  rw [setProc_setProc, setProc_setProc] at h4
  exact ⟨_, hs₁.trans h4, hbuf₁, hadv₁.trans (advanced_setProc ..)⟩

/-- **A fresh publish thread publishes**, when it can write its payload. -/
theorem leads_issued {d : δ} (hd : A d) (i : Nat) (hrun : (s.procs d).outcome = .running)
    (hpc : ((s.procs d).pubs i).pc = .start) (hlost : (s.procs d).paho.lost = false)
    (hwrite : Writable (D.config d) (D.slack d)) (hint : (D.config d).payloadSize.toNat < 2 ^ 31)
    (hqos : (D.config d).qos ≤ 2) :
    ∃ (t : State δ) (m : Message δ) (paho : Paho) (pubs : Nat → PubThread),
      LeadsBy D A s t ∧ t.inbox = s.inbox ++ [m] ∧ t.queue = s.queue
      ∧ t.procs = update s.procs d
          { s.procs d with deliveredtoken := 0, paho := paho, pubs := pubs }
      ∧ paho.lost = false ∧ (∀ f ∈ (s.procs d).paho.subscribed, f ∈ paho.subscribed)
      ∧ m.origin = d ∧ Sent D m ∧ t.now = s.now := by
  obtain ⟨buf, hinit⟩ := hwrite.exists_init (D.rand d) (memory_length D d)
  obtain ⟨s₁, hs₁, hbuf₁, hadv₁⟩ := leads_stamp (D := D) hd i hrun hpc hlost hinit
  have hproc := hadv₁.self
  have hw := written_of_init (memory_length D d) hinit
  obtain ⟨buf', hstamp⟩ :=
    hwrite.exists_stamp hw.length D.order ((s.procs d).pubs i).it (D.clock d s₁.now)
  -- the header is stamped with the clock of this moment
  let p : Process.State δ := { (s.procs d).addFilter pubkill with
    deliveredtoken := 0
    pubs := update (s.procs d).pubs i
      { (s.procs d).pubs i with pc := .publish, deliverTs := D.clock d s₁.now } }
  obtain ⟨s₂, hs₂, hbuf₂, hadv₂⟩ : ∃ t, LeadsBy D A s₁ t ∧ t.payload d i = buf'
      ∧ Advanced s₁ t d p := by
    have hbuf : stampPayload D.order (D.config d) (s₁.payload d i) ((s₁.procs d).pubs i).it
        (D.clock d s₁.now) = some buf' := by
      rw [hbuf₁, hproc]
      simpa using hstamp
    refine ⟨_, leads_pub_stamp hd i (by simp [hproc, hrun]) (by simp [hproc]) hbuf,
      setPayload_self .., rfl, ?_, rfl, rfl⟩
    simp [State.setProc, hproc, p]
  have hproc₂ := hadv₂.self
  -- and the message goes to the inbox
  have h3 := leads_pub_issue (D := D) hd i (s := s₂) (by simp [hproc₂, p, hrun])
    (by simp [hproc₂, p]) (by simp [hproc₂, p, hlost]) hint hqos
  have hadv := hadv₁.trans hadv₂
  refine ⟨_, plainMessage D s₂ d i, (issuedBy (D.config d) p i).paho, (issuedBy (D.config d) p i).pubs,
    (hs₁.trans hs₂).trans h3, by simp [hadv.inbox], hadv.queue, ?_, hlost,
    fun f hf => List.mem_cons_of_mem _ hf, rfl,
    ⟨rfl, hint, _, s₁.now, buf', 1, hw.stamped hstamp, ?_⟩, hadv.now⟩
  · simp [State.setProc, hadv.procs, hproc₂, issuedBy, p]
  · rw [plainMessage, hbuf₂]
    exact published_eq hqos 1 buf'

/-- A process that will store the sample of the next data message. -/
structure Receptive (cfg : Config) (p : Process.State δ) : Prop where
  running : p.outcome = .running
  idle : p.callback = .idle
  lost : p.paho.lost = false
  room : p.it < cfg.maxIter
  receiveTs : ∃ b, p.receiveTs = some b ∧ b.length = cfg.maxIter.toNat
  rttTs : ∃ b, p.rttTs = some b ∧ b.length = cfg.maxIter.toNat

/-- **A message that waits for a receptive process becomes a sample.** -/
theorem leads_sampled {d : δ} (hd : A d) (hp : Receptive (D.config d) (s.procs d)) {k : Nat}
    {m : Message δ} (hk : (s.queue d)[k]? = some m) (htopic : m.topicName ≠ pubkill)
    (hmem : m.topicName ∈ (s.procs d).paho.subscribed) (beyond : Bytes) {x : UInt32}
    (hx : sampleOf D.order { m with beyond := beyond } (D.clock d s.now) = some x) :
    ∃ t, LeadsBy D A s t ∧ t.now = s.now
      ∧ ({ m with beyond := beyond }, D.clock d s.now, x) ∈ (t.procs d).hist.recorded := by
  obtain ⟨hrun, hidle, hlost, hroom, ⟨rts, hrts, hlen⟩, ⟨rtts, hrtts, hlen'⟩⟩ := hp
  have hlt : (s.procs d).it.toNat < (D.config d).maxIter.toNat := UInt32.lt_iff_toNat_lt.mp hroom
  set m' : Message δ := { m with beyond := beyond } with hm'
  set c := D.clock d s.now
  set p := s.procs d
  let p₁ : Process.State δ :=
    { p with callback := .arrived m' c, hist := { p.hist with arrivals := p.hist.arrivals ++ [(m', c)] } }
  -- the library calls `msgarrvd`
  have harrive : Process.step D.order (D.config d) p (.arrive m' c) = some p₁ := by
    have hmatch : couldMatch p.paho.subscribed m'.topicName :=
      ⟨m.topicName, hmem, fun h => absurd h htopic⟩
    simp only [Process.step, hrun, hidle, hlost, hmatch, and_self, if_true, p₁]
  have h1 : LeadsBy D A s
      { s.setProc d p₁ with queue := update s.queue d ((s.queue d).eraseIdx k) } := by
    apply LeadsWhen.single (a := .deliver d k beyond) (by rintro e he; cases he; exact hd)
    show step D s (.deliver d k beyond) = _
    simp only [step, hk]
    rw [show Process.step _ _ _ _ = some p₁ from harrive]
    rfl
  -- the callback stores receive time and sample
  have h2 : LeadsLocally D.order (D.config d) p₁
      { p₁ with receiveTs := some (rts.set p.it.toNat c), callback := .storeRtt m' c x } := by
    refine local_callback hrun ?_
    have hne : m'.topicName ≠ pubkill := htopic
    simp [callbackStep, p₁, hne, hroom, hx, hrts, storeAt, hlen, hlt]
  let p₃ : Process.State δ :=
    { p₁ with receiveTs := some (rts.set p.it.toNat c), rttTs := some (rtts.set p.it.toNat x),
              callback := .count m' c,
              hist := { p₁.hist with recorded := p₁.hist.recorded ++ [(m', c, x)] } }
  have h3 : LeadsLocally D.order (D.config d) p₁ p₃ := by
    refine h2.trans (local_callback (by exact hrun) ?_)
    simp [callbackStep, p₁, p₃, hrtts, storeAt, hlen', hlt]
  obtain ⟨s₁, hs₁, hnow₁, hproc₁⟩ : ∃ t, LeadsBy D A s t ∧ t.now = s.now ∧ t.procs d = p₁ :=
    ⟨_, h1, rfl, setProc_self ..⟩
  refine ⟨_, hs₁.trans (leads_locally hd (p := p₃) (by rw [hproc₁]; exact h3)), hnow₁, ?_⟩
  rw [setProc_self]
  exact List.mem_append_right _ (List.mem_singleton_self _)

/-! ## §3. From the start to a sample. -/

/-- A process with a subscribe thread is ready for data, and its publish
thread has not begun. -/
theorem leads_receptive {d : δ} (hd : A d) (hinit : s.procs d = Process.initial)
    (hsubs : 0 < (D.config d).numSubs) (hqos : (D.config d).qos ≤ 2)
    (hiter : (D.config d).maxIter ≠ 0) :
    ∃ t p, LeadsBy D A s t ∧ Advanced s t d p ∧ Receptive (D.config d) p
      ∧ (D.config d).sub0 ∈ p.paho.subscribed
      ∧ (0 < (D.config d).numPubs → (p.pubs 0).pc = .start) := by
  have hspawned : LeadsLocally D.order (D.config d) (Process.initial : Process.State δ)
      (spawned₀ (D.config d)) := local_spawned
  have hlead := hspawned.trans (local_sub_subscribed 0 rfl (spawned₀_subs hsubs) rfl hqos)
  rw [← hinit] at hlead
  refine ⟨_, _, leads_locally hd hlead, advanced_setProc .., ⟨rfl, rfl, rfl, ?_, ⟨_, rfl, ?_⟩,
    ⟨_, rfl, ?_⟩⟩, List.mem_cons_self, ?_⟩
  · show (0 : UInt32) < _
    grind
  · exact List.length_replicate ..
  · exact List.length_replicate ..
  · intro hpubs
    exact spawned₀_pubs (ι := δ) hpubs

/-- **One process records a message of another, or of itself**, with anything
behind the payload that makes it readable. -/
theorem leads_recorded {d e : δ} (hd : A d) (he : A e) (hinitd : s.procs d = Process.initial)
    (hinite : s.procs e = Process.initial) (hsubs : 0 < (D.config d).numSubs)
    (hpubs : 0 < (D.config e).numPubs) (htopic : (D.config e).pub0 = (D.config d).sub0)
    (hdata : (D.config d).sub0 ≠ pubkill) (hqos : (D.config d).qos ≤ 2)
    (hiter : (D.config d).maxIter ≠ 0) (hqos' : (D.config e).qos ≤ 2)
    (hwrite : Writable (D.config e) (D.slack e)) (hint : (D.config e).payloadSize.toNat < 2 ^ 31)
    (beyond : Bytes → Bytes)
    (hdec : ∀ m : Message δ, m.origin = e → Sent D m →
      ∃ h, decodePayload D.order (m.payload ++ beyond m.payload) = some h) :
    ∃ t, LeadsBy D A s t ∧ t.now = s.now ∧ ∃ r ∈ (t.procs d).hist.recorded,
      r.1.origin = e ∧ r.1.beyond = beyond r.1.payload ∧ Sent D r.1 := by
  -- both processes are up
  obtain ⟨s₁, p, hs₁, hadv, hrec, hfilter, hstart⟩ :=
    leads_receptive (A := A) hd hinitd hsubs hqos hiter
  obtain ⟨s₂, hs₂, hnow₂, hprocd, hrun, hpc, hlost⟩ : ∃ t, LeadsBy D A s₁ t ∧ t.now = s₁.now
      ∧ t.procs d = p ∧ (t.procs e).outcome = .running ∧ ((t.procs e).pubs 0).pc = .start
      ∧ (t.procs e).paho.lost = false := by
    -- on one device the publish thread exists already
    by_cases hde : d = e
    · subst hde
      have hp := hadv.self
      exact ⟨s₁, LeadsWhen.refl, rfl, hp, by rw [hp]; exact hrec.running, by rw [hp]; exact hstart hpubs,
        by rw [hp]; exact hrec.lost⟩
    · have hp : s₁.procs e = Process.initial := by
        rw [hadv.procs, update_of_ne (Ne.symm hde), hinite]
      have hlead : LeadsLocally D.order (D.config e) (Process.initial : Process.State δ)
          (spawned₀ (D.config e)) := local_spawned
      rw [← hp] at hlead
      refine ⟨_, leads_locally he hlead, rfl, ?_, ?_, ?_, ?_⟩
      · rw [setProc_of_ne _ _ hde, hadv.self]
      · rw [setProc_self]
        rfl
      · rw [setProc_self]
        simp [spawned₀, spawnedState, hpubs, PubThread.fresh]
      · rw [setProc_self]
        rfl
  -- the publish, and the broker
  obtain ⟨s₃, m, paho, pubs, hs₃, hinbox, hqueue, hprocs, hlost', hkeep, horigin, hsent,
    hnow₃⟩ := leads_issued (A := A) he 0 hrun hpc hlost hwrite hint hqos'
  have hk : s₃.inbox[s₂.inbox.length]? = some m := by
    rw [hinbox]
    simp
  have hprocd₃ : Receptive (D.config d) (s₃.procs d)
      ∧ m.topicName ∈ (s₃.procs d).paho.subscribed := by
    have hmtopic : m.topicName = (D.config d).sub0 := by rw [hsent.topic, horigin, htopic]
    rw [hmtopic]
    -- the publish of `e` leaves `d` receptive, also when they are one
    obtain ⟨h1, h2, h3, h4, h5, h6⟩ := hrec
    by_cases hde : d = e
    · subst hde
      rw [hprocs, update_self]
      rw [hprocd] at hkeep ⊢
      exact ⟨⟨h1, h2, hlost', h4, h5, h6⟩, hkeep _ hfilter⟩
    · rw [hprocs, update_of_ne hde, hprocd]
      exact ⟨⟨h1, h2, h3, h4, h5, h6⟩, hfilter⟩
  obtain ⟨s₄, hs₄, hnow, hprocs₄, hqueue₄⟩ : ∃ t, LeadsBy D A s₃ t ∧ t.now = s₃.now
      ∧ t.procs = s₃.procs ∧ t.queue d = s₃.queue d ++ [m] :=
    ⟨_, leads_route _ hk, rfl, rfl, if_pos hprocd₃.2⟩
  rw [← hprocs₄] at hprocd₃
  have hk₄ : (s₄.queue d)[(s₃.queue d).length]? = some m := by
    rw [hqueue₄]
    simp
  have hne : m.topicName ≠ pubkill := by rw [hsent.topic, horigin, htopic]; exact hdata
  -- the delivery
  obtain ⟨h, hh⟩ := hdec m horigin hsent
  obtain ⟨t, ht, hnow₅, hmem⟩ := leads_sampled (x := rtt (D.clock d s₄.now) h.deliverTime) hd
    hprocd₃.1 hk₄ hne hprocd₃.2 (beyond m.payload) (by rw [sampleOf, hh, Option.map_some])
  refine ⟨t, (((hs₁.trans hs₂).trans hs₃).trans hs₄).trans ht, ?_, _, hmem, horigin, rfl,
    hsent.topic, hsent.size, hsent.payload⟩
  -- no time passes
  rw [hnow₅, hnow, hnow₃, hnow₂, hadv.now]

end MqttBenchmark.Cluster
