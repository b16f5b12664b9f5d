/-
  MqttBenchmark.Process.Checked
  ─────────────────────────────
  **THE PROCESS, WITH WHAT CAN STOP ITS CALLS.**

  `system` takes the calls of the client library to be well-formed and the
  set-up of the payload to return.  `checked` adds the checks the library makes
  on its strings, and the memory and the length of the payload.

    • `checkedStep` — a step of the process, unless a check stops it,
    • `running_reachable` — a run that goes on is one of `system`,
    • `ready` — a payload about to be published has been written,
    • `usesTopics_checked_iff` — with `Accepts` the two systems are the same,
      and a process that uses its topics has it.

  MODELLING CHOICES.  `UTF8_validateString` is a parameter.  A topic is one
  character for each byte.  A buffer has some bytes behind it that a write may
  reach, and a write behind those ends the process.
-/
import MqttBenchmark.Payload.Buffer
import MqttBenchmark.Process.Topics

namespace MqttBenchmark.Process

open Lib Lib.System Function

variable {ι : Type} {o : ByteOrder} {cfg : Config} {s s' t : State ι}

/-! ## §1. The checked process. -/

/-- What a process finds and does not choose. -/
structure Surroundings where
  /-- `UTF8_validateString`, on the bytes of a string. -/
  validateString : Bytes → Bool
  /-- The stream of `rand()` -/
  rand : Nat → Nat
  /-- Bytes behind a payload buffer that a write reaches. -/
  slack : Nat

variable {env : Surroundings}

/-- The bytes of a topic. -/
def topicBytes (topic : String) : Bytes := topic.toList.map fun c => UInt8.ofNat c.toNat

/-- The memory of a payload buffer. -/
def Surroundings.memory (env : Surroundings) (cfg : Config) : Bytes :=
  List.replicate (cfg.payloadSize.toNat + env.slack) 0

/-- What stops a subscribe thread: the library refuses `SUBS[0]`. -/
def SubPC.stop (env : Surroundings) (cfg : Config) : SubPC → Option Outcome
  | .subscribe | .unsubscribe =>
      if env.validateString (topicBytes cfg.sub0) then none else some .exited
  | _ => none

/-- What stops a publish thread: the library refuses a topic, or a write leaves
the memory of the payload.  Only the length of that memory matters here. -/
def PubThread.stop (env : Surroundings) (o : ByteOrder) (cfg : Config) (p : PubThread)
    (clock : UInt64) : Option Outcome :=
  match p.pc with
  | .start => if (initBuffer cfg env.rand (env.memory cfg)).isSome then none else some .faulted
  | .subscribe | .unsubscribe =>
      if env.validateString (topicBytes pubkill) then none else some .exited
  | .stamp => if (stampPayload o cfg (env.memory cfg) p.it clock).isSome then none else some .faulted
  | .publish => if env.validateString (topicBytes cfg.pub0) then none else some .exited
  | _ => none

/-- What stops an action. -/
def Action.stop (env : Surroundings) (o : ByteOrder) (cfg : Config) (s : State ι) :
    Action ι → Option Outcome
  | .sub i _ => (s.subs i).stop env cfg
  | .pub i e => (s.pubs i).stop env o cfg e.clock
  | _ => none

/-- One step of the process, unless something stops it. -/
def checkedStep (env : Surroundings) (o : ByteOrder) (cfg : Config) (s : State ι) (a : Action ι) :
    Option (State ι) :=
  match step o cfg s a with
  | none => none
  | some t =>
      match a.stop env o cfg s with
      | some out => some { s with outcome := out }
      | none =>
          -- a publish the library takes, of a negative length
          if t.paho.issued ≠ s.paho.issued ∧ cfg.payloadSize.toInt32.toInt < 0 then
            some (unsent cfg s t)
          else some t

/-- **The process with its checks**: `MQTTClient_create` makes the first, on
`CLIENTID`. -/
def checked (env : Surroundings) (o : ByteOrder) (cfg : Config) : System (State ι) (Action ι) where
  init := if env.validateString cfg.clientId.bytes then initial else initial.exit
  step := checkedStep env o cfg

/-! ## §2. Its runs. -/

/-- Only a publish thread at `publish` issues anything. -/
theorem step_issued {a : Action ι} (h : step o cfg s a = some t)
    (hiss : t.paho.issued ≠ s.paho.issued) : ∃ i e, a = .pub i e ∧ (s.pubs i).pc = .publish := by
  cases a with
  | pub i e =>
      by_contra hno
      exact hiss (step_pub_issued h fun hpc => hno ⟨i, e, rfl, hpc⟩)
  | arrive m x =>
      obtain ⟨-, rfl⟩ := step_arrive h
      exact absurd rfl hiss
  | _ => exact absurd (step_local h trivial).issued hiss

/-- What a checked step that goes on does: nothing stops it, and it is the step
of the process, unless a publish of a negative length loses the connection. -/
structure CheckedMove (env : Surroundings) (o : ByteOrder) (cfg : Config) (s : State ι)
    (a : Action ι) (u t : State ι) : Prop where
  unstopped : a.stop env o cfg s = none
  step : step o cfg s a = some u
  result : (u = t ∧ (u.paho.issued ≠ s.paho.issued → 0 ≤ cfg.payloadSize.toInt32.toInt))
    ∨ Process.step o cfg u .lose = some t

/-- Whatever is checked, a step that goes on is a move. -/
theorem checkedStep_move {a : Action ι} (h : checkedStep env o cfg s a = some t)
    (hrun : t.outcome = .running) : ∃ u, CheckedMove env o cfg s a u t := by
  unfold checkedStep at h
  split at h
  next => cases h
  next u hstep =>
    split at h
    next out hstop =>
      -- something stops it, and it does not go on
      exfalso
      cases h
      have hout : out = .running := hrun
      subst hout
      cases a with
      | sub i e =>
          simp only [Action.stop, SubPC.stop] at hstop
          split at hstop <;> first | split at hstop <;> cases hstop | cases hstop
      | pub i e =>
          simp only [Action.stop, PubThread.stop] at hstop
          split at hstop <;> first | split at hstop <;> cases hstop | cases hstop
      | _ => cases hstop
    next hstop =>
      refine ⟨u, hstop, hstep, ?_⟩
      split at h
      next hneg =>
        cases h
        unfold unsent at hrun ⊢
        split at hrun
        next hqos =>
          right
          have hu : u.outcome = .running := hrun
          rw [if_pos hqos, Process.step, if_pos hu]
        next => cases hrun
      next hneg =>
        cases h
        exact .inl ⟨rfl, fun hiss => by_contra fun hlen => hneg ⟨hiss, not_le.mp hlen⟩⟩

namespace CheckedMove

variable {a : Action ι} {u : State ι} (h : CheckedMove env o cfg s a u t)

include h

theorem running : s.outcome = .running := step_running h.step

/-- A checked step is one or two of the process. -/
theorem leads : (system o cfg).Leads s t := by
  have hu : (system o cfg).Leads s u := Leads.single h.step
  rcases h.result with ⟨rfl, -⟩ | hlose
  · exact hu
  · exact Leads.step (a := .lose) hu hlose

theorem pubs : t.pubs = u.pubs := by
  rcases h.result with ⟨rfl, -⟩ | hlose
  · rfl
  · rw [step_lose hlose]

/-- With the connection kept, it is one. -/
theorem kept (hlost : t.paho.lost = false) :
    u = t ∧ (u.paho.issued ≠ s.paho.issued → 0 ≤ cfg.payloadSize.toInt32.toInt) := by
  rcases h.result with hsame | hlose
  · exact hsame
  · rw [step_lose hlose] at hlost
    cases hlost

end CheckedMove

/-- **A run that goes on is one of the process**, and its client id was taken. -/
theorem running_reachable (h : (checked env o cfg).Reachable s) (hrun : s.outcome = .running) :
    env.validateString cfg.clientId.bytes = true ∧ (system o cfg).Reachable s := by
  refine (h.induct (P := fun s => s.outcome = .running →
    env.validateString cfg.clientId.bytes = true ∧ (system o cfg).Reachable s) ?_ ?_) hrun
  · intro hrun
    cases hid : env.validateString cfg.clientId.bytes with
    | true => exact ⟨rfl, by rw [checked, if_pos hid]; exact Reachable.init⟩
    | false =>
        -- the client could not be created
        rw [checked, hid] at hrun
        cases hrun
  · intro s a t _ ih hstep hrun
    obtain ⟨u, hm⟩ := checkedStep_move hstep hrun
    obtain ⟨hid, hs⟩ := ih hm.running
    exact ⟨hid, hs.leads hm.leads⟩

/-! ## §3. The payload. -/

/-- What a publish thread has written, at its program counter. -/
def PubPC.Ready (env : Surroundings) (cfg : Config) : PubPC → Prop
  | .absent | .start => True
  | .publish => Writable cfg env.slack
  | _ => (initBuffer cfg env.rand (env.memory cfg)).isSome

theorem memory_size (env : Surroundings) (cfg : Config) :
    (env.memory cfg).length = cfg.payloadSize.toNat + env.slack := List.length_replicate ..

/-- In a writable payload the set-up returns. -/
theorem isSome_of_writable (h : Writable cfg env.slack) :
    (initBuffer cfg env.rand (env.memory cfg)).isSome := by
  obtain ⟨buf, hinit⟩ := h.exists_init env.rand (memory_size env cfg)
  rw [hinit]
  rfl

/-- The two writes of a publish thread leave no other sizes. -/
theorem writable_of_writes {it : UInt32} {clock : UInt64}
    (hinit : (initBuffer cfg env.rand (env.memory cfg)).isSome)
    (hstamp : (stampPayload o cfg (env.memory cfg) it clock).isSome) : Writable cfg env.slack := by
  obtain ⟨buf, hinit⟩ := Option.isSome_iff_exists.mp hinit
  obtain ⟨buf', hstamp⟩ := Option.isSome_iff_exists.mp hstamp
  obtain ⟨hpos, hsize, -, hid, -⟩ := written_of_init (memory_size env cfg) hinit
  obtain ⟨hctr, hts, -⟩ := stampPayload_room hstamp
  rw [memory_size] at hctr hts
  exact ⟨hpos, hsize, hid, hctr, hts⟩

/-- A move of an unstopped publish thread keeps its payload ready. -/
theorem PubMove.ready {i : Nat} {clock : UInt64} (h : PubMove cfg s i t)
    (hrun : t.outcome = .running) (hstop : (s.pubs i).stop env o cfg clock = none)
    (hready : (s.pubs i).pc.Ready env cfg) : (t.pubs i).pc.Ready env cfg := by
  cases h with
  | start hpc =>
      simp only [PubThread.stop, hpc] at hstop
      split at hstop
      next hinit => simpa [PubPC.Ready] using hinit
      next => cases hstop
  | stamp x hpc =>
      simp only [PubThread.stop, hpc] at hstop
      rw [hpc] at hready
      split at hstop
      next hstamp => simpa [PubPC.Ready] using writable_of_writes hready hstamp
      next => cases hstop
  | publish tok hpc htok hlost =>
      rw [hpc] at hready
      simpa [PubPC.Ready] using isSome_of_writable hready
  | exit => cases hrun
  | _ =>
      -- from one program counter behind the filler to another
      rw [‹(s.pubs i).pc = _›] at hready
      simpa [PubPC.Ready] using hready

/-- **A payload about to be published has been written**, and every earlier
step of its thread with it. -/
theorem ready (h : (checked env o cfg).Reachable s) (hrun : s.outcome = .running) (i : Nat) :
    (s.pubs i).pc.Ready env cfg := by
  refine (h.induct (P := fun s => s.outcome = .running → ∀ i, (s.pubs i).pc.Ready env cfg) ?_ ?_)
    hrun i
  · intro _ i
    unfold checked
    simp only
    split <;> exact trivial
  · intro s a t _ ih hstep hrun i
    obtain ⟨u, hm⟩ := checkedStep_move hstep hrun
    have hs := ih hm.running
    rw [hm.pubs]
    cases a with
    | pub j e =>
        have hmove := step_pub hm.step
        by_cases hij : i = j
        · subst hij
          refine hmove.ready ?_ hm.unstopped (hs i)
          rcases hm.result with ⟨rfl, -⟩ | hlose
          · exact hrun
          · exact step_running hlose
        · rw [hmove.frame.others i hij]
          exact hs i
    | arrive m x =>
        obtain ⟨-, hu⟩ := step_arrive hm.step
        rw [hu]
        exact hs i
    | _ =>
        -- `main` may create thread `i`, which then stands at `start`
        rcases (step_local hm.step trivial).pubs i with hsame | hstart
        · rw [hsame]
          exact hs i
        · rw [hstart]
          trivial

/-! ## §4. The calls. -/

/-- What `MQTTClient_publishMessage` and the writes before it ask of a
configuration. -/
structure Publishable (env : Surroundings) (cfg : Config) : Prop where
  topic : env.validateString (topicBytes cfg.pub0) = true
  writable : Writable cfg env.slack
  size : cfg.payloadSize.toNat < 2 ^ 31

/-- Nothing stops the threads of a configuration. -/
structure Accepts (env : Surroundings) (cfg : Config) : Prop where
  clientId : env.validateString cfg.clientId.bytes = true
  pubs : cfg.pubs ≠ [] → Publishable env cfg
  subs : cfg.subs ≠ [] → env.validateString (topicBytes cfg.sub0) = true

/-- A publish of the checked process is one of the process. -/
theorem publishes_checked {topic : String}
    (h : PubCalls (checked (ι := ι) env o cfg) cfg .publish topic) :
    (env.validateString cfg.clientId.bytes = true ∧ Publishable env cfg)
      ∧ PubCalls (system (ι := ι) o cfg) cfg .publish topic := by
  obtain ⟨hcarried, s, t, i, e, hs, hcall, hstep, hrun, hlost⟩ := h
  obtain ⟨u, hm⟩ := checkedStep_move hstep hrun
  obtain ⟨rfl, hlen⟩ := hm.kept hlost
  obtain ⟨hid, hsys⟩ := running_reachable hs hm.running
  have hpc : (s.pubs i).pc = .publish := by
    cases hpc : (s.pubs i).pc with
    | publish => rfl
    | _ =>
        rw [hpc] at hcall
        cases hcall
  refine ⟨⟨hid, ?_, ?_, ?_⟩, hcarried, s, u, i, e, hsys, hcall, hm.step, hrun, hlost⟩
  · have hstop := hm.unstopped
    simp only [Action.stop, PubThread.stop, hpc] at hstop
    split at hstop
    next hvalid => exact hvalid
    next => cases hstop
  · have hready := ready hs hm.running i
    rw [hpc] at hready
    exact hready
  · -- the publish was issued, so its length is not negative
    apply size_of_payloadlen
    apply hlen
    have hmove := step_pub hm.step
    cases hmove with
    | publish tok hpc' htok hlost' => simp
    | exit => cases hrun
    | _ =>
        have hpc' := ‹(s.pubs i).pc = _›
        rw [hpc] at hpc'
        cases hpc'

/-- A call of a subscribe thread of the checked process is one of the process. -/
theorem subCalls_checked {call : LibCall} {topic : String}
    (h : SubCalls (checked (ι := ι) env o cfg) cfg call topic) :
    (env.validateString cfg.clientId.bytes = true
        ∧ env.validateString (topicBytes cfg.sub0) = true)
      ∧ SubCalls (system (ι := ι) o cfg) cfg call topic := by
  obtain ⟨hcarried, s, t, i, e, hs, hcall, hstep, hrun, hlost⟩ := h
  obtain ⟨u, hm⟩ := checkedStep_move hstep hrun
  obtain ⟨rfl, -⟩ := hm.kept hlost
  obtain ⟨hid, hsys⟩ := running_reachable hs hm.running
  refine ⟨⟨hid, ?_⟩, hcarried, s, u, i, e, hsys, hcall, hm.step, hrun, hlost⟩
  have hstop := hm.unstopped
  simp only [Action.stop] at hstop
  cases hpc : s.subs i with
  | subscribe | unsubscribe =>
      simp only [SubPC.stop, hpc] at hstop
      split at hstop
      next hvalid => exact hvalid
      next => cases hstop
  | _ =>
      rw [hpc] at hcall
      cases hcall

/-- Nothing stops an action of an accepted process. -/
theorem Accepts.unstopped (hacc : Accepts env cfg)
    (hkill : env.validateString (topicBytes pubkill) = true)
    (hs : (system o cfg).Reachable s) (a : Action ι) : a.stop env o cfg s = none := by
  cases a with
  | sub i e =>
      have hvalid : s.subs i ≠ .absent → env.validateString (topicBytes cfg.sub0) = true := by
        intro hpc
        have hlt := sub_lt_numSubs hs hpc
        exact hacc.subs (List.ne_nil_of_length_pos (by unfold Config.numSubs at hlt; omega))
      show (s.subs i).stop env cfg = none
      unfold SubPC.stop
      split
      next hpc => rw [if_pos (hvalid (by rw [hpc]; simp))]
      next hpc => rw [if_pos (hvalid (by rw [hpc]; simp))]
      next => rfl
  | pub i e =>
      have hpub : (s.pubs i).pc ≠ .absent → Publishable env cfg := by
        intro hpc
        have hlt := pub_lt_numPubs hs hpc
        exact hacc.pubs (List.ne_nil_of_length_pos (by unfold Config.numPubs at hlt; omega))
      show (s.pubs i).stop env o cfg e.clock = none
      unfold PubThread.stop
      split
      next hpc => rw [if_pos (isSome_of_writable (hpub (by rw [hpc]; simp)).writable)]
      next => rw [if_pos hkill]
      next => rw [if_pos hkill]
      next hpc =>
        obtain ⟨buf, hbuf⟩ := (hpub (by rw [hpc]; simp)).writable.exists_stamp (memory_size env cfg) o
          (s.pubs i).it e.clock
        rw [hbuf]
        rfl
      next hpc => rw [if_pos (hpub (by rw [hpc]; simp)).topic]
      next => rfl
  | _ => rfl

/-- Its steps are those of the process. -/
theorem Accepts.step_eq (hacc : Accepts env cfg)
    (hkill : env.validateString (topicBytes pubkill) = true)
    (hs : (system o cfg).Reachable s) (a : Action ι) :
    (checked env o cfg).step s a = (system o cfg).step s a := by
  show checkedStep env o cfg s a = step o cfg s a
  unfold checkedStep
  cases hstep : step o cfg s a with
  | none => rfl
  | some t =>
      simp only [hacc.unstopped hkill hs a]
      rw [if_neg]
      intro hneg
      -- only a thread issues, and with a thread the size is in range
      obtain ⟨i, e, rfl, hpc⟩ := step_issued hstep hneg.1
      have hlt := pub_lt_numPubs hs (i := i) (by rw [hpc]; simp)
      have hsize := (hacc.pubs (List.ne_nil_of_length_pos (by unfold Config.numPubs at hlt; omega))).size
      have hlen := payloadlen_of_lt hsize
      omega

/-- **A process that uses its topics is not stopped**, and one that is not
stopped is the unchecked one. -/
theorem usesTopics_checked_iff [Inhabited ι]
    (hkill : env.validateString (topicBytes pubkill) = true)
    (hsome : cfg.pubs ≠ [] ∨ cfg.subs ≠ []) :
    UsesTopics (checked (ι := ι) env o cfg) cfg cfg.pubs cfg.subs
      ↔ Accepts env cfg ∧ UsesTopics (system (ι := ι) o cfg) cfg cfg.pubs cfg.subs := by
  have hsame : Accepts env cfg → (UsesTopics (checked (ι := ι) env o cfg) cfg cfg.pubs cfg.subs
      ↔ UsesTopics (system (ι := ι) o cfg) cfg cfg.pubs cfg.subs) := by
    intro hacc
    have hstep := fun s a hs => hacc.step_eq (ι := ι) (o := o) (s := s) hkill hs a
    have hreach := reachable_congr (by rw [checked, if_pos hacc.clientId]; rfl) hstep
    constructor
    · exact UsesTopics.congr hreach hstep
    · exact UsesTopics.congr (fun s => (hreach s).symm) fun s a hs =>
        (hstep s a ((hreach s).mp hs)).symm
  constructor
  · intro h
    have hpubs : cfg.pubs ≠ [] → env.validateString cfg.clientId.bytes = true ∧ Publishable env cfg := by
      intro hne
      exact (publishes_checked ((h.published _).mpr (List.head_mem hne))).1
    have hsubs : cfg.subs ≠ [] → env.validateString cfg.clientId.bytes = true
        ∧ env.validateString (topicBytes cfg.sub0) = true := by
      intro hne
      exact (subCalls_checked ((h.subscribed _).mpr (List.head_mem hne))).1
    have hacc : Accepts env cfg := by
      refine ⟨?_, fun hne => (hpubs hne).2, fun hne => (hsubs hne).2⟩
      rcases hsome with hne | hne
      · exact (hpubs hne).1
      · exact (hsubs hne).1
    exact ⟨hacc, (hsame hacc).mp h⟩
  · intro h
    exact (hsame h.1).mpr h.2

end MqttBenchmark.Process
