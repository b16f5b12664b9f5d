/-
  MqttBenchmark.Cluster.Messages
  ──────────────────────────────
  **WHAT EVERY MESSAGE CARRIES.**

  A publish thread initialises its buffer once and stamps it before every
  publish; the broker passes on what was published.

    • `Buffers` — the buffer of every publish thread, by program counter,
    • `everywhere_sent` — every message of a cluster has the topic of its
      publisher and a payload that publisher stamped with its own clock,
    • `Sent.decodes` — `msgarrvd` reads the publisher's id from it.
-/
import MqttBenchmark.Cluster.Moves
import MqttBenchmark.Payload.Buffer

namespace MqttBenchmark

open Lib

namespace Cluster

open Lib.System Function Process

variable {δ : Type} [DecidableEq δ] {D : Deployment δ} {s s' : State δ}

/-! ## §1. The buffers of a cluster. -/

/-- The thread has initialised its payload. -/
def hasPayload : PubPC → Bool
  | .absent | .start => false
  | _ => true

omit [DecidableEq δ] in
theorem memory_length (D : Deployment δ) (d : δ) :
    (D.memory d).length = (D.config d).payloadSize.toNat + D.slack d := List.length_replicate ..

/-- The buffer of publish thread `i`, at its program counter. -/
structure Buffer (D : Deployment δ) (d : δ) (p : PubThread) (buf : Bytes) : Prop where
  written : hasPayload p.pc = true → Written (D.config d) (D.slack d) buf
  stamped : p.pc = .publish → ∃ t, Stamped D.order (D.config d) (D.slack d) p.it (D.clock d t) buf

/-- Every publish thread has its buffer. -/
def Buffers (D : Deployment δ) (s : State δ) : Prop :=
  ∀ d i, Buffer D d ((s.procs d).pubs i) (s.payload d i)

omit [DecidableEq δ] in
theorem Buffer.fresh {d : δ} {p : PubThread} {buf : Bytes} (h : p.pc = .start) :
    Buffer D d p buf := by
  constructor
  · intro hp
    rw [h] at hp
    cases hp
  · intro hp
    rw [h] at hp
    cases hp

theorem Buffers.setPayload (hb : Buffers D s) {d : δ} {i : Nat} {buf : Bytes}
    (hi : Buffer D d ((s.procs d).pubs i) buf) : Buffers D (s.setPayload d i buf) := by
  intro e j
  by_cases hej : e = d ∧ j = i
  · obtain ⟨rfl, rfl⟩ := hej
    rwa [setPayload_self]
  · rw [setPayload_of_ne _ _ (by rwa [← not_and_or])]
    exact hb e j

theorem Buffers.setProc (hb : Buffers D s) {d : δ} {p : Process.State δ}
    (hp : ∀ i, Buffer D d (p.pubs i) (s.payload d i)) : Buffers D (s.setProc d p) := by
  intro e j
  by_cases he : e = d
  · subst he
    rw [setProc_self]
    exact hp j
  · rw [setProc_of_ne _ _ he]
    exact hb e j

/-- A move of publish thread `i`, when its buffer is right after it. -/
theorem Buffers.setPub (hb : Buffers D s) {d : δ} {i : Nat} {p : Process.State δ}
    (h : PubMove (D.config d) (s.procs d) i p) (hi : Buffer D d (p.pubs i) (s.payload d i)) :
    Buffers D (s.setProc d p) := by
  apply hb.setProc
  intro j
  by_cases hj : j = i
  · subst hj
    exact hi
  · rw [h.frame.others j hj]
    exact hb d j

omit [DecidableEq δ] in
/-- A publish thread gets its buffer at `start` and gets to `publish` only by
stamping it. -/
theorem Buffer.move {d : δ} {i : Nat} {p p' : Process.State δ} {buf : Bytes}
    (hb : Buffer D d (p.pubs i) buf) (h : PubMove (D.config d) p i p')
    (hstart : (p.pubs i).pc = .start → Written (D.config d) (D.slack d) buf)
    (hstamp : (p.pubs i).pc ≠ .stamp) : Buffer D d (p'.pubs i) buf := by
  obtain ⟨hwritten, hstamped⟩ := hb
  cases h with
  | start hpc => exact ⟨fun _ => hstart hpc, fun hp => by simp at hp⟩
  -- the only way to `publish` is `stamp`, which is excluded here
  | stamp t hpc => exact absurd hpc hstamp
  | exit => exact ⟨hwritten, hstamped⟩
  | _ =>
      have hpc := ‹(p.pubs i).pc = _›
      exact ⟨fun _ => hwritten (by rw [hpc]; rfl), fun hp => by simp at hp⟩

omit [DecidableEq δ] in
/-- A publish writes no buffer. -/
theorem Buffers.published (hb : Buffers D s) {d : δ} {i : Nat} {p : Process.State δ}
    (hpc : ((s.procs d).pubs i).pc = .publish) (h : PubMove (D.config d) (s.procs d) i p) :
    Buffer D d (p.pubs i) (s.payload d i) := by
  refine (hb d i).move h ?_ ?_
  · intro hstart
    rw [hpc] at hstart
    cases hstart
  · rw [hpc]
    simp

/-- **Every publish thread works on its own payload buffer**: from its
initialisation on it holds the client id, and at `publish` the header. -/
theorem buffers (h : (system D).Reachable s) : Buffers D s := by
  refine reachable_induct h (fun d i => ⟨?_, ?_⟩) ?_
  · intro h
    cases h
  · intro h
    cases h
  intro s s' _ hb hm
  cases hm with
  | tick ns => exact hb
  | route k m hk => exact hb
  | crash d => exact hb.setProc (hb d)
  | proc d a p ha h =>
      apply hb.setProc
      intro i
      -- `main` may create thread `i`, which then stands at `start`
      rcases (step_local h ha).pubs i with hsame | hstart
      · rw [hsame]
        exact hb d i
      · exact Buffer.fresh hstart
  | init d i e p buf hpc h hbuf =>
      -- first the buffer, then the program counter
      have hb' : Buffers D (s.setPayload d i buf) := hb.setPayload (Buffer.fresh hpc)
      apply hb'.setPub (step_pub h)
      rw [setPayload_self]
      exact (Buffer.fresh hpc).move (step_pub h) (fun _ => written_of_init (memory_length D d) hbuf)
        (by rw [hpc]; simp)
  | stamp d i e p buf hpc h hclock hbuf =>
      have hw := ((hb d i).written (by rw [hpc]; rfl)).stamped hbuf
      have hb' : Buffers D (s.setPayload d i buf) := by
        refine hb.setPayload ⟨fun _ => hw.written, ?_⟩
        intro hp
        rw [hpc] at hp
        cases hp
      apply hb'.setPub (step_pub h)
      rw [setPayload_self]
      -- the counter is the one the thread still has, the clock its device's
      refine ⟨fun _ => hw.written, fun _ => ⟨s.now, ?_⟩⟩
      have hit : (p.pubs i).it = ((s.procs d).pubs i).it := by
        have hm := step_pub h
        cases hm <;> simp_all
      rw [hit, ← hclock]
      exact hw
  | issue d i e p hpc h hiss hlen => exact hb.setPub (step_pub h) (hb.published hpc (step_pub h))
  | unsent d i e p q hpc h hlose =>
      have hp := hb.setPub (step_pub h) (hb.published hpc (step_pub h))
      obtain rfl := step_lose hlose
      -- the threads are where the publish left them
      refine hb.setProc fun j => ?_
      have hj := hp d j
      rw [setProc_self] at hj
      exact hj
  | pub d i e p hstart hstamp h hiss =>
      exact hb.setPub (step_pub h) ((hb d i).move (step_pub h) (fun h => absurd h hstart) hstamp)
  | deliver d k m beyond p hk h =>
      obtain ⟨-, rfl⟩ := step_arrive h
      exact hb.setProc (hb d)

/-! ## §2. The messages of a cluster. -/

/-- At a QoS up to 2 the broker reads what the library copied. -/
theorem published_eq {cfg : Config} (hqos : cfg.qos ≤ 2) (token : Int) (buf : Bytes) :
    published cfg token buf = some (publishedPayload cfg buf) := by
  have hcases : cfg.qos = 0 ∨ cfg.qos = 1 ∨ cfg.qos = 2 := by grind
  unfold published
  rcases hcases with h | h | h <;> rw [h] <;> rfl

/-- A message as its origin published it, at some true time `t`. -/
structure Sent (D : Deployment δ) (m : Message δ) : Prop where
  topic : m.topicName = (D.config m.origin).pub0
  size : (D.config m.origin).payloadSize.toNat < 2 ^ 31
  payload : ∃ it t buf token,
    Stamped D.order (D.config m.origin) (D.slack m.origin) it (D.clock m.origin t) buf
      ∧ published (D.config m.origin) token buf = some m.payload

omit [DecidableEq δ] in
/-- What a publish thread at `publish` sends. -/
theorem exists_of_message {d : δ} {i : Nat} {token : Int} {m : Message δ}
    (h : message D s d i token = some m) :
    m.topicName = (D.config d).pub0 ∧ m.origin = d
      ∧ published (D.config d) token (s.payload d i) = some m.payload := by
  obtain ⟨b, hb, rfl⟩ := Option.map_eq_some_iff.mp h
  exact ⟨rfl, rfl, hb⟩

/-- **Every message is one its origin stamped and published.** -/
theorem everywhere_sent (h : (system D).Reachable s) : Everywhere (Sent D) s := by
  refine reachable_induct h ⟨by simp [initial], by simp [initial], ?_⟩ ?_
  · simp [initial, Process.initial]
  intro s s' hs hQ hm
  apply hQ.move (fun m b hm => ⟨hm.topic, hm.size, hm.payload⟩) hm
  intro d i token m hmessage hpc hlen
  obtain ⟨htopic, rfl, hpayload⟩ := exists_of_message hmessage
  -- at `publish` the buffer is stamped
  obtain ⟨t, hstamped⟩ := (buffers hs m.origin i).stamped hpc
  exact ⟨htopic, size_of_payloadlen hlen, _, t, _, token, hstamped, hpayload⟩

omit [DecidableEq δ] in
/-- `msgarrvd` reads the header its publisher wrote, when that fits and the
packet has its QoS. -/
theorem Sent.decodes {m : Message δ} (h : Sent D m) (hplain : Plain (D.config m.origin))
    (beyond : Bytes) :
    ∃ it t, decodePayload D.order (m.payload ++ beyond)
      = some { clientId := (D.config m.origin).clientId.bytes, pktNo := it,
               deliverTime := D.clock m.origin t } := by
  obtain ⟨it, t, buf, token, hstamped, hpayload⟩ := h.payload
  rw [published_eq hplain.qos] at hpayload
  refine ⟨it, t, ?_⟩
  rw [← Option.some.inj hpayload]
  exact hstamped.decodes hplain.fits h.size beyond

/-- The message of a sample is one its origin published. -/
theorem sent_of_recorded (h : (system D).Reachable s) {d : δ} {r : Message δ × UInt64 × UInt32}
    (hr : r ∈ (s.procs d).hist.recorded) : Sent D r.1 :=
  (everywhere_sent h).arrivals d _ ((isProcess h d).arrived hr)

end Cluster

end MqttBenchmark
