/-
  MqttBenchmark.Cluster.Clocks
  ────────────────────────────
  **WHAT A SAMPLE MEASURES, WITH CLOCKS THAT DISAGREE.**

  A sample is the receive time on one clock minus a stamp from another.  The
  message was stamped before it arrived, so the sample is the time it was
  under way, plus what the subscriber's clock is ahead of the publisher's,
  rounded on both clocks and wrapped at `2 ^ 32`.

    • `Packet` — a message with the true time of its stamp,
    • `arrivals_timed` — stamped first, received later, in every run,
    • `sample_measures` — the law of every stored sample.
-/
import MqttBenchmark.Cluster.Runs
import Mathlib.Algebra.Order.Group.Unbundled.Int

namespace MqttBenchmark.Cluster

open Lib Lib.System Function Process

variable {δ : Type} [DecidableEq δ] {D : Deployment δ} {s s' : State δ}

/-! ## §1. The stamp of a message. -/

/-- `m` was published with counter `it`, by a thread that read its device's
clock at true time `t`. -/
structure Packet (D : Deployment δ) (m : Message δ) (it : UInt32) (t : Int) : Prop where
  topic : m.topicName = (D.config m.origin).pub0
  size : (D.config m.origin).payloadSize.toNat < 2 ^ 31
  payload : ∃ buf token,
    Stamped D.order (D.config m.origin) (D.slack m.origin) it (D.clock m.origin t) buf
      ∧ published (D.config m.origin) token buf = some m.payload

omit [DecidableEq δ] in
/-- The memory behind a payload is none of the packet. -/
theorem Packet.beyond {m : Message δ} {it : UInt32} {t : Int} (h : Packet D m it t) (b : Bytes) :
    Packet D { m with beyond := b } it t :=
  ⟨h.topic, h.size, h.payload⟩

omit [DecidableEq δ] in
/-- `msgarrvd` reads counter and stamp of a packet. -/
theorem Packet.decodes {m : Message δ} {it : UInt32} {t : Int} (h : Packet D m it t)
    (hplain : Plain (D.config m.origin)) (b : Bytes) :
    decodePayload D.order (m.payload ++ b)
      = some { clientId := (D.config m.origin).clientId.bytes, pktNo := it,
               deliverTime := D.clock m.origin t } := by
  obtain ⟨buf, token, hstamped, hpayload⟩ := h.payload
  rw [published_eq hplain.qos] at hpayload
  rw [← Option.some.inj hpayload]
  exact hstamped.decodes hplain.fits h.size b

/-- Thread `i` of a device is about to publish counter `it`, stamped at `t`. -/
structure Ready (D : Deployment δ) (s : State δ) (d : δ) (i : Nat) (t : Int) : Prop where
  start : 0 ≤ t
  past : t ≤ s.now
  stamped : Stamped D.order (D.config d) (D.slack d) ((s.procs d).pubs i).it (D.clock d t)
    (s.payload d i)

omit [DecidableEq δ] in
/-- Later, with the same thread and the same buffer. -/
theorem Ready.congr {d : δ} {i : Nat} {t : Int} (h : Ready D s d i t) (hnow : s.now ≤ s'.now)
    (hpub : (s'.procs d).pubs i = (s.procs d).pubs i) (hbuf : s'.payload d i = s.payload d i) :
    Ready D s' d i t := by
  obtain ⟨h0, h1, h2⟩ := h
  refine ⟨h0, by omega, ?_⟩
  rw [hpub, hbuf]
  exact h2

omit [DecidableEq δ] in
/-- A thread gets to `publish` only from `stamp`. -/
theorem pub_at_publish {cfg : Config} {p p' : Process.State δ} {i : Nat} (h : PubMove cfg p i p')
    (hpc : (p'.pubs i).pc = .publish) : (p.pubs i).pc = .stamp ∨ p'.pubs i = p.pubs i := by
  cases h with
  | stamp t hstamp => exact .inl hstamp
  | exit => exact .inr rfl
  | _ => simp at hpc

/-- A publish thread at `publish` has stamped its buffer, and no later than
now. -/
def StampsPast (D : Deployment δ) (s : State δ) : Prop :=
  ∀ d i, ((s.procs d).pubs i).pc = .publish → ∃ t, Ready D s d i t

/-- What was ready before a step is ready after it, but for thread `i` of
device `d`. -/
theorem StampsPast.move (hp : StampsPast D s) (d : δ) (i : Nat) (hnow : s.now ≤ s'.now)
    (hpubs : ∀ e j, (e ≠ d ∨ j ≠ i) → ((s'.procs e).pubs j).pc = .publish →
      (s'.procs e).pubs j = (s.procs e).pubs j ∧ s'.payload e j = s.payload e j)
    (hi : ((s'.procs d).pubs i).pc = .publish → ∃ t, Ready D s' d i t) : StampsPast D s' := by
  intro e j hpc
  by_cases hej : e = d ∧ j = i
  · obtain ⟨rfl, rfl⟩ := hej
    exact hi hpc
  · obtain ⟨hpub, hbuf⟩ := hpubs e j (by rwa [← not_and_or]) hpc
    obtain ⟨t, ht⟩ := hp e j (by rwa [← hpub])
    exact ⟨t, ht.congr hnow hpub hbuf⟩

omit [DecidableEq δ] in
/-- A step that writes no buffer, and after which the threads at `publish`
were there before. -/
theorem StampsPast.keep (hp : StampsPast D s) (hnow : s.now ≤ s'.now)
    (hbuf : s'.payload = s.payload)
    (hpubs : ∀ e j, ((s'.procs e).pubs j).pc = .publish →
      (s'.procs e).pubs j = (s.procs e).pubs j) : StampsPast D s' := by
  intro e j hpc
  have hpub := hpubs e j hpc
  obtain ⟨t, ht⟩ := hp e j (by rwa [← hpub])
  exact ⟨t, ht.congr hnow hpub (by rw [hbuf])⟩

/-- In a process set to `p` the threads at `publish` were there before. -/
theorem pubs_of_setProc {d : δ} {p : Process.State δ}
    (hpubs : ∀ i, (p.pubs i).pc = .publish → p.pubs i = (s.procs d).pubs i) (e : δ) (j : Nat)
    (hpc : (((s.setProc d p).procs e).pubs j).pc = .publish) :
    ((s.setProc d p).procs e).pubs j = (s.procs e).pubs j := by
  by_cases he : e = d
  · subst he
    rw [setProc_self] at hpc ⊢
    exact hpubs j hpc
  · rw [setProc_of_ne _ _ he]

omit [DecidableEq δ] in
/-- A move of thread `i` away from `stamp` brings no thread to `publish`. -/
theorem pubs_at_publish {cfg : Config} {p p' : Process.State δ} {i : Nat} (h : PubMove cfg p i p')
    (hstamp : (p.pubs i).pc ≠ .stamp) (j : Nat) (hpc : (p'.pubs j).pc = .publish) :
    p'.pubs j = p.pubs j := by
  by_cases hj : j = i
  · subst hj
    exact (pub_at_publish h hpc).resolve_left hstamp
  · exact h.frame.others j hj

/-- A thread other than the one that moved, with its buffer. -/
theorem other_pub {d e : δ} {i j : Nat} {p : Process.State δ} {buf : Bytes}
    (h : PubMove (D.config d) (s.procs d) i p) (hne : e ≠ d ∨ j ≠ i) :
    (((s.setProc d p).setPayload d i buf).procs e).pubs j = (s.procs e).pubs j
      ∧ ((s.setProc d p).setPayload d i buf).payload e j = s.payload e j := by
  refine ⟨?_, setPayload_of_ne _ _ hne⟩
  rw [setPayload_procs]
  by_cases he : e = d
  · subst he
    rw [setProc_self]
    exact h.frame.others j (hne.resolve_left (· rfl))
  · rw [setProc_of_ne _ _ he]

/-- True time starts at 0. -/
theorem now_nonneg (h : (system D).Reachable s) : 0 ≤ s.now := by
  refine reachable_induct (P := fun s => 0 ≤ s.now) h (le_refl 0) ?_
  intro s s' _ hnow hm
  cases hm with
  | tick ns =>
      show 0 ≤ s.now + ns
      omega
  | _ => exact hnow

/-- **No stamp is from the future.** -/
theorem stamps_past (h : (system D).Reachable s) : StampsPast D s := by
  refine reachable_induct h (fun _ _ hpc => by cases hpc) ?_
  intro s s' hs hp hm
  cases hm with
  | tick ns =>
      have hnow : s.now ≤ s.now + ns := by omega
      exact hp.keep hnow rfl fun _ _ _ => rfl
  | route k m hk => exact hp.keep (le_refl _) rfl fun _ _ _ => rfl
  | crash d => exact hp.keep (le_refl _) rfl (pubs_of_setProc fun _ _ => rfl)
  | proc d a p ha h =>
      refine hp.keep (le_refl _) rfl (pubs_of_setProc ?_)
      intro i hpc
      rcases (step_local h ha).pubs i with hsame | hstart
      · exact hsame
      -- a thread `main` has just created is not at `publish`
      · rw [hstart] at hpc
        cases hpc
  | init d i e p buf hpc h hbuf =>
      refine hp.move d i (le_refl _) (fun _ _ hne _ => other_pub (step_pub h) hne) ?_
      intro hpub
      rw [setPayload_procs, setProc_self] at hpub
      rcases pub_at_publish (step_pub h) hpub with hstamp | hsame
      · rw [hpc] at hstamp
        cases hstamp
      · rw [hsame, hpc] at hpub
        cases hpub
  | stamp d i e p buf hpc h hclock hbuf =>
      refine hp.move d i (le_refl _) (fun _ _ hne _ => other_pub (step_pub h) hne) ?_
      intro _
      have hw := ((buffers hs d i).written (by rw [hpc]; rfl)).stamped hbuf
      have hit : (p.pubs i).it = ((s.procs d).pubs i).it := by
        have hm := step_pub h
        cases hm <;> simp_all
      -- the thread has just read the clock
      refine ⟨s.now, now_nonneg hs, le_refl _, ?_⟩
      rw [setPayload_self, setPayload_procs, setProc_self, hit, ← hclock]
      exact hw
  | issue d i e p hpc h hiss hlen =>
      exact hp.keep (le_refl _) rfl
        (pubs_of_setProc (pubs_at_publish (step_pub h) (by rw [hpc]; simp)))
  | unsent d i e p q hpc h hlose =>
      obtain rfl := step_lose hlose
      have hpubs := pubs_at_publish (step_pub h) (by rw [hpc]; simp)
      exact hp.keep (le_refl _) rfl (pubs_of_setProc fun j hj => hpubs j hj)
  | pub d i e p hstart hstamp h hiss =>
      exact hp.keep (le_refl _) rfl (pubs_of_setProc (pubs_at_publish (step_pub h) hstamp))
  | deliver d k m beyond p hk h =>
      obtain ⟨-, rfl⟩ := step_arrive h
      exact hp.keep (le_refl _) rfl (pubs_of_setProc fun _ _ => rfl)

omit [DecidableEq δ] in
/-- The sample of a message is the one `msgarrvd` computes for it. -/
theorem IsProcess.sampled {d : δ} {p : Process.State δ} (h : IsProcess D d p)
    {r : Message δ × UInt64 × UInt32} (hr : r ∈ p.hist.recorded) :
    sampleOf D.order r.1 r.2.1 = some r.2.2 := by
  have hall := h.holds
    (P := fun p => ∀ r ∈ p.hist.recorded, sampleOf D.order r.1 r.2.1 = some r.2.2)
    (fun q hq r hr => ((seen hq).recorded r hr).2) fun _ hp => hp
  exact hall r hr

/-! ## §2. The messages of a run. -/

/-- A packet whose stamp is not from the future. -/
def PastPacket (D : Deployment δ) (now : Int) (m : Message δ) : Prop :=
  ∃ it t, 0 ≤ t ∧ t ≤ now ∧ Packet D m it t

omit [DecidableEq δ] in
theorem PastPacket.mono {now now' : Int} {m : Message δ} (h : PastPacket D now m)
    (hnow : now ≤ now') : PastPacket D now' m := by
  obtain ⟨it, t, h0, h1, hm⟩ := h
  exact ⟨it, t, h0, by omega, hm⟩

theorem Move.now_le (h : Move D s s') : s.now ≤ s'.now := by
  cases h with
  | tick ns =>
      show s.now ≤ s.now + ns
      omega
  | _ => exact le_refl _

/-- **Every message under way was stamped in the past.** -/
theorem everywhere_past (h : (system D).Reachable s) : Everywhere (PastPacket D s.now) s := by
  refine reachable_induct (P := fun s => Everywhere (PastPacket D s.now) s) h
    ⟨by simp [initial], by simp [initial], by simp [initial, Process.initial]⟩ ?_
  intro s s' hs hQ hm
  have hnow := hm.now_le
  have hQ' : Everywhere (PastPacket D s'.now) s :=
    ⟨fun m h => (hQ.inbox m h).mono hnow, fun d m h => (hQ.queue d m h).mono hnow,
      fun d r h => (hQ.arrivals d r h).mono hnow⟩
  refine hQ'.move ?_ hm ?_
  · intro m b hpast
    obtain ⟨it, t, h0, h1, hpacket⟩ := hpast
    exact ⟨it, t, h0, h1, hpacket.beyond b⟩
  · intro d i token m hmessage hpc hlen
    obtain ⟨htopic, rfl, hpayload⟩ := exists_of_message hmessage
    obtain ⟨t, h0, h1, hstamped⟩ := stamps_past hs m.origin i hpc
    exact ⟨_, t, h0, by omega, htopic, size_of_payloadlen hlen, _, token, hstamped, hpayload⟩

/-- A message stamped at `t` with counter `it` arrived on `d` at `u`. -/
structure Timed (D : Deployment δ) (d : δ) (m : Message δ) (receiveTime : UInt64) (it : UInt32)
    (t u : Int) : Prop where
  packet : Packet D m it t
  start : 0 ≤ t
  causal : t ≤ u
  clock : receiveTime = D.clock d u

/-- **A message arrives after it was stamped**, on every device and in every
run. -/
theorem arrivals_timed (h : (system D).Reachable s) {d : δ} {r : Message δ × UInt64}
    (hr : r ∈ (s.procs d).hist.arrivals) : ∃ it t u, u ≤ s.now ∧ Timed D d r.1 r.2 it t u := by
  have hall : ∀ r ∈ (s.procs d).hist.arrivals, ∃ it t u, u ≤ s.now ∧ Timed D d r.1 r.2 it t u := by
    refine reachable_induct (P := fun s => ∀ r ∈ (s.procs d).hist.arrivals,
      ∃ it t u, u ≤ s.now ∧ Timed D d r.1 r.2 it t u) h (by simp [initial, Process.initial]) ?_
    intro s s' hs ih hm r hr
    have hnow := hm.now_le
    rcases hm.arrivals_clock hr with hold | ⟨-, m, hmem, b, rfl⟩
    · obtain ⟨it, t, u, hu, ht⟩ := ih r hold
      exact ⟨it, t, u, by omega, ht⟩
    · -- what arrives now was stamped in the past
      obtain ⟨it, t, h0, h1, hpacket⟩ := (everywhere_past hs).queue d m hmem
      exact ⟨it, t, s.now, hnow, hpacket.beyond b, h0, h1, rfl⟩
  exact hall r hr

/-! ## §3. The law of a sample. -/

/-- Whole microseconds a device's clock shows at true time `t`. -/
def Deployment.micros (D : Deployment δ) (d : δ) (t : Int) : Int := (t + D.offset d) / 1000

omit [DecidableEq δ] in
/-- A clock shows whole microseconds. -/
theorem clock_eq (D : Deployment δ) (d : δ) (t : Int) :
    D.clock d t = UInt64.ofInt (D.micros d t) := by
  unfold Deployment.clock
  rw [getUsTime_eq]
  unfold Timespec.micros Timespec.nanos Timespec.ofNanos Deployment.micros
  congr 1
  simp only
  omega

/-- The 32-bit difference of two readings is the integer one modulo `2 ^ 32`. -/
theorem rtt_mod (a b : Int) :
    ((rtt (UInt64.ofInt a) (UInt64.ofInt b)).toNat : Int) = (a - b) % 2 ^ 32 := by
  unfold rtt
  rw [UInt64.sub_eq_add_neg, ← UInt64.ofInt_neg, ← UInt64.ofInt_add, UInt64.toNat_toUInt32]
  unfold UInt64.ofInt
  rw [UInt64.toNat_ofNat_of_lt' (by simp [UInt64.size]; omega)]
  omega

/-- Nanoseconds that seem to pass on `d` between a stamp of `e` at `t` and true
time `u`. -/
def Deployment.apparent (D : Deployment δ) (d e : δ) (t u : Int) : Int :=
  (u - t) + (D.offset d - D.offset e)

/-- The sample of a message stamped at true time `t` and received at `u`. -/
structure Measures (D : Deployment δ) (d : δ) (r : Message δ × UInt64 × UInt32) (t u : Int) :
    Prop where
  /-- The difference of the two readings, modulo `2 ^ 32`. -/
  wrapped : (r.2.2.toNat : Int) = (D.micros d u - D.micros r.1.origin t) % 2 ^ 32
  /-- The time under way and the skew of the clocks, to the microsecond. -/
  skewed : 0 ≤ D.apparent d r.1.origin t u → D.apparent d r.1.origin t u ≤ (2 ^ 32 - 1) * 1000 →
    |1000 * (r.2.2.toNat : Int) - D.apparent d r.1.origin t u| < 1000
  /-- Without skew, and so for a message of its own: the time under way. -/
  roundTrip : D.offset d = D.offset r.1.origin → u - t ≤ (2 ^ 32 - 1) * 1000 →
    |1000 * (r.2.2.toNat : Int) - (u - t)| < 1000
  /-- A publisher whose clock is ahead by more than the time under way leaves
  a sample that is negative as an `int`. -/
  ahead : -(2 ^ 31 * 1000) ≤ D.apparent d r.1.origin t u → D.apparent d r.1.origin t u ≤ -1000 →
    2 ^ 31 ≤ r.2.2.toNat

omit [DecidableEq δ] in
theorem measures_of_wrapped {d : δ} {r : Message δ × UInt64 × UInt32} {t u : Int} (htu : t ≤ u)
    (h : (r.2.2.toNat : Int) = (D.micros d u - D.micros r.1.origin t) % 2 ^ 32) :
    Measures D d r t u := by
  have hskewed : 0 ≤ D.apparent d r.1.origin t u →
      D.apparent d r.1.origin t u ≤ (2 ^ 32 - 1) * 1000 →
      |1000 * (r.2.2.toNat : Int) - D.apparent d r.1.origin t u| < 1000 := by
    intro h0 h1
    unfold Deployment.apparent at h0 h1 ⊢
    unfold Deployment.micros at h
    rw [abs_lt]
    omega
  refine ⟨h, hskewed, ?_, ?_⟩
  · intro hoff hlt
    have heq : D.apparent d r.1.origin t u = u - t := by
      unfold Deployment.apparent
      omega
    rw [← heq]
    exact hskewed (by omega) (by omega)
  · intro h0 h1
    unfold Deployment.apparent at h0 h1
    unfold Deployment.micros at h
    omega

/-- **WHAT EVERY SAMPLE MEASURES**: in every run of every deployment the message
of a sample was stamped before it arrived, and the sample is the time between,
plus the skew of the two clocks, rounded on both and wrapped at `2 ^ 32`, when
the publisher's header fits and its QoS is at most 2. -/
theorem sample_measures (D : Deployment δ) (s : State δ) (hs : (system D).Reachable s) (d : δ)
    (r : Message δ × UInt64 × UInt32) (hr : r ∈ (s.procs d).hist.recorded)
    (hplain : Plain (D.config r.1.origin)) :
    ∃ it t u, u ≤ s.now ∧ Timed D d r.1 r.2.1 it t u ∧ Measures D d r t u := by
  obtain ⟨it, t, u, hu, htimed⟩ := arrivals_timed hs ((isProcess hs d).arrived hr)
  refine ⟨it, t, u, hu, htimed, measures_of_wrapped htimed.causal ?_⟩
  -- the sample was computed from the stamp in the payload
  have hsample := (isProcess hs d).sampled hr
  unfold sampleOf at hsample
  rw [htimed.packet.decodes hplain, Option.map_some, Option.some.injEq] at hsample
  have hclock : r.2.1 = D.clock d u := htimed.clock
  rw [← hsample]
  show ((rtt r.2.1 (D.clock r.1.origin t)).toNat : Int) = _
  rw [hclock, clock_eq, clock_eq, rtt_mod]

/-- One round of `one_to_one_isolated.py`: `true` subscribes, `false`
publishes. -/
def oneToOne (order : ByteOrder) (opts : Options) (hostname : Bool → CString)
    (rand : Bool → Nat → Nat) (offset : Bool → Int) (slack : Bool → Nat) : Deployment Bool where
  order := order
  config d :=
    if d then opts.config (hostname d) [] ["topic"] else opts.config (hostname d) ["topic"] []
  rand := rand
  offset := offset
  slack := slack

/-- A subscriber whose clock is five milliseconds ahead. -/
def skewed : Deployment Bool :=
  oneToOne .little ⟨20, 64, 1⟩ (fun _ => testClient) (fun _ i => i)
    (fun d => if d then 5000000 else 0) fun _ => 0

/-- Five milliseconds of skew are in a sample that some run of one round
stores. -/
theorem sample_measures_skewed :
    ∃ s, (system skewed).Reachable s ∧ ∃ r ∈ (s.procs true).hist.recorded, r.1.origin = false
      ∧ ∃ it t u, u ≤ s.now ∧ Timed skewed true r.1 r.2.1 it t u ∧ Measures skewed true r t u := by
  have hplain : Plain (skewed.config false) := ⟨by decide, by decide⟩
  have hint : (skewed.config false).payloadSize.toNat < 2 ^ 31 := by decide
  obtain ⟨s, hs, -, r, hr, horigin, -, -⟩ := leads_recorded (D := skewed) (A := fun _ => True)
    (s := initial) (d := true) (e := false) trivial trivial rfl rfl (by decide) (by decide) rfl
    (show "topic" ≠ pubkill by decide) (by decide) (by decide) (by decide)
    (hplain.fits.writable hint.le) hint (fun _ => []) (by
      intro m horigin hsent
      rw [← horigin] at hplain
      obtain ⟨it, t, hdec⟩ := hsent.decodes hplain []
      exact ⟨_, hdec⟩)
  have hreach := hs.leads
  exact ⟨s, hreach, r, hr, horigin,
    sample_measures skewed s hreach true r hr (by rw [horigin]; exact hplain)⟩

end MqttBenchmark.Cluster
