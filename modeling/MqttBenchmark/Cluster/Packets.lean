/-
  MqttBenchmark.Cluster.Packets
  ─────────────────────────────
  **NO PACKET IS MEASURED TWICE.**

  A publish thread numbers its packets, the broker hands a message to each
  subscriber once, and `msgarrvd` stores at most one sample for it.

    • `MailMove` — what one step does to the messages of a cluster,
    • `counter_eq` — the counter of a publisher is the number of its publishes,
    • `recorded_sublist` — samples are stored in the order of arrival,
    • `no_sample_twice` — the samples of a process belong to different packets.
-/
import MqttBenchmark.Cluster.Clocks
import Mathlib.Data.List.Perm.Subperm

namespace MqttBenchmark

open Lib Lib.System Function

/-! ## §1. One process: samples in order, publishes counted. -/

namespace Process

variable {ι : Type} {o : ByteOrder} {cfg : Config} {s s' : State ι}

/-- The message `msgarrvd` holds and has not stored a sample of. -/
def CallbackPC.unstored : CallbackPC ι → List (Message ι × UInt64)
  | .arrived m t => [(m, t)]
  | .storeRtt m t _ => [(m, t)]
  | _ => []

/-- The samples belong to arrivals before the one being handled, in order. -/
def InOrder (s : State ι) : Prop :=
  ∃ earlier, s.hist.arrivals = earlier ++ s.callback.unstored
    ∧ (s.hist.recorded.map fun r => (r.1, r.2.1)).Sublist earlier

theorem InOrder.congr (h : InOrder s) (hcb : s'.callback = s.callback)
    (harr : s'.hist.arrivals = s.hist.arrivals) (hrec : s'.hist.recorded = s.hist.recorded) :
    InOrder s' := by
  obtain ⟨earlier, h1, h2⟩ := h
  exact ⟨earlier, by rw [harr, hcb, h1], by rwa [hrec]⟩

/-- The callback lets go of its message without a sample. -/
theorem InOrder.dropped (h : InOrder s) (hcb : s'.callback.unstored = [])
    (harr : s'.hist.arrivals = s.hist.arrivals) (hrec : s'.hist.recorded = s.hist.recorded) :
    InOrder s' := by
  obtain ⟨earlier, h1, h2⟩ := h
  refine ⟨earlier ++ s.callback.unstored, by rw [harr, hcb, h1, List.append_nil], ?_⟩
  rw [hrec]
  exact h2.trans (List.sublist_append_left _ _)

/-- **The callback thread records in the order of arrival.** -/
theorem in_order (h : (system o cfg).Reachable s) : InOrder s := by
  apply reachable_induct h ⟨[], by simp [initial, CallbackPC.unstored], by simp [initial]⟩
  intro s s' _ _ hs hm
  cases hm with
  | main h => exact hs.congr h.frame.callback h.frame.arrivals h.frame.recorded
  | sub i h => exact hs.congr h.frame.callback h.frame.arrivals h.frame.recorded
  | pub i h => exact hs.congr h.frame.callback (by rw [h.frame.hist]) (by rw [h.frame.hist])
  | callback h =>
      cases h with
      | storeReceive m t x buf hpc htopic hit hx hbuf =>
          obtain ⟨earlier, h1, h2⟩ := hs
          rw [hpc] at h1
          exact ⟨earlier, h1, h2⟩
      | storeRtt m t x buf hpc hbuf =>
          -- the sample of the last arrival
          obtain ⟨earlier, h1, h2⟩ := hs
          rw [hpc] at h1
          refine ⟨earlier ++ [(m, t)], ?_, ?_⟩
          · show s.hist.arrivals = earlier ++ [(m, t)] ++ []
            rw [h1, List.append_nil]
            rfl
          · show ((s.hist.recorded ++ [(m, t, x)]).map _).Sublist _
            rw [List.map_append]
            exact h2.append (List.Sublist.refl _)
      | fault => exact hs.congr rfl rfl rfl
      | _ => exact hs.dropped rfl rfl rfl
  | paho h =>
      cases h with
      | arrive m t hpc hmatch =>
          obtain ⟨earlier, h1, h2⟩ := hs
          rw [hpc] at h1
          refine ⟨s.hist.arrivals, rfl, ?_⟩
          rw [h1]
          exact h2.trans (List.sublist_append_left _ _)
      | confirm k n dt hpc hk => exact hs.dropped rfl rfl rfl
      | lose => exact hs.congr rfl rfl rfl

/-- **Samples are stored in the order of arrival**, and none for a message
that did not arrive. -/
theorem recorded_sublist (h : (system o cfg).Reachable s) :
    (s.hist.recorded.map fun r => (r.1, r.2.1)).Sublist s.hist.arrivals := by
  obtain ⟨earlier, h1, h2⟩ := in_order h
  rw [h1]
  exact h2.trans (List.sublist_append_left _ _)

/-- The thread has published and has not counted it yet. -/
def PubPC.uncounted : PubPC → UInt32
  | .publishing _ | .spin | .postMutex | .interval => 1
  | _ => 0

/-- The counter of the only publish thread goes with its publishes. -/
structure Counted (s : State ι) : Prop where
  idle : (s.pubs 0).pc = .absent → s.paho.issued = 0
  it : (s.pubs 0).it + (s.pubs 0).pc.uncounted = UInt32.ofNat s.paho.issued

theorem Counted.congr (h : Counted s) (hpubs : s'.pubs 0 = s.pubs 0)
    (hiss : s'.paho.issued = s.paho.issued) : Counted s' := by
  obtain ⟨h1, h2⟩ := h
  exact ⟨by rwa [hpubs, hiss], by rwa [hpubs, hiss]⟩

/-- A publish thread issues a message before it counts it. -/
theorem Counted.pub_move (h : Counted s) (hm : PubMove cfg s 0 s') : Counted s' := by
  obtain ⟨h1, h2⟩ := h
  cases hm with
  | exit => exact ⟨h1, h2⟩
  | publish tok hpc htok hlost =>
      rw [hpc] at h2
      refine ⟨by simp, ?_⟩
      show (update s.pubs 0 _ 0).it + PubPC.uncounted (update s.pubs 0 _ 0).pc
        = UInt32.ofNat (s.paho.issued + 1)
      rw [update_self, UInt32.ofNat_add, ← h2]
      simp [PubPC.uncounted]
  | interval hpc =>
      rw [hpc] at h2
      refine ⟨by simp, ?_⟩
      show (update s.pubs 0 _ 0).it + PubPC.uncounted (update s.pubs 0 _ 0).pc
        = UInt32.ofNat s.paho.issued
      rw [update_self, ← h2]
      simp [PubPC.uncounted]
  | _ =>
      -- the counter and what is uncounted stay
      have hpc := ‹(s.pubs 0).pc = _›
      rw [hpc] at h2
      refine ⟨by simp, ?_⟩
      simpa [PubPC.uncounted] using h2

/-- **The counter is the number of messages issued**, for a single publish thread. -/
theorem counted (hpubs : cfg.numPubs ≤ 1) (h : (system o cfg).Reachable s) : Counted s := by
  apply reachable_induct h ⟨fun _ => rfl, rfl⟩
  intro s s' hs _ hc hm
  cases hm with
  | main h =>
      have hiss : s'.paho.issued = s.paho.issued := by rw [h.frame.paho]
      have hsp := spawned hs
      cases h with
      | createPub i hpc hi =>
          -- the thread is new, so nothing has been published
          obtain rfl : i = 0 := by omega
          have habsent : (s.pubs 0).pc = .absent := by
            rw [hsp.pubs 0, hpc]
            exact le_refl 0
          have h0 := hc.idle habsent
          refine ⟨by simp [PubThread.fresh], ?_⟩
          show (update s.pubs 0 _ 0).it + PubPC.uncounted (update s.pubs 0 _ 0).pc = _
          rw [update_self, hiss, h0]
          rfl
      | _ => exact hc.congr rfl rfl
  | sub i h => exact hc.congr (by rw [h.frame.pubs]) h.frame.issued
  | callback h => exact hc.congr (by rw [h.frame.pubs]) h.frame.issued
  | paho h => exact hc.congr (by rw [h.frame.pubs]) h.frame.issued
  | pub i h =>
      rcases h.lt_numPubs hs with rfl | hlt
      · exact hc.congr rfl rfl
      · obtain rfl : i = 0 := by omega
        exact hc.pub_move h

end Process

namespace Cluster

open Process

variable {δ : Type} [DecidableEq δ] {D : Deployment δ} {s s' : State δ}

/-! ## §2. What one step does to the messages. -/

/-- Messages are issued into the inbox, routed into queues, delivered. -/
inductive MailMove (D : Deployment δ) (s s' : State δ) : Prop
  | quiet (hinbox : s'.inbox = s.inbox) (hqueue : s'.queue = s.queue)
      (harr : ∀ d, (s'.procs d).hist.arrivals = (s.procs d).hist.arrivals)
      (hiss : ∀ d, (s.procs d).paho.issued ≤ (s'.procs d).paho.issued)
  | issue (d : δ) (i : Nat) (token : Int) (hpc : ((s.procs d).pubs i).pc = .publish)
      (hrun : (s.procs d).outcome = .running) (hlen : 0 ≤ (D.config d).payloadSize.toInt32.toInt)
      (hinbox : s'.inbox = s.inbox ++ (message D s d i token).toList) (hqueue : s'.queue = s.queue)
      (harr : ∀ d, (s'.procs d).hist.arrivals = (s.procs d).hist.arrivals)
      (hiss : (s'.procs d).paho.issued = (s.procs d).paho.issued + 1)
      (hothers : ∀ e, e ≠ d → (s'.procs e).paho.issued = (s.procs e).paho.issued)
  | route (k : Nat) (m : Message δ) (hk : s.inbox[k]? = some m)
      (hinbox : s'.inbox = s.inbox.eraseIdx k) (hqueue : s'.queue = broadcast s m)
      (hprocs : s'.procs = s.procs)
  | deliver (d : δ) (k : Nat) (m : Message δ) (b : Bytes) (hk : (s.queue d)[k]? = some m)
      (hinbox : s'.inbox = s.inbox) (hqueue : s'.queue = update s.queue d ((s.queue d).eraseIdx k))
      (harr : (s'.procs d).hist.arrivals
        = (s.procs d).hist.arrivals ++ [({ m with beyond := b }, D.clock d s.now)])
      (hothers : ∀ e, e ≠ d → (s'.procs e).hist.arrivals = (s.procs e).hist.arrivals)
      (hiss : ∀ e, (s'.procs e).paho.issued = (s.procs e).paho.issued)

/-- A field of one process after that process is set. -/
theorem setProc_field {β : Type} (f : Process.State δ → β) {d : δ} {p : Process.State δ}
    (h : f p = f (s.procs d)) (e : δ) : f ((s.setProc d p).procs e) = f (s.procs e) := by
  by_cases he : e = d
  · subst he
    rw [setProc_self, h]
  · rw [setProc_of_ne _ _ he]

omit [DecidableEq δ] in
theorem pub_issued_le {cfg : Config} {p p' : Process.State δ} {i : Nat} (h : PubMove cfg p i p') :
    p.paho.issued ≤ p'.paho.issued := by
  cases h with
  | publish tok hpc htok hlost => exact Nat.le_succ _
  | _ => exact le_refl _

/-- What a move does to the mail. -/
theorem Move.mail (h : Move D s s') : MailMove D s s' := by
  -- a move of one process that keeps its arrivals and its publishes
  have hquiet : ∀ {d : δ} {p : Process.State δ} {t : State δ}, t.procs = (s.setProc d p).procs →
      t.inbox = s.inbox → t.queue = s.queue → p.hist.arrivals = (s.procs d).hist.arrivals →
      (s.procs d).paho.issued ≤ p.paho.issued → MailMove D s t := by
    intro d p t hprocs hinbox hqueue harr hiss
    refine .quiet hinbox hqueue (fun e => ?_) fun e => ?_
    · rw [hprocs]
      exact setProc_field (fun p => p.hist.arrivals) harr e
    · rw [hprocs]
      by_cases he : e = d
      · subst he
        rwa [setProc_self]
      · rw [setProc_of_ne _ _ he]
  cases h with
  | tick ns => exact .quiet rfl rfl (fun _ => rfl) fun _ => le_refl _
  | proc d a p ha h =>
      have f := step_local h ha
      exact hquiet rfl rfl rfl f.arrivals f.issued.ge
  | init d i e p buf hpc h hbuf =>
      exact hquiet rfl rfl rfl (by rw [(step_pub h).frame.hist]) (pub_issued_le (step_pub h))
  | stamp d i e p buf hpc h hclock hbuf =>
      exact hquiet rfl rfl rfl (by rw [(step_pub h).frame.hist]) (pub_issued_le (step_pub h))
  | crash d => exact hquiet (p := (s.procs d).fault) rfl rfl rfl rfl (le_refl _)
  | pub d i e p hstart hstamp h hiss =>
      exact hquiet rfl rfl rfl (by rw [(step_pub h).frame.hist]) hiss.ge
  | unsent d i e p q hpc h hlose =>
      -- the library has counted the publish, but there is no message
      obtain rfl := step_lose hlose
      have hle := pub_issued_le (step_pub h)
      have harr : p.hist.arrivals = (s.procs d).hist.arrivals := by rw [(step_pub h).frame.hist]
      exact hquiet rfl rfl rfl harr hle
  | issue d i e p hpc h hiss hlen =>
      have hsucc : p.paho.issued = (s.procs d).paho.issued + 1 := by
        have hm := step_pub h
        cases hm with
        | publish tok hpc' htok hlost => rfl
        | _ => exact absurd rfl hiss
      refine .issue d i e.token hpc (step_running h) hlen rfl rfl (fun e => ?_) ?_ fun e he => ?_
      · exact setProc_field (fun p => p.hist.arrivals) (by rw [(step_pub h).frame.hist]) e
      · show ((s.setProc d p).procs d).paho.issued = _
        rw [setProc_self, hsucc]
      · show ((s.setProc d p).procs e).paho.issued = _
        rw [setProc_of_ne _ _ he]
  | route k m hk => exact .route k m hk rfl rfl rfl
  | deliver d k m beyond p hk h =>
      obtain ⟨-, rfl⟩ := step_arrive h
      refine .deliver d k m beyond hk rfl rfl ?_ (fun e he => ?_) fun e => ?_
      · simp only [setProc_self]
      · simp only [setProc_of_ne _ _ he]
      · exact setProc_field (d := d) (fun p => p.paho.issued) (by rfl) e

/-! ## §3. Packets are numbered. -/

/-- Publisher and number of a message. -/
def key (D : Deployment δ) (m : Message δ) : δ × Option UInt32 :=
  (m.origin, (decodePayload D.order m.payload).map Header.pktNo)

/-- The keys of the messages on their way to `d` or there already. -/
def keys (D : Deployment δ) (s : State δ) (d : δ) : List (δ × Option UInt32) :=
  s.inbox.map (key D) ++ (s.queue d).map (key D)
    ++ (s.procs d).hist.arrivals.map fun r => key D r.1

/-- A message of the mail of `d` is one of the packets its publisher has
published so far, and no packet is in it twice. -/
structure Unique (D : Deployment δ) (s : State δ) (d : δ) : Prop where
  numbered : ∀ x ∈ keys D s d, ∃ k < (s.procs x.1).paho.issued, x.2 = some (UInt32.ofNat k)
  nodup : (keys D s d).Nodup

theorem MailMove.issued_le (h : MailMove D s s') (d : δ) :
    (s.procs d).paho.issued ≤ (s'.procs d).paho.issued := by
  cases h with
  | quiet hinbox hqueue harr hiss => exact hiss d
  | issue e i token hpc hrun hlen hinbox hqueue harr hiss hothers =>
      by_cases hd : d = e
      · subst hd
        omega
      · exact (hothers d hd).ge
  | route k m hk hinbox hqueue hprocs => rw [hprocs]
  | deliver e k m b hk hinbox hqueue harr hothers hiss => exact (hiss d).ge

/-- The mail loses a message or keeps them all, while publishers go on. -/
theorem Unique.mono {d : δ} (h : Unique D s d) (hm : MailMove D s s')
    (hkeys : (keys D s' d).Subperm (keys D s d)) : Unique D s' d := by
  constructor
  · intro x hx
    obtain ⟨k, hk, heq⟩ := h.numbered x (hkeys.subset hx)
    exact ⟨k, lt_of_lt_of_le hk (hm.issued_le x.1), heq⟩
  · obtain ⟨l, hperm, hsub⟩ := hkeys
    exact hperm.nodup_iff.mp (h.nodup.sublist hsub)

omit [DecidableEq δ] in
/-- A message that leaves a queue takes its key along. -/
theorem map_key_eraseIdx {l : List (Message δ)} {k : Nat} {m : Message δ} (hk : l[k]? = some m) :
    (key D m :: (l.eraseIdx k).map (key D)).Perm (l.map (key D)) := by
  obtain ⟨hlt, rfl⟩ := List.getElem?_eq_some_iff.mp hk
  exact (List.getElem_cons_eraseIdx_perm hlt).map (key D)

omit [DecidableEq δ] in
/-- The broker moves a message or drops it. -/
theorem keys_route {k : Nat} {m : Message δ} (hk : s.inbox[k]? = some m)
    (hinbox : s'.inbox = s.inbox.eraseIdx k) (hqueue : s'.queue = broadcast s m)
    (hprocs : s'.procs = s.procs) (d : δ) : (keys D s' d).Subperm (keys D s d) := by
  have hperm := map_key_eraseIdx (D := D) hk
  unfold keys
  rw [hinbox, hqueue, hprocs]
  refine List.Subperm.append ?_ (List.Subperm.refl _)
  unfold broadcast
  split
  next =>
    -- from the inbox to the end of the queue
    rw [List.map_append]
    apply List.Perm.subperm
    calc (s.inbox.eraseIdx k).map (key D) ++ ((s.queue d).map (key D) ++ [key D m])
      _ = (s.inbox.eraseIdx k).map (key D) ++ (s.queue d).map (key D) ++ [key D m] :=
          (List.append_assoc ..).symm
      List.Perm _ (key D m :: ((s.inbox.eraseIdx k).map (key D) ++ (s.queue d).map (key D))) :=
          List.perm_append_singleton _ _
      List.Perm _ (s.inbox.map (key D) ++ (s.queue d).map (key D)) := hperm.append_right _
  next =>
    refine List.Subperm.append ?_ (List.Subperm.refl _)
    exact List.subperm_cons_self.trans hperm.subperm

/-- A delivery moves a message from the queue to the arrivals. -/
theorem keys_deliver {d : δ} {k : Nat} {m : Message δ} {b : Bytes} {x : UInt64}
    (hk : (s.queue d)[k]? = some m) (hinbox : s'.inbox = s.inbox)
    (hqueue : s'.queue = update s.queue d ((s.queue d).eraseIdx k))
    (harr : (s'.procs d).hist.arrivals
      = (s.procs d).hist.arrivals ++ [({ m with beyond := b }, x)]) :
    (keys D s' d).Perm (keys D s d) := by
  have hperm := map_key_eraseIdx (D := D) hk
  unfold keys
  rw [hinbox, hqueue, harr, update_self, List.map_append, List.append_assoc, List.append_assoc]
  apply List.Perm.append_left
  -- the key does not depend on what lies behind the payload
  have hkey : key D { m with beyond := b } = key D m := rfl
  rw [List.map_singleton, hkey]
  calc ((s.queue d).eraseIdx k).map (key D)
        ++ ((s.procs d).hist.arrivals.map (fun r => key D r.1) ++ [key D m])
    _ = ((s.queue d).eraseIdx k).map (key D)
        ++ (s.procs d).hist.arrivals.map (fun r => key D r.1) ++ [key D m] :=
        (List.append_assoc ..).symm
    List.Perm _ (key D m :: (((s.queue d).eraseIdx k).map (key D)
        ++ (s.procs d).hist.arrivals.map fun r => key D r.1)) := List.perm_append_singleton _ _
    List.Perm _ ((s.queue d).map (key D)
        ++ (s.procs d).hist.arrivals.map fun r => key D r.1) := hperm.append_right _

/-- The key of what publish thread `i` is about to send. -/
theorem key_published (hs : (system D).Reachable s) {d : δ} {i : Nat}
    (hpubs : (D.config d).numPubs ≤ 1) (hfit : Fits (D.config d))
    (hlen : 0 ≤ (D.config d).payloadSize.toInt32.toInt)
    (hpc : ((s.procs d).pubs i).pc = .publish) (hrun : (s.procs d).outcome = .running) :
    key D (plainMessage D s d i) = (d, some (UInt32.ofNat (s.procs d).paho.issued)) := by
  have hreach := (isProcess hs d).reachable hrun
  -- the only publish thread is the first one
  have hlt := pub_lt_numPubs hreach (i := i) (by rw [hpc]; simp)
  obtain rfl : i = 0 := by omega
  obtain ⟨t, -, -, hstamped⟩ := stamps_past hs d 0 hpc
  have hdec := hstamped.decodes hfit (size_of_payloadlen hlen) []
  have hit := (counted hpubs hreach).it
  rw [hpc] at hit
  unfold key plainMessage
  rw [List.append_nil] at hdec
  rw [hdec, ← hit]
  simp [PubPC.uncounted]

/-- A packet that is published now is a new one. -/
theorem Unique.issue {d e : δ} {m : Message δ} (h : Unique D s d) (hm : MailMove D s s')
    (hkey : key D m = (e, some (UInt32.ofNat (s.procs e).paho.issued)))
    (hiss : (s'.procs e).paho.issued = (s.procs e).paho.issued + 1)
    (hlt : (s.procs e).paho.issued < 2 ^ 32)
    (hkeys : (keys D s' d).Perm (key D m :: keys D s d)) : Unique D s' d := by
  have hnew : key D m ∉ keys D s d := by
    intro hmem
    obtain ⟨k, hk, heq⟩ := h.numbered _ hmem
    rw [hkey] at hk heq
    have hk' : k < (s.procs e).paho.issued := hk
    -- two numbers below `2 ^ 32` with the same 32 bits
    have hnat := congrArg UInt32.toNat (Option.some.inj heq)
    rw [UInt32.toNat_ofNat_of_lt' (by simp [UInt32.size]; omega),
      UInt32.toNat_ofNat_of_lt' (by simp [UInt32.size]; omega)] at hnat
    omega
  constructor
  · intro x hx
    rcases List.mem_cons.mp (hkeys.subset hx) with rfl | hx
    · rw [hkey]
      have hk : (s.procs e).paho.issued < (s'.procs e).paho.issued := by omega
      exact ⟨_, hk, rfl⟩
    · obtain ⟨k, hk, heq⟩ := h.numbered x hx
      exact ⟨k, lt_of_lt_of_le hk (hm.issued_le x.1), heq⟩
  · exact hkeys.nodup_iff.mpr (List.nodup_cons.mpr ⟨hnew, h.nodup⟩)

/-- The deployments of the scripts: at most one publish thread a process, a
header that fits and a QoS up to 2. -/
structure Scripted (D : Deployment δ) : Prop where
  numPubs : ∀ d, (D.config d).numPubs ≤ 1
  plain : ∀ d, Plain (D.config d)

/-- **Every message is under way to a process at most once**, until a
publisher has wrapped its counter. -/
theorem unique (hD : Scripted D) (hs : (system D).Reachable s)
    (hissued : ∀ e, (s.procs e).paho.issued ≤ 2 ^ 32) (d : δ) : Unique D s d := by
  revert hissued
  refine reachable_induct (P := fun s => (∀ e, (s.procs e).paho.issued ≤ 2 ^ 32) → Unique D s d) hs
    (fun _ => ⟨?_, ?_⟩) ?_
  · intro x hx
    simp [keys, initial, Process.initial] at hx
  · simp [keys, initial, Process.initial]
  intro s s' hs ih hm hle
  have hmail := hm.mail
  have hu := ih fun e => (hmail.issued_le e).trans (hle e)
  cases hmail with
  | quiet hinbox hqueue harr hiss =>
      have hsame : keys D s' d = keys D s d := by
        unfold keys
        rw [hinbox, hqueue, harr]
      exact hu.mono hm.mail (by rw [hsame])
  | issue e i token hpc hrun hlen hinbox hqueue harr hiss hothers =>
      have hlt := hle e
      obtain ⟨hfit, hqos⟩ := hD.plain e
      rw [message_eq hqos, Option.toList_some] at hinbox
      refine hu.issue hm.mail (key_published hs (hD.numPubs e) hfit hlen hpc hrun) hiss
        (by omega) ?_
      unfold keys
      rw [hinbox, hqueue, harr, List.map_append, List.append_assoc, List.append_assoc,
        List.append_assoc]
      exact List.perm_middle
  | route k m hk hinbox hqueue hprocs =>
      exact hu.mono hm.mail (keys_route hk hinbox hqueue hprocs d)
  | deliver e k m b hk hinbox hqueue harr hothers hiss =>
      apply hu.mono hm.mail
      by_cases hd : d = e
      · subst hd
        exact (keys_deliver hk hinbox hqueue harr).subperm
      · -- the mail of the other processes stays
        unfold keys
        rw [hinbox, hqueue, update_of_ne hd, hothers d hd]

omit [DecidableEq δ] in
/-- The message of a sample, in order of arrival. -/
theorem IsProcess.recorded_sublist {d : δ} {p : Process.State δ} (h : IsProcess D d p) :
    (p.hist.recorded.map fun r => (r.1, r.2.1)).Sublist p.hist.arrivals := by
  obtain ⟨q, hq, hp⟩ := h
  have hsub := Process.recorded_sublist hq
  -- a fault leaves the history as it is
  rcases hp with rfl | rfl
  · exact hsub
  · exact hsub

/-- **NO PACKET IS MEASURED TWICE**: whatever the broker delays or reorders,
two samples of a process never belong to the same packet of the same
publisher, and every sample belongs to a packet that was published. -/
theorem no_sample_twice (D : Deployment δ) (hD : Scripted D) (s : State δ)
    (hs : (system D).Reachable s) (hissued : ∀ e, (s.procs e).paho.issued ≤ 2 ^ 32) (d : δ) :
    ((s.procs d).hist.recorded.map fun r => key D r.1).Nodup
      ∧ ∀ r ∈ (s.procs d).hist.recorded, ∃ k < (s.procs r.1.origin).paho.issued,
          key D r.1 = (r.1.origin, some (UInt32.ofNat k)) := by
  have hu := unique hD hs hissued d
  have hsub := ((isProcess hs d).recorded_sublist).map fun r => key D r.1
  rw [List.map_map] at hsub
  have hkeys : ((s.procs d).hist.recorded.map fun r => key D r.1).Sublist (keys D s d) :=
    hsub.trans (List.sublist_append_right _ _)
  refine ⟨hu.nodup.sublist hkeys, ?_⟩
  intro r hr
  obtain ⟨k, hk, heq⟩ := hu.numbered _ (hkeys.subset (List.mem_map_of_mem hr))
  exact ⟨k, hk, Prod.ext rfl heq⟩

/-- A round of one publisher and one subscriber, `--iterations=2 --qos=0`. -/
def twoPackets : Deployment Bool :=
  oneToOne .little ⟨2, 64, 0⟩ (fun _ => testClient) (fun _ i => i) (fun _ => 0) fun _ => 0

/-- Both processes start, `false` publishes twice, and the second message
arrives before the first. -/
def overtaking : List (Action Bool) :=
  List.replicate 6 (.proc true (.main granted)) ++ List.replicate 4 (.proc true (.sub 0 granted))
    ++ List.replicate 6 (.proc false (.main granted))
    ++ List.replicate 15 (.proc false (.pub 0 granted))
    ++ [.route 1, .route 0, .deliver true 0 []] ++ List.replicate 3 (.proc true .callback)
    ++ [.deliver true 0 []] ++ List.replicate 3 (.proc true .callback)

/-- Two samples, of two packets. -/
theorem no_sample_twice_overtaking :
    ∃ s, (system twoPackets).Reachable s ∧ (s.procs true).hist.recorded.length = 2
      ∧ ((s.procs true).hist.recorded.map fun r => key twoPackets r.1).Nodup
      ∧ ∀ r ∈ (s.procs true).hist.recorded, ∃ k < (s.procs r.1.origin).paho.issued,
          key twoPackets r.1 = (r.1.origin, some (UInt32.ofNat k)) := by
  have hrun : ((system twoPackets).run overtaking initial).map
      (fun s => ((s.procs true).hist.recorded.length, (s.procs true).paho.issued,
        (s.procs false).paho.issued)) = some (2, 0, 2) := by decide +kernel
  obtain ⟨s, hs, hout⟩ := Option.map_eq_some_iff.mp hrun
  obtain ⟨hlen, hsub, hpub⟩ : (s.procs true).hist.recorded.length = 2
      ∧ (s.procs true).paho.issued = 0 ∧ (s.procs false).paho.issued = 2 := by simpa using hout
  have hreach := leads_of_run _ hs
  refine ⟨s, hreach, hlen, no_sample_twice twoPackets ⟨?_, ?_⟩ s hreach ?_ true⟩
  · decide
  · intro d
    cases d
    · exact ⟨by decide, by decide⟩
    · exact ⟨by decide, by decide⟩
  · intro e
    cases e
    · omega
    · omega

end Cluster

end MqttBenchmark
