/-
  MqttBenchmark.Process.Handoff
  ─────────────────────────────
  **THE TOKEN HAND-OFF BETWEEN A PUBLISHER AND `delivered`.**

  A QoS 1/2 publish is a conversation over two shared variables: the
  publisher clears `deliveredtoken`, publishes and spins until it reads its
  own token there; `delivered` takes `qos1_pubmutex`, stores the token, and
  the publisher gives the mutex back.  `Handoff` is the part of the state
  this conversation is about, for a process with ONE publish thread:

    • `Quiet` — nothing in flight, mutex free, everything confirmed,
    • `Pending n dt` — publish `n` is out, its token not stored yet,
    • `Confirmed n dt` — its token is stored and not yet acknowledged.

  `handoff_inv`: the phase is determined by the program counter of the
  publisher in every reachable state.
-/
import MqttBenchmark.Process.Frames

namespace MqttBenchmark.Process

open Lib Function

variable {ι : Type} {o : ByteOrder} {cfg : Config} {s s' : State ι}

/-! ## §1. The view. -/

/-- Where the callback thread stands in `delivered`. -/
inductive Delivery where
  | idle
  | waiting (n : Nat) (dt : Int)
  | blocked (n : Nat) (dt : Int)
  | storing (n : Nat) (dt : Int)
  deriving DecidableEq, Repr

def CallbackPC.delivery : CallbackPC ι → Delivery
  | .delivered n dt => .waiting n dt
  | .inWaitMutex n dt => .blocked n dt
  | .storeToken n dt => .storing n dt
  | _ => .idle

/-- What the hand-off of publish thread 0 is about. -/
structure Handoff where
  pub : PubThread
  inflight : List (Nat × Int)
  delivery : Delivery
  mutex : Nat
  token : Int
  issued : Nat
  confirmed : List Nat

def handoff (s : State ι) : Handoff :=
  ⟨s.pubs 0, s.paho.inflight, s.callback.delivery, s.qos1Pubmutex.value, s.deliveredtoken,
    s.paho.issued, s.paho.confirmed⟩

namespace Handoff

/-- Nothing is under way. -/
structure Quiet (cfg : Config) (v : Handoff) : Prop where
  inflight : v.inflight = []
  delivery : v.delivery = .idle
  mutex : v.mutex = 1
  confirmed : cfg.qos ≠ 0 → ∀ k, k ∈ v.confirmed ↔ k < v.issued

/-- Publish `n` is the last one and is out; `delivered` is not called yet,
about to take the mutex, or about to store the token. -/
structure Pending (n : Nat) (dt : Int) (v : Handoff) : Prop where
  token : v.token = 0
  nonzero : dt ≠ 0
  issued : v.issued = n + 1
  confirmed : ∀ k, k ∈ v.confirmed ↔ k < n
  place : (v.inflight = [(n, dt)] ∧ v.delivery = .idle ∧ v.mutex = 1)
    ∨ (v.inflight = [] ∧ v.delivery = .waiting n dt ∧ v.mutex = 1)
    ∨ (v.inflight = [] ∧ v.delivery = .storing n dt ∧ v.mutex = 0)

/-- `delivered` has run for publish `n`, the last one. -/
structure Confirmed (n : Nat) (dt : Int) (v : Handoff) : Prop where
  inflight : v.inflight = []
  delivery : v.delivery = .idle
  mutex : v.mutex = 0
  token : v.token = dt
  issued : v.issued = n + 1
  confirmed : ∀ k, k ∈ v.confirmed ↔ k ≤ n

/-- The phase of the hand-off at each program counter of the publisher. -/
def Inv (cfg : Config) (v : Handoff) : Prop :=
  match v.pub.pc with
  | .publishing tok =>
      if cfg.qos = 0 then v.Quiet cfg
      else v.Pending v.pub.current tok ∨ v.Confirmed v.pub.current tok
  | .spin => cfg.qos ≠ 0
      ∧ (v.Pending v.pub.current v.pub.token ∨ v.Confirmed v.pub.current v.pub.token)
  | .postMutex => cfg.qos ≠ 0 ∧ v.Confirmed v.pub.current v.pub.token
  | .stamp | .publish => v.Quiet cfg ∧ v.token = 0
  | _ => v.Quiet cfg

/-- The token the publisher waits for, inside the publish and the spin. -/
def awaited (v : Handoff) : Option Int :=
  match v.pub.pc with
  | .publishing tok => some tok
  | .spin => some v.pub.token
  | _ => none

/-- Something is under way only for the publish the publisher waits for. -/
theorem Inv.busy {v : Handoff} (hi : v.Inv cfg) (hb : v.delivery ≠ .idle ∨ v.inflight ≠ []) :
    cfg.qos ≠ 0 ∧ ∃ dt, v.awaited = some dt ∧ v.Pending v.pub.current dt := by
  -- neither a quiet nor a confirmed hand-off has anything under way
  have hquiet : v.Quiet cfg → False := fun h => hb.elim (· h.delivery) (· h.inflight)
  have hconf : ∀ n dt, v.Confirmed n dt → False := fun n dt h =>
    hb.elim (· h.delivery) (· h.inflight)
  unfold Inv at hi
  unfold awaited
  split at hi
  next tok hpc =>
    split at hi
    next => exact (hquiet hi).elim
    next hq =>
      rw [hpc]
      exact ⟨hq, tok, rfl, hi.resolve_right (hconf _ _)⟩
  next hpc =>
    rw [hpc]
    exact ⟨hi.1, _, rfl, hi.2.resolve_right (hconf _ _)⟩
  next => exact (hconf _ _ hi.2).elim
  next => exact (hquiet hi.1).elim
  next => exact (hquiet hi.1).elim
  next => exact (hquiet hi).elim

/-- While the publisher waits, the phase may move on under it. -/
theorem inv_of_awaited {v : Handoff} {dt : Int} (hq : cfg.qos ≠ 0) (ha : v.awaited = some dt)
    (h : v.Pending v.pub.current dt ∨ v.Confirmed v.pub.current dt) : v.Inv cfg := by
  unfold awaited at ha
  unfold Inv
  split at ha
  next tok hpc =>
    cases ha
    rw [hpc]
    simp only [hq, if_false]
    exact h
  next hpc =>
    cases ha
    rw [hpc]
    exact ⟨hq, h⟩
  next => cases ha

end Handoff

/-! ## §2. The moves of the publisher and of the library. -/

/-- One move of the publish thread keeps the phase. -/
theorem handoff_inv_pub (hi : (handoff s).Inv cfg) (h : PubMove cfg s 0 s') :
    (handoff s').Inv cfg := by
  cases h with
  | reset hpc =>
      simp only [Handoff.Inv, handoff, hpc, State.setPub, update_self] at hi ⊢
      exact ⟨⟨hi.inflight, hi.delivery, hi.mutex, hi.confirmed⟩, trivial⟩
  | publish tok hpc htok hlost =>
      simp only [Handoff.Inv, handoff, hpc, update_self] at hi ⊢
      obtain ⟨⟨hfl, hdel, hmu, hconf⟩, htk⟩ := hi
      simp only at hfl hdel hmu hconf htk
      split
      next hq =>
        refine ⟨?_, hdel, hmu, fun h => absurd hq h⟩
        simp [hq, hfl]
      next hq =>
        refine .inl ⟨htk, htok, rfl, hconf hq, .inl ⟨?_, hdel, hmu⟩⟩
        simp [hfl]
  | published tok hpc hqos =>
      simp only [Handoff.Inv, handoff, hpc, update_self, hqos, if_false] at hi ⊢
      refine ⟨hqos, hi.imp ?_ ?_⟩
      · intro h
        exact ⟨h.token, h.nonzero, h.issued, h.confirmed, h.place⟩
      · intro h
        exact ⟨h.inflight, h.delivery, h.mutex, h.token, h.issued, h.confirmed⟩
  | sent tok hpc hqos =>
      simp only [Handoff.Inv, handoff, hpc, State.setPub, update_self, hqos, if_true] at hi ⊢
      exact ⟨hi.inflight, hi.delivery, hi.mutex, hi.confirmed⟩
  | leave hpc htok =>
      simp only [Handoff.Inv, handoff, hpc, State.setPub, update_self] at hi ⊢
      obtain ⟨hqos, h | h⟩ := hi
      · -- a token that is still pending is not 0, and 0 is what it reads
        exact absurd (htok.symm.trans h.token) h.nonzero
      · exact ⟨hqos, h.inflight, h.delivery, h.mutex, h.token, h.issued, h.confirmed⟩
  | postMutex hpc =>
      simp only [Handoff.Inv, handoff, hpc, State.setPub, update_self] at hi ⊢
      obtain ⟨-, h⟩ := hi
      have hmu : s.qos1Pubmutex.value = 0 := h.mutex
      have hiss : s.paho.issued = (s.pubs 0).current + 1 := h.issued
      -- the acknowledgement frees the mutex: publish `n` is done with
      refine ⟨h.inflight, h.delivery, ?_, ?_⟩
      · show min (s.qos1Pubmutex.value + 1) Sem.valueMax = 1
        rw [hmu]
        rfl
      · intro _ k
        rw [h.confirmed k, hiss, Nat.lt_succ_iff]
  | exit => exact hi
  | stamp t hpc =>
      simp only [Handoff.Inv, handoff, hpc, update_self] at hi ⊢
      exact ⟨⟨hi.1.inflight, hi.1.delivery, hi.1.mutex, hi.1.confirmed⟩, hi.2⟩
  | _ =>
      simp only [Handoff.Inv, handoff, ‹(s.pubs 0).pc = _›, State.setPub, State.addFilter,
        update_self] at hi ⊢
      exact ⟨hi.inflight, hi.delivery, hi.mutex, hi.confirmed⟩

/-- One move of the callback thread keeps the phase. -/
theorem handoff_inv_callback (hi : (handoff s).Inv cfg) (h : CallbackMove o cfg s s') :
    (handoff s').Inv cfg := by
  cases h with
  | take n dt d hpc hd =>
      have hval := Sem.take_eq_some.mp hd
      have hbusy : (handoff s).delivery ≠ .idle := by
        rcases hpc with hpc | hpc <;> simp [handoff, hpc, CallbackPC.delivery]
      obtain ⟨hqos, tok, hawait, hp⟩ := hi.busy (.inl hbusy)
      have hplace := hp.place
      rcases hpc with hpc | hpc
      · simp only [handoff, hpc, CallbackPC.delivery] at hplace
        obtain ⟨hfl, hw, hmu⟩ : s.paho.inflight = []
            ∧ Delivery.waiting n dt = .waiting (s.pubs 0).current tok ∧ s.qos1Pubmutex.value = 1 := by
          simpa using hplace
        cases hw
        -- the mutex moves from the semaphore into `delivered`
        refine Handoff.inv_of_awaited hqos hawait
          (.inl ⟨hp.token, hp.nonzero, hp.issued, hp.confirmed, .inr (.inr ⟨hfl, rfl, ?_⟩)⟩)
        show d.value = 0
        omega
      · simp [handoff, hpc, CallbackPC.delivery] at hplace
  | blocked n dt hpc hd =>
      have hval := Sem.take_eq_none.mp hd
      have hbusy : (handoff s).delivery ≠ .idle := by simp [handoff, hpc, CallbackPC.delivery]
      obtain ⟨-, tok, -, hp⟩ := hi.busy (.inl hbusy)
      have hplace := hp.place
      simp [handoff, hpc, CallbackPC.delivery, hval] at hplace
  | storeToken n dt hpc =>
      have hbusy : (handoff s).delivery ≠ .idle := by simp [handoff, hpc, CallbackPC.delivery]
      obtain ⟨hqos, tok, hawait, hp⟩ := hi.busy (.inl hbusy)
      have hplace := hp.place
      simp only [handoff, hpc, CallbackPC.delivery] at hplace
      obtain ⟨hfl, hw, hmu⟩ : s.paho.inflight = []
          ∧ Delivery.storing n dt = .storing (s.pubs 0).current tok ∧ s.qos1Pubmutex.value = 0 := by
        simpa using hplace
      cases hw
      -- storing the token is what turns `Pending` into `Confirmed`
      refine Handoff.inv_of_awaited hqos hawait (.inr ⟨hfl, rfl, hmu, rfl, hp.issued, ?_⟩)
      intro k
      have hk : k ∈ s.paho.confirmed ↔ k < (s.pubs 0).current := hp.confirmed k
      show k ∈ (s.pubs 0).current :: s.paho.confirmed ↔ k ≤ (s.pubs 0).current
      rw [List.mem_cons, hk, le_iff_eq_or_lt]
  | fault => exact hi
  | _ =>
      simp only [handoff, ‹s.callback = _›, CallbackPC.delivery] at hi ⊢
      exact hi

/-- One move of the library keeps the phase. -/
theorem handoff_inv_paho (hi : (handoff s).Inv cfg) (h : PahoMove s s') :
    (handoff s').Inv cfg := by
  cases h with
  | arrive m t hpc hmatch =>
      simp only [handoff, hpc, CallbackPC.delivery] at hi ⊢
      exact hi
  | confirm k n dt hpc hk =>
      have hbusy : (handoff s).inflight ≠ [] := by
        intro hnil
        have hnil : s.paho.inflight = [] := hnil
        simp [hnil] at hk
      obtain ⟨hqos, tok, hawait, hp⟩ := hi.busy (.inr hbusy)
      have hplace := hp.place
      simp only [handoff, hpc, CallbackPC.delivery] at hplace
      obtain ⟨hfl, hmu⟩ : s.paho.inflight = [((s.pubs 0).current, tok)]
          ∧ s.qos1Pubmutex.value = 1 := by
        simpa using hplace
      -- only one publish is in flight, so it is the one confirmed
      obtain ⟨rfl, heq⟩ : k = 0 ∧ ((s.pubs 0).current, tok) = (n, dt) := by
        rw [hfl] at hk
        cases k with
        | zero => exact ⟨rfl, by simpa using hk⟩
        | succ k => simp at hk
      cases heq
      refine Handoff.inv_of_awaited hqos hawait
        (.inl ⟨hp.token, hp.nonzero, hp.issued, hp.confirmed, .inr (.inl ⟨?_, rfl, hmu⟩)⟩)
      show s.paho.inflight.eraseIdx 0 = []
      rw [hfl]
      rfl
  | lose => exact hi

/-! ## §3. All moves. -/

/-- One move of `main` keeps the phase; it begins with the mutex. -/
theorem handoff_inv_main (hs : (system o cfg).Reachable s)
    (hi : s.main.initialising = false → (handoff s).Inv cfg) (h : MainMove cfg s s')
    (hinit : s'.main.initialising = false) : (handoff s').Inv cfg := by
  have hspawn := spawned hs
  cases h with
  | initDone hpc => cases hinit
  | initStop hpc => cases hinit
  | initMutex hpc =>
      have hu := startup hs (by rw [hpc]; rfl)
      have hpub : (s.pubs 0).pc = .absent := (hspawn.pubs 0).mpr (by rw [hpc]; exact Nat.le_refl 0)
      simp only [Handoff.Inv, handoff, hpub]
      refine ⟨hu.inflight, ?_, rfl, ?_⟩
      · show s.callback.delivery = .idle
        rw [hu.callback]
        rfl
      · intro _ k
        show k ∈ s.paho.confirmed ↔ k < s.paho.issued
        simp [hu.confirmed, hu.issued]
  | createPub i hpc hlt =>
      have hi := hi (by rw [hpc]; rfl)
      rcases Nat.eq_zero_or_pos i with rfl | hpos
      · have hpub : (s.pubs 0).pc = .absent :=
          (hspawn.pubs 0).mpr (by rw [hpc]; exact Nat.le_refl 0)
        simp only [Handoff.Inv, handoff, hpub, update_self, PubThread.fresh] at hi ⊢
        exact ⟨hi.inflight, hi.delivery, hi.mutex, hi.confirmed⟩
      · simp only [handoff, update_of_ne (show 0 ≠ i by omega)] at hi ⊢
        exact hi
  | _ => exact hi (by rw [‹s.main = _›]; rfl)

/-- **The hand-off invariant**, for one publish thread. -/
theorem handoff_inv (hpubs : cfg.numPubs = 1) (h : (system o cfg).Reachable s) :
    s.main.initialising = false → (handoff s).Inv cfg := by
  refine reachable_induct (P := fun s => s.main.initialising = false → (handoff s).Inv cfg) h
    (fun hinit => by cases hinit) ?_
  intro s s' hs _ ih hm hinit
  cases hm with
  | main h => exact handoff_inv_main hs ih h hinit
  | sub i h =>
      have f := h.frame
      rw [f.main] at hinit
      have hview : handoff s' = handoff s := by
        simp only [handoff, f.pubs, f.inflight, f.callback, f.qos1Pubmutex, f.deliveredtoken,
          f.issued, f.confirmed]
      rw [hview]
      exact ih hinit
  | pub i h =>
      rw [h.frame.main] at hinit
      rcases h.lt_numPubs hs with rfl | hlt
      · exact ih hinit
      · obtain rfl : i = 0 := by omega
        exact handoff_inv_pub (ih hinit) h
  | callback h =>
      rw [h.frame.main] at hinit
      exact handoff_inv_callback (ih hinit) h
  | paho h =>
      rw [h.frame.main] at hinit
      exact handoff_inv_paho (ih hinit) h

end MqttBenchmark.Process
