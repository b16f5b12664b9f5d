/-
  MqttBenchmark.Lib.Handshake
  ───────────────────────────
  **HANDING OVER ONE MESSAGE AT A TIME, EXACTLY ONCE.**

  A sender and a receiver share two channels that keep the order of what is
  on them and may lose any of it.  An exact message is offered until the
  receiver has it, then released until the receiver has passed it on; a plain
  one is sent until it is acknowledged.  What was sent may be sent again at
  any time.

    • `Step` — one step of either end, or a loss,
    • `exact_once` — exact messages are passed on once, in order,
    • `plain_once` — plain ones at least once, when nothing is sent again
      while something is under way.
-/
import Mathlib.Logic.Relation
import Mathlib.Tactic.Common
import Mathlib.Data.List.Basic

namespace MqttBenchmark.Lib.Handshake

variable {α : Type*}

/-! ## §1. The two ends and the channels. -/

/-- From the sender. -/
inductive Forward (α : Type*) where
  | offer (m : α)
  | plain (m : α)
  | release

/-- From the receiver. -/
inductive Answer where
  | received
  | acknowledged
  | completed
  deriving DecidableEq

inductive Sender (α : Type*) where
  | idle
  | plain (m : α)
  | offering (m : α)
  | releasing (m : α)

/-- What the sender is waiting for an answer to. -/
def Sender.packet : Sender α → List (Forward α)
  | .idle => []
  | .plain m => [.plain m]
  | .offering m => [.offer m]
  | .releasing _ => [.release]

/-- The message the sender is busy with. -/
def Sender.message : Sender α → List α
  | .idle => []
  | .plain m | .offering m | .releasing m => [m]

/-- The exact message the sender is busy with. -/
def Sender.exactMessage : Sender α → List α
  | .offering m | .releasing m => [m]
  | .idle | .plain _ => []

/-- The plain message the sender is busy with. -/
def Sender.plainMessage : Sender α → List α
  | .plain m => [m]
  | .idle | .offering _ | .releasing _ => []

/-- The two ends, the channels, and what has happened so far. -/
structure State (α : Type*) where
  sender : Sender α
  /-- The exact message the receiver has not passed on. -/
  held : Option α
  fwd : List (Forward α)
  back : List Answer
  /-- Exact messages the sender took on. -/
  accepted : List α
  /-- Exact messages the receiver passed on. -/
  delivered : List α
  /-- Plain messages the sender took on. -/
  acceptedPlain : List α
  /-- Plain messages the receiver passed on. -/
  deliveredPlain : List α
  /-- Final answers the sender has read. -/
  confirmed : Nat

def initial : State α := ⟨.idle, none, [], [], [], [], [], [], 0⟩

/-- One step; the sender sends again only in states with `R`, and a channel
loses something only with `L`. -/
inductive Step (R : State α → Prop) (L : Prop) (s : State α) : State α → Prop
  | offer (m : α) (h : s.sender = .idle) :
      Step R L s { s with sender := .offering m, fwd := s.fwd ++ [.offer m],
                          accepted := s.accepted ++ [m] }
  | plain (m : α) (h : s.sender = .idle) :
      Step R L s { s with sender := .plain m, fwd := s.fwd ++ [.plain m],
                          acceptedPlain := s.acceptedPlain ++ [m] }
  | resend (h : R s) : Step R L s { s with fwd := s.fwd ++ s.sender.packet }
  | recvOffer (m : α) (rest : List (Forward α)) (h : s.fwd = .offer m :: rest) :
      Step R L s { s with fwd := rest, held := some m, back := s.back ++ [.received] }
  | recvPlain (m : α) (rest : List (Forward α)) (h : s.fwd = .plain m :: rest) :
      Step R L s { s with fwd := rest, back := s.back ++ [.acknowledged],
                          deliveredPlain := s.deliveredPlain ++ [m] }
  | recvRelease (rest : List (Forward α)) (h : s.fwd = .release :: rest) :
      Step R L s { s with fwd := rest, held := none, back := s.back ++ [.completed],
                          delivered := s.delivered ++ s.held.toList }
  | offered (m : α) (rest : List Answer) (h : s.back = .received :: rest)
      (hs : s.sender = .offering m) :
      Step R L s { s with back := rest, sender := .releasing m, fwd := s.fwd ++ [.release] }
  /-- Released once more, whatever the sender is doing. -/
  | released (rest : List Answer) (h : s.back = .received :: rest)
      (hs : ∀ m, s.sender ≠ .offering m) :
      Step R L s { s with back := rest, fwd := s.fwd ++ [.release] }
  | acknowledged (m : α) (rest : List Answer) (h : s.back = .acknowledged :: rest)
      (hs : s.sender = .plain m) :
      Step R L s { s with back := rest, sender := .idle, confirmed := s.confirmed + 1 }
  | completed (m : α) (rest : List Answer) (h : s.back = .completed :: rest)
      (hs : s.sender = .releasing m) :
      Step R L s { s with back := rest, sender := .idle, confirmed := s.confirmed + 1 }
  /-- A final answer the sender does not wait for. -/
  | stale (a : Answer) (rest : List Answer) (h : s.back = a :: rest) (ha : a ≠ .received)
      (hack : ∀ m, a = .acknowledged → s.sender ≠ .plain m)
      (hcomp : ∀ m, a = .completed → s.sender ≠ .releasing m) :
      Step R L s { s with back := rest, confirmed := s.confirmed + 1 }
  | lose (h : L) (fwd : List (Forward α)) (back : List Answer) (hf : fwd.Sublist s.fwd)
      (hb : back.Sublist s.back) : Step R L s { s with fwd := fwd, back := back }

/-- Runs. -/
def Reachable (R : State α → Prop) (L : Prop) (s : State α) : Prop :=
  Relation.ReflTransGen (Step R L) initial s

/-! ## §2. What is on the channels. -/

/-- Nothing that offers a message. -/
def Stale (fwd : List (Forward α)) : Prop := ∀ m, .offer m ∉ fwd

/-- Nothing that answers an offer. -/
def StaleBack (back : List Answer) : Prop := .received ∉ back

/-- The message is offered: what is left over from before comes first, and
once the receiver has answered there is nothing left. -/
structure Offered (s : State α) (m : α) (old : List (Forward α)) (oldBack : List Answer)
    (k j : Nat) : Prop where
  fwd : s.fwd = old ++ List.replicate k (.offer m)
  back : s.back = oldBack ++ List.replicate j .received
  stale : Stale old
  staleBack : StaleBack oldBack
  held : s.held = some m ∧ old = [] ∨ s.held = none ∧ j = 0
  accepted : s.accepted = s.delivered ++ [m]

/-- Released, but not passed on yet. -/
structure Undelivered (s : State α) (m : α) (k l j : Nat) : Prop where
  fwd : s.fwd = List.replicate k (.offer m) ++ List.replicate l .release
  back : s.back = List.replicate j .received
  held : s.held = some m
  accepted : s.accepted = s.delivered ++ [m]

/-- Released and passed on. -/
structure Delivered (s : State α) (l j i : Nat) : Prop where
  fwd : s.fwd = List.replicate l .release
  back : s.back = List.replicate j .received ++ List.replicate i .completed
  held : s.held = none
  accepted : s.accepted = s.delivered

/-- No exact message is under way. -/
structure Clear (s : State α) : Prop where
  stale : Stale s.fwd
  staleBack : StaleBack s.back
  held : s.held = none
  accepted : s.accepted = s.delivered

/-- **THE INVARIANT**, by what the sender is doing. -/
def Inv (s : State α) : Prop :=
  match s.sender with
  | .idle | .plain _ => Clear s
  | .offering m => ∃ old oldBack k j, Offered s m old oldBack k j
  | .releasing m => (∃ k l j, Undelivered s m k l j) ∨ ∃ l j i, Delivered s l j i

theorem inv_idle {s : State α} (h : s.sender = .idle) : Inv s ↔ Clear s := by
  unfold Inv
  rw [h]

theorem inv_plain {s : State α} {m : α} (h : s.sender = .plain m) : Inv s ↔ Clear s := by
  unfold Inv
  rw [h]

theorem inv_offering {s : State α} {m : α} (h : s.sender = .offering m) :
    Inv s ↔ ∃ old oldBack k j, Offered s m old oldBack k j := by
  unfold Inv
  rw [h]

theorem inv_releasing {s : State α} {m : α} (h : s.sender = .releasing m) :
    Inv s ↔ (∃ k l j, Undelivered s m k l j) ∨ ∃ l j i, Delivered s l j i := by
  unfold Inv
  rw [h]

/-! ## §3. Each step keeps it. -/

/-- One more of the same at the end. -/
theorem replicate_snoc {β : Type*} (k : Nat) (b : β) :
    List.replicate k b ++ [b] = List.replicate (k + 1) b :=
  List.replicate_succ'.symm

/-- The first of several equal ones. -/
theorem replicate_eq_cons {β : Type*} {k : Nat} {b c : β} {rest : List β}
    (h : List.replicate k b = c :: rest) : c = b ∧ ∃ k', k = k' + 1 ∧ rest = List.replicate k' b := by
  cases k with
  | zero => cases h
  | succ k =>
      rw [List.replicate_succ, List.cons.injEq] at h
      exact ⟨h.1.symm, k, rfl, h.2.symm⟩

/-- Two parts without an offer. -/
theorem Stale.append {fwd fwd' : List (Forward α)} (h : Stale fwd) (h' : Stale fwd') :
    Stale (fwd ++ fwd') := by
  intro m hm
  rcases List.mem_append.mp hm with hm | hm
  · exact h m hm
  · exact h' m hm

theorem stale_replicate_release (l : Nat) : Stale (List.replicate l (Forward.release : Forward α)) := by
  intro m hm
  cases List.eq_of_mem_replicate hm

theorem Stale.tail {f : Forward α} {fwd : List (Forward α)} (h : Stale (f :: fwd)) : Stale fwd :=
  fun m hm => h m (List.mem_cons_of_mem f hm)

/-- One more answer that confirms no offer. -/
theorem StaleBack.snoc {back : List Answer} {a : Answer} (h : StaleBack back) (ha : a ≠ .received) :
    StaleBack (back ++ [a]) := by
  intro hm
  rcases List.mem_append.mp hm with hm | hm
  · exact h hm
  · exact ha (List.mem_singleton.mp hm).symm

theorem StaleBack.tail {a : Answer} {back : List Answer} (h : StaleBack (a :: back)) :
    StaleBack back :=
  fun hm => h (List.mem_cons_of_mem a hm)

/-- The sender starts on a message. -/
theorem Clear.offer {s : State α} (h : Clear s) (m : α) :
    Offered { s with sender := .offering m, fwd := s.fwd ++ [.offer m],
                     accepted := s.accepted ++ [m] } m s.fwd s.back 1 0 where
  fwd := rfl
  back := (List.append_nil _).symm
  stale := h.stale
  staleBack := h.staleBack
  held := .inr ⟨h.held, rfl⟩
  accepted := by
    show s.accepted ++ [m] = s.delivered ++ [m]
    rw [h.accepted]

/-- An offer is read only while the sender offers or has released. -/
theorem Inv.recvOffer {s : State α} (h : Inv s) {m : α} {rest : List (Forward α)}
    (hfwd : s.fwd = .offer m :: rest) :
    Inv { s with fwd := rest, held := some m, back := s.back ++ [.received] } := by
  cases hs : s.sender with
  | idle => exact absurd (hfwd ▸ List.mem_cons_self) (((inv_idle hs).mp h).stale m)
  | plain m' => exact absurd (hfwd ▸ List.mem_cons_self) (((inv_plain hs).mp h).stale m)
  | offering m' =>
      obtain ⟨old, oldBack, k, j, ho⟩ := (inv_offering hs).mp h
      refine (inv_offering rfl).mpr ?_
      have hcut := ho.fwd.symm.trans hfwd
      rcases List.append_eq_cons_iff.mp hcut with ⟨hnil, hrep⟩ | ⟨old', hold, -⟩
      · obtain ⟨hm, k', rfl, rfl⟩ := replicate_eq_cons hrep
        cases hm
        refine ⟨[], oldBack, k', j + 1, rfl, ?_, ?_, ho.staleBack, .inl ⟨rfl, rfl⟩, ho.accepted⟩
        · show s.back ++ [.received] = _
          rw [ho.back, List.append_assoc, replicate_snoc]
        · intro _ hm
          cases hm
      · exact absurd (hold ▸ List.mem_cons_self) (ho.stale m)
  | releasing m' =>
      refine (inv_releasing rfl).mpr ?_
      rcases (inv_releasing hs).mp h with ⟨k, l, j, hu⟩ | ⟨l, j, i, hd⟩
      · left
        have hcut := hu.fwd.symm.trans hfwd
        rcases List.append_eq_cons_iff.mp hcut with ⟨-, hrep⟩ | ⟨rep, hrep, hrest⟩
        · cases (replicate_eq_cons hrep).1
        · obtain ⟨hm, k', rfl, rfl⟩ := replicate_eq_cons hrep
          cases hm
          refine ⟨k', l, j + 1, hrest, ?_, rfl, hu.accepted⟩
          show s.back ++ [.received] = _
          rw [hu.back, replicate_snoc]
      · have hrep := hd.fwd.symm.trans hfwd
        cases (replicate_eq_cons hrep).1

/-- A plain message is passed on at once and answered. -/
theorem Clear.recvPlain {s : State α} (h : Clear s) {m : α} {rest : List (Forward α)}
    (hfwd : s.fwd = .plain m :: rest) :
    Clear { s with fwd := rest, back := s.back ++ [.acknowledged],
                   deliveredPlain := s.deliveredPlain ++ [m] } where
  stale := (hfwd ▸ h.stale).tail
  staleBack := h.staleBack.snoc (by decide)
  held := h.held
  accepted := h.accepted

/-- A plain message that is read was left over from before. -/
theorem Inv.recvPlain {s : State α} (h : Inv s) {m : α} {rest : List (Forward α)}
    (hfwd : s.fwd = .plain m :: rest) :
    Inv { s with fwd := rest, back := s.back ++ [.acknowledged],
                 deliveredPlain := s.deliveredPlain ++ [m] } := by
  cases hs : s.sender with
  | idle =>
      have hc := ((inv_idle hs).mp h).recvPlain hfwd
      rw [hs] at hc
      exact (inv_idle rfl).mpr hc
  | plain m' =>
      have hc := ((inv_plain hs).mp h).recvPlain hfwd
      rw [hs] at hc
      exact (inv_plain rfl).mpr hc
  | offering m' =>
      obtain ⟨old, oldBack, k, j, ho⟩ := (inv_offering hs).mp h
      refine (inv_offering rfl).mpr ?_
      have hcut := ho.fwd.symm.trans hfwd
      rcases List.append_eq_cons_iff.mp hcut with ⟨-, hrep⟩ | ⟨old', rfl, hrest⟩
      · cases (replicate_eq_cons hrep).1
      · -- something is left over in front, so the receiver has not seen the offer
        rcases ho.held with ⟨-, hnil⟩ | ⟨hheld, rfl⟩
        · cases hnil
        · refine ⟨old', oldBack ++ [.acknowledged], k, 0, hrest, ?_, ho.stale.tail,
            ho.staleBack.snoc (by decide), .inr ⟨hheld, rfl⟩, ho.accepted⟩
          show s.back ++ [.acknowledged] = _
          rw [ho.back]
          simp
  | releasing m' =>
      rcases (inv_releasing hs).mp h with ⟨k, l, j, hu⟩ | ⟨l, j, i, hd⟩
      · have hmem : Forward.plain m ∈ s.fwd := hfwd ▸ List.mem_cons_self
        rw [hu.fwd] at hmem
        rcases List.mem_append.mp hmem with hmem | hmem
        · cases List.eq_of_mem_replicate hmem
        · cases List.eq_of_mem_replicate hmem
      · have hrep := hd.fwd.symm.trans hfwd
        cases (replicate_eq_cons hrep).1

/-- A late release finds nothing held and is answered all the same. -/
theorem Clear.recvRelease {s : State α} (h : Clear s) {rest : List (Forward α)}
    (hfwd : s.fwd = .release :: rest) :
    Clear { s with fwd := rest, held := none, back := s.back ++ [.completed],
                   delivered := s.delivered ++ s.held.toList } where
  stale := (hfwd ▸ h.stale).tail
  staleBack := h.staleBack.snoc (by decide)
  held := rfl
  accepted := by
    show s.accepted = s.delivered ++ s.held.toList
    rw [h.held, Option.toList_none, List.append_nil, h.accepted]

/-- A release that is read passes the message on, or was left over. -/
theorem Inv.recvRelease {s : State α} (h : Inv s) {rest : List (Forward α)}
    (hfwd : s.fwd = .release :: rest) :
    Inv { s with fwd := rest, held := none, back := s.back ++ [.completed],
                 delivered := s.delivered ++ s.held.toList } := by
  cases hs : s.sender with
  | idle =>
      have hc := ((inv_idle hs).mp h).recvRelease hfwd
      rw [hs] at hc
      exact (inv_idle rfl).mpr hc
  | plain m' =>
      have hc := ((inv_plain hs).mp h).recvRelease hfwd
      rw [hs] at hc
      exact (inv_plain rfl).mpr hc
  | offering m' =>
      obtain ⟨old, oldBack, k, j, ho⟩ := (inv_offering hs).mp h
      refine (inv_offering rfl).mpr ?_
      have hcut := ho.fwd.symm.trans hfwd
      rcases List.append_eq_cons_iff.mp hcut with ⟨-, hrep⟩ | ⟨old', rfl, hrest⟩
      · cases (replicate_eq_cons hrep).1
      · rcases ho.held with ⟨-, hnil⟩ | ⟨hheld, rfl⟩
        · cases hnil
        · refine ⟨old', oldBack ++ [.completed], k, 0, hrest, ?_, ho.stale.tail,
            ho.staleBack.snoc (by decide), .inr ⟨rfl, rfl⟩, ?_⟩
          · show s.back ++ [.completed] = _
            rw [ho.back]
            simp
          · show s.accepted = (s.delivered ++ s.held.toList) ++ [m']
            rw [hheld, Option.toList_none, List.append_nil, ho.accepted]
  | releasing m' =>
      refine (inv_releasing rfl).mpr ?_
      right
      rcases (inv_releasing hs).mp h with ⟨k, l, j, hu⟩ | ⟨l, j, i, hd⟩
      · -- the first release behind the last offer
        have hcut := hu.fwd.symm.trans hfwd
        rcases List.append_eq_cons_iff.mp hcut with ⟨-, hrep⟩ | ⟨rep, hrep, -⟩
        · obtain ⟨-, l', rfl, rfl⟩ := replicate_eq_cons hrep
          refine ⟨l', j, 1, rfl, ?_, rfl, ?_⟩
          · show s.back ++ [.completed] = _
            rw [hu.back]
            rfl
          · show s.accepted = s.delivered ++ s.held.toList
            rw [hu.held, hu.accepted]
            rfl
        · cases (replicate_eq_cons hrep).1
      · obtain ⟨-, l', rfl, rfl⟩ := replicate_eq_cons (hd.fwd.symm.trans hfwd)
        refine ⟨l', j, i + 1, rfl, ?_, rfl, ?_⟩
        · show s.back ++ [.completed] = _
          rw [hd.back, List.append_assoc, replicate_snoc]
        · show s.accepted = s.delivered ++ s.held.toList
          rw [hd.held, Option.toList_none, List.append_nil, hd.accepted]

/-- The answer to an offer: the receiver has the message. -/
theorem Inv.offered {s : State α} (h : Inv s) {m : α} {rest : List Answer}
    (hback : s.back = .received :: rest) (hs : s.sender = .offering m) :
    Inv { s with back := rest, sender := .releasing m, fwd := s.fwd ++ [.release] } := by
  obtain ⟨old, oldBack, k, j, ho⟩ := (inv_offering hs).mp h
  refine (inv_releasing rfl).mpr (.inl ?_)
  have hcut := ho.back.symm.trans hback
  rcases List.append_eq_cons_iff.mp hcut with ⟨-, hrep⟩ | ⟨oldBack', hold, -⟩
  · obtain ⟨-, j', rfl, rfl⟩ := replicate_eq_cons hrep
    rcases ho.held with ⟨hheld, rfl⟩ | ⟨-, h0⟩
    · refine ⟨k, 1, j', ?_, rfl, hheld, ho.accepted⟩
      show s.fwd ++ [.release] = _
      rw [ho.fwd]
      rfl
    · cases h0
  · exact absurd (hold ▸ List.mem_cons_self) ho.staleBack

/-- An answer to an offer that was answered before. -/
theorem Inv.released {s : State α} (h : Inv s) {rest : List Answer}
    (hback : s.back = .received :: rest) (hs : ∀ m, s.sender ≠ .offering m) :
    Inv { s with back := rest, fwd := s.fwd ++ [.release] } := by
  cases hsender : s.sender with
  | idle => exact absurd (hback ▸ List.mem_cons_self) ((inv_idle hsender).mp h).staleBack
  | plain m => exact absurd (hback ▸ List.mem_cons_self) ((inv_plain hsender).mp h).staleBack
  | offering m => exact absurd hsender (hs m)
  | releasing m =>
      refine (inv_releasing rfl).mpr ?_
      rcases (inv_releasing hsender).mp h with ⟨k, l, j, hu⟩ | ⟨l, j, i, hd⟩
      · left
        obtain ⟨-, j', rfl, rfl⟩ := replicate_eq_cons (hu.back.symm.trans hback)
        refine ⟨k, l + 1, j', ?_, rfl, hu.held, hu.accepted⟩
        show s.fwd ++ [.release] = _
        rw [hu.fwd, List.append_assoc, replicate_snoc]
      · right
        have hcut := hd.back.symm.trans hback
        rcases List.append_eq_cons_iff.mp hcut with ⟨-, hrep⟩ | ⟨rep, hrep, hrest⟩
        · cases (replicate_eq_cons hrep).1
        · obtain ⟨-, j', rfl, rfl⟩ := replicate_eq_cons hrep
          refine ⟨l + 1, j', i, ?_, hrest, hd.held, hd.accepted⟩
          show s.fwd ++ [.release] = _
          rw [hd.fwd, replicate_snoc]

/-- The final answer: the message was passed on. -/
theorem Inv.completed {s : State α} (h : Inv s) {m : α} {rest : List Answer}
    (hback : s.back = .completed :: rest) (hs : s.sender = .releasing m) :
    Inv { s with back := rest, sender := .idle, confirmed := s.confirmed + 1 } := by
  refine (inv_idle rfl).mpr ?_
  rcases (inv_releasing hs).mp h with ⟨k, l, j, hu⟩ | ⟨l, j, i, hd⟩
  · cases (replicate_eq_cons (hu.back.symm.trans hback)).1
  · have hcut := hd.back.symm.trans hback
    rcases List.append_eq_cons_iff.mp hcut with ⟨-, hrep⟩ | ⟨rep, hrep, -⟩
    · obtain ⟨-, i', rfl, rfl⟩ := replicate_eq_cons hrep
      refine ⟨?_, ?_, hd.held, hd.accepted⟩
      · show Stale s.fwd
        rw [hd.fwd]
        exact stale_replicate_release l
      · intro hmem
        cases List.eq_of_mem_replicate hmem
    · cases (replicate_eq_cons hrep).1

/-- The answer to a plain message ends its exchange. -/
theorem Inv.acknowledged {s : State α} (h : Inv s) {m : α} {rest : List Answer}
    (hback : s.back = .acknowledged :: rest) (hs : s.sender = .plain m) :
    Inv { s with back := rest, sender := .idle, confirmed := s.confirmed + 1 } := by
  have hc := (inv_plain hs).mp h
  exact (inv_idle rfl).mpr ⟨hc.stale, (hback ▸ hc.staleBack).tail, hc.held, hc.accepted⟩

/-- A final answer that was left over. -/
theorem Inv.stale {s : State α} (h : Inv s) {a : Answer} {rest : List Answer}
    (hback : s.back = a :: rest) (ha : a ≠ .received)
    (hcomp : ∀ m, a = .completed → s.sender ≠ .releasing m) :
    Inv { s with back := rest, confirmed := s.confirmed + 1 } := by
  cases hs : s.sender with
  | idle =>
      have hc := (inv_idle hs).mp h
      exact (inv_idle rfl).mpr ⟨hc.stale, (hback ▸ hc.staleBack).tail, hc.held, hc.accepted⟩
  | plain m =>
      have hc := (inv_plain hs).mp h
      exact (inv_plain rfl).mpr ⟨hc.stale, (hback ▸ hc.staleBack).tail, hc.held, hc.accepted⟩
  | offering m =>
      obtain ⟨old, oldBack, k, j, ho⟩ := (inv_offering hs).mp h
      refine (inv_offering rfl).mpr ?_
      have hcut := ho.back.symm.trans hback
      rcases List.append_eq_cons_iff.mp hcut with ⟨-, hrep⟩ | ⟨oldBack', rfl, hrest⟩
      · exact absurd (replicate_eq_cons hrep).1 ha
      · exact ⟨old, oldBack', k, j, ho.fwd, hrest, ho.stale, ho.staleBack.tail, ho.held,
          ho.accepted⟩
  | releasing m =>
      -- every final answer on the way is the one the sender waits for
      have hmem : a ∈ s.back := hback ▸ List.mem_cons_self
      rcases (inv_releasing hs).mp h with ⟨k, l, j, hu⟩ | ⟨l, j, i, hd⟩
      · rw [hu.back] at hmem
        exact absurd (List.eq_of_mem_replicate hmem) ha
      · rw [hd.back] at hmem
        rcases List.mem_append.mp hmem with hmem | hmem
        · exact absurd (List.eq_of_mem_replicate hmem) ha
        · exact absurd hs (hcomp m (List.eq_of_mem_replicate hmem))

/-- What is sent again is what the sender is at. -/
theorem Inv.resend {s : State α} (h : Inv s) : Inv { s with fwd := s.fwd ++ s.sender.packet } := by
  cases hs : s.sender with
  | idle =>
      have hc := (inv_idle hs).mp h
      refine (inv_idle rfl).mpr ⟨?_, hc.staleBack, hc.held, hc.accepted⟩
      show Stale (s.fwd ++ [])
      rw [List.append_nil]
      exact hc.stale
  | plain m =>
      have hc := (inv_plain hs).mp h
      refine (inv_plain rfl).mpr ⟨hc.stale.append ?_, hc.staleBack, hc.held, hc.accepted⟩
      intro m' hm'
      cases List.mem_singleton.mp hm'
  | offering m =>
      obtain ⟨old, oldBack, k, j, ho⟩ := (inv_offering hs).mp h
      refine (inv_offering rfl).mpr ⟨old, oldBack, k + 1, j, ?_, ho.back, ho.stale, ho.staleBack,
        ho.held, ho.accepted⟩
      show s.fwd ++ [.offer m] = _
      rw [ho.fwd, List.append_assoc, replicate_snoc]
  | releasing m =>
      refine (inv_releasing rfl).mpr ?_
      rcases (inv_releasing hs).mp h with ⟨k, l, j, hu⟩ | ⟨l, j, i, hd⟩
      · refine .inl ⟨k, l + 1, j, ?_, hu.back, hu.held, hu.accepted⟩
        show s.fwd ++ [.release] = _
        rw [hu.fwd, List.append_assoc, replicate_snoc]
      · refine .inr ⟨l + 1, j, i, ?_, hd.back, hd.held, hd.accepted⟩
        show s.fwd ++ [.release] = _
        rw [hd.fwd, replicate_snoc]

/-- A loss adds no offer. -/
theorem Stale.sublist {fwd fwd' : List (Forward α)} (h : Stale fwd) (hsub : fwd'.Sublist fwd) :
    Stale fwd' :=
  fun m hm => h m (hsub.subset hm)

/-- A loss adds no answer. -/
theorem StaleBack.sublist {back back' : List Answer} (h : StaleBack back)
    (hsub : back'.Sublist back) : StaleBack back' :=
  fun hm => h (hsub.subset hm)

/-- A loss while no exact message is under way. -/
theorem Clear.lose {s : State α} (h : Clear s) {fwd : List (Forward α)} {back : List Answer}
    (hf : fwd.Sublist s.fwd) (hb : back.Sublist s.back) :
    Clear { s with fwd := fwd, back := back } :=
  ⟨h.stale.sublist hf, h.staleBack.sublist hb, h.held, h.accepted⟩

/-- **Losses do no harm**: the channels keep their shape. -/
theorem Inv.lose {s : State α} (h : Inv s) {fwd : List (Forward α)} {back : List Answer}
    (hf : fwd.Sublist s.fwd) (hb : back.Sublist s.back) :
    Inv { s with fwd := fwd, back := back } := by
  cases hs : s.sender with
  | idle =>
      have hc := ((inv_idle hs).mp h).lose hf hb
      rw [hs] at hc
      exact (inv_idle rfl).mpr hc
  | plain m =>
      have hc := ((inv_plain hs).mp h).lose hf hb
      rw [hs] at hc
      exact (inv_plain rfl).mpr hc
  | offering m =>
      obtain ⟨old, oldBack, k, j, ho⟩ := (inv_offering hs).mp h
      refine (inv_offering rfl).mpr ?_
      rw [ho.fwd] at hf
      rw [ho.back] at hb
      obtain ⟨old', offers, rfl, hold, hoffers⟩ := List.sublist_append_iff.mp hf
      obtain ⟨oldBack', answers, rfl, holdBack, hanswers⟩ := List.sublist_append_iff.mp hb
      obtain ⟨k', -, rfl⟩ := List.sublist_replicate_iff.mp hoffers
      obtain ⟨j', hj, rfl⟩ := List.sublist_replicate_iff.mp hanswers
      refine ⟨old', oldBack', k', j', rfl, rfl, ho.stale.sublist hold,
        ho.staleBack.sublist holdBack, ?_, ho.accepted⟩
      rcases ho.held with ⟨hheld, rfl⟩ | ⟨hheld, rfl⟩
      · exact .inl ⟨hheld, List.sublist_nil.mp hold⟩
      · exact .inr ⟨hheld, Nat.le_zero.mp hj⟩
  | releasing m =>
      refine (inv_releasing rfl).mpr ?_
      rcases (inv_releasing hs).mp h with ⟨k, l, j, hu⟩ | ⟨l, j, i, hd⟩
      · left
        rw [hu.fwd] at hf
        rw [hu.back] at hb
        obtain ⟨offers, releases, rfl, hoffers, hreleases⟩ := List.sublist_append_iff.mp hf
        obtain ⟨k', -, rfl⟩ := List.sublist_replicate_iff.mp hoffers
        obtain ⟨l', -, rfl⟩ := List.sublist_replicate_iff.mp hreleases
        obtain ⟨j', -, rfl⟩ := List.sublist_replicate_iff.mp hb
        exact ⟨k', l', j', rfl, rfl, hu.held, hu.accepted⟩
      · right
        rw [hd.fwd] at hf
        rw [hd.back] at hb
        obtain ⟨l', -, rfl⟩ := List.sublist_replicate_iff.mp hf
        obtain ⟨answers, finals, rfl, hanswers, hfinals⟩ := List.sublist_append_iff.mp hb
        obtain ⟨j', -, rfl⟩ := List.sublist_replicate_iff.mp hanswers
        obtain ⟨i', -, rfl⟩ := List.sublist_replicate_iff.mp hfinals
        exact ⟨l', j', i', rfl, rfl, hd.held, hd.accepted⟩

theorem initial_inv : Inv (initial : State α) := by
  refine (inv_idle rfl).mpr ⟨?_, ?_, rfl, rfl⟩
  · intro m hm
    cases hm
  · intro hm
    cases hm

variable {R : State α → Prop} {L : Prop}

/-- **Every step keeps the invariant.** -/
theorem Inv.step {s s' : State α} (h : Inv s) (hstep : Step R L s s') : Inv s' := by
  cases hstep with
  | offer m hs => exact (inv_offering rfl).mpr ⟨_, _, _, _, ((inv_idle hs).mp h).offer m⟩
  | plain m hs =>
      have hc := (inv_idle hs).mp h
      refine (inv_plain rfl).mpr ⟨hc.stale.append ?_, hc.staleBack, hc.held, hc.accepted⟩
      intro m' hm'
      cases List.mem_singleton.mp hm'
  | resend => exact h.resend
  | recvOffer m rest hfwd => exact h.recvOffer hfwd
  | recvPlain m rest hfwd => exact h.recvPlain hfwd
  | recvRelease rest hfwd => exact h.recvRelease hfwd
  | offered m rest hback hs => exact h.offered hback hs
  | released rest hback hs => exact h.released hback hs
  | acknowledged m rest hback hs => exact h.acknowledged hback hs
  | completed m rest hback hs => exact h.completed hback hs
  | stale a rest hback ha hack hcomp => exact h.stale hback ha hcomp
  | lose _ fwd back hf hb => exact h.lose hf hb

theorem Reachable.inv {s : State α} (h : Reachable R L s) : Inv s := by
  induction h with
  | refl => exact initial_inv
  | tail _ hstep ih => exact ih.step hstep

/-- **EXACT MESSAGES ARE PASSED ON EXACTLY ONCE**, in their order; only the
one the sender is busy with may be missing. -/
theorem exact_once {s : State α} (h : Reachable R L s) :
    s.accepted = s.delivered ∨ s.accepted = s.delivered ++ s.sender.exactMessage := by
  have hinv := h.inv
  cases hs : s.sender with
  | idle => exact .inl ((inv_idle hs).mp hinv).accepted
  | plain m => exact .inl ((inv_plain hs).mp hinv).accepted
  | offering m =>
      obtain ⟨old, oldBack, k, j, ho⟩ := (inv_offering hs).mp hinv
      exact .inr ho.accepted
  | releasing m =>
      rcases (inv_releasing hs).mp hinv with ⟨k, l, j, hu⟩ | ⟨l, j, i, hd⟩
      · exact .inr hu.accepted
      · exact .inl hd.accepted

/-! ## §4. One packet at a time. -/

/-- What answers the packet of the sender. -/
def Sender.answer : Sender α → List Answer
  | .idle => []
  | .plain _ => [.acknowledged]
  | .offering _ => [.received]
  | .releasing _ => [.completed]

/-- Nothing is on the channels. -/
def Drained (s : State α) : Prop := s.fwd = [] ∧ s.back = []

/-- **One packet at a time**: the packet of the sender, or its answer. -/
structure Calm (s : State α) : Prop where
  fwd : s.fwd.Sublist s.sender.packet
  back : s.back.Sublist s.sender.answer
  single : s.fwd = [] ∨ s.back = []
  plain : s.acceptedPlain.Sublist (s.deliveredPlain ++ s.sender.plainMessage)
  answered : s.back ≠ [] → s.acceptedPlain.Sublist s.deliveredPlain
  confirmed : s.confirmed + s.sender.message.length = s.accepted.length + s.acceptedPlain.length

/-- All of a list of one element. -/
theorem eq_of_cons_sublist {β : Type*} {b : β} {rest l : List β} (h : (b :: rest).Sublist l)
    (hl : l.length ≤ 1) : l = [b] ∧ rest = [] := by
  have hle := h.length_le
  rw [List.length_cons] at hle
  obtain rfl : rest = [] := List.length_eq_zero_iff.mp (by omega)
  have heq := h.eq_of_length_le (by simpa using hl)
  exact ⟨heq.symm, rfl⟩

/-- The packet that is read is the one that was sent. -/
theorem Calm.head {s : State α} (h : Calm s) {f : Forward α} {rest : List (Forward α)}
    (hfwd : s.fwd = f :: rest) : s.sender.packet = [f] ∧ rest = [] ∧ s.back = [] := by
  have hsub := h.fwd
  rw [hfwd] at hsub
  obtain ⟨hpacket, hrest⟩ := eq_of_cons_sublist hsub (by cases s.sender <;> simp [Sender.packet])
  refine ⟨hpacket, hrest, ?_⟩
  rcases h.single with h0 | h0
  · rw [hfwd] at h0
    cases h0
  · exact h0

/-- The answer that is read is the one the sender waits for. -/
theorem Calm.answer {s : State α} (h : Calm s) {a : Answer} {rest : List Answer}
    (hback : s.back = a :: rest) : s.sender.answer = [a] ∧ rest = [] ∧ s.fwd = [] := by
  have hsub := h.back
  rw [hback] at hsub
  obtain ⟨hanswer, hrest⟩ := eq_of_cons_sublist hsub (by cases s.sender <;> simp [Sender.answer])
  refine ⟨hanswer, hrest, ?_⟩
  rcases h.single with h0 | h0
  · exact h0
  · rw [hback] at h0
    cases h0

/-- At rest nothing is on the way. -/
theorem Calm.idle {s : State α} (h : Calm s) (hs : s.sender = .idle) : s.fwd = [] ∧ s.back = [] := by
  have hf := h.fwd
  have hb := h.back
  rw [hs] at hf hb
  exact ⟨List.sublist_nil.mp hf, List.sublist_nil.mp hb⟩

/-- The receiver answers the packet of the sender. -/
theorem Calm.receive {s : State α} (h : Calm s) {f : Forward α} {rest : List (Forward α)}
    (hfwd : s.fwd = f :: rest) (t : State α) (hsender : t.sender = s.sender) (hrest : t.fwd = rest)
    (hback : t.back = s.back ++ s.sender.answer) (haccepted : t.accepted = s.accepted)
    (hplain : t.acceptedPlain = s.acceptedPlain) (hconfirmed : t.confirmed = s.confirmed)
    (hdelivered : t.deliveredPlain = s.deliveredPlain ++ s.sender.plainMessage) : Calm t := by
  obtain ⟨-, rfl, hb⟩ := h.head hfwd
  constructor
  · rw [hrest]
    exact List.nil_sublist _
  · rw [hback, hb, hsender]
    exact List.Sublist.refl _
  · exact .inl hrest
  · rw [hplain, hdelivered]
    exact h.plain.trans (List.sublist_append_left _ _)
  · intro _
    rw [hplain, hdelivered]
    exact h.plain
  · rw [hconfirmed, hsender, haccepted, hplain]
    exact h.confirmed

/-- The final answer makes the sender idle. -/
theorem Calm.final {s : State α} (h : Calm s) {a : Answer} {rest : List Answer}
    (hback : s.back = a :: rest) (hbusy : s.sender.message.length = 1) :
    Calm { s with back := rest, sender := .idle, confirmed := s.confirmed + 1 } := by
  obtain ⟨-, rfl, hf⟩ := h.answer hback
  have hanswered := h.answered (by rw [hback]; exact List.cons_ne_nil _ _)
  have hcount := h.confirmed
  constructor
  · show s.fwd.Sublist []
    rw [hf]
  · exact List.Sublist.refl _
  · exact .inr rfl
  · show s.acceptedPlain.Sublist (s.deliveredPlain ++ [])
    rw [List.append_nil]
    exact hanswered
  · intro hne
    exact absurd rfl hne
  · show s.confirmed + 1 + 0 = s.accepted.length + s.acceptedPlain.length
    omega

theorem initial_calm : Calm (initial : State α) where
  fwd := List.Sublist.refl _
  back := List.Sublist.refl _
  single := .inl rfl
  plain := List.Sublist.refl _
  answered _ := List.Sublist.refl _
  confirmed := rfl

/-- **Every step keeps it**, when the sender repeats its packet on drained
channels only. -/
theorem Calm.step {s s' : State α} (h : Calm s) (hstep : Step Drained L s s') : Calm s' := by
  cases hstep with
  | offer m hs =>
      obtain ⟨hf, hb⟩ := h.idle hs
      obtain ⟨-, -, -, hplain, -, hcount⟩ := h
      rw [hs] at hplain hcount
      refine ⟨?_, ?_, .inr hb, hplain, fun hne => absurd hb hne, ?_⟩
      · show (s.fwd ++ [Forward.offer m]).Sublist _
        rw [hf]
        exact List.Sublist.refl _
      · show s.back.Sublist _
        rw [hb]
        exact List.nil_sublist _
      · show s.confirmed + 1 = (s.accepted ++ [m]).length + s.acceptedPlain.length
        rw [List.length_append, List.length_singleton]
        simp only [Sender.message, List.length_nil] at hcount
        omega
  | plain m hs =>
      obtain ⟨hf, hb⟩ := h.idle hs
      obtain ⟨-, -, -, hplain, -, hcount⟩ := h
      rw [hs] at hplain hcount
      refine ⟨?_, ?_, .inr hb, ?_, fun hne => absurd hb hne, ?_⟩
      · show (s.fwd ++ [Forward.plain m]).Sublist _
        rw [hf]
        exact List.Sublist.refl _
      · show s.back.Sublist _
        rw [hb]
        exact List.nil_sublist _
      · simp only [Sender.plainMessage, List.append_nil] at hplain
        exact hplain.append (List.Sublist.refl [m])
      · show s.confirmed + 1 = s.accepted.length + (s.acceptedPlain ++ [m]).length
        rw [List.length_append, List.length_singleton]
        simp only [Sender.message, List.length_nil] at hcount
        omega
  | resend hR =>
      obtain ⟨hf, hb⟩ := hR
      refine ⟨?_, h.back, .inr hb, h.plain, fun hne => absurd hb hne, h.confirmed⟩
      show (s.fwd ++ s.sender.packet).Sublist s.sender.packet
      rw [hf, List.nil_append]
  | recvOffer m rest hfwd =>
      have hpacket := (h.head hfwd).1
      cases hs : s.sender <;> rw [hs] at hpacket <;> cases hpacket
      refine h.receive hfwd _ hs.symm rfl ?_ rfl rfl rfl ?_
      · rw [hs]
        rfl
      · rw [hs]
        exact (List.append_nil _).symm
  | recvPlain m rest hfwd =>
      have hpacket := (h.head hfwd).1
      cases hs : s.sender <;> rw [hs] at hpacket <;> cases hpacket
      refine h.receive hfwd _ hs.symm rfl ?_ rfl rfl rfl ?_
      · rw [hs]
        rfl
      · rw [hs]
        rfl
  | recvRelease rest hfwd =>
      have hpacket := (h.head hfwd).1
      cases hs : s.sender <;> rw [hs] at hpacket <;> cases hpacket
      refine h.receive hfwd _ hs.symm rfl ?_ rfl rfl rfl ?_
      · rw [hs]
        rfl
      · rw [hs]
        exact (List.append_nil _).symm
  | offered m rest hback hs =>
      obtain ⟨-, rfl, hf⟩ := h.answer hback
      have hplain := h.plain
      have hcount := h.confirmed
      rw [hs] at hplain hcount
      refine ⟨?_, List.nil_sublist _, .inr rfl, hplain, fun hne => absurd rfl hne, hcount⟩
      show (s.fwd ++ [Forward.release]).Sublist [Forward.release]
      rw [hf, List.nil_append]
  | released rest hback hs =>
      have hanswer := (h.answer hback).1
      cases hsender : s.sender <;> rw [hsender] at hanswer <;> cases hanswer
      exact absurd hsender (hs _)
  | acknowledged m rest hback hs => exact h.final hback (by rw [hs]; rfl)
  | completed m rest hback hs => exact h.final hback (by rw [hs]; rfl)
  | stale a rest hback ha hack hcomp =>
      have hanswer := (h.answer hback).1
      cases hsender : s.sender <;> rw [hsender] at hanswer <;> cases hanswer
      · exact absurd hsender (hack _ rfl)
      · exact absurd rfl ha
      · exact absurd hsender (hcomp _ rfl)
  | lose _ fwd back hf hb =>
      refine ⟨hf.trans h.fwd, hb.trans h.back, ?_, h.plain, ?_, h.confirmed⟩
      · rcases h.single with h0 | h0
        · rw [h0] at hf
          exact .inl (List.sublist_nil.mp hf)
        · rw [h0] at hb
          exact .inr (List.sublist_nil.mp hb)
      · intro hne
        refine h.answered fun h0 => hne ?_
        rw [h0] at hb
        exact List.sublist_nil.mp hb

theorem Reachable.calm {s : State α} (h : Reachable Drained L s) : Calm s := by
  induction h with
  | refl => exact initial_calm
  | tail _ hstep ih => exact ih.step hstep

/-- **PLAIN MESSAGES ARE PASSED ON AT LEAST ONCE**, in their order, when
nothing is sent again while something is under way; only the one the sender
is busy with may be missing. -/
theorem plain_once {s : State α} (h : Reachable Drained L s) :
    s.acceptedPlain.Sublist (s.deliveredPlain ++ s.sender.plainMessage) :=
  h.calm.plain

/-- Every final answer is for one message that was taken on. -/
theorem confirmed_eq {s : State α} (h : Reachable Drained L s) :
    s.confirmed + s.sender.message.length = s.accepted.length + s.acceptedPlain.length :=
  h.calm.confirmed

end MqttBenchmark.Lib.Handshake
