/-
  MqttBenchmark.Lib.Handshake.Halves
  ──────────────────────────────────
  **THE TWO HALVES OF A HANDSHAKE.**

  An implementation has each end in a place of its own.  What an end does with
  what it reads is a function of its half of the state.

    • `Outbound.read`, `Inbound.read` — the sender's and the receiver's half,
    • `join` — the whole state,
    • `Steps.read_fwd`, `Steps.read_back`, … — moves of one half are runs.
-/
import MqttBenchmark.Lib.Handshake

namespace MqttBenchmark.Lib.Handshake

open Relation

variable {α : Type*}

/-! ## §1. What each end does with what it reads. -/

/-- The sender's half. -/
@[ext] structure Outbound (α : Type*) where
  sender : Sender α
  accepted : List α
  acceptedPlain : List α
  confirmed : Nat

/-- The receiver's half. -/
@[ext] structure Inbound (α : Type*) where
  held : Option α
  delivered : List α
  deliveredPlain : List α

/-- The receiver reads. -/
def Inbound.read (n : Inbound α) : Forward α → Inbound α
  | .offer m => { n with held := some m }
  | .plain m => { n with deliveredPlain := n.deliveredPlain ++ [m] }
  | .release => { n with held := none, delivered := n.delivered ++ n.held.toList }

def Forward.answer : Forward α → Answer
  | .offer _ => .received
  | .plain _ => .acknowledged
  | .release => .completed

/-- The sender after its message has been answered. -/
def Sender.next : Sender α → Answer → Sender α
  | .offering m, .received => .releasing m
  | .plain _, .acknowledged => .idle
  | .releasing _, .completed => .idle
  | s, _ => s

/-- The sender reads. -/
def Outbound.read (o : Outbound α) (a : Answer) : Outbound α :=
  { o with
    sender := o.sender.next a
    confirmed := o.confirmed + if a = .received then 0 else 1 }

/-- What the sender writes then. -/
def Answer.release : Answer → List (Forward α)
  | .received => [.release]
  | .acknowledged | .completed => []

def Outbound.offer (o : Outbound α) (m : α) : Outbound α :=
  { o with sender := .offering m, accepted := o.accepted ++ [m] }

def Outbound.plain (o : Outbound α) (m : α) : Outbound α :=
  { o with sender := .plain m, acceptedPlain := o.acceptedPlain ++ [m] }

/-! ## §2. The whole state. -/

def join (o : Outbound α) (n : Inbound α) (fwd : List (Forward α)) (back : List Answer) : State α :=
  ⟨o.sender, n.held, fwd, back, o.accepted, n.delivered, o.acceptedPlain, n.deliveredPlain,
    o.confirmed⟩

variable {R : State α → Prop} {L : Prop} {o : Outbound α} {n : Inbound α} {fwd fwd' : List (Forward α)}
variable {back back' : List Answer}

/-- Any number of steps. -/
abbrev Steps (R : State α → Prop) (L : Prop) : State α → State α → Prop :=
  ReflTransGen (Step R L)

/-- The receiver reads and answers. -/
theorem Steps.read_fwd (f : Forward α) :
    Steps R L (join o n (f :: fwd) back) (join o (n.read f) fwd (back ++ [f.answer])) := by
  cases f with
  | offer m => exact .single (.recvOffer m fwd rfl)
  | plain m => exact .single (.recvPlain m fwd rfl)
  | release => exact .single (.recvRelease fwd rfl)

/-- The sender reads and, to an offer's answer, releases. -/
theorem Steps.read_back (a : Answer) :
    Steps R L (join o n fwd (a :: back)) (join (o.read a) n (fwd ++ a.release) back) := by
  obtain ⟨sender, accepted, acceptedPlain, confirmed⟩ := o
  cases a with
  | received =>
      by_cases h : ∃ m, sender = .offering m
      · obtain ⟨m, rfl⟩ := h
        exact .single (.offered m back rfl rfl)
      · have hnext : sender.next .received = sender := by
          cases sender with
          | offering m => exact absurd ⟨m, rfl⟩ h
          | idle | plain | releasing => rfl
        unfold Outbound.read
        rw [hnext]
        exact .single (.released back rfl fun m hm => h ⟨m, hm⟩)
  | acknowledged =>
      show Steps R L _ (join _ n (fwd ++ []) back)
      rw [List.append_nil]
      by_cases h : ∃ m, sender = .plain m
      · obtain ⟨m, rfl⟩ := h
        exact .single (.acknowledged m back rfl rfl)
      · have hnext : sender.next .acknowledged = sender := by
          cases sender with
          | plain m => exact absurd ⟨m, rfl⟩ h
          | idle | offering | releasing => rfl
        unfold Outbound.read
        rw [hnext]
        refine .single (.stale .acknowledged back rfl (by decide) ?_ ?_)
        · exact fun m _ hm => h ⟨m, hm⟩
        · intro m hm
          cases hm
  | completed =>
      show Steps R L _ (join _ n (fwd ++ []) back)
      rw [List.append_nil]
      by_cases h : ∃ m, sender = .releasing m
      · obtain ⟨m, rfl⟩ := h
        exact .single (.completed m back rfl rfl)
      · have hnext : sender.next .completed = sender := by
          cases sender with
          | releasing m => exact absurd ⟨m, rfl⟩ h
          | idle | offering | plain => rfl
        unfold Outbound.read
        rw [hnext]
        refine .single (.stale .completed back rfl (by decide) ?_ ?_)
        · intro m hm
          cases hm
        · exact fun m _ hm => h ⟨m, hm⟩

theorem Steps.offer (h : o.sender = .idle) (m : α) :
    Steps R L (join o n fwd back) (join (o.offer m) n (fwd ++ [.offer m]) back) :=
  .single (.offer m h)

theorem Steps.plain (h : o.sender = .idle) (m : α) :
    Steps R L (join o n fwd back) (join (o.plain m) n (fwd ++ [.plain m]) back) :=
  .single (.plain m h)

theorem Steps.resend (h : R (join o n fwd back)) :
    Steps R L (join o n fwd back) (join o n (fwd ++ o.sender.packet) back) :=
  .single (.resend h)

theorem Steps.lose (h : L) (hf : fwd'.Sublist fwd) (hb : back'.Sublist back) :
    Steps R L (join o n fwd back) (join o n fwd' back') :=
  .single (.lose h fwd' back' hf hb)

end MqttBenchmark.Lib.Handshake
