/-
  MqttBenchmark.Lib.Handshake.Lossless
  ────────────────────────────────────
  **A HANDSHAKE IN WHICH NOTHING IS LOST** and nothing sent again: one packet
  of the sender's message is under way, or its answer.

    • `Whole` — where it is,
    • `release_held` — what is released is there.
-/
import MqttBenchmark.Lib.Handshake

namespace MqttBenchmark.Lib.Handshake

variable {α : Type*}

/-- The packet under way, its answer, and the message the receiver has not
passed on. -/
def Whole (s : State α) : Prop :=
  match s.sender with
  | .idle => s.fwd = [] ∧ s.back = [] ∧ s.held = none
  | .plain m => s.held = none ∧
      (s.fwd = [.plain m] ∧ s.back = [] ∨ s.fwd = [] ∧ s.back = [.acknowledged])
  | .offering m => s.fwd = [.offer m] ∧ s.back = [] ∧ s.held = none
      ∨ s.fwd = [] ∧ s.back = [.received] ∧ s.held = some m
  | .releasing m => s.fwd = [.release] ∧ s.back = [] ∧ s.held = some m
      ∨ s.fwd = [] ∧ s.back = [.completed] ∧ s.held = none

theorem initial_whole : Whole (initial : State α) := ⟨rfl, rfl, rfl⟩

/-- What the receiver reads is the one packet under way. -/
theorem Whole.fwd_cons {s : State α} (h : Whole s) {f : Forward α} {rest : List (Forward α)}
    (hfwd : s.fwd = f :: rest) : rest = [] ∧ s.back = [] ∧
      ((∃ m, f = .plain m ∧ s.sender = .plain m ∧ s.held = none)
        ∨ (∃ m, f = .offer m ∧ s.sender = .offering m)
        ∨ f = .release ∧ ∃ m, s.sender = .releasing m ∧ s.held = some m) := by
  unfold Whole at h
  rw [hfwd] at h
  cases hs : s.sender with
  | idle =>
      rw [hs] at h
      cases h.1
  | plain m =>
      rw [hs] at h
      obtain ⟨hheld, ⟨hf, hb⟩ | ⟨hf, -⟩⟩ := h
      · cases hf
        exact ⟨rfl, hb, .inl ⟨m, rfl, rfl, hheld⟩⟩
      · cases hf
  | offering m =>
      rw [hs] at h
      obtain ⟨hf, hb, -⟩ | ⟨hf, -⟩ := h
      · cases hf
        exact ⟨rfl, hb, .inr (.inl ⟨m, rfl, rfl⟩)⟩
      · cases hf
  | releasing m =>
      rw [hs] at h
      obtain ⟨hf, hb, hheld⟩ | ⟨hf, -⟩ := h
      · cases hf
        exact ⟨rfl, hb, .inr (.inr ⟨rfl, m, rfl, hheld⟩)⟩
      · cases hf

/-- What the sender reads is the answer to it. -/
theorem Whole.back_cons {s : State α} (h : Whole s) {a : Answer} {rest : List Answer}
    (hback : s.back = a :: rest) : rest = [] ∧ s.fwd = [] ∧
      ((a = .acknowledged ∧ ∃ m, s.sender = .plain m ∧ s.held = none)
        ∨ (a = .received ∧ ∃ m, s.sender = .offering m ∧ s.held = some m)
        ∨ a = .completed ∧ ∃ m, s.sender = .releasing m ∧ s.held = none) := by
  unfold Whole at h
  rw [hback] at h
  cases hs : s.sender with
  | idle =>
      rw [hs] at h
      cases h.2.1
  | plain m =>
      rw [hs] at h
      obtain ⟨hheld, ⟨-, hb⟩ | ⟨hf, hb⟩⟩ := h
      · cases hb
      · cases hb
        exact ⟨rfl, hf, .inl ⟨rfl, m, rfl, hheld⟩⟩
  | offering m =>
      rw [hs] at h
      obtain ⟨-, hb, -⟩ | ⟨hf, hb, hheld⟩ := h
      · cases hb
      · cases hb
        exact ⟨rfl, hf, .inr (.inl ⟨rfl, m, rfl, hheld⟩)⟩
  | releasing m =>
      rw [hs] at h
      obtain ⟨-, hb, -⟩ | ⟨hf, hb, hheld⟩ := h
      · cases hb
      · cases hb
        exact ⟨rfl, hf, .inr (.inr ⟨rfl, m, rfl, hheld⟩)⟩

theorem Whole.step {s s' : State α} (h : Whole s) (hstep : Step (fun _ => False) False s s') :
    Whole s' := by
  cases hstep with
  | offer m hs =>
      unfold Whole at h ⊢
      rw [hs] at h
      obtain ⟨hf, hb, hheld⟩ := h
      exact .inl ⟨by rw [hf]; rfl, hb, hheld⟩
  | plain m hs =>
      unfold Whole at h ⊢
      rw [hs] at h
      obtain ⟨hf, hb, hheld⟩ := h
      exact ⟨hheld, .inl ⟨by rw [hf]; rfl, hb⟩⟩
  | recvOffer m rest hfwd =>
      obtain ⟨rfl, hb, ⟨m', hm, -⟩ | ⟨m', hm, hs⟩ | ⟨hm, -⟩⟩ := h.fwd_cons hfwd
      · cases hm
      · cases hm
        unfold Whole
        rw [hs, hb]
        exact .inr ⟨rfl, rfl, rfl⟩
      · cases hm
  | recvPlain m rest hfwd =>
      obtain ⟨rfl, hb, ⟨m', hm, hs, hheld⟩ | ⟨m', hm, -⟩ | ⟨hm, -⟩⟩ := h.fwd_cons hfwd
      · unfold Whole
        rw [hs, hb]
        exact ⟨hheld, .inr ⟨rfl, rfl⟩⟩
      · cases hm
      · cases hm
  | recvRelease rest hfwd =>
      obtain ⟨rfl, hb, ⟨m', hm, -⟩ | ⟨m', hm, -⟩ | ⟨-, m', hs, -⟩⟩ := h.fwd_cons hfwd
      · cases hm
      · cases hm
      · unfold Whole
        rw [hs, hb]
        exact .inr ⟨rfl, rfl, rfl⟩
  | offered m rest hback hs =>
      obtain ⟨rfl, hf, ⟨ha, -⟩ | ⟨-, m', hs', hheld⟩ | ⟨ha, -⟩⟩ := h.back_cons hback
      · cases ha
      · cases hs.symm.trans hs'
        unfold Whole
        rw [hf]
        exact .inl ⟨rfl, rfl, hheld⟩
      · cases ha
  | released rest hback hs =>
      obtain ⟨-, -, ⟨ha, -⟩ | ⟨-, m, hs', -⟩ | ⟨ha, -⟩⟩ := h.back_cons hback
      · cases ha
      · exact absurd hs' (hs m)
      · cases ha
  | acknowledged m rest hback hs =>
      obtain ⟨rfl, hf, ⟨-, -, -, hheld⟩ | ⟨ha, -⟩ | ⟨ha, -⟩⟩ := h.back_cons hback
      · exact ⟨hf, rfl, hheld⟩
      · cases ha
      · cases ha
  | completed m rest hback hs =>
      obtain ⟨rfl, hf, ⟨ha, -⟩ | ⟨ha, -⟩ | ⟨-, -, -, hheld⟩⟩ := h.back_cons hback
      · cases ha
      · cases ha
      · exact ⟨hf, rfl, hheld⟩
  | stale a rest hback ha hack hcomp =>
      obtain ⟨-, -, ⟨ha', m, hs, -⟩ | ⟨ha', -⟩ | ⟨ha', m, hs, -⟩⟩ := h.back_cons hback
      · exact absurd hs (hack m ha')
      · exact absurd ha' ha
      · exact absurd hs (hcomp m ha')
  | resend hR => exact absurd hR not_false
  | lose hL => exact absurd hL not_false

theorem Reachable.whole {s : State α} (h : Reachable (fun _ => False) False s) : Whole s := by
  induction h with
  | refl => exact initial_whole
  | tail _ hstep ih => exact ih.step hstep

/-- **What is released is there.** -/
theorem release_held {s : State α} (h : Reachable (fun _ => False) False s)
    {rest : List (Forward α)} (hfwd : s.fwd = .release :: rest) : s.held ≠ none := by
  obtain ⟨-, -, ⟨m, hm, -⟩ | ⟨m, hm, -⟩ | ⟨-, m, -, hheld⟩⟩ := h.whole.fwd_cons hfwd
  · cases hm
  · cases hm
  · rw [hheld]
    exact Option.some_ne_none m

end MqttBenchmark.Lib.Handshake
