/-
  MqttBenchmark.Lib.Loop
  ──────────────────────
  **COUNTING LOOPS THAT MAY FAIL.**

  `forLoop bound body i s` is `for (; i < bound; i++) body` for a 32-bit
  counter and an unsigned comparison.  The number of rounds is known before
  the loop, so it recurses on that; `forLoop_eq` is the loop as it is written.

    • `forLoop_ok` — a loop that only reads one array is a fold over a slice,
    • `body_of_forLoop` — a loop that ends has executed its body at every index.
-/
import Mathlib.Tactic.Common
import Mathlib.Tactic.Linarith

namespace MqttBenchmark.Lib

variable {σ ε β : Type*}

/-- `n` rounds of a loop body from counter `i` on. -/
def forRounds (body : UInt32 → σ → Except ε σ) : Nat → UInt32 → σ → Except ε σ
  | 0, _, s => .ok s
  | n + 1, i, s =>
      match body i s with
      | .error e => .error e
      | .ok s => forRounds body n (i + 1) s

/-- `for (; i < bound; i++) body`. -/
def forLoop (bound : UInt32) (body : UInt32 → σ → Except ε σ) (i : UInt32) (s : σ) : Except ε σ :=
  forRounds body (bound.toNat - i.toNat) i s

/-- A round that succeeds. -/
theorem forRounds_succ {body : UInt32 → σ → Except ε σ} {i : UInt32} {s t : σ} (n : Nat)
    (h : body i s = .ok t) : forRounds body (n + 1) i s = forRounds body n (i + 1) t := by
  simp only [forRounds, h]

/-- The first of the rounds that succeed. -/
theorem exists_of_forRounds {body : UInt32 → σ → Except ε σ} {n : Nat} {i : UInt32} {s t : σ}
    (h : forRounds body (n + 1) i s = .ok t) :
    ∃ u, body i s = .ok u ∧ forRounds body n (i + 1) u = .ok t := by
  unfold forRounds at h
  split at h
  next => cases h
  next u hu => exact ⟨u, hu, h⟩

theorem toNat_succ {i : UInt32} (h : i.toNat + 1 < 2 ^ 32) : (i + 1).toNat = i.toNat + 1 := by
  rw [UInt32.toNat_add]
  show (i.toNat + 1) % 2 ^ 32 = _
  omega

theorem toNat_succ_of_lt {i bound : UInt32} (h : i < bound) : (i + 1).toNat = i.toNat + 1 := by
  have hlt := UInt32.lt_iff_toNat_lt.mp h
  have hbound := bound.toNat_lt
  exact toNat_succ (by omega)

/-- **The loop as it is written**: test, body, increment, test again. -/
theorem forLoop_eq (bound : UInt32) (body : UInt32 → σ → Except ε σ) (i : UInt32) (s : σ) :
    forLoop bound body i s
      = if i < bound then
          match body i s with
          | .error e => .error e
          | .ok s => forLoop bound body (i + 1) s
        else .ok s := by
  unfold forLoop
  by_cases h : i < bound
  · have hlt := UInt32.lt_iff_toNat_lt.mp h
    have hrounds : bound.toNat - i.toNat = (bound.toNat - (i + 1).toNat) + 1 := by
      rw [toNat_succ_of_lt h]
      omega
    rw [if_pos h, hrounds]
    rfl
  · have hle : bound.toNat ≤ i.toNat := by
      rw [UInt32.lt_iff_toNat_lt] at h
      omega
    rw [if_neg h, Nat.sub_eq_zero_of_le hle]
    rfl

/-- Rounds that read one array element after the other. -/
theorem forRounds_ok {body : UInt32 → σ → Except ε σ} {f : σ → β → σ} {ys : List β} (n : Nat)
    (i : UInt32) (s : σ) (hle : i.toNat + n ≤ ys.length) (hlt : i.toNat + n < 2 ^ 32)
    (hbody : ∀ (j : UInt32) (t : σ) (y : β), j.toNat < i.toNat + n → ys[j.toNat]? = some y →
      body j t = .ok (f t y)) :
    forRounds body n i s = .ok (((ys.drop i.toNat).take n).foldl f s) := by
  induction n generalizing i s with
  | zero =>
      rw [List.take_zero]
      rfl
  | succ n ih =>
      have hi : i.toNat < ys.length := by omega
      have hnext := toNat_succ (i := i) (by omega)
      -- the slice begins with the element this round reads
      have hslice : (ys.drop i.toNat).take (n + 1) = ys[i.toNat] :: (ys.drop (i + 1).toNat).take n := by
        rw [List.drop_eq_getElem_cons hi, List.take_succ_cons, hnext]
      have hread := hbody i s ys[i.toNat] (by omega) (List.getElem?_eq_getElem hi)
      rw [hslice, List.foldl_cons, forRounds_succ n hread]
      apply ih
      · omega
      · omega
      · intro j t y hj
        apply hbody
        omega

/-- **A loop that only reads an array folds over a slice of it.** -/
theorem forLoop_ok {body : UInt32 → σ → Except ε σ} {f : σ → β → σ} {ys : List β}
    {bound i : UInt32} (s : σ) (hle : bound.toNat ≤ ys.length) (hi : i.toNat ≤ bound.toNat)
    (hbody : ∀ (j : UInt32) (t : σ) (y : β), j.toNat < bound.toNat → ys[j.toNat]? = some y →
      body j t = .ok (f t y)) :
    forLoop bound body i s
      = .ok (((ys.drop i.toNat).take (bound.toNat - i.toNat)).foldl f s) := by
  have hbound := bound.toNat_lt
  unfold forLoop
  apply forRounds_ok
  · omega
  · omega
  · intro j t y hj
    apply hbody
    omega

theorem body_of_forRounds {body : UInt32 → σ → Except ε σ} {n : Nat} {i : UInt32} {s t : σ}
    (hlt : i.toNat + n ≤ 2 ^ 32) (h : forRounds body n i s = .ok t) (j : UInt32)
    (hij : i.toNat ≤ j.toNat) (hj : j.toNat < i.toNat + n) : ∃ u v, body j u = .ok v := by
  induction n generalizing i s with
  | zero => omega
  | succ n ih =>
      obtain ⟨u, hu, hrest⟩ := exists_of_forRounds h
      by_cases heq : j = i
      · subst heq
        exact ⟨s, u, hu⟩
      · have hne : j.toNat ≠ i.toNat := fun hn => heq (UInt32.toNat_inj.mp hn)
        have hnext := toNat_succ (i := i) (by omega)
        apply ih (by omega) hrest
        · omega
        · omega

/-- **A loop that ends has executed its body at every index**, from some
state each time. -/
theorem body_of_forLoop {body : UInt32 → σ → Except ε σ} {bound i : UInt32} {s t : σ}
    (h : forLoop bound body i s = .ok t) (j : UInt32) (hij : i.toNat ≤ j.toNat)
    (hj : j.toNat < bound.toNat) : ∃ u v, body j u = .ok v := by
  have hbound := bound.toNat_lt
  apply body_of_forRounds (by omega) h j hij
  omega

/-- Without a round nothing changes. -/
theorem forLoop_of_le {body : UInt32 → σ → Except ε σ} {bound i : UInt32} (s : σ)
    (h : bound.toNat ≤ i.toNat) : forLoop bound body i s = .ok s := by
  unfold forLoop
  rw [Nat.sub_eq_zero_of_le h]
  rfl

end MqttBenchmark.Lib
