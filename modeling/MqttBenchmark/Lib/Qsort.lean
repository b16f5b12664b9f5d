/-
  MqttBenchmark.Lib.Qsort
  ───────────────────────
  **SORTING WITH A COMPARATOR THAT MAY NOT BE AN ORDER.**

  `qsort` promises a sorted array only when its comparator is a consistent
  order of the elements it is called on.  `QsortResult` is that contract.

    • `Consistent` — defined, sign-antisymmetric and transitive on a list,
    • `QsortResult.unique` — then the result does not depend on the order in
      which the elements were given,
    • `middle`, `Trimmed` — what is left of a sorted list without the same
      number of elements at either end.
-/
import Mathlib.Tactic.Common
import Mathlib.Tactic.Linarith

namespace MqttBenchmark.Lib

variable {α : Type*}

/-! ## §1. Comparators. -/

/-- A comparator: negative, zero or positive, or no value at all. -/
abbrev Comparator (α : Type*) := α → α → Option Int

namespace Comparator

variable {cmp : Comparator α} {xs ys : List α}

/-- `a` may stand before `b`. -/
def Le (cmp : Comparator α) (a b : α) : Prop := ∃ d, cmp a b = some d ∧ d ≤ 0

/-- A total preorder of the elements of a list. -/
structure Consistent (cmp : Comparator α) (xs : List α) : Prop where
  defined : ∀ a ∈ xs, ∀ b ∈ xs, (cmp a b).isSome
  antisymm : ∀ a ∈ xs, ∀ b ∈ xs, ∀ d e, cmp a b = some d → cmp b a = some e → d.sign = -e.sign
  trans : ∀ a ∈ xs, ∀ b ∈ xs, ∀ c ∈ xs, cmp.Le a b → cmp.Le b c → cmp.Le a c

theorem Consistent.of_mem (h : cmp.Consistent xs) (hsub : ∀ a ∈ ys, a ∈ xs) :
    cmp.Consistent ys := by
  refine ⟨?_, ?_, ?_⟩
  · intro a ha b hb
    exact h.defined a (hsub a ha) b (hsub b hb)
  · intro a ha b hb
    exact h.antisymm a (hsub a ha) b (hsub b hb)
  · intro a ha b hb c hc
    exact h.trans a (hsub a ha) b (hsub b hb) c (hsub c hc)

/-- What `qsort` may leave of `xs`. -/
structure QsortResult (cmp : Comparator α) (xs ys : List α) : Prop where
  perm : ys.Perm xs
  sorted : cmp.Consistent xs → ys.Pairwise cmp.Le

/-- **The result is unique**, when elements that compare equal are equal. -/
theorem QsortResult.unique {xs' ys' : List α} (hc : cmp.Consistent xs)
    (heq : ∀ a ∈ xs, ∀ b ∈ xs, cmp a b = some 0 → a = b) (hperm : xs'.Perm xs)
    (h : QsortResult cmp xs ys) (h' : QsortResult cmp xs' ys') : ys = ys' := by
  have hc' : cmp.Consistent xs' := hc.of_mem fun a ha => hperm.mem_iff.mp ha
  have hperm' : ys'.Perm xs := h'.perm.trans hperm
  apply List.Perm.eq_of_pairwise _ (h.sorted hc) (h'.sorted hc') (h.perm.trans hperm'.symm)
  intro a b ha hb hab hba
  have ha := h.perm.mem_iff.mp ha
  have hb := hperm'.mem_iff.mp hb
  obtain ⟨d, hd, hdle⟩ := hab
  obtain ⟨e, he, hele⟩ := hba
  -- two signs that are opposite and not positive are 0
  have hsign := hc.antisymm a ha b hb d e hd he
  have hzero : d = 0 := by
    rcases Int.lt_trichotomy d 0 with hlt | hz | hgt
    · rw [Int.sign_eq_neg_one_of_neg hlt] at hsign
      rcases Int.lt_or_eq_of_le hele with hlt' | rfl
      · rw [Int.sign_eq_neg_one_of_neg hlt'] at hsign
        omega
      · simp at hsign
    · exact hz
    · omega
  rw [hzero] at hd
  exact heq a ha b hb hd

end Comparator

/-! ## §2. The middle of a list. -/

/-- The list without its first `d` and its last `d` elements. -/
def middle (d : Nat) (l : List α) : List α := (l.drop d).take (l.length - 2 * d)

theorem middle_length {d : Nat} {l : List α} (h : 2 * d ≤ l.length) :
    (middle d l).length = l.length - 2 * d := by
  unfold middle
  rw [List.length_take, List.length_drop]
  omega

theorem middle_append {d : Nat} {l : List α} (h : 2 * d ≤ l.length) :
    l = l.take d ++ (middle d l ++ l.drop (l.length - d)) := by
  have hlast : l.drop (l.length - d) = (l.drop d).drop (l.length - 2 * d) := by
    rw [List.drop_drop]
    congr 1
    omega
  unfold middle
  rw [hlast, List.take_append_drop, List.take_append_drop]

theorem mem_of_mem_middle {d : Nat} {l : List α} {a : α} (h : a ∈ middle d l) : a ∈ l :=
  List.mem_of_mem_drop (List.mem_of_mem_take h)

/-- `kept` is `xs` without its `d` smallest and its `d` largest elements. -/
def Trimmed (r : α → α → Prop) (d : Nat) (xs kept : List α) : Prop :=
  ∃ low high, xs.Perm (low ++ (kept ++ high)) ∧ low.length = d ∧ high.length = d
    ∧ (∀ a ∈ low, ∀ b ∈ kept ++ high, r a b) ∧ ∀ b ∈ kept, ∀ c ∈ high, r b c

/-- **The middle of a sorted list is the list trimmed by rank.** -/
theorem trimmed_middle {r : α → α → Prop} {d : Nat} {xs l : List α} (hl : l.Pairwise r)
    (hperm : l.Perm xs) (h : 2 * d ≤ l.length) : Trimmed r d xs (middle d l) := by
  have happend := middle_append h
  rw [happend, List.pairwise_append, List.pairwise_append] at hl
  obtain ⟨-, ⟨-, -, hhigh⟩, hlow⟩ := hl
  refine ⟨l.take d, l.drop (l.length - d), ?_, ?_, ?_, hlow, hhigh⟩
  · rw [← happend]
    exact hperm.symm
  · rw [List.length_take]
    omega
  · rw [List.length_drop]
    omega

theorem pairwise_middle {r : α → α → Prop} {d : Nat} {l : List α} (hl : l.Pairwise r) :
    (middle d l).Pairwise r :=
  (hl.drop).take

/-- The first element of a sorted list stands below every other. -/
theorem head_le {r : α → α → Prop} (hrefl : ∀ a, r a a) {l : List α} (hl : l.Pairwise r) {a : α}
    (ha : l.head? = some a) : ∀ b ∈ l, r a b := by
  intro b hb
  cases l with
  | nil => cases ha
  | cons c l =>
      cases ha
      rcases List.mem_cons.mp hb with rfl | hb
      · exact hrefl b
      · exact List.rel_of_pairwise_cons hl hb

/-- The last element of a sorted list stands above every other. -/
theorem le_getLast {r : α → α → Prop} (hrefl : ∀ a, r a a) {l : List α} (hl : l.Pairwise r) {a : α}
    (ha : l.getLast? = some a) : ∀ b ∈ l, r b a := by
  intro b hb
  rw [← List.head?_reverse] at ha
  have hrev : l.reverse.Pairwise fun c d => r d c := List.pairwise_reverse.mpr hl
  exact head_le (r := fun c d => r d c) hrefl hrev ha b (List.mem_reverse.mpr hb)

/-! ## §3. The floor mean. -/

/-- The floor mean lies between two bounds of the elements. -/
theorem mean_bounds {l : List Nat} (hne : l ≠ []) {lo hi : Nat} (hlo : ∀ x ∈ l, lo ≤ x)
    (hhi : ∀ x ∈ l, x ≤ hi) : lo ≤ l.sum / l.length ∧ l.sum / l.length ≤ hi := by
  have hpos : 0 < l.length := List.length_pos_iff.mpr hne
  have hsum : lo * l.length ≤ l.sum ∧ l.sum ≤ hi * l.length := by
    clear hne hpos
    induction l with
    | nil => simp
    | cons x xs ih =>
        have hx := hlo x List.mem_cons_self
        have hx' := hhi x List.mem_cons_self
        obtain ⟨h1, h2⟩ := ih (fun y hy => hlo y (List.mem_cons_of_mem _ hy))
          fun y hy => hhi y (List.mem_cons_of_mem _ hy)
        rw [List.sum_cons, List.length_cons, Nat.mul_succ, Nat.mul_succ]
        omega
  refine ⟨(Nat.le_div_iff_mul_le hpos).mpr hsum.1, ?_⟩
  apply Nat.div_le_of_le_mul
  rw [Nat.mul_comm]
  exact hsum.2

end MqttBenchmark.Lib
