/-
  MqttBenchmark.Lib.Slots
  ───────────────────────
  **A FIXED BUFFER FILLED FROM THE FRONT.**

  `slots n xs z` is the buffer of `n` cells, each `z` at first, after the
  items `xs` were stored one by one; items beyond the last cell are dropped.
  `slots_snoc_set` and `slots_snoc_full` say what one item more does.
-/
import Mathlib.Tactic.Common

namespace MqttBenchmark.Lib

variable {α : Type*}

/-- `n` cells, the first ones holding `xs` and the others `z`. -/
def slots (n : Nat) (xs : List α) (z : α) : List α :=
  xs.take n ++ List.replicate (n - xs.length) z

@[simp] theorem slots_length (n : Nat) (xs : List α) (z : α) : (slots n xs z).length = n := by
  simp only [slots, List.length_append, List.length_take, List.length_replicate]
  omega

@[simp] theorem slots_nil (n : Nat) (z : α) : slots n [] z = List.replicate n z := by
  simp [slots]

/-- A cell holds its item, or still `z`. -/
theorem slots_getElem? {n i : Nat} (xs : List α) (z : α) (hi : i < n) :
    (slots n xs z)[i]? = some (xs.getD i z) := by
  rw [slots, List.getElem?_append]
  rw [List.getD_eq_getElem?_getD]
  split
  next hlt =>
    have hlt : i < xs.length := by
      rw [List.length_take] at hlt
      omega
    rw [List.getElem?_take_of_lt hi, List.getElem?_eq_getElem hlt]
    rfl
  next hge =>
    rw [List.length_take] at hge ⊢
    have hle : xs.length ≤ i := by omega
    rw [List.getElem?_replicate, if_pos (by omega), List.getElem?_eq_none hle]
    rfl

/-- One item more while there is a cell left: it goes to that cell. -/
theorem slots_snoc_set {n : Nat} (xs : List α) (x z : α) (h : xs.length < n) :
    slots n (xs ++ [x]) z = (slots n xs z).set xs.length x := by
  -- cell by cell: the new cell, an old one, a free one
  apply List.ext_getElem?
  intro i
  rcases Nat.lt_or_ge i n with hi | hi
  · rw [slots_getElem? _ _ hi, List.getElem?_set]
    split
    next heq =>
      subst heq
      simp [h]
    next hne =>
      rw [slots_getElem? _ _ hi]
      congr 1
      rcases Nat.lt_or_gt_of_ne hne with hlt | hlt
      -- behind the new item both buffers hold `z`
      · have hxs : xs.length ≤ i := by omega
        have hsnoc : (xs ++ [x]).length ≤ i := by
          rw [List.length_append, List.length_singleton]
          omega
        rw [List.getD_eq_getElem?_getD, List.getD_eq_getElem?_getD, List.getElem?_eq_none hsnoc,
          List.getElem?_eq_none hxs]
      · rw [List.getD_eq_getElem?_getD, List.getD_eq_getElem?_getD, List.getElem?_append_left hlt]
  · rw [List.getElem?_eq_none (by simpa using hi), List.getElem?_eq_none (by simpa using hi)]

/-- One item more when every cell is taken: it is dropped. -/
theorem slots_snoc_full {n : Nat} (xs : List α) (x z : α) (h : n ≤ xs.length) :
    slots n (xs ++ [x]) z = slots n xs z := by
  rw [slots, slots, List.take_append_of_le_length h, List.length_append]
  congr 2
  simp only [List.length_singleton]
  omega

/-- The items are what stands in front. -/
theorem take_slots {n : Nat} (xs : List α) (z : α) (h : xs.length ≤ n) :
    (slots n xs z).take xs.length = xs := by
  rw [slots, List.take_of_length_le h, List.take_left]

end MqttBenchmark.Lib
