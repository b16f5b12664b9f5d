/-
  MqttBenchmark.Stats.Order
  ─────────────────────────
  **THE ORDER `cmpfunc` SORTS BY.**

  `cmpfunc` subtracts signed readings in an `int`.  As long as no difference
  overflows it is the order of the signed readings; a difference that does
  overflow has no value.

    • `consistent_iff` — exactly when `cmpfunc` is a consistent order,
    • `qsortResult_eq` — then `qsort` leaves one array, `signedSort`,
    • `one_reading_iff` — exactly when sorting, averaging and printing agree
      on what a sample is.
-/
import MqttBenchmark.Stats.Run
import Mathlib.Algebra.Order.Ring.Int

namespace MqttBenchmark.Stats

open Lib

variable {a b x : UInt32} {xs ys pts : List UInt32}

/-! ## §1. Signed readings. -/

theorem asInt_cond (x : UInt32) :
    asInt x = if x.toNat < 2 ^ 31 then (x.toNat : Int) else (x.toNat : Int) - 2 ^ 32 := by
  show x.toBitVec.toInt = _
  rw [BitVec.toInt_eq_toNat_cond, UInt32.toNat_toBitVec]
  by_cases h : x.toNat < 2 ^ 31
  · rw [if_pos h, if_pos (by omega)]
  · rw [if_neg h, if_neg (by omega)]
    rfl

/-- The number printed with `%u` and the number printed with `%d`. -/
theorem toNat_eq_asInt (x : UInt32) :
    (x.toNat : Int) = if 0 ≤ asInt x then asInt x else asInt x + 2 ^ 32 := by
  have hx := x.toNat_lt
  rw [asInt_cond]
  by_cases h : x.toNat < 2 ^ 31
  · rw [if_pos h, if_pos (by omega)]
  · rw [if_neg h, if_neg (by omega)]
    omega

theorem asInt_inj (h : asInt a = asInt b) : a = b := by
  apply UInt32.toNat.inj
  have ha := toNat_eq_asInt a
  have hb := toNat_eq_asInt b
  rw [h, ← hb] at ha
  exact_mod_cast ha

/-! ## §2. The comparator. -/

theorem cmpfunc_eq_some {d : Int} :
    cmpfunc a b = some d ↔ d = asInt a - asInt b ∧ -2 ^ 31 ≤ d ∧ d < 2 ^ 31 := by
  unfold cmpfunc
  dsimp only
  constructor
  · intro h
    split at h
    next hrange =>
      cases h
      omega
    next => cases h
  · intro h
    obtain ⟨rfl, hlow, hhigh⟩ := h
    rw [if_pos (by omega)]

theorem le_iff : cmpfunc.Le a b ↔ asInt a ≤ asInt b ∧ asInt b - asInt a ≤ 2 ^ 31 := by
  unfold Comparator.Le
  constructor
  · intro h
    obtain ⟨d, hd, hle⟩ := h
    obtain ⟨rfl, hlow, -⟩ := cmpfunc_eq_some.mp hd
    omega
  · intro h
    obtain ⟨hle, hrange⟩ := h
    exact ⟨asInt a - asInt b, cmpfunc_eq_some.mpr ⟨rfl, by omega, by omega⟩, by omega⟩

/-- **When `cmpfunc` is an order of the values of an array.** -/
theorem consistent_iff :
    cmpfunc.Consistent xs ↔ ∀ a ∈ xs, ∀ b ∈ xs, asInt a - asInt b < 2 ^ 31 := by
  constructor
  · intro h a ha b hb
    obtain ⟨d, hd⟩ := Option.isSome_iff_exists.mp (h.defined a ha b hb)
    obtain ⟨rfl, -, hlt⟩ := cmpfunc_eq_some.mp hd
    exact hlt
  · intro h
    refine ⟨?_, ?_, ?_⟩
    · intro a ha b hb
      have hab := h a ha b hb
      have hba := h b hb a ha
      exact Option.isSome_iff_exists.mpr ⟨_, cmpfunc_eq_some.mpr ⟨rfl, by omega, hab⟩⟩
    · intro a _ b _ d e hd he
      obtain ⟨rfl, -, -⟩ := cmpfunc_eq_some.mp hd
      obtain ⟨rfl, -, -⟩ := cmpfunc_eq_some.mp he
      rw [← Int.sign_neg]
      congr 1
      omega
    -- transitive, because the third difference stays in range as well
    · intro a ha b _ c hc hab hbc
      have hca := h c hc a ha
      rw [le_iff] at hab hbc ⊢
      omega

/-- Values below `2 ^ 31` are compared as they are. -/
theorem consistent_of_lt (h : ∀ x ∈ xs, x.toNat < 2 ^ 31) : cmpfunc.Consistent xs := by
  rw [consistent_iff]
  intro a ha b hb
  rw [asInt_of_lt (h a ha), asInt_of_lt (h b hb)]
  have := h a ha
  omega

/-! ## §3. What `qsort` leaves. -/

/-- The array in the order of its signed readings. -/
def signedSort (xs : List UInt32) : List UInt32 :=
  xs.mergeSort fun a b => decide (asInt a ≤ asInt b)

theorem signedSort_perm (xs : List UInt32) : (signedSort xs).Perm xs := List.mergeSort_perm ..

theorem signedSort_pairwise (xs : List UInt32) :
    (signedSort xs).Pairwise fun a b => asInt a ≤ asInt b := by
  have hsorted : (signedSort xs).Pairwise fun a b => decide (asInt a ≤ asInt b) = true := by
    apply List.pairwise_mergeSort
    · intro a b c hab hbc
      rw [decide_eq_true_eq] at hab hbc ⊢
      omega
    · intro a b
      rw [Bool.or_eq_true, decide_eq_true_eq, decide_eq_true_eq]
      omega
  apply hsorted.imp
  intro a b hab
  exact of_decide_eq_true hab

/-- There is always an array `qsort` may leave. -/
theorem qsortResult_signedSort (xs : List UInt32) :
    Comparator.QsortResult cmpfunc xs (signedSort xs) := by
  refine ⟨signedSort_perm xs, ?_⟩
  intro hc
  rw [consistent_iff] at hc
  apply (signedSort_pairwise xs).imp_of_mem
  intro a b ha hb hab
  have hba := hc b ((signedSort_perm xs).mem_iff.mp hb) a ((signedSort_perm xs).mem_iff.mp ha)
  rw [le_iff]
  omega

/-- **With a consistent order there is only one**, however the samples
arrived. -/
theorem qsortResult_eq {xs' : List UInt32} (hc : cmpfunc.Consistent xs) (hperm : xs'.Perm xs)
    (h : Comparator.QsortResult cmpfunc xs' ys) : ys = signedSort xs := by
  apply Eq.symm
  apply Comparator.QsortResult.unique hc _ hperm (qsortResult_signedSort xs) h
  -- values that compare equal are equal
  intro a _ b _ hab
  obtain ⟨hd, -, -⟩ := cmpfunc_eq_some.mp hab
  apply asInt_inj
  omega

/-! ## §4. Signed and unsigned. -/

/-- The surplus of the unsigned sum over the signed one. -/
theorem total_eq_asInt (pts : List UInt32) :
    (total pts : Int) = (pts.map asInt).sum + 2 ^ 32 * pts.countP fun x => asInt x < 0 := by
  induction pts with
  | nil => rfl
  | cons x pts ih =>
      have hx := toNat_eq_asInt x
      rw [total_cons, List.map_cons, List.sum_cons, List.countP_cons, Nat.cast_add, ih, hx]
      -- a negative reading is counted `2 ^ 32` too high
      by_cases hneg : asInt x < 0
      · rw [if_neg (by omega), if_pos (decide_eq_true hneg)]
        push_cast
        omega
      · rw [if_pos (by omega), if_neg (by simpa using hneg)]
        push_cast
        omega

/-- The distances from a point, counted with 1 each. -/
theorem sum_distances (z : Int) (pts : List UInt32) :
    (pts.map fun x => z + 1 - asInt x).sum = (z + 1) * pts.length - (pts.map asInt).sum := by
  induction pts with
  | nil => simp
  | cons x pts ih =>
      rw [List.map_cons, List.sum_cons, ih, List.map_cons, List.sum_cons, List.length_cons,
        Nat.cast_add, Nat.cast_one, Int.mul_add, Int.mul_one]
      omega

/-- The mean printed is not above a point, when the surplus is smaller than
the distances from it. -/
theorem meanOf_le_iff (hne : pts ≠ []) (z : Int) :
    ((meanOf pts).toNat : Int) ≤ z
      ↔ 2 ^ 32 * (pts.countP fun x => asInt x < 0 : Int) < (pts.map fun x => z + 1 - asInt x).sum := by
  have hpos : (0 : Int) < pts.length := by
    have hlen := List.length_pos_iff.mpr hne
    omega
  have htotal := total_eq_asInt pts
  have hlt : ((total pts : Int) / pts.length < z + 1) ↔ (total pts : Int) < (z + 1) * pts.length :=
    Int.ediv_lt_iff_lt_mul hpos
  rw [sum_distances, meanOf_toNat, Int.natCast_ediv]
  omega

/-- The mean printed is not below a signed reading below all of the points. -/
theorem le_meanOf (hne : pts ≠ []) {z : Int} (h : ∀ x ∈ pts, z ≤ asInt x) :
    z ≤ ((meanOf pts).toNat : Int) := by
  have hpos : (0 : Int) < pts.length := by
    have hlen := List.length_pos_iff.mpr hne
    omega
  have hsum : z * pts.length ≤ (total pts : Int) := by
    clear hne hpos
    induction pts with
    | nil => simp
    | cons x pts ih =>
        have hx := h x List.mem_cons_self
        have hrest := ih fun y hy => h y (List.mem_cons_of_mem _ hy)
        have hread := toNat_eq_asInt x
        rw [total_cons, List.length_cons, Nat.cast_add, Nat.cast_add, Nat.cast_one, Int.mul_add,
          Int.mul_one]
        split at hread
        next => omega
        next => omega
  rw [meanOf_toNat, Int.natCast_ediv]
  exact (Int.le_ediv_iff_mul_le hpos).mpr hsum

/-- Sorting, averaging and printing agree on what a sample is. -/
structure OneReading (maxIter dropRatio : UInt32) (xs : List UInt32) : Prop where
  order : cmpfunc.Consistent xs
  printed : ∀ ys sum, Comparator.QsortResult cmpfunc xs ys →
    summaryStats maxIter dropRatio ys = .ok sum →
      sum.dataPts.Pairwise fun a b => asInt a ≤ asInt b
  mean : ∀ ys sum, Comparator.QsortResult cmpfunc xs ys →
    summaryStats maxIter dropRatio ys = .ok sum → ∀ first last,
      sum.dataPts.head? = some first → sum.dataPts.getLast? = some last →
        asInt first ≤ (sum.mean.toNat : Int) ∧ (sum.mean.toNat : Int) ≤ asInt last

/-- The one array `qsort` leaves, and what is printed of it. -/
theorem eq_summaryOf_signedSort {maxIter dropRatio : UInt32} {sum : Summary}
    (hlen : xs.length = maxIter.toNat) (horder : cmpfunc.Consistent xs)
    (hqsort : Comparator.QsortResult cmpfunc xs ys)
    (hsum : summaryStats maxIter dropRatio ys = .ok sum) :
    Trims maxIter dropRatio
      ∧ sum = summaryOf (middle (dropIdx dropRatio maxIter).toNat (signedSort xs)) := by
  have hlength : (signedSort xs).length = maxIter.toNat :=
    (signedSort_perm xs).length_eq.trans hlen
  rw [qsortResult_eq horder (List.Perm.refl _) hqsort] at hsum
  have htrims := trims_of_ok hlength hsum
  rw [summaryStats_eq htrims hlength] at hsum
  cases hsum
  exact ⟨htrims, rfl⟩

/-- **When there is one reading of a sample**: no two signed readings differ
by `2 ^ 31`, and the negative ones among the points printed, which the mean
counts `2 ^ 32` too high, are outweighed by the distances from the last. -/
theorem one_reading_iff (maxIter dropRatio : UInt32) (xs : List UInt32)
    (hlen : xs.length = maxIter.toNat) :
    OneReading maxIter dropRatio xs
      ↔ (∀ a ∈ xs, ∀ b ∈ xs, asInt a - asInt b < 2 ^ 31)
        ∧ (Trims maxIter dropRatio → ∀ kept last,
            kept = middle (dropIdx dropRatio maxIter).toNat (signedSort xs) →
            kept.getLast? = some last →
            2 ^ 32 * (kept.countP fun x => asInt x < 0 : Int)
              < (kept.map fun x => asInt last + 1 - asInt x).sum) := by
  have hlength : (signedSort xs).length = maxIter.toNat :=
    (signedSort_perm xs).length_eq.trans hlen
  constructor
  · intro h
    refine ⟨consistent_iff.mp h.order, ?_⟩
    intro htrims kept last hkept hlast
    have hne : kept ≠ [] := by
      intro hnil
      rw [hnil] at hlast
      cases hlast
    -- the array in signed order is one `qsort` may leave
    have hmean := h.mean _ _ (qsortResult_signedSort xs) (summaryStats_eq htrims hlength)
      (kept.head hne) last
    rw [← hkept] at hmean
    exact (meanOf_le_iff hne _).mp (hmean (List.head?_eq_some_head hne) hlast).2
  · intro h
    obtain ⟨hdiff, hsurplus⟩ := h
    have horder := consistent_iff.mpr hdiff
    have hsorted := pairwise_middle (d := (dropIdx dropRatio maxIter).toNat) (signedSort_pairwise xs)
    refine ⟨horder, ?_, ?_⟩
    · intro ys sum hqsort hsum
      obtain ⟨-, rfl⟩ := eq_summaryOf_signedSort hlen horder hqsort hsum
      exact hsorted
    · intro ys sum hqsort hsum first last hfirst hlast
      obtain ⟨htrims, rfl⟩ := eq_summaryOf_signedSort hlen horder hqsort hsum
      have hne : middle (dropIdx dropRatio maxIter).toNat (signedSort xs) ≠ [] := by
        intro hnil
        change (middle _ _).head? = _ at hfirst
        rw [hnil] at hfirst
        cases hfirst
      constructor
      · apply le_meanOf hne
        intro x hx
        exact head_le (r := fun a b => asInt a ≤ asInt b) (fun _ => Int.le_refl _) hsorted hfirst x hx
      · exact (meanOf_le_iff hne _).mpr (hsurplus htrims _ last rfl hlast)

/-- Two samples of a publisher whose clock is 3 microseconds ahead: the mean
printed is 4294967292, the points are -5 and -3. -/
theorem one_reading_fails_for_clock_ahead :
    summaryStats 2 0 [4294967291, 4294967293]
        = .ok (summaryOf [4294967291, 4294967293])
    ∧ (summaryOf [4294967291, 4294967293]).mean = 4294967292
    ∧ asInt 4294967293 = -3
    ∧ ¬ OneReading 2 0 [4294967291, 4294967293] := by
  have hsum : summaryStats 2 0 [4294967291, 4294967293]
      = .ok (summaryOf [4294967291, 4294967293]) :=
    summaryStats_eq (trims_iff.mpr (by decide)) rfl
  refine ⟨hsum, by decide, by decide, ?_⟩
  intro h
  have hqsort : Comparator.QsortResult cmpfunc [4294967291, 4294967293] [4294967291, 4294967293] := by
    refine ⟨List.Perm.refl _, ?_⟩
    intro _
    rw [List.pairwise_pair]
    exact ⟨-2, by decide, by decide⟩
  have hle := (h.mean _ _ hqsort hsum 4294967291 4294967293 rfl rfl).2
  revert hle
  decide

/-- Two samples within range. -/
theorem one_reading_iff_two : OneReading 2 0 [10, 20] := by
  have hsort : signedSort [10, 20] = [10, 20] := by
    apply Eq.symm
    apply qsortResult_eq (consistent_of_lt (by simp)) (List.Perm.refl _)
    refine ⟨List.Perm.refl _, ?_⟩
    intro _
    rw [List.pairwise_pair]
    exact ⟨-10, by decide, by decide⟩
  refine (one_reading_iff 2 0 [10, 20] rfl).mpr ⟨by simp [asInt], ?_⟩
  intro _ kept last hkept hlast
  rw [hsort] at hkept
  subst hkept
  cases hlast
  decide

end MqttBenchmark.Stats
