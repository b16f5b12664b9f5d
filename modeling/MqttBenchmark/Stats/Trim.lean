/-
  MqttBenchmark.Stats.Trim
  ────────────────────────
  **WHAT THE TRIM LEAVES, AND FOR WHICH PARAMETERS.**

  `DROP_IDX(MAX_ITER)` samples go at either end.  Nothing checks that this is
  less than half of the array.

    • `runs_through_iff` — the parameters `summary_stats` survives,
    • `drops_as_documented_iff` — the parameters for which `--drop-ratio x`
      drops x percent,
    • `announced_statistics` — the statistics of the samples that are left.
-/
import MqttBenchmark.Stats.Order

namespace MqttBenchmark.Stats

open Lib

variable {maxIter dropRatio : UInt32} {xs ys pts rttTs : List UInt32}

/-! ## §1. The parameters the function survives. -/

/-- An array of any length. -/
theorem exists_array (n : UInt32) : ∃ rttTs : List UInt32, rttTs.length = n.toNat :=
  ⟨List.replicate n.toNat 0, List.length_replicate ..⟩

/-- **When `summary_stats` neither divides by zero nor leaves the array.** -/
theorem runs_through_iff (maxIter dropRatio : UInt32) :
    (∀ rttTs : List UInt32, rttTs.length = maxIter.toNat →
      ∃ sum, summaryStats maxIter dropRatio rttTs = .ok sum)
    ↔ 2 * (maxIter.toNat * dropRatio.toNat % 2 ^ 32 / 100) < maxIter.toNat
      ∧ maxIter.toNat - maxIter.toNat * dropRatio.toNat % 2 ^ 32 / 100 < 2 ^ 31 := by
  rw [← trims_iff]
  constructor
  · intro h
    obtain ⟨rttTs, hlen⟩ := exists_array maxIter
    obtain ⟨sum, hsum⟩ := h rttTs hlen
    exact trims_of_ok hlen hsum
  · intro h rttTs hlen
    exact ⟨_, summaryStats_eq h hlen⟩

/-- Two samples and half of them dropped at either end: no sample is left to
divide by. -/
theorem runs_through_fails_at_half :
    (∀ rttTs, summaryStats 2 50 rttTs = .error .divByZero)
    ∧ ¬ ∀ (maxIter dropRatio : UInt32) (rttTs : List UInt32), rttTs.length = maxIter.toNat →
        ∃ sum, summaryStats maxIter dropRatio rttTs = .ok sum := by
  have hdiv : ∀ rttTs, summaryStats 2 50 rttTs = .error .divByZero := fun _ => rfl
  refine ⟨hdiv, ?_⟩
  intro h
  obtain ⟨sum, hsum⟩ := h 2 50 [0, 0] rfl
  rw [hdiv] at hsum
  cases hsum

/-! ## §2. The documented percentage. -/

/-- `--drop-ratio x` as it is documented: the product does not wrap, and the
same number of samples is dropped at either end, together `x` percent of them
to within 2. -/
def DropsAsDocumented (maxIter dropRatio : UInt32) : Prop :=
  maxIter.toNat * dropRatio.toNat < 2 ^ 32
  ∧ ∃ d : Nat, 100 * (2 * d) ≤ maxIter.toNat * dropRatio.toNat + 200
    ∧ maxIter.toNat * dropRatio.toNat ≤ 100 * (2 * d) + 200
    ∧ ∀ rttTs : List UInt32, rttTs.length = maxIter.toNat →
        ∃ sum, summaryStats maxIter dropRatio rttTs = .ok sum ∧ sum.dataPts = middle d rttTs

/-- The number of samples dropped at either end, read off what is printed. -/
theorem eq_of_middle {d : Nat} (h : Trims maxIter dropRatio) (hlen : rttTs.length = maxIter.toNat)
    (heq : middle (dropIdx dropRatio maxIter).toNat rttTs = middle d rttTs) :
    d = (dropIdx dropRatio maxIter).toNat := by
  have hkeeps := h.keeps
  have hlength := congrArg List.length heq
  rw [middle_length (by omega)] at hlength
  unfold middle at hlength
  rw [List.length_take, List.length_drop] at hlength
  omega

/-- **When `--drop-ratio` drops what it says**: the trim drops x percent at
each end, so at most two samples may go on either side. -/
theorem drops_as_documented_iff (maxIter dropRatio : UInt32) :
    DropsAsDocumented maxIter dropRatio
    ↔ maxIter.toNat * dropRatio.toNat < 300
      ∧ 2 * (maxIter.toNat * dropRatio.toNat / 100) < maxIter.toNat
      ∧ maxIter.toNat - maxIter.toNat * dropRatio.toNat / 100 < 2 ^ 31 := by
  constructor
  · intro h
    obtain ⟨hprod, d, hmore, hless, hkeep⟩ := h
    obtain ⟨rttTs, hlen⟩ := exists_array maxIter
    obtain ⟨sum, hsum, hpts⟩ := hkeep rttTs hlen
    have htrims := trims_of_ok hlen hsum
    rw [summaryStats_eq htrims hlen] at hsum
    cases hsum
    -- what is printed fixes the number dropped: it is `DROP_IDX`
    have hd := eq_of_middle htrims hlen hpts
    rw [trims_iff, Nat.mod_eq_of_lt hprod] at htrims
    rw [dropIdx_toNat, Nat.mod_eq_of_lt hprod] at hd
    refine ⟨?_, htrims⟩
    omega
  · intro h
    obtain ⟨hprod, hkeeps, hcounts⟩ := h
    have hmod : maxIter.toNat * dropRatio.toNat % 2 ^ 32 = maxIter.toNat * dropRatio.toNat :=
      Nat.mod_eq_of_lt (by omega)
    have htrims : Trims maxIter dropRatio := by
      rw [trims_iff, hmod]
      exact ⟨hkeeps, hcounts⟩
    refine ⟨by omega, (dropIdx dropRatio maxIter).toNat, ?_, ?_, ?_⟩
    · rw [dropIdx_toNat, hmod]
      omega
    · rw [dropIdx_toNat, hmod]
      omega
    · intro rttTs hlen
      exact ⟨_, summaryStats_eq htrims hlen, rfl⟩

/-- Of 100 samples with `--drop-ratio 5` ten are dropped. -/
theorem drops_as_documented_fails_at_five_percent :
    ¬ DropsAsDocumented 100 5
    ∧ ∀ rttTs : List UInt32, rttTs.length = 100 →
        ∃ sum, summaryStats 100 5 rttTs = .ok sum ∧ sum.dataPts = middle 5 rttTs
          ∧ sum.dataPts.length = 90 := by
  have htrims : Trims 100 5 := trims_iff.mpr (by decide)
  constructor
  · intro h
    obtain ⟨-, d, hmore, -, hkeep⟩ := h
    obtain ⟨rttTs, hlen⟩ := exists_array 100
    obtain ⟨sum, hsum, hpts⟩ := hkeep rttTs hlen
    rw [summaryStats_eq htrims hlen] at hsum
    cases hsum
    have hd : d = 5 := eq_of_middle htrims hlen hpts
    subst hd
    revert hmore
    decide
  · intro rttTs hlen
    refine ⟨_, summaryStats_eq htrims hlen, rfl, ?_⟩
    show (middle 5 rttTs).length = 90
    rw [middle_length (by omega), hlen]

/-! ## §3. The statistics of what is left. -/

/-- The output announced for samples `xs`: the points are the samples without
the `idx` smallest and the `idx` largest, in order, and the mean is their
floor average. -/
structure Announced (idx : Nat) (xs : List UInt32) (sum : Summary) : Prop where
  points : Trimmed (· ≤ ·) idx xs sum.dataPts
  sorted : sum.dataPts.Pairwise (· ≤ ·)
  printed : ∀ x ∈ sum.dataPts, asInt x = x.toNat
  mean : sum.mean.toNat = total sum.dataPts / sum.dataPts.length
  bounds : ∃ first last, sum.dataPts.head? = some first ∧ sum.dataPts.getLast? = some last
    ∧ first ≤ sum.mean ∧ sum.mean ≤ last

/-- The counters of a run: `ct` is the number of points, and both values of
`acc` are the exact sums. -/
structure Counted (maxIter dropRatio : UInt32) (ys : List UInt32) (ct : Nat) (sum : Summary) :
    Prop where
  length : sum.dataPts.length = ct
  samples : ∃ acc n, meanLoop ys (dropIdx dropRatio maxIter) (maxIter - dropIdx dropRatio maxIter)
    = .ok (acc, n) ∧ n.toNat = ct ∧ acc.toNat = total sum.dataPts
  squares : ∃ acc, squaresLoop ys sum.mean (dropIdx dropRatio maxIter)
    (maxIter - dropIdx dropRatio maxIter) = .ok acc ∧ acc.toNat = squaresTotal sum.mean sum.dataPts

/-- The statistics of a list in order. -/
theorem announced_middle {idx : Nat} (hsorted : ys.Pairwise (· ≤ ·)) (hperm : ys.Perm xs)
    (hlt : ∀ x ∈ ys, x.toNat < 2 ^ 31) (htrim : 2 * idx < ys.length) :
    Announced idx xs (summaryOf (middle idx ys)) := by
  have hpts : (middle idx ys).Pairwise (· ≤ ·) := pairwise_middle hsorted
  have hlen := middle_length (d := idx) (l := ys) (by omega)
  have hne : middle idx ys ≠ [] := by
    intro hnil
    rw [hnil, List.length_nil] at hlen
    omega
  refine ⟨trimmed_middle hsorted hperm (by omega), hpts, ?_, meanOf_toNat _, ?_⟩
  · intro x hx
    exact asInt_of_lt (hlt x (mem_of_mem_middle hx))
  · show ∃ first last, (middle idx ys).head? = _ ∧ (middle idx ys).getLast? = _
      ∧ first ≤ meanOf (middle idx ys) ∧ meanOf (middle idx ys) ≤ last
    -- the floor mean of a sorted list lies between its ends
    generalize middle idx ys = pts at *
    have hfirst := List.head?_eq_some_head hne
    have hlast := List.getLast?_eq_some_getLast hne
    refine ⟨pts.head hne, pts.getLast hne, hfirst, hlast, ?_⟩
    rw [UInt32.le_iff_toNat_le, UInt32.le_iff_toNat_le, meanOf_toNat,
      ← List.length_map UInt32.toNat]
    apply mean_bounds
    · intro hnil
      exact hne (List.map_eq_nil_iff.mp hnil)
    · intro n hn
      obtain ⟨x, hx, rfl⟩ := List.mem_map.mp hn
      exact UInt32.le_iff_toNat_le.mp (head_le (fun _ => UInt32.le_refl _) hpts hfirst x hx)
    · intro n hn
      obtain ⟨x, hx, rfl⟩ := List.mem_map.mp hn
      exact UInt32.le_iff_toNat_le.mp (le_getLast (fun _ => UInt32.le_refl _) hpts hlast x hx)

/-- The counters of a run whose trim leaves something. -/
theorem counted_middle (h : Trims maxIter dropRatio) (hlen : ys.length = maxIter.toNat) :
    Counted maxIter dropRatio ys (maxIter.toNat - 2 * (dropIdx dropRatio maxIter).toNat)
      (summaryOf (middle (dropIdx dropRatio maxIter).toNat ys)) := by
  have hkeeps := h.keeps
  have hcounts := h.counts
  have hbound := h.toNat_bound
  have hslice := slice_eq_middle h hlen
  have hpts := middle_length (d := (dropIdx dropRatio maxIter).toNat) (l := ys) (by omega)
  have hmax := maxIter.toNat_lt
  have hle : (maxIter - dropIdx dropRatio maxIter).toNat ≤ ys.length := by omega
  have hidx : (dropIdx dropRatio maxIter).toNat ≤ (maxIter - dropIdx dropRatio maxIter).toNat := by
    omega
  have hlt : (middle (dropIdx dropRatio maxIter).toNat ys).length < 2 ^ 32 := by omega
  refine ⟨?_, ⟨_, _, meanLoop_eq hle hidx (by omega), ?_, ?_⟩,
    ⟨_, squaresLoop_eq hle hidx _ (by omega), ?_⟩⟩
  · show (middle _ ys).length = _
    omega
  · rw [UInt32.toNat_ofNat_of_lt' (by show _ < 2 ^ 32; omega)]
    omega
  · rw [hslice]
    exact UInt64.toNat_ofNat_of_lt' (total_lt hlt)
  · rw [hslice]
    exact UInt64.toNat_ofNat_of_lt' (squaresTotal_lt _ hlt)

/-- **The trimmed statistics.**  Whatever order the samples arrived in and
whatever `qsort` makes of it, one summary is printed, and it is the one
announced. -/
theorem announced_statistics (maxIter dropRatio : UInt32) (xs : List UInt32) (idx : Nat)
    (hmax : maxIter.toNat < 2 ^ 31) (hprod : maxIter.toNat * dropRatio.toNat < 2 ^ 32)
    (hidx : idx = maxIter.toNat * dropRatio.toNat / 100) (htrim : 2 * idx < maxIter.toNat)
    (hlen : xs.length = maxIter.toNat) (hlt : ∀ x ∈ xs, x.toNat < 2 ^ 31) :
    ∃ sum, Announced idx xs sum
      ∧ ∀ xs' ys, xs'.Perm xs → Comparator.QsortResult cmpfunc xs' ys →
          summaryStats maxIter dropRatio ys = .ok sum
          ∧ Counted maxIter dropRatio ys (maxIter.toNat - 2 * idx) sum := by
  have hdrop : (dropIdx dropRatio maxIter).toNat = idx := by
    rw [dropIdx_toNat, Nat.mod_eq_of_lt hprod, hidx]
  have htrims : Trims maxIter dropRatio := by
    constructor
    · omega
    · omega
  have hconsistent := consistent_of_lt hlt
  have hperm := signedSort_perm xs
  have hsmall : ∀ x ∈ signedSort xs, x.toNat < 2 ^ 31 := fun x hx => hlt x (hperm.mem_iff.mp hx)
  -- below `2 ^ 31` the signed order is the unsigned one
  have hsorted : (signedSort xs).Pairwise (· ≤ ·) := by
    apply (signedSort_pairwise xs).imp_of_mem
    intro a b ha hb hab
    rw [asInt_of_lt (hsmall a ha), asInt_of_lt (hsmall b hb)] at hab
    exact UInt32.le_iff_toNat_le.mpr (by exact_mod_cast hab)
  have hlength : (signedSort xs).length = maxIter.toNat := hperm.length_eq.trans hlen
  refine ⟨summaryOf (middle idx (signedSort xs)),
    announced_middle hsorted hperm hsmall (by omega), ?_⟩
  intro xs' ys hperm' hqsort
  rw [qsortResult_eq hconsistent hperm' hqsort, ← hdrop]
  exact ⟨summaryStats_eq htrims hlength, counted_middle htrims hlength⟩

/-- Five samples, one dropped at either end. -/
theorem announced_statistics_five :
    ∃ sum, Announced 1 [30, 10, 50, 20, 40] sum
      ∧ ∀ xs' ys, xs'.Perm [30, 10, 50, 20, 40] → Comparator.QsortResult cmpfunc xs' ys →
          summaryStats 5 20 ys = .ok sum ∧ Counted 5 20 ys 3 sum :=
  announced_statistics 5 20 [30, 10, 50, 20, 40] 1 (by decide) (by decide) (by decide) (by decide)
    (by decide) (by simp)

end MqttBenchmark.Stats
