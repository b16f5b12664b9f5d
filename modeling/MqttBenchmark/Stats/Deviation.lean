/-
  MqttBenchmark.Stats.Deviation
  ─────────────────────────────
  **THE STANDARD DEVIATION.**

  A squared deviation is a 32-bit product of 32-bit differences.  The
  difference wraps below the mean and the square undoes that; the product
  wraps from a deviation of `2 ^ 16` on, and nothing undoes that.

    • `squaredDeviation_mod` — a term is the exact square modulo `2 ^ 32`,
    • `stdDev_exact_iff` — exactly when `Std-Dev` is the deviation of the
      points, and the one `postprocess.py` recomputes from them.
-/
import MqttBenchmark.Stats.Run
import MqttBenchmark.Report.Agree
import Mathlib.Algebra.BigOperators.Group.List.Basic
import Mathlib.Algebra.Order.Ring.Abs
import Mathlib.Data.Int.ModEq

namespace MqttBenchmark.Stats

open Lib Report

variable {maxIter dropRatio mean x : UInt32} {ys pts : List UInt32} {sum : Summary}

/-! ## §1. Exact integer statistics. -/

/-- The samples as numbers. -/
def samples (pts : List UInt32) : List Int := pts.map fun x => (x.toNat : Int)

/-- The floor mean. -/
def exactMean (data : List Int) : Int := data.sum / data.length

/-- The sum of the squared deviations from it. -/
def exactSquares (data : List Int) : Int := (data.map fun x => (x - exactMean data) ^ 2).sum

/-- The floor root of the floor average of the squared deviations. -/
def exactStd (data : List Int) : Int := (exactSquares data / data.length).toNat.sqrt

theorem exactMean_perm {data sorted : List Int} (h : sorted.Perm data) :
    exactMean sorted = exactMean data := by
  unfold exactMean
  rw [h.sum_eq, h.length_eq]

theorem exactStd_perm {data sorted : List Int} (h : sorted.Perm data) :
    exactStd sorted = exactStd data := by
  have hmean := exactMean_perm h
  have hsquares : exactSquares sorted = exactSquares data := by
    unfold exactSquares
    rw [hmean]
    exact (h.map _).sum_eq
  unfold exactStd
  rw [hsquares, h.length_eq]

theorem samples_sum (pts : List UInt32) : (samples pts).sum = total pts := by
  induction pts with
  | nil => rfl
  | cons x pts ih =>
      rw [total_cons, Nat.cast_add, ← ih]
      rfl

theorem exactMean_samples (pts : List UInt32) :
    exactMean (samples pts) = (meanOf pts).toNat := by
  unfold exactMean
  rw [samples_sum, meanOf_toNat, samples, List.length_map, Int.natCast_ediv]

/-! ## §2. One term. -/

/-- **A term is the exact square modulo `2 ^ 32`.** -/
theorem squaredDeviation_mod (mean x : UInt32) :
    ((squaredDeviation mean x).toNat : Int) = ((x.toNat : Int) - mean.toNat) ^ 2 % 2 ^ 32 := by
  have hsub : ((x - mean).toNat : Int) ≡ (x.toNat : Int) - mean.toNat [ZMOD 2 ^ 32] := by
    have hx := x.toNat_lt
    have hmean := mean.toNat_lt
    rw [UInt32.toNat_sub]
    unfold Int.ModEq
    omega
  -- product and difference both wrap, and the residue survives both
  unfold squaredDeviation
  rw [UInt32.toNat_mul, Int.natCast_emod, Int.natCast_mul, pow_two]
  exact hsub.mul hsub

/-- A term is exact up to a deviation of 65535. -/
theorem squaredDeviation_exact_iff :
    ((squaredDeviation mean x).toNat : Int) = ((x.toNat : Int) - mean.toNat) ^ 2
      ↔ x.toNat ≤ mean.toNat + 65535 ∧ mean.toNat ≤ x.toNat + 65535 := by
  rw [squaredDeviation_mod]
  have hnonneg : 0 ≤ ((x.toNat : Int) - mean.toNat) ^ 2 := sq_nonneg _
  constructor
  · intro h
    -- a residue is below `2 ^ 32`, the square of 65536
    have hlt : ((x.toNat : Int) - mean.toNat) ^ 2 < 65536 ^ 2 := by
      rw [← h]
      exact Int.emod_lt_of_pos _ (by decide)
    have habs := abs_lt_of_sq_lt_sq' hlt (by decide)
    omega
  · intro h
    obtain ⟨hhigh, hlow⟩ := h
    apply Int.emod_eq_of_lt hnonneg
    have hsq : ((x.toNat : Int) - mean.toNat) ^ 2 < 65536 ^ 2 := by
      apply sq_lt_sq'
      · omega
      · omega
    exact hsq

/-! ## §3. The sum. -/

/-- A deviation from the floor mean, without the mean. -/
theorem within_iff (hne : pts ≠ []) :
    (x.toNat ≤ (meanOf pts).toNat + 65535 ∧ (meanOf pts).toNat ≤ x.toNat + 65535)
      ↔ pts.length * x.toNat ≤ total pts + pts.length * 65535
        ∧ total pts < pts.length * (x.toNat + 65536) := by
  have hpos : 0 < pts.length := List.length_pos_iff.mpr hne
  have hmul := Nat.sub_mul x.toNat 65535 pts.length
  -- a floor is at most `n` when its argument is below `n + 1`
  have hupper : total pts / pts.length ≤ x.toNat + 65535
      ↔ total pts < pts.length * (x.toNat + 65536) := by
    rw [Nat.mul_comm, ← Nat.div_lt_iff_lt_mul hpos]
    omega
  have hlower : x.toNat ≤ total pts / pts.length + 65535
      ↔ pts.length * x.toNat ≤ total pts + pts.length * 65535 := by
    rw [← Nat.sub_le_iff_le_add, Nat.le_div_iff_mul_le hpos, hmul, Nat.sub_le_iff_le_add,
      Nat.mul_comm x.toNat, Nat.mul_comm 65535]
  rw [meanOf_toNat, hupper, hlower]

/-- Without a wrap the terms add up to the exact sum. -/
theorem exactSquares_samples
    (h : ∀ x ∈ pts, ((squaredDeviation (meanOf pts) x).toNat : Int)
      = ((x.toNat : Int) - (meanOf pts).toNat) ^ 2) :
    exactSquares (samples pts) = squaresTotal (meanOf pts) pts := by
  unfold exactSquares
  rw [exactMean_samples]
  unfold samples squaresTotal
  rw [← samples_sum, List.map_map]
  unfold samples
  rw [List.map_map]
  congr 1
  apply List.map_congr_left
  intro x hx
  exact (h x hx).symm

/-- Without a wrap `Std-Dev` is the exact deviation. -/
theorem stdDev_eq_exactStd
    (h : ∀ x ∈ pts, ((squaredDeviation (meanOf pts) x).toNat : Int)
      = ((x.toNat : Int) - (meanOf pts).toNat) ^ 2) :
    ((summaryOf pts).stdDev.toNat : Int) = exactStd (samples pts) := by
  rw [summaryOf_stdDev]
  unfold exactStd
  rw [exactSquares_samples h, samples, List.length_map, ← Int.natCast_ediv, Int.toNat_natCast]

/-- A list whose elements are within 65535 of their floor mean. -/
structure NearMean (data : List Int) : Prop where
  ne_nil : data ≠ []
  near : ∀ z ∈ data, 0 ≤ z ∧ z ≤ exactMean data + 65535 ∧ exactMean data ≤ z + 65535

/-- The samples of a run without a wrap, in any order. -/
theorem nearMean_of_perm {sorted : List Int} (hne : pts ≠ []) (hperm : sorted.Perm (samples pts))
    (hnear : ∀ x ∈ pts, x.toNat ≤ (meanOf pts).toNat + 65535
      ∧ (meanOf pts).toNat ≤ x.toNat + 65535) : NearMean sorted := by
  have hmean : exactMean sorted = (meanOf pts).toNat := by
    rw [exactMean_perm hperm, exactMean_samples]
  constructor
  · intro hnil
    rw [hnil] at hperm
    exact hne (List.map_eq_nil_iff.mp hperm.nil_eq.symm)
  · intro z hz
    obtain ⟨x, hx, rfl⟩ := List.mem_map.mp (hperm.mem_iff.mp hz)
    have hbounds := hnear x hx
    rw [hmean]
    omega

/-- `extract_results` sorts the samples a block prints, and takes `np.std` of
them. -/
theorem npStd_of_block {npStd : List Int → Int}
    (hnp : ∀ data, NearMean data → npStd data = exactStd data)
    (hne : pts ≠ []) (hnear : ∀ x ∈ pts, x.toNat ≤ (meanOf pts).toNat + 65535
      ∧ (meanOf pts).toNat ≤ x.toNat + 65535) (b : Block) (hpts : b.kept = pts) :
    ∃ agg data, aggData b.text = .ok agg ∧ agg.get b.node.name = some data
      ∧ ∀ sorted, sorted.Perm data → npStd sorted = exactStd (samples pts) := by
  obtain ⟨agg, hagg, hget⟩ := aggData_text b
  refine ⟨agg, b.samples, hagg, hget, ?_⟩
  intro sorted hperm
  have hdata : b.samples = samples pts := by
    unfold Block.samples
    rw [hpts]
    rfl
  rw [hdata] at hperm
  rw [← exactStd_perm hperm]
  exact hnp _ (nearMean_of_perm hne hperm hnear)

/-! ## §4. The whole. -/

/-- `Std-Dev` is the exact deviation of the points kept, no term wraps, and
`postprocess.py` recomputes it from the output of the run. -/
structure ExactStdDev (npStd : List Int → Int) (sum : Summary) (kept : List UInt32) : Prop where
  exact : (sum.stdDev.toNat : Int) = exactStd (samples kept)
  noWrap : ∀ x ∈ kept, ((squaredDeviation sum.mean x).toNat : Int)
    = ((x.toNat : Int) - sum.mean.toNat) ^ 2
  recomputed : ∀ b : Block, b.mean = sum.mean → b.stdDev = sum.stdDev → b.kept = sum.dataPts →
    b.text = b.node.tag ++ printConfiguration b.config ++ sum.text
    ∧ ∃ agg data, aggData b.text = .ok agg ∧ agg.get b.node.name = some data
      ∧ ∀ sorted, sorted.Perm data → npStd sorted = sum.stdDev.toNat

/-- **When `Std-Dev` is the standard deviation**: no sample is further than
65535 microseconds from the floor mean. -/
theorem stdDev_exact_iff (npStd : List Int → Int)
    (hnp : ∀ data, NearMean data → npStd data = exactStd data)
    (maxIter dropRatio : UInt32) (ys : List UInt32) (sum : Summary)
    (hlen : ys.length = maxIter.toNat) (hsum : summaryStats maxIter dropRatio ys = .ok sum)
    (kept : List UInt32) (hkept : kept = middle (dropIdx dropRatio maxIter).toNat ys) :
    ExactStdDev npStd sum kept
      ↔ ∀ x ∈ kept, kept.length * x.toNat ≤ total kept + kept.length * 65535
        ∧ total kept < kept.length * (x.toNat + 65536) := by
  have htrims := trims_of_ok hlen hsum
  -- a run that comes through has kept a point
  have hne : kept ≠ [] := by
    have hkeeps := htrims.keeps
    intro hnil
    have hlength := middle_length (d := (dropIdx dropRatio maxIter).toNat) (l := ys) (by omega)
    rw [← hkept, hnil, List.length_nil] at hlength
    omega
  rw [summaryStats_eq htrims hlen, ← hkept] at hsum
  cases hsum
  constructor
  · intro h x hx
    rw [← within_iff hne, ← squaredDeviation_exact_iff]
    exact h.noWrap x hx
  · intro h
    have hnear : ∀ x ∈ kept, x.toNat ≤ (meanOf kept).toNat + 65535
        ∧ (meanOf kept).toNat ≤ x.toNat + 65535 := by
      intro x hx
      rw [within_iff hne]
      exact h x hx
    have hnoWrap : ∀ x ∈ kept, ((squaredDeviation (meanOf kept) x).toNat : Int)
        = ((x.toNat : Int) - (meanOf kept).toNat) ^ 2 := by
      intro x hx
      rw [squaredDeviation_exact_iff]
      exact hnear x hx
    have hexact := stdDev_eq_exactStd hnoWrap
    refine ⟨hexact, hnoWrap, ?_⟩
    intro b hmean hstd hpts
    constructor
    · unfold Block.text Summary.text
      rw [hmean, hstd, hpts]
    · rw [hexact]
      exact npStd_of_block hnp hne hnear b hpts

/-- Three samples 10 microseconds apart. -/
theorem stdDev_exact_iff_three :
    ExactStdDev exactStd (summaryOf [10, 20, 30]) [10, 20, 30] := by
  have hsum : summaryStats 3 0 [10, 20, 30] = .ok (summaryOf [10, 20, 30]) :=
    summaryStats_eq (trims_iff.mpr (by decide)) rfl
  apply (stdDev_exact_iff exactStd (fun _ _ => rfl) 3 0 [10, 20, 30] _ rfl hsum
    [10, 20, 30] (by decide)).mpr
  simp [total]

/-- Four samples 100 milliseconds from their mean: the deviation printed is
37550, not 100000. -/
theorem stdDev_wraps_at_100000 :
    summaryStats 4 0 [0, 0, 200000, 200000] = .ok ⟨100000, 37550, [0, 0, 200000, 200000]⟩
    ∧ exactStd (samples [0, 0, 200000, 200000]) = 100000
    ∧ ∀ npStd, ¬ ExactStdDev npStd ⟨100000, 37550, [0, 0, 200000, 200000]⟩
        [0, 0, 200000, 200000] := by
  have hexact : exactStd (samples [0, 0, 200000, 200000]) = 100000 := by
    show ((10000000000 : Nat).sqrt : Int) = 100000
    rw [show (10000000000 : Nat).sqrt = 100000 from (Nat.eq_sqrt.mpr (by decide)).symm]
    rfl
  refine ⟨?_, hexact, ?_⟩
  · rw [summaryStats_eq (trims_iff.mpr (by decide)) rfl]
    show Except.ok (Summary.mk 100000 (UInt32.ofNat (1410065408 : Nat).sqrt) _) = _
    rw [show (1410065408 : Nat).sqrt = 37550 from (Nat.eq_sqrt.mpr (by decide)).symm]
    rfl
  · intro npStd h
    have hstd := h.exact
    rw [hexact] at hstd
    revert hstd
    decide

end MqttBenchmark.Stats
