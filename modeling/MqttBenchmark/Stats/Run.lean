/-
  MqttBenchmark.Stats.Run
  ───────────────────────
  **WHEN `summary_stats` RUNS THROUGH, AND WHAT IT PRINTS THEN.**

    • `Trims` — the trim leaves something and the counters stay in range,
    • `summaryStats_eq` — then the statistics are those of the middle of the
      array, with no overflow in either sum,
    • `trims_of_ok` — otherwise the function divides by zero, reads outside
      the array or overflows its counter.
-/
import MqttBenchmark.Stats.Def

namespace MqttBenchmark.Stats

open Lib

variable {maxIter dropRatio idx bound : UInt32} {rttTs : List UInt32}

/-! ## §1. The statistics of a list of points. -/

/-- The sum of the points. -/
def total (pts : List UInt32) : Nat := (pts.map UInt32.toNat).sum

/-- `Mean-RTT` of the points. -/
def meanOf (pts : List UInt32) : UInt32 := UInt32.ofNat (total pts / pts.length)

/-- The sum of the terms of the second loop. -/
def squaresTotal (mean : UInt32) (pts : List UInt32) : Nat :=
  total (pts.map (squaredDeviation mean))

/-- What is printed for the points. -/
def summaryOf (pts : List UInt32) : Summary where
  mean := meanOf pts
  stdDev := UInt32.ofNat (squaresTotal (meanOf pts) pts / pts.length).sqrt
  dataPts := pts

@[simp] theorem total_nil : total [] = 0 := rfl

@[simp] theorem total_cons (x : UInt32) (pts : List UInt32) :
    total (x :: pts) = x.toNat + total pts := by
  simp [total]

/-- Fewer than `2 ^ 32` points never overflow a 64-bit sum. -/
theorem total_le (pts : List UInt32) : total pts ≤ pts.length * (2 ^ 32 - 1) := by
  induction pts with
  | nil => exact Nat.le_refl 0
  | cons x pts ih =>
      have hx := x.toNat_lt
      rw [total_cons, List.length_cons, Nat.succ_mul]
      omega

theorem total_lt {pts : List UInt32} (h : pts.length < 2 ^ 32) : total pts < 2 ^ 64 := by
  have hle := total_le pts
  omega

/-- A quotient of a total by the number of points is below `2 ^ 32`. -/
theorem total_div_lt (pts : List UInt32) {n : Nat} (h : pts.length = n) :
    total pts / n < 2 ^ 32 := by
  subst h
  rcases Nat.eq_zero_or_pos pts.length with hzero | hpos
  · rw [hzero, Nat.div_zero]
    omega
  · rw [Nat.div_lt_iff_lt_mul hpos]
    have hle := total_le pts
    rw [Nat.mul_comm]
    omega

theorem meanOf_toNat (pts : List UInt32) : (meanOf pts).toNat = total pts / pts.length := by
  unfold meanOf
  exact UInt32.toNat_ofNat_of_lt' (total_div_lt pts rfl)

theorem length_squares (mean : UInt32) (pts : List UInt32) :
    (pts.map (squaredDeviation mean)).length = pts.length := List.length_map ..

theorem squaresTotal_lt (mean : UInt32) {pts : List UInt32} (h : pts.length < 2 ^ 32) :
    squaresTotal mean pts < 2 ^ 64 := by
  apply total_lt
  rw [length_squares]
  exact h

/-- The root of a 64-bit number fits 32 bits. -/
theorem sqrt_lt {n : Nat} (h : n < 2 ^ 64) : n.sqrt < 2 ^ 32 := by
  rw [Nat.sqrt_lt]
  omega

/-- The average of the squares fits 32 bits as well. -/
theorem squares_div_lt (mean : UInt32) (pts : List UInt32) :
    squaresTotal mean pts / pts.length < 2 ^ 32 :=
  total_div_lt (pts.map (squaredDeviation mean)) (length_squares mean pts)

theorem summaryOf_stdDev (pts : List UInt32) :
    (summaryOf pts).stdDev.toNat = (squaresTotal (meanOf pts) pts / pts.length).sqrt := by
  have hlt := squares_div_lt (meanOf pts) pts
  show (UInt32.ofNat _).toNat = _
  rw [UInt32.toNat_ofNat_of_lt']
  apply sqrt_lt
  omega

/-- `mean` is stored without loss. -/
theorem toUInt32_mean (pts : List UInt32) :
    (UInt64.ofNat (total pts / pts.length)).toUInt32 = meanOf pts := by
  have hlt := total_div_lt pts rfl
  apply UInt32.toNat.inj
  rw [meanOf_toNat, UInt64.toNat_toUInt32, UInt64.toNat_ofNat_of_lt']
  · exact Nat.mod_eq_of_lt hlt
  · show _ < 2 ^ 64
    omega

theorem toNat_squares_div (mean : UInt32) (pts : List UInt32) :
    (UInt64.ofNat (squaresTotal mean pts / pts.length)).toNat
      = squaresTotal mean pts / pts.length := by
  have hlt := squares_div_lt mean pts
  apply UInt64.toNat_ofNat_of_lt'
  show _ < 2 ^ 64
  omega

/-! ## §2. The loops. -/

theorem readAt_of_some {i x : UInt32} (h : rttTs[i.toNat]? = some x) : readAt rttTs i = .ok x := by
  unfold readAt
  rw [h]

theorem asInt_of_lt {i : UInt32} (h : i.toNat < 2 ^ 31) : asInt i = i.toNat :=
  Report.toInt32_of_lt h

theorem readAtInt_of_some {i x : UInt32} (hi : i.toNat < 2 ^ 31 - 1)
    (h : rttTs[i.toNat]? = some x) : readAtInt rttTs i = .ok x := by
  unfold readAtInt
  rw [asInt_of_lt (by omega), if_neg (by omega), readAt_of_some h]
  show (if _ then _ else _) = _
  rw [if_neg (by omega)]

theorem foldl_mean (pts : List UInt32) (s : UInt64 × UInt32) :
    pts.foldl (fun s x => (s.1 + x.toUInt64, s.2 + 1)) s
      = (s.1 + UInt64.ofNat (total pts), s.2 + UInt32.ofNat pts.length) := by
  induction pts generalizing s with
  | nil => simp
  | cons x pts ih =>
      rw [List.foldl_cons, ih]
      apply Prod.ext
      -- addition in 64 bits commutes with the reduction of the total
      · show s.1 + x.toUInt64 + UInt64.ofNat (total pts) = _
        rw [total_cons, UInt64.ofNat_add, UInt64.add_assoc, UInt64.ofNat_uInt32ToNat]
      · show s.2 + 1 + UInt32.ofNat pts.length = _
        rw [List.length_cons, Nat.add_comm, UInt32.ofNat_add, UInt32.add_assoc]
        congr 1

theorem foldl_squares (mean : UInt32) (pts : List UInt32) (acc : UInt64) :
    pts.foldl (fun acc x => acc + (squaredDeviation mean x).toUInt64) acc
      = acc + UInt64.ofNat (squaresTotal mean pts) := by
  induction pts generalizing acc with
  | nil => simp [squaresTotal]
  | cons x pts ih =>
      rw [List.foldl_cons, ih]
      show _ = acc + UInt64.ofNat (total (squaredDeviation mean x :: pts.map _))
      rw [total_cons, UInt64.ofNat_add, UInt64.add_assoc, UInt64.ofNat_uInt32ToNat]
      rfl

theorem foldl_print (pts : List UInt32) (out : List UInt32) :
    pts.foldl (fun out x => out ++ [x]) out = out ++ pts := by
  induction pts generalizing out with
  | nil => simp
  | cons x pts ih => rw [List.foldl_cons, ih, List.append_assoc, List.singleton_append]

section Loops

variable (hle : bound.toNat ≤ rttTs.length) (hidx : idx.toNat ≤ bound.toNat)

include hle hidx

theorem meanLoop_eq (hint : bound.toNat < 2 ^ 31) :
    meanLoop rttTs idx bound
      = .ok (UInt64.ofNat (total ((rttTs.drop idx.toNat).take (bound.toNat - idx.toNat))),
          UInt32.ofNat (bound.toNat - idx.toNat)) := by
  have hlen : ((rttTs.drop idx.toNat).take (bound.toNat - idx.toNat)).length
      = bound.toNat - idx.toNat := by
    rw [List.length_take, List.length_drop]
    omega
  unfold meanLoop
  rw [forLoop_ok (f := fun s x => (s.1 + x.toUInt64, s.2 + 1)) _ hle hidx, foldl_mean, hlen]
  · simp
  · intro j s x hj hx
    rw [readAtInt_of_some (by omega) hx]
    rfl

theorem squaresLoop_eq (mean : UInt32) (hint : bound.toNat < 2 ^ 31) :
    squaresLoop rttTs mean idx bound
      = .ok (UInt64.ofNat
          (squaresTotal mean ((rttTs.drop idx.toNat).take (bound.toNat - idx.toNat)))) := by
  unfold squaresLoop
  rw [forLoop_ok (f := fun acc x => acc + (squaredDeviation mean x).toUInt64) _ hle hidx,
    foldl_squares]
  · simp
  · intro j acc x hj hx
    rw [readAtInt_of_some (by omega) hx]
    rfl

theorem printLoop_eq :
    printLoop rttTs idx bound
      = .ok ((rttTs.drop idx.toNat).take (bound.toNat - idx.toNat)) := by
  unfold printLoop
  rw [forLoop_ok (f := fun out x => out ++ [x]) _ hle hidx, foldl_print, List.nil_append]
  intro j out x hj hx
  rw [readAt_of_some hx]
  rfl

end Loops

theorem divide_eq {acc : UInt64} {n : Nat} (hn : 0 < n) (hlt : n < 2 ^ 32) :
    divide acc (UInt32.ofNat n) = .ok (UInt64.ofNat (acc.toNat / n)) := by
  have htoNat : (UInt32.ofNat n).toNat = n := UInt32.toNat_ofNat_of_lt' (by simpa using hlt)
  have hne : UInt32.ofNat n ≠ 0 := by
    intro hzero
    have hz := congrArg UInt32.toNat hzero
    rw [htoNat] at hz
    simp at hz
    omega
  unfold divide
  rw [if_neg hne]
  congr 1
  apply UInt64.toNat.inj
  have hacc := acc.toNat_lt
  have hdiv := Nat.div_le_self acc.toNat n
  rw [UInt64.toNat_div, UInt32.toNat_toUInt64, htoNat, UInt64.toNat_ofNat_of_lt']
  show _ < 2 ^ 64
  omega

/-! ## §3. The whole function. -/

theorem dropIdx_toNat (dropRatio x : UInt32) :
    (dropIdx dropRatio x).toNat = x.toNat * dropRatio.toNat % 2 ^ 32 / 100 := by
  unfold dropIdx
  rw [UInt32.toNat_div, UInt32.toNat_mul]
  rfl

/-- The trim leaves at least one point, and the counters stay in range. -/
structure Trims (maxIter dropRatio : UInt32) : Prop where
  keeps : 2 * (dropIdx dropRatio maxIter).toNat < maxIter.toNat
  counts : maxIter.toNat - (dropIdx dropRatio maxIter).toNat < 2 ^ 31

theorem trims_iff : Trims maxIter dropRatio ↔
    2 * (maxIter.toNat * dropRatio.toNat % 2 ^ 32 / 100) < maxIter.toNat
      ∧ maxIter.toNat - maxIter.toNat * dropRatio.toNat % 2 ^ 32 / 100 < 2 ^ 31 := by
  constructor
  · intro h
    obtain ⟨hkeeps, hcounts⟩ := h
    rw [dropIdx_toNat] at hkeeps hcounts
    exact ⟨hkeeps, hcounts⟩
  · intro h
    obtain ⟨hkeeps, hcounts⟩ := h
    constructor
    · rw [dropIdx_toNat]
      exact hkeeps
    · rw [dropIdx_toNat]
      exact hcounts

theorem Trims.toNat_bound (h : Trims maxIter dropRatio) :
    (maxIter - dropIdx dropRatio maxIter).toNat
      = maxIter.toNat - (dropIdx dropRatio maxIter).toNat := by
  have hkeeps := h.keeps
  apply UInt32.toNat_sub_of_le
  rw [UInt32.le_iff_toNat_le]
  omega

/-- The slice the loops run over is the middle of the array. -/
theorem slice_eq_middle (h : Trims maxIter dropRatio) (hlen : rttTs.length = maxIter.toNat) :
    (rttTs.drop (dropIdx dropRatio maxIter).toNat).take
        ((maxIter - dropIdx dropRatio maxIter).toNat - (dropIdx dropRatio maxIter).toNat)
      = middle (dropIdx dropRatio maxIter).toNat rttTs := by
  have hbound := h.toNat_bound
  have hkeeps := h.keeps
  unfold middle
  congr 1
  omega

/-- **What `summary_stats` prints**: the statistics of the middle of the
array. -/
theorem summaryStats_eq (h : Trims maxIter dropRatio) (hlen : rttTs.length = maxIter.toNat) :
    summaryStats maxIter dropRatio rttTs
      = .ok (summaryOf (middle (dropIdx dropRatio maxIter).toNat rttTs)) := by
  have hbound := h.toNat_bound
  have hslice := slice_eq_middle h hlen
  obtain ⟨hkeeps, hcounts⟩ := h
  have hmax := maxIter.toNat_lt
  unfold summaryStats
  dsimp only
  generalize dropIdx dropRatio maxIter = idx at *
  generalize maxIter - idx = bound at *
  have hle : bound.toNat ≤ rttTs.length := by omega
  have hidx : idx.toNat ≤ bound.toNat := by omega
  have hpts := middle_length (d := idx.toNat) (l := rttTs) (by omega)
  -- the loops run over the middle of the array
  have hn : bound.toNat - idx.toNat = (middle idx.toNat rttTs).length := by omega
  have hmean := meanLoop_eq hle hidx (by omega)
  have hsquares := fun mean => squaresLoop_eq hle hidx mean (by omega)
  have hprint := printLoop_eq hle hidx
  rw [hslice] at hmean hprint
  simp only [hslice] at hsquares
  rw [hn] at hmean
  generalize middle idx.toNat rttTs = pts at *
  have hpos : 0 < pts.length := by omega
  have hlt : pts.length < 2 ^ 32 := by omega
  have hsum : (UInt64.ofNat (total pts)).toNat = total pts :=
    UInt64.toNat_ofNat_of_lt' (by simpa using total_lt hlt)
  have hsq : (UInt64.ofNat (squaresTotal (meanOf pts) pts)).toNat
      = squaresTotal (meanOf pts) pts :=
    UInt64.toNat_ofNat_of_lt' (squaresTotal_lt _ hlt)
  -- the loops and the divisions, one after the other
  rw [hmean]
  show (divide _ _ >>= _) = _
  rw [divide_eq hpos hlt, hsum]
  show (squaresLoop rttTs (UInt64.ofNat (total pts / pts.length)).toUInt32 idx bound >>= _) = _
  rw [toUInt32_mean, hsquares]
  show (divide _ _ >>= _) = _
  rw [divide_eq hpos hlt, hsq]
  show (printLoop rttTs idx bound >>= _) = _
  rw [hprint]
  show Except.ok _ = Except.ok _
  rw [toNat_squares_div]
  rfl

/-- The first loop of a run that goes through has read at every index, and has
not been empty. -/
theorem meanLoop_of_ok {sum : Summary} (h : summaryStats maxIter dropRatio rttTs = .ok sum) :
    ∃ acc ct, meanLoop rttTs (dropIdx dropRatio maxIter) (maxIter - dropIdx dropRatio maxIter)
      = .ok (acc, ct) ∧ ct ≠ 0 := by
  unfold summaryStats at h
  dsimp only at h
  cases hloop : meanLoop rttTs (dropIdx dropRatio maxIter) (maxIter - dropIdx dropRatio maxIter) with
  | error e =>
      rw [hloop] at h
      cases h
  | ok s =>
      obtain ⟨acc, ct⟩ := s
      refine ⟨acc, ct, rfl, ?_⟩
      intro hzero
      rw [hloop] at h
      change (divide acc ct >>= _) = _ at h
      unfold divide at h
      rw [if_pos hzero] at h
      cases h

/-- An index the first loop could use. -/
theorem lt_of_readAtInt {i x : UInt32} (h : readAtInt rttTs i = .ok x) :
    i.toNat < rttTs.length ∧ i.toNat < 2 ^ 31 - 1 := by
  unfold readAtInt at h
  split at h
  next => cases h
  next hneg =>
    have hlt : i.toNat < 2 ^ 31 := by
      -- the sign bit makes the index negative
      by_contra hge
      apply hneg
      have hi := i.toNat_lt
      show i.toBitVec.toInt < 0
      rw [BitVec.toInt_eq_toNat_cond, if_neg (by rw [UInt32.toNat_toBitVec]; omega),
        UInt32.toNat_toBitVec]
      omega
    cases hread : rttTs[i.toNat]? with
    | none =>
        unfold readAt at h
        rw [hread] at h
        cases h
    | some y =>
        refine ⟨(List.getElem?_eq_some_iff.mp hread).1, ?_⟩
        rw [readAt_of_some hread] at h
        change (if _ then _ else _) = _ at h
        split at h
        next => cases h
        next hne =>
          rw [asInt_of_lt hlt] at hne
          omega

/-- **Without room for the trim the function does not come through**: it
divides by zero, reads outside the array or overflows its counter. -/
theorem trims_of_ok {sum : Summary} (hlen : rttTs.length = maxIter.toNat)
    (h : summaryStats maxIter dropRatio rttTs = .ok sum) : Trims maxIter dropRatio := by
  obtain ⟨acc, ct, hloop, hct⟩ := meanLoop_of_ok h
  have hidxlt := (dropIdx dropRatio maxIter).toNat_lt
  have hmax := maxIter.toNat_lt
  have hbound : (maxIter - dropIdx dropRatio maxIter).toNat
      = (2 ^ 32 - (dropIdx dropRatio maxIter).toNat + maxIter.toNat) % 2 ^ 32 :=
    UInt32.toNat_sub ..
  have hboundlt := (maxIter - dropIdx dropRatio maxIter).toNat_lt
  -- every round of the first loop has read inside the array
  have hread : ∀ j : UInt32, (dropIdx dropRatio maxIter).toNat ≤ j.toNat →
      j.toNat < (maxIter - dropIdx dropRatio maxIter).toNat →
      j.toNat < rttTs.length ∧ j.toNat < 2 ^ 31 - 1 := by
    intro j hij hj
    unfold meanLoop at hloop
    obtain ⟨u, v, huv⟩ := body_of_forLoop hloop j hij hj
    cases hx : readAtInt rttTs j with
    | error e =>
        rw [hx] at huv
        cases huv
    | ok x => exact lt_of_readAtInt hx
  -- and there has been one
  have hne : (dropIdx dropRatio maxIter).toNat < (maxIter - dropIdx dropRatio maxIter).toNat := by
    by_contra hge
    unfold meanLoop at hloop
    rw [forLoop_of_le _ (by omega)] at hloop
    apply hct
    cases hloop
    rfl
  have hfirst := (hread _ (Nat.le_refl _) hne).1
  have hlast := hread (UInt32.ofNat ((maxIter - dropIdx dropRatio maxIter).toNat - 1))
  rw [UInt32.toNat_ofNat_of_lt' (by show _ < 2 ^ 32; omega)] at hlast
  have hlast := (hlast (by omega) (by omega)).2
  constructor
  · omega
  · omega

end MqttBenchmark.Stats
