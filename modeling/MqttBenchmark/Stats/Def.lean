/-
  MqttBenchmark.Stats.Def
  ───────────────────────
  **`summary_stats`: SORT, TRIM, AVERAGE AND PRINT.**

  The function as `mqtt.c` computes it, in its own widths: indices and the
  trim are 32-bit and wrap, two loops count in an `int` and one in a
  `uint32_t`, sums are 64-bit.

    • `cmpfunc` — the comparator `qsort` is called with,
    • `dropIdx` — `DROP_IDX(MAX_ITER)`,
    • `meanLoop`, `squaresLoop`, `printLoop` — the three loops,
    • `summaryStats` — what is printed, or the fault that stops it.

  MODELLING CHOICES.  A fault is an operation C leaves undefined.  `qsort` has
  run before: `rttTs` is what it left (`Comparator.QsortResult cmpfunc`).
  `sqrt` and the cast of its result are taken as the exact floor root.
-/
import MqttBenchmark.Lib.Loop
import MqttBenchmark.Lib.Qsort
import MqttBenchmark.Report.Def
import Mathlib.Data.Nat.Sqrt

namespace MqttBenchmark.Stats

open Lib

/-! ## §1. The comparator. -/

/-- A `uint32_t` read as an `int`. -/
def asInt (x : UInt32) : Int := x.toInt32.toInt

/-- `*(int*)a - *(int*)b`; no value when the difference leaves `int`. -/
def cmpfunc : Comparator UInt32 := fun a b =>
  let d := asInt a - asInt b
  if -2147483648 ≤ d ∧ d ≤ 2147483647 then some d else none

/-! ## §2. The loops. -/

/-- What C leaves undefined. -/
inductive Fault where
  /-- A read outside the array. -/
  | outOfBounds
  /-- `i++` beyond `INT_MAX`. -/
  | intOverflow
  | divByZero
  deriving DecidableEq, Repr

/-- `DROP_IDX(x)`: the product is 32-bit. -/
def dropIdx (dropRatio x : UInt32) : UInt32 := x * dropRatio / 100

/-- `rtt_ts[i]` for a `uint32_t i`. -/
def readAt (rttTs : List UInt32) (i : UInt32) : Except Fault UInt32 :=
  match rttTs[i.toNat]? with
  | some x => .ok x
  | none => .error .outOfBounds

/-- `rtt_ts[i]` and then `i++`, for an `int i` with these bits. -/
def readAtInt (rttTs : List UInt32) (i : UInt32) : Except Fault UInt32 :=
  if asInt i < 0 then .error .outOfBounds
  else do
    let x ← readAt rttTs i
    -- the increment is evaluated after the body
    if asInt i = 2147483647 then .error .intOverflow else .ok x

/-- The first loop: `acc` and `ct`. -/
def meanLoop (rttTs : List UInt32) (idx bound : UInt32) : Except Fault (UInt64 × UInt32) :=
  forLoop bound (fun i s => do
    let x ← readAtInt rttTs i
    .ok (s.1 + x.toUInt64, s.2 + 1)) idx (0, 0)

/-- One term of the second loop: a 32-bit product. -/
def squaredDeviation (mean x : UInt32) : UInt32 := (x - mean) * (x - mean)

/-- The second loop: `acc`. -/
def squaresLoop (rttTs : List UInt32) (mean idx bound : UInt32) : Except Fault UInt64 :=
  forLoop bound (fun i acc => do
    let x ← readAtInt rttTs i
    .ok (acc + (squaredDeviation mean x).toUInt64)) idx 0

/-- The third loop: the data points printed. -/
def printLoop (rttTs : List UInt32) (idx bound : UInt32) : Except Fault (List UInt32) :=
  forLoop bound (fun i pts => do
    let x ← readAt rttTs i
    .ok (pts ++ [x])) idx []

/-- `acc / ct`. -/
def divide (acc : UInt64) (ct : UInt32) : Except Fault UInt64 :=
  if ct = 0 then .error .divByZero else .ok (acc / ct.toUInt64)

/-! ## §3. The function. -/

/-- What `summary_stats` prints. -/
structure Summary where
  mean : UInt32
  stdDev : UInt32
  dataPts : List UInt32
  deriving DecidableEq, Repr

/-- The text of it. -/
def Summary.text (s : Summary) : Text := Report.printSummary s.mean s.stdDev s.dataPts

/-- `summary_stats` on the array `qsort` left. -/
def summaryStats (maxIter dropRatio : UInt32) (rttTs : List UInt32) : Except Fault Summary := do
  let idx := dropIdx dropRatio maxIter
  let (acc, ct) ← meanLoop rttTs idx (maxIter - idx)
  -- an empty first loop leaves `ct` at 0
  let mean ← divide acc ct
  let mean := mean.toUInt32
  let acc ← squaresLoop rttTs mean idx (maxIter - idx)
  let var ← divide acc ct
  let stdDev := UInt32.ofNat var.toNat.sqrt
  let dataPts ← printLoop rttTs idx (maxIter - idx)
  .ok { mean := mean, stdDev := stdDev, dataPts := dataPts }

end MqttBenchmark.Stats
