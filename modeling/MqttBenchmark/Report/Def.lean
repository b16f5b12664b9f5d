/-
  MqttBenchmark.Report.Def
  ────────────────────────
  **WHAT ONE RUN PRINTS, AND HOW `postprocess.py` READS IT.**

    • `printConfiguration` — the block `parse_args` prints,
    • `printSummary` — the block `summary_stats` prints,
    • `aggData` — the dictionary `extract_results` builds from a log.

  The statistics over that dictionary (`KMeans`, percentiles) are not
  modelled here.
-/
import MqttBenchmark.Lib.Text
import MqttBenchmark.Lib.OrderedDict
import Mathlib.Tactic.Linarith

namespace MqttBenchmark.Report

open Lib

/-! ## §1. `mqtt.c`: the output of a run. -/

/-- `%d` of a `uint32_t`. -/
def printD (x : UInt32) : Text := Text.formatInt x.toInt32.toInt

/-- Below `2 ^ 31` it is the number itself. -/
theorem toInt32_of_lt {x : UInt32} (h : x.toNat < 2 ^ 31) : x.toInt32.toInt = x.toNat := by
  show x.toBitVec.toInt = _
  rw [BitVec.toInt_eq_toNat_of_lt (by rw [UInt32.toNat_toBitVec]; omega), UInt32.toNat_toBitVec]

/-- `%u` of a `uint32_t`. -/
def printU (x : UInt32) : Text := Text.formatInt x.toNat

/-- The values `parse_args` prints. -/
structure Configuration where
  broker : Text
  clientId : Text
  pubarg : Text
  subarg : Text
  msgInterval : UInt32
  maxIter : UInt32
  payloadSize : UInt32
  qos : UInt32
  dropRatio : UInt32
  logEnable : UInt32

/-- `printf("<label>%s\n", value)`, with the value already formatted. -/
def printLine (label : String) (value : Text) : Text := label.toList ++ value ++ ['\n']

/-- The `printf` calls at the end of `parse_args`. -/
def printConfiguration (c : Configuration) : Text :=
  printLine "----- Configuration -----" []
  ++ printLine "  Broker        : " c.broker
  ++ printLine "  Client        : " c.clientId
  ++ printLine "  Pubtopics     : " c.pubarg
  ++ printLine "  Subtopics     : " c.subarg
  ++ printLine "  Msg Interval  : " (printD c.msgInterval)
  ++ printLine "  Iterations    : " (printD c.maxIter)
  ++ printLine "  Msg Size      : " (printD c.payloadSize)
  ++ printLine "  QOS           : " (printD c.qos)
  ++ printLine "  Drop          : " (printD c.dropRatio)
  ++ printLine "  Log           : " (printD c.logEnable)
  ++ printLine "-------------------------" []

/-- The `printf` calls of `summary_stats`, for the samples it keeps. -/
def printSummary (mean stdDev : UInt32) (kept : List UInt32) : Text :=
  ['\n'] ++ printLine "-- SUMMARY STATS --" []
  ++ printLine "Mean-RTT: " (printU mean)
  ++ printLine "Std-Dev: " (printU stdDev)
  ++ "Data Pts: ".toList
  ++ kept.flatMap (fun x => printD x ++ [','])
  ++ ['\n']
  ++ printLine "-------------------" [] ++ ['\n']

/-! ## §2. `postprocess.py`: the reader. -/

/-- The exceptions `extract_results` can raise while it collects. -/
inductive PyError where
  /-- `lines[i+offset]` beyond the log. -/
  | indexError
  /-- `data_m.group` when the line has no data. -/
  | attributeError
  /-- A field that is no integer. -/
  | valueError
  /-- An integer beyond 64 bits. -/
  | overflowError
  deriving DecidableEq, Repr

/-- `offset = 16` -/
def offset : Nat := 16

/-- `re.compile(r"\[(hc-\d+)\]").match(line)`, group 1. -/
def matchTag (line : Text) : Option Text :=
  match line with
  | '[' :: 'h' :: 'c' :: '-' :: cs =>
      let digits := cs.takeWhile Text.isDigit
      if digits ≠ [] ∧ (cs.dropWhile Text.isDigit).head? = some ']' then
        some ('h' :: 'c' :: '-' :: digits)
      else none
  | _ => none

/-- `np.array(fields).astype(int)` of one field. -/
def astypeInt (field : Text) : Except PyError Int :=
  match Text.parseInt field with
  | none => .error .valueError
  | some z => if -2 ^ 63 ≤ z ∧ z < 2 ^ 63 then .ok z else .error .overflowError

/-- An integer as a double, rounded to nearest, ties to even: `agg_data` is an
array of doubles because `np.array([])` is one. -/
def toDouble (z : Int) : Int :=
  let a := z.natAbs
  let e := a.log2 - 52
  let q := a / 2 ^ e
  let r := a % 2 ^ e
  let m := if 2 * r < 2 ^ e ∨ (2 * r = 2 ^ e ∧ q % 2 = 0) then q else q + 1
  z.sign * (m * 2 ^ e : Nat)

/-- The samples of a data line. -/
def dataNode (dataLine : Text) : Except PyError (List Int) :=
  match Text.afterFirst "Data Pts: ".toList dataLine with
  | none => .error .attributeError
  | some group => ((group.splitOn ',').dropLast).mapM astypeInt

/-- The loop over `enumerate(lines)`, from a line on: `lines[i+offset]` is
found in what is left of the log. -/
def aggDataFrom : List Text → OrderedDict Text (List Int) → Except PyError (OrderedDict Text (List Int))
  | [], agg => .ok agg
  | line :: lines, agg =>
      match matchTag line with
      | none => aggDataFrom lines agg
      | some node =>
          match (line :: lines)[offset]? with
          | none => .error .indexError
          | some dataLine => do
              let data ← dataNode dataLine
              aggDataFrom lines (agg.extend node (data.map toDouble))

/-- `agg_data` after the loop of `extract_results`. -/
def aggData (logStr : Text) : Except PyError (OrderedDict Text (List Int)) :=
  aggDataFrom (Text.splitlines logStr) OrderedDict.empty

end MqttBenchmark.Report
