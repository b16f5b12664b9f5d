/-
  MqttBenchmark.Batch.Def
  ───────────────────────
  **`run_benchmark.py`: A BENCHMARK FOR EVERY TRIPLE OF A BATCH.**

  The main loop runs one benchmark for every triple of iterations, interval
  and size, and writes its log and its results to two files named after it.

    • `genArgs` — the arguments, with those of the batch file in their place,
    • `fbasename` — the name of the files of a triple,
    • `mainLoop` — the loop over the product, with the files it writes.

  MODELLING CHOICES.  What a benchmark prints and how its results are laid out
  are parameters: `World`.  A file is what was written to its name last.
-/
import MqttBenchmark.Report.Def
import Mathlib.Logic.Function.Basic

namespace MqttBenchmark.Batch

open Lib

/-! ## §1. The arguments. -/

/-- `SCRIPTS`. -/
inductive Benchmark where
  | rttIsolated
  | rttNointerference
  | rttFullinterference
  | oneToOneIsolated
  | fanIn
  | fanOut
  deriving DecidableEq, Repr

def Benchmark.name : Benchmark → Text
  | .rttIsolated => "rtt_isolated".toList
  | .rttNointerference => "rtt_nointerference".toList
  | .rttFullinterference => "rtt_fullinterference".toList
  | .oneToOneIsolated => "one_to_one_isolated".toList
  | .fanIn => "fan_in".toList
  | .fanOut => "fan_out".toList

/-- The command line. -/
structure Cli where
  benchmark : Benchmark
  iterations : Int
  interval : Int
  size : Int
  qos : Int
  dropRatio : Int
  log : Bool

/-- The batch file: the lists it gives. -/
structure BatchInfo where
  iterations : Option (List Int)
  interval : Option (List Int)
  size : Option (List Int)

/-- The configuration file. -/
structure ConfigInfo where
  broker : Text
  domain : Text
  mqttPort : Int
  logDir : Text
  outDir : Text

structure Args where
  benchmark : Benchmark
  iterations : List Int
  interval : List Int
  size : List Int
  qos : Int
  dropRatio : Int
  log : Text
  brokerAddr : Text
  mqttPort : Int
  logDir : Text
  outDir : Text

/-- `gen_args`: an argument has one value, or those of the batch file. -/
def genArgs (cli : Cli) (batchInfo : Option BatchInfo) (config : ConfigInfo) : Args where
  benchmark := cli.benchmark
  iterations := (batchInfo.bind BatchInfo.iterations).getD [cli.iterations]
  interval := (batchInfo.bind BatchInfo.interval).getD [cli.interval]
  size := (batchInfo.bind BatchInfo.size).getD [cli.size]
  qos := cli.qos
  dropRatio := cli.dropRatio
  log := if cli.log then "--log".toList else []
  brokerAddr := config.broker ++ config.domain
  mqttPort := config.mqttPort
  logDir := config.logDir
  outDir := config.outDir

/-! ## §2. The main loop. -/

/-- One round of the loop. -/
structure Triple where
  iterations : Int
  interval : Int
  size : Int
  deriving DecidableEq, Repr

/-- `product(args.iterations, args.interval, args.size)`. -/
def product (args : Args) : List Triple :=
  args.iterations.flatMap fun iterations =>
    args.interval.flatMap fun interval =>
      args.size.map fun size => ⟨iterations, interval, size⟩

/-- `script_fmt`. -/
def scriptFmt (args : Args) (t : Triple) : Text :=
  "./benchmark --broker=".toList ++ args.brokerAddr ++ ":".toList ++ Text.formatInt args.mqttPort
  ++ " --name=\\`hostname\\` --interval=".toList ++ Text.formatInt t.interval
  ++ " --iterations=".toList ++ Text.formatInt t.iterations
  ++ " --size=".toList ++ Text.formatInt t.size
  ++ " --pub=\x7bpub\x7d --sub=\x7bsub\x7d --qos=".toList ++ Text.formatInt args.qos
  ++ " --drop-ratio=".toList ++ Text.formatInt args.dropRatio ++ " ".toList ++ args.log

/-- `fbasename`. -/
def fbasename (args : Args) (t : Triple) : Text :=
  args.benchmark.name ++ "_m".toList ++ Text.formatInt t.interval
  ++ "_s".toList ++ Text.formatInt t.size

/-- A directory and a name in it. -/
abbrev Path := Text × Text

/-- The contents of the files there are. -/
abbrev Files := Path → Option Text

def logfile (args : Args) (t : Triple) : Path := (args.logDir, fbasename args t ++ ".log".toList)

def outfile (args : Args) (t : Triple) : Path := (args.outDir, fbasename args t ++ ".out".toList)

/-- What the loop calls and this repository or this model does not contain;
`none` is an exception. -/
structure World where
  /-- `args._bench_main(args, script_fmt)`, in the n-th round of the loop. -/
  benchMain : Nat → Text → Option Text
  /-- The statistics over `agg_data`, as `pt.table` renders them. -/
  table : OrderedDict Text (List Int) → Option Text

/-- `results_out`. -/
def resultsOut (W : World) (logOut : Text) : Option Text :=
  match Report.aggData logOut with
  | .ok agg => W.table agg
  | .error _ => none

/-- `open(path, "w")` and `write`. -/
def write (fs : Files) (path : Path) (content : Text) : Files :=
  Function.update fs path (some content)

/-- The files after the rounds from the n-th on. -/
def mainLoopFrom (W : World) (args : Args) : Nat → List Triple → Files → Option Files
  | _, [], fs => some fs
  | n, t :: ts, fs => do
      let logOut ← W.benchMain n (scriptFmt args t)
      -- the log is on disk before the results are computed
      let fs := write fs (logfile args t) logOut
      let out ← resultsOut W logOut
      let fs := write fs (outfile args t) (out ++ ['\n'])
      mainLoopFrom W args (n + 1) ts fs

/-- **The main loop.** -/
def mainLoop (W : World) (args : Args) (fs : Files) : Option Files :=
  mainLoopFrom W args 0 (product args) fs

end MqttBenchmark.Batch
