/-
  MqttBenchmark.Args.Def
  ──────────────────────
  **`parse_args`.**

  The loop over `getopt_long` writes the globals one option after the other;
  `parse_topic_list` appends the tokens of one argument to `PUBS` or `SUBS`.

    • `longOptions`, `optstring` — the tables of `mqtt.c`,
    • `parseTopicList` — `strdup`, `strtok` and the counter,
    • `parseCall` — the `switch`,
    • `parseArgs` — the whole function, up to its output.

  MODELLING CHOICES.  `strdup` finds memory, and a string written by
  `parse_args` is never freed.  The elements of `argv` do not overlap.
  `POSIXLY_CORRECT` is not set.  `atoi` is `(int) strtol(s, NULL, 10)` with a
  64-bit `long`.
-/
import MqttBenchmark.Config
import MqttBenchmark.Lib.Getopt

namespace MqttBenchmark.Args

open Lib

/-! ## §1. The tables. -/

/-- The bytes of an ASCII text. -/
def ascii (s : String) : Bytes := s.toList.map fun c => UInt8.ofNat c.toNat

/-- `--pub` -/
def pubOption : LongOption := ⟨⟨ascii "pub", by decide⟩, .optional, 'u'⟩

/-- `--sub` -/
def subOption : LongOption := ⟨⟨ascii "sub", by decide⟩, .optional, 't'⟩

/-- `long_options`: eleven entries, and none of zeros behind them. -/
def longOptions : List LongOption :=
  [⟨⟨ascii "broker", by decide⟩, .optional, 'b'⟩,
    ⟨⟨ascii "name", by decide⟩, .optional, 'n'⟩,
    ⟨⟨ascii "interval", by decide⟩, .optional, 'm'⟩,
    ⟨⟨ascii "iterations", by decide⟩, .optional, 'i'⟩,
    ⟨⟨ascii "qos", by decide⟩, .optional, 'q'⟩,
    ⟨⟨ascii "size", by decide⟩, .optional, 's'⟩,
    pubOption,
    subOption,
    ⟨⟨ascii "drop-ratio", by decide⟩, .optional, 'd'⟩,
    ⟨⟨ascii "log", by decide⟩, .no, 'v'⟩,
    ⟨⟨ascii "help", by decide⟩, .no, 'h'⟩]

def optstring : List Char := "b:n:m:i:q:s:d:t:vh".toList

/-! ## §2. Numbers. -/

/-- `isspace` in the C locale. -/
def isSpace (b : UInt8) : Bool := b = 32 ∨ 9 ≤ b ∧ b ≤ 13

def isDigit (b : UInt8) : Bool := 48 ≤ b ∧ b ≤ 57

/-- The digits at the start. -/
def digits (s : Bytes) : Nat :=
  (s.takeWhile isDigit).foldl (fun n b => 10 * n + (b.toNat - 48)) 0

/-- `strtol(s, NULL, 10)` -/
def strtol (s : CString) : Int :=
  let n : Int :=
    match s.bytes.dropWhile isSpace with
    | 45 :: bs => -(digits bs : Int)
    | 43 :: bs => digits bs
    | bs => digits bs
  max (-2 ^ 63) (min n (2 ^ 63 - 1))

/-- `atoi(s)`, stored in a `uint32_t`. -/
def atoi (s : CString) : UInt32 := UInt32.ofBitVec (BitVec.ofInt 32 (strtol s))

/-! ## §3. Topic lists. -/

/-- `MAX_TOPICS` -/
def maxTopics : Nat := 1000

/-- What `parse_args` may do that is undefined. -/
inductive Fault where
  /-- `strdup(NULL)`, `atoi(NULL)` or `parse_topic_list(.., NULL)`. -/
  | nullOptarg
  /-- A store behind the last cell of `PUBS` or `SUBS`. -/
  | topicOverflow
  /-- `long_options` read behind its last entry. -/
  | tableOverrun
  /-- `strtok` or `strdup` reading outside of a string. -/
  | overread
  deriving DecidableEq, Repr

/-- `PUBS` with `NUM_PUBS`, or `SUBS` with `NUM_SUBS`. -/
structure Topics where
  buf : List (Option CString)
  ct : Nat

def Topics.empty : Topics := ⟨List.replicate maxTopics none, 0⟩

/-- `","` -/
def comma : UInt8 := 44

/-- The `while` loop of `parse_topic_list`, from a call of `strtok` on. -/
def storeTopics (st : Strtok) (topics : Topics) : Except Fault Topics :=
  match _h : strtok [comma] st with
  | none => .error .overread
  | some (none, _) => .ok topics
  | some (some token, st') =>
      match strdup st'.memory token with
      | none => .error .overread
      | some s =>
          if topics.ct < topics.buf.length then
            storeTopics st' ⟨topics.buf.set topics.ct (some s), topics.ct + 1⟩
          else .error .topicOverflow
termination_by st.memory.length - st.save
decreasing_by
  have hnext := strtok_advances _h
  omega

/-- `parse_topic_list(buf, ct, arg)`: the string it returns, and the list. -/
def parseTopicList (topics : Topics) (arg : CString) : Except Fault (CString × Topics) :=
  match strdup arg.toMemory 0 with
  | none => .error .overread
  | some fullStr =>
      -- the first call gets `arg`, the others go on behind the last token
      match storeTopics ⟨arg.toMemory, 0⟩ topics with
      | .error f => .error f
      | .ok topics => .ok (fullStr, topics)

/-! ## §4. `parse_args`. -/

/-- `"localhost:1883"`, the default `BROKER`. -/
def localhost : CString :=
  ⟨[108, 111, 99, 97, 108, 104, 111, 115, 116, 58, 49, 56, 56, 51], by decide⟩

/-- `""` -/
def emptyString : CString := ⟨[], by decide⟩

/-- The globals, and the two strings for the output. -/
structure Globals where
  broker : CString
  clientId : CString
  pubs : Topics
  subs : Topics
  msgInterval : UInt32
  maxIter : UInt32
  payloadSize : UInt32
  qos : UInt32
  dropRatio : UInt32
  logEnable : Bool
  pubarg : CString
  subarg : CString

def Globals.initial : Globals where
  broker := localhost
  clientId := testClient
  pubs := .empty
  subs := .empty
  msgInterval := 10 * 1000
  maxIter := 20
  payloadSize := 64
  qos := 1
  dropRatio := 0
  logEnable := false
  pubarg := emptyString
  subarg := emptyString

/-- Why the loop ends early. -/
inductive Stop where
  /-- `exit(0)` after the usage. -/
  | usage
  | fault (f : Fault)
  deriving DecidableEq, Repr

/-- A use of `optarg` as a string. -/
def deref (optarg : Option CString) : Except Stop CString :=
  match optarg with
  | none => .error (.fault .nullOptarg)
  | some s => .ok s

/-- `parse_topic_list` in the `switch`. -/
def topicList (topics : Topics) (optarg : Option CString) : Except Stop (CString × Topics) :=
  match deref optarg with
  | .error stop => .error stop
  | .ok arg => (parseTopicList topics arg).mapError .fault

/-- The body of the loop, for what `getopt_long` returned. -/
def parseCall (g : Globals) (call : Call) : Except Stop Globals :=
  match call with
  | .overrun => .error (.fault .tableOverrun)
  | .bad => .error .usage
  | .option opt optarg =>
      match opt with
      | 'b' => do return { g with broker := ← deref optarg }
      | 'n' => do return { g with clientId := ← deref optarg }
      | 'm' => do return { g with msgInterval := atoi (← deref optarg) }
      | 'i' => do return { g with maxIter := atoi (← deref optarg) }
      | 'q' => do return { g with qos := atoi (← deref optarg) }
      | 's' => do return { g with payloadSize := atoi (← deref optarg) }
      | 'd' => do return { g with dropRatio := atoi (← deref optarg) }
      | 'u' => do
          let r ← topicList g.pubs optarg
          return { g with pubarg := r.1, pubs := r.2 }
      | 't' => do
          let r ← topicList g.subs optarg
          return { g with subarg := r.1, subs := r.2 }
      | 'v' => .ok { g with logEnable := true }
      | _ => .error .usage

/-- How `parse_args` ends. -/
inductive Parsed where
  | usage
  /-- `exit(0)` without a topic. -/
  | noTopics
  | returned (g : Globals)
  | fault (f : Fault)

/-- The calls of `getopt_long` for an `argv`. -/
def calls (argv : List CString) : List Call := Getopt.getoptLong optstring longOptions (argv.drop 1)

/-- `PUBS[0]` -/
def Topics.first (topics : Topics) : Option CString := topics.buf.head?.join

/-- `parse_args(argc, argv)` -/
def parseArgs (argv : List CString) : Parsed :=
  match (calls argv).foldlM parseCall Globals.initial with
  | .error .usage => .usage
  | .error (.fault f) => .fault f
  | .ok g => if g.pubs.first = none ∧ g.subs.first = none then .noTopics else .returned g

end MqttBenchmark.Args
