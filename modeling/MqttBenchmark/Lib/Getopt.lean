/-
  MqttBenchmark.Lib.Getopt
  ────────────────────────
  **`getopt_long`, AS THE SEQUENCE OF WHAT ITS CALLS RETURN.**

  Arguments that are no options are passed over wherever they stand, `--`
  ends the options, short options may share an element, and an option that
  requires an argument takes the rest of its element or the next one.

  The table of long options is searched for the exact name.  A name that is
  not in it is an `overrun`: without a last entry of zeros the search, and
  the one for an abbreviation, has no end.

    • `element` — the calls one element of `argv` answers,
    • `getoptLong` — all calls,
    • `getoptLong_longs` — long options with arguments, one after the other.
-/
import MqttBenchmark.Lib.Strtok

namespace MqttBenchmark.Lib

inductive HasArg where
  | no
  | required
  | optional
  deriving DecidableEq, Repr

/-- `struct option`, for an option that returns `val`. -/
structure LongOption where
  name : CString
  hasArg : HasArg
  val : Char

/-- What one call of `getopt_long` returns. -/
inductive Call where
  /-- The option, with `optarg`. -/
  | option (val : Char) (optarg : Option CString)
  /-- `'?'` -/
  | bad
  /-- The table is read behind its end. -/
  | overrun

namespace Getopt

/-! ## §1. Short options. -/

/-- How `optstring` declares a character; none when it does not. -/
def shortHasArg (optstring : List Char) (c : Char) : Option HasArg :=
  if c = ':' ∨ c = ';' then none
  else
    match optstring.dropWhile (· ≠ c) with
    | [] => none
    | _ :: ':' :: ':' :: _ => some .optional
    | _ :: ':' :: _ => some .required
    | _ => some .no

/-- The character of a byte. -/
def letter (b : UInt8) : Char := Char.ofNat b.toNat

/-- The calls for the characters of one element, and the option that still
needs the next element. -/
def shortCalls (optstring : List Char) : Bytes → List Call × Option Char
  | [] => ([], none)
  | b :: bs =>
      let c := letter b
      match shortHasArg optstring c with
      | none => (.bad :: (shortCalls optstring bs).1, (shortCalls optstring bs).2)
      | some .no => (.option c none :: (shortCalls optstring bs).1, (shortCalls optstring bs).2)
      | some .optional =>
          ([.option c (if bs = [] then none else some (CString.ofBytes bs))], none)
      | some .required =>
          if bs = [] then ([], some c) else ([.option c (some (CString.ofBytes bs))], none)

/-! ## §2. Long options. -/

/-- `=` -/
def equals : UInt8 := 61

/-- The call for what follows the two dashes. -/
def longCalls (longopts : List LongOption) (body : Bytes) : List Call × Option Char :=
  let name := body.takeWhile (· ≠ equals)
  let value :=
    if name.length < body.length then some (CString.ofBytes (body.drop (name.length + 1))) else none
  match longopts.find? (·.name.bytes = name) with
  | none => ([.overrun], none)
  | some o =>
      match o.hasArg, value with
      | .no, some _ => ([.bad], none)
      | .no, none => ([.option o.val none], none)
      | .optional, value => ([.option o.val value], none)
      | .required, some value => ([.option o.val (some value)], none)
      | .required, none => ([], some o.val)

/-! ## §3. All calls. -/

/-- `-` -/
def dash : UInt8 := 45

/-- The calls one element answers, and the option that still needs the next
element; none at `--`. -/
def element (optstring : List Char) (longopts : List LongOption) (arg : Bytes) :
    Option (List Call × Option Char) :=
  if arg.head? ≠ some dash ∨ arg.length = 1 then some ([], none)
  else if (arg.drop 1).head? = some dash then
    if arg.drop 2 = [] then none else some (longCalls longopts (arg.drop 2))
  else some (shortCalls optstring (arg.drop 1))

/-- The calls of `getopt_long` until it returns -1. -/
def getoptLong (optstring : List Char) (longopts : List LongOption) : List CString → List Call
  | [] => []
  | arg :: args =>
      match element optstring longopts arg.bytes with
      | none => []
      | some (calls, none) => calls ++ getoptLong optstring longopts args
      | some (calls, some val) =>
          match args with
          | [] => calls ++ [.bad]
          | next :: args => calls ++ .option val (some next) :: getoptLong optstring longopts args

/-! ## §4. Long options with an argument. -/

/-- `--name=value` -/
def longArg (o : LongOption) (value : CString) : CString where
  bytes := dash :: dash :: (o.name.bytes ++ equals :: value.bytes)
  nulFree := by
    have hdash : (0 : UInt8) ≠ dash := by decide
    have hequals : (0 : UInt8) ≠ equals := by decide
    simp [hdash, hequals, o.name.nulFree, value.nulFree]

/-- An option that is found under its name and may have an argument. -/
structure TakesArg (longopts : List LongOption) (o : LongOption) : Prop where
  find : longopts.find? (·.name.bytes = o.name.bytes) = some o
  hasArg : o.hasArg ≠ .no
  name : equals ∉ o.name.bytes

theorem element_longArg {optstring : List Char} {longopts : List LongOption} {o : LongOption}
    (ho : TakesArg longopts o) (value : CString) :
    element optstring longopts (longArg o value).bytes
      = some ([.option o.val (some value)], none) := by
  obtain ⟨hfind, hno, heq⟩ := ho
  have htake : (o.name.bytes ++ equals :: value.bytes).takeWhile (· ≠ equals) = o.name.bytes := by
    rw [List.takeWhile_append_of_pos (by simpa using fun b hb (h : b = equals) => heq (h ▸ hb)),
      List.takeWhile_cons_of_neg (by simp), List.append_nil]
  have hdrop : (o.name.bytes ++ equals :: value.bytes).drop (o.name.bytes.length + 1)
      = value.bytes := by
    rw [← List.drop_drop, List.drop_left]
    rfl
  have hvalue : CString.ofBytes value.bytes = value := CString.ofBytes_bytes value
  have hlong : longCalls longopts (o.name.bytes ++ equals :: value.bytes)
      = ([.option o.val (some value)], none) := by
    unfold longCalls
    simp only [htake, hfind, hdrop, hvalue]
    rw [if_pos (by simp)]
    cases harg : o.hasArg with
    | no => exact absurd harg hno
    | required => rfl
    | optional => rfl
  unfold element longArg
  simp [hlong]

/-- **Long options with arguments are returned in order**, arguments unchanged. -/
theorem getoptLong_longs {optstring : List Char} {longopts : List LongOption}
    {opts : List (LongOption × CString)} (h : ∀ p ∈ opts, TakesArg longopts p.1) :
    getoptLong optstring longopts (opts.map fun p => longArg p.1 p.2)
      = opts.map fun p => .option p.1.val (some p.2) := by
  induction opts with
  | nil => rfl
  | cons p opts ih =>
      rw [List.map_cons, getoptLong, element_longArg (h p List.mem_cons_self)]
      simp only [ih fun q hq => h q (List.mem_cons_of_mem _ hq), List.map_cons,
        List.singleton_append]

end Getopt

end MqttBenchmark.Lib
