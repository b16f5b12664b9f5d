/-
  MqttBenchmark.Lib.Text
  ──────────────────────
  **TEXT AS PYTHON'S `str` METHODS READ IT.**

  A text is a list of characters.

    • `splitlines` — every line break Python knows, `\r\n` as one,
    • `afterFirst` — what follows the first occurrence of a literal,
    • `digitValue`, `parseInt` — the decimal digits of every script, and
      `int(s)` with its blanks, sign and underscores.

  The rules say how these read a text that was printed: lines that were
  terminated one by one, fields that were, and decimal numbers.
-/
import Mathlib.Tactic.Common

namespace MqttBenchmark.Lib

abbrev Text := List Char

namespace Text

/-! ## §1. Lines. -/

/-- The characters `str.splitlines` breaks at. -/
def lineBreaks : List Char :=
  ['\n', '\r', '\x0b', '\x0c', '\x1c', '\x1d', '\x1e', '\u0085', '\u2028', '\u2029']

/-- A character that ends a line. -/
def isLineBreak (c : Char) : Bool := c ∈ lineBreaks

/-- `splitlines` with the line read so far. -/
def splitlinesFrom : Text → Text → List Text
  | line, [] => if line = [] then [] else [line]
  | line, '\r' :: '\n' :: cs => line :: splitlinesFrom [] cs
  | line, c :: cs =>
      if isLineBreak c then line :: splitlinesFrom [] cs else splitlinesFrom (line ++ [c]) cs

/-- `s.splitlines()`. -/
def splitlines (s : Text) : List Text := splitlinesFrom [] s

/-- A text without a line break. -/
def IsLine (s : Text) : Prop := ∀ c ∈ s, isLineBreak c = false

instance (s : Text) : Decidable (IsLine s) := List.decidableBAll (isLineBreak · = false) s

/-- A text is a line when each of its characters has a property no line
break has. -/
theorem isLine_of_forall {p : Char → Bool} (hp : lineBreaks.any p = false) {s : Text}
    (hs : ∀ c ∈ s, p c = true) : IsLine s := by
  intro c hc
  by_contra hne
  have hmem : c ∈ lineBreaks := by
    simpa only [isLineBreak, Bool.not_eq_false, decide_eq_true_eq] using hne
  exact List.any_eq_false.mp hp c hmem (hs c hc)

theorem IsLine.append {s t : Text} (hs : IsLine s) (ht : IsLine t) : IsLine (s ++ t) := by
  intro c hc
  rcases List.mem_append.mp hc with hc | hc
  · exact hs c hc
  · exact ht c hc

theorem splitlinesFrom_char {line cs : Text} {c : Char} (hc : isLineBreak c = false) :
    splitlinesFrom line (c :: cs) = splitlinesFrom (line ++ [c]) cs := by
  -- the pattern `\r\n` comes first in the definition and must be excluded
  have hr : c ≠ '\r' := by
    rintro rfl
    exact absurd hc (by decide)
  rw [splitlinesFrom.eq_def]
  split
  next heq => cases heq
  next heq =>
    injection heq with heq
    exact absurd heq hr
  next heq =>
    cases heq
    rw [hc]
    rfl

theorem splitlinesFrom_line {l : Text} (hl : IsLine l) (line cs : Text) :
    splitlinesFrom line (l ++ '\n' :: cs) = (line ++ l) :: splitlinesFrom [] cs := by
  induction l generalizing line with
  | nil =>
      rw [List.nil_append, List.append_nil, splitlinesFrom.eq_def]
      rfl
  | cons c l ih =>
      rw [List.cons_append, splitlinesFrom_char (hl c List.mem_cons_self),
        ih (fun d hd => hl d (List.mem_cons_of_mem _ hd)), List.append_assoc]
      rfl

/-- Lines, each terminated by a newline. -/
def unlines (ls : List Text) : Text := ls.flatMap (· ++ ['\n'])

@[simp] theorem unlines_nil : unlines [] = [] := rfl

@[simp] theorem unlines_cons (l : Text) (ls : List Text) :
    unlines (l :: ls) = l ++ '\n' :: unlines ls := by
  simp [unlines]

theorem unlines_append (ls ms : List Text) : unlines (ls ++ ms) = unlines ls ++ unlines ms := by
  simp [unlines]

/-- **Terminated lines are read back one by one**, and what follows them by
itself. -/
theorem splitlines_unlines_append {ls : List Text} (hls : ∀ l ∈ ls, IsLine l) (rest : Text) :
    splitlines (unlines ls ++ rest) = ls ++ splitlines rest := by
  unfold splitlines
  induction ls with
  -- the line read so far is empty at the start of every line
  | nil => rfl
  | cons l ls ih =>
      rw [unlines_cons, List.append_assoc, List.cons_append,
        splitlinesFrom_line (hls l List.mem_cons_self),
        ih (fun m hm => hls m (List.mem_cons_of_mem _ hm)), List.nil_append, List.cons_append]

theorem splitlines_unlines {ls : List Text} (hls : ∀ l ∈ ls, IsLine l) :
    splitlines (unlines ls) = ls := by
  have h := splitlines_unlines_append hls []
  rwa [List.append_nil, splitlines, splitlines, splitlinesFrom, if_pos rfl, List.append_nil] at h

/-! ## §2. Fields. -/

/-- Fields, each terminated by a separator, are read back, with one more field
after the last separator. -/
theorem splitOn_terminated {sep : Char} {fields : List Text} (h : ∀ f ∈ fields, sep ∉ f)
    (last : Text) (hlast : sep ∉ last) :
    (fields.flatMap (· ++ [sep]) ++ last).splitOn sep = fields ++ [last] := by
  have hjoin : fields.flatMap (· ++ [sep]) ++ last = [sep].intercalate (fields ++ [last]) := by
    clear h
    induction fields with
    | nil => simp [List.intercalate]
    | cons f fields ih =>
        rw [List.flatMap_cons, List.append_assoc, ih]
        cases fields <;> simp [List.intercalate, List.intersperse]
  -- the terminator of the last field starts the one after it
  rw [hjoin, List.splitOn_intercalate sep ?_ (by simp)]
  intro f hf
  rcases List.mem_append.mp hf with hf | hf
  · exact h f hf
  · rwa [List.mem_singleton.mp hf]

/-- What follows the first occurrence of `pat`. -/
def afterFirst (pat : Text) : Text → Option Text
  | [] => if pat = [] then some [] else none
  | c :: cs =>
      if pat.isPrefixOf (c :: cs) then some ((c :: cs).drop pat.length) else afterFirst pat cs

theorem afterFirst_append (pat rest : Text) : afterFirst pat (pat ++ rest) = some rest := by
  cases h : pat ++ rest with
  | nil =>
      obtain ⟨rfl, rfl⟩ := List.append_eq_nil_iff.mp h
      rfl
  | cons c cs =>
      have hpre : pat.isPrefixOf (c :: cs) = true := by
        rw [← h, List.isPrefixOf_iff_prefix]
        exact List.prefix_append pat rest
      rw [afterFirst, if_pos hpre, ← h, List.drop_left]

/-- A character of the pattern that the text lacks. -/
theorem afterFirst_eq_none {pat s : Text} {c : Char} (hc : c ∈ pat) (hs : c ∉ s) :
    afterFirst pat s = none := by
  induction s with
  | nil =>
      unfold afterFirst
      rw [if_neg (List.ne_nil_of_mem hc)]
  | cons d s ih =>
      have hpre : ¬ pat.isPrefixOf (d :: s) = true := by
        intro hpre
        exact hs ((List.isPrefixOf_iff_prefix.mp hpre).subset hc)
      rw [afterFirst, if_neg hpre]
      exact ih fun hmem => hs (List.mem_cons_of_mem _ hmem)

/-! ## §3. Decimal numbers. -/

/-- The zero of every decimal digit block of Unicode; nine digits follow. -/
def digitZeros : List Nat :=
  [0x30, 0x660, 0x6f0, 0x7c0, 0x966, 0x9e6, 0xa66, 0xae6, 0xb66, 0xbe6, 0xc66, 0xce6, 0xd66, 0xde6,
    0xe50, 0xed0, 0xf20, 0x1040, 0x1090, 0x17e0, 0x1810, 0x1946, 0x19d0, 0x1a80, 0x1a90, 0x1b50,
    0x1bb0, 0x1c40, 0x1c50, 0xa620, 0xa8d0, 0xa900, 0xa9d0, 0xa9f0, 0xaa50, 0xabf0, 0xff10, 0x104a0,
    0x10d30, 0x11066, 0x110f0, 0x11136, 0x111d0, 0x112f0, 0x11450, 0x114d0, 0x11650, 0x116c0,
    0x11730, 0x118e0, 0x11950, 0x11c50, 0x11d50, 0x11da0, 0x16a60, 0x16ac0, 0x16b50, 0x1d7ce,
    0x1d7d8, 0x1d7e2, 0x1d7ec, 0x1d7f6, 0x1e140, 0x1e2f0, 0x1e950, 0x1fbf0]

/-- The value of a decimal digit. -/
def digitValue (c : Char) : Option Nat :=
  (digitZeros.find? fun z => z ≤ c.toNat ∧ c.toNat < z + 10).map (c.toNat - ·)

/-- `\d`. -/
def isDigit (c : Char) : Bool := (digitValue c).isSome

/-- The blanks of every script. -/
def spaces : List Char :=
  ['\t', '\n', '\x0b', '\x0c', '\r', '\x1c', '\x1d', '\x1e', '\x1f', ' ', '\u0085', '\u00a0',
    '\u1680', '\u2000', '\u2001', '\u2002', '\u2003', '\u2004', '\u2005', '\u2006', '\u2007',
    '\u2008', '\u2009', '\u200a', '\u2028', '\u2029', '\u202f', '\u205f', '\u3000']

/-- A character `int` skips around a number. -/
def isSpace (c : Char) : Bool := c ∈ spaces

/-- Digits after `n`, single underscores between them allowed. -/
def parseDigitsFrom : Nat → Text → Option Nat
  | n, [] => some n
  | n, '_' :: d :: cs => (digitValue d).bind fun v => parseDigitsFrom (10 * n + v) cs
  | n, c :: cs => (digitValue c).bind fun v => parseDigitsFrom (10 * n + v) cs

/-- A digit, and more after it. -/
def parseDigits : Text → Option Nat
  | [] => none
  | c :: cs => (digitValue c).bind fun v => parseDigitsFrom v cs

/-- A sign, perhaps, and digits. -/
def parseSigned : Text → Option Int
  | '-' :: cs => (parseDigits cs).map fun n => -(n : Int)
  | '+' :: cs => (parseDigits cs).map fun n => (n : Int)
  | cs => (parseDigits cs).map fun n => (n : Int)

/-- `s.strip()`. -/
def strip (s : Text) : Text := ((s.dropWhile isSpace).reverse.dropWhile isSpace).reverse

/-- `int(s)`; `none` for a `ValueError`. -/
def parseInt (s : Text) : Option Int := parseSigned (strip s)

/-- A signed number in decimal, as `%d` prints it. -/
def formatInt : Int → Text
  | .ofNat n => Nat.toDigits 10 n
  | .negSucc n => '-' :: Nat.toDigits 10 (n + 1)

theorem digitValue_of_isDigit {c : Char} (h : c.isDigit = true) :
    digitValue c = some (c.toNat - '0'.toNat) := by
  have hle : 48 ≤ c.toNat ∧ c.toNat < 48 + 10 := by
    rw [Char.isDigit, Bool.and_eq_true, decide_eq_true_eq, decide_eq_true_eq] at h
    have h1 : (48 : UInt32).toNat ≤ c.val.toNat := UInt32.le_iff_toNat_le.mp h.1
    have h2 : c.val.toNat ≤ (57 : UInt32).toNat := UInt32.le_iff_toNat_le.mp h.2
    have h3 : c.toNat = c.val.toNat := rfl
    simp only [UInt32.reduceToNat] at h1 h2
    omega
  -- `'0'` heads the list of digit blocks
  rw [digitValue, digitZeros, List.find?_cons_of_pos (by simpa using hle)]
  rfl

theorem parseDigitsFrom_digits {cs : Text} (h : ∀ c ∈ cs, c.isDigit = true) (n : Nat) :
    parseDigitsFrom n cs = some (Nat.ofDigitChars 10 cs n) := by
  induction cs generalizing n with
  | nil => rw [Nat.ofDigitChars_nil]; rfl
  | cons c cs ih =>
      have hc := h c List.mem_cons_self
      -- an underscore is not a digit, so its pattern does not apply
      have hne : c ≠ '_' := by
        rintro rfl
        exact absurd hc (by decide)
      rw [Nat.ofDigitChars_cons, ← ih fun d hd => h d (List.mem_cons_of_mem _ hd)]
      rw [parseDigitsFrom.eq_def]
      split
      next heq => cases heq
      next heq =>
        injection heq with heq
        exact absurd heq hne
      next heq =>
        cases heq
        rw [digitValue_of_isDigit hc]
        rfl

theorem parseDigits_toDigits (n : Nat) : parseDigits (Nat.toDigits 10 n) = some n := by
  have hdigits : ∀ c ∈ Nat.toDigits 10 n, c.isDigit = true := fun c hc =>
    Nat.isDigit_of_mem_toDigits (by decide) (by decide) hc
  have hvalue : Nat.ofDigitChars 10 (Nat.toDigits 10 n) 0 = n :=
    Nat.ofDigitChars_toDigits (by decide) (by decide)
  cases hcs : Nat.toDigits 10 n with
  | nil => exact absurd hcs Nat.toDigits_ne_nil
  | cons c cs =>
      rw [hcs] at hdigits hvalue
      rw [parseDigits, digitValue_of_isDigit (hdigits c List.mem_cons_self)]
      show parseDigitsFrom _ cs = some n
      rw [parseDigitsFrom_digits fun d hd => hdigits d (List.mem_cons_of_mem _ hd)]
      rw [Nat.ofDigitChars_cons] at hvalue
      simpa using hvalue

/-- A digit or a sign. -/
theorem mem_formatInt {z : Int} {c : Char} (h : c ∈ formatInt z) : c.isDigit = true ∨ c = '-' := by
  cases z with
  | ofNat n => exact .inl (Nat.isDigit_of_mem_toDigits (by decide) (by decide) h)
  | negSucc n =>
      rcases List.mem_cons.mp h with rfl | h
      · exact .inr rfl
      · exact .inl (Nat.isDigit_of_mem_toDigits (by decide) (by decide) h)

/-- No character of a printed number is a blank. -/
theorem isSpace_of_mem_formatInt {z : Int} {c : Char} (h : c ∈ formatInt z) :
    isSpace c = false := by
  have hspaces : spaces.any (fun d => d.isDigit || d == '-') = false := by decide
  by_contra hne
  have hmem : c ∈ spaces := by simpa [isSpace] using hne
  have hprinted := List.any_eq_false.mp hspaces c hmem
  rcases mem_formatInt h with hd | rfl
  · exact hprinted (by rw [hd]; rfl)
  · exact hprinted rfl

theorem strip_eq {s : Text} (h : ∀ c ∈ s, isSpace c = false) : strip s = s := by
  have hdrop : ∀ t : Text, (∀ c ∈ t, isSpace c = false) → t.dropWhile isSpace = t := by
    intro t ht
    cases t with
    | nil => rfl
    | cons c t => rw [List.dropWhile_cons, ht c List.mem_cons_self]; rfl
  -- neither end of the text is a blank
  rw [strip, hdrop s h, hdrop s.reverse (fun c hc => h c (List.mem_reverse.mp hc)),
    List.reverse_reverse]

/-- **The decimal round trip.** -/
theorem parseInt_formatInt (z : Int) : parseInt (formatInt z) = some z := by
  rw [parseInt, strip_eq fun c hc => isSpace_of_mem_formatInt hc]
  cases z with
  | ofNat n =>
      -- no sign is read where none was printed
      have hsign : ∀ c ∈ Nat.toDigits 10 n, c ≠ '-' ∧ c ≠ '+' := by
        intro c hc
        have hd := Nat.isDigit_of_mem_toDigits (by decide) (by decide) hc
        constructor <;> rintro rfl <;> exact absurd hd (by decide)
      show parseSigned (Nat.toDigits 10 n) = some (n : Int)
      rw [parseSigned.eq_def]
      split
      next heq => exact absurd rfl (hsign '-' (by rw [heq]; exact List.mem_cons_self)).1
      next heq => exact absurd rfl (hsign '+' (by rw [heq]; exact List.mem_cons_self)).2
      next => rw [parseDigits_toDigits]; rfl
  | negSucc n =>
      show (parseDigits (Nat.toDigits 10 (n + 1))).map (fun k => -(k : Int)) = _
      rw [parseDigits_toDigits]
      rfl

end Text

end MqttBenchmark.Lib
