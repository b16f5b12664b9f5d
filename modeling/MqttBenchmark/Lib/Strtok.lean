/-
  MqttBenchmark.Lib.Strtok
  ────────────────────────
  **`strtok` ON A STRING IN MEMORY.**

  `strtok` writes a NUL over the delimiter behind each token and keeps the
  position behind it for the next call.  Both are state here.

    • `fields` — the non-empty pieces between delimiters,
    • `strtok` — one call, on the memory as the last call left it,
    • `strtok_none`, `strtok_last`, `strtok_more` — what a call finds, and
      that `fields` loses exactly that.
-/
import MqttBenchmark.Lib.Bytes
import Mathlib.Data.List.TakeWhile

namespace MqttBenchmark.Lib

/-! ## §1. Fields. -/

section Fields

variable {α : Type*} {p : α → Bool}

/-- The non-empty pieces between delimiters. -/
def fields (p : α → Bool) (xs : List α) : List (List α) := (xs.splitOnP p).filter (!·.isEmpty)

/-- Delimiters in front are skipped. -/
theorem fields_delims {ds : List α} (hds : ∀ d ∈ ds, p d = true) (xs : List α) :
    fields p (ds ++ xs) = fields p xs := by
  induction ds with
  | nil => rfl
  | cons d ds ih =>
      have hd := hds d List.mem_cons_self
      rw [fields, List.cons_append, List.splitOnP_cons_eq_if_modifyHead, if_pos hd, List.filter_cons_of_neg (by simp)]
      exact ih fun e he => hds e (List.mem_cons_of_mem _ he)

/-- A last field. -/
theorem fields_last {tok : List α} (htok : ∀ x ∈ tok, p x = false) (hne : tok ≠ []) :
    fields p tok = [tok] := by
  rw [fields, List.splitOnP_eq_singleton htok]
  simp [hne]

/-- A field with a delimiter behind it. -/
theorem fields_more {tok : List α} (htok : ∀ x ∈ tok, p x = false) (hne : tok ≠ []) {d : α}
    (hd : p d = true) (xs : List α) : fields p (tok ++ d :: xs) = tok :: fields p xs := by
  rw [fields, List.splitOnP_append_cons_of_forall_mem htok d hd, List.filter_cons_of_pos (by simpa using hne)]
  rfl

theorem subset_of_mem_splitOnP {f xs : List α} (h : f ∈ xs.splitOnP p) : f ⊆ xs := by
  induction xs generalizing f with
  | nil =>
      rw [List.splitOnP_nil, List.mem_singleton] at h
      rw [h]
      exact List.nil_subset _
  | cons x xs ih =>
      rw [List.splitOnP_cons_eq_if_modifyHead] at h
      split at h
      next =>
        rcases List.mem_cons.mp h with rfl | h
        · exact List.nil_subset _
        · exact List.subset_cons_of_subset x (ih h)
      next =>
        -- the first piece of the rest is the one `x` belongs to
        obtain ⟨piece, pieces, hpieces⟩ :=
          List.exists_cons_of_ne_nil (List.splitOnP_ne_nil p xs)
        rw [hpieces, List.modifyHead_cons] at h
        rcases List.mem_cons.mp h with rfl | h
        · exact List.cons_subset_cons x (ih (by rw [hpieces]; exact List.mem_cons_self))
        · exact List.subset_cons_of_subset x (ih (by rw [hpieces]; exact List.mem_cons_of_mem _ h))

/-- A field has no elements of its own. -/
theorem subset_of_mem_fields {f xs : List α} (h : f ∈ fields p xs) : f ⊆ xs :=
  subset_of_mem_splitOnP (List.mem_filter.mp h).1

/-- Every text begins with delimiters, then perhaps a field. -/
theorem exists_delims (p : α → Bool) (xs : List α) :
    ∃ ds ys, xs = ds ++ ys ∧ (∀ d ∈ ds, p d = true) ∧ ∀ y ∈ ys.head?, p y = false := by
  refine ⟨xs.takeWhile p, xs.dropWhile p, List.takeWhile_append_dropWhile.symm, ?_, ?_⟩
  · intro d hd
    exact List.all_eq_true.mp List.all_takeWhile d hd
  · intro y hy
    have hnot := List.head?_dropWhile_not p xs
    rw [hy] at hnot
    exact hnot

/-- Behind the delimiters comes a field, up to the next delimiter or the end. -/
theorem exists_field {ys : List α} (hne : ys ≠ []) (hys : ∀ y ∈ ys.head?, p y = false) :
    ∃ tok more, ys = tok ++ more ∧ (∀ x ∈ tok, p x = false) ∧ tok ≠ []
      ∧ ∀ d ∈ more.head?, p d = true := by
  obtain ⟨tok, more, rfl, htok, hmore⟩ := exists_delims (fun x => !p x) ys
  refine ⟨tok, more, rfl, by simpa using htok, ?_, by simpa using hmore⟩
  intro hnil
  subst hnil
  obtain ⟨y, more, rfl⟩ := List.exists_cons_of_ne_nil hne
  have hin := hys y rfl
  have hout := hmore y rfl
  rw [hin] at hout
  cases hout

end Fields

/-! ## §2. Strings in memory. -/

/-- The string at the start of memory. -/
def CString.ofBytes (memory : Bytes) : CString :=
  ⟨memory.takeWhile (· ≠ 0), fun h => by simpa using List.all_eq_true.mp List.all_takeWhile 0 h⟩

theorem CString.ext {s t : CString} (h : s.bytes = t.bytes) : s = t := by
  cases s
  cases t
  cases h
  rfl

theorem CString.bytes_ofBytes {s : Bytes} (h : 0 ∉ s) (rest : Bytes) :
    (CString.ofBytes (s ++ 0 :: rest)).bytes = s := by
  show (s ++ 0 :: rest).takeWhile (fun b => decide (b ≠ 0)) = s
  rw [List.takeWhile_append_of_pos (by simpa using fun b hb (heq : b = 0) => h (heq ▸ hb)),
    List.takeWhile_cons_of_neg (by simp), List.append_nil]

/-- Bytes without a NUL are the string itself. -/
theorem CString.ofBytes_bytes (s : CString) : CString.ofBytes s.bytes = s := by
  apply CString.ext
  show s.bytes.takeWhile (fun b => decide (b ≠ 0)) = s.bytes
  rw [List.takeWhile_eq_self_iff]
  intro b hb
  simpa using fun heq : b = 0 => s.nulFree (heq ▸ hb)

/-- `strdup(memory + i)`; none when no NUL follows. -/
def strdup (memory : Bytes) (i : Nat) : Option CString :=
  if 0 ∈ memory.drop i then some (CString.ofBytes (memory.drop i)) else none

theorem strdup_append {s : Bytes} (h : 0 ∉ s) (pre rest : Bytes) :
    strdup (pre ++ s ++ 0 :: rest) pre.length = some ⟨s, h⟩ := by
  have hdrop : (pre ++ s ++ 0 :: rest).drop pre.length = s ++ 0 :: rest := by
    rw [List.append_assoc, List.drop_left]
  rw [strdup, hdrop, if_pos (by simp)]
  exact congrArg some (CString.ext (CString.bytes_ofBytes h rest))

/-- The first address from `i` on whose byte has the property; none when the
search leaves the memory. -/
def scan (p : UInt8 → Bool) (memory : Bytes) (i : Nat) : Option Nat :=
  ((memory.drop i).findIdx? p).map (i + ·)

theorem scan_append {p : UInt8 → Bool} (pre : Bytes) {mid : Bytes} (hmid : ∀ b ∈ mid, p b = false)
    {b : UInt8} (hb : p b = true) (rest : Bytes) :
    scan p (pre ++ mid ++ b :: rest) pre.length = some (pre.length + mid.length) := by
  have hnone : mid.findIdx? p = none := List.findIdx?_eq_none_iff.mpr hmid
  rw [scan, List.append_assoc, List.drop_left, List.findIdx?_append, hnone, List.findIdx?_cons,
    if_pos hb]
  simp

/-- Where a search ends. -/
theorem scan_eq_some {p : UInt8 → Bool} {memory : Bytes} {i j : Nat} (h : scan p memory i = some j) :
    i ≤ j ∧ ∃ b, memory[j]? = some b ∧ p b = true := by
  obtain ⟨k, hk, rfl⟩ := Option.map_eq_some_iff.mp h
  obtain ⟨hlt, hp, -⟩ := List.findIdx?_eq_some_iff_getElem.mp hk
  refine ⟨Nat.le_add_right i k, (memory.drop i)[k], ?_, hp⟩
  rw [← List.getElem?_drop, List.getElem?_eq_getElem hlt]

/-! ## §3. `strtok`. -/

/-- The memory of the string and the position kept between calls. -/
structure Strtok where
  memory : Bytes
  save : Nat
  deriving DecidableEq, Repr

/-- A call of `strtok` for the string being split, and what is left: the
address of the token, or `NULL`.  None when it reads outside the memory. -/
def strtok (delim : Bytes) (st : Strtok) : Option (Option Nat × Strtok) := do
  let start ← scan (· ∉ delim) st.memory st.save
  if st.memory[start]? = some 0 then
    pure (none, { st with save := start })
  else
    let stop ← scan (fun b => b ∈ delim ∨ b = 0) st.memory start
    if st.memory[stop]? = some 0 then
      pure (some start, { st with save := stop })
    else
      pure (some start, ⟨st.memory.set stop 0, stop + 1⟩)

/-- A call that finds a token moves the position on, within the memory. -/
theorem strtok_advances {delim : Bytes} {st st' : Strtok} {i : Nat}
    (h : strtok delim st = some (some i, st')) :
    st.save < st'.save ∧ st.save < st.memory.length
      ∧ st'.memory.length = st.memory.length := by
  simp only [strtok, Option.bind_eq_bind, Option.bind_eq_some_iff] at h
  obtain ⟨start, hstart, h⟩ := h
  obtain ⟨hle, b, hb, hdelim⟩ := scan_eq_some hstart
  have hlt := (List.getElem?_eq_some_iff.mp hb).1
  split at h
  next => cases h
  next hzero =>
    simp only [Option.bind_eq_some_iff] at h
    obtain ⟨stop, hstop, h⟩ := h
    obtain ⟨hle', c, hc, hend⟩ := scan_eq_some hstop
    -- the byte the token begins with does not end it
    have hne : start ≠ stop := by
      intro heq
      subst heq
      rw [hb] at hc hzero
      cases hc
      simp only [decide_eq_true_eq] at hdelim hend
      rcases hend with hend | hend
      · exact hdelim hend
      · exact hzero (congrArg some hend)
    split at h
    next =>
      cases h
      exact ⟨by simp only; omega, by omega, rfl⟩
    next =>
      cases h
      exact ⟨by simp only; omega, by omega, List.length_set⟩

/-! ## §4. What a call finds. -/

section

variable {delim pre ds tok more : Bytes}

/-- Only delimiters are left. -/
theorem strtok_none (hdelim : 0 ∉ delim) (pre : Bytes) (hds : ∀ b ∈ ds, b ∈ delim) :
    strtok delim ⟨pre ++ ds ++ [0], pre.length⟩
      = some (none, ⟨pre ++ ds ++ [0], pre.length + ds.length⟩) := by
  have hstart : scan (· ∉ delim) (pre ++ ds ++ [0]) pre.length = some (pre.length + ds.length) :=
    scan_append pre (by simpa using hds) (by simpa using hdelim) []
  have hzero : (pre ++ ds ++ [0])[pre.length + ds.length]? = some 0 := by
    rw [← List.length_append, List.getElem?_append_right le_rfl, Nat.sub_self]
    rfl
  simp only [strtok, hstart, Option.bind_eq_bind, Option.bind_some, hzero, if_true, Option.pure_def]

/-- The token begins behind the delimiters. -/
theorem scan_token (htok : ∀ b ∈ tok, b ∉ delim ∧ b ≠ 0) (hne : tok ≠ []) (pre : Bytes)
    (hds : ∀ b ∈ ds, b ∈ delim) (rest : Bytes) :
    scan (· ∉ delim) (pre ++ ds ++ tok ++ rest) pre.length = some (pre ++ ds).length
      ∧ (pre ++ ds ++ tok ++ rest)[(pre ++ ds).length]? ≠ some 0 := by
  obtain ⟨b, tok, rfl⟩ := List.exists_cons_of_ne_nil hne
  obtain ⟨hb, hzero⟩ := htok b List.mem_cons_self
  have hmem : pre ++ ds ++ (b :: tok) ++ rest = pre ++ ds ++ b :: (tok ++ rest) := by simp
  rw [hmem]
  constructor
  · rw [scan_append pre (by simpa using hds) (by simpa using hb), List.length_append]
  · rw [List.getElem?_append_right le_rfl, Nat.sub_self]
    simpa using hzero

/-- A token at the end: its NUL is the one of the string. -/
theorem strtok_last (htok : ∀ b ∈ tok, b ∉ delim ∧ b ≠ 0) (hne : tok ≠ []) (pre : Bytes)
    (hds : ∀ b ∈ ds, b ∈ delim) :
    strtok delim ⟨pre ++ ds ++ tok ++ [0], pre.length⟩
      = some (some (pre ++ ds).length,
          ⟨pre ++ ds ++ tok ++ [0], (pre ++ ds).length + tok.length⟩) := by
  obtain ⟨hstart, hnot⟩ := scan_token htok hne pre hds [0]
  have hstop : scan (fun b => b ∈ delim ∨ b = 0) (pre ++ ds ++ tok ++ [0]) (pre ++ ds).length
      = some ((pre ++ ds).length + tok.length) :=
    scan_append (pre ++ ds) (by simpa using htok) (by simp) []
  have hzero : (pre ++ ds ++ tok ++ [0])[(pre ++ ds).length + tok.length]? = some 0 := by
    rw [← List.length_append, List.getElem?_append_right le_rfl, Nat.sub_self]
    rfl
  simp only [strtok, hstart, hstop, Option.bind_eq_bind, Option.bind_some, hnot, hzero, if_true,
    if_false, Option.pure_def]

/-- A token with a delimiter behind it, which becomes its NUL. -/
theorem strtok_more (htok : ∀ b ∈ tok, b ∉ delim ∧ b ≠ 0) (hne : tok ≠ []) (pre : Bytes)
    (hds : ∀ b ∈ ds, b ∈ delim) {d : UInt8} (hd : d ∈ delim) (hzero : d ≠ 0) (more : Bytes) :
    strtok delim ⟨pre ++ ds ++ tok ++ d :: more, pre.length⟩
      = some (some (pre ++ ds).length,
          ⟨pre ++ ds ++ tok ++ 0 :: more, (pre ++ ds).length + tok.length + 1⟩) := by
  obtain ⟨hstart, hnot⟩ := scan_token htok hne pre hds (d :: more)
  have hstop : scan (fun b => b ∈ delim ∨ b = 0) (pre ++ ds ++ tok ++ d :: more) (pre ++ ds).length
      = some ((pre ++ ds).length + tok.length) :=
    scan_append (pre ++ ds) (by simpa using htok) (by simp [hd]) more
  have hbyte : (pre ++ ds ++ tok ++ d :: more)[(pre ++ ds).length + tok.length]? ≠ some 0 := by
    rw [← List.length_append, List.getElem?_append_right le_rfl, Nat.sub_self]
    simpa using hzero
  have hset : (pre ++ ds ++ tok ++ d :: more).set ((pre ++ ds).length + tok.length) 0
      = pre ++ ds ++ tok ++ 0 :: more := by
    rw [← List.length_append, List.set_append_right _ _ le_rfl, Nat.sub_self]
    rfl
  simp only [strtok, hstart, hstop, Option.bind_eq_bind, Option.bind_some, hnot, hbyte, hset,
    if_false, Option.pure_def]

end

end MqttBenchmark.Lib
