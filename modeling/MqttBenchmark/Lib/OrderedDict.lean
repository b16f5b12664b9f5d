/-
  MqttBenchmark.Lib.OrderedDict
  ─────────────────────────────
  **A DICTIONARY THAT REMEMBERS THE ORDER OF ITS KEYS.**

  Assigning to a key that is there keeps its place; a new key goes to the
  end.  A key occurs once, by construction.

    • `get`, `set` — look up and assign,
    • `extend` — `d[k] = d.get(k, []) + xs`,
    • `extendAll_entries` — extending by a list of pairs groups it: the keys
      in order of first occurrence, each with all its items in order.
-/
import Mathlib.Data.List.Nodup

namespace MqttBenchmark.Lib

/-- Entries in order, with pairwise distinct keys. -/
structure OrderedDict (κ ν : Type*) where
  entries : List (κ × ν)
  nodup : (entries.map Prod.fst).Nodup

namespace OrderedDict

variable {κ ν α : Type*} [DecidableEq κ]

/-- `OrderedDict()`. -/
def empty : OrderedDict κ ν := ⟨[], List.nodup_nil⟩

/-- `d.get(k)`. -/
def get (d : OrderedDict κ ν) (k : κ) : Option ν :=
  (d.entries.find? fun p => p.1 = k).map Prod.snd

/-- The entries after `d[k] = v`. -/
def assign (entries : List (κ × ν)) (k : κ) (v : ν) : List (κ × ν) :=
  if k ∈ entries.map Prod.fst then entries.map fun p => if p.1 = k then (k, v) else p
  else entries ++ [(k, v)]

theorem assign_keys (entries : List (κ × ν)) (k : κ) (v : ν) :
    (assign entries k v).map Prod.fst
      = if k ∈ entries.map Prod.fst then entries.map Prod.fst
        else entries.map Prod.fst ++ [k] := by
  unfold assign
  split
  next =>
    rw [List.map_map]
    apply List.map_congr_left
    intro p _
    show (if p.1 = k then (k, v) else p).1 = p.1
    split
    next heq => exact heq.symm
    next => rfl
  next => rw [List.map_append, List.map_singleton]

/-- `d[k] = v`. -/
def set (d : OrderedDict κ ν) (k : κ) (v : ν) : OrderedDict κ ν where
  entries := assign d.entries k v
  nodup := by
    rw [assign_keys]
    split
    next => exact d.nodup
    next hk => exact d.nodup.append (List.nodup_singleton k) (by simpa using hk)

/-- `d[k] = d.get(k, []) + xs`. -/
def extend (d : OrderedDict κ (List α)) (k : κ) (xs : List α) : OrderedDict κ (List α) :=
  d.set k ((d.get k).getD [] ++ xs)

/-- Extend by one pair after the other. -/
def extendAll (d : OrderedDict κ (List α)) (ps : List (κ × List α)) : OrderedDict κ (List α) :=
  ps.foldl (fun d p => d.extend p.1 p.2) d

/-- The keys in order of first occurrence. -/
def keysOf (ps : List (κ × List α)) : List κ := (ps.map Prod.fst).eraseDups

/-- All items of a key, in order. -/
def itemsOf (ps : List (κ × List α)) (k : κ) : List α :=
  (ps.filter fun p => p.1 = k).flatMap Prod.snd

/-- The pairs grouped by key. -/
def grouped (ps : List (κ × List α)) : List (κ × List α) :=
  (keysOf ps).map fun k => (k, itemsOf ps k)

theorem keysOf_snoc (ps : List (κ × List α)) (k : κ) (xs : List α) :
    keysOf (ps ++ [(k, xs)]) = if k ∈ keysOf ps then keysOf ps else keysOf ps ++ [k] := by
  unfold keysOf
  rw [List.map_append, List.eraseDups_append]
  -- `eraseDups` of the last key is empty when the key occurred before
  by_cases hk : k ∈ ps.map Prod.fst
  · rw [if_pos (List.mem_eraseDups.mpr hk)]
    simp [List.removeAll, hk]
  · rw [if_neg (fun h => hk (List.mem_eraseDups.mp h))]
    simp [List.removeAll, hk, List.eraseDups_cons]

theorem itemsOf_snoc (ps : List (κ × List α)) (k j : κ) (xs : List α) :
    itemsOf (ps ++ [(k, xs)]) j = itemsOf ps j ++ if k = j then xs else [] := by
  unfold itemsOf
  rw [List.filter_append, List.flatMap_append]
  by_cases hkj : k = j <;> simp [hkj]

theorem itemsOf_eq_nil {ps : List (κ × List α)} {k : κ} (hk : k ∉ keysOf ps) :
    itemsOf ps k = [] := by
  unfold itemsOf
  rw [List.filter_eq_nil_iff.mpr, List.flatMap_nil]
  intro p hp
  simp only [decide_eq_true_eq]
  rintro rfl
  exact hk (List.mem_eraseDups.mpr (List.mem_map_of_mem hp))

theorem grouped_keys (ps : List (κ × List α)) : (grouped ps).map Prod.fst = keysOf ps := by
  unfold grouped
  rw [List.map_map]
  exact List.map_id _

/-- What is stored under a key of the grouping. -/
theorem find_grouped {ps : List (κ × List α)} {k : κ} (hk : k ∈ keysOf ps) :
    (grouped ps).find? (fun p => p.1 = k) = some (k, itemsOf ps k) := by
  unfold grouped
  rw [List.find?_map]
  have hfind : (keysOf ps).find? ((fun p : κ × List α => decide (p.1 = k)) ∘
      fun j => (j, itemsOf ps j)) = some k := by
    -- the items play no part in the search: induct on the keys alone
    generalize keysOf ps = ks at hk
    induction ks with
    | nil => exact absurd hk List.not_mem_nil
    | cons j js ih =>
        by_cases hj : j = k
        · subst hj
          simp
        · have hmem : k ∈ js := (List.mem_cons.mp hk).resolve_left (Ne.symm hj)
          rw [List.find?_cons_of_neg (by simpa using hj), ih hmem]
  rw [hfind]
  rfl

/-- Extending the grouping by one pair more. -/
theorem assign_grouped (ps : List (κ × List α)) (k : κ) (xs : List α) :
    assign (grouped ps) k ((((grouped ps).find? fun p => p.1 = k).map Prod.snd).getD [] ++ xs)
      = grouped (ps ++ [(k, xs)]) := by
  unfold assign
  rw [grouped_keys]
  by_cases hk : k ∈ keysOf ps
  -- an old key keeps its place and gets the items at the end of its own
  · rw [if_pos hk, find_grouped hk]
    unfold grouped
    rw [keysOf_snoc, if_pos hk, List.map_map]
    apply List.map_congr_left
    intro j _
    show (if j = k then _ else _) = _
    rw [itemsOf_snoc]
    by_cases hj : j = k
    · subst hj
      simp
    · rw [if_neg hj, if_neg (Ne.symm hj), List.append_nil]
  -- a new key has nothing stored and goes behind the others
  · have hfind : (grouped ps).find? (fun p => p.1 = k) = none := by
      rw [List.find?_eq_none]
      intro p hp
      simp only [decide_eq_true_eq]
      rintro rfl
      exact hk (grouped_keys ps ▸ List.mem_map_of_mem hp)
    rw [if_neg hk, hfind]
    unfold grouped
    rw [keysOf_snoc, if_neg hk, List.map_append]
    congr 1
    · apply List.map_congr_left
      intro j hj
      have hne : k ≠ j := by
        rintro rfl
        exact hk hj
      rw [itemsOf_snoc, if_neg hne, List.append_nil]
    · rw [List.map_singleton, itemsOf_snoc, itemsOf_eq_nil hk, if_pos rfl]
      rfl

/-- **Extending pair by pair groups the pairs.** -/
theorem extendAll_entries (ps : List (κ × List α)) :
    (extendAll empty ps : OrderedDict κ (List α)).entries = grouped ps := by
  -- generalise over the pairs `ps` that are grouped already
  suffices h : ∀ (qs ps : List (κ × List α)) (d : OrderedDict κ (List α)),
      d.entries = grouped ps → (extendAll d qs).entries = grouped (ps ++ qs) by
    exact h ps [] empty rfl
  intro qs
  induction qs with
  | nil =>
      intro ps d hd
      rw [List.append_nil]
      exact hd
  | cons q qs ih =>
      intro ps d hd
      have hstep : (d.extend q.1 q.2).entries = grouped (ps ++ [q]) := by
        show assign d.entries q.1 (((d.entries.find? _).map Prod.snd).getD [] ++ q.2) = _
        rw [hd]
        exact assign_grouped ps q.1 q.2
      have hrest := ih (ps ++ [q]) (d.extend q.1 q.2) hstep
      rw [List.append_assoc] at hrest
      exact hrest

/-- What is found under a key after extending. -/
theorem get_extendAll {ps : List (κ × List α)} {k : κ} (hk : k ∈ ps.map Prod.fst) :
    (extendAll empty ps).get k = some (itemsOf ps k) := by
  rw [get, extendAll_entries, find_grouped (List.mem_eraseDups.mpr hk)]
  rfl

end OrderedDict

end MqttBenchmark.Lib
