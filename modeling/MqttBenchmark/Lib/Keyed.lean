/-
  MqttBenchmark.Lib.Keyed
  ───────────────────────
  **LISTS SEARCHED BY A KEY.**

  Records in a list, found by the first one with a key.  As long as no two
  have the same key, the list is a map: what each operation does to the
  record of one key it does to no other.

    • `lookup`, `store`, `modify`, `remove` — the operations,
    • `lookup_store`, `lookup_modify`, `lookup_remove` — the map they make,
    • `nodup_store`, `map_modify`, `map_remove_sublist` — keys stay different.
-/
import Mathlib.Data.List.Nodup
import Mathlib.Tactic.Common

namespace MqttBenchmark.Lib.Keyed

variable {β κ : Type*} [DecidableEq κ] (key : β → κ)

/-! ## §1. The operations. -/

/-- The first record with the key. -/
def lookup (l : List β) (k : κ) : Option β := l.find? fun b => key b = k

/-- In the place of the first record with its key, or at the end. -/
def store : List β → β → List β
  | [], b => [b]
  | b' :: l, b => if key b' = key b then b :: l else b' :: store l b

/-- The first record with the key is changed. -/
def modify (f : β → β) : List β → κ → List β
  | [], _ => []
  | b :: l, k => if key b = k then f b :: l else b :: modify f l k

/-- The first record with the key is taken out. -/
def remove (l : List β) (k : κ) : List β := l.eraseP fun b => key b = k

variable {key}

/-! ## §2. The map they make. -/

/-- In a list with a first record. -/
theorem lookup_cons (b : β) (l : List β) (k : κ) :
    lookup key (b :: l) k = if key b = k then some b else lookup key l k := by
  unfold lookup
  rw [List.find?_cons]
  by_cases h : key b = k
  · simp [h]
  · simp [h]

/-- What is found is in the list, under its key. -/
theorem lookup_some {l : List β} {k : κ} {b : β} (h : lookup key l k = some b) :
    b ∈ l ∧ key b = k :=
  ⟨List.mem_of_find?_eq_some h, by simpa using List.find?_some h⟩

/-- Nothing is found exactly when no record has the key. -/
theorem lookup_eq_none {l : List β} {k : κ} : lookup key l k = none ↔ k ∉ l.map key := by
  unfold lookup
  rw [List.find?_eq_none]
  constructor
  · intro h hmem
    obtain ⟨b, hb, rfl⟩ := List.mem_map.mp hmem
    simpa using h b hb
  · intro h b hb
    have hne : key b ≠ k := fun heq => h (heq ▸ List.mem_map_of_mem hb)
    simpa using hne

/-- A record of a new key at the end. -/
theorem lookup_snoc {l : List β} {b : β} (h : key b ∉ l.map key) (k : κ) :
    lookup key (l ++ [b]) k = if key b = k then some b else lookup key l k := by
  induction l with
  | nil => exact lookup_cons b [] k
  | cons b' l ih =>
      rw [List.map_cons, List.mem_cons, not_or] at h
      rw [List.cons_append, lookup_cons, lookup_cons, ih h.2]
      by_cases hk : key b' = k
      -- the first record may have the key, and then the new one has not
      · have hne : ¬ key b = k := fun heq => h.1 (heq.trans hk.symm)
        rw [if_pos hk, if_neg hne, if_pos hk]
      · rw [if_neg hk, if_neg hk]

/-- **`store` is the update of a map.** -/
theorem lookup_store (l : List β) (b : β) (k : κ) :
    lookup key (store key l b) k = if key b = k then some b else lookup key l k := by
  induction l with
  | nil => exact lookup_cons b [] k
  | cons b' l ih =>
      unfold store
      by_cases hb : key b' = key b
      · rw [if_pos hb, lookup_cons, lookup_cons, hb]
        by_cases hk : key b = k
        · rw [if_pos hk, if_pos hk]
        · rw [if_neg hk, if_neg hk, if_neg hk]
      · rw [if_neg hb, lookup_cons, lookup_cons, ih]
        -- the record to replace is further down
        by_cases hk : key b' = k
        · have hne : ¬ key b = k := fun heq => hb (hk.trans heq.symm)
          rw [if_pos hk, if_neg hne, if_pos hk]
        · rw [if_neg hk, if_neg hk]

/-- **`modify` changes the value at one key.** -/
theorem lookup_modify {f : β → β} (hf : ∀ b, key (f b) = key b) (l : List β) (k k' : κ) :
    lookup key (modify key f l k) k'
      = if k = k' then (lookup key l k).map f else lookup key l k' := by
  induction l with
  | nil =>
      show none = _
      split <;> rfl
  | cons b l ih =>
      unfold modify
      by_cases hb : key b = k
      · rw [if_pos hb, lookup_cons, lookup_cons, lookup_cons, hf, hb]
        by_cases hk : k = k'
        · rw [if_pos hk, if_pos hk, if_pos rfl]
          rfl
        · rw [if_neg hk, if_neg hk, if_neg hk]
      · rw [if_neg hb, lookup_cons, lookup_cons, lookup_cons, ih, if_neg hb]
        by_cases hk : k = k'
        -- the record to change is further down
        · have hne : ¬ key b = k' := fun heq => hb (heq.trans hk.symm)
          rw [if_neg hne, if_pos hk, if_pos hk]
        · rw [if_neg hk, if_neg hk]

/-- **`remove` forgets one key**, when no other record has it. -/
theorem lookup_remove {l : List β} (h : (l.map key).Nodup) (k k' : κ) :
    lookup key (remove key l k) k' = if k = k' then none else lookup key l k' := by
  induction l with
  | nil =>
      show none = _
      split <;> rfl
  | cons b l ih =>
      rw [List.map_cons, List.nodup_cons] at h
      unfold remove
      by_cases hb : key b = k
      · rw [List.eraseP_cons_of_pos (by simpa using hb), lookup_cons, hb]
        by_cases hk : k = k'
        · rw [if_pos hk, ← hk]
          -- no other record has the key of the one taken out
          exact lookup_eq_none.mpr (hb ▸ h.1)
        · rw [if_neg hk, if_neg hk]
      · rw [List.eraseP_cons_of_neg (by simpa using hb), lookup_cons, lookup_cons]
        show (if key b = k' then some b else lookup key (remove key l k) k') = _
        rw [ih h.2]
        by_cases hk : key b = k'
        · have hne : ¬ k = k' := fun heq => hb (hk.trans heq.symm)
          rw [if_pos hk, if_neg hne, if_pos hk]
        · rw [if_neg hk, if_neg hk]

/-- A part of the list finds the same record or none. -/
theorem lookup_sublist {l l' : List β} (h : l'.Sublist l) (hnodup : (l.map key).Nodup) (k : κ) :
    lookup key l' k = none ∨ lookup key l' k = lookup key l k := by
  induction h with
  | slnil => exact .inl rfl
  | cons b hsub ih =>
      rw [List.map_cons, List.nodup_cons] at hnodup
      rw [lookup_cons]
      by_cases hk : key b = k
      · refine .inl (lookup_eq_none.mpr fun hmem => hnodup.1 ?_)
        rw [hk]
        exact (hsub.map key).subset hmem
      · rw [if_neg hk]
        exact ih hnodup.2
  | cons_cons b hsub ih =>
      rw [List.map_cons, List.nodup_cons] at hnodup
      rw [lookup_cons, lookup_cons]
      by_cases hk : key b = k
      · rw [if_pos hk]
        exact .inr (if_pos hk).symm
      · rw [if_neg hk, if_neg hk]
        exact ih hnodup.2

/-! ## §3. Keys stay different. -/

omit [DecidableEq κ] in
/-- One more record, with a key that is new. -/
theorem nodup_snoc {l : List β} (h : (l.map key).Nodup) {b : β} (hb : key b ∉ l.map key) :
    ((l ++ [b]).map key).Nodup := by
  rw [List.map_append, List.nodup_append]
  refine ⟨h, List.nodup_singleton _, ?_⟩
  intro k hk k' hk'
  obtain rfl := List.mem_singleton.mp hk'
  exact fun heq => hb (heq ▸ hk)

/-- The keys after `store`: a new one comes last. -/
theorem map_store (l : List β) (b : β) :
    (store key l b).map key = if key b ∈ l.map key then l.map key else l.map key ++ [key b] := by
  induction l with
  | nil => rfl
  | cons b' l ih =>
      unfold store
      by_cases hb : key b' = key b
      · have hmem : key b ∈ (b' :: l).map key := by
          rw [List.map_cons, hb]
          exact List.mem_cons_self
        rw [if_pos hb, if_pos hmem, List.map_cons, List.map_cons, hb]
      · rw [if_neg hb, List.map_cons, List.map_cons, ih]
        by_cases hmem : key b ∈ l.map key
        · rw [if_pos hmem, if_pos (List.mem_cons_of_mem _ hmem)]
        · have hnot : key b ∉ key b' :: l.map key := by
            rw [List.mem_cons, not_or]
            exact ⟨Ne.symm hb, hmem⟩
          rw [if_neg hmem, if_neg hnot, List.cons_append]

/-- **`store` keeps keys different.** -/
theorem nodup_store {l : List β} (h : (l.map key).Nodup) (b : β) :
    ((store key l b).map key).Nodup := by
  rw [map_store]
  by_cases hmem : key b ∈ l.map key
  · rw [if_pos hmem]
    exact h
  · rw [if_neg hmem]
    have hsnoc := nodup_snoc h hmem
    rwa [List.map_append] at hsnoc

/-- The keys after `modify` are the same. -/
theorem map_modify {f : β → β} (hf : ∀ b, key (f b) = key b) (l : List β) (k : κ) :
    (modify key f l k).map key = l.map key := by
  induction l with
  | nil => rfl
  | cons b l ih =>
      unfold modify
      by_cases hb : key b = k
      · rw [if_pos hb, List.map_cons, List.map_cons, hf]
      · rw [if_neg hb, List.map_cons, List.map_cons, ih]

/-- And after `remove` some of them. -/
theorem map_remove_sublist (l : List β) (k : κ) :
    ((remove key l k).map key).Sublist (l.map key) :=
  List.eraseP_sublist.map key

/-! ## §4. The other records. -/

/-- A record after `store` was there or is the new one. -/
theorem mem_store {l : List β} {b b' : β} (h : b' ∈ store key l b) : b' ∈ l ∨ b' = b := by
  induction l with
  | nil => exact .inr (List.mem_singleton.mp h)
  | cons c l ih =>
      unfold store at h
      split at h
      · rcases List.mem_cons.mp h with rfl | h
        · exact .inr rfl
        · exact .inl (List.mem_cons_of_mem _ h)
      · rcases List.mem_cons.mp h with rfl | h
        · exact .inl List.mem_cons_self
        · rcases ih h with h | h
          · exact .inl (List.mem_cons_of_mem _ h)
          · exact .inr h

/-- The record that is changed is the one that is found. -/
theorem mem_modify {f : β → β} {l : List β} {k : κ} {b : β} (h : b ∈ modify key f l k) :
    b ∈ l ∨ ∃ b', lookup key l k = some b' ∧ b = f b' := by
  induction l with
  | nil => exact .inl h
  | cons c l ih =>
      unfold modify at h
      rw [lookup_cons]
      by_cases hk : key c = k
      · rw [if_pos hk] at h ⊢
        rcases List.mem_cons.mp h with rfl | h
        · exact .inr ⟨c, rfl, rfl⟩
        · exact .inl (List.mem_cons_of_mem _ h)
      · rw [if_neg hk] at h ⊢
        rcases List.mem_cons.mp h with rfl | h
        · exact .inl List.mem_cons_self
        · rcases ih h with h | h
          · exact .inl (List.mem_cons_of_mem _ h)
          · exact .inr h

/-- A record after `remove` was there. -/
theorem mem_remove {l : List β} {k : κ} {b : β} (h : b ∈ remove key l k) : b ∈ l :=
  List.mem_of_mem_eraseP h

end MqttBenchmark.Lib.Keyed
