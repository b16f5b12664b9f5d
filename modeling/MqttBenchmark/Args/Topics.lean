/-
  MqttBenchmark.Args.Topics
  ─────────────────────────
  **WHAT `parse_topic_list` STORES.**

  The loop runs on a string that `strtok` cuts up as it goes, and on a
  counter that keeps its value between options.

    • `topicFields` — the non-empty comma-separated fields of an argument,
    • `Topics.holding` — the array and its counter after a list of topics,
    • `parseTopicList_eq` — one option appends its fields, or overflows.
-/
import MqttBenchmark.Args.Def
import MqttBenchmark.Lib.Slots

namespace MqttBenchmark.Args

open Lib

/-! ## §1. Fields. -/

/-- A comma. -/
def isComma (b : UInt8) : Bool := b = comma

/-- The non-empty comma-separated fields of an argument. -/
def topicFields (arg : CString) : List CString :=
  (fields isComma arg.bytes).map CString.ofBytes

/-- Fields are what they are as bytes. -/
theorem bytes_topicFields (arg : CString) :
    (topicFields arg).map CString.bytes = fields isComma arg.bytes := by
  rw [topicFields, List.map_map]
  have hid : ∀ f ∈ fields isComma arg.bytes, (CString.bytes ∘ CString.ofBytes) f = id f := by
    intro f hf
    exact congrArg CString.bytes
      (CString.ofBytes_bytes ⟨f, fun h => arg.nulFree (subset_of_mem_fields hf h)⟩)
  rw [List.map_congr_left hid, List.map_id]

/-! ## §2. The array. -/

/-- The array and its counter after these topics. -/
def Topics.holding (topics : List CString) : Topics :=
  ⟨slots maxTopics (topics.map some) none, topics.length⟩

theorem Topics.empty_eq : Topics.empty = .holding [] := by
  rw [Topics.empty, Topics.holding, List.map_nil, slots_nil]
  rfl

/-! ## §3. The loop. -/

/-- One round of the loop that finds a token. -/
theorem storeTopics_token {st st' : Strtok} {i : Nat} {tok : CString} {topics : List CString}
    (hcall : strtok [comma] st = some (some i, st')) (htok : strdup st'.memory i = some tok) :
    storeTopics st (.holding topics)
      = if topics.length < maxTopics then storeTopics st' (.holding (topics ++ [tok]))
        else .error .topicOverflow := by
  have hlen : (slots maxTopics (topics.map some) none).length = maxTopics := slots_length _ _ _
  rw [storeTopics.eq_def]
  split
  next hnone => rw [hcall] at hnone; cases hnone
  next hnull => rw [hcall] at hnull; cases hnull
  next j st'' hsome =>
    rw [hcall] at hsome
    cases hsome
    simp only [htok, Topics.holding, hlen]
    -- the cell behind the topics stored so far
    have hset : topics.length < maxTopics →
        (slots maxTopics (topics.map some) none).set topics.length (some tok)
          = slots maxTopics ((topics ++ [tok]).map some) none := by
      intro hlt
      rw [List.map_append, List.map_singleton, slots_snoc_set _ _ _ (by simpa using hlt),
        List.length_map]
    split
    next hlt => rw [hset hlt, List.length_append, List.length_singleton]
    next => rfl

/-- The round that finds no token. -/
theorem storeTopics_null {st st' : Strtok} (topics : Topics)
    (hcall : strtok [comma] st = some (none, st')) : storeTopics st topics = .ok topics := by
  rw [storeTopics.eq_def]
  split
  next hnone => rw [hcall] at hnone; cases hnone
  next => rfl
  next hsome => rw [hcall] at hsome; cases hsome

/-- A topic is stored, then those of the fields `fs`. -/
theorem store_then (topics : List CString) (t : CString) (fs : List Bytes)
    {next : Except Fault Topics}
    (hnext : topics.length < maxTopics →
      next = if (topics ++ [t]).length + fs.length ≤ maxTopics then
          .ok (.holding (topics ++ [t] ++ fs.map CString.ofBytes))
        else .error .topicOverflow) :
    (if topics.length < maxTopics then next else .error .topicOverflow)
      = if topics.length + (t.bytes :: fs).length ≤ maxTopics then
          .ok (.holding (topics ++ (t.bytes :: fs).map CString.ofBytes))
        else .error .topicOverflow := by
  rw [List.map_cons, CString.ofBytes_bytes, List.length_cons]
  by_cases hlt : topics.length < maxTopics
  · rw [if_pos hlt, hnext hlt, List.length_append, List.length_singleton, List.append_assoc,
      List.singleton_append, Nat.add_assoc, Nat.add_comm 1]
  · rw [if_neg hlt, if_neg (by omega)]

/-- **The loop stores the fields of what is left of the string**, one cell
after the other, until none is left or the array is full. -/
theorem storeTopics_eq (pre rest : Bytes) (hrest : 0 ∉ rest) (topics : List CString)
    (hle : topics.length ≤ maxTopics) :
    storeTopics ⟨pre ++ rest ++ [0], pre.length⟩ (.holding topics)
      = if topics.length + (fields isComma rest).length ≤ maxTopics then
          .ok (.holding (topics ++ (fields isComma rest).map CString.ofBytes))
        else .error .topicOverflow := by
  have hcomma : (0 : UInt8) ∉ [comma] := by decide
  -- on the length of what is left: each call leaves less
  induction hlen : rest.length using Nat.strong_induction_on generalizing pre rest topics with
  | _ n ih =>
      subst hlen
      obtain ⟨ds, ys, rfl, hds, hys⟩ := exists_delims isComma rest
      have hds' : ∀ b ∈ ds, b ∈ [comma] := fun b hb => by simpa [isComma] using hds b hb
      rw [fields_delims hds]
      by_cases hnil : ys = []
      · subst hnil
        rw [List.append_nil, storeTopics_null _ (strtok_none hcomma pre hds')]
        simp [fields, hle]
      -- a token, up to the next comma or the end
      obtain ⟨tok, more, rfl, htok, hne, hdelim⟩ := exists_field hnil hys
      have hmore : more = [] ∨ ∃ xs, more = comma :: xs := by
        cases more with
        | nil => exact .inl rfl
        | cons b xs => exact .inr ⟨xs, by simpa [isComma] using hdelim b rfl⟩
      obtain ⟨t, rfl⟩ : ∃ t : CString, t.bytes = tok :=
        ⟨⟨tok, fun h => hrest (by simp [h])⟩, rfl⟩
      have htok' : ∀ b ∈ t.bytes, b ∉ [comma] ∧ b ≠ 0 := by
        intro b hb
        refine ⟨by simpa [isComma] using htok b hb, ?_⟩
        intro heq
        exact t.nulFree (heq ▸ hb)
      have hlast : topics.length < maxTopics → (topics ++ [t]).length ≤ maxTopics := by
        intro hlt
        rw [List.length_append]
        exact hlt
      have hpassed : (pre ++ ds ++ t.bytes).length = (pre ++ ds).length + t.bytes.length :=
        List.length_append
      rcases hmore with rfl | ⟨xs, rfl⟩
      -- the last token: the next call finds nothing
      · have hmem : pre ++ (ds ++ (t.bytes ++ [])) ++ [0] = pre ++ ds ++ t.bytes ++ [0] := by simp
        rw [hmem, storeTopics_token (strtok_last htok' hne pre hds')
          (strdup_append t.nulFree (pre ++ ds) []), List.append_nil, fields_last htok hne]
        apply store_then topics t []
        intro hlt
        have hnext := ih 0 (by simp [List.length_pos_iff.mpr hne]) (pre ++ ds ++ t.bytes) []
          (by simp) (topics ++ [t]) (hlast hlt) rfl
        rw [List.append_nil, hpassed] at hnext
        exact hnext
      -- a comma: its cell becomes the NUL of the token
      · have hmem : pre ++ (ds ++ (t.bytes ++ comma :: xs)) ++ [0]
            = pre ++ ds ++ t.bytes ++ comma :: (xs ++ [0]) := by simp
        rw [hmem, storeTopics_token (strtok_more htok' hne pre hds' (by simp) (by decide) (xs ++ [0]))
          (strdup_append t.nulFree (pre ++ ds) (xs ++ [0])), fields_more htok hne (by decide)]
        apply store_then topics t (fields isComma xs)
        intro hlt
        have hxs : 0 ∉ xs := by
          intro h
          exact hrest (by simp [h])
        have hnext := ih xs.length (by simp; omega) (pre ++ ds ++ t.bytes ++ [0]) xs hxs
          (topics ++ [t]) (hlast hlt) rfl
        have hmem' : pre ++ ds ++ t.bytes ++ [0] ++ xs ++ [0]
            = pre ++ ds ++ t.bytes ++ 0 :: (xs ++ [0]) := by simp
        have hlen' : (pre ++ ds ++ t.bytes ++ [0]).length
            = (pre ++ ds).length + t.bytes.length + 1 := by
          rw [List.length_append, hpassed]
          rfl
        rw [hmem', hlen'] at hnext
        exact hnext

/-- **One option appends the fields of its argument**, and returns the
argument as it was; it overflows when there are too many. -/
theorem parseTopicList_eq (topics : List CString) (hle : topics.length ≤ maxTopics)
    (arg : CString) :
    parseTopicList (.holding topics) arg
      = if topics.length + (topicFields arg).length ≤ maxTopics then
          .ok (arg, .holding (topics ++ topicFields arg))
        else .error .topicOverflow := by
  have hdup : strdup arg.toMemory 0 = some arg := strdup_append arg.nulFree [] []
  have hstore : storeTopics ⟨arg.toMemory, 0⟩ (.holding topics) = _ :=
    storeTopics_eq [] arg.bytes arg.nulFree topics hle
  rw [parseTopicList, hdup]
  simp only [hstore]
  rw [topicFields, List.length_map]
  by_cases hfit : topics.length + (fields isComma arg.bytes).length ≤ maxTopics
  · simp only [if_pos hfit]
  · simp only [if_neg hfit]

end MqttBenchmark.Args
