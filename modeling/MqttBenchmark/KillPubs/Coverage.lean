/-
  MqttBenchmark.KillPubs.Coverage
  ───────────────────────────────
  **THE ROUNDS OF THE SCRIPTS COVER EVERY TOPOLOGY ONCE.**

  `fan_in` and `fan_out` loop over the devices and, for each, over the
  combinations of the others; `one_to_one_isolated` runs the combinations of
  two devices and then their reversals.

    • `mem_combinations`, `combinations_ext` — the combinations of distinct
      devices are their subsets of one size, each once,
    • `swap_fanIn` — `fan_out` is `fan_in` with the roles exchanged,
    • `scripts_cover` — which rounds each script runs.
-/
import MqttBenchmark.KillPubs.Def
import Mathlib.Algebra.Group.Action.Defs
import Mathlib.Algebra.Ring.Parity
import Mathlib.Data.Finset.Powerset
import Mathlib.Data.Set.Basic

namespace MqttBenchmark.KillPubs

open Lib FanIn

/-! ## §1. Combinations. -/

section Combinations

variable {α : Type} [DecidableEq α] {l : List α}

omit [DecidableEq α] in
/-- The order apart, these are the sublists of one length. -/
theorem combinations_perm (l : List α) (k : Nat) : (combinations l k).Perm (l.sublistsLen k) := by
  induction l generalizing k with
  | nil => cases k <;> simp [combinations]
  | cons x xs ih =>
      cases k with
      | zero => simp [combinations]
      | succ k =>
          rw [combinations, List.sublistsLen_succ_cons]
          exact List.perm_append_comm.trans ((ih (k + 1)).append ((ih k).map _))

omit [DecidableEq α] in
theorem mem_combinations {xs : List α} {k : Nat} :
    xs ∈ combinations l k ↔ xs.Sublist l ∧ xs.length = k := by
  rw [(combinations_perm l k).mem_iff, List.mem_sublistsLen]

omit [DecidableEq α] in
theorem length_combinations (l : List α) (k : Nat) :
    (combinations l k).length = l.length.choose k := by
  rw [(combinations_perm l k).length_eq, List.length_sublistsLen]

omit [DecidableEq α] in
theorem nodup_combinations (hl : l.Nodup) (k : Nat) : (combinations l k).Nodup :=
  (combinations_perm l k).nodup_iff.mpr (List.nodup_sublistsLen k hl)

/-- A sublist of distinct elements is the list filtered by its members. -/
theorem filter_mem_sublist {xs : List α} (hl : l.Nodup) (h : xs.Sublist l) :
    l.filter (· ∈ xs) = xs := by
  induction h with
  | slnil => rfl
  | cons a h ih =>
      obtain ⟨ha, hl⟩ := List.nodup_cons.mp hl
      rw [List.filter_cons_of_neg (by simpa using fun hmem => ha (h.subset hmem))]
      exact ih hl
  | @cons_cons xs l a h ih =>
      obtain ⟨ha, hl⟩ := List.nodup_cons.mp hl
      rw [List.filter_cons_of_pos (by simp)]
      congr 1
      rw [← ih hl]
      -- `a` is not among the other elements, so it filters nothing there
      apply List.filter_congr
      intro y hy
      have hne : y ≠ a := fun heq => ha (heq ▸ hy)
      simp [hne, ih hl]

/-- Two combinations with the same members are equal. -/
theorem combinations_ext (hl : l.Nodup) {k : Nat} {xs ys : List α} (hx : xs ∈ combinations l k)
    (hy : ys ∈ combinations l k) (h : xs.toFinset = ys.toFinset) : xs = ys := by
  rw [← filter_mem_sublist hl (mem_combinations.mp hx).1,
    ← filter_mem_sublist hl (mem_combinations.mp hy).1]
  apply List.filter_congr
  intro z _
  have hz : z ∈ xs.toFinset ↔ z ∈ ys.toFinset := by rw [h]
  simpa using hz

/-- **As sets, the combinations are the subsets of one size.** -/
theorem mem_map_toFinset_combinations (hl : l.Nodup) {k : Nat} {P : Finset α} :
    P ∈ (combinations l k).map List.toFinset ↔ P ⊆ l.toFinset ∧ P.card = k := by
  rw [List.mem_map]
  constructor
  · rintro ⟨xs, hxs, rfl⟩
    obtain ⟨hsub, hlen⟩ := mem_combinations.mp hxs
    refine ⟨?_, by rw [List.toFinset_card_of_nodup (hl.sublist hsub), hlen]⟩
    intro x hx
    rw [List.mem_toFinset] at hx ⊢
    exact hsub.subset hx
  · intro h
    obtain ⟨hsub, hcard⟩ := h
    -- the members of `P` in the order of the list
    have hset : (l.filter (· ∈ P)).toFinset = P := by
      ext x
      have hmem := @hsub x
      simp only [List.mem_toFinset, List.mem_filter, decide_eq_true_eq] at hmem ⊢
      tauto
    refine ⟨l.filter (· ∈ P), mem_combinations.mpr ⟨List.filter_sublist, ?_⟩, hset⟩
    rw [← List.toFinset_card_of_nodup (hl.filter _), hset, hcard]

theorem nodup_map_toFinset_combinations (hl : l.Nodup) (k : Nat) :
    ((combinations l k).map List.toFinset).Nodup :=
  (nodup_combinations hl k).map_on fun _ hx _ hy h => combinations_ext hl hx hy h

end Combinations

/-! ## §2. The rounds of each script. -/

namespace Round

/-- The round with the roles exchanged. -/
def swap (r : Round) : Round := ⟨r.pubDevs, r.subDevs⟩

/-- Its subscribers and its publishers, as sets of devices. -/
def sides (r : Round) : Finset String × Finset String := (r.subDevs.toFinset, r.pubDevs.toFinset)

/-- No device is deployed twice in one role. -/
def Distinct (r : Round) : Prop := r.subDevs.Nodup ∧ r.pubDevs.Nodup

end Round

variable {devices : List String} {num : Nat}

/-- The rounds of one subscriber. -/
def fanInOf (devices : List String) (num : Nat) (subDev : String) : List Round :=
  (combinations (devices.filter (· ≠ subDev)) num).map fun pubDevs => ⟨[subDev], pubDevs⟩

theorem rounds_fanIn (hlt : num < devices.length) :
    (Script.fanIn num).rounds devices = devices.flatMap (fanInOf devices num) := by
  rw [Script.rounds, FanIn.rounds, if_neg (by omega), List.map_flatMap]
  simp only [List.map_map]
  rfl

/-- **`fan_out` runs the rounds of `fan_in` with the roles exchanged**, in the
same order. -/
theorem swap_fanIn (devices : List String) (num : Nat) :
    (Script.fanOut num).rounds devices
      = ((Script.fanIn num).rounds devices).map Round.swap := by
  by_cases hle : devices.length ≤ num
  · rw [Script.rounds, Script.rounds, FanIn.rounds, if_pos hle, if_pos hle]
    rfl
  · rw [rounds_fanIn (by omega), Script.rounds, if_neg hle, List.map_flatMap]
    simp only [fanInOf, List.map_map]
    rfl

/-- The other devices of a subscriber. -/
theorem toFinset_filter_ne (devices : List String) (subDev : String) :
    (devices.filter (· ≠ subDev)).toFinset = devices.toFinset.erase subDev := by
  ext x
  simp [and_comm]

theorem length_filter_ne (hD : devices.Nodup) {subDev : String} (hmem : subDev ∈ devices) :
    (devices.filter (· ≠ subDev)).length = devices.length - 1 := by
  rw [← List.toFinset_card_of_nodup (hD.filter _), toFinset_filter_ne,
    Finset.card_erase_of_mem (List.mem_toFinset.mpr hmem), List.toFinset_card_of_nodup hD]

/-- The publishers of a subscriber's rounds. -/
theorem mem_sides_fanInOf (hD : devices.Nodup) {subDev : String} {x : Finset String × Finset String} :
    x ∈ (fanInOf devices num subDev).map Round.sides
      ↔ x.1 = {subDev} ∧ x.2 ⊆ devices.toFinset ∧ subDev ∉ x.2 ∧ x.2.card = num := by
  obtain ⟨S, P⟩ := x
  have hP := mem_map_toFinset_combinations (hD.filter (· ≠ subDev)) (k := num) (P := P)
  rw [toFinset_filter_ne, Finset.subset_erase, List.mem_map] at hP
  rw [fanInOf, List.map_map, List.mem_map]
  constructor
  · intro h
    obtain ⟨pubDevs, hmem, heq⟩ := h
    injection heq with hS heq
    have hside := hP.mp ⟨pubDevs, hmem, heq⟩
    exact ⟨hS.symm, hside.1.1, hside.1.2, hside.2⟩
  · intro h
    obtain ⟨hS, hsub, hnot, hcard⟩ := h
    obtain ⟨pubDevs, hmem, heq⟩ := hP.mpr ⟨⟨hsub, hnot⟩, hcard⟩
    refine ⟨pubDevs, hmem, ?_⟩
    exact Prod.ext hS.symm heq

theorem nodup_sides_fanInOf (hD : devices.Nodup) (subDev : String) :
    ((fanInOf devices num subDev).map Round.sides).Nodup := by
  have hnodup := nodup_map_toFinset_combinations (hD.filter (· ≠ subDev)) num
  rw [fanInOf, List.map_map]
  -- all rounds have the same subscriber, so the publishers tell them apart
  have hmap : (Round.sides ∘ fun pubDevs => (⟨[subDev], pubDevs⟩ : Round))
      = (fun P => ({subDev}, P)) ∘ List.toFinset := rfl
  rw [hmap, ← List.map_map]
  refine hnodup.map ?_
  intro P Q heq
  injection heq

/-- **`fan_in` runs no pair of sides twice.** -/
theorem nodup_sides_fanIn (hD : devices.Nodup) (hlt : num < devices.length) :
    (((Script.fanIn num).rounds devices).map Round.sides).Nodup := by
  rw [rounds_fanIn hlt, List.map_flatMap, List.nodup_flatMap]
  refine ⟨fun subDev _ => nodup_sides_fanInOf hD subDev, hD.imp ?_⟩
  intro d d' hne x hx hx'
  -- rounds of different subscribers differ in the first side
  have h := ((mem_sides_fanInOf hD).mp hx).1
  rw [((mem_sides_fanInOf hD).mp hx').1] at h
  exact hne (Finset.singleton_injective h).symm

theorem mem_sides_fanIn (hD : devices.Nodup) (hlt : num < devices.length)
    {x : Finset String × Finset String} :
    x ∈ ((Script.fanIn num).rounds devices).map Round.sides
      ↔ ∃ s ∈ devices, x.1 = {s} ∧ x.2 ⊆ devices.toFinset ∧ s ∉ x.2 ∧ x.2.card = num := by
  rw [rounds_fanIn hlt, List.map_flatMap, List.mem_flatMap]
  simp only [mem_sides_fanInOf hD]

theorem length_fanIn (hD : devices.Nodup) (hlt : num < devices.length) :
    ((Script.fanIn num).rounds devices).length
      = devices.length * (devices.length - 1).choose num := by
  have hsum : (devices.map fun d => (fanInOf devices num d).length)
      = devices.map fun _ => (devices.length - 1).choose num := by
    apply List.map_congr_left
    intro d hd
    rw [fanInOf, List.length_map, length_combinations, length_filter_ne hD hd]
  rw [rounds_fanIn hlt, List.length_flatMap, hsum, List.map_const', List.sum_replicate, smul_eq_mul]

/-- No device is twice among the publishers of a round. -/
theorem distinct_fanIn (hD : devices.Nodup) (hlt : num < devices.length) {r : Round}
    (hr : r ∈ (Script.fanIn num).rounds devices) : r.Distinct := by
  rw [rounds_fanIn hlt, List.mem_flatMap] at hr
  obtain ⟨d, hd, hr⟩ := hr
  rw [fanInOf, List.mem_map] at hr
  obtain ⟨pubDevs, hmem, rfl⟩ := hr
  exact ⟨List.nodup_singleton d, (hD.filter _).sublist (mem_combinations.mp hmem).1⟩

/-! ## §3. The links of `one_to_one_isolated`. -/

/-- The round of a pair. -/
def pairRound (pair : List String) : Round := ⟨pair.take 1, pair.drop 1⟩

/-- The pairs in the order of the script. -/
def allCombs (devices : List String) : List (List String) :=
  combinations devices 2 ++ (combinations devices 2).map List.reverse

theorem length_of_mem_allCombs {pair : List String} (h : pair ∈ allCombs devices) :
    pair.length = 2 := by
  rw [allCombs, List.mem_append, List.mem_map] at h
  rcases h with h | ⟨comb, h, rfl⟩
  · exact (mem_combinations.mp h).2
  · rw [List.length_reverse]
    exact (mem_combinations.mp h).2

theorem rounds_oneToOne (devices : List String) :
    Script.oneToOneIsolated.rounds devices = (allCombs devices).map pairRound := by
  calc Script.oneToOneIsolated.rounds devices
      = (allCombs devices).filterMap fun pair => some (pairRound pair) := by
        apply List.filterMap_congr
        intro pair hpair
        obtain ⟨d1, d2, rfl⟩ := List.length_eq_two.mp (length_of_mem_allCombs hpair)
        rfl
    _ = (allCombs devices).map pairRound := by rw [List.filterMap_eq_map']

/-- The reversal of a pair of distinct devices is no combination as well. -/
theorem nodup_allCombs (hD : devices.Nodup) : (allCombs devices).Nodup := by
  refine (nodup_combinations hD 2).append
    ((nodup_combinations hD 2).map List.reverse_injective) ?_
  intro pair h h'
  obtain ⟨comb, hcomb, rfl⟩ := List.mem_map.mp h'
  have heq : comb.reverse = comb := combinations_ext hD h hcomb List.toFinset_reverse
  obtain ⟨hsub, hlen⟩ := mem_combinations.mp hcomb
  obtain ⟨d1, d2, rfl⟩ := List.length_eq_two.mp hlen
  -- the two devices would be the same one
  have hne := hD.sublist hsub
  simp only [List.reverse_cons, List.reverse_nil, List.nil_append, List.singleton_append,
    List.cons.injEq] at heq
  simp [heq.1] at hne

/-- **Every ordered pair of distinct devices is run.** -/
theorem mem_allCombs (hD : devices.Nodup) {d1 d2 : String} :
    [d1, d2] ∈ allCombs devices ↔ d1 ∈ devices ∧ d2 ∈ devices ∧ d1 ≠ d2 := by
  rw [allCombs, List.mem_append, List.mem_map]
  constructor
  · intro h
    have hpair : ∀ a b, [a, b] ∈ combinations devices 2 → a ∈ devices ∧ b ∈ devices ∧ a ≠ b := by
      intro a b hab
      have hsub := (mem_combinations.mp hab).1
      exact ⟨hsub.subset (by simp), hsub.subset (by simp), by simpa using hD.sublist hsub⟩
    rcases h with h | ⟨comb, hcomb, heq⟩
    · exact hpair d1 d2 h
    · rw [List.reverse_eq_iff] at heq
      rw [heq] at hcomb
      have h21 := hpair d2 d1 hcomb
      exact ⟨h21.2.1, h21.1, h21.2.2.symm⟩
  · intro h
    obtain ⟨h1, h2, hne⟩ := h
    have hset : ({d1, d2} : Finset String) ⊆ devices.toFinset := by
      intro x hx
      simp only [Finset.mem_insert, Finset.mem_singleton] at hx
      rw [List.mem_toFinset]
      rcases hx with rfl | rfl <;> assumption
    obtain ⟨comb, hcomb, heq⟩ := List.mem_map.mp
      ((mem_map_toFinset_combinations hD).mpr ⟨hset, Finset.card_pair hne⟩)
    obtain ⟨a, b, rfl⟩ := List.length_eq_two.mp (mem_combinations.mp hcomb).2
    -- the combination has the two devices in one order or the other
    have hab : ({a, b} : Finset String) = {d1, d2} := by simpa using heq
    have hd1 : d1 = a ∨ d1 = b := by
      have hmem : d1 ∈ ({a, b} : Finset String) := by simp [hab]
      simpa using hmem
    have hd2 : d2 = a ∨ d2 = b := by
      have hmem : d2 ∈ ({a, b} : Finset String) := by simp [hab]
      simpa using hmem
    rcases hd1 with rfl | rfl
    · rcases hd2 with rfl | rfl
      · exact absurd rfl hne
      · exact .inl hcomb
    · rcases hd2 with rfl | rfl
      · exact .inr ⟨_, hcomb, rfl⟩
      · exact absurd rfl hne

theorem length_oneToOne (devices : List String) :
    (Script.oneToOneIsolated.rounds devices).length = devices.length * (devices.length - 1) := by
  rw [rounds_oneToOne, List.length_map, allCombs, List.length_append, List.length_map,
    length_combinations, Nat.choose_two_right]
  have heven : 2 ∣ devices.length * (devices.length - 1) := (Nat.even_mul_pred_self _).two_dvd
  omega

theorem mem_sides_oneToOne (hD : devices.Nodup) {x : Finset String × Finset String} :
    x ∈ (Script.oneToOneIsolated.rounds devices).map Round.sides
      ↔ ∃ d1 ∈ devices, ∃ d2 ∈ devices, d1 ≠ d2 ∧ x = ({d1}, {d2}) := by
  rw [rounds_oneToOne, List.map_map, List.mem_map]
  constructor
  · intro h
    obtain ⟨pair, hpair, rfl⟩ := h
    obtain ⟨d1, d2, rfl⟩ := List.length_eq_two.mp (length_of_mem_allCombs hpair)
    obtain ⟨h1, h2, hne⟩ := (mem_allCombs hD).mp hpair
    exact ⟨d1, h1, d2, h2, hne, rfl⟩
  · intro h
    obtain ⟨d1, h1, d2, h2, hne, rfl⟩ := h
    exact ⟨[d1, d2], (mem_allCombs hD).mpr ⟨h1, h2, hne⟩, rfl⟩

theorem nodup_sides_oneToOne (hD : devices.Nodup) :
    ((Script.oneToOneIsolated.rounds devices).map Round.sides).Nodup := by
  rw [rounds_oneToOne, List.map_map]
  apply (nodup_allCombs hD).map_on
  intro pair hpair pair' hpair' heq
  obtain ⟨d1, d2, rfl⟩ := List.length_eq_two.mp (length_of_mem_allCombs hpair)
  obtain ⟨e1, e2, rfl⟩ := List.length_eq_two.mp (length_of_mem_allCombs hpair')
  injection heq with h1 h2
  rw [Finset.singleton_injective h1, Finset.singleton_injective h2]

theorem distinct_oneToOne {r : Round} (hr : r ∈ Script.oneToOneIsolated.rounds devices) :
    r.Distinct := by
  rw [rounds_oneToOne, List.mem_map] at hr
  obtain ⟨pair, hpair, rfl⟩ := hr
  obtain ⟨d1, d2, rfl⟩ := List.length_eq_two.mp (length_of_mem_allCombs hpair)
  exact ⟨List.nodup_singleton d1, List.nodup_singleton d2⟩

/-! ## §4. Coverage. -/

/-- The rounds run every pair of sides in `sides`, once, and no other. -/
def RunsOnce (rounds : List Round) (sides : Set (Finset String × Finset String)) : Prop :=
  (rounds.map Round.sides).Nodup ∧ ∀ x, x ∈ rounds.map Round.sides ↔ x ∈ sides

/-- One device against `num` others. -/
def fanSides (devices : List String) (num : Nat) : Set (Finset String × Finset String) :=
  { x | ∃ s ∈ devices, x.1 = {s} ∧ x.2 ⊆ devices.toFinset ∧ s ∉ x.2 ∧ x.2.card = num }

/-- The ordered pairs of distinct devices. -/
def pairSides (devices : List String) : Set (Finset String × Finset String) :=
  { x | ∃ d1 ∈ devices, ∃ d2 ∈ devices, d1 ≠ d2 ∧ x = ({d1}, {d2}) }

/-- The (subscriber, publisher) links the rounds run. -/
def links (rounds : List Round) : Set (String × String) :=
  { x | ∃ r ∈ rounds, x.1 ∈ r.subDevs ∧ x.2 ∈ r.pubDevs }

/-- The links are those between the sides. -/
theorem mem_links {rounds : List Round} {x : String × String} :
    x ∈ links rounds ↔ ∃ p ∈ rounds.map Round.sides, x.1 ∈ p.1 ∧ x.2 ∈ p.2 := by
  simp [links, Round.sides]

theorem runsOnce_fanIn (hD : devices.Nodup) (hlt : num < devices.length) :
    RunsOnce ((Script.fanIn num).rounds devices) (fanSides devices num) :=
  ⟨nodup_sides_fanIn hD hlt, fun _ => mem_sides_fanIn hD hlt⟩

/-- What runs once does so with the roles exchanged. -/
theorem RunsOnce.swap {rounds : List Round} {sides : Set (Finset String × Finset String)}
    (h : RunsOnce rounds sides) : RunsOnce (rounds.map Round.swap) (Prod.swap '' sides) := by
  have hsides : (rounds.map Round.swap).map Round.sides
      = (rounds.map Round.sides).map Prod.swap := by
    rw [List.map_map, List.map_map]
    rfl
  rw [RunsOnce, hsides]
  refine ⟨h.1.map Prod.swap_injective, ?_⟩
  intro x
  rw [List.mem_map, Set.mem_image]
  simp only [h.2]

theorem mem_links_oneToOne (hD : devices.Nodup) {x : String × String} :
    x ∈ links (Script.oneToOneIsolated.rounds devices)
      ↔ x.1 ∈ devices ∧ x.2 ∈ devices ∧ x.1 ≠ x.2 := by
  rw [mem_links]
  simp only [mem_sides_oneToOne hD]
  constructor
  · intro h
    obtain ⟨p, ⟨d1, h1, d2, h2, hne, rfl⟩, hx1, hx2⟩ := h
    rw [Finset.mem_singleton] at hx1 hx2
    rw [hx1, hx2]
    exact ⟨h1, h2, hne⟩
  · intro h
    exact ⟨_, ⟨x.1, h.1, x.2, h.2.1, h.2.2, rfl⟩, by simp, by simp⟩

/-- With one publisher `fan_in` runs the links of `one_to_one_isolated`. -/
theorem links_fanIn_one (hD : devices.Nodup) (hlt : 1 < devices.length) :
    links ((Script.fanIn 1).rounds devices)
      = links (Script.oneToOneIsolated.rounds devices) := by
  ext x
  rw [mem_links_oneToOne hD, mem_links]
  simp only [mem_sides_fanIn hD hlt]
  constructor
  · intro h
    obtain ⟨p, ⟨s, hs, hsub, hpub, hnot, hcard⟩, hx1, hx2⟩ := h
    rw [hsub, Finset.mem_singleton] at hx1
    rw [hx1]
    refine ⟨hs, List.mem_toFinset.mp (hpub hx2), ?_⟩
    intro heq
    exact hnot (heq ▸ hx2)
  · intro h
    refine ⟨({x.1}, {x.2}), ⟨x.1, h.1, rfl, ?_, ?_, rfl⟩, by simp, by simp⟩
    · simpa using h.2.1
    · simpa using h.2.2

/-- So does `fan_out` with one subscriber. -/
theorem links_fanOut_one (hD : devices.Nodup) (hlt : 1 < devices.length) :
    links ((Script.fanOut 1).rounds devices)
      = links (Script.oneToOneIsolated.rounds devices) := by
  ext x
  have hswap : x ∈ links ((Script.fanOut 1).rounds devices)
      ↔ x.swap ∈ links ((Script.fanIn 1).rounds devices) := by
    rw [swap_fanIn]
    simp [links, Round.swap, and_comm]
  rw [hswap, links_fanIn_one hD hlt, mem_links_oneToOne hD, mem_links_oneToOne hD]
  simp only [Prod.fst_swap, Prod.snd_swap, ne_comm (a := x.2)]
  tauto

/-- **EVERY TOPOLOGY ONCE.**  For distinct devices and `num` fewer than there
are: `fan_in` runs every subscriber with every `num` other publishers,
`fan_out` the same with the roles exchanged, `one_to_one_isolated` every
ordered pair, each once; for one publisher the links are the same. -/
theorem scripts_cover (devices : List String) (num : Nat) (hD : devices.Nodup)
    (hlt : num < devices.length) :
    (RunsOnce ((Script.fanIn num).rounds devices) (fanSides devices num)
      ∧ ((Script.fanIn num).rounds devices).length
        = devices.length * (devices.length - 1).choose num)
    ∧ (RunsOnce ((Script.fanOut num).rounds devices) (Prod.swap '' fanSides devices num)
      ∧ (Script.fanOut num).rounds devices = ((Script.fanIn num).rounds devices).map Round.swap)
    ∧ (RunsOnce (Script.oneToOneIsolated.rounds devices) (pairSides devices)
      ∧ (Script.oneToOneIsolated.rounds devices).length = devices.length * (devices.length - 1))
    ∧ (∀ script ∈ [.fanIn num, .fanOut num, .oneToOneIsolated],
      ∀ r ∈ Script.rounds script devices, r.Distinct)
    ∧ (num = 1 →
      links ((Script.fanIn num).rounds devices) = links (Script.oneToOneIsolated.rounds devices)
      ∧ links ((Script.fanOut num).rounds devices)
        = links (Script.oneToOneIsolated.rounds devices)) := by
  refine ⟨⟨runsOnce_fanIn hD hlt, length_fanIn hD hlt⟩, ⟨?_, swap_fanIn devices num⟩,
    ⟨⟨nodup_sides_oneToOne hD, fun _ => mem_sides_oneToOne hD⟩, length_oneToOne devices⟩, ?_, ?_⟩
  · rw [swap_fanIn]
    exact (runsOnce_fanIn hD hlt).swap
  · intro script hscript r hr
    simp only [List.mem_cons, List.not_mem_nil, or_false] at hscript
    rcases hscript with rfl | rfl | rfl
    · exact distinct_fanIn hD hlt hr
    · rw [swap_fanIn, List.mem_map] at hr
      obtain ⟨r', hr', rfl⟩ := hr
      exact (distinct_fanIn hD hlt hr').symm
    · exact distinct_oneToOne hr
  · intro hone
    subst hone
    exact ⟨links_fanIn_one hD hlt, links_fanOut_one hD hlt⟩

/-- Three devices, one publisher. -/
theorem scripts_cover_three :
    ((Script.fanIn 1).rounds ["a", "b", "c"]).length = 6
      ∧ links ((Script.fanOut 1).rounds ["a", "b", "c"])
        = links (Script.oneToOneIsolated.rounds ["a", "b", "c"]) :=
  have h := scripts_cover ["a", "b", "c"] 1 (by decide) (by decide)
  ⟨h.1.2, (h.2.2.2.2 rfl).2⟩

end MqttBenchmark.KillPubs
