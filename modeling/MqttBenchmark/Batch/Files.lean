/-
  MqttBenchmark.Batch.Files
  ─────────────────────────
  **WHICH RESULTS OF A BATCH ARE LEFT.**

  The name of a triple's files has its interval and its size, and not its
  number of iterations.

    • `fbasename_inj` — two triples share their files exactly when they agree
      in interval and size,
    • `mainLoopFrom_files` — files that are not shared are not lost,
    • `no_result_lost_iff` — the batches that lose nothing.
-/
import MqttBenchmark.Batch.Def
import Mathlib.Data.List.Basic

namespace MqttBenchmark.Batch

open Lib

variable {W : World} {args : Args} {t t' : Triple} {fs fs' : Files}

/-! ## §1. The names. -/

theorem formatInt_inj {z w : Int} (h : Text.formatInt z = Text.formatInt w) : z = w := by
  have hparse := congrArg Text.parseInt h
  rw [Text.parseInt_formatInt, Text.parseInt_formatInt] at hparse
  exact Option.some.inj hparse

theorem underscore_notMem (z : Int) : '_' ∉ Text.formatInt z := by
  intro h
  rcases Text.mem_formatInt h with hd | hd
  · exact absurd hd (by decide)
  · exact absurd hd (by decide)

/-- **Two triples share a name** when they agree in interval and size. -/
theorem fbasename_inj :
    fbasename args t = fbasename args t' ↔ t.interval = t'.interval ∧ t.size = t'.size := by
  constructor
  · intro h
    unfold fbasename at h
    simp only [List.append_assoc] at h
    have h := List.append_cancel_left (List.append_cancel_left h)
    -- the underscore ends the interval, so the two numbers come apart
    have hsep : '_' ∉ 's' :: Text.formatInt t.size := by
      rw [List.mem_cons]
      rintro (heq | hmem)
      · exact absurd heq (by decide)
      · exact underscore_notMem _ hmem
    have hparts := (List.append_cons_inj_of_notMem (underscore_notMem t.interval) hsep).mp h
    exact ⟨formatInt_inj hparts.1, formatInt_inj (List.cons.inj hparts.2.2).2⟩
  · intro h
    obtain ⟨hinterval, hsize⟩ := h
    unfold fbasename
    rw [hinterval, hsize]

theorem logfile_inj :
    logfile args t = logfile args t' ↔ t.interval = t'.interval ∧ t.size = t'.size := by
  unfold logfile
  constructor
  · intro h
    have hname : fbasename args t = fbasename args t' :=
      List.append_cancel_right (Prod.mk.inj h).2
    exact fbasename_inj.mp hname
  · intro h
    have hname : fbasename args t = fbasename args t' := fbasename_inj.mpr h
    rw [hname]

theorem outfile_inj :
    outfile args t = outfile args t' ↔ t.interval = t'.interval ∧ t.size = t'.size := by
  unfold outfile
  constructor
  · intro h
    have hname : fbasename args t = fbasename args t' :=
      List.append_cancel_right (Prod.mk.inj h).2
    exact fbasename_inj.mp hname
  · intro h
    have hname : fbasename args t = fbasename args t' := fbasename_inj.mpr h
    rw [hname]

/-- A log is never written over results, also in one directory. -/
theorem logfile_ne_outfile : logfile args t ≠ outfile args t' := by
  intro h
  have hext := List.append_inj_right' (Prod.mk.inj h).2 (by decide)
  exact absurd hext (by decide)

/-! ## §2. The files. -/

/-- One round of the loop. -/
theorem mainLoopFrom_cons {n : Nat} {ts : List Triple}
    (h : mainLoopFrom W args n (t :: ts) fs = some fs') :
    ∃ logOut out, W.benchMain n (scriptFmt args t) = some logOut ∧ resultsOut W logOut = some out
      ∧ mainLoopFrom W args (n + 1) ts
          (write (write fs (logfile args t) logOut) (outfile args t) (out ++ ['\n'])) = some fs' := by
  obtain ⟨logOut, hlog, h⟩ := Option.bind_eq_some_iff.mp h
  obtain ⟨out, hout, h⟩ := Option.bind_eq_some_iff.mp h
  exact ⟨logOut, out, hlog, hout, h⟩

/-- The loop leaves every file alone that is not named after a triple. -/
theorem mainLoopFrom_frame {n : Nat} {ts : List Triple} {path : Path}
    (h : mainLoopFrom W args n ts fs = some fs')
    (hpath : ∀ t ∈ ts, path ≠ logfile args t ∧ path ≠ outfile args t) : fs' path = fs path := by
  induction ts generalizing n fs with
  | nil =>
      cases h
      rfl
  | cons t ts ih =>
      obtain ⟨logOut, out, -, -, hrest⟩ := mainLoopFrom_cons h
      obtain ⟨hlog, hout⟩ := hpath t List.mem_cons_self
      -- the round writes two files, and this is neither
      rw [ih hrest fun u hu => hpath u (List.mem_cons_of_mem _ hu)]
      unfold write
      rw [Function.update_of_ne hout, Function.update_of_ne hlog]

/-- The files of a triple hold its log and its results. -/
def Holds (W : World) (args : Args) (fs : Files) (n : Nat) (t : Triple) : Prop :=
  ∃ logOut out, W.benchMain n (scriptFmt args t) = some logOut ∧ resultsOut W logOut = some out
    ∧ fs (logfile args t) = some logOut ∧ fs (outfile args t) = some (out ++ ['\n'])

/-- **Files that are not shared are not lost.** -/
theorem mainLoopFrom_files {n : Nat} {ts : List Triple}
    (h : mainLoopFrom W args n ts fs = some fs')
    (hdistinct : ts.Pairwise fun t t' => ¬ (t.interval = t'.interval ∧ t.size = t'.size)) :
    ∀ k t, ts[k]? = some t → Holds W args fs' (n + k) t := by
  induction ts generalizing n fs with
  | nil =>
      intro k t ht
      cases ht
  | cons u ts ih =>
      obtain ⟨logOut, out, hlog, hout, hrest⟩ := mainLoopFrom_cons h
      rw [List.pairwise_cons] at hdistinct
      intro k t ht
      cases k with
      | zero =>
          cases ht
          refine ⟨logOut, out, hlog, hout, ?_, ?_⟩
          · -- no later round writes to the files of this one
            rw [mainLoopFrom_frame hrest fun v hv =>
              ⟨mt logfile_inj.mp (hdistinct.1 v hv), logfile_ne_outfile⟩]
            unfold write
            rw [Function.update_of_ne logfile_ne_outfile, Function.update_self]
          · rw [mainLoopFrom_frame hrest fun v hv =>
              ⟨logfile_ne_outfile.symm, mt outfile_inj.mp (hdistinct.1 v hv)⟩]
            unfold write
            rw [Function.update_self]
      -- the other triples belong to the rounds that follow
      | succ k =>
          have hk := ih hrest hdistinct.2 k t ht
          rw [Nat.add_assoc, Nat.add_comm 1] at hk
          exact hk

/-! ## §3. The product. -/

theorem mem_product :
    t ∈ product args ↔ t.iterations ∈ args.iterations ∧ t.interval ∈ args.interval
      ∧ t.size ∈ args.size := by
  unfold product
  simp only [List.mem_flatMap, List.mem_map]
  constructor
  · intro h
    obtain ⟨iterations, hiterations, interval, hinterval, size, hsize, rfl⟩ := h
    exact ⟨hiterations, hinterval, hsize⟩
  · intro h
    obtain ⟨hiterations, hinterval, hsize⟩ := h
    exact ⟨t.iterations, hiterations, t.interval, hinterval, t.size, hsize, rfl⟩

/-- The three lists repeat nothing. -/
structure PairwiseDistinct (args : Args) : Prop where
  iterations : args.iterations.Nodup
  interval : args.interval.Nodup
  size : args.size.Nodup

theorem product_nodup (h : PairwiseDistinct args) : (product args).Nodup := by
  unfold product
  rw [List.nodup_flatMap]
  constructor
  · intro iterations _
    rw [List.nodup_flatMap]
    constructor
    · intro interval _
      apply h.size.map
      intro size size' heq
      exact (Triple.mk.inj heq).2.2
    · apply h.interval.imp
      intro interval interval' hne t ht ht'
      obtain ⟨size, -, rfl⟩ := List.mem_map.mp ht
      obtain ⟨size', -, heq⟩ := List.mem_map.mp ht'
      exact hne (Triple.mk.inj heq).2.1.symm
  · apply h.iterations.imp
    intro iterations iterations' hne t ht ht'
    obtain ⟨interval, -, hmem⟩ := List.mem_flatMap.mp ht
    obtain ⟨size, -, rfl⟩ := List.mem_map.mp hmem
    obtain ⟨interval', -, hmem'⟩ := List.mem_flatMap.mp ht'
    obtain ⟨size', -, heq⟩ := List.mem_map.mp hmem'
    exact hne (Triple.mk.inj heq).1.symm

/-- No result of the batch is lost: the files of every triple hold its log and
its results, and distinct triples have distinct files. -/
structure NoResultLost (W : World) (args : Args) (fs : Files) : Prop where
  holds : ∀ n t, (product args)[n]? = some t → Holds W args fs n t
  distinct : ∀ t ∈ product args, ∀ t' ∈ product args, t ≠ t' →
    logfile args t ≠ logfile args t' ∧ outfile args t ≠ outfile args t'

/-- With at most one number of iterations the names tell the triples apart. -/
theorem apart_of_le (hle : args.iterations.length ≤ 1) (ht : t ∈ product args)
    (ht' : t' ∈ product args) (hne : t ≠ t') :
    ¬ (t.interval = t'.interval ∧ t.size = t'.size) := by
  intro h
  obtain ⟨hinterval, hsize⟩ := h
  apply hne
  have hiterations : t.iterations = t'.iterations := by
    have hmem := (mem_product.mp ht).1
    have hmem' := (mem_product.mp ht').1
    match args.iterations, hle, hmem, hmem' with
    | [i], _, hmem, hmem' =>
        rw [List.mem_singleton.mp hmem, List.mem_singleton.mp hmem']
  cases t
  cases t'
  cases hiterations
  cases hinterval
  cases hsize
  rfl

/-- Two numbers of iterations give two triples one name. -/
theorem exists_shared (hnodup : args.iterations.Nodup) (hlen : 1 < args.iterations.length)
    (hinterval : args.interval ≠ []) (hsize : args.size ≠ []) :
    ∃ t ∈ product args, ∃ t' ∈ product args, t ≠ t' ∧ t.interval = t'.interval
      ∧ t.size = t'.size := by
  obtain ⟨m, hm⟩ := List.exists_mem_of_ne_nil _ hinterval
  obtain ⟨s, hs⟩ := List.exists_mem_of_ne_nil _ hsize
  match hits : args.iterations, hlen, hnodup with
  | i :: j :: rest, _, hnodup =>
      have hne : i ≠ j := by
        intro heq
        exact (List.nodup_cons.mp hnodup).1 (heq ▸ List.mem_cons_self)
      refine ⟨⟨i, m, s⟩, ?_, ⟨j, m, s⟩, ?_, ?_, rfl, rfl⟩
      · rw [mem_product, hits]
        exact ⟨List.mem_cons_self, hm, hs⟩
      · rw [mem_product, hits]
        exact ⟨List.mem_cons_of_mem _ List.mem_cons_self, hm, hs⟩
      · intro heq
        exact hne (Triple.mk.inj heq).1

/-- With no interval or no size there is no triple. -/
theorem product_eq_nil (h : args.interval = [] ∨ args.size = []) : product args = [] := by
  rw [List.eq_nil_iff_forall_not_mem]
  intro t ht
  obtain ⟨-, hinterval, hsize⟩ := mem_product.mp ht
  rcases h with hnil | hnil
  · rw [hnil] at hinterval
    cases hinterval
  · rw [hnil] at hsize
    cases hsize

/-- **WHICH BATCHES LOSE NOTHING**, of those that repeat nothing: the ones
with at most one number of iterations, or without a triple at all. -/
theorem no_result_lost_iff (cli : Cli) (batchInfo : Option BatchInfo) (config : ConfigInfo)
    (W : World) (fs fs' : Files)
    (hdistinct : PairwiseDistinct (genArgs cli batchInfo config))
    (h : mainLoop W (genArgs cli batchInfo config) fs = some fs') :
    NoResultLost W (genArgs cli batchInfo config) fs'
      ↔ (genArgs cli batchInfo config).iterations.length ≤ 1
        ∨ (genArgs cli batchInfo config).interval = []
        ∨ (genArgs cli batchInfo config).size = [] := by
  generalize genArgs cli batchInfo config = args at *
  constructor
  · intro hlost
    by_contra hcond
    push Not at hcond
    obtain ⟨hlen, hinterval, hsize⟩ := hcond
    obtain ⟨t, ht, t', ht', hne, hsame⟩ := exists_shared hdistinct.iterations hlen hinterval hsize
    exact (hlost.distinct t ht t' ht' hne).1 (logfile_inj.mpr hsame)
  · intro hcond
    -- the names tell the triples apart
    have hapart : ∀ t ∈ product args, ∀ t' ∈ product args, t ≠ t' →
        ¬ (t.interval = t'.interval ∧ t.size = t'.size) := by
      intro t ht t' ht' hne
      rcases hcond with hle | hnil
      · exact apart_of_le hle ht ht' hne
      · rw [product_eq_nil hnil] at ht
        cases ht
    constructor
    · intro n t ht
      have hpairwise := (product_nodup hdistinct).imp_of_mem fun ht ht' => hapart _ ht _ ht'
      have hholds := mainLoopFrom_files h hpairwise n t ht
      rw [Nat.zero_add] at hholds
      exact hholds
    · intro t ht t' ht' hne
      exact ⟨mt logfile_inj.mp (hapart t ht t' ht' hne), mt outfile_inj.mp (hapart t ht t' ht' hne)⟩

/-- `rtt_isolated` with a batch file that gives three lists. -/
def batchOf (iterations interval size : List Int) : Args :=
  genArgs ⟨.rttIsolated, 100, 100000, 64, 0, 5, false⟩
    (some ⟨some iterations, some interval, some size⟩)
    ⟨"hc-00".toList, ".local".toList, 1883, "logs".toList, "results".toList⟩

/-- Every round of the loop prints its number. -/
def numbered : World where
  benchMain n _ := some (Text.formatInt n)
  table _ := some []

/-- One number of iterations, two intervals, two sizes. -/
theorem no_result_lost_iff_one_iterations :
    ∃ fs', mainLoop numbered (batchOf [500] [2000, 5000] [64, 256]) (fun _ => none) = some fs'
      ∧ NoResultLost numbered (batchOf [500] [2000, 5000] [64, 256]) fs' :=
  ⟨_, rfl, (no_result_lost_iff _ _ _ numbered (fun _ => none) _
    ⟨by decide, by decide, by decide⟩ rfl).mpr (Or.inl (by decide))⟩

/-- Two numbers of iterations: the log of the first is gone. -/
theorem no_result_lost_fails_for_two_iterations :
    ∃ fs', mainLoop numbered (batchOf [100, 200] [2000] [64]) (fun _ => none) = some fs'
      ∧ (product (batchOf [100, 200] [2000] [64]))[0]? = some ⟨100, 2000, 64⟩
      ∧ numbered.benchMain 0 (scriptFmt (batchOf [100, 200] [2000] [64]) ⟨100, 2000, 64⟩)
          = some ['0']
      ∧ fs' (logfile (batchOf [100, 200] [2000] [64]) ⟨100, 2000, 64⟩) = some ['1']
      ∧ ¬ NoResultLost numbered (batchOf [100, 200] [2000] [64]) fs' := by
  refine ⟨_, rfl, rfl, rfl, rfl, ?_⟩
  intro hlost
  obtain ⟨logOut, out, hlog, -, hfile, -⟩ := hlost.holds 0 ⟨100, 2000, 64⟩ rfl
  cases hlog
  cases hfile

end MqttBenchmark.Batch
