/-
  MqttBenchmark.Report.Failures
  ─────────────────────────────
  **RUNS THAT FAIL, AND WHAT THEY COST THE OTHERS.**

  `connlost` and the macros that end a process print to the same output as
  `summary_stats`, from other threads; the reader counts lines from the tag.

    • `Run` — the output of one run, a list of `printf` calls in the order in
      which the threads made them,
    • `dataLine_of_ok` — what an extraction that succeeds has read,
    • `survives_iff` — the logs a failing run does no harm to.

  A failing process may go on to print until it is gone, so the summary ends
  anywhere, with failures of other threads between its lines.
-/
import MqttBenchmark.Report.Agree
import Mathlib.Data.List.TakeWhile

namespace MqttBenchmark.Report

open Lib

/-! ## §1. The output of a run. -/

/-- The calls after which a failure ends the process. -/
inductive Call where
  | subscribe
  | unsubscribe
  | publish
  deriving DecidableEq, Repr

/-- What `SUBSCRIBE`, `UNSUBSCRIBE` and `PUBLISH_MESSAGE` print of a failure. -/
def Call.message : Call → String
  | .subscribe => "Failed to subscribe, return code "
  | .unsubscribe => "Failed to unsubscribe, return code "
  | .publish => "Failed to publish message, return code "

/-- A `printf` of `summary_stats`. -/
inductive Piece where
  | title
  | mean (x : UInt32)
  | stdDev (x : UInt32)
  | label
  | sample (x : UInt32)
  | dataEnd
  | rule
  deriving DecidableEq, Repr

/-- What `summary_stats` prints, call by call. -/
def Piece.text : Piece → Text
  | .title => '\n' :: printLine "-- SUMMARY STATS --" []
  | .mean x => printLine "Mean-RTT: " (printU x)
  | .stdDev x => printLine "Std-Dev: " (printU x)
  | .label => "Data Pts: ".toList
  | .sample x => printD x ++ [',']
  | .dataEnd => ['\n']
  | .rule => printLine "-------------------" [] ++ ['\n']

/-- A `printf` after the configuration.  The client library passes `NULL` to
`connlost` as the cause, which `%s` prints as `(null)`. -/
inductive Event where
  | lost
  | cause
  | failed (call : Call) (rc : Int32)
  | summary (p : Piece)
  deriving DecidableEq, Repr

namespace Event

/-- What a call prints. -/
def text : Event → Text
  | .lost => '\n' :: printLine "Connection lost" []
  | .cause => printLine "     cause: " "(null)".toList
  | .failed call rc => printLine call.message (Text.formatInt rc.toInt)
  | .summary p => p.text

/-- The part of the summary a call is. -/
def piece : Event → Option Piece
  | .summary p => some p
  | _ => none

def isNotice : Event → Bool
  | .lost | .cause => true
  | _ => false

def isFailure : Event → Bool
  | .failed _ _ => true
  | _ => false

end Event

/-- The summary up to the end of the data line. -/
def dataPieces (mean stdDev : UInt32) (kept : List UInt32) : List Piece :=
  [.title, .mean mean, .stdDev stdDev, .label] ++ (kept.map .sample ++ [.dataEnd])

/-- One run's output without `--log`: the configuration, then what the threads
print.  No string in it has a line break. -/
structure Run where
  node : Node
  config : Configuration
  mean : UInt32
  stdDev : UInt32
  kept : List UInt32
  events : List Event
  brokerLine : Text.IsLine config.broker
  clientLine : Text.IsLine config.clientId
  pubLine : Text.IsLine config.pubarg
  subLine : Text.IsLine config.subarg
  logDisabled : config.logEnable = 0
  /-- `main` prints its summary from the start, in order. -/
  printed : events.filterMap Event.piece <+: dataPieces mean stdDev kept ++ [.rule]
  /-- Notices come before the summary. -/
  noticed : events.Pairwise fun e f => f.isNotice = true → e.piece = none
  /-- Only a failure cuts the summary short. -/
  cut : events.filterMap Event.piece = dataPieces mean stdDev kept ++ [.rule]
    ∨ ∃ e ∈ events, e.isFailure = true

namespace Run

/-- The text of a run. -/
def text (r : Run) : Text :=
  r.node.tag ++ printConfiguration r.config ++ r.events.flatMap Event.text

/-- The calls that print the data line. -/
def dataEvents (r : Run) : List Event :=
  .summary .label :: (r.kept.map (fun x => .summary (.sample x)) ++ [.summary .dataEnd])

/-- The run printed its data line, whole. -/
def Complete (r : Run) : Prop := r.dataEvents <:+: r.events

instance (r : Run) : Decidable r.Complete := inferInstanceAs (Decidable (_ <:+: _))

/-- The samples the run printed. -/
def samples (r : Run) : List Int := if r.Complete then signedSamples r.kept else []

/-- The run printed its summary to the end of the data line before anything
else. -/
def Clean (r : Run) : Prop :=
  (dataPieces r.mean r.stdDev r.kept).map Event.summary <+: r.events

instance (r : Run) : Decidable r.Clean := inferInstanceAs (Decidable (_ <+: _))

end Run

/-! ## §2. The lines of a run. -/

namespace Event

/-- The lines a call prints. -/
def lines : Event → List Text
  | .lost => [[], "Connection lost".toList]
  | .cause => ["     cause: ".toList ++ "(null)".toList]
  | .failed call rc => [call.message.toList ++ Text.formatInt rc.toInt]
  | .summary .title => [[], "-- SUMMARY STATS --".toList]
  | .summary (.mean x) => ["Mean-RTT: ".toList ++ printU x]
  | .summary (.stdDev x) => ["Std-Dev: ".toList ++ printU x]
  | .summary .label => []
  | .summary (.sample _) => []
  | .summary .dataEnd => [[]]
  | .summary .rule => ["-------------------".toList, []]

/-- The call ends its line: only the data line is printed in parts. -/
def terminated : Event → Bool
  | .summary .label | .summary (.sample _) => false
  | _ => true

/-- A line is printed whole. -/
theorem printLine_eq (label : String) (value : Text) :
    printLine label value = Text.unlines [label.toList ++ value] := by
  unfold printLine
  rw [Text.unlines_cons, Text.unlines_nil]

theorem text_eq {e : Event} (h : e.terminated = true) : e.text = Text.unlines e.lines := by
  have hblank : ∀ l : Text, '\n' :: Text.unlines [l] = Text.unlines [[], l] := by simp
  cases e with
  | lost =>
      show '\n' :: printLine _ [] = _
      rw [printLine_eq, List.append_nil, hblank]
      rfl
  | cause => exact printLine_eq _ _
  | failed call rc => exact printLine_eq _ _
  | summary p =>
      cases p with
      | label => cases h
      | sample x => cases h
      | dataEnd => rfl
      | mean x => exact printLine_eq _ _
      | stdDev x => exact printLine_eq _ _
      | title =>
          show '\n' :: printLine _ [] = _
          rw [printLine_eq, List.append_nil, hblank]
          rfl
      | rule =>
          show printLine _ [] ++ Text.unlines [[]] = _
          rw [printLine_eq, List.append_nil, ← Text.unlines_append]
          rfl

/-- A line of one call has no tag, and no data. -/
theorem plain_lines (e : Event) : ∀ l ∈ e.lines, Block.Plain l ∧ 'P' ∉ l := by
  have hnumber : ∀ z : Int, 'P' ∉ Text.formatInt z := by
    intro z hmem
    rcases Text.mem_formatInt hmem with hd | hd
    · exact absurd hd (by decide)
    · exact absurd hd (by decide)
  have hlabelled : ∀ (label : Text) (z : Int), Text.IsLine label →
      label.head?.any (· != '[') = true → 'P' ∉ label →
      Block.Plain (label ++ Text.formatInt z) ∧ 'P' ∉ label ++ Text.formatInt z := by
    intro label z hline hhead hlabel
    refine ⟨Block.plain_labelled hline hhead (isLine_formatInt z), ?_⟩
    rw [List.mem_append]
    exact not_or.mpr ⟨hlabel, hnumber z⟩
  have hfixed : ∀ l : Text, Text.IsLine l → l.head? ≠ some '[' → 'P' ∉ l →
      Block.Plain l ∧ 'P' ∉ l := fun l hline hhead hl => ⟨Block.plain_of_head hline hhead, hl⟩
  intro l hl
  rcases e with _ | _ | ⟨call, rc⟩ | ⟨_ | x | x | _ | x | _ | _⟩ <;>
    simp only [lines, List.mem_cons, List.not_mem_nil, or_false] at hl
  case lost => rcases hl with rfl | rfl <;> exact hfixed _ (by decide) (by decide) (by decide)
  case cause => subst hl; exact hfixed _ (by decide) (by decide) (by decide)
  case failed =>
      subst hl
      cases call <;> exact hlabelled _ _ (by decide) (by decide) (by decide)
  case summary.title =>
      rcases hl with rfl | rfl <;> exact hfixed _ (by decide) (by decide) (by decide)
  case summary.mean => subst hl; exact hlabelled _ _ (by decide) (by decide) (by decide)
  case summary.stdDev => subst hl; exact hlabelled _ _ (by decide) (by decide) (by decide)
  case summary.dataEnd => subst hl; exact hfixed _ (by decide) (by decide) (by decide)
  case summary.rule =>
      rcases hl with rfl | rfl <;> exact hfixed _ (by decide) (by decide) (by decide)

theorem lines_length_pos {e : Event} (h : e.terminated = true) : 0 < e.lines.length := by
  rcases e with _ | _ | ⟨call, rc⟩ | ⟨_ | x | x | _ | x | _ | _⟩
  case summary.label => cases h
  case summary.sample => cases h
  all_goals simp [lines]

end Event

/-- Calls that end their lines. -/
theorem text_of_terminated {es : List Event} (h : ∀ e ∈ es, e.terminated = true) :
    es.flatMap Event.text = Text.unlines (es.flatMap Event.lines) := by
  induction es with
  | nil => rfl
  | cons e es ih =>
      rw [List.flatMap_cons, List.flatMap_cons, Text.unlines_append,
        Event.text_eq (h e List.mem_cons_self), ih fun f hf => h f (List.mem_cons_of_mem _ hf)]

/-- None of these lines is a tag, and none could be taken for data. -/
theorem plain_of_mem_lines {es : List Event} {l : Text} (hl : l ∈ es.flatMap Event.lines) :
    Block.Plain l ∧ 'P' ∉ l := by
  obtain ⟨e, -, hl⟩ := List.mem_flatMap.mp hl
  exact e.plain_lines l hl

/-- Three calls of the summary print four lines, every other call one more. -/
theorem lines_length_ge {es : List Event} (h : ∀ e ∈ es, e.terminated = true) :
    ((es.filterMap Event.piece).flatMap fun p => (Event.summary p).lines).length
      + (es.filter fun e => e.piece = none).length ≤ (es.flatMap Event.lines).length := by
  induction es with
  | nil => exact le_refl _
  | cons e es ih =>
      have hes := ih fun f hf => h f (List.mem_cons_of_mem _ hf)
      have hpos := Event.lines_length_pos (h e List.mem_cons_self)
      rw [List.flatMap_cons, List.length_append]
      cases hp : e.piece with
      | none =>
          rw [List.filterMap_cons_none hp, List.filter_cons_of_pos (by simpa using hp),
            List.length_cons]
          omega
      | some p =>
          have he : e = .summary p := by
            cases e <;> cases hp
            rfl
          rw [List.filterMap_cons_some hp, List.filter_cons_of_neg (by simp [hp]),
            List.flatMap_cons, List.length_append, he]
          omega

/-! ## §3. The layout of a run. -/

namespace Run

/-- The first line. -/
def tagLine (r : Run) : Text := r.node.tag ++ "----- Configuration -----".toList

/-- The line the samples are on. -/
def dataLine (r : Run) : Text :=
  "Data Pts: ".toList ++ r.kept.flatMap fun x => printD x ++ [',']

/-- The calls before the data line, in a clean run. -/
def headEvents (r : Run) : List Event :=
  [.summary .title, .summary (.mean r.mean), .summary (.stdDev r.stdDev)]

theorem terminated_headEvents (r : Run) : ∀ e ∈ r.headEvents, e.terminated = true := by
  intro e he
  simp only [headEvents, List.mem_cons, List.not_mem_nil, or_false] at he
  rcases he with rfl | rfl | rfl <;> rfl

/-- The output starts with twelve lines of configuration. -/
theorem text_eq (r : Run) :
    r.text = Text.unlines (r.tagLine :: Block.configurationLines r.config)
      ++ r.events.flatMap Event.text := by
  rw [text, Block.printConfiguration_eq, Text.unlines_cons, Text.unlines_cons, tagLine]
  generalize "----- Configuration -----".toList = label
  simp only [List.append_assoc, List.cons_append]

theorem plain_configuration (r : Run) :
    ∀ l ∈ Block.configurationLines r.config, Block.Plain l :=
  Block.plain_configurationLines r.brokerLine r.clientLine r.pubLine r.subLine

theorem isLine_tagLine (r : Run) : Text.IsLine r.tagLine :=
  (isLine_tag r.node).append (by decide)

/-- The lines of a run, with whatever follows it. -/
theorem splitlines_text (r : Run) (rest : Text) :
    Text.splitlines (r.text ++ rest) = r.tagLine :: (Block.configurationLines r.config
      ++ Text.splitlines (r.events.flatMap Event.text ++ rest)) := by
  rw [text_eq, List.append_assoc, Text.splitlines_unlines_append]
  · rfl
  · intro l hl
    rcases List.mem_cons.mp hl with rfl | hl
    · exact r.isLine_tagLine
    · exact (r.plain_configuration l hl).1

/-- The summary up to the end of the data line, in two parts. -/
theorem map_dataPieces (r : Run) :
    (dataPieces r.mean r.stdDev r.kept).map Event.summary = r.headEvents ++ r.dataEvents := by
  simp [dataPieces, headEvents, dataEvents]

/-- The calls up to the end of the data line print five lines. -/
theorem text_dataPieces (r : Run) :
    ((dataPieces r.mean r.stdDev r.kept).map Event.summary).flatMap Event.text
      = Text.unlines (r.headEvents.flatMap Event.lines ++ [r.dataLine]) := by
  have hdata : r.dataEvents.flatMap Event.text = Text.unlines [r.dataLine] := by
    have hlabel : (Event.summary .label).text = "Data Pts: ".toList := rfl
    have hend : [Event.summary .dataEnd].flatMap Event.text = ['\n'] := rfl
    rw [dataEvents, List.flatMap_cons, List.flatMap_append, List.flatMap_map, hlabel, hend,
      Text.unlines_cons, Text.unlines_nil]
    unfold dataLine
    generalize "Data Pts: ".toList = label
    rw [List.append_assoc]
    rfl
  rw [map_dataPieces, List.flatMap_append, text_of_terminated r.terminated_headEvents, hdata,
    ← Text.unlines_append]

/-- After the data line only whole lines are printed. -/
theorem exists_tail {r : Run} (h : r.Clean) :
    ∃ tail, r.events = (dataPieces r.mean r.stdDev r.kept).map Event.summary ++ tail
      ∧ ∀ e ∈ tail, e.terminated = true := by
  obtain ⟨tail, htail⟩ := h
  refine ⟨tail, htail.symm, ?_⟩
  have hid : ((dataPieces r.mean r.stdDev r.kept).map Event.summary).filterMap Event.piece
      = dataPieces r.mean r.stdDev r.kept := by
    rw [List.filterMap_map]
    exact List.filterMap_some
  have hrule := r.printed
  rw [← htail, List.filterMap_append, hid, List.prefix_append_right_inj] at hrule
  intro e he
  cases e with
  | summary p =>
      have hp : p ∈ tail.filterMap Event.piece := List.mem_filterMap.mpr ⟨_, he, rfl⟩
      rw [List.mem_singleton.mp (hrule.subset hp)]
      rfl
  | _ => rfl

/-- A clean run is made of lines, its data on the 17th. -/
theorem exists_lines {r : Run} (h : r.Clean) :
    ∃ ls, r.text = Text.unlines (r.tagLine :: ls) ∧ (∀ l ∈ ls, Block.Plain l)
      ∧ offset ≤ ls.length
      ∧ ∀ rest, (r.tagLine :: (ls ++ rest))[offset]? = some r.dataLine := by
  obtain ⟨tail, htail, hterminated⟩ := exists_tail h
  refine ⟨Block.configurationLines r.config ++ (r.headEvents.flatMap Event.lines ++ [r.dataLine]
    ++ tail.flatMap Event.lines), ?_, ?_, ?_, fun rest => rfl⟩
  · rw [text_eq, htail, List.flatMap_append, text_dataPieces, text_of_terminated hterminated,
      ← Text.unlines_append, ← Text.unlines_append]
    rfl
  · intro l hl
    rcases List.mem_append.mp hl with hl | hl
    · exact r.plain_configuration l hl
    · rcases List.mem_append.mp hl with hl | hl
      · rcases List.mem_append.mp hl with hl | hl
        · exact (plain_of_mem_lines hl).1
        · rw [List.mem_singleton.mp hl]
          exact Block.plain_labelled (by decide) (by decide) (Block.isLine_fields r.kept)
      · exact (plain_of_mem_lines hl).1
  · simp [Block.configurationLines, headEvents, Event.lines, offset]

/-- A clean run is complete. -/
theorem Clean.complete {r : Run} (h : r.Clean) : r.Complete := by
  obtain ⟨tail, htail⟩ := h
  exact ⟨r.headEvents, tail, by rw [← htail, map_dataPieces]⟩

end Run

/-! ## §4. A run that is not clean. -/

/-- The first call that does not end its line is the label of the data. -/
theorem label_of_unterminated {mean stdDev : UInt32} {kept : List UInt32} {ps qs : List Piece}
    {p : Piece} (h : ps ++ p :: qs <+: dataPieces mean stdDev kept ++ [.rule])
    (hps : ∀ q ∈ ps, (Event.summary q).terminated = true)
    (hp : (Event.summary p).terminated = false) :
    ps = [.title, .mean mean, .stdDev stdDev] ∧ p = .label
      ∧ qs <+: kept.map Piece.sample ++ [.dataEnd, .rule] := by
  simp only [dataPieces, List.cons_append, List.nil_append, List.append_assoc] at h
  rcases ps with _ | ⟨a, _ | ⟨b, _ | ⟨c, _ | ⟨d, ps⟩⟩⟩⟩ <;>
    simp only [List.cons_append, List.nil_append, List.cons_prefix_cons] at h
  · obtain ⟨rfl, -⟩ := h
    cases hp
  · obtain ⟨-, rfl, -⟩ := h
    cases hp
  · obtain ⟨-, -, rfl, -⟩ := h
    cases hp
  · obtain ⟨rfl, rfl, rfl, rfl, hqs⟩ := h
    exact ⟨rfl, rfl, hqs⟩
  · obtain ⟨-, -, -, rfl, -⟩ := h
    have hd := hps .label (by simp)
    cases hd

/-- After the label come samples; the call of the summary behind them ends the
data. -/
theorem dataEnd_of_samples {xs kept : List UInt32} {p : Piece} {qs : List Piece}
    (h : xs.map Piece.sample ++ p :: qs <+: kept.map Piece.sample ++ [.dataEnd, .rule])
    (hp : ∀ x, p ≠ .sample x) : xs = kept ∧ p = .dataEnd := by
  induction xs generalizing kept with
  | nil =>
      cases kept with
      | nil =>
          rw [List.map_nil, List.nil_append, List.nil_append, List.cons_prefix_cons] at h
          exact ⟨rfl, h.1⟩
      | cons k kept =>
          rw [List.map_nil, List.nil_append, List.map_cons, List.cons_append,
            List.cons_prefix_cons] at h
          exact absurd h.1 (hp k)
  | cons x xs ih =>
      cases kept with
      | nil =>
          rw [List.map_cons, List.cons_append, List.map_nil, List.nil_append,
            List.cons_prefix_cons] at h
          cases h.1
      | cons k kept =>
          rw [List.map_cons, List.cons_append, List.map_cons, List.cons_append,
            List.cons_prefix_cons] at h
          obtain ⟨hx, h⟩ := h
          obtain ⟨rfl, rfl⟩ := ih h
          cases hx
          exact ⟨rfl, rfl⟩

/-- A list of calls begins with the samples it begins with. -/
theorem exists_samples (es : List Event) :
    ∃ (xs : List UInt32) (rest : List Event), es = xs.map (fun x => .summary (.sample x)) ++ rest
      ∧ ∀ x, rest.head? ≠ some (.summary (.sample x)) := by
  induction es with
  | nil => exact ⟨[], [], rfl, by simp⟩
  | cons e es ih =>
      by_cases he : ∃ x, e = .summary (.sample x)
      · obtain ⟨x, rfl⟩ := he
        obtain ⟨xs, rest, rfl, hrest⟩ := ih
        exact ⟨x :: xs, rest, rfl, hrest⟩
      · refine ⟨[], e :: es, rfl, ?_⟩
        intro x hx
        exact he ⟨x, Option.some.inj hx⟩

/-- Calls that are all of the summary. -/
theorem eq_map_summary {es : List Event} (h : (es.filter fun e => e.piece = none) = []) :
    es = (es.filterMap Event.piece).map Event.summary := by
  induction es with
  | nil => rfl
  | cons e es ih =>
      cases e with
      | summary p =>
          rw [List.filter_cons_of_neg (by simp [Event.piece])] at h
          show _ = (p :: es.filterMap Event.piece).map Event.summary
          rw [List.map_cons, ← ih h]
      | _ => simp [Event.piece] at h

/-- The messages have one comma, and no number before it. -/
theorem Call.exists_comma (call : Call) : ∃ before after : Text,
    call.message.toList = before ++ ',' :: after ∧ ',' ∉ before ∧ ',' ∉ after
      ∧ Text.parseInt before = none := by
  cases call with
  | subscribe =>
      exact ⟨"Failed to subscribe".toList, " return code ".toList, by decide, by decide, by decide,
        by decide⟩
  | unsubscribe =>
      exact ⟨"Failed to unsubscribe".toList, " return code ".toList, by decide, by decide, by decide,
        by decide⟩
  | publish =>
      exact ⟨"Failed to publish message".toList, " return code ".toList, by decide, by decide,
        by decide, by decide⟩

/-- **A failure inside the data line is no number.** -/
theorem dataNode_failed (xs : List UInt32) (call : Call) (rc : Int32) (data : List Int) :
    dataNode ("Data Pts: ".toList ++ (xs.flatMap (fun x => printD x ++ [','])
      ++ (call.message.toList ++ Text.formatInt rc.toInt))) ≠ .ok data := by
  obtain ⟨before, after, hmessage, hbefore, hafter, hparse⟩ := call.exists_comma
  have hnumber : ∀ z : Int, ',' ∉ Text.formatInt z := by
    intro z hmem
    rcases Text.mem_formatInt hmem with hd | hd
    · exact absurd hd (by decide)
    · exact absurd hd (by decide)
  have hfields : ∀ f ∈ xs.map printD ++ [before], ',' ∉ f := by
    intro f hf
    rcases List.mem_append.mp hf with hf | hf
    · obtain ⟨x, -, rfl⟩ := List.mem_map.mp hf
      exact hnumber _
    · rwa [List.mem_singleton.mp hf]
  have hlast : ',' ∉ after ++ Text.formatInt rc.toInt := by
    rw [List.mem_append]
    exact not_or.mpr ⟨hafter, hnumber _⟩
  have hsplit := Text.splitOn_terminated hfields _ hlast
  have hgroup : (xs.map printD ++ [before]).flatMap (· ++ [','])
        ++ (after ++ Text.formatInt rc.toInt)
      = xs.flatMap (fun x => printD x ++ [',']) ++ (call.message.toList ++ Text.formatInt rc.toInt) := by
    rw [hmessage, List.flatMap_append, List.flatMap_map]
    simp
  rw [hgroup] at hsplit
  unfold dataNode
  rw [Text.afterFirst_append]
  show ((List.splitOn ',' _).dropLast).mapM astypeInt ≠ _
  -- the text before the comma is the last field that is read
  rw [hsplit, List.dropLast_concat, List.mapM_append]
  intro h
  cases hxs : (xs.map printD).mapM astypeInt with
  | error e =>
      rw [hxs] at h
      cases h
  | ok ys =>
      rw [hxs] at h
      simp [List.mapM_cons, astypeInt, hparse, bind, Except.bind] at h

/-- A line without data. -/
theorem dataNode_lines {es : List Event} {rest l : Text} {data : List Int} {k : Nat}
    (hterminated : ∀ e ∈ es, e.terminated = true) (hk : k < (es.flatMap Event.lines).length)
    (hl : (Text.splitlines (es.flatMap Event.text ++ rest))[k]? = some l) :
    dataNode l ≠ .ok data := by
  rw [text_of_terminated hterminated, Text.splitlines_unlines_append
    fun l hl => (plain_of_mem_lines hl).1.1, List.getElem?_append_left hk] at hl
  have hP := (plain_of_mem_lines (List.mem_of_getElem? hl)).2
  have hnone : Text.afterFirst "Data Pts: ".toList l = none :=
    Text.afterFirst_eq_none (c := 'P') (by decide) hP
  unfold dataNode
  rw [hnone]
  exact fun h => by cases h

/-- The calls of the summary among others. -/
theorem filterMap_summary (p : Piece) (es : List Event) :
    (Event.summary p :: es).filterMap Event.piece = p :: es.filterMap Event.piece := rfl

namespace Run

/-- The line of a failure that starts inside the data line. -/
theorem splitlines_failed {r : Run} {xs : List UInt32} {call : Call} {rc : Int32}
    {more : List Event}
    (h : r.events = r.headEvents ++ .summary .label
      :: (xs.map (fun x => .summary (.sample x)) ++ .failed call rc :: more)) (rest : Text) :
    (Text.splitlines (r.events.flatMap Event.text ++ rest))[4]?
      = some ("Data Pts: ".toList ++ (xs.flatMap (fun x => printD x ++ [','])
          ++ (call.message.toList ++ Text.formatInt rc.toInt))) := by
  have hlabel : (Event.summary .label).text = "Data Pts: ".toList := rfl
  have hfailed : (Event.failed call rc).text
      = call.message.toList ++ Text.formatInt rc.toInt ++ ['\n'] := rfl
  have hsample : (fun x => (Event.summary (.sample x)).text) = fun x => printD x ++ [','] := rfl
  have hmessage : Text.IsLine call.message.toList := by cases call <;> decide
  have hline := (show Text.IsLine "Data Pts: ".toList by decide).append
    ((Block.isLine_fields xs).append (hmessage.append (isLine_formatInt rc.toInt)))
  rw [h, List.flatMap_append, text_of_terminated r.terminated_headEvents, List.flatMap_cons,
    List.flatMap_append, List.flatMap_cons, List.flatMap_map, hlabel, hfailed, hsample]
  generalize "Data Pts: ".toList = label at hline ⊢
  generalize call.message.toList ++ Text.formatInt rc.toInt = message at hline ⊢
  have htext : Text.unlines (r.headEvents.flatMap Event.lines)
        ++ (label ++ (xs.flatMap (fun x => printD x ++ [','])
          ++ (message ++ ['\n'] ++ more.flatMap Event.text))) ++ rest
      = Text.unlines (r.headEvents.flatMap Event.lines
          ++ [label ++ (xs.flatMap (fun x => printD x ++ [',']) ++ message)])
        ++ (more.flatMap Event.text ++ rest) := by
    rw [Text.unlines_append]
    generalize Text.unlines (r.headEvents.flatMap Event.lines) = head
    simp only [Text.unlines_cons, Text.unlines_nil, List.append_assoc, List.cons_append,
      List.nil_append]
  rw [htext, Text.splitlines_unlines_append]
  · rfl
  · intro l hl
    rcases List.mem_append.mp hl with hl | hl
    · exact (plain_of_mem_lines hl).1.1
    · rwa [List.mem_singleton.mp hl]

/-- A run that printed the label of its data where the reader expects it is
clean, or has a failure on that line. -/
theorem clean_of_label {r : Run} {xs : List UInt32} {more : List Event} {rest l : Text}
    {data : List Int}
    (h : r.events = r.headEvents ++ .summary .label
      :: (xs.map (fun x => .summary (.sample x)) ++ more))
    (hmore : ∀ x, more.head? ≠ some (.summary (.sample x)))
    (hl : (Text.splitlines (r.events.flatMap Event.text ++ rest))[4]? = some l)
    (hdata : dataNode l = .ok data) : r.Clean := by
  have hsamples : (xs.map fun x => Event.summary (.sample x)).filterMap Event.piece
      = xs.map Piece.sample := by
    rw [List.filterMap_map]
    show xs.filterMap (some ∘ Piece.sample) = _
    rw [List.filterMap_eq_map]
  have hpieces : r.events.filterMap Event.piece = [.title, .mean r.mean, .stdDev r.stdDev, .label]
      ++ (xs.map Piece.sample ++ more.filterMap Event.piece) := by
    rw [h, List.filterMap_append, filterMap_summary, List.filterMap_append, hsamples]
    rfl
  have hprinted := r.printed
  rw [hpieces, dataPieces, List.append_assoc, List.prefix_append_right_inj, List.append_assoc]
    at hprinted
  cases more with
  | nil =>
      -- the summary is cut short, and there is no failure
      exfalso
      rcases r.cut with hfull | ⟨e, he, hfailure⟩
      · have hrule : Piece.rule ∈ r.events.filterMap Event.piece := by
          rw [hfull]
          simp
        rw [hpieces] at hrule
        simp at hrule
      · rw [h] at he
        simp only [headEvents, List.append_nil, List.mem_append, List.mem_cons, List.mem_map,
          List.not_mem_nil, or_false] at he
        rcases he with (rfl | rfl | rfl) | rfl | ⟨x, -, rfl⟩ <;> cases hfailure
  | cons e more =>
      have hnotice : e.isNotice = false := by
        have hpair := r.noticed
        rw [h, List.pairwise_append] at hpair
        have hlabel := (List.pairwise_cons.mp hpair.2.1).1 e (by simp)
        by_contra hne
        cases hlabel (by simpa using hne)
      cases e with
      | lost => cases hnotice
      | cause => cases hnotice
      | failed call rc =>
          rw [splitlines_failed h] at hl
          obtain rfl := Option.some.inj hl
          exact absurd hdata (dataNode_failed xs call rc data)
      | summary p =>
          rw [filterMap_summary] at hprinted
          obtain ⟨rfl, rfl⟩ := dataEnd_of_samples hprinted fun x hx => hmore x (by rw [hx]; rfl)
          refine ⟨more, ?_⟩
          rw [h, map_dataPieces, dataEvents]
          simp

/-- **ONLY A CLEAN RUN HAS READABLE DATA ON ITS 17TH LINE**, the fifth after
its configuration, whatever follows it. -/
theorem clean_of_data {r : Run} {rest l : Text} {data : List Int}
    (hl : (Text.splitlines (r.events.flatMap Event.text ++ rest))[4]? = some l)
    (hdata : dataNode l = .ok data)
    (hown : 4 < (Text.splitlines (r.events.flatMap Event.text)).length) : r.Clean := by
  -- whole lines first, up to a call that does not end its line
  have hsplit := List.takeWhile_append_dropWhile (p := Event.terminated) (l := r.events)
  have hwhole : ∀ e ∈ r.events.takeWhile Event.terminated, e.terminated = true :=
    fun e he => List.mem_takeWhile_imp he
  have hstop : ∀ e ∈ (r.events.dropWhile Event.terminated).head?, e.terminated = false := by
    intro e he
    have h := List.head?_dropWhile_not Event.terminated r.events
    rw [Option.mem_def.mp he] at h
    simpa using h
  generalize r.events.takeWhile Event.terminated = whole at hsplit hwhole
  generalize r.events.dropWhile Event.terminated = broken at hsplit hstop
  by_cases hlen : 4 < (whole.flatMap Event.lines).length
  · rw [← hsplit, List.flatMap_append, List.append_assoc] at hl
    exact absurd hdata (dataNode_lines hwhole hlen hl)
  cases broken with
  | nil =>
      -- there are no five lines
      rw [← hsplit, List.append_nil, text_of_terminated hwhole,
        Text.splitlines_unlines fun l hl => (plain_of_mem_lines hl).1.1] at hown
      exact absurd hown hlen
  | cons e broken =>
      have hstop := hstop e rfl
      cases e with
      | summary p =>
          have hprinted := r.printed
          rw [← hsplit, List.filterMap_append, filterMap_summary] at hprinted
          obtain ⟨hhead, rfl, -⟩ := label_of_unterminated hprinted (by
            intro q hq
            obtain ⟨e, he, heq⟩ := List.mem_filterMap.mp hq
            obtain rfl : e = .summary q := by
              cases e <;> cases heq
              rfl
            exact hwhole _ he) hstop
          -- four lines at most, so nothing but the summary was printed before
          have hge := lines_length_ge hwhole
          have hfour : ([Piece.title, .mean r.mean, .stdDev r.stdDev].flatMap
              fun p => (Event.summary p).lines).length = 4 := rfl
          rw [hhead, hfour] at hge
          have hnone : (whole.filter fun e => e.piece = none) = [] := by
            rw [← List.length_eq_zero_iff]
            omega
          have hwholeEq := eq_map_summary hnone
          rw [hhead] at hwholeEq
          obtain ⟨xs, more, rfl, hmore⟩ := exists_samples broken
          have hevents : r.events = r.headEvents ++ .summary .label
              :: (xs.map (fun x => .summary (.sample x)) ++ more) := by
            rw [← hsplit, hwholeEq]
            rfl
          exact clean_of_label hevents hmore hl hdata
      | _ => cases hstop

end Run

/-! ## §5. Logs. -/

/-- A log: before each run some empty lines, and some at the end. -/
def runsLog (runs : List (Nat × Run)) (trailing : Nat) : Text :=
  runs.flatMap (fun p => List.replicate p.1 '\n' ++ p.2.text) ++ List.replicate trailing '\n'

/-- A log is its first run, then the rest. -/
theorem runsLog_cons (p : Nat × Run) (runs : List (Nat × Run)) (trailing : Nat) :
    runsLog (p :: runs) trailing
      = Text.unlines (List.replicate p.1 []) ++ (p.2.text ++ runsLog runs trailing) := by
  rw [runsLog, List.flatMap_cons, unlines_replicate, List.append_assoc, List.append_assoc]
  rfl

/-- **An extraction that succeeds read numbers at the offset of every tag.** -/
theorem dataLine_of_ok {before rest : List Text} {line node : Text}
    {agg out : OrderedDict Text (List Int)}
    (h : aggDataFrom (before ++ line :: rest) agg = .ok out) (htag : matchTag line = some node) :
    ∃ l data, (line :: rest)[offset]? = some l ∧ dataNode l = .ok data := by
  induction before generalizing agg with
  | nil =>
      rw [List.nil_append, aggDataFrom, htag] at h
      simp only at h
      cases hl : (line :: rest)[offset]? with
      | none => rw [hl] at h; cases h
      | some l =>
          cases hdata : dataNode l with
          | error e => rw [hl] at h; simp only [hdata] at h; cases h
          | ok data => exact ⟨l, data, rfl, hdata⟩
  | cons first before ih =>
      rw [List.cons_append, aggDataFrom] at h
      split at h
      next => exact ih h
      next =>
        split at h
        next => cases h
        next dataLine _ =>
          -- the rest is read with more data collected
          cases hdata : dataNode dataLine with
          | error e =>
              rw [hdata] at h
              cases h
          | ok data =>
              rw [hdata] at h
              exact ih h

/-- **A clean run adds its samples to its node**, whatever follows. -/
theorem aggDataFrom_run {r : Run} (h : r.Clean) (gap : Nat) (rest : Text)
    (agg : OrderedDict Text (List Int)) :
    aggDataFrom (Text.splitlines (Text.unlines (List.replicate gap []) ++ (r.text ++ rest))) agg
      = aggDataFrom (Text.splitlines rest) (agg.extend r.node.name r.samples) := by
  obtain ⟨ls, htext, hplain, -, hline⟩ := r.exists_lines h
  have hblank : ∀ l ∈ List.replicate gap ([] : Text), Text.IsLine l := by
    intro l hl
    rw [List.eq_of_mem_replicate hl]
    decide
  have hlines : ∀ l ∈ r.tagLine :: ls, Text.IsLine l := by
    intro l hl
    rcases List.mem_cons.mp hl with rfl | hl
    · exact r.isLine_tagLine
    · exact (hplain l hl).1
  have hsamples : r.samples = signedSamples r.kept := if_pos h.complete
  rw [Text.splitlines_unlines_append hblank, aggDataFrom_skip (matchTag_gap gap), htext,
    Text.splitlines_unlines_append hlines, List.cons_append, hsamples]
  exact aggDataFrom_printed r.kept (matchTag_tag r.node _) (hline _)
    (fun l hl => (hplain l hl).2) agg

/-- Clean runs, one after the other. -/
theorem aggDataFrom_runs (runs : List (Nat × Run)) (trailing : Nat)
    (hclean : ∀ p ∈ runs, p.2.Clean) (agg : OrderedDict Text (List Int)) :
    aggDataFrom (Text.splitlines (runsLog runs trailing)) agg
      = .ok (agg.extendAll (runs.map fun p => (p.2.node.name, p.2.samples))) := by
  induction runs generalizing agg with
  | nil =>
      have hskip := aggDataFrom_skip (matchTag_gap trailing) [] agg
      rw [List.append_nil] at hskip
      rw [runsLog, List.flatMap_nil, List.nil_append, ← unlines_replicate,
        Text.splitlines_unlines, hskip]
      · rfl
      · intro l hl
        rw [List.eq_of_mem_replicate hl]
        decide
  | cons p runs ih =>
      rw [runsLog_cons, aggDataFrom_run (hclean p List.mem_cons_self),
        ih fun q hq => hclean q (List.mem_cons_of_mem _ hq)]
      rfl

/-- A log of clean runs is made of lines. -/
theorem exists_lines_runs {runs : List (Nat × Run)} (hclean : ∀ p ∈ runs, p.2.Clean) :
    ∃ ls, runsLog runs 0 = Text.unlines ls ∧ ∀ l ∈ ls, Text.IsLine l := by
  induction runs with
  | nil => exact ⟨[], rfl, by simp⟩
  | cons p runs ih =>
      obtain ⟨ls, hls, hlines⟩ := ih fun q hq => hclean q (List.mem_cons_of_mem _ hq)
      obtain ⟨ms, htext, hplain, -⟩ := p.2.exists_lines (hclean p List.mem_cons_self)
      refine ⟨List.replicate p.1 [] ++ (p.2.tagLine :: ms ++ ls), ?_, ?_⟩
      · rw [runsLog_cons, htext, hls, Text.unlines_append, Text.unlines_append]
      · intro l hl
        rcases List.mem_append.mp hl with hl | hl
        · rw [List.eq_of_mem_replicate hl]
          decide
        · rcases List.mem_append.mp hl with hl | hl
          · rcases List.mem_cons.mp hl with rfl | hl
            · exact p.2.isLine_tagLine
            · exact (hplain l hl).1
          · exact hlines l hl

/-! ## §6. Which logs survive. -/

/-- The samples of the complete runs of a node, in the order of the log. -/
def completeSamples (runs : List (Nat × Run)) (node : Text) : List Int :=
  (runs.filter fun p => p.2.Complete ∧ p.2.node.name = node).flatMap fun p => p.2.samples

/-- **No run costs another its results.** -/
structure Survives (runs : List (Nat × Run)) (trailing : Nat) : Prop where
  /-- No exception, and all samples of the nodes that have some. -/
  collects : ∃ agg, aggData (runsLog runs trailing) = .ok agg
    ∧ ∀ p ∈ runs, p.2.Complete →
      agg.get p.2.node.name = some (completeSamples runs p.2.node.name)
  /-- A line taken for data is a line of the run whose tag it is counted from. -/
  own : ∀ before gap r after, runs = before ++ (gap, r) :: after →
    ∀ l, (Text.splitlines (r.text ++ runsLog after trailing))[offset]? = some l →
      Text.afterFirst "Data Pts: ".toList l ≠ none → offset < (Text.splitlines r.text).length

/-- The first element without a property. -/
theorem exists_first {α : Type} {P : α → Prop} {l : List α} (h : ¬ ∀ x ∈ l, P x) :
    ∃ before x after, l = before ++ x :: after ∧ (∀ y ∈ before, P y) ∧ ¬ P x := by
  induction l with
  | nil => exact absurd (fun x hx => absurd hx List.not_mem_nil) h
  | cons a l ih =>
      by_cases ha : P a
      · have hl : ¬ ∀ x ∈ l, P x := by
          intro hall
          exact h (List.forall_mem_cons.mpr ⟨ha, hall⟩)
        obtain ⟨before, x, after, rfl, hbefore, hx⟩ := ih hl
        exact ⟨a :: before, x, after, rfl, List.forall_mem_cons.mpr ⟨ha, hbefore⟩, hx⟩
      · exact ⟨[], a, l, rfl, by simp, ha⟩

/-- A log that survives has clean runs only. -/
theorem Survives.clean {runs : List (Nat × Run)} {trailing : Nat} (h : Survives runs trailing) :
    ∀ p ∈ runs, p.2.Clean := by
  by_contra hno
  -- in front of the first run that is not clean everything is printed in lines
  obtain ⟨before, ⟨gap, r⟩, after, hruns, hbefore, hr⟩ := exists_first hno
  obtain ⟨ls, hls, hlines⟩ := exists_lines_runs hbefore
  obtain ⟨agg, hok, -⟩ := h.collects
  have hlog : runsLog runs trailing
      = Text.unlines (ls ++ List.replicate gap []) ++ (r.text ++ runsLog after trailing) := by
    have hflat : runsLog before 0
        = before.flatMap fun p => List.replicate p.1 '\n' ++ p.2.text := List.append_nil _
    rw [hruns, runsLog, List.flatMap_append, List.append_assoc, ← hflat, hls, Text.unlines_append,
      List.append_assoc, ← runsLog_cons (gap, r)]
    rfl
  rw [aggData, hlog, Text.splitlines_unlines_append, r.splitlines_text] at hok
  · -- what is read at its tag is its own, so it is clean
    obtain ⟨l, data, hl, hdata⟩ := dataLine_of_ok hok (matchTag_tag r.node _)
    have hpts : Text.afterFirst "Data Pts: ".toList l ≠ none := by
      intro hnone
      unfold dataNode at hdata
      rw [hnone] at hdata
      cases hdata
    have hown := h.own before gap r after hruns l (by rw [r.splitlines_text]; exact hl) hpts
    have htext := r.splitlines_text []
    rw [List.append_nil, List.append_nil] at htext
    rw [htext] at hown
    have hlen : 16 < (Text.splitlines (r.events.flatMap Event.text)).length + 12 := hown
    have hfour : 4 < (Text.splitlines (r.events.flatMap Event.text)).length := by omega
    exact hr (Run.clean_of_data hl hdata hfour)
  · intro l hl
    rcases List.mem_append.mp hl with hl | hl
    · exact hlines l hl
    · rw [List.eq_of_mem_replicate hl]
      decide

/-- A log of clean runs survives. -/
theorem survives_of_clean {runs : List (Nat × Run)} (trailing : Nat)
    (hclean : ∀ p ∈ runs, p.2.Clean) : Survives runs trailing := by
  constructor
  · refine ⟨OrderedDict.extendAll OrderedDict.empty
      (runs.map fun p => (p.2.node.name, p.2.samples)), ?_, ?_⟩
    · exact aggDataFrom_runs runs trailing hclean _
    intro p hp _
    rw [OrderedDict.get_extendAll (by
      rw [List.map_map]
      exact List.mem_map_of_mem (f := fun p : Nat × Run => p.2.node.name) hp)]
    -- every run is complete, so none is left out
    have hfilter : runs.filter (fun q => q.2.Complete ∧ q.2.node.name = p.2.node.name)
        = runs.filter fun q => q.2.node.name = p.2.node.name := by
      apply List.filter_congr
      intro q hq
      simp [(hclean q hq).complete]
    rw [completeSamples, hfilter, OrderedDict.itemsOf, List.filter_map, List.flatMap_map]
    rfl
  · intro before gap r after hruns l hl hdata
    have hmem : (gap, r) ∈ runs := by rw [hruns]; simp
    obtain ⟨ls, htext, hplain, hlen, -⟩ := r.exists_lines (hclean _ hmem)
    rw [htext, Text.splitlines_unlines]
    · rw [List.length_cons]
      omega
    · intro l hl
      rcases List.mem_cons.mp hl with rfl | hl
      · exact r.isLine_tagLine
      · exact (hplain l hl).1

/-- **WHICH LOGS A FAILING RUN DOES NO HARM TO**: those in which every run
printed its data line whole, and nothing else after its configuration before
the end of that line. -/
theorem survives_iff (runs : List (Nat × Run)) (trailing : Nat) :
    Survives runs trailing ↔ ∀ p ∈ runs, p.2.Clean := by
  constructor
  · exact Survives.clean
  · exact survives_of_clean trailing

/-! ## §7. Complete blocks, and a failure. -/

/-- A block is the output of a run in which nothing failed. -/
def Block.toRun (b : Block) : Run where
  node := b.node
  config := b.config
  mean := b.mean
  stdDev := b.stdDev
  kept := b.kept
  events := (dataPieces b.mean b.stdDev b.kept ++ [Piece.rule]).map Event.summary
  brokerLine := b.brokerLine
  clientLine := b.clientLine
  pubLine := b.pubLine
  subLine := b.subLine
  logDisabled := b.logDisabled
  printed := by
    rw [List.filterMap_map]
    show List.filterMap some _ <+: _
    exact List.filterMap_some ▸ List.prefix_rfl
  noticed := by
    rw [List.pairwise_map]
    exact List.pairwise_of_forall fun _ _ h => by cases h
  cut := .inl (by rw [List.filterMap_map]; exact List.filterMap_some)

/-- The output of a run without failures is its block. -/
theorem text_toRun (b : Block) : b.toRun.text = b.text := by
  have hsummary : b.toRun.events.flatMap Event.text = printSummary b.mean b.stdDev b.kept := by
    have hrule : ([Piece.rule].map Event.summary).flatMap Event.text
        = Text.unlines ["-------------------".toList, []] := by
      rw [List.map_singleton, List.flatMap_singleton, Event.text_eq rfl]
      rfl
    have hdata := b.toRun.text_dataPieces
    show ((dataPieces b.mean b.stdDev b.kept ++ [Piece.rule]).map Event.summary).flatMap _ = _
    rw [List.map_append, List.flatMap_append, hrule]
    show ((dataPieces b.toRun.mean b.toRun.stdDev b.toRun.kept).map Event.summary).flatMap _ ++ _ = _
    rw [hdata, ← Text.unlines_append, Block.printSummary_eq]
    rfl
  unfold Run.text
  rw [hsummary]
  rfl

/-- The logs of complete blocks are among them. -/
theorem survives_log (blocks : List (Nat × Block)) (trailing : Nat) :
    runsLog (blocks.map fun p => (p.1, p.2.toRun)) trailing = logOf blocks trailing
      ∧ Survives (blocks.map fun p => (p.1, p.2.toRun)) trailing := by
  constructor
  · simp only [runsLog, List.flatMap_map, text_toRun]
    rfl
  · apply survives_of_clean
    intro p hp
    obtain ⟨b, -, rfl⟩ := List.mem_map.mp hp
    exact ⟨[Event.summary .rule], by simp [Block.toRun]⟩

/-- `--name=a --sub=topic`, everything else at its default. -/
def subscriberConfig : Configuration :=
  ⟨"localhost:1883".toList, ['a'], [], "topic".toList, 10000, 20, 64, 1, 0, 0⟩

/-- The output of `hc-1` when its subscription is refused. -/
def refusedRun : Run where
  node := ⟨['1'], by simp, List.forall_mem_singleton.mpr rfl⟩
  config := subscriberConfig
  mean := 0
  stdDev := 0
  kept := []
  events := [.failed .subscribe (-1)]
  brokerLine := by decide
  clientLine := by decide
  pubLine := by decide
  subLine := by decide
  logDisabled := rfl
  printed := ⟨_, rfl⟩
  noticed := List.pairwise_singleton ..
  cut := .inr ⟨_, List.mem_cons_self, rfl⟩

/-- The output of `hc-2` when all goes well. -/
def completeBlock : Block where
  node := ⟨['2'], by simp, List.forall_mem_singleton.mpr rfl⟩
  config := subscriberConfig
  mean := 6
  stdDev := 1
  kept := [5, 7]
  brokerLine := by decide
  clientLine := by decide
  pubLine := by decide
  subLine := by decide
  logDisabled := rfl
  keptLt := by simp

/-- On `hc-1` the subscription is refused, `hc-2` reports two samples: the
line counted from the first tag is a line of the second block that holds no
data, and nothing at all is collected. -/
theorem refused_subscription_loses_the_rest :
    aggData (runsLog [(0, refusedRun), (0, completeBlock.toRun)] 1) = .error .attributeError
    ∧ ¬ Survives [(0, refusedRun), (0, completeBlock.toRun)] 1 := by
  constructor
  · rfl
  · intro h
    have hfirst := h.clean _ List.mem_cons_self
    revert hfirst
    decide

end MqttBenchmark.Report
