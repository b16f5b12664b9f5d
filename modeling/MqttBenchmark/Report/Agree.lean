/-
  MqttBenchmark.Report.Agree
  ──────────────────────────
  **WHAT IS PRINTED IS WHAT IS COLLECTED.**

  A log is a list of blocks, each one run's output with the deployer's tag
  in front of its first line, with empty lines anywhere between them.

    • `Block` — one block, well formed by construction,
    • `blockLines` — its 19 lines; the data line is the 17th,
    • `aggData_log` — the dictionary collected from a log is the list of
      blocks grouped by node.
-/
import MqttBenchmark.Report.Def

namespace MqttBenchmark.Report

open Lib

/-! ## §1. Blocks and logs. -/

/-- A node name `hc-<digits>`. -/
structure Node where
  digits : Text
  nonempty : digits ≠ []
  isDigit : ∀ c ∈ digits, Text.isDigit c = true

def Node.name (n : Node) : Text := 'h' :: 'c' :: '-' :: n.digits

/-- What the deployer puts in front of the first line. -/
def Node.tag (n : Node) : Text := '[' :: (n.name ++ [']'])

/-- One run's output: a configuration without line breaks in its strings and
without `--log`, and the statistics over the samples kept. -/
structure Block where
  node : Node
  config : Configuration
  mean : UInt32
  stdDev : UInt32
  kept : List UInt32
  brokerLine : Text.IsLine config.broker
  clientLine : Text.IsLine config.clientId
  pubLine : Text.IsLine config.pubarg
  subLine : Text.IsLine config.subarg
  logDisabled : config.logEnable = 0
  keptLt : ∀ x ∈ kept, x.toNat < 2 ^ 31

namespace Block

/-- The text of a block. -/
def text (b : Block) : Text :=
  b.node.tag ++ printConfiguration b.config ++ printSummary b.mean b.stdDev b.kept

/-- The samples of a block as numbers. -/
def samples (b : Block) : List Int := b.kept.map fun x => (x.toNat : Int)

/-- The line the samples are on. -/
def dataLine (b : Block) : Text :=
  "Data Pts: ".toList ++ b.kept.flatMap (fun x => printD x ++ [','])

/-- The first line. -/
def tagLine (b : Block) : Text := b.node.tag ++ "----- Configuration -----".toList

/-- The configuration lines after the first. -/
def configurationLines (c : Configuration) : List Text :=
  ["  Broker        : ".toList ++ c.broker,
    "  Client        : ".toList ++ c.clientId,
    "  Pubtopics     : ".toList ++ c.pubarg,
    "  Subtopics     : ".toList ++ c.subarg,
    "  Msg Interval  : ".toList ++ printD c.msgInterval,
    "  Iterations    : ".toList ++ printD c.maxIter,
    "  Msg Size      : ".toList ++ printD c.payloadSize,
    "  QOS           : ".toList ++ printD c.qos,
    "  Drop          : ".toList ++ printD c.dropRatio,
    "  Log           : ".toList ++ printD c.logEnable,
    "-------------------------".toList]

/-- The lines of the summary. -/
def summaryLines (b : Block) : List Text :=
  [[],
    "-- SUMMARY STATS --".toList,
    "Mean-RTT: ".toList ++ printU b.mean,
    "Std-Dev: ".toList ++ printU b.stdDev,
    b.dataLine,
    "-------------------".toList,
    []]

/-- The lines after the first. -/
def restLines (b : Block) : List Text := configurationLines b.config ++ b.summaryLines

theorem printConfiguration_eq (c : Configuration) :
    printConfiguration c
      = Text.unlines ("----- Configuration -----".toList :: configurationLines c) := by
  simp only [printConfiguration, configurationLines, printLine, Text.unlines_cons,
    Text.unlines_nil, List.append_assoc, List.append_nil, List.nil_append, List.cons_append]

theorem printSummary_eq (b : Block) :
    printSummary b.mean b.stdDev b.kept = Text.unlines b.summaryLines := by
  unfold printSummary summaryLines dataLine printLine
  simp only [Text.unlines_cons, Text.unlines_nil, List.append_assoc, List.append_nil,
    List.nil_append, List.cons_append]

/-- **The layout of a block**: two C functions print 19 lines. -/
theorem text_eq (b : Block) : b.text = Text.unlines (b.tagLine :: b.restLines) := by
  rw [text, printConfiguration_eq, printSummary_eq, Text.unlines_cons, Text.unlines_cons,
    tagLine, restLines, Text.unlines_append]
  generalize "----- Configuration -----".toList = label
  simp only [List.append_assoc, List.cons_append]

end Block

/-- A log: before each block some empty lines, and some at the end. -/
def logOf (blocks : List (Nat × Block)) (trailing : Nat) : Text :=
  blocks.flatMap (fun p => List.replicate p.1 '\n' ++ p.2.text) ++ List.replicate trailing '\n'

/-- The lines of a log. -/
def logLines (blocks : List (Nat × Block)) (trailing : Nat) : List Text :=
  blocks.flatMap (fun p => List.replicate p.1 [] ++ p.2.tagLine :: p.2.restLines)
    ++ List.replicate trailing []

theorem unlines_replicate (n : Nat) : Text.unlines (List.replicate n []) = List.replicate n '\n' := by
  induction n with
  | zero => rfl
  | succ n ih => rw [List.replicate_succ, Text.unlines_cons, ih]; rfl

/-- Texts made of lines, with empty lines around them. -/
theorem gapped_eq_unlines {β : Type} {text : β → Text} {lines : β → List Text}
    (h : ∀ b, text b = Text.unlines (lines b)) (items : List (Nat × β)) (trailing : Nat) :
    items.flatMap (fun p => List.replicate p.1 '\n' ++ text p.2) ++ List.replicate trailing '\n'
      = Text.unlines (items.flatMap (fun p => List.replicate p.1 [] ++ lines p.2)
          ++ List.replicate trailing []) := by
  rw [Text.unlines_append, unlines_replicate]
  congr 1
  induction items with
  | nil => rfl
  | cons p items ih =>
      rw [List.flatMap_cons, List.flatMap_cons, Text.unlines_append, Text.unlines_append,
        unlines_replicate, ih, h]

theorem logOf_eq (blocks : List (Nat × Block)) (trailing : Nat) :
    logOf blocks trailing = Text.unlines (logLines blocks trailing) :=
  gapped_eq_unlines Block.text_eq blocks trailing

/-- A line of a log is a line of one of its texts, or empty. -/
theorem mem_gapped {β : Type} (lines : β → List Text) {items : List (Nat × β)} {trailing : Nat}
    {l : Text} (hl : l ∈ items.flatMap (fun p => List.replicate p.1 [] ++ lines p.2)
      ++ List.replicate trailing []) : (∃ p ∈ items, l ∈ lines p.2) ∨ l = [] := by
  rcases List.mem_append.mp hl with hl | hl
  · obtain ⟨p, hp, hl⟩ := List.mem_flatMap.mp hl
    rcases List.mem_append.mp hl with hl | hl
    · exact .inr (List.eq_of_mem_replicate hl)
    · exact .inl ⟨p, hp, hl⟩
  · exact .inr (List.eq_of_mem_replicate hl)

/-! ## §2. No line of a log is broken again. -/

theorem isLine_formatInt (z : Int) : Text.IsLine (Text.formatInt z) := by
  apply Text.isLine_of_forall (p := fun d => d.isDigit || d == '-') (by decide)
  intro c hc
  rcases Text.mem_formatInt hc with hd | rfl
  · rw [hd]
    rfl
  · rfl

theorem isLine_tag (n : Node) : Text.IsLine n.tag := by
  have hhead : Text.IsLine ['[', 'h', 'c', '-'] := by decide
  have hdigits : Text.IsLine n.digits := Text.isLine_of_forall (by decide) n.isDigit
  have htail : Text.IsLine [']'] := by decide
  exact hhead.append (hdigits.append htail)

namespace Block

theorem isLine_tagLine (b : Block) : Text.IsLine b.tagLine :=
  (isLine_tag b.node).append (by decide)

/-- What the reader takes for a line of its own without a tag. -/
def Plain (l : Text) : Prop := Text.IsLine l ∧ matchTag l = none

/-- A line that does not begin with a bracket has no tag. -/
theorem plain_of_head {l : Text} (hline : Text.IsLine l) (hhead : l.head? ≠ some '[') : Plain l := by
  refine ⟨hline, ?_⟩
  -- the tag pattern begins with `[`
  unfold matchTag
  split
  next => exact absurd rfl hhead
  next => rfl

/-- A labelled line is plain when its label is. -/
theorem plain_labelled {label value : Text} (hline : Text.IsLine label)
    (hhead : label.head?.any (· != '[') = true) (hvalue : Text.IsLine value) :
    Plain (label ++ value) := by
  cases label with
  | nil => cases hhead
  | cons c cs =>
      apply plain_of_head (hline.append hvalue)
      rw [List.cons_append, List.head?_cons]
      intro heq
      injection heq with heq
      subst heq
      cases hhead

theorem isLine_fields (kept : List UInt32) :
    Text.IsLine (kept.flatMap fun x => printD x ++ [',']) := by
  intro c hc
  obtain ⟨x, -, hx⟩ := List.mem_flatMap.mp hc
  have hcomma : Text.IsLine [','] := by decide
  exact (isLine_formatInt _).append hcomma c hx

theorem plain_configurationLines {config : Configuration} (hbroker : Text.IsLine config.broker)
    (hclient : Text.IsLine config.clientId) (hpub : Text.IsLine config.pubarg)
    (hsub : Text.IsLine config.subarg) : ∀ l ∈ configurationLines config, Plain l := by
  intro l hl
  simp only [configurationLines, List.mem_cons, List.not_mem_nil, or_false] at hl
  rcases hl with rfl | rfl | rfl | rfl | rfl | rfl | rfl | rfl | rfl | rfl | rfl
  · exact plain_labelled (by decide) (by decide) hbroker
  · exact plain_labelled (by decide) (by decide) hclient
  · exact plain_labelled (by decide) (by decide) hpub
  · exact plain_labelled (by decide) (by decide) hsub
  · exact plain_labelled (by decide) (by decide) (isLine_formatInt _)
  · exact plain_labelled (by decide) (by decide) (isLine_formatInt _)
  · exact plain_labelled (by decide) (by decide) (isLine_formatInt _)
  · exact plain_labelled (by decide) (by decide) (isLine_formatInt _)
  · exact plain_labelled (by decide) (by decide) (isLine_formatInt _)
  · exact plain_labelled (by decide) (by decide) (isLine_formatInt _)
  · exact plain_of_head (by decide) (by decide)

/-- The lines `summary_stats` prints are plain. -/
theorem plain_summary (mean stdDev : UInt32) (kept : List UInt32) :
    ∀ l ∈ [[], "-- SUMMARY STATS --".toList, "Mean-RTT: ".toList ++ printU mean,
      "Std-Dev: ".toList ++ printU stdDev,
      "Data Pts: ".toList ++ kept.flatMap (fun x => printD x ++ [',']),
      "-------------------".toList, []], Plain l := by
  intro l hl
  simp only [List.mem_cons, List.not_mem_nil, or_false] at hl
  rcases hl with rfl | rfl | rfl | rfl | rfl | rfl | rfl
  · exact plain_of_head (by decide) (by decide)
  · exact plain_of_head (by decide) (by decide)
  · exact plain_labelled (by decide) (by decide) (isLine_formatInt _)
  · exact plain_labelled (by decide) (by decide) (isLine_formatInt _)
  · exact plain_labelled (by decide) (by decide) (isLine_fields kept)
  · exact plain_of_head (by decide) (by decide)
  · exact plain_of_head (by decide) (by decide)

theorem plain_restLines (b : Block) : ∀ l ∈ b.restLines, Plain l := by
  intro l hl
  rcases List.mem_append.mp hl with hl | hl
  · exact plain_configurationLines b.brokerLine b.clientLine b.pubLine b.subLine l hl
  · exact plain_summary b.mean b.stdDev b.kept l hl

end Block

/-- **A log splits into the lines that were printed.** -/
theorem splitlines_log (blocks : List (Nat × Block)) (trailing : Nat) :
    Text.splitlines (logOf blocks trailing) = logLines blocks trailing := by
  rw [logOf_eq]
  apply Text.splitlines_unlines
  intro l hl
  -- a line of a block or of the empty lines before and after
  rcases mem_gapped (fun b : Block => b.tagLine :: b.restLines) hl with ⟨p, -, hl⟩ | rfl
  · rcases List.mem_cons.mp hl with rfl | hl
    · exact p.2.isLine_tagLine
    · exact (p.2.plain_restLines l hl).1
  · decide

/-! ## §3. Tags. -/

/-- The tag of a line is the node in front of it. -/
theorem matchTag_tag (n : Node) (rest : Text) : matchTag (n.tag ++ rest) = some n.name := by
  have hbracket : Text.isDigit ']' = false := by decide
  show (let digits := (n.digits ++ [']'] ++ rest).takeWhile Text.isDigit
        if digits ≠ [] ∧ ((n.digits ++ [']'] ++ rest).dropWhile Text.isDigit).head? = some ']' then
          some ('h' :: 'c' :: '-' :: digits) else none) = _
  rw [List.append_assoc, List.singleton_append,
    List.takeWhile_append_of_pos n.isDigit, List.dropWhile_append_of_pos n.isDigit,
    List.takeWhile_cons_of_neg (by rw [hbracket]; simp),
    List.dropWhile_cons_of_neg (by rw [hbracket]; simp), List.append_nil]
  simp only [List.head?_cons, and_true]
  rw [if_pos n.nonempty]
  rfl

/-! ## §4. The loop. -/

/-- Lines without a tag are skipped. -/
theorem aggDataFrom_skip {ls : List Text} (h : ∀ l ∈ ls, matchTag l = none) (rest : List Text)
    (agg : OrderedDict Text (List Int)) : aggDataFrom (ls ++ rest) agg = aggDataFrom rest agg := by
  induction ls with
  | nil => rfl
  | cons l ls ih =>
      rw [List.cons_append, aggDataFrom, h l List.mem_cons_self]
      exact ih fun m hm => h m (List.mem_cons_of_mem _ hm)

/-- `%d` and `int` agree on every sample, read as a signed number. -/
theorem astypeInt_printD (x : UInt32) : astypeInt (printD x) = .ok x.toInt32.toInt := by
  have hlt := x.toBitVec.toInt_lt
  have hle := x.toBitVec.le_toInt
  have hint : x.toInt32.toInt = x.toBitVec.toInt := rfl
  unfold astypeInt printD
  rw [Text.parseInt_formatInt]
  show (if _ then _ else _) = _
  rw [if_pos (by omega)]

/-- A double holds every sample exactly. -/
theorem toDouble_of_lt {z : Int} (h : z.natAbs < 2 ^ 53) : toDouble z = z := by
  -- below 2 ^ 53 the exponent is 0 and nothing is rounded
  have hlog : Nat.log2 z.natAbs - 52 = 0 := by
    rcases Nat.eq_zero_or_pos z.natAbs with hzero | hpos
    · rw [hzero]
      rfl
    · have hlt : Nat.log2 z.natAbs < 53 := (Nat.log2_lt (by omega)).mpr h
      omega
  unfold toDouble
  simp only [hlog, Nat.pow_zero, Nat.mod_one, Nat.div_one, Nat.mul_one, Nat.mul_zero,
    Nat.zero_lt_one, true_or, if_true]
  exact Int.sign_mul_natAbs z

/-- What `%d` prints of a sample. -/
def signedSamples (kept : List UInt32) : List Int := kept.map fun x => x.toInt32.toInt

theorem toDouble_signedSamples (kept : List UInt32) :
    (signedSamples kept).map toDouble = signedSamples kept := by
  unfold signedSamples
  rw [List.map_map]
  apply List.map_congr_left
  intro x _
  show toDouble x.toInt32.toInt = x.toInt32.toInt
  apply toDouble_of_lt
  have hlt := x.toBitVec.toInt_lt
  have hle := x.toBitVec.le_toInt
  have hint : x.toInt32.toInt = x.toBitVec.toInt := rfl
  omega

/-- **The print/parse round trip of the samples.** -/
theorem dataNode_printed (kept : List UInt32) :
    dataNode ("Data Pts: ".toList ++ kept.flatMap (fun x => printD x ++ [',']))
      = .ok (signedSamples kept) := by
  -- a printed number has no comma of its own
  have hcomma : ∀ f ∈ kept.map printD, ',' ∉ f := by
    intro f hf hmem
    obtain ⟨x, -, rfl⟩ := List.mem_map.mp hf
    rcases Text.mem_formatInt hmem with hd | hd
    · exact absurd hd (by decide)
    · exact absurd hd (by decide)
  have hsplit := Text.splitOn_terminated hcomma [] List.not_mem_nil
  rw [List.append_nil, List.flatMap_map] at hsplit
  unfold dataNode
  rw [Text.afterFirst_append]
  show ((List.splitOn ',' (kept.flatMap fun x => printD x ++ [','])).dropLast).mapM astypeInt = _
  rw [hsplit, List.dropLast_concat]
  clear hsplit hcomma
  induction kept with
  | nil => rfl
  | cons x xs ih =>
      rw [List.map_cons, List.mapM_cons, astypeInt_printD, ih]
      rfl

/-- Up to `2 ^ 31` the samples are printed as they are. -/
theorem signedSamples_kept (b : Block) : signedSamples b.kept = b.samples :=
  List.map_congr_left fun x hx => toInt32_of_lt (b.keptLt x hx)

/-- **Printed samples are collected** under the tag they are counted from. -/
theorem aggDataFrom_printed {line node : Text} {lines rest : List Text} (kept : List UInt32)
    (htag : matchTag line = some node)
    (hline : (line :: (lines ++ rest))[offset]?
      = some ("Data Pts: ".toList ++ kept.flatMap fun x => printD x ++ [',']))
    (hplain : ∀ l ∈ lines, matchTag l = none) (agg : OrderedDict Text (List Int)) :
    aggDataFrom (line :: (lines ++ rest)) agg
      = aggDataFrom rest (agg.extend node (signedSamples kept)) := by
  have hdata := dataNode_printed kept
  -- from here on the text of the data line does not matter
  generalize "Data Pts: ".toList ++ kept.flatMap (fun x => printD x ++ [',']) = dataLine
    at hline hdata
  rw [aggDataFrom, htag]
  simp only [hline, hdata]
  show aggDataFrom (lines ++ rest) (agg.extend node ((signedSamples kept).map toDouble)) = _
  rw [toDouble_signedSamples, aggDataFrom_skip hplain]

/-- **One block adds its samples to its node**, whatever follows. -/
theorem aggDataFrom_block (b : Block) (rest : List Text) (agg : OrderedDict Text (List Int)) :
    aggDataFrom (b.tagLine :: (b.restLines ++ rest)) agg
      = aggDataFrom rest (agg.extend b.node.name b.samples) := by
  -- the data line stands at the fixed offset, whatever the values printed
  have hline : (b.tagLine :: (b.restLines ++ rest))[offset]? = some b.dataLine := rfl
  rw [← signedSamples_kept]
  exact aggDataFrom_printed b.kept (matchTag_tag b.node _) hline
    (fun l hl => (b.plain_restLines l hl).2) agg

/-- Empty lines have no tag. -/
theorem matchTag_gap (n : Nat) : ∀ l ∈ List.replicate n ([] : Text), matchTag l = none := by
  intro l hl
  rw [List.eq_of_mem_replicate hl]
  rfl

/-- The blocks of a log, one after the other. -/
theorem aggDataFrom_log (blocks : List (Nat × Block)) (trailing : Nat)
    (agg : OrderedDict Text (List Int)) :
    aggDataFrom (logLines blocks trailing) agg
      = .ok (agg.extendAll (blocks.map fun p => (p.2.node.name, p.2.samples))) := by
  induction blocks generalizing agg with
  | nil =>
      unfold logLines
      rw [List.flatMap_nil, List.nil_append]
      have hskip := aggDataFrom_skip (matchTag_gap trailing) [] agg
      rw [List.append_nil] at hskip
      rw [hskip]
      rfl
  | cons p blocks ih =>
      have hlines : logLines (p :: blocks) trailing
          = List.replicate p.1 [] ++ (p.2.tagLine :: (p.2.restLines ++ logLines blocks trailing)) := by
        simp only [logLines, List.flatMap_cons, List.append_assoc, List.cons_append]
      rw [hlines, aggDataFrom_skip (matchTag_gap p.1), aggDataFrom_block, ih]
      rfl

/-- The data collected from the output of one run. -/
theorem aggData_text (b : Block) :
    ∃ agg, aggData b.text = .ok agg ∧ agg.get b.node.name = some b.samples := by
  have hlog : b.text = logOf [(0, b)] 0 := by
    unfold logOf
    rw [List.flatMap_singleton, List.replicate_zero, List.nil_append, List.append_nil]
  refine ⟨OrderedDict.empty.extend b.node.name b.samples, ?_, ?_⟩
  · unfold aggData
    rw [hlog, splitlines_log, aggDataFrom_log]
    rfl
  · unfold OrderedDict.get
    show Option.map Prod.snd (List.find? _ [(b.node.name, b.samples)]) = _
    simp only [List.find?_cons, decide_true, Option.map_some]

/-- **What is collected is what was printed.**  For every list of blocks and
any number of empty lines around them, `extract_results` collects without an
exception, for each node in order of first occurrence, exactly the samples of
the blocks of that node in the order of the log. -/
theorem aggData_log (blocks : List (Nat × Block)) (trailing : Nat) :
    ∃ agg, aggData (logOf blocks trailing) = .ok agg
      ∧ agg.entries = (blocks.map fun p => p.2.node.name).eraseDups.map fun node =>
          (node, (blocks.filter fun p => p.2.node.name = node).flatMap fun p => p.2.samples) := by
  refine ⟨OrderedDict.extendAll OrderedDict.empty
    (blocks.map fun p => (p.2.node.name, p.2.samples)), ?_, ?_⟩
  · unfold aggData
    rw [splitlines_log, aggDataFrom_log]
  · have hkeys : OrderedDict.keysOf (blocks.map fun p => (p.2.node.name, p.2.samples))
        = (blocks.map fun p => p.2.node.name).eraseDups := by
      unfold OrderedDict.keysOf
      rw [List.map_map]
      congr 1
      exact lawful_beq_subsingleton _ _
    rw [OrderedDict.extendAll_entries, OrderedDict.grouped, hkeys]
    apply List.map_congr_left
    intro node _
    rw [OrderedDict.itemsOf, List.filter_map, List.flatMap_map]
    rfl

end MqttBenchmark.Report
