/-
  MqttBenchmark.Args.Listed
  ─────────────────────────
  **THE TOPICS OF A COMMAND LINE, AS THE THREADS FIND THEM.**

  `PUBS` and `SUBS` are filled by any number of options, in any order among
  the others.

    • `Globals.config` — what the threads read of the globals,
    • `Listed` — an array, its counter and the string printed for it,
    • `topics_listed` — the arrays after `parse_args`, and that no thread is
      created with a `NULL` topic.
-/
import MqttBenchmark.Args.Safety
import MqttBenchmark.Process.Frames

namespace MqttBenchmark.Args

open Lib Lib.System

/-! ## §1. What the threads read. -/

/-- A topic as text: one character for each byte, whatever the bytes encode. -/
def topicName (topic : CString) : String := String.ofList (topic.bytes.map Getopt.letter)

/-- The topics in front of the counter. -/
def Topics.names (topics : Topics) : List String :=
  (topics.buf.take topics.ct).map fun cell => (cell.map topicName).getD ""

/-- The globals that the threads read. -/
def Globals.config (g : Globals) : Config where
  clientId := g.clientId
  pubs := g.pubs.names
  subs := g.subs.names
  maxIter := g.maxIter
  payloadSize := g.payloadSize
  qos := g.qos

theorem Topics.names_holding {topics : List CString} (hle : topics.length ≤ maxTopics) :
    (Topics.holding topics).names = topics.map topicName := by
  have htake := take_slots (n := maxTopics) (topics.map some) none (by rw [List.length_map]; exact hle)
  rw [List.length_map] at htake
  rw [Topics.names, Topics.holding]
  simp only [htake, List.map_map]
  rfl

/-- `PUBS[0]` is the first topic, or `NULL`. -/
theorem Topics.first_holding (topics : List CString) : (Topics.holding topics).first = topics.head? := by
  have hcell := slots_getElem? (topics.map some) none (show 0 < maxTopics by decide)
  rw [Topics.first, Topics.holding, List.head?_eq_getElem?, hcell]
  cases topics <;> rfl

/-! ## §2. How `parse_args` ends. -/

/-- The arguments of an option, in order. -/
def argsOf (opt : Char) (argv : List CString) : List CString := (calls argv).filterMap (argOf opt)

theorem looped_of_returned {argv : List CString} {g : Globals} (h : parseArgs argv = .returned g) :
    Looped Globals.initial g [] [] (calls argv) := by
  unfold parseArgs at h
  split at h
  next => cases h
  next => cases h
  next g' hrun =>
    split at h
    next => cases h
    next =>
      cases h
      exact foldlM_parseCall holds_initial hrun

/-- **A careful command line without `--help` is parsed to its end.** -/
theorem parseArgs_of_careful {argv : List CString} (hstays : ∀ c ∈ calls argv, exits c = false)
    (hcareful : Careful argv) :
    ∃ g, Looped Globals.initial g [] [] (calls argv)
      ∧ parseArgs argv = if g.pubs.first = none ∧ g.subs.first = none then .noTopics else .returned g := by
  have hfault := (foldlM_no_fault_iff holds_initial (calls argv)).mpr hcareful
  cases hrun : (calls argv).foldlM parseCall Globals.initial with
  | error stop =>
      exfalso
      cases stop with
      | usage =>
          obtain ⟨c, hc, hexits⟩ := exists_exits_of_usage holds_initial hrun
          rw [hstays c hc] at hexits
          cases hexits
      | fault f => exact hfault f hrun
  | ok g =>
      refine ⟨g, foldlM_parseCall holds_initial hrun, ?_⟩
      unfold parseArgs
      rw [hrun]

/-! ## §3. The arrays. -/

/-- The array, the counter and the printed string for the arguments of one
option: its fields in order, `NULL` behind them, the last argument. -/
structure Listed (topics : Topics) (printed : CString) (args : List CString) : Prop where
  count : topics.ct = (args.flatMap topicFields).length
  cell : ∀ i < maxTopics, topics.buf[i]? = some (args.flatMap topicFields)[i]?
  printed : printed = args.getLastD emptyString
  first : 0 < topics.ct ↔ topics.first ≠ none

theorem listed_holding (args : List CString) :
    Listed (.holding (args.flatMap topicFields)) (args.getLastD emptyString) args := by
  refine ⟨rfl, ?_, rfl, ?_⟩
  · intro i hi
    rw [Topics.holding]
    simp only [slots_getElem? _ _ hi, List.getD_eq_getElem?_getD, List.getElem?_map]
    cases (args.flatMap topicFields)[i]? <;> rfl
  · rw [Topics.first_holding, Topics.holding, List.length_pos_iff, Ne, Ne, List.head?_eq_none_iff]

theorem Looped.listed {argv : List CString} {g : Globals}
    (h : Looped Globals.initial g [] [] (calls argv)) :
    Listed g.pubs g.pubarg (argsOf 'u' argv) ∧ Listed g.subs g.subarg (argsOf 't' argv) := by
  rw [h.holds.pubs, h.holds.subs, h.pubarg, h.subarg]
  exact ⟨listed_holding _, listed_holding _⟩

theorem Looped.config {argv : List CString} {g : Globals}
    (h : Looped Globals.initial g [] [] (calls argv)) :
    g.config.pubs = ((argsOf 'u' argv).flatMap topicFields).map topicName
      ∧ g.config.subs = ((argsOf 't' argv).flatMap topicFields).map topicName := by
  refine ⟨?_, ?_⟩
  · show g.pubs.names = _
    rw [h.holds.pubs, Topics.names_holding h.holds.pubsLe]
    rfl
  · show g.subs.names = _
    rw [h.holds.subs, Topics.names_holding h.holds.subsLe]
    rfl

/-- With a topic in front of the counter there is one in cell 0. -/
theorem Looped.first_ne_none {argv : List CString} {g : Globals}
    (h : Looped Globals.initial g [] [] (calls argv)) :
    (0 < g.config.numPubs → g.pubs.first ≠ none) ∧ (0 < g.config.numSubs → g.subs.first ≠ none) := by
  obtain ⟨hpubs, hsubs⟩ := h.listed
  obtain ⟨hpubNames, hsubNames⟩ := h.config
  unfold Config.numPubs Config.numSubs
  rw [hpubNames, hsubNames, List.length_map, List.length_map, ← hpubs.count, ← hsubs.count]
  exact ⟨hpubs.first.mp, hsubs.first.mp⟩

/-! ## §4. Command lines of topics. -/

/-- The options with a topic list. -/
inductive TopicOption where
  | pub
  | sub
  deriving DecidableEq, Repr

/-- Its entry of `long_options`. -/
def TopicOption.entry : TopicOption → LongOption
  | .pub => pubOption
  | .sub => subOption

theorem TopicOption.takesArg (o : TopicOption) : Getopt.TakesArg longOptions o.entry := by
  cases o with
  | pub => exact ⟨rfl, by decide, by decide⟩
  | sub => exact ⟨rfl, by decide, by decide⟩

/-- `./benchmark --pub=.. --sub=.. ..`, in any number and order. -/
def topicLine (opts : List (TopicOption × CString)) : List CString :=
  program :: opts.map fun p => Getopt.longArg p.1.entry p.2

/-- The arguments of one of the options. -/
def valuesOf (o : TopicOption) (opts : List (TopicOption × CString)) : List CString :=
  (opts.filter fun p => p.1 = o).map Prod.snd

variable {opts : List (TopicOption × CString)}

theorem calls_topicLine (opts : List (TopicOption × CString)) :
    calls (topicLine opts) = opts.map fun p => .option p.1.entry.val (some p.2) := by
  have hmap : opts.map (fun p => Getopt.longArg p.1.entry p.2)
      = (opts.map fun p => (p.1.entry, p.2)).map fun p => Getopt.longArg p.1 p.2 := by
    rw [List.map_map]
    rfl
  rw [calls, topicLine, List.drop_succ_cons, List.drop_zero, hmap, Getopt.getoptLong_longs]
  · rw [List.map_map]
    rfl
  · intro p hp
    obtain ⟨q, -, rfl⟩ := List.mem_map.mp hp
    exact q.1.takesArg

theorem argOf_entry (o q : TopicOption) (arg : CString) :
    argOf o.entry.val (.option q.entry.val (some arg)) = if q = o then some arg else none := by
  cases o <;> cases q <;> rfl

theorem argsOf_topicLine (o : TopicOption) (opts : List (TopicOption × CString)) :
    argsOf o.entry.val (topicLine opts) = valuesOf o opts := by
  rw [argsOf, calls_topicLine, List.filterMap_map, valuesOf]
  induction opts with
  | nil => rfl
  | cons p opts ih =>
      have hfirst : (argOf o.entry.val ∘ fun q : TopicOption × CString =>
          Call.option q.1.entry.val (some q.2)) p = if p.1 = o then some p.2 else none :=
        argOf_entry o p.1 p.2
      by_cases hp : p.1 = o
      · rw [if_pos hp] at hfirst
        rw [List.filterMap_cons_some hfirst, ih, List.filter_cons_of_pos (by simpa using hp)]
        rfl
      · rw [if_neg hp] at hfirst
        rw [List.filterMap_cons_none hfirst, ih, List.filter_cons_of_neg (by simpa using hp)]

/-- No round of such a command line prints the usage, or lacks its argument. -/
theorem calls_topicLine_careful (hpubs : ((valuesOf .pub opts).flatMap topicFields).length ≤ maxTopics)
    (hsubs : ((valuesOf .sub opts).flatMap topicFields).length ≤ maxTopics) :
    (∀ c ∈ calls (topicLine opts), exits c = false) ∧ Careful (topicLine opts) := by
  have hstays : ∀ c ∈ calls (topicLine opts), exits c = false := by
    intro c hc
    rw [calls_topicLine] at hc
    obtain ⟨p, -, rfl⟩ := List.mem_map.mp hc
    cases p.1 <;> rfl
  have hacted : acted (calls (topicLine opts)) = calls (topicLine opts) := by
    rw [acted, List.takeWhile_eq_self_iff]
    intro c hc
    simp [hstays c hc]
  refine ⟨hstays, ?_⟩
  constructor
  all_goals rw [hacted]
  · intro c hc heq
    rw [calls_topicLine] at hc
    obtain ⟨p, -, rfl⟩ := List.mem_map.mp hc
    cases heq
  · intro o ho
    rw [calls_topicLine] at ho
    obtain ⟨p, -, heq⟩ := List.mem_map.mp ho
    cases heq
  · rw [← argsOf_topicLine] at hpubs
    exact hpubs
  · rw [← argsOf_topicLine] at hsubs
    exact hsubs

/-- A list of arguments has a field when one of them has. -/
theorem flatMap_eq_nil_iff (opts : List (TopicOption × CString)) :
    ((valuesOf .pub opts).flatMap topicFields = [] ∧ (valuesOf .sub opts).flatMap topicFields = [])
      ↔ ∀ p ∈ opts, topicFields p.2 = [] := by
  simp only [List.flatMap_eq_nil_iff, valuesOf, List.mem_map, List.mem_filter, decide_eq_true_eq]
  constructor
  · intro h p hp
    cases ho : p.1 with
    | pub => exact h.1 _ ⟨p, ⟨hp, ho⟩, rfl⟩
    | sub => exact h.2 _ ⟨p, ⟨hp, ho⟩, rfl⟩
  · intro h
    constructor
    · intro arg harg
      obtain ⟨p, hp, rfl⟩ := harg
      exact h p hp.1
    · intro arg harg
      obtain ⟨p, hp, rfl⟩ := harg
      exact h p hp.1

theorem Looped.listed_topicLine {g : Globals}
    (h : Looped Globals.initial g [] [] (calls (topicLine opts))) :
    Listed g.pubs g.pubarg (valuesOf .pub opts) ∧ Listed g.subs g.subarg (valuesOf .sub opts) := by
  rw [← argsOf_topicLine, ← argsOf_topicLine]
  exact h.listed

/-- **A command line of topics** is refused without a field, and parsed to its
end with one. -/
theorem parseArgs_topicLine (opts : List (TopicOption × CString))
    (hpubs : ((valuesOf .pub opts).flatMap topicFields).length ≤ maxTopics)
    (hsubs : ((valuesOf .sub opts).flatMap topicFields).length ≤ maxTopics) :
    ∃ g, Looped Globals.initial g [] [] (calls (topicLine opts))
      ∧ parseArgs (topicLine opts)
        = if ∀ p ∈ opts, topicFields p.2 = [] then .noTopics else .returned g := by
  obtain ⟨hstays, hcareful⟩ := calls_topicLine_careful hpubs hsubs
  obtain ⟨g, hlooped, hparse⟩ := parseArgs_of_careful hstays hcareful
  have hlisted := hlooped.listed_topicLine
  have hfirst : (g.pubs.first = none ∧ g.subs.first = none) ↔ ∀ p ∈ opts, topicFields p.2 = [] := by
    rw [← flatMap_eq_nil_iff, ← List.length_eq_zero_iff, ← List.length_eq_zero_iff,
      ← hlisted.1.count, ← hlisted.2.count, ← Nat.le_zero, ← Nat.le_zero, ← Nat.not_lt,
      ← Nat.not_lt, hlisted.1.first, hlisted.2.first, not_not, not_not]
  refine ⟨g, hlooped, ?_⟩
  rw [hparse]
  simp only [hfirst]

/-- **THE TOPICS OF A COMMAND LINE.**  For every sequence of `--pub` and
`--sub` arguments with at most `MAX_TOPICS` fields each, `parse_args` returns
as soon as there is a field, with the fields of each option in its array in
order, `NULL` behind them, and the last argument unmodified.  Among any other
options it is the same whenever `parse_args` returns, and no thread is then
created with a `NULL` topic. -/
theorem topics_listed {ι : Type} (o : ByteOrder) :
    (∀ opts : List (TopicOption × CString),
      ((valuesOf .pub opts).flatMap topicFields).length ≤ maxTopics →
      ((valuesOf .sub opts).flatMap topicFields).length ≤ maxTopics →
      ((∀ p ∈ opts, topicFields p.2 = []) → parseArgs (topicLine opts) = .noTopics)
      ∧ ((∃ p ∈ opts, topicFields p.2 ≠ []) → ∃ g, parseArgs (topicLine opts) = .returned g
        ∧ Listed g.pubs g.pubarg (valuesOf .pub opts)
        ∧ Listed g.subs g.subarg (valuesOf .sub opts)))
    ∧ (∀ argv g, parseArgs argv = .returned g →
      Listed g.pubs g.pubarg (argsOf 'u' argv) ∧ Listed g.subs g.subarg (argsOf 't' argv)
      ∧ ∀ s : Process.State ι, (Process.system o g.config).Reachable s →
        (∀ i, (s.pubs i).pc ≠ .absent → g.pubs.first ≠ none)
        ∧ (∀ i, s.subs i ≠ .absent → g.subs.first ≠ none))
    ∧ ∀ arg : CString, (topicFields arg).map CString.bytes
      = (arg.bytes.splitOnP isComma).filter (!·.isEmpty) := by
  refine ⟨?_, ?_, bytes_topicFields⟩
  · intro opts hpubs hsubs
    obtain ⟨g, hlooped, hparse⟩ := parseArgs_topicLine opts hpubs hsubs
    rw [hparse]
    constructor
    · intro hnone
      rw [if_pos hnone]
    · intro hsome
      refine ⟨g, if_neg ?_, hlooped.listed_topicLine⟩
      intro hnone
      obtain ⟨p, hp, hne⟩ := hsome
      exact hne (hnone p hp)
  · intro argv g h
    have hlooped := looped_of_returned h
    obtain ⟨hpub, hsub⟩ := hlooped.first_ne_none
    refine ⟨hlooped.listed.1, hlooped.listed.2, ?_⟩
    intro s hs
    constructor
    · intro i hi
      have hlt := Process.pub_lt_numPubs hs hi
      exact hpub (by omega)
    · intro i hi
      have hlt := Process.sub_lt_numSubs hs hi
      exact hsub (by omega)

/-- `--pub=,a,,b, --pub=c`: three topics, and `c` for the output. -/
theorem topics_listed_three :
    ∃ g, parseArgs (topicLine [(.pub, ⟨ascii ",a,,b,", by decide⟩), (.pub, ⟨ascii "c", by decide⟩)])
        = .returned g
      ∧ g.pubs.ct = 3 ∧ g.pubarg.bytes = ascii "c" := by
  obtain ⟨g, hparse, hpubs, -⟩ := ((topics_listed (ι := Unit) .little).1
    [(.pub, ⟨ascii ",a,,b,", by decide⟩), (.pub, ⟨ascii "c", by decide⟩)] (by decide) (by decide)).2
    ⟨_, List.mem_cons_self, by decide⟩
  refine ⟨g, hparse, hpubs.count, ?_⟩
  rw [hpubs.printed]
  rfl

end MqttBenchmark.Args
