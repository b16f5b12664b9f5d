/-
  MqttBenchmark.Args.Safety
  ─────────────────────────
  **WHICH ARGUMENT VECTORS `parse_args` SURVIVES.**

  The `switch` uses `optarg` without a test, and the arrays have no check
  against `MAX_TOPICS`.

    • `parseCall_cases` — everything one round of the loop can do,
    • `foldlM_parseCall` — the arrays after all rounds,
    • `parse_safe_iff` — the argument vectors without a fault.
-/
import MqttBenchmark.Args.Topics

namespace MqttBenchmark.Args

open Lib

/-! ## §1. What a call brings. -/

/-- The argument of an option. -/
def argOf (opt : Char) (call : Call) : Option CString :=
  match call with
  | .option o optarg => if o = opt then optarg else none
  | _ => none

/-- The topics an option adds. -/
def topicsOf (opt : Char) (call : Call) : List CString :=
  (argOf opt call).toList.flatMap topicFields

/-- The topics all calls add. -/
def topicsIn (opt : Char) (cs : List Call) : List CString := (cs.filterMap (argOf opt)).flatMap topicFields

theorem topicsIn_cons (opt : Char) (c : Call) (cs : List Call) :
    topicsIn opt (c :: cs) = topicsOf opt c ++ topicsIn opt cs := by
  unfold topicsIn topicsOf
  cases h : argOf opt c with
  | none => rw [List.filterMap_cons_none h]; rfl
  | some s => rw [List.filterMap_cons_some h]; simp

theorem argOf_of_ne {opt o : Char} (h : o ≠ opt) (optarg : Option CString) :
    argOf opt (.option o optarg) = none :=
  if_neg h

theorem topicsOf_of_ne {opt o : Char} (h : o ≠ opt) (optarg : Option CString) :
    topicsOf opt (.option o optarg) = [] := by
  rw [topicsOf, argOf_of_ne h]
  rfl

/-- The calls at which the `switch` prints the usage and exits. -/
def exits (call : Call) : Bool :=
  match call with
  | .option o _ => o ∉ ['b', 'n', 'm', 'i', 'q', 's', 'd', 'u', 't', 'v']
  | .bad => true
  | .overrun => false

/-! ## §2. One round. -/

/-- The arrays hold these topics. -/
structure Holds (g : Globals) (ps ss : List CString) : Prop where
  pubs : g.pubs = .holding ps
  subs : g.subs = .holding ss
  pubsLe : ps.length ≤ maxTopics
  subsLe : ss.length ≤ maxTopics

theorem holds_initial : Holds Globals.initial [] [] :=
  ⟨Topics.empty_eq, Topics.empty_eq, Nat.zero_le _, Nat.zero_le _⟩

/-- What one round does. -/
inductive CallCase (g : Globals) (ps ss : List CString) (call : Call) : Prop
  | usage (hexits : exits call = true) (h : parseCall g call = .error .usage)
  | overrun (hcall : call = .overrun) (h : parseCall g call = .error (.fault .tableOverrun))
  | null (o : Char) (hcall : call = .option o none) (hne : o ≠ 'v') (hexits : exits call = false)
      (h : parseCall g call = .error (.fault .nullOptarg))
  | overflow (hexits : exits call = false)
      (hlong : maxTopics < (ps ++ topicsOf 'u' call).length
        ∨ maxTopics < (ss ++ topicsOf 't' call).length)
      (h : parseCall g call = .error (.fault .topicOverflow))
  | next (g' : Globals) (hexits : exits call = false) (hover : call ≠ .overrun)
      (hvalue : ∀ o, call = .option o none → o = 'v') (h : parseCall g call = .ok g')
      (hholds : Holds g' (ps ++ topicsOf 'u' call) (ss ++ topicsOf 't' call))
      (hpub : g'.pubarg = (argOf 'u' call).getD g.pubarg)
      (hsub : g'.subarg = (argOf 't' call).getD g.subarg)

variable {g : Globals} {ps ss : List CString}

/-- The options whose argument is a string or a number. -/
theorem parseCall_value {o : Char} (ho : o ∈ ['b', 'n', 'm', 'i', 'q', 's', 'd']) (g : Globals) :
    parseCall g (.option o none) = .error (.fault .nullOptarg)
    ∧ ∀ s, ∃ g', parseCall g (.option o (some s)) = .ok g' ∧ g'.pubs = g.pubs ∧ g'.subs = g.subs
      ∧ g'.pubarg = g.pubarg ∧ g'.subarg = g.subarg := by
  simp only [List.mem_cons, List.not_mem_nil, or_false] at ho
  rcases ho with rfl | rfl | rfl | rfl | rfl | rfl | rfl <;>
    exact ⟨rfl, fun s => ⟨_, rfl, rfl, rfl, rfl, rfl⟩⟩

/-- An option the `switch` has no case for. -/
theorem parseCall_default {o : Char} (ho : o ∉ ['b', 'n', 'm', 'i', 'q', 's', 'd', 'u', 't', 'v'])
    (g : Globals) (optarg : Option CString) : parseCall g (.option o optarg) = .error .usage := by
  unfold parseCall
  split <;> first | rfl | simp_all

theorem parseCall_pub (h : Holds g ps ss) (arg : CString) :
    parseCall g (.option 'u' (some arg))
      = if (ps ++ topicFields arg).length ≤ maxTopics ∧ ss.length ≤ maxTopics then
          .ok { g with pubarg := arg, pubs := .holding (ps ++ topicFields arg) }
        else .error (.fault .topicOverflow) := by
  show (topicList g.pubs (some arg) >>= fun r => pure { g with pubarg := r.1, pubs := r.2 }) = _
  rw [topicList, deref, h.pubs, List.length_append]
  simp only [parseTopicList_eq ps h.pubsLe, h.subsLe, and_true]
  split <;> rfl

theorem parseCall_sub (h : Holds g ps ss) (arg : CString) :
    parseCall g (.option 't' (some arg))
      = if ps.length ≤ maxTopics ∧ (ss ++ topicFields arg).length ≤ maxTopics then
          .ok { g with subarg := arg, subs := .holding (ss ++ topicFields arg) }
        else .error (.fault .topicOverflow) := by
  show (topicList g.subs (some arg) >>= fun r => pure { g with subarg := r.1, subs := r.2 }) = _
  rw [topicList, deref, h.subs, List.length_append]
  simp only [parseTopicList_eq ss h.subsLe, h.pubsLe, true_and]
  split <;> rfl

theorem topicsOf_self (o : Char) (arg : CString) :
    topicsOf o (.option o (some arg)) = topicFields arg := by
  simp [topicsOf, argOf]

/-- An option that adds no topic. -/
theorem CallCase.other {o : Char} {optarg : Option CString} {g' : Globals} (h : Holds g ps ss)
    (hu : o ≠ 'u') (ht : o ≠ 't') (hexits : exits (.option o optarg) = false)
    (hvalue : optarg = none → o = 'v') (hstep : parseCall g (.option o optarg) = .ok g')
    (hpubs : g'.pubs = g.pubs) (hsubs : g'.subs = g.subs) (hpub : g'.pubarg = g.pubarg)
    (hsub : g'.subarg = g.subarg) : CallCase g ps ss (.option o optarg) := by
  refine .next g' hexits (by simp) ?_ hstep ?_ ?_ ?_
  · intro o' heq
    cases heq
    exact hvalue rfl
  · rw [topicsOf_of_ne hu, topicsOf_of_ne ht, List.append_nil, List.append_nil]
    exact ⟨hpubs.trans h.pubs, hsubs.trans h.subs, h.pubsLe, h.subsLe⟩
  · rw [argOf_of_ne hu, hpub]
    rfl
  · rw [argOf_of_ne ht, hsub]
    rfl

/-- An option with a topic list. -/
theorem CallCase.topics {o : Char} {arg : CString} {g' : Globals} {ps' ss' : List CString}
    (hexits : exits (.option o (some arg)) = false)
    (hps : ps ++ topicsOf 'u' (.option o (some arg)) = ps')
    (hss : ss ++ topicsOf 't' (.option o (some arg)) = ss')
    (hstep : parseCall g (.option o (some arg))
      = if ps'.length ≤ maxTopics ∧ ss'.length ≤ maxTopics then .ok g'
        else .error (.fault .topicOverflow))
    (hpubs : g'.pubs = .holding ps') (hsubs : g'.subs = .holding ss')
    (hpub : g'.pubarg = (argOf 'u' (.option o (some arg))).getD g.pubarg)
    (hsub : g'.subarg = (argOf 't' (.option o (some arg))).getD g.subarg) :
    CallCase g ps ss (.option o (some arg)) := by
  by_cases hfit : ps'.length ≤ maxTopics ∧ ss'.length ≤ maxTopics
  · rw [if_pos hfit] at hstep
    refine .next g' hexits (by simp) (by simp) hstep ?_ hpub hsub
    rw [hps, hss]
    exact ⟨hpubs, hsubs, hfit.1, hfit.2⟩
  · rw [if_neg hfit] at hstep
    refine .overflow hexits ?_ hstep
    rw [hps, hss]
    omega

/-- **Everything one round can do.** -/
theorem parseCall_cases (h : Holds g ps ss) (call : Call) : CallCase g ps ss call := by
  cases call with
  | bad => exact .usage rfl rfl
  | overrun => exact .overrun rfl rfl
  | option o optarg =>
      by_cases ho : o ∈ ['b', 'n', 'm', 'i', 'q', 's', 'd', 'u', 't', 'v']
      · have hexits : exits (.option o optarg) = false := decide_eq_false fun h => h ho
        by_cases hv : o = 'v'
        · subst hv
          exact .other h (by decide) (by decide) hexits (fun _ => rfl) rfl rfl rfl rfl rfl
        cases optarg with
        | none =>
            refine .null o rfl hv hexits ?_
            by_cases hval : o ∈ ['b', 'n', 'm', 'i', 'q', 's', 'd']
            · exact (parseCall_value hval g).1
            · have hut : o = 'u' ∨ o = 't' := by
                simp only [List.mem_cons, List.not_mem_nil, or_false] at ho hval
                tauto
              rcases hut with rfl | rfl <;> rfl
        | some arg =>
            by_cases hu : o = 'u'
            · subst hu
              exact .topics hexits (by rw [topicsOf_self])
                (by rw [topicsOf_of_ne (by decide), List.append_nil]) (parseCall_pub h arg)
                rfl h.subs rfl rfl
            by_cases ht : o = 't'
            · subst ht
              exact .topics hexits (by rw [topicsOf_of_ne (by decide), List.append_nil])
                (by rw [topicsOf_self]) (parseCall_sub h arg) h.pubs rfl rfl rfl
            -- a string or a number
            have hval : o ∈ ['b', 'n', 'm', 'i', 'q', 's', 'd'] := by
              simp only [List.mem_cons, List.not_mem_nil, or_false] at ho ⊢
              tauto
            obtain ⟨g', hstep, h1, h2, h3, h4⟩ := (parseCall_value hval g).2 arg
            exact .other h hu ht hexits (by simp) hstep h1 h2 h3 h4
      · exact .usage (by simpa [exits] using ho) (parseCall_default ho g optarg)

/-! ## §3. All rounds. -/

theorem foldlM_ok {c : Call} {cs : List Call} {g' : Globals} (h : parseCall g c = .ok g') :
    (c :: cs).foldlM parseCall g = cs.foldlM parseCall g' := by
  rw [List.foldlM_cons, h]
  rfl

theorem foldlM_error {c : Call} (cs : List Call) {stop : Stop} (h : parseCall g c = .error stop) :
    (c :: cs).foldlM parseCall g = .error stop := by
  rw [List.foldlM_cons, h]
  rfl

/-- What the loop leaves when it ends at the last call. -/
structure Looped (g g' : Globals) (ps ss : List CString) (cs : List Call) : Prop where
  holds : Holds g' (ps ++ topicsIn 'u' cs) (ss ++ topicsIn 't' cs)
  stays : ∀ c ∈ cs, exits c = false
  pubarg : g'.pubarg = (cs.filterMap (argOf 'u')).getLastD g.pubarg
  subarg : g'.subarg = (cs.filterMap (argOf 't')).getLastD g.subarg

/-- The last argument of an option, or the string before. -/
theorem getLastD_argOf (o : Char) (c : Call) (cs : List Call) (s : CString) :
    ((c :: cs).filterMap (argOf o)).getLastD s
      = (cs.filterMap (argOf o)).getLastD ((argOf o c).getD s) := by
  cases h : argOf o c with
  | none => rw [List.filterMap_cons_none h]; rfl
  | some arg => rw [List.filterMap_cons_some h, List.getLastD_cons]; rfl

/-- **The arrays after all rounds** hold the fields of all arguments in order. -/
theorem foldlM_parseCall {g' : Globals} {cs : List Call} (hg : Holds g ps ss)
    (h : cs.foldlM parseCall g = .ok g') : Looped g g' ps ss cs := by
  induction cs generalizing g ps ss with
  | nil =>
      cases h
      exact ⟨by simpa [topicsIn] using hg, by simp, rfl, rfl⟩
  | cons c cs ih =>
      cases parseCall_cases hg c with
      | next g₁ hexits hover hvalue hstep hholds hpub hsub =>
          rw [foldlM_ok hstep] at h
          obtain ⟨h1, h2, h3, h4⟩ := ih hholds h
          refine ⟨?_, ?_, ?_, ?_⟩
          · rw [topicsIn_cons, topicsIn_cons, ← List.append_assoc, ← List.append_assoc]
            exact h1
          · intro c' hc'
            rcases List.mem_cons.mp hc' with rfl | hc'
            · exact hexits
            · exact h2 c' hc'
          · rw [getLastD_argOf, h3, hpub]
          · rw [getLastD_argOf, h4, hsub]
      -- every other round ends the loop
      | usage hexits hstep => rw [foldlM_error cs hstep] at h; cases h
      | overrun hcall hstep => rw [foldlM_error cs hstep] at h; cases h
      | null o hcall hne hexits hstep => rw [foldlM_error cs hstep] at h; cases h
      | overflow hexits hlong hstep => rw [foldlM_error cs hstep] at h; cases h

/-- The calls the loop acts on: all before the one at which it exits. -/
def acted (cs : List Call) : List Call := cs.takeWhile fun c => !exits c

/-- Calls that lead to no fault, after these topics. -/
structure CarefulFrom (ps ss : List CString) (cs : List Call) : Prop where
  listed : ∀ c ∈ acted cs, c ≠ .overrun
  valued : ∀ o, Call.option o none ∈ acted cs → o = 'v'
  pubs : (ps ++ topicsIn 'u' (acted cs)).length ≤ maxTopics
  subs : (ss ++ topicsIn 't' (acted cs)).length ≤ maxTopics

theorem acted_exits {c : Call} (cs : List Call) (h : exits c = true) : acted (c :: cs) = [] := by
  simp [acted, h]

theorem acted_stays {c : Call} (cs : List Call) (h : exits c = false) :
    acted (c :: cs) = c :: acted cs := by
  simp [acted, h]

/-- A call that is passed leaves the condition on the others. -/
theorem carefulFrom_cons {c : Call} {cs : List Call} (hexits : exits c = false)
    (hover : c ≠ .overrun) (hvalue : ∀ o, c = .option o none → o = 'v') :
    CarefulFrom ps ss (c :: cs)
      ↔ CarefulFrom (ps ++ topicsOf 'u' c) (ss ++ topicsOf 't' c) cs := by
  constructor
  · intro h
    obtain ⟨h1, h2, h3, h4⟩ := h
    rw [acted_stays cs hexits] at h1 h2 h3 h4
    rw [topicsIn_cons, ← List.append_assoc] at h3 h4
    exact ⟨fun c' hc' => h1 c' (List.mem_cons_of_mem _ hc'),
      fun o ho => h2 o (List.mem_cons_of_mem _ ho), h3, h4⟩
  · intro h
    obtain ⟨h1, h2, h3, h4⟩ := h
    constructor
    all_goals rw [acted_stays cs hexits]
    · intro c' hc'
      rcases List.mem_cons.mp hc' with rfl | hc'
      · exact hover
      · exact h1 c' hc'
    · intro o ho
      rcases List.mem_cons.mp ho with heq | ho
      · exact hvalue o heq.symm
      · exact h2 o ho
    · rw [topicsIn_cons, ← List.append_assoc]
      exact h3
    · rw [topicsIn_cons, ← List.append_assoc]
      exact h4

/-- **The loop has no fault exactly when its calls are careful.** -/
theorem foldlM_no_fault_iff (hg : Holds g ps ss) (cs : List Call) :
    (∀ f, cs.foldlM parseCall g ≠ .error (.fault f)) ↔ CarefulFrom ps ss cs := by
  induction cs generalizing g ps ss with
  | nil =>
      constructor
      · intro _
        exact ⟨by simp [acted], by simp [acted], by simpa [acted, topicsIn] using hg.pubsLe,
          by simpa [acted, topicsIn] using hg.subsLe⟩
      · intro _ f h
        cases h
  | cons c cs ih =>
      cases parseCall_cases hg c with
      | usage hexits hstep =>
          rw [foldlM_error cs hstep]
          constructor
          · intro _
            constructor
            all_goals rw [acted_exits cs hexits]
            · simp
            · simp
            · simpa [topicsIn] using hg.pubsLe
            · simpa [topicsIn] using hg.subsLe
          · intro _ f h
            cases h
      | overrun hcall hstep =>
          rw [foldlM_error cs hstep]
          constructor
          · intro h
            exact absurd rfl (h _)
          · intro h
            subst hcall
            exact absurd rfl (h.listed .overrun (by rw [acted_stays cs rfl]; simp))
      | null o hcall hne hexits hstep =>
          rw [foldlM_error cs hstep]
          constructor
          · intro h
            exact absurd rfl (h _)
          · intro h
            subst hcall
            exact absurd (h.valued o (by rw [acted_stays cs hexits]; simp)) hne
      | overflow hexits hlong hstep =>
          rw [foldlM_error cs hstep]
          constructor
          · intro h
            exact absurd rfl (h _)
          · intro h
            obtain ⟨-, -, h3, h4⟩ := h
            rw [acted_stays cs hexits, topicsIn_cons, ← List.append_assoc, List.length_append]
              at h3 h4
            omega
      | next g₁ hexits hover hvalue hstep hholds hpub hsub =>
          rw [foldlM_ok hstep, ih hholds, carefulFrom_cons hexits hover hvalue]

/-- The loop prints the usage for a call only. -/
theorem exists_exits_of_usage {cs : List Call} (hg : Holds g ps ss)
    (h : cs.foldlM parseCall g = .error .usage) : ∃ c ∈ cs, exits c = true := by
  induction cs generalizing g ps ss with
  | nil => cases h
  | cons c cs ih =>
      cases parseCall_cases hg c with
      | usage hexits hstep => exact ⟨c, List.mem_cons_self, hexits⟩
      | next g₁ hexits hover hvalue hstep hholds hpub hsub =>
          rw [foldlM_ok hstep] at h
          obtain ⟨c', hc', hexits'⟩ := ih hholds h
          exact ⟨c', List.mem_cons_of_mem _ hc', hexits'⟩
      | overrun hcall hstep => rw [foldlM_error cs hstep] at h; cases h
      | null o hcall hne hexits hstep => rw [foldlM_error cs hstep] at h; cases h
      | overflow hexits hlong hstep => rw [foldlM_error cs hstep] at h; cases h

/-! ## §4. Which argument vectors are safe. -/

/-- It leaves through an exit, or returns with both counters in bounds. -/
def Safe (r : Parsed) : Prop :=
  match r with
  | .usage | .noTopics => True
  | .returned g => g.pubs.ct ≤ maxTopics ∧ g.subs.ct ≤ maxTopics
  | .fault _ => False

/-- Before the first option at which the usage is printed: every long name is
in the table, every option but `--log` has its argument, and neither all
`--pub` nor all `--sub` arguments together have more than `MAX_TOPICS` fields. -/
def Careful (argv : List CString) : Prop := CarefulFrom [] [] (calls argv)

/-- **WHICH ARGUMENT VECTORS `parse_args` SURVIVES.** -/
theorem parse_safe_iff (argv : List CString) : Safe (parseArgs argv) ↔ Careful argv := by
  rw [Careful, ← foldlM_no_fault_iff holds_initial, parseArgs]
  cases hrun : (calls argv).foldlM parseCall Globals.initial with
  | error stop =>
      cases stop with
      | usage => simp [Safe]
      | fault f => simp [Safe]
  | ok g =>
      have hholds := (foldlM_parseCall holds_initial hrun).holds
      have hct : g.pubs.ct ≤ maxTopics ∧ g.subs.ct ≤ maxTopics := by
        rw [hholds.pubs, hholds.subs]
        exact ⟨hholds.pubsLe, hholds.subsLe⟩
      simp only [reduceCtorEq, not_false_eq_true, implies_true, iff_true, ne_eq]
      split
      · trivial
      · exact hct

/-- `./benchmark` -/
def program : CString := ⟨ascii "./benchmark", by decide⟩

/-- `./benchmark --broker`: `strdup(NULL)`.  `./benchmark --iters=5`: the name
is looked for behind the table. -/
theorem parse_faults :
    parseArgs [program, ⟨ascii "--broker", by decide⟩] = .fault .nullOptarg
    ∧ parseArgs [program, ⟨ascii "--iters=5", by decide⟩] = .fault .tableOverrun
    ∧ ¬ ∀ argv, Safe (parseArgs argv) := by
  have hbroker : parseArgs [program, ⟨ascii "--broker", by decide⟩] = .fault .nullOptarg := rfl
  refine ⟨hbroker, rfl, ?_⟩
  intro hall
  have hsafe := hall [program, ⟨ascii "--broker", by decide⟩]
  rw [hbroker] at hsafe
  exact hsafe

end MqttBenchmark.Args
