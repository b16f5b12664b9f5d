/-
  MqttBenchmark.Args.Threads
  ──────────────────────────
  **FROM THE COMMAND LINE TO THE CALLS OF THE THREADS.**

  `parse_args` takes a list of topics for each option, and `main` creates a
  thread for each topic; the threads are all alike.

    • `configGiven` — the configuration of a command line,
    • `config_of_returned` — it is the one `parse_args` leaves,
    • `every_listed_topic_used_iff` — the command lines whose topics are all
      used.
-/
import MqttBenchmark.Args.Listed
import MqttBenchmark.Process.Checked

namespace MqttBenchmark.Args

open Lib

variable {g g' g'' : Globals} {α : Type}

/-! ## §1. The values. -/

/-- The value of an option after these calls: its last argument, or what there
was before. -/
def lastGiven (opt : Char) (read : CString → α) (cs : List Call) (before : α) : α :=
  ((cs.filterMap (argOf opt)).map read).getLastD before

/-- One call more, in front. -/
theorem lastGiven_cons (opt : Char) (read : CString → α) (c : Call) (cs : List Call) (before : α) :
    lastGiven opt read (c :: cs) before
      = lastGiven opt read cs (((argOf opt c).map read).getD before) := by
  unfold lastGiven
  cases hc : argOf opt c with
  | none =>
      rw [List.filterMap_cons_none hc]
      rfl
  | some arg =>
      rw [List.filterMap_cons_some hc, List.map_cons, List.getLastD_cons]
      rfl

/-- What the calls do to the four values the threads read. -/
structure Values (g : Globals) (cs : List Call) (g' : Globals) : Prop where
  clientId : g'.clientId = lastGiven 'n' id cs g.clientId
  maxIter : g'.maxIter = lastGiven 'i' atoi cs g.maxIter
  payloadSize : g'.payloadSize = lastGiven 's' atoi cs g.payloadSize
  qos : g'.qos = lastGiven 'q' atoi cs g.qos

/-- A round that goes on has passed both of its parts. -/
theorem exists_of_bind_ok {x : Except Stop α} {f : α → Except Stop Globals}
    (h : (x >>= f) = .ok g') : ∃ a, x = .ok a ∧ f a = .ok g' := by
  cases x with
  | error stop => cases h
  | ok a => exact ⟨a, rfl, h⟩

/-- Only a `NULL` argument stops. -/
theorem deref_eq_ok {optarg : Option CString} {s : CString} (h : deref optarg = .ok s) :
    optarg = some s := by
  cases optarg with
  | none => cases h
  | some arg => cases h; rfl

/-- One round sets the value of its own option and no other. -/
theorem parseCall_values {c : Call} (h : parseCall g c = .ok g') : Values g [c] g' := by
  cases c with
  | bad => cases h
  | overrun => cases h
  | option o optarg =>
      unfold parseCall at h
      simp only at h
      split at h
      -- the two topic lists, then `--log` and the usage
      case h_8 | h_9 =>
        obtain ⟨r, -, heq⟩ := exists_of_bind_ok h
        cases heq
        constructor <;> rfl
      case h_10 => cases h; constructor <;> rfl
      case h_11 => cases h
      -- the options with a value
      all_goals
        obtain ⟨s, hs, heq⟩ := exists_of_bind_ok h
        cases deref_eq_ok hs
        cases heq
        constructor <;> rfl

/-- A call, and then the others. -/
theorem Values.cons {c : Call} {cs : List Call} (hc : Values g [c] g') (hcs : Values g' cs g'') :
    Values g (c :: cs) g'' := by
  constructor
  · rw [lastGiven_cons, hcs.clientId, hc.clientId, lastGiven_cons]
    rfl
  · rw [lastGiven_cons, hcs.maxIter, hc.maxIter, lastGiven_cons]
    rfl
  · rw [lastGiven_cons, hcs.payloadSize, hc.payloadSize, lastGiven_cons]
    rfl
  · rw [lastGiven_cons, hcs.qos, hc.qos, lastGiven_cons]
    rfl

/-- **What all calls do to the values**: the last of each option stands. -/
theorem foldlM_parseCall_values {cs : List Call} (h : cs.foldlM parseCall g = .ok g') :
    Values g cs g' := by
  induction cs generalizing g with
  | nil =>
      cases h
      constructor <;> rfl
  | cons c cs ih =>
      rw [List.foldlM_cons] at h
      obtain ⟨g₁, hstep, hrest⟩ := exists_of_bind_ok h
      exact (parseCall_values hstep).cons (ih hrest)

/-- `parse_args` returns after its last call, with a topic. -/
theorem foldlM_of_returned {argv : List CString} (h : parseArgs argv = .returned g) :
    (calls argv).foldlM parseCall Globals.initial = .ok g
      ∧ (g.pubs.first ≠ none ∨ g.subs.first ≠ none) := by
  unfold parseArgs at h
  split at h
  next => cases h
  next => cases h
  next g' hrun =>
    split at h
    next => cases h
    next hfirst =>
      cases h
      exact ⟨hrun, not_and_or.mp hfirst⟩

/-! ## §2. The configuration of a command line. -/

/-- The topics of all arguments of an option, as text. -/
def topicsGiven (opt : Char) (argv : List CString) : List String :=
  ((argsOf opt argv).flatMap topicFields).map topicName

/-- What a command line gives, over the defaults of `mqtt.c`. -/
def configGiven (argv : List CString) : Config where
  clientId := lastGiven 'n' id (calls argv) testClient
  pubs := topicsGiven 'u' argv
  subs := topicsGiven 't' argv
  maxIter := lastGiven 'i' atoi (calls argv) 20
  payloadSize := lastGiven 's' atoi (calls argv) 64
  qos := lastGiven 'q' atoi (calls argv) 1

/-- The threads read what the command line gives. -/
theorem config_of_returned {argv : List CString} (h : parseArgs argv = .returned g) :
    g.config = configGiven argv := by
  obtain ⟨hpubs, hsubs⟩ := (looped_of_returned h).config
  have hvalues := foldlM_parseCall_values (foldlM_of_returned h).1
  have heta : g.config = ⟨g.clientId, g.config.pubs, g.config.subs, g.maxIter, g.payloadSize, g.qos⟩ :=
    rfl
  rw [heta, hpubs, hsubs, hvalues.clientId, hvalues.maxIter, hvalues.payloadSize, hvalues.qos]
  rfl

/-- One of the two lists has a topic. -/
theorem topicsGiven_ne_nil {argv : List CString} (h : parseArgs argv = .returned g) :
    (configGiven argv).pubs ≠ [] ∨ (configGiven argv).subs ≠ [] := by
  obtain ⟨hpubs, hsubs⟩ := (looped_of_returned h).listed
  have hlen : ∀ {topics printed args}, Listed topics printed args → topics.first ≠ none →
      (args.flatMap topicFields).map topicName ≠ [] := by
    intro topics printed args hl hfirst
    apply List.ne_nil_of_length_pos
    rw [List.length_map, ← hl.count]
    exact hl.first.mpr hfirst
  exact (foldlM_of_returned h).2.imp (hlen hpubs) (hlen hsubs)

/-! ## §3. The threads. -/

/-- A character holds a byte. -/
theorem ofNat_letter (b : UInt8) : UInt8.ofNat (Getopt.letter b).toNat = b := by
  have hb : b.toNat < 256 := b.toNat_lt
  have hvalid : b.toNat.isValidChar := .inl (by omega)
  rw [Getopt.letter, Char.ofNat, dif_pos hvalid]
  exact UInt8.ofNat_toNat

/-- What the library checks of a topic are the bytes of the argument. -/
theorem topicBytes_topicName (topic : CString) :
    Process.topicBytes (topicName topic) = topic.bytes := by
  rw [Process.topicBytes, topicName, String.toList_ofList, List.map_map]
  exact List.map_id'' ofNat_letter topic.bytes

/-- **EVERY TOPIC ON THE COMMAND LINE IS USED** exactly when nothing stops its
threads, the `--pub` lists name none or one topic, however often, and the
`--sub` lists none or one that is not `pubkill`, at a QoS of at most 2. -/
theorem every_listed_topic_used_iff {ι : Type} [Inhabited ι] (env : Process.Surroundings)
    (o : ByteOrder) (hkill : env.validateString (Process.topicBytes pubkill) = true)
    (argv : List CString) (g : Globals) (h : parseArgs argv = .returned g) :
    Process.UsesTopics (Process.checked (ι := ι) env o g.config) g.config
        (topicsGiven 'u' argv) (topicsGiven 't' argv)
      ↔ Process.Accepts env (configGiven argv)
        ∧ (topicsGiven 'u' argv = [] ∨ Process.Carried (configGiven argv).pub0
          ∧ Process.OneTopic (topicsGiven 'u' argv))
        ∧ (topicsGiven 't' argv = []
          ∨ ((configGiven argv).qos ≤ 2 ∧ (configGiven argv).sub0 ≠ pubkill
              ∧ Process.Carried (configGiven argv).sub0)
            ∧ Process.OneTopic (topicsGiven 't' argv)) := by
  rw [config_of_returned h]
  have hchecked := Process.usesTopics_checked_iff (ι := ι) (o := o) hkill (topicsGiven_ne_nil h)
  rw [Process.every_topic_used_iff] at hchecked
  exact hchecked

/-- ASCII strings are taken, and nothing lies behind a payload. -/
def asciiOnly : Process.Surroundings := ⟨fun bs => bs.all (· < 128), fun _ => 0, 0⟩

/-- `--pub=a,a --sub=b --sub=b,b`: two publish threads and three subscribe
threads. -/
theorem every_listed_topic_used_repeated :
    ∃ g, parseArgs (topicLine [(.pub, ⟨ascii "a,a", by decide⟩), (.sub, ⟨ascii "b", by decide⟩),
          (.sub, ⟨ascii "b,b", by decide⟩)]) = .returned g
      ∧ Process.UsesTopics (Process.checked (ι := Unit) asciiOnly .little g.config) g.config
          ["a", "a"] ["b", "b", "b"] := by
  obtain ⟨g, -, hparse⟩ := parseArgs_topicLine [(.pub, ⟨ascii "a,a", by decide⟩),
    (.sub, ⟨ascii "b", by decide⟩), (.sub, ⟨ascii "b,b", by decide⟩)] (by decide) (by decide)
  rw [if_neg (by decide)] at hparse
  refine ⟨g, hparse, ?_⟩
  refine (every_listed_topic_used_iff asciiOnly .little (by decide) _ g hparse).mpr ⟨?_, ?_, ?_⟩
  · refine ⟨by decide, fun _ => ⟨by decide, ?_, by decide⟩, fun _ => by decide⟩
    exact Fits.writable (by decide) (by decide)
  · exact .inr ⟨by decide, by decide⟩
  · exact .inr ⟨⟨by decide, by decide, by decide⟩, by decide⟩

/-- `--pub=a,b`: two threads, and both publish on `a`. -/
theorem second_topic_unused :
    ¬ ∀ argv g, parseArgs argv = .returned g →
      Process.UsesTopics (Process.checked (ι := Unit) asciiOnly .little g.config) g.config
        (topicsGiven 'u' argv) (topicsGiven 't' argv) := by
  intro hall
  obtain ⟨g, hlooped, hparse⟩ := parseArgs_topicLine [(.pub, ⟨ascii "a,b", by decide⟩)]
    (by decide) (by decide)
  rw [if_neg (by decide)] at hparse
  have hb := ((hall _ g hparse).published "b").mpr (by decide)
  have hcall := (Process.publishes_checked hb).2
  rw [Process.publishes_iff, Config.pub0, hlooped.config.1] at hcall
  exact absurd hcall.2 (by decide)

end MqttBenchmark.Args
