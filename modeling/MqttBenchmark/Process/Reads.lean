/-
  MqttBenchmark.Process.Reads
  ───────────────────────────
  **WHAT `msgarrvd` READS OF A MESSAGE.**

  Any client may publish on the subscribed topic, any payload.  `msgarrvd`
  decodes it as if its own publisher had written it.

    • `msgarrvdReads` — the offsets it reads in a state,
    • `stored_data` — only what was decoded is stored,
    • `message_reads_iff` — the messages it does not read past in any run.
-/
import MqttBenchmark.Payload.Bounds
import MqttBenchmark.Process.Shutdown

namespace MqttBenchmark.Process

open Lib Lib.System Function

variable {ι : Type} {o : ByteOrder} {cfg : Config} {s s' : State ι} {m : Message ι}

/-- The offsets `msgarrvd` reads of a message, from its test of the topic
on. -/
def msgarrvdReads (cfg : Config) (s : State ι) (m : Message ι) : List Nat :=
  if m.topicName = pubkill then []
  else if s.it < cfg.maxIter then payloadReads (m.payload ++ m.beyond)
  else []

/-- There is a sample to store when the reads stay in the memory there is. -/
theorem sampleOf_isSome_iff (o : ByteOrder) (m : Message ι) (t : UInt64) :
    (sampleOf o m t).isSome = true
      ↔ ∀ k ∈ payloadReads (m.payload ++ m.beyond), k < (m.payload ++ m.beyond).length := by
  unfold sampleOf
  rw [Option.isSome_map]
  exact decodePayload_isSome_iff o _

/-- What is stored was decoded: not a kill, and with room in the buffers. -/
structure StoresData (cfg : Config) (s : State ι) : Prop where
  storing : ∀ m t x, s.callback = .storeRtt m t x → m.topicName ≠ pubkill ∧ cfg.maxIter ≠ 0
  recorded : ∀ r ∈ s.hist.recorded, r.1.topicName ≠ pubkill ∧ cfg.maxIter ≠ 0

theorem StoresData.congr (h : StoresData cfg s) (hcb : s'.callback = s.callback)
    (hrec : s'.hist.recorded = s.hist.recorded) : StoresData cfg s' := by
  constructor
  · rw [hcb]
    exact h.storing
  · rw [hrec]
    exact h.recorded

theorem stored_data (h : (system o cfg).Reachable s) : StoresData cfg s := by
  apply reachable_induct (P := StoresData cfg) h
  · constructor
    · intro m t x hcb
      cases hcb
    · intro r hr
      cases hr
  · intro s s' _ _ ih hm
    cases hm with
    | main hm => exact ih.congr hm.frame.callback hm.frame.recorded
    | sub i hm => exact ih.congr hm.frame.callback hm.frame.recorded
    | pub i hm => exact ih.congr hm.frame.callback (congrArg History.recorded hm.frame.hist)
    | callback hm =>
        cases hm with
        -- the test of the topic and of the counter comes before the store
        | storeReceive m t x buf hpc htopic hit hx hbuf =>
            refine ⟨?_, ih.recorded⟩
            intro m' t' x' hcb
            cases hcb
            refine ⟨htopic, ?_⟩
            intro hzero
            rw [UInt32.lt_iff_toNat_lt, hzero] at hit
            exact Nat.not_lt_zero _ hit
        | storeRtt m t x buf hpc hbuf =>
            constructor
            · intro m' t' x' hcb
              cases hcb
            · intro r hr
              rcases List.mem_append.mp hr with hr | hr
              · exact ih.recorded r hr
              · rw [List.mem_singleton.mp hr]
                exact ih.storing m t x hpc
        | fault => exact ⟨ih.storing, ih.recorded⟩
        | _ =>
            refine ⟨?_, ih.recorded⟩
            intro m' t' x' hcb
            cases hcb
    | paho hm =>
        cases hm with
        | lose => exact ⟨ih.storing, ih.recorded⟩
        | _ =>
            refine ⟨?_, ih.recorded⟩
            intro m' t' x' hcb
            cases hcb

/-- In no run is a message read past its end, or stored without a whole
header. -/
structure ReadsInside (o : ByteOrder) (cfg : Config) (m : Message ι) : Prop where
  reads : ∀ (s : State ι) (t : UInt64), (system o cfg).Reachable s → s.outcome = .running →
    s.callback = .arrived m t → ∀ k ∈ msgarrvdReads cfg s m, k < m.payload.length
  short : ∀ (s : State ι) (r : Message ι × UInt64 × UInt32), (system o cfg).Reachable s →
    r ∈ s.hist.recorded → r.1 = m → HoldsHeader m.payload

/-- The first data message of a run. -/
theorem arrived_reachable (m : Message ι) (hdata : receivesData cfg) :
    ∃ s : State ι, (system o cfg).Reachable s ∧ s.outcome = .running ∧ s.callback = .arrived m 0
      ∧ s.it = 0 := by
  obtain ⟨hsubs, hqos, htopic⟩ := hdata
  have harrive := (reachable_subscribed o hsubs hqos).leads (leads_arrive m 0 rfl rfl rfl
    ⟨cfg.sub0, List.mem_cons_self, fun heq => absurd heq htopic⟩)
  exact ⟨_, harrive, rfl, rfl, rfl⟩

/-- **WHICH MESSAGES ARE READ INSIDE THEIR PAYLOAD IN EVERY RUN**: those with a
whole header, and those never decoded. -/
theorem message_reads_iff (o : ByteOrder) (cfg : Config) (m : Message ι)
    (hlen : m.payload.length < 2 ^ 31) :
    ReadsInside o cfg m
      ↔ m.topicName = pubkill ∨ HoldsHeader m.payload ∨ cfg.maxIter = 0 ∨ ¬ receivesData cfg := by
  constructor
  · intro h
    by_contra hcond
    push Not at hcond
    -- as the first message of a run it is decoded
    obtain ⟨htopic, hheader, hmax, hdata⟩ := hcond
    obtain ⟨s, hs, hrun, hcb, hit⟩ := arrived_reachable (o := o) m hdata
    have hreads := h.reads s 0 hs hrun hcb
    have hlt : s.it < cfg.maxIter := by
      rw [hit]
      exact UInt32.pos_iff_ne_zero.mpr hmax
    unfold msgarrvdReads at hreads
    rw [if_neg htopic, if_pos hlt] at hreads
    exact hheader ((reads_inside_iff hlen m.beyond).mp hreads)
  · intro hcond
    constructor
    · intro s t hs _ hcb k hk
      unfold msgarrvdReads at hk
      by_cases htopic : m.topicName = pubkill
      · rw [if_pos htopic] at hk
        cases hk
      · by_cases hlt : s.it < cfg.maxIter
        · rw [if_neg htopic, if_pos hlt] at hk
          rcases hcond with hkill | hheader | hzero | hno
          · exact absurd hkill htopic
          · exact (reads_inside_iff hlen m.beyond).mpr hheader k hk
          · rw [hzero, UInt32.lt_iff_toNat_lt] at hlt
            exact absurd hlt (Nat.not_lt_zero _)
          · exact absurd ((no_data hs (Or.inl hno)).arrived m t hcb) htopic
        · rw [if_neg htopic, if_neg hlt] at hk
          cases hk
    · intro s r hs hr heq
      subst heq
      obtain ⟨htopic, hmax⟩ := (stored_data hs).recorded r hr
      rcases hcond with hkill | hheader | hzero | hno
      · exact absurd hkill htopic
      · exact hheader
      · exact absurd hzero hmax
      · rw [(no_data hs (Or.inl hno)).recorded] at hr
        cases hr

/-- A message as short as it can be. -/
theorem message_reads_iff_shortest :
    ReadsInside .little (Config.default [] ["topic"]) (dataMessage () "topic") :=
  (message_reads_iff .little (Config.default [] ["topic"]) (dataMessage () "topic") (by decide)).mpr
    (Or.inr (Or.inl ⟨0, rfl, by decide⟩))

/-- A message without a payload, and zeros behind it. -/
def emptyMessage : Message Unit := ⟨"topic", [], List.replicate 13 0, ()⟩

/-- The subscribe thread subscribes, the message arrives and is stored. -/
def emptySchedule : List (Action Unit) :=
  List.replicate 4 (.main granted) ++ List.replicate 4 (.sub 0 granted)
    ++ [.arrive emptyMessage 0, .callback, .callback]

/-- `--sub=topic`: an empty message is read up to offset 12 and stored as a
sample. -/
theorem message_reads_leave_empty_payload :
    payloadReads (emptyMessage.payload ++ emptyMessage.beyond)
        = List.range 1 ++ List.range' 1 4 ++ List.range' 5 8
    ∧ (∃ s : State Unit, (system .little (Config.default [] ["topic"])).Reachable s
        ∧ s.hist.recorded.map Prod.fst = [emptyMessage])
    ∧ ¬ ReadsInside .little (Config.default [] ["topic"]) emptyMessage := by
  -- the run, step by step, to the stored sample
  have hstored : ∃ s : State Unit, (system .little (Config.default [] ["topic"])).Reachable s
      ∧ s.hist.recorded.map Prod.fst = [emptyMessage] := by
    have hrun : ((system .little (Config.default [] ["topic"])).run emptySchedule initial).map
        (fun s => s.hist.recorded.map Prod.fst) = some [emptyMessage] := rfl
    obtain ⟨s, hs, hrec⟩ := Option.map_eq_some_iff.mp hrun
    exact ⟨s, leads_of_run _ hs, hrec⟩
  refine ⟨by decide, hstored, ?_⟩
  intro h
  obtain ⟨s, hs, hrec⟩ := hstored
  obtain ⟨r, hr, hmsg⟩ := List.map_eq_singleton_iff.mp hrec
  obtain ⟨len, hnul, -⟩ := h.short s r hs (by rw [hr]; exact List.mem_singleton_self r) hmsg
  cases hnul

end MqttBenchmark.Process
