/-
  MqttBenchmark.Process.Boundary
  ──────────────────────────────
  **WHEN `done_receiving` IS POSTED, MESSAGE BY MESSAGE.**

  `msgarrvd` compares its counter with `MAX_ITER` before it counts the
  message, so the message that fills the last slot posts nothing: the post
  comes with the data message after it.

    • `boundary` — what has been recorded and posted after `n` data messages,
      for every `n` and any number of subscribe threads,
    • `posts_unless_boundary` — the one `n` at which the post is missing, and
      what waits there.
-/
import MqttBenchmark.Process.Receive
import MqttBenchmark.Process.Loss

namespace MqttBenchmark.Process

open Lib Lib.System Function

variable {ι : Type} {o : ByteOrder} {cfg : Config} {s t : State ι}

/-! ## §1. What has happened after `n` data messages. -/

/-- **The boundary invariant.**  A message is dealt with once its sample is
stored, or passed over. -/
structure Boundary (cfg : Config) (s : State ι) : Prop where
  begun : s.callback.beforeCount ≤ (dataMessages s).length
  it : s.it = UInt32.ofNat ((dataMessages s).length - s.callback.beforeCount)
  few : (dataMessages s).length - s.callback.beforeRtt ≤ cfg.maxIter.toNat →
    s.hist.recorded.length = (dataMessages s).length - s.callback.beforeRtt
      ∧ s.hist.donePosts = 0
  many : cfg.maxIter.toNat < (dataMessages s).length - s.callback.beforeRtt →
    0 < s.hist.donePosts
  storing : ∀ m x r, s.callback = .storeRtt m x r → s.it < cfg.maxIter

namespace Boundary

/-- A step after which as many messages are dealt with keeps the invariant. -/
theorem transfer (hi : Boundary cfg s)
    (hbegun : t.callback.beforeCount ≤ (dataMessages t).length)
    (hcount : (dataMessages t).length - t.callback.beforeCount
      = (dataMessages s).length - s.callback.beforeCount)
    (hrtt : (dataMessages t).length - t.callback.beforeRtt
      = (dataMessages s).length - s.callback.beforeRtt)
    (hit : t.it = s.it) (hrec : t.hist.recorded = s.hist.recorded)
    (hdone : t.hist.donePosts = s.hist.donePosts)
    (hstoring : ∀ m x r, t.callback = .storeRtt m x r → t.it < cfg.maxIter) : Boundary cfg t := by
  constructor
  · exact hbegun
  · rw [hcount, hit]
    exact hi.it
  · rw [hrtt, hrec, hdone]
    exact hi.few
  · rw [hrtt, hdone]
    exact hi.many
  · exact hstoring

/-- The invariant reads the callback, the counter and the history only. -/
theorem congr (hi : Boundary cfg s) (hcb : t.callback = s.callback) (hit : t.it = s.it)
    (harr : t.hist.arrivals = s.hist.arrivals) (hrec : t.hist.recorded = s.hist.recorded)
    (hdone : t.hist.donePosts = s.hist.donePosts) : Boundary cfg t := by
  have hdata : dataMessages t = dataMessages s := by rw [dataMessages, harr, dataMessages]
  refine hi.transfer ?_ ?_ ?_ hit hrec hdone ?_
  · rw [hdata, hcb]
    exact hi.begun
  · rw [hdata, hcb]
  · rw [hdata, hcb]
  · rw [hcb, hit]
    exact hi.storing

/-- Up to `2 ^ 32` messages the counter is the number of those before. -/
theorem it_toNat (hi : Boundary cfg s)
    (hlt : (dataMessages s).length - s.callback.beforeCount < 2 ^ 32) :
    s.it.toNat = (dataMessages s).length - s.callback.beforeCount := by
  rw [hi.it, UInt32.toNat_ofNat']
  exact Nat.mod_eq_of_lt hlt

/-- A message arrives. -/
theorem arrive (hi : Boundary cfg s) (hcb : s.callback = .idle) (m : Message ι) (x : UInt64) :
    Boundary cfg { s with callback := .arrived m x,
                          hist := { s.hist with arrivals := s.hist.arrivals ++ [(m, x)] } } := by
  -- one more message, or none, and as many not dealt with
  have hlen : ((s.hist.arrivals ++ [(m, x)]).filter isData).length
      = (dataMessages s).length + (CallbackPC.arrived m x).beforeCount := by
    by_cases htopic : m.topicName = pubkill
    · simp [dataMessages, List.filter_append, isData, htopic, CallbackPC.beforeCount]
    · simp [dataMessages, List.filter_append, isData, htopic, CallbackPC.beforeCount]
  refine hi.transfer ?_ ?_ ?_ rfl rfl rfl (by simp)
  · show (CallbackPC.arrived m x).beforeCount ≤ ((s.hist.arrivals ++ [(m, x)]).filter isData).length
    rw [hlen]
    exact Nat.le_add_left _ _
  · show ((s.hist.arrivals ++ [(m, x)]).filter isData).length
      - (CallbackPC.arrived m x).beforeCount = _
    rw [hlen, hcb]
    exact Nat.add_sub_cancel _ _
  · show ((s.hist.arrivals ++ [(m, x)]).filter isData).length
      - (CallbackPC.arrived m x).beforeCount = _
    rw [hlen, hcb]
    exact Nat.add_sub_cancel _ _

/-- The message after the buffer is full makes the post. -/
theorem full (hi : Boundary cfg s) {m : Message ι} {x : UInt64} (hcb : s.callback = .arrived m x)
    (htopic : m.topicName ≠ pubkill) (heq : s.it = cfg.maxIter) :
    Boundary cfg { s with doneReceiving := s.doneReceiving.post, callback := .count m x,
                          hist := { s.hist with donePosts := s.hist.donePosts + 1 } } := by
  have hmax := cfg.maxIter.toNat_lt
  have hval := hi.it_toNat
  have hbegun := hi.begun
  have hcount : s.callback.beforeCount = 1 := by
    rw [hcb]
    exact if_neg htopic
  rw [hcount] at hval hbegun
  constructor
  · exact hbegun
  · show s.it = UInt32.ofNat ((dataMessages s).length - 1)
    rw [← hcount]
    exact hi.it
  · -- the counter is `MAX_ITER`, so this is not one of the first messages
    intro hle
    exfalso
    replace hle : (dataMessages s).length ≤ cfg.maxIter.toNat := hle
    rw [heq] at hval
    have hcounted := hval (by omega)
    omega
  · intro _
    exact Nat.succ_pos _
  · simp

/-- Past the boundary nothing happens, and the post has been made before. -/
theorem skip (hi : Boundary cfg s) {m : Message ι} {x : UInt64} (hcb : s.callback = .arrived m x)
    (htopic : m.topicName ≠ pubkill) (hlt : cfg.maxIter < s.it) :
    Boundary cfg { s with callback := .count m x } := by
  have hmax := cfg.maxIter.toNat_lt
  have hval := hi.it_toNat
  have hbegun := hi.begun
  have hmany := hi.many
  have hcount : s.callback.beforeCount = 1 ∧ s.callback.beforeRtt = 1 := by
    rw [hcb]
    exact ⟨if_neg htopic, if_neg htopic⟩
  rw [hcount.1] at hval hbegun
  rw [hcount.2] at hmany
  rw [UInt32.lt_iff_toNat_lt] at hlt
  constructor
  · exact hbegun
  · show s.it = UInt32.ofNat ((dataMessages s).length - 1)
    rw [← hcount.1]
    exact hi.it
  · intro hle
    exfalso
    replace hle : (dataMessages s).length ≤ cfg.maxIter.toNat := hle
    have hcounted := hval (by omega)
    omega
  · intro hmore
    replace hmore : cfg.maxIter.toNat < (dataMessages s).length := hmore
    apply hmany
    by_contra hle
    have hcounted := hval (by omega)
    omega
  · simp

/-- A sample is stored ahead of the boundary. -/
theorem store_rtt (hi : Boundary cfg s) {m : Message ι} {x : UInt64} {r : UInt32}
    (hcb : s.callback = .storeRtt m x r) (buf : Option (List UInt32)) :
    Boundary cfg { s with rttTs := buf, callback := .count m x,
                          hist := { s.hist with recorded := s.hist.recorded ++ [(m, x, r)] } } := by
  have hmax := cfg.maxIter.toNat_lt
  have hlt := hi.storing m x r hcb
  rw [UInt32.lt_iff_toNat_lt] at hlt
  have hcounted := hi.it_toNat
  obtain ⟨h1, h2, h3, h4, -⟩ := hi
  rw [hcb] at h1 h2 h3 h4 hcounted
  replace h1 : 1 ≤ (dataMessages s).length := h1
  replace h3 : (dataMessages s).length - 1 ≤ cfg.maxIter.toNat →
    s.hist.recorded.length = (dataMessages s).length - 1 ∧ s.hist.donePosts = 0 := h3
  replace h4 : cfg.maxIter.toNat < (dataMessages s).length - 1 → 0 < s.hist.donePosts := h4
  replace hcounted : (dataMessages s).length - 1 < 2 ^ 32 →
    s.it.toNat = (dataMessages s).length - 1 := hcounted
  constructor
  · exact h1
  · exact h2
  · intro hle
    replace hle : (dataMessages s).length ≤ cfg.maxIter.toNat := hle
    have hrec := h3 (by omega)
    show (s.hist.recorded ++ [(m, x, r)]).length = (dataMessages s).length ∧ s.hist.donePosts = 0
    rw [List.length_append, List.length_singleton]
    omega
  · intro hmore
    replace hmore : cfg.maxIter.toNat < (dataMessages s).length := hmore
    apply h4
    by_contra hle
    have hval := hcounted (by omega)
    omega
  · simp

/-- The message is counted. -/
theorem count (hi : Boundary cfg s) {m : Message ι} {x : UInt64} (hcb : s.callback = .count m x) :
    Boundary cfg { s with it := s.it + 1, callback := .idle } := by
  obtain ⟨h1, h2, h3, h4, -⟩ := hi
  rw [hcb] at h1 h2 h3 h4
  replace h1 : 1 ≤ (dataMessages s).length := h1
  refine ⟨Nat.zero_le _, ?_, h3, h4, by simp⟩
  show s.it + 1 = UInt32.ofNat (dataMessages s).length
  rw [h2]
  show UInt32.ofNat ((dataMessages s).length - 1) + 1 = _
  obtain ⟨n, hn⟩ : ∃ n, (dataMessages s).length = n + 1 := ⟨(dataMessages s).length - 1, by omega⟩
  rw [hn]
  simp [UInt32.ofNat_add]

theorem callback_move (hi : Boundary cfg s) (h : CallbackMove o cfg s t) : Boundary cfg t := by
  cases h with
  | take n dt d hpc hd =>
      have hb : s.callback.beforeCount = 0 ∧ s.callback.beforeRtt = 0 := by
        rcases hpc with hpc | hpc <;> rw [hpc] <;> exact ⟨rfl, rfl⟩
      exact hi.transfer (Nat.zero_le _) (by rw [hb.1]; rfl) (by rw [hb.2]; rfl) rfl rfl rfl (by simp)
  | blocked n dt hpc hd =>
      exact hi.transfer (Nat.zero_le _) (by rw [hpc]; rfl) (by rw [hpc]; rfl) rfl rfl rfl (by simp)
  | storeToken n dt hpc =>
      exact hi.transfer (Nat.zero_le _) (by rw [hpc]; rfl) (by rw [hpc]; rfl) rfl rfl rfl (by simp)
  | kill m x hpc htopic =>
      have hb : s.callback.beforeCount = 0 ∧ s.callback.beforeRtt = 0 := by
        rw [hpc]
        exact ⟨if_pos htopic, if_pos htopic⟩
      exact hi.transfer (Nat.zero_le _) (by rw [hb.1]; rfl) (by rw [hb.2]; rfl) rfl rfl rfl (by simp)
  | storeReceive m x r buf hpc htopic hlt hx hbuf =>
      have hb : s.callback.beforeCount = 1 ∧ s.callback.beforeRtt = 1 := by
        rw [hpc]
        exact ⟨if_neg htopic, if_neg htopic⟩
      have hbegun := hi.begun
      rw [hb.1] at hbegun
      exact hi.transfer hbegun (by rw [hb.1]; rfl) (by rw [hb.2]; rfl) rfl rfl rfl
        fun _ _ _ _ => hlt
  | full m x hpc htopic heq => exact hi.full hpc htopic heq
  | skip m x hpc htopic hlt => exact hi.skip hpc htopic hlt
  | storeRtt m x r buf hpc hbuf => exact hi.store_rtt hpc buf
  | count m x hpc => exact hi.count hpc
  | fault => exact hi.congr rfl rfl rfl rfl rfl

end Boundary

/-- **The boundary invariant holds in every reachable state**, whatever the
number of messages and of subscribe threads. -/
theorem boundary (h : (system o cfg).Reachable s) : Boundary cfg s := by
  refine reachable_induct h ?_ ?_
  · exact ⟨Nat.le_refl _, rfl, fun _ => ⟨rfl, rfl⟩, fun h => absurd h (Nat.not_lt_zero _), by simp [initial]⟩
  · intro s t _ _ ih hm
    cases hm with
    | main h =>
        have f := h.frame
        exact ih.congr f.callback f.it f.arrivals f.recorded f.donePosts
    | sub i h =>
        have f := h.frame
        exact ih.congr f.callback f.it f.arrivals f.recorded f.donePosts
    | pub i h =>
        have f := h.frame
        exact ih.congr f.callback f.it (by rw [f.hist]) (by rw [f.hist]) (by rw [f.hist])
    | callback h => exact ih.callback_move h
    | paho h =>
        cases h with
        | arrive m x hpc hmatch => exact ih.arrive hpc m x
        | confirm k n dt hpc hk =>
            exact ih.transfer (Nat.zero_le _) (by rw [hpc]; rfl) (by rw [hpc]; rfl) rfl rfl rfl
              (by simp)
        | lose => exact ih.congr rfl rfl rfl rfl rfl

/-- No unit of `done_receiving` without a post. -/
theorem done_value_le (h : (system o cfg).Reachable s) :
    s.doneReceiving.value ≤ s.hist.donePosts := by
  refine reachable_induct (P := fun s : State ι => s.doneReceiving.value ≤ s.hist.donePosts) h
    (Nat.zero_le _) ?_
  intro s t _ _ ih hm
  cases hm with
  | main h =>
      rw [h.frame.donePosts]
      cases h with
      | initDone hpc => exact Nat.zero_le _
      | _ => exact ih
  | sub i h =>
      rw [h.frame.donePosts]
      cases h with
      | passed d hpc hd =>
          have hval := (Sem.take_eq_some.mp hd).1
          show d.value ≤ s.hist.donePosts
          omega
      | _ => exact ih
  | pub i h =>
      rw [h.frame.doneReceiving, h.frame.hist]
      exact ih
  | callback h =>
      cases h with
      | full m x hpc htopic heq =>
          show min (s.doneReceiving.value + 1) Sem.valueMax ≤ s.hist.donePosts + 1
          omega
      | _ => exact ih
  | paho h =>
      rw [h.frame.doneReceiving, h.frame.donePosts]
      exact ih

/-! ## §2. Runs without a further data message. -/

/-- No data message arrives with this action. -/
def Action.quiet : Action ι → Prop
  | .arrive m _ => m.topicName = pubkill
  | _ => True

variable (o cfg) in
/-- Runs in which no data message arrives. -/
def LeadsQuietly (s t : State ι) : Prop := (system o cfg).LeadsWhen (fun _ a => a.quiet) s t

/-- A quiet step brings no data. -/
theorem dataMessages_quiet {a : Action ι} (ha : a.quiet) (h : step o cfg s a = some t) :
    dataMessages t = dataMessages s := by
  cases a with
  | arrive m x =>
      have hdata : isData (m, x) = false := by simp [isData, show m.topicName = pubkill from ha]
      rw [(step_arrive h).2]
      simp [dataMessages, List.filter_append, hdata]
  | pub i e => rw [dataMessages, (step_pub h).frame.hist, dataMessages]
  | _ => rw [dataMessages, (step_local h trivial).arrivals, dataMessages]

/-- A thread waits on as long as nothing is posted. -/
theorem waiting_move {i : Nat} (hs : (system o cfg).Reachable s) (hdone : s.hist.donePosts = 0)
    (hwait : (s.subs i).waiting = true) (hm : Move o cfg s t) : (t.subs i).waiting = true := by
  have hle := done_value_le hs
  cases hm with
  | main h =>
      cases h with
      | createSub j hpc hj =>
          -- the thread that waits is not the one created now
          have hlt : i < j := by
            have hlt := sub_lt hs (i := i) (by intro habsent; rw [habsent] at hwait; cases hwait)
            rwa [hpc] at hlt
          show (update s.subs j SubPC.allocReceive i).waiting = true
          rw [update_of_ne (by omega)]
          exact hwait
      | _ => exact hwait
  | sub j h =>
      by_cases hij : i = j
      · subst hij
        cases h with
        | passed d hpc hd =>
            have hval := (Sem.take_eq_some.mp hd).1
            omega
        | blocked hpc hd =>
            show (update s.subs i SubPC.inWaitDone i).waiting = true
            rw [update_self]
            rfl
        | exit => exact hwait
        | _ =>
            rw [‹s.subs i = _›] at hwait
            cases hwait
      · rw [h.frame.others i hij]
        exact hwait
  | pub j h =>
      rw [h.frame.subs]
      exact hwait
  | callback h =>
      rw [h.frame.subs]
      exact hwait
  | paho h =>
      rw [h.frame.subs]
      exact hwait

/-- No post before the data messages exceed `MAX_ITER`. -/
theorem no_post (h : (system o cfg).Reachable s)
    (hle : (dataMessages s).length ≤ cfg.maxIter.toNat) : s.hist.donePosts = 0 :=
  ((boundary h).few (by omega)).2

/-- **Without a further data message, `MAX_ITER` of them post nothing**, and
every thread that waits for the post waits on. -/
theorem quiet_waits (hs : (system o cfg).Reachable s)
    (hle : (dataMessages s).length ≤ cfg.maxIter.toNat) (h : LeadsQuietly o cfg s t) :
    t.hist.donePosts = 0 ∧ ∀ i, (s.subs i).waiting = true → (t.subs i).waiting = true := by
  have hrun := h.induct (P := fun t => (dataMessages t).length ≤ cfg.maxIter.toNat
      ∧ ∀ i, (s.subs i).waiting = true → (t.subs i).waiting = true) ⟨hle, fun _ h => h⟩ ?_
  · exact ⟨no_post (hs.leads h.leads) hrun.1, hrun.2⟩
  · intro u a v hu hP ha hstep
    have hreach := hs.leads hu.leads
    refine ⟨by rw [dataMessages_quiet ha hstep]; exact hP.1, ?_⟩
    intro i hi
    exact waiting_move hreach (no_post hreach hP.1) (hP.2 i hi) (step_move hstep).2

/-! ## §3. The boundary. -/

/-- `done_receiving` has been posted if `MAX_ITER` messages are recorded. -/
def StopsWhenFull (cfg : Config) (s : State ι) : Prop :=
  cfg.maxIter.toNat ≤ s.hist.recorded.length → 0 < s.hist.donePosts

/-- **WHEN THE SIGNAL IS MISSING.**  Between two data messages the post is
due and not made exactly when `MAX_ITER` data messages have arrived; a run
that brings no further one then never ends reception. -/
theorem posts_unless_boundary (o : ByteOrder) (cfg : Config) (s : State ι)
    (h : (system o cfg).Reachable s) (hhandled : s.callback.beforeCount = 0) :
    (StopsWhenFull cfg s ↔ (dataMessages s).length ≠ cfg.maxIter.toNat)
    ∧ ((dataMessages s).length = cfg.maxIter.toNat → ∀ t, LeadsQuietly o cfg s t →
      t.hist.donePosts = 0 ∧ ∀ i, (s.subs i).waiting = true → (t.subs i).waiting = true) := by
  have hb := boundary h
  have hrtt : s.callback.beforeRtt = 0 := by
    cases hcb : s.callback <;> rw [hcb] at hhandled <;>
      simp_all [CallbackPC.beforeRtt, CallbackPC.beforeCount]
  have hfew := hb.few
  have hmany := hb.many
  rw [hrtt, Nat.sub_zero] at hfew hmany
  refine ⟨⟨?_, ?_⟩, ?_⟩
  · intro hstops heq
    obtain ⟨hrec, hzero⟩ := hfew heq.le
    have hpost := hstops (by omega)
    omega
  · intro hne hfull
    -- one message beyond the boundary at the latest
    rcases Nat.lt_or_ge cfg.maxIter.toNat (dataMessages s).length with hlt | hge
    · exact hmany hlt
    · have hrec := (hfew hge).1
      omega
  · intro heq t ht
    exact quiet_waits h heq.le ht

/-- A subscribe thread and `n` data messages. -/
def dataSchedule (n : Nat) : List (Action Unit) :=
  List.replicate 5 (.main granted) ++ List.replicate 4 (.sub 0 granted)
    ++ (List.range n).flatMap dataCall

/-- `--sub=topic` at the default 20 iterations: after 21 data messages the
buffer is full and the post is made; after 20 none is made before the next. -/
theorem posts_unless_boundary_full :
    (∃ s : State Unit,
      (system .little (Config.default [] ["topic"])).run (dataSchedule 20 ++ fullCall 20) initial = some s
      ∧ s.hist.recorded.length = 20 ∧ StopsWhenFull (Config.default [] ["topic"]) s)
    ∧ ∃ s : State Unit,
      (system .little (Config.default [] ["topic"])).run (dataSchedule 20) initial = some s
      ∧ s.hist.recorded.length = 20
      ∧ ∀ t, LeadsQuietly .little (Config.default [] ["topic"]) s t → t.hist.donePosts = 0 := by
  constructor
  · have hrun : ((system .little (Config.default [] ["topic"])).run (dataSchedule 20 ++ fullCall 20)
        initial).map (fun s => (s.callback.beforeCount, (dataMessages s).length, s.hist.recorded.length))
        = some (0, 21, 20) := rfl
    obtain ⟨s, hs, hfacts⟩ := Option.map_eq_some_iff.mp hrun
    simp only [Prod.mk.injEq] at hfacts
    obtain ⟨hidle, hdata, hrec⟩ := hfacts
    have hposts := posts_unless_boundary .little (Config.default [] ["topic"]) s (leads_of_run _ hs) hidle
    exact ⟨s, hs, hrec, hposts.1.mpr (by rw [hdata]; decide)⟩
  · have hrun : ((system .little (Config.default [] ["topic"])).run (dataSchedule 20) initial).map
        (fun s => (s.callback.beforeCount, (dataMessages s).length, s.hist.recorded.length))
        = some (0, 20, 20) := rfl
    obtain ⟨s, hs, hfacts⟩ := Option.map_eq_some_iff.mp hrun
    simp only [Prod.mk.injEq] at hfacts
    obtain ⟨hidle, hdata, hrec⟩ := hfacts
    have hposts := posts_unless_boundary .little (Config.default [] ["topic"]) s (leads_of_run _ hs) hidle
    exact ⟨s, hs, hrec, fun t ht => (hposts.2 hdata t ht).1⟩

/-- A subscriber can be left with `MAX_ITER` data messages. -/
theorem boundary_reachable (o : ByteOrder) (cfg : Config) (origin : ι) (hsubs : 0 < cfg.numSubs)
    (hqos : cfg.qos ≤ 2) (hdata : cfg.sub0 ≠ pubkill) :
    ∃ s : State ι, (system o cfg).Reachable s ∧ s.outcome = .running ∧ s.callback = .idle
      ∧ s.hist.recorded.length = cfg.maxIter.toNat ∧ s.hist.donePosts = 0
      ∧ s.subs 0 = .waitDone := by
  obtain ⟨rts, rtts, arr, rec, -, -, hlen, hlead⟩ := leads_data (o := o) origin
    (receiving_subscribed (s := spawned₀ cfg) 0 rfl rfl hdata) rfl rfl rfl rfl
    (List.length_replicate ..) (List.length_replicate ..) cfg.maxIter.toNat le_rfl
  refine ⟨_, (reachable_subscribed o hsubs hqos).leads hlead, rfl, rfl, ?_, rfl, rfl⟩
  rw [received, hlen]
  exact Nat.zero_add _

/-- `--sub=topic` at the default 20 iterations, after 20 data messages: the
buffer is full, nothing is posted, and the subscribe thread waits until data
message 21. -/
theorem twenty_messages_leave_it_waiting :
    (∃ s : State Unit, (system .little (Config.default [] ["topic"])).Reachable s
      ∧ s.outcome = .running ∧ s.callback = .idle ∧ s.hist.recorded.length = 20
      ∧ ¬ StopsWhenFull (Config.default [] ["topic"]) s ∧ (s.subs 0).waiting = true
      ∧ ∀ t, LeadsQuietly .little (Config.default [] ["topic"]) s t → (t.subs 0).waiting = true)
    ∧ ¬ ∀ (cfg : Config) (s : State Unit), 1 ≤ cfg.maxIter → (system .little cfg).Reachable s →
      s.callback = .idle → StopsWhenFull cfg s := by
  obtain ⟨s, hs, hrun, hidle, hrec, hzero, hpc⟩ :=
    boundary_reachable .little (Config.default [] ["topic"]) () (by decide) (by decide) (by decide)
  have hnot : ¬ StopsWhenFull (Config.default [] ["topic"]) s := by
    intro hstops
    have hpost := hstops hrec.ge
    omega
  have hwait : (s.subs 0).waiting = true := by rw [hpc]; rfl
  refine ⟨⟨s, hs, hrun, hidle, hrec, hnot, hwait, ?_⟩, ?_⟩
  · intro t ht
    refine (quiet_waits hs ?_ ht).2 0 hwait
    -- nothing is posted, so no message came after those recorded
    by_contra hgt
    have hpost := (boundary hs).many (by rw [hidle]; simpa [CallbackPC.beforeRtt] using hgt)
    omega
  · intro hall
    exact hnot (hall _ s (by decide) hs hidle)

end MqttBenchmark.Process
