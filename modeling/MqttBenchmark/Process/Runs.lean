/-
  MqttBenchmark.Process.Runs
  ──────────────────────────
  **RUNS THAT EXIST.**

  An invariant says what no run does; these lemmas say what some run does,
  for every configuration.  Each leads from a state that is named to a state
  that is written out, so that they can be chained:

    • `local_spawned`, `leads_spawned` — all threads exist, none has run yet,
    • `leads_destroyed` — `main` went on and destroyed the semaphores,
    • `leads_pub_subscribed`, `leads_sub_subscribed` — a thread subscribes,
    • `leads_kill` — a `pubkill` message is handled,
    • `leads_data` — `n` data messages are handled, for every `n`.
-/
import MqttBenchmark.Process.Frames

namespace MqttBenchmark.Process

open Lib Lib.System Function

variable {ι : Type} {o : ByteOrder} {cfg : Config} {s t : State ι}

/-! ## §1. One step. -/

/-- An answer that grants the call, with token 1. -/
def granted : Answer := ⟨true, 0, 1, []⟩

variable (o cfg) in
/-- Runs of local actions. -/
def LeadsLocally (s t : State ι) : Prop := (system o cfg).LeadsWhen (fun _ a => a.isLocal) s t

theorem local_main (e : Answer) (hrun : s.outcome = .running) (h : mainStep cfg s e = some t) :
    LeadsLocally o cfg s t := by
  apply LeadsWhen.single (a := .main e) trivial
  simp only [system, step, hrun, if_true]
  exact h

theorem leads_main (e : Answer) (hrun : s.outcome = .running) (h : mainStep cfg s e = some t) :
    (system o cfg).Leads s t :=
  (local_main e hrun h).leads

theorem local_sub (i : Nat) (e : Answer) (hrun : s.outcome = .running)
    (h : subscribeStep cfg s i e = some t) : LeadsLocally o cfg s t := by
  apply LeadsWhen.single (a := .sub i e) trivial
  simp only [system, step, hrun, if_true]
  exact h

theorem leads_sub (i : Nat) (e : Answer) (hrun : s.outcome = .running)
    (h : subscribeStep cfg s i e = some t) : (system o cfg).Leads s t :=
  (local_sub i e hrun h).leads

theorem leads_pub (i : Nat) (e : Answer) (hrun : s.outcome = .running)
    (h : publishStep cfg s i e = some t) : (system o cfg).Leads s t := by
  apply Leads.single (a := .pub i e)
  simp only [system, step, hrun, if_true]
  exact h

theorem local_callback (hrun : s.outcome = .running) (h : callbackStep o cfg s = some t) :
    LeadsLocally o cfg s t := by
  apply LeadsWhen.single (a := .callback) trivial
  simp only [system, step, hrun, if_true]
  exact h

theorem leads_callback (hrun : s.outcome = .running) (h : callbackStep o cfg s = some t) :
    (system o cfg).Leads s t :=
  (local_callback hrun h).leads

theorem leads_arrive (m : Message ι) (x : UInt64) (hrun : s.outcome = .running)
    (hidle : s.callback = .idle) (hlost : s.paho.lost = false)
    (hmatch : couldMatch s.paho.subscribed m.topicName) :
    (system o cfg).Leads s { s with callback := .arrived m x,
                                    hist := { s.hist with arrivals := s.hist.arrivals ++ [(m, x)] } } := by
  apply Leads.single (a := .arrive m x)
  simp only [system, step, hrun, if_true, hidle, hlost, hmatch, and_self]

theorem leads_confirm (n : Nat) (dt : Int) (rest : List (Nat × Int)) (hrun : s.outcome = .running)
    (hidle : s.callback = .idle) (hlost : s.paho.lost = false)
    (hfl : s.paho.inflight = (n, dt) :: rest) :
    (system o cfg).Leads s { s with callback := .delivered n dt,
                                    paho := { s.paho with inflight := rest } } := by
  apply Leads.single (a := .confirm 0)
  simp [system, step, hrun, hidle, hlost, hfl]

/-! ## §2. Start-up. -/

/-- All semaphores initialised, `m` subscribe and `n` publish threads
created, and nothing else done. -/
def spawnedState (pc : MainPC) (m n : Nat) : State ι where
  main := pc
  subs i := if i < m then .allocReceive else .absent
  pubs i := if i < n then PubThread.fresh else { PubThread.fresh with pc := .absent }
  callback := .idle
  outcome := .running
  doneReceiving := Sem.init 0
  stopPublish := Sem.init 0
  qos1Pubmutex := Sem.init 1
  deliveredtoken := -1
  receiveTs := none
  rttTs := none
  it := 0
  subTid := lastTid m
  pubTid := lastTid n
  paho := ⟨[], 0, [], [], false⟩
  hist := ⟨[], [], 0, 0, 0, fun _ => 0, fun _ => 0⟩

theorem local_subsCreated (m : Nat) (hm : m ≤ cfg.numSubs) :
    LeadsLocally o cfg initial (spawnedState (ι := ι) (.createSubs m) m 0) := by
  induction m with
  | zero =>
      apply ((local_main granted rfl rfl).trans (local_main granted rfl rfl)).trans
      apply local_main granted rfl
      simp [mainStep, initial, spawnedState, lastTid]
  -- one more round of the first loop of `main`
  | succ m ih =>
      refine (ih (by omega)).trans (local_main granted rfl ?_)
      simp only [mainStep, spawnedState, if_pos (show m < cfg.numSubs by omega), lastTid,
        Option.some.injEq, State.mk.injEq, and_true, true_and]
      funext i
      simp only [update_apply]
      split_ifs <;> first | rfl | omega

theorem local_pubsCreated (n : Nat) (hn : n ≤ cfg.numPubs) :
    LeadsLocally o cfg initial (spawnedState (ι := ι) (.createPubs n) cfg.numSubs n) := by
  induction n with
  | zero =>
      refine (local_subsCreated cfg.numSubs le_rfl).trans (local_main granted rfl ?_)
      simp [mainStep, spawnedState]
  | succ n ih =>
      refine (ih (by omega)).trans (local_main granted rfl ?_)
      simp only [mainStep, spawnedState, if_pos (show n < cfg.numPubs by omega), lastTid,
        Option.some.injEq, State.mk.injEq, and_true, true_and]
      funext i
      simp only [update_apply]
      split_ifs <;> first | rfl | omega

/-- All threads exist; `main` is about to destroy the first semaphore. -/
def spawned₀ (cfg : Config) : State ι := spawnedState .destroyDone cfg.numSubs cfg.numPubs

theorem local_spawned : LeadsLocally o cfg initial (spawned₀ (ι := ι) cfg) := by
  refine (local_pubsCreated cfg.numPubs le_rfl).trans (local_main granted rfl ?_)
  simp [mainStep, spawnedState, spawned₀]

theorem leads_spawned : (system o cfg).Leads initial (spawned₀ (ι := ι) cfg) :=
  local_spawned.leads

theorem spawned₀_subs {i : Nat} (hi : i < cfg.numSubs) :
    (spawned₀ cfg : State ι).subs i = .allocReceive :=
  if_pos hi

theorem spawned₀_pubs {i : Nat} (hi : i < cfg.numPubs) :
    ((spawned₀ cfg : State ι).pubs i).pc = .start := by
  simp [spawned₀, spawnedState, hi, PubThread.fresh]

/-- All threads exist; `main` has destroyed all semaphores and joins. -/
def destroyed₀ (cfg : Config) : State ι :=
  { spawned₀ cfg with
    main := .joinSubs 0
    doneReceiving := (Sem.init 0).destroy
    stopPublish := (Sem.init 0).destroy
    qos1Pubmutex := (Sem.init 1).destroy }

theorem leads_destroyed : (system o cfg).Leads initial (destroyed₀ (ι := ι) cfg) := by
  apply leads_spawned.trans
  apply ((leads_main granted rfl rfl).trans (leads_main granted rfl rfl)).trans
  exact leads_main granted rfl rfl

theorem destroyed₀_subs {i : Nat} (hi : i < cfg.numSubs) :
    (destroyed₀ cfg : State ι).subs i = .allocReceive :=
  spawned₀_subs (ι := ι) hi

theorem destroyed₀_pubs {i : Nat} (hi : i < cfg.numPubs) :
    ((destroyed₀ cfg : State ι).pubs i).pc = .start :=
  spawned₀_pubs (ι := ι) hi

/-! ## §3. One thread alone. -/

/-- A publish thread that has subscribed to `pubkill`. -/
theorem leads_pub_subscribed (i : Nat) (hrun : s.outcome = .running) (hpc : (s.pubs i).pc = .start)
    (hlost : s.paho.lost = false) :
    (system o cfg).Leads s ((s.addFilter pubkill).setPub i .reset) := by
  apply (leads_pub i granted (by exact hrun) (t := s.setPub i .subscribe) (by simp [publishStep, hpc])).trans
  refine (leads_pub i granted (by exact hrun) (t := (s.addFilter pubkill).setPub i .subscribing)
    (by simp [publishStep, hlost])).trans ?_
  exact leads_pub i granted (by exact hrun) (by simp [publishStep, hlost, granted])

/-- A publish thread from the top of its loop to the call of the library. -/
theorem leads_pub_publish (i : Nat) (hrun : s.outcome = .running) (hpc : (s.pubs i).pc = .reset) :
    (system o cfg).Leads s
      { s with deliveredtoken := 0,
               pubs := update s.pubs i { s.pubs i with pc := .publish, deliverTs := 0 } } := by
  refine (leads_pub i granted hrun (t := { s with deliveredtoken := 0 }.setPub i .stamp)
    (by simp [publishStep, hpc])).trans ?_
  exact leads_pub i granted (by exact hrun) (by simp [publishStep, granted])

/-- A publish thread from the top of its loop into the spin, with token 1. -/
theorem leads_pub_spin (i : Nat) (hrun : s.outcome = .running) (hpc : (s.pubs i).pc = .reset)
    (hlost : s.paho.lost = false) (hqos : cfg.qos ≠ 0) :
    (system o cfg).Leads s
      { s with
        deliveredtoken := 0
        paho := { s.paho with issued := s.paho.issued + 1,
                              inflight := s.paho.inflight ++ [(s.paho.issued, 1)] }
        pubs := update s.pubs i ⟨.spin, (s.pubs i).it, 0, 1, s.paho.issued⟩ } := by
  refine (leads_pub_publish i hrun hpc).trans ?_
  refine (leads_pub i granted (by exact hrun)
    (t := { s with
            deliveredtoken := 0
            paho := { s.paho with issued := s.paho.issued + 1,
                                  inflight := s.paho.inflight ++ [(s.paho.issued, 1)] }
            pubs := update s.pubs i
              { s.pubs i with pc := .publishing 1, deliverTs := 0, current := s.paho.issued } })
    (by simp [publishStep, granted, hlost, hqos])).trans ?_
  exact leads_pub i granted (by exact hrun) (by simp [publishStep, hqos])

/-- Subscribe thread `i` has allocated the buffers and subscribed. -/
def subscribedState (cfg : Config) (s : State ι) (i : Nat) : State ι :=
  ({ s with
      receiveTs := some (List.replicate cfg.maxIter.toNat 0)
      rttTs := some (List.replicate cfg.maxIter.toNat 0) }.addFilter cfg.sub0).setSub i .waitDone

theorem local_sub_subscribed (i : Nat) (hrun : s.outcome = .running)
    (hpc : s.subs i = .allocReceive) (hlost : s.paho.lost = false) (hqos : cfg.qos ≤ 2) :
    LeadsLocally o cfg s (subscribedState cfg s i) := by
  refine (local_sub i granted (by exact hrun)
    (t := { s with receiveTs := some (List.replicate cfg.maxIter.toNat 0) }.setSub i .allocRtt)
    (by simp [subscribeStep, hpc])).trans ?_
  refine (local_sub i granted (by exact hrun)
    (t := { s with receiveTs := some (List.replicate cfg.maxIter.toNat 0),
                    rttTs := some (List.replicate cfg.maxIter.toNat 0) }.setSub i .subscribe)
    (by simp [subscribeStep])).trans ?_
  refine (local_sub i granted (by exact hrun)
    (t := ({ s with receiveTs := some (List.replicate cfg.maxIter.toNat 0),
                     rttTs := some (List.replicate cfg.maxIter.toNat 0) }.addFilter cfg.sub0).setSub i
      .subscribing)
    (by simp [subscribeStep, hqos, hlost])).trans ?_
  exact local_sub i granted (by exact hrun)
    (by simp [subscribedState, subscribeStep, hlost, granted])

theorem leads_sub_subscribed (i : Nat) (hrun : s.outcome = .running)
    (hpc : s.subs i = .allocReceive) (hlost : s.paho.lost = false) (hqos : cfg.qos ≤ 2) :
    (system o cfg).Leads s (subscribedState cfg s i) :=
  (local_sub_subscribed i hrun hpc hlost hqos).leads

/-- The first subscribe thread is ready, and nothing else has happened. -/
theorem reachable_subscribed (o : ByteOrder) (hsubs : 0 < cfg.numSubs) (hqos : cfg.qos ≤ 2) :
    (system o cfg).Reachable (subscribedState (ι := ι) cfg (spawned₀ cfg) 0) :=
  leads_spawned.trans (leads_sub_subscribed 0 rfl (spawned₀_subs hsubs) rfl hqos)

/-! ## §4. Messages. -/

/-- `delivered` runs for the oldest publish in flight and finds the mutex. -/
theorem leads_delivered (n : Nat) (dt : Int) (rest : List (Nat × Int)) (d : Sem)
    (hrun : s.outcome = .running) (hidle : s.callback = .idle) (hlost : s.paho.lost = false)
    (hfl : s.paho.inflight = (n, dt) :: rest) (hd : s.qos1Pubmutex.take = some d) :
    (system o cfg).Leads s
      { s with qos1Pubmutex := d, deliveredtoken := dt, callback := .idle,
               paho := { s.paho with inflight := rest, confirmed := n :: s.paho.confirmed } } := by
  apply (leads_confirm n dt rest hrun hidle hlost hfl).trans
  refine (leads_callback (by exact hrun)
    (t := { s with qos1Pubmutex := d, callback := .storeToken n dt,
                   paho := { s.paho with inflight := rest } })
    (by simp [callbackStep, hd])).trans ?_
  exact leads_callback (by exact hrun) (by simp [callbackStep])

/-- One publish, from the top of the loop to its end, at any QoS. -/
theorem leads_pub_interval (cfg : Config) (i : Nat) (hrun : s.outcome = .running) (hpc : (s.pubs i).pc = .reset)
    (hlost : s.paho.lost = false) (hidle : s.callback = .idle) (hfl : s.paho.inflight = [])
    {d : Sem} (hd : s.qos1Pubmutex.take = some d) :
    ∃ (tok : Int) (p : PubThread) (paho : Paho) (mutex : Sem),
      p.pc = .interval ∧ paho.lost = false
      ∧ (system o cfg).Leads s
        { s with deliveredtoken := tok, pubs := update s.pubs i p, callback := .idle, paho := paho,
                 qos1Pubmutex := mutex } := by
  by_cases hqos : cfg.qos = 0
  -- QoS 0: the body ends with the call of the library
  · refine ⟨0, ⟨.interval, (s.pubs i).it, 0, (s.pubs i).token, s.paho.issued⟩,
      { s.paho with issued := s.paho.issued + 1 }, s.qos1Pubmutex, rfl, hlost, ?_⟩
    refine (leads_pub_publish i hrun hpc).trans ?_
    refine (leads_pub i granted (by exact hrun)
      (t := { s with
              deliveredtoken := 0
              paho := { s.paho with issued := s.paho.issued + 1 }
              pubs := update s.pubs i
                { s.pubs i with pc := .publishing 1, deliverTs := 0, current := s.paho.issued } })
      (by simp [publishStep, granted, hlost, hqos])).trans ?_
    exact leads_pub i granted (by exact hrun) (by simp [publishStep, hqos, hidle])
  -- QoS 1 and 2: spin, `delivered`, token read, mutex given back
  · refine ⟨1, ⟨.interval, (s.pubs i).it, 0, 1, s.paho.issued⟩,
      { s.paho with issued := s.paho.issued + 1, inflight := [],
                    confirmed := s.paho.issued :: s.paho.confirmed }, d.post, rfl, hlost, ?_⟩
    apply (leads_pub_spin i hrun hpc hlost hqos).trans
    refine (leads_delivered s.paho.issued 1 [] d (by exact hrun) (by exact hidle)
      (by exact hlost) (by simp [hfl]) (by exact hd)).trans ?_
    refine (leads_pub i granted (by exact hrun)
      (t := { s with
              deliveredtoken := 1
              callback := .idle
              qos1Pubmutex := d
              paho := { s.paho with issued := s.paho.issued + 1, inflight := [],
                                    confirmed := s.paho.issued :: s.paho.confirmed }
              pubs := update s.pubs i ⟨.postMutex, (s.pubs i).it, 0, 1, s.paho.issued⟩ })
      (by simp [publishStep])).trans ?_
    exact leads_pub i granted (by exact hrun) (by simp [publishStep])

/-- A publish thread that finds a stop publishes once more and ends. -/
theorem leads_pub_ended (cfg : Config) (i : Nat) (hrun : s.outcome = .running) (hpc : (s.pubs i).pc = .reset)
    (hlost : s.paho.lost = false) (hidle : s.callback = .idle) (hfl : s.paho.inflight = [])
    {d stop : Sem} (hd : s.qos1Pubmutex.take = some d) (hstop : s.stopPublish.take = some stop) :
    ∃ (tok : Int) (p : PubThread) (paho : Paho) (mutex : Sem), p.pc = .ended
      ∧ (system o cfg).Leads s
        { s with deliveredtoken := tok, pubs := update s.pubs i p, callback := .idle, paho := paho,
                 qos1Pubmutex := mutex, stopPublish := stop } := by
  obtain ⟨tok, p, paho, mutex, hp, hlost, hlead⟩ :=
    leads_pub_interval (o := o) cfg i hrun hpc hlost hidle hfl hd
  refine ⟨tok, { p with pc := .ended, it := p.it + 1 }, paho, mutex, rfl, hlead.trans ?_⟩
  refine (leads_pub i granted (by exact hrun)
    (t := { s with
            deliveredtoken := tok
            callback := .idle
            paho := paho
            qos1Pubmutex := mutex
            pubs := update s.pubs i { p with pc := .tryStop, it := p.it + 1 } })
    (by simp [publishStep, hp])).trans ?_
  refine (leads_pub i granted (by exact hrun)
    (t := { s with
            deliveredtoken := tok
            callback := .idle
            paho := paho
            qos1Pubmutex := mutex
            stopPublish := stop
            pubs := update s.pubs i { p with pc := .unsubscribe, it := p.it + 1 } })
    (by simp [publishStep, hstop])).trans ?_
  exact leads_pub i granted (by exact hrun) (by simp [publishStep, granted, hlost])

/-- A subscribe thread that finds `done_receiving` posted ends. -/
theorem leads_sub_ended (i : Nat) (hrun : s.outcome = .running) (hpc : s.subs i = .waitDone)
    (hlost : s.paho.lost = false) {d : Sem} (hd : s.doneReceiving.take = some d) :
    (system o cfg).Leads s
      ({ s with doneReceiving := d, stopPublish := s.stopPublish.post,
                hist := { s.hist with endPosts := s.hist.endPosts + 1 } }.setSub i .ended) := by
  refine (leads_sub i granted hrun (t := { s with doneReceiving := d }.setSub i .postStop)
    (by simp [subscribeStep, hpc, hd])).trans ?_
  refine (leads_sub i granted (by exact hrun)
    (t := { s with doneReceiving := d, stopPublish := s.stopPublish.post,
                   hist := { s.hist with endPosts := s.hist.endPosts + 1 } }.setSub i .unsubscribe)
    (by simp [subscribeStep])).trans ?_
  exact leads_sub i granted (by exact hrun) (by simp [subscribeStep, granted, hlost])

/-- A `pubkill` message is handled. -/
theorem leads_kill (m : Message ι) (hm : m.topicName = pubkill) (hrun : s.outcome = .running)
    (hidle : s.callback = .idle) (hlost : s.paho.lost = false)
    (hsub : ∃ f, f ∈ s.paho.subscribed) :
    (system o cfg).Leads s
      { s with stopPublish := s.stopPublish.post, callback := .idle,
               hist := { s.hist with arrivals := s.hist.arrivals ++ [(m, 0)],
                                     killPosts := s.hist.killPosts + 1 } } := by
  obtain ⟨f, hf⟩ := hsub
  apply (leads_arrive m 0 hrun hidle hlost ⟨f, hf, fun _ => hm⟩).trans
  exact leads_callback (by exact hrun) (by simp [callbackStep, hm])

/-- A message of the data topic whose payload is as short as it can be. -/
def dataMessage (origin : ι) (topicName : String) : Message ι :=
  ⟨topicName, List.replicate 13 0, [], origin⟩

@[simp] theorem dataMessage_topicName (origin : ι) (topicName : String) :
    (dataMessage origin topicName).topicName = topicName := rfl

theorem sampleOf_dataMessage (origin : ι) (topicName : String) (t : UInt64) :
    ∃ x, sampleOf o (dataMessage origin topicName) t = some x := by
  cases o <;> exact ⟨_, rfl⟩

/-- `msgarrvd` called for a data message it stores, at a clock reading. -/
def dataCall (x : Nat) : List (Action Unit) :=
  [.arrive (dataMessage () "topic") (UInt64.ofNat x), .callback, .callback, .callback]

/-- The same for the message that finds the buffer full. -/
def fullCall (x : Nat) : List (Action Unit) :=
  [.arrive (dataMessage () "topic") (UInt64.ofNat x), .callback, .callback]

/-- The same for a `pubkill` message. -/
def killCall : List (Action Unit) := [.arrive ⟨pubkill, [], [], ()⟩ 0, .callback]

/-- The state after data messages: buffers, counter and history differ. -/
def received (s : State ι) (rts : List UInt64) (rtts : List UInt32) (it : UInt32)
    (arrivals : List (Message ι × UInt64)) (recorded : List (Message ι × UInt64 × UInt32)) :
    State ι :=
  { s with receiveTs := some rts, rttTs := some rtts, it := it, callback := .idle,
           hist := { s.hist with arrivals := arrivals, recorded := recorded } }

/-- What it takes for data messages to be handled. -/
structure Receiving (cfg : Config) (s : State ι) : Prop where
  running : s.outcome = .running
  lost : s.paho.lost = false
  filter : cfg.sub0 ∈ s.paho.subscribed
  data : cfg.sub0 ≠ pubkill

/-- **`n` data messages fill the first `n` slots**, for every `n` up to
`MAX_ITER`. -/
theorem leads_data (origin : ι) (hs : Receiving cfg s) {rts : List UInt64} {rtts : List UInt32}
    (hidle : s.callback = .idle) (hit : s.it = 0) (hrts : s.receiveTs = some rts)
    (hrtts : s.rttTs = some rtts) (hlen : rts.length = cfg.maxIter.toNat)
    (hlen' : rtts.length = cfg.maxIter.toNat) (n : Nat) (hn : n ≤ cfg.maxIter.toNat) :
    ∃ rts' rtts' arr rec, rts'.length = cfg.maxIter.toNat ∧ rtts'.length = cfg.maxIter.toNat
      ∧ rec.length = s.hist.recorded.length + n
      ∧ (system o cfg).Leads s (received s rts' rtts' (UInt32.ofNat n) arr rec) := by
  induction n with
  | zero =>
      refine ⟨rts, rtts, s.hist.arrivals, s.hist.recorded, hlen, hlen', rfl, ?_⟩
      -- no message: the state is the one it was
      have heq : received s rts rtts (UInt32.ofNat 0) s.hist.arrivals s.hist.recorded = s := by
        obtain ⟨_⟩ := s
        simp only at hidle hit hrts hrtts
        subst hidle hit hrts hrtts
        rfl
      rw [heq]
      exact Leads.refl
  | succ n ih =>
      obtain ⟨rts', rtts', arr, rec, h1, h2, h3, hlead⟩ := ih (by omega)
      have hmax := cfg.maxIter.toNat_lt
      have hval : (UInt32.ofNat n).toNat = n := by
        rw [UInt32.toNat_ofNat']
        omega
      have hlt : UInt32.ofNat n < cfg.maxIter := by
        rw [UInt32.lt_iff_toNat_lt, hval]
        omega
      obtain ⟨x, hx⟩ := sampleOf_dataMessage (o := o) origin cfg.sub0 0
      refine ⟨rts'.set n 0, rtts'.set n x, arr ++ [(dataMessage origin cfg.sub0, 0)],
        rec ++ [(dataMessage origin cfg.sub0, 0, x)], by simpa using h1, by simpa using h2,
        by simp [h3]; omega, ?_⟩
      -- arrival, receive time, sample, count
      apply hlead.trans
      refine (leads_arrive (dataMessage origin cfg.sub0) 0 (by exact hs.running) (by rfl) (by exact hs.lost)
        (by exact ⟨cfg.sub0, hs.filter, fun h => absurd h hs.data⟩)).trans ?_
      refine (leads_callback (by exact hs.running)
        (t := { received s (rts'.set n 0) rtts' (UInt32.ofNat n)
                   (arr ++ [(dataMessage origin cfg.sub0, 0)]) rec with
                 callback := .storeRtt (dataMessage origin cfg.sub0) 0 x }) ?_).trans ?_
      · simp [callbackStep, received, hs.data, hlt, storeAt, hval, h1, hx,
          show n < cfg.maxIter.toNat by omega]
      refine (leads_callback (by exact hs.running)
        (t := { received s (rts'.set n 0) (rtts'.set n x) (UInt32.ofNat n)
                   (arr ++ [(dataMessage origin cfg.sub0, 0)])
                   (rec ++ [(dataMessage origin cfg.sub0, 0, x)]) with
                 callback := .count (dataMessage origin cfg.sub0) 0 }) ?_).trans ?_
      · simp [callbackStep, received, storeAt, hval, h2, show n < cfg.maxIter.toNat by omega]
      apply leads_callback (by exact hs.running)
      simp [callbackStep, received, UInt32.ofNat_add]

/-- **One data message more posts `done_receiving`**, once. -/
theorem leads_full (cfg : Config) (origin : ι) (hs : Receiving cfg s) {rts : List UInt64} {rtts : List UInt32}
    (hidle : s.callback = .idle) (hit : s.it = 0) (hrts : s.receiveTs = some rts)
    (hrtts : s.rttTs = some rtts) (hlen : rts.length = cfg.maxIter.toNat)
    (hlen' : rtts.length = cfg.maxIter.toNat) :
    ∃ rts' rtts' arr rec,
      (system o cfg).Leads s
        { received s rts' rtts' (cfg.maxIter + 1) arr rec with
          doneReceiving := s.doneReceiving.post
          hist := { s.hist with arrivals := arr, recorded := rec,
                                donePosts := s.hist.donePosts + 1 } } := by
  obtain ⟨rts', rtts', arr, rec, -, -, -, hlead⟩ :=
    leads_data (o := o) origin hs hidle hit hrts hrtts hlen hlen' cfg.maxIter.toNat le_rfl
  -- the counter is `MAX_ITER` now, so this message makes the post
  refine ⟨rts', rtts', arr ++ [(dataMessage origin cfg.sub0, 0)], rec, hlead.trans ?_⟩
  refine (leads_arrive (dataMessage origin cfg.sub0) 0 (by exact hs.running) (by rfl) (by exact hs.lost)
    (by exact ⟨cfg.sub0, hs.filter, fun h => absurd h hs.data⟩)).trans ?_
  refine (leads_callback (by exact hs.running)
    (t := { received s rts' rtts' cfg.maxIter (arr ++ [(dataMessage origin cfg.sub0, 0)]) rec with
             callback := .count (dataMessage origin cfg.sub0) 0
             doneReceiving := s.doneReceiving.post
             hist := { s.hist with arrivals := arr ++ [(dataMessage origin cfg.sub0, 0)],
                                   recorded := rec, donePosts := s.hist.donePosts + 1 } }) ?_).trans ?_
  · simp [callbackStep, received, hs.data]
  exact leads_callback (by exact hs.running) (by simp [callbackStep, received])

/-- A subscribe thread that is ready is ready for data. -/
theorem receiving_subscribed (i : Nat) (hrun : s.outcome = .running) (hlost : s.paho.lost = false)
    (hdata : cfg.sub0 ≠ pubkill) : Receiving cfg (subscribedState cfg s i) :=
  ⟨hrun, hlost, List.mem_cons_self, hdata⟩

/-- **From the subscription to the post**, in one run. -/
theorem leads_subscribed_full (cfg : Config) (origin : ι) (i : Nat) (hrun : s.outcome = .running)
    (hlost : s.paho.lost = false) (hidle : s.callback = .idle) (hit : s.it = 0)
    (hdata : cfg.sub0 ≠ pubkill) :
    ∃ rts rtts arr rec,
      (system o cfg).Leads (subscribedState cfg s i)
        { received (subscribedState cfg s i) rts rtts (cfg.maxIter + 1) arr rec with
          doneReceiving := s.doneReceiving.post
          hist := { s.hist with arrivals := arr, recorded := rec,
                                donePosts := s.hist.donePosts + 1 } } :=
  leads_full cfg origin (receiving_subscribed i hrun hlost hdata) hidle hit rfl rfl
    (List.length_replicate ..) (List.length_replicate ..)

end MqttBenchmark.Process
