/-
  MqttBenchmark.Process.Moves
  ───────────────────────────
  **WHAT ONE STEP CAN DO, SAID ONCE.**

  Each move names one branch of the step functions, with its guard and the
  state it leads to; `step_move` says a step is one of them.  Every invariant
  is proved by cases on the moves, never by unfolding `step`.
-/
import MqttBenchmark.Process.Def

namespace MqttBenchmark.Process

open Lib Function

variable {ι : Type}

/-! ## §1. The moves of each thread. -/

/-- The moves of `main`. -/
inductive MainMove (cfg : Config) (s : State ι) : State ι → Prop
  | initDone (hpc : s.main = .initDone) :
      MainMove cfg s { s with doneReceiving := Sem.init 0, main := .initStop }
  | initStop (hpc : s.main = .initStop) :
      MainMove cfg s { s with stopPublish := Sem.init 0, main := .initMutex }
  | initMutex (hpc : s.main = .initMutex) :
      MainMove cfg s { s with qos1Pubmutex := Sem.init 1, main := .createSubs 0 }
  | createSub (i : Nat) (hpc : s.main = .createSubs i) (hi : i < cfg.numSubs) :
      MainMove cfg s { s with subs := update s.subs i .allocReceive, subTid := some i,
                              main := .createSubs (i + 1) }
  | subsCreated (i : Nat) (hpc : s.main = .createSubs i) (hi : cfg.numSubs ≤ i) :
      MainMove cfg s { s with main := .createPubs 0 }
  | createPub (i : Nat) (hpc : s.main = .createPubs i) (hi : i < cfg.numPubs) :
      MainMove cfg s { s with pubs := update s.pubs i PubThread.fresh, pubTid := some i,
                              main := .createPubs (i + 1) }
  | pubsCreated (i : Nat) (hpc : s.main = .createPubs i) (hi : cfg.numPubs ≤ i) :
      MainMove cfg s { s with main := .destroyDone }
  | destroyDone (hpc : s.main = .destroyDone) :
      MainMove cfg s { s with doneReceiving := s.doneReceiving.destroy, main := .destroyStop }
  | destroyStop (hpc : s.main = .destroyStop) :
      MainMove cfg s { s with stopPublish := s.stopPublish.destroy, main := .destroyMutex }
  | destroyMutex (hpc : s.main = .destroyMutex) :
      MainMove cfg s { s with qos1Pubmutex := s.qos1Pubmutex.destroy, main := .joinSubs 0 }
  | joinSub (i k : Nat) (hpc : s.main = .joinSubs i) (hi : i < cfg.numSubs)
      (htid : s.subTid = some k) (hend : s.subs k = .ended) :
      MainMove cfg s { s with hist := { s.hist with
                                subJoins := update s.hist.subJoins k (s.hist.subJoins k + 1) },
                              main := .joinSubs (i + 1) }
  | subsJoined (i : Nat) (hpc : s.main = .joinSubs i) (hi : cfg.numSubs ≤ i) :
      MainMove cfg s { s with main := .summary }
  | noSummary (hpc : s.main = .summary) (hbuf : s.rttTs = none) :
      MainMove cfg s { s with main := .joinPubs 0 }
  | summary (buf sorted : List UInt32) (hpc : s.main = .summary) (hbuf : s.rttTs = some buf)
      (hperm : sorted.Perm buf) :
      MainMove cfg s { s with rttTs := some sorted, main := .joinPubs 0 }
  | joinPub (i k : Nat) (hpc : s.main = .joinPubs i) (hi : i < cfg.numPubs)
      (htid : s.pubTid = some k) (hend : (s.pubs k).pc = .ended) :
      MainMove cfg s { s with hist := { s.hist with
                                pubJoins := update s.hist.pubJoins k (s.hist.pubJoins k + 1) },
                              main := .joinPubs (i + 1) }
  | pubsJoined (i : Nat) (hpc : s.main = .joinPubs i) (hi : cfg.numPubs ≤ i) :
      MainMove cfg s { s with main := .disconnect }
  | disconnect (hpc : s.main = .disconnect) :
      MainMove cfg s { s with main := .returned, outcome := .exited }

/-- **Every step of `main` is one of its moves.** -/
theorem mainStep_move {cfg : Config} {s s' : State ι} {e : Answer}
    (h : mainStep cfg s e = some s') : MainMove cfg s s' := by
  unfold mainStep at h
  split at h
  case h_1 hpc => cases h; exact .initDone hpc
  case h_2 hpc => cases h; exact .initStop hpc
  case h_3 hpc => cases h; exact .initMutex hpc
  case h_4 i hpc =>
    split at h <;> cases h
    · exact .createSub i hpc ‹_›
    · exact .subsCreated i hpc (by omega)
  case h_5 i hpc =>
    split at h <;> cases h
    · exact .createPub i hpc ‹_›
    · exact .pubsCreated i hpc (by omega)
  case h_6 hpc => cases h; exact .destroyDone hpc
  case h_7 hpc => cases h; exact .destroyStop hpc
  case h_8 hpc => cases h; exact .destroyMutex hpc
  case h_9 i hpc =>
    split at h
    next hi =>
      split at h
      next => cases h
      next k htid =>
        -- `pthread_join` returns only once that thread has ended
        split at h <;> cases h
        exact .joinSub i k hpc hi htid ‹_›
    next hi => cases h; exact .subsJoined i hpc (by omega)
  case h_10 hpc =>
    -- no subscribe thread has allocated a buffer, or there is one to sort
    split at h
    next hbuf => cases h; exact .noSummary hpc hbuf
    next buf hbuf =>
      split at h <;> cases h
      exact .summary buf e.sorted hpc hbuf ‹_›
  case h_11 i hpc =>
    split at h
    next hi =>
      split at h
      next => cases h
      next k htid =>
        split at h <;> cases h
        exact .joinPub i k hpc hi htid ‹_›
    next hi => cases h; exact .pubsJoined i hpc (by omega)
  case h_12 hpc => cases h; exact .disconnect hpc
  case h_13 => cases h

/-- The moves of subscribe thread `i`. -/
inductive SubMove (cfg : Config) (s : State ι) (i : Nat) : State ι → Prop
  | allocReceive (hpc : s.subs i = .allocReceive) :
      SubMove cfg s i
        ({ s with receiveTs := some (List.replicate cfg.maxIter.toNat 0) }.setSub i .allocRtt)
  | allocRtt (hpc : s.subs i = .allocRtt) :
      SubMove cfg s i
        ({ s with rttTs := some (List.replicate cfg.maxIter.toNat 0) }.setSub i .subscribe)
  | subscribe (hpc : s.subs i = .subscribe) (hqos : cfg.qos ≤ 2) (hlost : s.paho.lost = false) :
      SubMove cfg s i ((s.addFilter cfg.sub0).setSub i .subscribing)
  | subscribed (hpc : s.subs i = .subscribing) : SubMove cfg s i (s.setSub i .waitDone)
  | passed (d : Sem) (hpc : s.subs i = .waitDone ∨ s.subs i = .inWaitDone)
      (hd : s.doneReceiving.take = some d) :
      SubMove cfg s i ({ s with doneReceiving := d }.setSub i .postStop)
  | blocked (hpc : s.subs i = .waitDone) (hd : s.doneReceiving.take = none) :
      SubMove cfg s i (s.setSub i .inWaitDone)
  | postStop (hpc : s.subs i = .postStop) :
      SubMove cfg s i
        ({ s with stopPublish := s.stopPublish.post,
                  hist := { s.hist with endPosts := s.hist.endPosts + 1 } }.setSub i .unsubscribe)
  | unsubscribed (hpc : s.subs i = .unsubscribe) : SubMove cfg s i (s.setSub i .ended)
  | exit : SubMove cfg s i s.exit

/-- **Every step of a subscribe thread is one of its moves.** -/
theorem subscribeStep_move {cfg : Config} {s s' : State ι} {i : Nat} {e : Answer}
    (h : subscribeStep cfg s i e = some s') : SubMove cfg s i s' := by
  unfold subscribeStep at h
  split at h
  case h_1 => cases h
  case h_2 hpc => cases h; exact .allocReceive hpc
  case h_3 hpc => cases h; exact .allocRtt hpc
  case h_4 hpc =>
    -- the library refuses, or the request is on its way
    split at h <;> cases h
    · next hc => exact .subscribe hpc hc.1 hc.2
    · exact .exit
  case h_5 hpc =>
    split at h <;> cases h
    · exact .subscribed hpc
    · exact .exit
  case h_6 hpc =>
    -- the post is there, or the thread is suspended
    split at h <;> cases h
    · next hd => exact .passed _ (.inl hpc) hd
    · next hd => exact .blocked hpc hd
  case h_7 hpc =>
    split at h <;> cases h
    next hd => exact .passed _ (.inr hpc) hd
  case h_8 hpc => cases h; exact .postStop hpc
  case h_9 hpc =>
    split at h <;> cases h
    · exact .unsubscribed hpc
    · exact .exit
  case h_10 => cases h

/-- The moves of publish thread `i`. -/
inductive PubMove (cfg : Config) (s : State ι) (i : Nat) : State ι → Prop
  | start (hpc : (s.pubs i).pc = .start) : PubMove cfg s i (s.setPub i .subscribe)
  | subscribe (hpc : (s.pubs i).pc = .subscribe) (hlost : s.paho.lost = false) :
      PubMove cfg s i ((s.addFilter pubkill).setPub i .subscribing)
  | subscribed (hpc : (s.pubs i).pc = .subscribing) : PubMove cfg s i (s.setPub i .reset)
  | reset (hpc : (s.pubs i).pc = .reset) :
      PubMove cfg s i ({ s with deliveredtoken := 0 }.setPub i .stamp)
  | stamp (t : UInt64) (hpc : (s.pubs i).pc = .stamp) :
      PubMove cfg s i
        { s with pubs := update s.pubs i { s.pubs i with pc := .publish, deliverTs := t } }
  | publish (tok : Int) (hpc : (s.pubs i).pc = .publish) (htok : tok ≠ 0)
      (hlost : s.paho.lost = false) :
      PubMove cfg s i
        { s with
          paho := { s.paho with
            issued := s.paho.issued + 1
            inflight := if cfg.qos ≠ 0 then s.paho.inflight ++ [(s.paho.issued, tok)]
                        else s.paho.inflight }
          pubs := update s.pubs i
            { s.pubs i with pc := .publishing tok, current := s.paho.issued } }
  | published (tok : Int) (hpc : (s.pubs i).pc = .publishing tok) (hqos : cfg.qos ≠ 0) :
      PubMove cfg s i { s with pubs := update s.pubs i { s.pubs i with pc := .spin, token := tok } }
  | sent (tok : Int) (hpc : (s.pubs i).pc = .publishing tok) (hqos : cfg.qos = 0) :
      PubMove cfg s i (s.setPub i .interval)
  | leave (hpc : (s.pubs i).pc = .spin) (htok : s.deliveredtoken = (s.pubs i).token) :
      PubMove cfg s i (s.setPub i .postMutex)
  | postMutex (hpc : (s.pubs i).pc = .postMutex) :
      PubMove cfg s i ({ s with qos1Pubmutex := s.qos1Pubmutex.post }.setPub i .interval)
  | interval (hpc : (s.pubs i).pc = .interval) :
      PubMove cfg s i
        { s with pubs := update s.pubs i { s.pubs i with pc := .tryStop, it := (s.pubs i).it + 1 } }
  | stop (d : Sem) (hpc : (s.pubs i).pc = .tryStop) (hd : s.stopPublish.take = some d) :
      PubMove cfg s i ({ s with stopPublish := d }.setPub i .unsubscribe)
  | again (hpc : (s.pubs i).pc = .tryStop) (hd : s.stopPublish.take = none) :
      PubMove cfg s i (s.setPub i .reset)
  | unsubscribed (hpc : (s.pubs i).pc = .unsubscribe) : PubMove cfg s i (s.setPub i .ended)
  | exit : PubMove cfg s i s.exit

/-- **Every step of a publish thread is one of its moves.** -/
theorem publishStep_move {cfg : Config} {s s' : State ι} {i : Nat} {e : Answer}
    (h : publishStep cfg s i e = some s') : PubMove cfg s i s' := by
  unfold publishStep at h
  split at h
  case h_1 => cases h
  case h_2 hpc => cases h; exact .start hpc
  case h_3 hpc =>
    split at h <;> cases h
    · exact .subscribe hpc ‹_›
    · exact .exit
  case h_4 hpc =>
    split at h <;> cases h
    · exact .subscribed hpc
    · exact .exit
  case h_5 hpc => cases h; exact .reset hpc
  case h_6 hpc => cases h; exact .stamp e.clock hpc
  case h_7 hpc =>
    split at h
    -- the library refused or accepted the message
    next hc =>
      split at h <;> cases h
      exact .publish e.token hpc ‹_› hc.2
    next => cases h; exact .exit
  case h_8 tok hpc =>
    split at h <;> cases h
    · exact .published tok hpc ‹_›
    · exact .sent tok hpc (not_not.mp ‹_›)
  case h_9 hpc =>
    split at h <;> cases h
    exact .leave hpc ‹_›
  case h_10 hpc => cases h; exact .postMutex hpc
  case h_11 hpc => cases h; exact .interval hpc
  case h_12 hpc =>
    -- `sem_trywait` takes a unit, or the loop goes round again
    split at h <;> cases h
    · next hd => exact .stop _ hpc hd
    · next hd => exact .again hpc hd
  case h_13 hpc =>
    split at h <;> cases h
    · exact .unsubscribed hpc
    · exact .exit
  case h_14 => cases h

/-- The moves of the callback thread. -/
inductive CallbackMove (o : ByteOrder) (cfg : Config) (s : State ι) : State ι → Prop
  | take (n : Nat) (dt : Int) (d : Sem)
      (hpc : s.callback = .delivered n dt ∨ s.callback = .inWaitMutex n dt)
      (hd : s.qos1Pubmutex.take = some d) :
      CallbackMove o cfg s { s with qos1Pubmutex := d, callback := .storeToken n dt }
  | blocked (n : Nat) (dt : Int) (hpc : s.callback = .delivered n dt)
      (hd : s.qos1Pubmutex.take = none) :
      CallbackMove o cfg s { s with callback := .inWaitMutex n dt }
  | storeToken (n : Nat) (dt : Int) (hpc : s.callback = .storeToken n dt) :
      CallbackMove o cfg s { s with deliveredtoken := dt, callback := .idle,
                                    paho := { s.paho with confirmed := n :: s.paho.confirmed } }
  | kill (m : Message ι) (t : UInt64) (hpc : s.callback = .arrived m t)
      (htopic : m.topicName = pubkill) :
      CallbackMove o cfg s { s with stopPublish := s.stopPublish.post, callback := .idle,
                                    hist := { s.hist with killPosts := s.hist.killPosts + 1 } }
  | storeReceive (m : Message ι) (t : UInt64) (x : UInt32) (buf : Option (List UInt64))
      (hpc : s.callback = .arrived m t) (htopic : m.topicName ≠ pubkill) (hit : s.it < cfg.maxIter)
      (hx : sampleOf o m t = some x) (hbuf : storeAt s.receiveTs s.it.toNat t = some buf) :
      CallbackMove o cfg s { s with receiveTs := buf, callback := .storeRtt m t x }
  | full (m : Message ι) (t : UInt64) (hpc : s.callback = .arrived m t)
      (htopic : m.topicName ≠ pubkill) (hit : s.it = cfg.maxIter) :
      CallbackMove o cfg s { s with doneReceiving := s.doneReceiving.post, callback := .count m t,
                                    hist := { s.hist with donePosts := s.hist.donePosts + 1 } }
  | skip (m : Message ι) (t : UInt64) (hpc : s.callback = .arrived m t)
      (htopic : m.topicName ≠ pubkill) (hit : cfg.maxIter < s.it) :
      CallbackMove o cfg s { s with callback := .count m t }
  | storeRtt (m : Message ι) (t : UInt64) (x : UInt32) (buf : Option (List UInt32))
      (hpc : s.callback = .storeRtt m t x) (hbuf : storeAt s.rttTs s.it.toNat x = some buf) :
      CallbackMove o cfg s
        { s with rttTs := buf, callback := .count m t,
                 hist := { s.hist with recorded := s.hist.recorded ++ [(m, t, x)] } }
  | count (m : Message ι) (t : UInt64) (hpc : s.callback = .count m t) :
      CallbackMove o cfg s { s with it := s.it + 1, callback := .idle }
  | fault : CallbackMove o cfg s s.fault

/-- **Every step of the callback thread is one of its moves.** -/
theorem callbackStep_move {o : ByteOrder} {cfg : Config} {s s' : State ι}
    (h : callbackStep o cfg s = some s') : CallbackMove o cfg s s' := by
  unfold callbackStep at h
  split at h
  case h_1 => cases h
  case h_2 n dt hpc =>
    -- the mutex is free, or `delivered` waits for it
    split at h <;> cases h
    · next hd => exact .take n dt _ (.inl hpc) hd
    · next hd => exact .blocked n dt hpc hd
  case h_3 n dt hpc =>
    split at h <;> cases h
    next hd => exact .take n dt _ (.inr hpc) hd
  case h_4 n dt hpc => cases h; exact .storeToken n dt hpc
  case h_5 m t hpc =>
    split at h
    next htopic => cases h; exact .kill m t hpc htopic
    next htopic =>
      -- the buffer has room, or the message is the first or a later one without
      split at h
      -- a store outside the buffer, or a payload without a header, is a fault
      next hit =>
        split at h <;> cases h
        · next x buf hx hbuf => exact .storeReceive m t x buf hpc htopic hit hx hbuf
        · exact .fault
      next hlt =>
        split at h <;> cases h
        · exact .full m t hpc htopic ‹_›
        · next hne => exact .skip m t hpc htopic (by grind)
  case h_6 m t x hpc =>
    split at h <;> cases h
    · next buf hbuf => exact .storeRtt m t x buf hpc hbuf
    · exact .fault
  case h_7 m t hpc => cases h; exact .count m t hpc

/-- What the client library does on its own. -/
inductive PahoMove (s : State ι) : State ι → Prop
  | arrive (m : Message ι) (t : UInt64) (hpc : s.callback = .idle)
      (hmatch : couldMatch s.paho.subscribed m.topicName) :
      PahoMove s { s with callback := .arrived m t,
                          hist := { s.hist with arrivals := s.hist.arrivals ++ [(m, t)] } }
  | confirm (k n : Nat) (dt : Int) (hpc : s.callback = .idle)
      (hk : s.paho.inflight[k]? = some (n, dt)) :
      PahoMove s { s with callback := .delivered n dt,
                          paho := { s.paho with inflight := s.paho.inflight.eraseIdx k } }
  | lose : PahoMove s { s with paho := { s.paho with lost := true } }

/-! ## §2. Every step is a move. -/

/-- A move of some part of the process. -/
inductive Move (o : ByteOrder) (cfg : Config) (s : State ι) (s' : State ι) : Prop
  | main (h : MainMove cfg s s')
  | sub (i : Nat) (h : SubMove cfg s i s')
  | pub (i : Nat) (h : PubMove cfg s i s')
  | callback (h : CallbackMove o cfg s s')
  | paho (h : PahoMove s s')

/-- **The inversion of a step.** -/
theorem step_move {o : ByteOrder} {cfg : Config} {s s' : State ι} {a : Action ι}
    (h : step o cfg s a = some s') : s.outcome = .running ∧ Move o cfg s s' := by
  unfold step at h
  split at h
  next hrun =>
    refine ⟨hrun, ?_⟩
    cases a with
    | main e => exact .main (mainStep_move h)
    | sub i e => exact .sub i (subscribeStep_move h)
    | pub i e => exact .pub i (publishStep_move h)
    | callback => exact .callback (callbackStep_move h)
    | arrive m t =>
        simp only at h
        split at h
        next hpc =>
          split at h <;> cases h
          next hc => exact .paho (.arrive m t hpc hc.2)
        next => cases h
    | confirm k =>
        simp only at h
        split at h
        next n dt hpc hk =>
          split at h <;> cases h
          exact .paho (.confirm k n dt hpc hk)
        next => cases h
    | lose => cases h; exact .paho .lose
  next => cases h

/-- The invariant rule on moves. -/
theorem reachable_induct {o : ByteOrder} {cfg : Config} {P : State ι → Prop} {t : State ι}
    (h : (system o cfg).Reachable t) (h0 : P initial)
    (hmove : ∀ s s', (system o cfg).Reachable s → s.outcome = .running → P s → Move o cfg s s' → P s') :
    P t :=
  h.induct h0 fun s _ s' hs hP hstep =>
    hmove s s' hs (step_move hstep).1 hP (step_move hstep).2

end MqttBenchmark.Process
