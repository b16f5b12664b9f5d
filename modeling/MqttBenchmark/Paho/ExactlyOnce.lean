/-
  MqttBenchmark.Paho.ExactlyOnce
  ──────────────────────────────
  **WHAT A SESSION DELIVERS**, over every run: publishes of both ends, packets
  read in any order between the two ends, retries, pending writes, and
  connections that break and are made again.

    • `exactly_once` — QoS 2 messages arrive exactly once,
    • `arrive_in_order` — and in their order, with one in flight at a time,
    • `at_least_once`, `tokens`, `token_arrived` — QoS 1 messages, and the tokens
      the application gets, where messages are sent again on a new connection
      only.

  An acknowledgement that waits behind pending bytes is still in its queue
  when the connection breaks, and nothing empties the queue then; the runs
  here are those that make a connection with no such one left.
-/
import MqttBenchmark.Paho.Exchange
import MqttBenchmark.Lib.Simulation

namespace MqttBenchmark.Paho

open Lib Lib.System Lib.Handshake MQTTProtocol MQTTClient Function

namespace Session

variable {opts : End → SessionOptions} {R : Handshake.State Content → Prop} {L : Prop}

/-! ## §1. Each step is a run of every exchange. -/

/-- No acknowledgement waits when the connection is made again. -/
def Flushed (s : Session) : Action → Prop
  | .connect _ => ∀ e, (s.ends e).outboundQueue = []
  | _ => True

/-- Nothing is sent again, unless on a new connection. -/
def Unrepeated (opts : End → SessionOptions) (s : Session) : Action → Prop
  | .retry e due n => (retries (opts e).retryInterval (s.ends e) false due n).2 = []
  | _ => True

/-- Nothing on its way is lost. -/
def Kept (s : Session) : Action → Prop
  | .lose | .connect _ => False
  | .writeAvailable e n _ => (s.ends e).outboundQueue.length ≤ n
  | _ => True

instance {P : End → Prop} [∀ e, Decidable (P e)] : Decidable (∀ e, P e) :=
  decidable_of_iff (P .near ∧ P .far)
    ⟨fun h e => End.rec h.1 h.2 e, fun h => ⟨h .near, h .far⟩⟩

instance (s : Session) : ∀ a, Decidable (Flushed s a)
  | .connect _ => inferInstanceAs (Decidable (∀ e, (s.ends e).outboundQueue = []))
  | .publish .. | .takeId _ | .cycle _ | .messageArrived _ | .retry .. | .pending _
  | .writeAvailable .. | .lose => isTrue trivial

instance (opts : End → SessionOptions) (s : Session) : ∀ a, Decidable (Unrepeated opts s a)
  | .retry e due n => inferInstanceAs
      (Decidable ((retries (opts e).retryInterval (s.ends e) false due n).2 = []))
  | .publish .. | .takeId _ | .cycle _ | .messageArrived _ | .connect _ | .pending _
  | .writeAvailable .. | .lose => isTrue trivial

/-- Both ends are well-formed, and nothing waits at one without pending bytes. -/
structure Ok (opts : End → SessionOptions) (s : Session) : Prop where
  wf (e : End) : (s.ends e).Wf (opts e)
  quiet (e : End) : (s.ends e).Quiet

/-- **A STEP OF THE SESSION** is, in every exchange, a run of its handshake. -/
theorem exchange_step {s s' : Session} {a : Action} (hok : Ok opts s) (hflushed : Flushed s a)
    (hretry : Unrepeated opts s a ∨ ∀ t, R t) (hlose : Kept s a ∨ (∀ t, Drained t → R t) ∧ L)
    (hstep : step opts s a = some s') (e : End) (i : Nat) :
    Steps R L (s.exchange e i) (s'.exchange e i) := by
  cases takes_of_step hstep with
  | publish e' p qos retain r _ _ hpending hqos hr =>
      have hempty := hok.quiet e' hpending
      exact moves_exchange (publish5_moves (hok.wf e') hempty hqos hr) e i
  | takeId e' =>
      obtain ⟨msgID, hframe⟩ := assignMsgId_frame (s.ends e')
      rw [hframe]
      refine moves_exchange (moves_same ?_) e i
      exact ⟨rfl, rfl, rfl, rfl⟩
  | cycle e' pack rest hwire =>
      refine cycle_exchange (s := { s with wire := update s.wire e' rest }) (t := s) (hok.wf e')
        (hok.quiet e') rfl ?_ ?_ e i
      · show s.wire e' ++ _ = pack :: (update s.wire e' rest e' ++ _)
        rw [hwire, update_self, List.cons_append]
      · show s.wire e'.peer ++ _ = update s.wire e' rest e'.peer ++ _
        rw [update_of_ne (peer_ne e')]
  | messageArrived e' =>
      refine moves_exchange (moves_same ?_) e i
      exact ⟨rfl, rfl, rfl, rfl⟩
  | retry e' due n hpending =>
      refine moves_exchange (retries_moves (hok.wf e') (hok.quiet e' hpending) _ _ _ _ ?_) e i
      intro hne
      rcases hretry with h | h
      · exact absurd h hne
      · exact h
  | pending e' =>
      refine moves_exchange (moves_same ?_) e i
      exact ⟨rfl, rfl, rfl, rfl⟩
  | writeAvailable e' n again => exact writeAvailable_exchange again (hlose.imp_right And.right) e i
  | lose =>
      have hL := hlose.resolve_left fun h => h
      refine exchange_lose hL.2 (fun _ _ => by rfl) (fun _ _ => by rfl) ?_ e i
      intro e
      exact List.sublist_append_right _ _
  | connect n =>
      have hL := hlose.resolve_left fun h => h
      exact connect_exchange hok.wf hflushed hL.1 hL.2 n e i

/-! ## §2. Nothing waits without pending bytes. -/

/-- The queue is kept, and the socket is free only if it was. -/
theorem quiet_congr {client client' : Clients} (h : client.Quiet)
    (hpending : client'.noPendingWrites = true → client.noPendingWrites = true)
    (hqueue : client'.outboundQueue = client.outboundQueue) : client'.Quiet := by
  intro hp
  rw [hqueue]
  exact h (hpending hp)

/-- An acknowledgement is queued only behind pending bytes. -/
theorem quiet_sendAck {client : Clients} (h : client.Quiet) (type : MsgType) (msgid : Nat) :
    (sendAck client type msgid).1.Quiet := by
  unfold sendAck
  split
  · exact h
  next hp =>
    intro hp'
    exact absurd hp' hp

theorem quiet_publish5 {client : Clients} {p : Publication} {qos : Nat} {retain : Bool}
    {r : Clients × Sends} (h : client.Quiet) (hr : publish5 client p qos retain = some r) :
    r.1.Quiet := by
  obtain ⟨msgID, msgid, rfl, -⟩ := publish5_start hr
  refine quiet_congr h ?_ (startPublish_frame _ _).2.1
  unfold startPublish
  dsimp only
  split
  · exact id
  · exact id

/-- Reading a packet leaves the queue to `sendAck`. -/
theorem quiet_cycle {client : Clients} (h : client.Quiet) (pack : Packet) :
    (cycle client pack).1.Quiet := by
  unfold cycle
  cases pack with
  | publish publish =>
      dsimp only
      unfold handlePublishes
      split
      · exact h
      · split
        · have hp : (processPublication client publish).Quiet := h
          exact quiet_sendAck hp _ _
        · split
          · refine quiet_sendAck ?_ _ _
            exact h
          · exact h
  | ack ack =>
      dsimp only
      split
      · obtain ⟨msgs, hframe⟩ := handlePubacks_frame client ack.msgId
        rw [hframe]
        exact h
      · obtain ⟨msgs, hframe⟩ := handlePubcomps_frame client ack.msgId
        rw [hframe]
        exact h
      · obtain ⟨msgs, hframe⟩ := handlePubrecs_frame client ack.msgId
        rw [hframe]
        refine quiet_sendAck ?_ _ _
        exact h
      · unfold handlePubrels
        refine quiet_sendAck ?_ _ _
        split
        · exact h
        · split
          · exact h
          · split
            · exact h
            · exact h
      · exact h
  | _ => exact h

theorem quiet_retries {client : Clients} (h : client.Quiet) (retryInterval : Int)
    (regardless : Bool) (due : Nat → Bool) (n : Nat) :
    (retries retryInterval client regardless due n).1.Quiet := by
  unfold retries
  split
  · exact h
  · refine quiet_congr h (fun hp => ?_) rfl
    exact (Bool.and_eq_true_iff.mp hp).1

/-- A connection made with an empty queue begins with one. -/
theorem quiet_resume {opts : SessionOptions} {client : Clients} (h : client.outboundQueue = [])
    (n : Nat) : (resume opts client n).1.Quiet := by
  intro _
  obtain ⟨client', msgs, hframe, -, hqueue, -⟩ := resume_frame opts client n
  rw [hframe]
  exact hqueue.trans h

/-- **Every step keeps the ends in order**, as long as no connection finds
acknowledgements waiting. -/
theorem ok_step {s s' : Session} {a : Action} (hok : Ok opts s) (hflushed : Flushed s a)
    (hstep : step opts s a = some s') : Ok opts s' := by
  refine ⟨wf_step hok.wf hstep, ?_⟩
  have hquiet := hok.quiet
  cases takes_of_step hstep with
  | publish e p qos retain r _ _ _ _ hr => exact forall_put hquiet (quiet_publish5 (hquiet e) hr)
  | takeId e =>
      obtain ⟨msgID, hframe⟩ := assignMsgId_frame (s.ends e)
      rw [hframe]
      exact forall_put hquiet (hquiet e)
  | cycle e pack rest =>
      exact forall_put (s := { s with wire := update s.wire e rest }) hquiet
        (quiet_cycle (hquiet e) pack)
  | messageArrived e => exact forall_put hquiet (hquiet e)
  | retry e due n => exact forall_put hquiet (quiet_retries (hquiet e) _ _ _ _)
  | pending e => exact forall_put hquiet fun hp => Bool.noConfusion hp
  | writeAvailable e n again => exact forall_put hquiet fun _ => rfl
  | lose => exact hquiet
  | connect n => exact fun e => quiet_resume (hflushed e) (n e)

/-! ## §3. Every run. -/

theorem initial_exchange (e : End) (i : Nat) : initial.exchange e i = Handshake.initial := rfl

/-- Along a run, every exchange is a run of its handshake. -/
theorem run_exchange {C : Session → Action → Prop} (hflushed : ∀ s a, C s a → Flushed s a)
    (hretry : ∀ s a, C s a → Unrepeated opts s a ∨ ∀ t, R t)
    (hlose : ∀ s a, C s a → Kept s a ∨ (∀ t, Drained t → R t) ∧ L) {s : Session}
    (h : (session opts).LeadsWhen C initial s) :
    Ok opts s ∧ ∀ e i, Handshake.Reachable R L (s.exchange e i) := by
  refine h.induct (P := fun s => Ok opts s ∧ ∀ e i, Handshake.Reachable R L (s.exchange e i)) ?_ ?_
  · refine ⟨⟨fun _ => .initial, fun _ _ => rfl⟩, fun e i => ?_⟩
    rw [initial_exchange]
    exact .refl
  · intro s a s' _ hP hC hstep
    obtain ⟨hok, hreach⟩ := hP
    refine ⟨ok_step hok (hflushed s a hC) hstep, fun e i => (hreach e i).trans ?_⟩
    exact exchange_step hok (hflushed s a hC) (hretry s a hC) (hlose s a hC) hstep e i

/-- In the runs whose connections are made with no acknowledgement left. -/
theorem flushed_exchange {s : Session} (h : (session opts).LeadsWhen Flushed initial s) :
    Ok opts s ∧ ∀ e i, Handshake.Reachable (fun _ => True) True (s.exchange e i) :=
  run_exchange (fun _ _ h => h) (fun _ _ _ => .inr fun _ => trivial)
    (fun _ _ _ => .inr ⟨fun _ _ => trivial, trivial⟩) h

/-- The sender of an id is busy with the message in flight. -/
theorem sender_cases (client : Clients) (i : Nat) :
    i ∉ client.outboundMsgs.map Messages.msgid ∧ sender client.outboundMsgs i = .idle
      ∨ ∃ m ∈ client.outboundMsgs, m.msgid = i ∧ sender client.outboundMsgs i = m.sender := by
  cases hm : findItem client.outboundMsgs i with
  | none => exact .inl ⟨Keyed.lookup_eq_none.mp hm, sender_none hm⟩
  | some m =>
      obtain ⟨hmem, hid⟩ := Keyed.lookup_some hm
      exact .inr ⟨m, hmem, hid, sender_some hm⟩

/-- **QoS 2 MESSAGES ARRIVE EXACTLY ONCE**: of each id, those that have
arrived are those published, in their order; only the one in flight may be
missing. -/
theorem exactly_once {s : Session} (h : (session opts).LeadsWhen Flushed initial s) (e : End)
    (i : Nat) :
    (s.ends e).started 2 i = (s.ends e.peer).arrived 2 i
      ∨ ∃ m ∈ (s.ends e).outboundMsgs, m.msgid = i ∧ m.qos = 2
          ∧ (s.ends e).started 2 i = (s.ends e.peer).arrived 2 i ++ [m.content] := by
  obtain ⟨hok, hreach⟩ := flushed_exchange h
  rcases exact_once (hreach e i) with hsame | hmissing
  · exact .inl hsame
  · replace hmissing : (s.ends e).started 2 i = (s.ends e.peer).arrived 2 i
        ++ (sender (s.ends e).outboundMsgs i).exactMessage := hmissing
    rcases sender_cases (s.ends e) i with ⟨-, hs⟩ | ⟨m, hm, hid, hs⟩
    · rw [hs] at hmissing
      exact .inl (hmissing.trans (List.append_nil _))
    · rw [hs] at hmissing
      -- the message in flight is a QoS 1 message, or waits for one of two answers
      rcases ((hok.wf e).sent m hm).cases with ⟨-, hs⟩ | ⟨hqos, -, hs⟩ | ⟨hqos, -, hs⟩
      · rw [hs] at hmissing
        exact .inl (hmissing.trans (List.append_nil _))
      · rw [hs] at hmissing
        exact .inr ⟨m, hm, hid, hqos, hmissing⟩
      · rw [hs] at hmissing
        exact .inr ⟨m, hm, hid, hqos, hmissing⟩

/-! ## §4. One message in flight at a time. -/

/-- What was started with a QoS, each with its id. -/
def startedAll (client : Clients) (qos : Nat) : List (Nat × Content) :=
  (client.hist.started.filter fun m => m.qos = qos).map fun m => (m.msgid, m.content)

/-- What arrived with a QoS, each with its id. -/
def arrivedAll (client : Clients) (qos : Nat) : List (Nat × Content) :=
  (client.hist.arrived.filter fun qe => qe.qos = qos).map fun qe => (qe.msgid, qe.content)

/-- The part with one id. -/
def withId (l : List (Nat × Content)) (i : Nat) : List Content :=
  (l.filter fun x => x.1 = i).map Prod.snd

/-- The part with one id, of entries that carry their id. -/
theorem withId_map {β : Type*} (l : List β) (p : β → Bool) (id : β → Nat) (content : β → Content)
    (i : Nat) : withId ((l.filter p).map fun b => (id b, content b)) i
      = (l.filter fun b => p b ∧ id b = i).map content := by
  induction l with
  | nil => rfl
  | cons b l ih =>
      unfold withId at ih ⊢
      by_cases hp : p b
      · by_cases hid : id b = i
        · simpa [hp, hid] using ih
        · simpa [hp, hid] using ih
      · simpa [hp] using ih

/-- What was started with one id is a part of everything started. -/
theorem started_eq (client : Clients) (qos i : Nat) :
    client.started qos i = withId (startedAll client qos) i := by
  unfold startedAll
  rw [withId_map]
  simp only [decide_eq_true_eq]
  rfl

/-- What arrived with one id is a part of everything that arrived. -/
theorem arrived_eq (client : Clients) (qos i : Nat) :
    client.arrived qos i = withId (arrivedAll client qos) i := by
  unfold arrivedAll
  rw [withId_map]
  simp only [decide_eq_true_eq]
  rfl

theorem withId_snoc (l : List (Nat × Content)) (x : Nat × Content) (i : Nat) :
    withId (l ++ [x]) i = withId l i ++ if x.1 = i then [x.2] else [] := by
  unfold withId
  rw [List.filter_append, List.map_append, List.filter_cons, List.filter_nil]
  by_cases h : x.1 = i
  · rw [if_pos h, if_pos (by simpa using h)]
    rfl
  · rw [if_neg h, if_neg (by simpa using h)]
    rfl

/-- With nothing missing of any id, nothing is missing. -/
theorem eq_of_withId {S A : List (Nat × Content)} (h : S = A ∨ ∃ x, S = A ++ [x])
    (hids : ∀ i, withId S i = withId A i) : S = A := by
  rcases h with h | ⟨x, rfl⟩
  · exact h
  · have hlen := congrArg List.length (hids x.1)
    rw [withId_snoc, if_pos rfl, List.length_append, List.length_singleton] at hlen
    omega

/-- What arrives is what was missing. -/
theorem eq_snoc_of_withId {S A : List (Nat × Content)} {y : Nat × Content}
    (h : S = A ∨ ∃ x, S = A ++ [x])
    (hids : ∃ l, withId S y.1 = withId (A ++ [y]) y.1 ++ l) : S = A ++ [y] := by
  obtain ⟨l, hl⟩ := hids
  rw [withId_snoc, if_pos rfl] at hl
  rcases h with rfl | ⟨x, rfl⟩
  · have hlen := congrArg List.length hl
    rw [List.length_append, List.length_append, List.length_singleton] at hlen
    omega
  · rw [withId_snoc] at hl
    by_cases hx : x.1 = y.1
    · rw [if_pos hx, List.append_assoc, List.append_cancel_left_eq, List.singleton_append,
        List.cons.injEq] at hl
      rw [Prod.ext hx hl.1]
    · have hlen := congrArg List.length hl
      rw [if_neg hx] at hlen
      simp only [List.length_append, List.length_nil, List.length_singleton] at hlen
      omega

/-- Acknowledgements are no part of the history. -/
theorem sendAck_hist {client : Clients} (type : MsgType) (msgid : Nat) :
    (sendAck client type msgid).1.hist = client.hist := by
  unfold sendAck
  split
  · rfl
  · rfl

/-- What reading a packet adds to the history. -/
theorem cycle_hist (client : Clients) (pack : Packet) :
    (cycle client pack).1.hist.started = client.hist.started
      ∧ ((cycle client pack).1.hist.arrived = client.hist.arrived
        ∨ ∃ qe, (cycle client pack).1.hist.arrived = client.hist.arrived ++ [qe]) := by
  unfold cycle
  cases pack with
  | publish publish =>
      dsimp only
      unfold handlePublishes
      split
      · exact ⟨rfl, .inr ⟨_, rfl⟩⟩
      · split
        · rw [sendAck_hist]
          exact ⟨rfl, .inr ⟨_, rfl⟩⟩
        · split
          · rw [sendAck_hist]
            exact ⟨rfl, .inl rfl⟩
          · exact ⟨rfl, .inl rfl⟩
  | ack ack =>
      dsimp only
      split
      · obtain ⟨msgs, hframe⟩ := handlePubacks_frame client ack.msgId
        rw [hframe]
        exact ⟨rfl, .inl rfl⟩
      · obtain ⟨msgs, hframe⟩ := handlePubcomps_frame client ack.msgId
        rw [hframe]
        exact ⟨rfl, .inl rfl⟩
      · obtain ⟨msgs, hframe⟩ := handlePubrecs_frame client ack.msgId
        rw [hframe, sendAck_hist]
        exact ⟨rfl, .inl rfl⟩
      · unfold handlePubrels
        rw [sendAck_hist]
        split
        · exact ⟨rfl, .inl rfl⟩
        · split
          · exact ⟨rfl, .inl rfl⟩
          · split
            · exact ⟨rfl, .inl rfl⟩
            · exact ⟨rfl, .inr ⟨_, rfl⟩⟩
      · exact ⟨rfl, .inl rfl⟩
  | _ => exact ⟨rfl, .inl rfl⟩

/-- What is sent again was started before. -/
theorem retries_hist (client : Clients) (retryInterval : Int) (regardless : Bool)
    (due : Nat → Bool) (n : Nat) :
    (retries retryInterval client regardless due n).1.hist = client.hist := by
  unfold retries
  split
  · rfl
  · rfl

theorem resume_hist (opts : SessionOptions) (client : Clients) (n : Nat) :
    (resume opts client n).1.hist = client.hist := by
  unfold resume
  dsimp only
  split
  · rw [retries_hist]
  · rfl

/-- One message has been started, by an end with room. -/
def Starts (opts : End → SessionOptions) (s s' : Session) (e : End) (m : Messages) : Prop :=
  (s.ends e).outboundMsgs.length < (opts e).maxInflightMessages
    ∧ ∀ e', (s'.ends e').hist.arrived = (s.ends e').hist.arrived
      ∧ (s'.ends e').hist.started = (s.ends e').hist.started ++ if e' = e then [m] else []

/-- These messages have arrived. -/
def Arrives (s s' : Session) (e : End) (l : List QEntry) : Prop :=
  ∀ e', (s'.ends e').hist.started = (s.ends e').hist.started
    ∧ (s'.ends e').hist.arrived = (s.ends e').hist.arrived ++ if e' = e then l else []

theorem arrives_nil {s s' : Session} (h : ∀ e, (s'.ends e).hist = (s.ends e).hist) (e : End) :
    Arrives s s' e [] := by
  intro e'
  rw [h, ite_self, List.append_nil]
  exact ⟨rfl, rfl⟩

/-- **WHAT A STEP ADDS**: one message that was started, or at most one that has
arrived. -/
theorem hist_step {s s' : Session} {a : Action} (hstep : step opts s a = some s') :
    (∃ e m, Starts opts s s' e m) ∨ ∃ e l, Arrives s s' e l ∧ l.length ≤ 1 := by
  have hput : ∀ {s : Session} {e : End} {r : Clients × Sends}, r.1.hist = (s.ends e).hist →
      Arrives s (s.put e r) e [] := fun hr =>
    arrives_nil (forall_put (P := fun e c => c.hist = (Session.ends _ e).hist) (fun _ => rfl) hr) _
  cases takes_of_step hstep with
  | publish e p qos retain r _ hroom _ _ hr =>
      obtain ⟨msgID, msgid, rfl, -⟩ := publish5_start hr
      refine .inl ⟨e, createMessage msgid qos retain p, hroom, fun e' => ?_⟩
      by_cases he : e' = e
      · rw [if_pos he, he, put_ends_self, startPublish_hist]
        exact ⟨rfl, rfl⟩
      · rw [if_neg he, eq_peer he, put_ends_peer, List.append_nil]
        exact ⟨rfl, rfl⟩
  | takeId e =>
      obtain ⟨msgID, hframe⟩ := assignMsgId_frame (s.ends e)
      rw [hframe]
      exact .inr ⟨e, [], hput rfl, Nat.zero_le 1⟩
  | cycle e pack rest =>
      obtain ⟨hstarted, harrived⟩ := cycle_hist (s.ends e) pack
      obtain ⟨l, hl, hlen⟩ : ∃ l, (cycle (s.ends e) pack).1.hist.arrived
          = (s.ends e).hist.arrived ++ l ∧ l.length ≤ 1 := by
        rcases harrived with h | ⟨qe, h⟩
        · exact ⟨[], h.trans (List.append_nil _).symm, Nat.zero_le 1⟩
        · exact ⟨[qe], h, Nat.le_refl 1⟩
      refine .inr ⟨e, l, fun e' => ?_, hlen⟩
      by_cases he : e' = e
      · rw [if_pos he, he, put_ends_self]
        exact ⟨hstarted, hl⟩
      · rw [if_neg he, eq_peer he, put_ends_peer, List.append_nil]
        exact ⟨rfl, rfl⟩
  | messageArrived e => exact .inr ⟨e, [], hput rfl, Nat.zero_le 1⟩
  | retry e due n => exact .inr ⟨e, [], hput (retries_hist ..), Nat.zero_le 1⟩
  | pending e => exact .inr ⟨e, [], hput rfl, Nat.zero_le 1⟩
  | writeAvailable e n again => exact .inr ⟨e, [], hput rfl, Nat.zero_le 1⟩
  | lose => exact .inr ⟨.near, [], arrives_nil (fun _ => rfl) _, Nat.zero_le 1⟩
  | connect n =>
      exact .inr ⟨.near, [], arrives_nil (fun e => resume_hist (opts e) _ _) _, Nat.zero_le 1⟩

theorem startedAll_append {client client' : Clients} {l : List Messages}
    (h : client'.hist.started = client.hist.started ++ l) (qos : Nat) :
    startedAll client' qos = startedAll client qos
      ++ (l.filter fun m => m.qos = qos).map fun m => (m.msgid, m.content) := by
  unfold startedAll
  rw [h, List.filter_append, List.map_append]

theorem arrivedAll_append {client client' : Clients} {l : List QEntry}
    (h : client'.hist.arrived = client.hist.arrived ++ l) (qos : Nat) :
    arrivedAll client' qos = arrivedAll client qos
      ++ (l.filter fun qe => qe.qos = qos).map fun qe => (qe.msgid, qe.content) := by
  unfold arrivedAll
  rw [h, List.filter_append, List.map_append]

/-- All have arrived when none is in flight. -/
theorem all_arrived {s : Session} (h : (session opts).LeadsWhen Flushed initial s) {e : End}
    (hnone : (s.ends e).outboundMsgs = []) (i : Nat) :
    withId (startedAll (s.ends e) 2) i = withId (arrivedAll (s.ends e.peer) 2) i := by
  rw [← started_eq, ← arrived_eq]
  rcases exactly_once h e i with hsame | ⟨m, hm, -⟩
  · exact hsame
  · rw [hnone] at hm
    cases hm

/-- With room for one message, all but one of those started have arrived. -/
theorem one_missing {s : Session} (h : (session opts).LeadsWhen Flushed initial s) {e : End}
    (hone : (opts e).maxInflightMessages ≤ 1) :
    startedAll (s.ends e) 2 = arrivedAll (s.ends e.peer) 2
      ∨ ∃ x, startedAll (s.ends e) 2 = arrivedAll (s.ends e.peer) 2 ++ [x] := by
  refine h.induct (P := fun s => startedAll (s.ends e) 2 = arrivedAll (s.ends e.peer) 2
    ∨ ∃ x, startedAll (s.ends e) 2 = arrivedAll (s.ends e.peer) 2 ++ [x]) (.inl rfl) ?_
  intro s a s' hrun hmissing hflushed hstep
  rcases hist_step hstep with ⟨e', m, hroom, hhist⟩ | ⟨e', l, hhist, hlen⟩
  · have hA : (s'.ends e.peer).hist.arrived = (s.ends e.peer).hist.arrived ++ [] :=
      (hhist e.peer).1.trans (List.append_nil _).symm
    rw [arrivedAll_append hA, startedAll_append (hhist e).2]
    by_cases he : e = e'
    · -- nothing was in flight, so nothing was missing
      subst he
      have hnone : (s.ends e).outboundMsgs = [] := List.length_eq_zero_iff.mp (by omega)
      have hall := eq_of_withId hmissing (all_arrived hrun hnone)
      rw [if_pos rfl, hall]
      by_cases hqos : m.qos = 2
      · exact .inr ⟨(m.msgid, m.content), by simp [hqos]⟩
      · exact .inl (by simp [hqos])
    · rw [if_neg he]
      simpa using hmissing
  -- of its id no more has arrived than was started, so it is the missing one
  · have hS : (s'.ends e).hist.started = (s.ends e).hist.started ++ [] :=
      (hhist e).1.trans (List.append_nil _).symm
    have hcount : ∀ i, ∃ l, withId (startedAll (s'.ends e) 2) i
        = withId (arrivedAll (s'.ends e.peer) 2) i ++ l := by
      intro i
      rw [← started_eq, ← arrived_eq]
      rcases exactly_once (hrun.step hflushed hstep) e i with h | ⟨m, -, -, -, h⟩
      · exact ⟨[], h.trans (List.append_nil _).symm⟩
      · exact ⟨_, h⟩
    rw [startedAll_append hS, arrivedAll_append (hhist e.peer).2] at hcount ⊢
    -- at most one message of QoS 2 is new
    generalize hnew : (List.filter (fun qe => qe.qos = 2) (if e.peer = e' then l else [])).map
      (fun qe => (qe.msgid, qe.content)) = new at hcount ⊢
    have hlen : new.length ≤ 1 := by
      rw [← hnew, List.length_map]
      refine (List.length_filter_le _ _).trans ?_
      split
      · exact hlen
      · exact Nat.zero_le 1
    simp only [List.filter_nil, List.map_nil, List.append_nil] at hcount ⊢
    cases new with
    | nil => simpa using hmissing
    | cons y new =>
        obtain rfl : new = [] := List.length_eq_zero_iff.mp (by simpa using hlen)
        exact .inl (eq_snoc_of_withId hmissing (hcount y.1))

/-- **QoS 2 MESSAGES ARRIVE IN THEIR ORDER** from an end that has one message
in flight at a time. -/
theorem arrive_in_order {s : Session} (h : (session opts).LeadsWhen Flushed initial s) {e : End}
    (hone : (opts e).maxInflightMessages ≤ 1) :
    startedAll (s.ends e) 2 = arrivedAll (s.ends e.peer) 2
      ∨ ∃ m, (s.ends e).outboundMsgs = [m] ∧ m.qos = 2
          ∧ startedAll (s.ends e) 2 = arrivedAll (s.ends e.peer) 2 ++ [(m.msgid, m.content)] := by
  rcases one_missing h hone with hsame | ⟨x, hmissing⟩
  · exact .inl hsame
  · right
    have hx := exactly_once h e x.1
    rw [started_eq, arrived_eq, hmissing, withId_snoc, if_pos rfl] at hx
    rcases hx with hx | ⟨m, hm, hid, hqos, hx⟩
    · have hlen := congrArg List.length hx
      rw [List.length_append, List.length_singleton] at hlen
      omega
    -- there is room for one, so it is the only one in flight
    · have hroom := ((flushed_exchange h).1.wf e).room
      have hall : (s.ends e).outboundMsgs = [m] := by
        have hpos := List.length_pos_of_mem hm
        obtain ⟨m', hm'⟩ := List.length_eq_one_iff.mp (show (s.ends e).outboundMsgs.length = 1 by omega)
        rw [hm'] at hm ⊢
        rw [List.mem_singleton.mp hm]
      rw [List.append_cancel_left_eq, List.cons.injEq] at hx
      refine ⟨m, hall, hqos, ?_⟩
      rw [hmissing, hid, ← hx.1]

/-! ## §5. Where messages are sent again on a new connection only. -/

/-- In the runs in which, besides, nothing is sent again on an old connection. -/
theorem unrepeated_exchange {s : Session}
    (h : (session opts).LeadsWhen (fun s a => Flushed s a ∧ Unrepeated opts s a) initial s) :
    Ok opts s ∧ ∀ e i, Handshake.Reachable Drained True (s.exchange e i) :=
  run_exchange (fun _ _ h => h.1) (fun _ _ h => .inl h.2)
    (fun _ _ _ => .inr ⟨fun _ h => h, trivial⟩) h

/-- **QoS 1 MESSAGES ARRIVE AT LEAST ONCE**: of each id, those published are
among those that have arrived, in their order; only the one in flight may be
missing. -/
theorem at_least_once {s : Session}
    (h : (session opts).LeadsWhen (fun s a => Flushed s a ∧ Unrepeated opts s a) initial s)
    (e : End) (i : Nat) :
    ((s.ends e).started 1 i).Sublist ((s.ends e.peer).arrived 1 i)
      ∨ ∃ m ∈ (s.ends e).outboundMsgs, m.msgid = i ∧ m.qos = 1
          ∧ ((s.ends e).started 1 i).Sublist ((s.ends e.peer).arrived 1 i ++ [m.content]) := by
  obtain ⟨hok, hreach⟩ := unrepeated_exchange h
  have hplain : ((s.ends e).started 1 i).Sublist ((s.ends e.peer).arrived 1 i
      ++ (sender (s.ends e).outboundMsgs i).plainMessage) := plain_once (hreach e i)
  rcases sender_cases (s.ends e) i with ⟨-, hs⟩ | ⟨m, hm, hid, hs⟩
  · rw [hs] at hplain
    exact .inl (by simpa [Sender.plainMessage] using hplain)
  · rw [hs] at hplain
    rcases ((hok.wf e).sent m hm).cases with ⟨hqos, hs⟩ | ⟨-, -, hs⟩ | ⟨-, -, hs⟩
    · rw [hs] at hplain
      exact .inr ⟨m, hm, hid, hqos, hplain⟩
    · rw [hs] at hplain
      exact .inl (by simpa [Sender.plainMessage] using hplain)
    · rw [hs] at hplain
      exact .inl (by simpa [Sender.plainMessage] using hplain)

/-- **EVERY TOKEN IS ONE MESSAGE**: the calls of `deliveryComplete` with an id
are as many as the messages published with it, less the one in flight. -/
theorem tokens {s : Session}
    (h : (session opts).LeadsWhen (fun s a => Flushed s a ∧ Unrepeated opts s a) initial s)
    (e : End) (i : Nat) :
    (s.ends e).hist.completed.count i + ((s.ends e).outboundMsgs.map Messages.msgid).count i
      = ((s.ends e).started 2 i).length + ((s.ends e).started 1 i).length := by
  obtain ⟨hok, hreach⟩ := unrepeated_exchange h
  have hcount : (s.ends e).hist.completed.count i
      + (sender (s.ends e).outboundMsgs i).message.length
      = ((s.ends e).started 2 i).length + ((s.ends e).started 1 i).length :=
    confirmed_eq (hreach e i)
  rw [← hcount]
  congr 1
  rcases sender_cases (s.ends e) i with ⟨hnone, hs⟩ | ⟨m, hm, hid, hs⟩
  · rw [hs]
    exact List.count_eq_zero.mpr hnone
  · have hmem : i ∈ (s.ends e).outboundMsgs.map Messages.msgid := hid ▸ List.mem_map_of_mem hm
    rw [hs, List.count_eq_one_of_mem (hok.wf e).outbound hmem]
    rcases ((hok.wf e).sent m hm).cases with ⟨-, hs⟩ | ⟨-, -, hs⟩ | ⟨-, -, hs⟩
    · rw [hs]
      rfl
    · rw [hs]
      rfl
    · rw [hs]
      rfl

/-- Two messages in flight with one id are one. -/
theorem msg_eq_of_id {client : Clients} {opts : SessionOptions} (hwf : client.Wf opts)
    {m m' : Messages} (hm : m ∈ client.outboundMsgs) (hm' : m' ∈ client.outboundMsgs)
    (hid : m.msgid = m'.msgid) : m = m' :=
  List.inj_on_of_nodup_map hwf.outbound hm hm' hid

/-- **A TOKEN MEANS A MESSAGE THAT HAS ARRIVED**: the application is told of no
more messages with an id than the other end has got. -/
theorem token_arrived {s : Session}
    (h : (session opts).LeadsWhen (fun s a => Flushed s a ∧ Unrepeated opts s a) initial s)
    (e : End) (i : Nat) :
    (s.ends e).hist.completed.count i
      ≤ ((s.ends e.peer).arrived 2 i).length + ((s.ends e.peer).arrived 1 i).length := by
  have hwf := (unrepeated_exchange h).1.wf e
  have htokens := tokens h e i
  have hcount : ∀ {m : Messages}, m ∈ (s.ends e).outboundMsgs → m.msgid = i →
      ((s.ends e).outboundMsgs.map Messages.msgid).count i = 1 := by
    intro m hm hid
    exact List.count_eq_one_of_mem hwf.outbound (hid ▸ List.mem_map_of_mem hm)
  rcases exactly_once (h.mono fun _ _ h => h.1) e i with h2 | ⟨m, hm, hid, hqos, h2⟩
  · rw [h2] at htokens
    rcases at_least_once h e i with h1 | ⟨m, hm, hid, -, h1⟩
    · have hle := h1.length_le
      omega
    · have hle := h1.length_le
      have hone := hcount hm hid
      rw [List.length_append, List.length_singleton] at hle
      omega
  · have hone := hcount hm hid
    rw [h2, List.length_append, List.length_singleton] at htokens
    rcases at_least_once h e i with h1 | ⟨m', hm', hid', hqos', -⟩
    · have hle := h1.length_le
      omega
    · -- it cannot be of QoS 1 and of QoS 2
      obtain rfl := msg_eq_of_id hwf hm hm' (hid.trans hid'.symm)
      omega

end Session

end MqttBenchmark.Paho
