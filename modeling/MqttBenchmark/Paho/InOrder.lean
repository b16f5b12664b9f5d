/-
  MqttBenchmark.Paho.InOrder
  ──────────────────────────
  **AN UNBROKEN SESSION DELIVERS IN ORDER**, as long as nothing is sent again:
  the messages of each QoS arrive in the order in which they were published,
  with any number of them in flight.

    • `unbroken_cases` — what a step does,
    • `Line` — what is under way, in its order,
    • `unbroken_line` — what was started has arrived or is under way,
    • `unbroken_in_order` — for each QoS.
-/
import MqttBenchmark.Paho.ExactlyOnce
import MqttBenchmark.Lib.Handshake.Lossless

namespace MqttBenchmark.Paho

open Lib Lib.System Lib.Handshake MQTTProtocol MQTTClient Function

/-! ## §1. What is under way. -/

/-- A `PUBLISH` of a QoS. -/
def publishOf (qos : Nat) : Packet → Option (Nat × Content)
  | .publish p =>
      if p.header.qos.toNat = qos then some (p.msgId, (p.header.retain, ⟨p.topic, p.payload⟩))
      else none
  | _ => none

/-- The id of an acknowledgement of a type. -/
def ackOf (type : MsgType) : Packet → Option Nat
  | .ack ack => if MsgType.ofCode ack.header.type = some type then some ack.msgId else none
  | _ => none

/-- What is put on the way for a packet that is read. -/
def reply : Packet → List Packet
  | .publish p =>
      if p.header.qos = 1 then [ackPacket .puback p.msgId]
      else if p.header.qos = 2 then [ackPacket .pubrec p.msgId] else []
  | .ack ack =>
      match MsgType.ofCode ack.header.type with
      | some .pubrec => [ackPacket .pubrel ack.msgId]
      | some .pubrel => [ackPacket .pubcomp ack.msgId]
      | _ => []
  | _ => []

/-- What arrives with a packet that is read. -/
def arrivals (client : Clients) : Packet → List QEntry
  | .publish p =>
      if p.header.qos = 0 ∨ p.header.qos = 1 then
        [⟨p.topic, p.payload, p.header.qos.toNat, p.header.retain, p.header.dup, p.msgId⟩]
      else []
  | .ack ack =>
      if MsgType.ofCode ack.header.type = some .pubrel then
        ((findItem client.inboundMsgs ack.msgId).map fun m =>
          ⟨m.publish.topic, m.publish.payload, 2, m.retain, false, ack.msgId⟩).toList
      else []
  | _ => []

/-- A `PUBREL` is answered; the message with its id, if there is one, has
arrived. -/
theorem handlePubrels_spec {opts : SessionOptions} {client : Clients} (hwf : client.Wf opts)
    (msgId : Nat) : ∃ client', handlePubrels client msgId = sendAck client' .pubcomp msgId
      ∧ client'.outboundQueue = client.outboundQueue
      ∧ client'.noPendingWrites = client.noPendingWrites
      ∧ client'.hist.arrived = client.hist.arrived
        ++ ((findItem client.inboundMsgs msgId).map fun m =>
          ⟨m.publish.topic, m.publish.payload, 2, m.retain, false, msgId⟩).toList := by
  unfold handlePubrels
  cases hm : findItem client.inboundMsgs msgId with
  | none => exact ⟨client, rfl, rfl, rfl, (List.append_nil _).symm⟩
  | some m =>
      -- a message that is held has QoS 2 and waits for this `PUBREL`
      obtain ⟨hmem, hid⟩ := Keyed.lookup_some hm
      obtain ⟨hqos, hnext⟩ := hwf.received m hmem
      dsimp only
      rw [if_neg (not_not.mpr hqos), if_neg (not_not.mpr hnext), hqos, hid]
      exact ⟨_, rfl, rfl, rfl, rfl⟩

/-- **What a packet that is read puts on the way.** -/
theorem cycle_appends {opts : SessionOptions} {client : Clients} (hwf : client.Wf opts)
    (hquiet : client.Quiet) (pack : Packet) : Appends client (cycle client pack) (reply pack) := by
  unfold cycle reply
  cases pack with
  | publish p =>
      dsimp only
      unfold handlePublishes
      by_cases h0 : p.header.qos = 0
      · rw [if_pos h0, h0, if_neg (by decide), if_neg (by decide)]
        exact appends_nil rfl
      · rw [if_neg h0]
        split
        · refine appends_sendAck hquiet ?_ ?_ _ _
          · rfl
          · rfl
        · split
          · refine appends_sendAck hquiet ?_ ?_ _ _
            · rfl
            · rfl
          · exact appends_nil rfl
  | ack ack =>
      dsimp only
      cases htype : MsgType.ofCode ack.header.type with
      | none => exact appends_nil rfl
      | some type =>
          cases type with
          | puback =>
              obtain ⟨msgs, hframe⟩ := handlePubacks_frame client ack.msgId
              dsimp only
              rw [hframe]
              exact appends_nil rfl
          | pubcomp =>
              obtain ⟨msgs, hframe⟩ := handlePubcomps_frame client ack.msgId
              dsimp only
              rw [hframe]
              exact appends_nil rfl
          | pubrec =>
              obtain ⟨msgs, hframe⟩ := handlePubrecs_frame client ack.msgId
              dsimp only
              rw [hframe]
              refine appends_sendAck hquiet ?_ ?_ _ _
              · rfl
              · rfl
          | pubrel =>
              -- the one acknowledgement that hands something over
              obtain ⟨client', hspec, hqueue, hpending, -⟩ := handlePubrels_spec hwf ack.msgId
              dsimp only
              rw [hspec]
              exact appends_sendAck hquiet hqueue hpending _ _
          | _ => exact appends_nil rfl
  | _ => exact appends_nil rfl

namespace Session

variable {opts : End → SessionOptions}

/-- **What arrives with it.** -/
theorem cycle_arrived {opts : SessionOptions} {client : Clients} (hwf : client.Wf opts)
    (pack : Packet) :
    (cycle client pack).1.hist.arrived = client.hist.arrived ++ arrivals client pack := by
  unfold cycle arrivals
  cases pack with
  | publish p =>
      dsimp only
      unfold handlePublishes
      by_cases h0 : p.header.qos = 0
      · rw [if_pos h0, if_pos (.inl h0)]
        unfold processPublication
        rw [if_neg (by rw [h0]; decide)]
      · rw [if_neg h0]
        by_cases h1 : p.header.qos = 1
        · rw [if_pos h1, if_pos (.inr h1), sendAck_hist]
          unfold processPublication
          rw [if_neg (by rw [h1]; decide)]
        -- QoS 2, or both bits: nothing arrives yet
        · have hlow : ¬ (p.header.qos = 0 ∨ p.header.qos = 1) := not_or.mpr ⟨h0, h1⟩
          rw [if_neg h1, if_neg hlow, List.append_nil]
          split
          · rw [sendAck_hist]
          · rfl
  | ack ack =>
      dsimp only
      cases htype : MsgType.ofCode ack.header.type with
      | none => exact (List.append_nil _).symm
      | some type =>
          cases type with
          | puback =>
              obtain ⟨msgs, hframe⟩ := handlePubacks_frame client ack.msgId
              dsimp only
              rw [hframe, if_neg (by decide), List.append_nil]
              rfl
          | pubcomp =>
              obtain ⟨msgs, hframe⟩ := handlePubcomps_frame client ack.msgId
              dsimp only
              rw [hframe, if_neg (by decide), List.append_nil]
              rfl
          | pubrec =>
              obtain ⟨msgs, hframe⟩ := handlePubrecs_frame client ack.msgId
              dsimp only
              rw [hframe, sendAck_hist, if_neg (by decide), List.append_nil]
          | pubrel =>
              obtain ⟨client', hspec, -, -, harrived⟩ := handlePubrels_spec hwf ack.msgId
              dsimp only
              rw [hspec, sendAck_hist, if_pos rfl]
              exact harrived
          | _ => exact (List.append_nil _).symm
  | _ => exact (List.append_nil _).symm

/-- With QoS 0 or 1 it is the packet. -/
theorem arrivals_low (client : Clients) (pack : Packet) {qos : Nat} (hqos : qos ≤ 1) :
    ((arrivals client pack).filter fun qe => qe.qos = qos).map (fun qe => (qe.msgid, qe.content))
      = (publishOf qos pack).toList := by
  unfold arrivals publishOf
  cases pack with
  | publish p =>
      dsimp only
      by_cases hq : p.header.qos.toNat = qos
      · have hlow : p.header.qos = 0 ∨ p.header.qos = 1 := by
          obtain rfl | rfl : qos = 0 ∨ qos = 1 := by omega
          · exact .inl (BitVec.eq_of_toNat_eq hq)
          · exact .inr (BitVec.eq_of_toNat_eq hq)
        rw [if_pos hlow, if_pos hq, List.filter_cons, if_pos (decide_eq_true hq)]
        rfl
      · rw [if_neg hq]
        split
        · rw [List.filter_cons, if_neg (by simpa using hq)]
          rfl
        · rfl
  | ack ack =>
      have h2 : ¬ 2 = qos := by omega
      dsimp only
      split
      · cases findItem client.inboundMsgs ack.msgId with
        | none => rfl
        | some m =>
            show List.map _ (List.filter _ [_]) = _
            rw [List.filter_cons, if_neg (by simpa using h2)]
            rfl
      · rfl
  | _ => rfl

/-- With QoS 2 it is the message that was held. -/
theorem arrivals_ids (client : Clients) (pack : Packet)
    (hheld : ∀ i, ackOf .pubrel pack = some i → findItem client.inboundMsgs i ≠ none) :
    (((arrivals client pack).filter fun qe => qe.qos = 2).map
      fun qe => (qe.msgid, qe.content)).map Prod.fst = (ackOf .pubrel pack).toList := by
  unfold arrivals
  unfold ackOf at hheld ⊢
  cases pack with
  | publish p =>
      dsimp only
      split
      next hlow =>
        have hne : ¬ p.header.qos.toNat = 2 := by
          rcases hlow with h | h
          · rw [h]
            decide
          · rw [h]
            decide
        rw [List.filter_cons, if_neg (by simpa using hne)]
        rfl
      · rfl
  | ack ack =>
      dsimp only at hheld ⊢
      by_cases htype : MsgType.ofCode ack.header.type = some .pubrel
      · rw [if_pos htype] at hheld ⊢
        rw [if_pos htype]
        obtain ⟨m, hm⟩ := Option.ne_none_iff_exists'.mp (hheld ack.msgId rfl)
        rw [hm]
        rfl
      · rw [if_neg htype, if_neg htype]
        rfl
  | _ => rfl

/-! ## §2. What a step does on an unbroken connection. -/

/-- Nothing is lost and nothing sent again. -/
def Unbroken (opts : End → SessionOptions) (s : Session) (a : Action) : Prop :=
  Kept s a ∧ Unrepeated opts s a

/-- No connection is made again, so none finds acknowledgements waiting. -/
theorem Unbroken.flushed {s : Session} {a : Action} (h : Unbroken opts s a) : Flushed s a := by
  cases a with
  | connect n => exact absurd h.1 not_false
  | _ => trivial

/-- Every exchange is a handshake without loss and without repetition. -/
theorem unbroken_exchange {s : Session} (h : (session opts).LeadsWhen (Unbroken opts) initial s) :
    Ok opts s ∧ ∀ e i, Handshake.Reachable (fun _ => False) False (s.exchange e i) :=
  run_exchange (fun _ _ h => h.flushed) (fun _ _ h => .inl h.2) (fun _ _ h => .inl h.1) h

/-- One more `PUBLISH` is on the way from an end. -/
structure Publishes (s s' : Session) (e : End) (m : Messages) : Prop where
  qos : m.qos ≤ 2
  way : s'.way e.peer = s.way e.peer ++ [publishPacket m false]
  back : s'.way e = s.way e
  started (e' : End) : (s'.ends e').hist.started
    = (s.ends e').hist.started ++ if e' = e then [m] else []
  arrived (e' : End) : (s'.ends e').hist.arrived = (s.ends e').hist.arrived

/-- An end has read the first packet on its way. -/
structure ReadsFirst (s s' : Session) (e : End) (pack : Packet) : Prop where
  way : s.way e = pack :: s'.way e
  back : s'.way e.peer = s.way e.peer ++ reply pack
  started (e' : End) : (s'.ends e').hist.started = (s.ends e').hist.started
  arrived (e' : End) : (s'.ends e').hist.arrived
    = (s.ends e').hist.arrived ++ if e' = e then arrivals (s.ends e) pack else []

/-- Nothing that is on its way or has arrived is touched. -/
structure Idles (s s' : Session) : Prop where
  way (e : End) : s'.way e = s.way e
  hist (e : End) : (s'.ends e).hist = (s.ends e).hist

/-- An end acts, sends nothing and starts nothing. -/
theorem idles_put {s : Session} {e : End} {r : Clients × Sends} (happends : Appends (s.ends e) r [])
    (hhist : r.1.hist = (s.ends e).hist) : Idles s (s.put e r) := by
  constructor
  · intro e'
    by_cases he : e' = e
    · rw [he, put_way_self]
    · rw [eq_peer he, put_way_appends happends, List.append_nil]
  · exact forall_put (P := fun e c => c.hist = (s.ends e).hist) (fun _ => rfl) hhist

/-- An end sends a message. -/
theorem publishes_put {s : Session} {e : End} {m : Messages} {msgID : Nat} (hqos : m.qos ≤ 2)
    (hempty : (s.ends e).outboundQueue = []) :
    Publishes s (s.put e (startPublish { s.ends e with msgID := msgID } m)) e m := by
  obtain ⟨hsends, hqueue, -⟩ := startPublish_frame { s.ends e with msgID := msgID } m
  have happends : Appends (s.ends e) (startPublish { s.ends e with msgID := msgID } m)
      [publishPacket m false] := by
    unfold Appends
    rw [hsends]
    exact appends_sends hempty hqueue
  refine ⟨hqos, put_way_appends happends, put_way_self, ?_, ?_⟩
  · intro e'
    by_cases he : e' = e
    · rw [he, if_pos rfl, put_ends_self, startPublish_hist]
    · rw [if_neg he, eq_peer he, put_ends_peer, List.append_nil]
  · intro e'
    by_cases he : e' = e
    · rw [he, put_ends_self, startPublish_hist]
    · rw [eq_peer he, put_ends_peer]

/-- An end reads. -/
theorem readsFirst_put {s : Session} (hok : Ok opts s) {e : End} {pack : Packet}
    {rest : List Packet} (hwire : s.wire e = pack :: rest) :
    ReadsFirst s ({ s with wire := update s.wire e rest }.put e (cycle (s.ends e) pack)) e pack := by
  have happends := cycle_appends (hok.wf e) (hok.quiet e) pack
  refine ⟨?_, ?_, ?_, ?_⟩
  · rw [put_way_self]
    show s.wire e ++ _ = pack :: (update s.wire e rest e ++ _)
    rw [hwire, update_self, List.cons_append]
  · rw [put_way_appends (s := { s with wire := update s.wire e rest }) happends]
    show (update s.wire e rest e.peer ++ _) ++ _ = _
    rw [update_of_ne (peer_ne e)]
    rfl
  · exact forall_put (s := { s with wire := update s.wire e rest })
      (P := fun e c => c.hist.started = (s.ends e).hist.started) (fun _ => rfl)
      (cycle_hist (s.ends e) pack).1
  · intro e'
    by_cases he : e' = e
    · rw [he, if_pos rfl, put_ends_self]
      exact cycle_arrived (hok.wf e) pack
    · rw [if_neg he, eq_peer he, put_ends_peer, List.append_nil]

/-- **WHAT A STEP DOES** when nothing is lost and nothing is sent again. -/
theorem unbroken_cases {s s' : Session} {a : Action} (hok : Ok opts s) (h : Unbroken opts s a)
    (hstep : step opts s a = some s') :
    (∃ e m, Publishes s s' e m) ∨ (∃ e pack, ReadsFirst s s' e pack) ∨ Idles s s' := by
  cases takes_of_step hstep with
  | publish e p qos retain r _ _ hpending hqos hr =>
      obtain ⟨msgID, msgid, rfl, -⟩ := publish5_start hr
      exact .inl ⟨e, _, publishes_put hqos (hok.quiet e hpending)⟩
  | takeId e =>
      obtain ⟨msgID, hframe⟩ := assignMsgId_frame (s.ends e)
      rw [hframe]
      exact .inr (.inr (idles_put (appends_nil rfl) rfl))
  | cycle e pack rest hwire => exact .inr (.inl ⟨e, pack, readsFirst_put hok hwire⟩)
  | messageArrived e => exact .inr (.inr (idles_put (appends_nil rfl) rfl))
  | retry e due n =>
      -- nothing was due to be sent again
      have hnone : (retries (opts e).retryInterval (s.ends e) false due n).2 = [] := h.2
      obtain ⟨client', msgs, hframe, -, hqueue, -⟩ :=
        retries_frame (s.ends e) (opts e).retryInterval false due n
      refine .inr (.inr (idles_put ?_ (retries_hist ..)))
      rw [hframe] at hnone ⊢
      dsimp only at hnone
      rw [hnone]
      exact appends_nil hqueue
  | pending e => exact .inr (.inr (idles_put (appends_nil rfl) rfl))
  | writeAvailable e n again =>
      refine .inr (.inr ⟨writeAvailable_way again h.1, ?_⟩)
      exact forall_put (P := fun e c => c.hist = (s.ends e).hist) (fun _ => rfl) rfl
  | lose => exact absurd h.1 not_false
  | connect n => exact absurd h.1 not_false

/-! ## §3. What was started has arrived or is under way. -/

/-- The ids of messages, in order. -/
def ids (l : List (Nat × Content)) : List Nat := l.map Prod.fst

theorem ids_append (l l' : List (Nat × Content)) : ids (l ++ l') = ids l ++ ids l' :=
  List.map_append

/-- What was started has arrived or is under way, in this order.  A QoS 2
message is under way as its `PUBLISH`, its `PUBREC` or its `PUBREL`. -/
structure Line (s : Session) (e : End) : Prop where
  low (qos : Nat) (hqos : qos ≤ 1) : startedAll (s.ends e) qos
    = arrivedAll (s.ends e.peer) qos ++ (s.way e.peer).filterMap (publishOf qos)
  ids : ids (startedAll (s.ends e) 2) = ids (arrivedAll (s.ends e.peer) 2)
    ++ ((s.way e.peer).filterMap (ackOf .pubrel)
      ++ ((s.way e).filterMap (ackOf .pubrec) ++ ids ((s.way e.peer).filterMap (publishOf 2))))

/-- At first there is nothing. -/
theorem line_initial (e : End) : Line initial e := ⟨fun _ _ => rfl, rfl⟩

/-- A `PUBLISH` has the QoS of its message. -/
theorem publishOf_publishPacket {m : Messages} (hqos : m.qos ≤ 2) (qos : Nat) :
    publishOf qos (publishPacket m false) = if m.qos = qos then some (m.msgid, m.content) else none := by
  unfold publishOf publishPacket
  dsimp only
  obtain h | h | h : m.qos = 0 ∨ m.qos = 1 ∨ m.qos = 2 := by omega
  all_goals
    rw [h]
    rfl

/-- No reply is a `PUBLISH`. -/
theorem publishOf_reply (pack : Packet) (qos : Nat) : (reply pack).filterMap (publishOf qos) = [] := by
  unfold reply
  split
  · split
    · rfl
    · split
      · rfl
      · rfl
  · split
    · rfl
    · rfl
    · rfl
  · rfl

/-- A `PUBLISH` of QoS 2 is answered by a `PUBREC`. -/
theorem pubrec_reply (pack : Packet) :
    (reply pack).filterMap (ackOf .pubrec) = ids (publishOf 2 pack).toList := by
  unfold reply publishOf
  cases pack with
  | publish p =>
      dsimp only
      by_cases h2 : p.header.qos = 2
      · have h1 : ¬ p.header.qos = 1 := by
          rw [h2]
          decide
        rw [if_neg h1, if_pos h2, h2]
        rfl
      · have hne : ¬ p.header.qos.toNat = 2 := fun h => h2 (BitVec.eq_of_toNat_eq h)
        rw [if_neg h2, if_neg hne]
        split
        · rfl
        · rfl
  | ack ack =>
      dsimp only
      split
      · rfl
      · rfl
      · rfl
  | _ => rfl

/-- A `PUBREC` is answered by a `PUBREL`. -/
theorem pubrel_reply (pack : Packet) :
    (reply pack).filterMap (ackOf .pubrel) = (ackOf .pubrec pack).toList := by
  unfold reply
  cases pack with
  | publish p =>
      dsimp only
      split
      · rfl
      · split
        · rfl
        · rfl
  | ack ack =>
      unfold ackOf
      dsimp only
      cases htype : MsgType.ofCode ack.header.type with
      | none => rfl
      | some type => cases type <;> rfl
  | _ => rfl

theorem filterMap_head {β : Type*} (f : Packet → Option β) (pack : Packet) (l : List Packet) :
    (pack :: l).filterMap f = (f pack).toList ++ l.filterMap f := by
  rw [List.filterMap_cons]
  cases f pack <;> rfl

theorem startedAll_same {client client' : Clients} (h : client'.hist.started = client.hist.started)
    (qos : Nat) : startedAll client' qos = startedAll client qos := by
  unfold startedAll
  rw [h]

theorem arrivedAll_same {client client' : Clients} (h : client'.hist.arrived = client.hist.arrived)
    (qos : Nat) : arrivedAll client' qos = arrivedAll client qos := by
  unfold arrivedAll
  rw [h]

/-- A `PUBLISH` on the way is no acknowledgement. -/
theorem ackOf_snoc (l : List Packet) (m : Messages) (type : MsgType) :
    (l ++ [publishPacket m false]).filterMap (ackOf type) = l.filterMap (ackOf type) := by
  rw [List.filterMap_append]
  exact List.append_nil _

/-- An end publishes: one message more is under way to its peer. -/
theorem Publishes.line_self {s s' : Session} {e : End} {m : Messages} (h : Publishes s s' e m)
    (hline : Line s e) : Line s' e := by
  have hstarted := h.started e
  rw [if_pos rfl] at hstarted
  have harrived := arrivedAll_same (h.arrived e.peer)
  -- what is new on the way is this message, at its own QoS
  have hnew : ∀ qos, (s'.way e.peer).filterMap (publishOf qos)
      = (s.way e.peer).filterMap (publishOf qos)
        ++ ([m].filter fun m => m.qos = qos).map fun m => (m.msgid, m.content) := by
    intro qos
    rw [h.way, List.filterMap_append, filterMap_head, publishOf_publishPacket h.qos, List.filter_cons]
    by_cases hm : m.qos = qos
    · rw [if_pos hm, if_pos (decide_eq_true hm)]
      rfl
    · rw [if_neg hm, if_neg (by simpa using hm)]
      rfl
  constructor
  · intro qos hqos
    rw [startedAll_append hstarted, harrived, hline.low qos hqos, hnew, List.append_assoc]
  · rw [startedAll_append hstarted, harrived, ids_append, hline.ids, hnew, h.way, h.back, ackOf_snoc,
      ids_append]
    simp only [List.append_assoc]

/-- Nothing is new to the end that publishes. -/
theorem Publishes.line_peer {s s' : Session} {e : End} {m : Messages} (h : Publishes s s' e m)
    (hline : Line s e.peer) : Line s' e.peer := by
  have hstarted := h.started e.peer
  rw [if_neg (peer_ne e), List.append_nil] at hstarted
  have harrived := arrivedAll_same (h.arrived e.peer.peer)
  have hback : s'.way e.peer.peer = s.way e.peer.peer := by
    rw [peer_peer]
    exact h.back
  constructor
  · intro qos hqos
    rw [startedAll_same hstarted, harrived, hback]
    exact hline.low qos hqos
  · rw [startedAll_same hstarted, harrived, hback, h.way, ackOf_snoc]
    exact hline.ids

/-- The sender reads: what was a `PUBREC` is a `PUBREL`. -/
theorem ReadsFirst.line_self {s s' : Session} {e : End} {pack : Packet} (h : ReadsFirst s s' e pack)
    (hline : Line s e) : Line s' e := by
  have harrived := h.arrived e.peer
  rw [if_neg (peer_ne e), List.append_nil] at harrived
  have hpublish : ∀ qos, (s'.way e.peer).filterMap (publishOf qos)
      = (s.way e.peer).filterMap (publishOf qos) := by
    intro qos
    rw [h.back, List.filterMap_append, publishOf_reply, List.append_nil]
  constructor
  · intro qos hqos
    rw [startedAll_same (h.started e), arrivedAll_same harrived, hpublish]
    exact hline.low qos hqos
  · rw [startedAll_same (h.started e), arrivedAll_same harrived, hpublish, h.back,
      List.filterMap_append, pubrel_reply, hline.ids, h.way, filterMap_head]
    simp only [List.append_assoc]

/-- The receiver reads: what was a `PUBLISH` has arrived or is a `PUBREC`, and
what was a `PUBREL` has arrived. -/
theorem ReadsFirst.line_peer {s s' : Session} {e : End} {pack : Packet} (h : ReadsFirst s s' e pack)
    (hheld : ∀ i, ackOf .pubrel pack = some i → findItem (s.ends e).inboundMsgs i ≠ none)
    (hline : Line s e.peer) : Line s' e.peer := by
  have hlow := hline.low
  have hids := hline.ids
  have harrived := h.arrived e
  rw [if_pos rfl] at harrived
  rw [peer_peer] at hlow hids
  constructor
  · intro qos hqos
    rw [peer_peer, startedAll_same (h.started _), arrivedAll_append harrived,
      arrivals_low _ _ hqos, hlow qos hqos, h.way, filterMap_head, List.append_assoc]
  · rw [peer_peer, startedAll_same (h.started _), arrivedAll_append harrived, ids_append, hids, h.back,
      List.filterMap_append, pubrec_reply, h.way, filterMap_head, filterMap_head, ids_append]
    show _ = _ ++ List.map Prod.fst _ ++ _
    rw [arrivals_ids _ _ hheld]
    simp only [List.append_assoc]

/-- Nothing has changed. -/
theorem Idles.line {s s' : Session} (h : Idles s s') {e : End} (hline : Line s e) : Line s' e := by
  have hstarted := congrArg SessionHistory.started (h.hist e)
  have harrived := congrArg SessionHistory.arrived (h.hist e.peer)
  constructor
  · intro qos hqos
    rw [startedAll_same hstarted, arrivedAll_same harrived, h.way]
    exact hline.low qos hqos
  · rw [startedAll_same hstarted, arrivedAll_same harrived, h.way, h.way]
    exact hline.ids

/-- **A message that is released is there.** -/
theorem pubrel_held {s : Session} (h : (session opts).LeadsWhen (Unbroken opts) initial s) {e : End}
    {pack : Packet} {rest : List Packet} (hway : s.way e = pack :: rest) {i : Nat}
    (hrel : ackOf .pubrel pack = some i) : findItem (s.ends e).inboundMsgs i ≠ none := by
  have hreach := (unbroken_exchange h).2 e.peer i
  rw [exchange_peer, hway] at hreach
  have hforward : forward i pack = some .release := by
    unfold ackOf at hrel
    cases pack with
    | ack ack =>
        dsimp only at hrel
        split at hrel
        next htype =>
          injection hrel with hid
          exact if_pos ⟨hid, htype⟩
        · cases hrel
    | _ => cases hrel
  have hheld := release_held hreach (List.filterMap_cons_some hforward)
  intro hnone
  apply hheld
  show (findItem (s.ends e).inboundMsgs i).map Messages.content = none
  rw [hnone]
  rfl

/-- **AS LONG AS NOTHING IS LOST AND NOTHING SENT AGAIN**, what was started has
arrived or is under way, in its order. -/
theorem unbroken_line {s : Session} (h : (session opts).LeadsWhen (Unbroken opts) initial s)
    (e : End) : Line s e := by
  refine h.induct (P := fun s => ∀ e, Line s e) line_initial ?_ e
  intro s a s' hrun hline hunbroken hstep e
  rcases unbroken_cases (unbroken_exchange hrun).1 hunbroken hstep with
    ⟨e', m, h⟩ | ⟨e', pack, h⟩ | h
  · by_cases he : e = e'
    · rw [he]
      exact h.line_self (hline e')
    · rw [eq_peer he]
      exact h.line_peer (hline e'.peer)
  · by_cases he : e = e'
    · rw [he]
      exact h.line_self (hline e')
    · rw [eq_peer he]
      exact h.line_peer (fun i hrel => pubrel_held hrun h.way hrel) (hline e'.peer)
  · exact h.line (hline e)

/-! ## §4. In order. -/

/-- A part in which every id comes as often and in the same places as in the
whole is its beginning. -/
theorem prefix_of_withId {S A : List (Nat × Content)} (hids : ids A <+: ids S)
    (heach : ∀ i, withId A i <+: withId S i) : A <+: S := by
  induction A generalizing S with
  | nil => exact List.nil_prefix
  | cons a A ih =>
      cases S with
      | nil => cases List.prefix_nil.mp hids
      | cons x S =>
          obtain ⟨hid, hrest⟩ := List.cons_prefix_cons.mp hids
          have hcons : ∀ (y : Nat × Content) (l : List (Nat × Content)) (i : Nat),
              withId (y :: l) i = (if y.1 = i then [y.2] else []) ++ withId l i := by
            intro y l i
            unfold withId
            rw [List.filter_cons]
            by_cases hy : y.1 = i
            · rw [if_pos hy, if_pos (by simpa using hy)]
              rfl
            · rw [if_neg hy, if_neg (by simpa using hy)]
              rfl
          have hax : a = x := by
            have hfirst := heach a.1
            rw [hcons, hcons, if_pos rfl, if_pos hid.symm] at hfirst
            exact Prod.ext hid (List.cons_prefix_cons.mp hfirst).1
          subst hax
          refine List.cons_prefix_cons.mpr ⟨rfl, ih hrest fun i => ?_⟩
          have htail := heach i
          rw [hcons, hcons] at htail
          exact (List.prefix_append_right_inj _).mp htail

/-- **THE MESSAGES OF EACH QoS ARRIVE IN THE ORDER IN WHICH THEY WERE
PUBLISHED**, and all have arrived when nothing is under way. -/
theorem unbroken_in_order {s : Session} (h : (session opts).LeadsWhen (Unbroken opts) initial s)
    (e : End) {qos : Nat} (hqos : qos ≤ 2) :
    arrivedAll (s.ends e.peer) qos <+: startedAll (s.ends e) qos
      ∧ ((∀ e, s.way e = []) → arrivedAll (s.ends e.peer) qos = startedAll (s.ends e) qos) := by
  have hline := unbroken_line h e
  obtain hlow | rfl : qos ≤ 1 ∨ qos = 2 := by omega
  · rw [hline.low qos hlow]
    refine ⟨List.prefix_append _ _, fun hnone => ?_⟩
    rw [hnone]
    exact (List.append_nil _).symm
  · have hinit : arrivedAll (s.ends e.peer) 2 <+: startedAll (s.ends e) 2 := by
      refine prefix_of_withId (by rw [hline.ids]; exact List.prefix_append _ _) fun i => ?_
      rw [← started_eq, ← arrived_eq]
      rcases exactly_once (h.mono fun _ _ h => h.flushed) e i with hsame | ⟨m, -, -, -, hmissing⟩
      · rw [hsame]
      · rw [hmissing]
        exact List.prefix_append _ _
    refine ⟨hinit, fun hnone => hinit.eq_of_length ?_⟩
    have hlen := congrArg List.length hline.ids
    rw [hnone, hnone] at hlen
    simpa [ids] using hlen.symm

instance (s : Session) : ∀ a, Decidable (Kept s a)
  | .lose | .connect _ => isFalse not_false
  | .writeAvailable e n _ => inferInstanceAs (Decidable ((s.ends e).outboundQueue.length ≤ n))
  | .publish .. | .takeId _ | .cycle _ | .messageArrived _ | .retry .. | .pending _ => isTrue trivial

instance (opts : End → SessionOptions) (s : Session) (a : Action) : Decidable (Unbroken opts s a) :=
  inferInstanceAs (Decidable (_ ∧ _))

end Session

end MqttBenchmark.Paho
