/-
  MqttBenchmark.Paho.Exchange
  ───────────────────────────
  **THE EXCHANGES OF ONE MESSAGE ID.**

  The messages of one end that carry the same id follow each other: seen
  through that id, two ends and the packets between them are a handshake.

    • `Clients.outbound`, `Clients.inbound` — an end, seen through an id,
    • `forward`, `answer` — a packet, seen through it,
    • `Session.exchange` — the handshake,
    • `cycle_reads`, `cycle_answered` — what a packet that is read does,
    • `publish5_moves`, `retries_moves` — what is sent and sent again.
-/
import MqttBenchmark.Paho.MsgIds
import MqttBenchmark.Lib.Handshake.Halves

namespace MqttBenchmark.Paho

open Lib Lib.System Lib.Handshake MQTTProtocol MQTTClient Function

/-! ## §1. One end and one packet, through an id. -/

/-- What reaches an application: the RETAIN flag, the topic and the payload. -/
abbrev Content := Bool × Publication

/-- Of a message the library keeps. -/
def Messages.content (m : Messages) : Content := (m.retain, m.publish)

/-- Of a message in the queue of arrivals. -/
def QEntry.content (qe : QEntry) : Content := (qe.retained, ⟨qe.topicName, qe.payload⟩)

/-- Where the exchange of a message of `outboundMsgs` is. -/
def Messages.sender (m : Messages) : Sender Content :=
  if m.qos = 1 then .plain m.content
  else if m.nextMessageType = some .pubrec then .offering m.content
  else .releasing m.content

/-- Where the exchange with an id is. -/
def sender (msgs : List Messages) (i : Nat) : Sender Content :=
  match findItem msgs i with
  | none => .idle
  | some m => m.sender

namespace Clients

variable (client : Clients)

/-- The messages started with a QoS and an id. -/
def started (qos i : Nat) : List Content :=
  (client.hist.started.filter fun m => m.qos = qos ∧ m.msgid = i).map Messages.content

/-- The messages that arrived with a QoS and an id. -/
def arrived (qos i : Nat) : List Content :=
  (client.hist.arrived.filter fun qe => qe.qos = qos ∧ qe.msgid = i).map QEntry.content

/-- An end, seen through an id, as the sender of a handshake. -/
def outbound (i : Nat) : Outbound Content where
  sender := sender client.outboundMsgs i
  accepted := client.started 2 i
  acceptedPlain := client.started 1 i
  confirmed := client.hist.completed.count i

/-- And as its receiver. -/
def inbound (i : Nat) : Inbound Content where
  held := (findItem client.inboundMsgs i).map Messages.content
  delivered := client.arrived 2 i
  deliveredPlain := client.arrived 1 i

/-- The acknowledgements behind the pending bytes. -/
def queued : List Packet := client.outboundQueue.map fun ack => ackPacket ack.ackType ack.messageId

/-- Nothing waits behind pending bytes when there are none. -/
def Quiet : Prop := client.noPendingWrites = true → client.outboundQueue = []

end Clients

/-- To the receiver of the messages with an id. -/
def forward (i : Nat) : Packet → Option (Forward Content)
  | .publish p =>
      if p.msgId = i then
        if p.header.qos = 1 then some (.plain (p.header.retain, ⟨p.topic, p.payload⟩))
        else if p.header.qos = 2 then some (.offer (p.header.retain, ⟨p.topic, p.payload⟩))
        else none
      else none
  | .ack ack =>
      if ack.msgId = i ∧ MsgType.ofCode ack.header.type = some .pubrel then some .release else none
  | _ => none

/-- What an acknowledgement tells the sender. -/
def answerOf : MsgType → Option Answer
  | .puback => some .acknowledged
  | .pubrec => some .received
  | .pubcomp => some .completed
  | _ => none

/-- To the sender of the messages with an id. -/
def answer (i : Nat) : Packet → Option Answer
  | .ack ack => if ack.msgId = i then (MsgType.ofCode ack.header.type).bind answerOf else none
  | _ => none

namespace Session

/-- The packets on their way to an end, with those that wait. -/
def way (s : Session) (e : End) : List Packet := s.wire e ++ (s.ends e.peer).queued

/-- The handshake of an end's messages with an id. -/
def exchange (s : Session) (e : End) (i : Nat) : Handshake.State Content :=
  join ((s.ends e).outbound i) ((s.ends e.peer).inbound i)
    ((s.way e.peer).filterMap (forward i)) ((s.way e).filterMap (answer i))

end Session

/-! ## §2. What goes on the way. -/

/-- A function has put these packets on the way. -/
def Appends (client : Clients) (r : Clients × Sends) (l : List Packet) : Prop :=
  r.2 ++ r.1.queued = client.queued ++ l

/-- Nothing, when the queue is as it was. -/
theorem appends_nil {client client' : Clients} (h : client'.outboundQueue = client.outboundQueue) :
    Appends client (client', []) [] := by
  unfold Appends Clients.queued
  rw [List.nil_append, List.append_nil, h]

/-- At once, when nothing waits. -/
theorem appends_sends {client client' : Clients} {l : List Packet}
    (hempty : client.outboundQueue = []) (h : client'.outboundQueue = client.outboundQueue) :
    Appends client (client', l) l := by
  unfold Appends Clients.queued
  rw [h, hempty, List.map_nil, List.append_nil, List.nil_append]

/-- An acknowledgement goes on the way, whether it is written or has to wait. -/
theorem appends_sendAck {client client' : Clients} (hquiet : client.Quiet)
    (hqueue : client'.outboundQueue = client.outboundQueue)
    (hpending : client'.noPendingWrites = client.noPendingWrites) (type : MsgType) (msgid : Nat) :
    Appends client (sendAck client' type msgid) [ackPacket type msgid] := by
  unfold sendAck
  by_cases h : client'.noPendingWrites = true
  · rw [if_pos h]
    exact appends_sends (hquiet (hpending ▸ h)) hqueue
  · rw [if_neg h]
    unfold Appends Clients.queued
    -- bytes are pending: the acknowledgement waits in the queue
    simp only [List.nil_append, List.map_append, List.map_cons, List.map_nil, hqueue]

section

variable {client : Clients} (type : MsgType) (msgid i : Nat)

@[simp] theorem sendAck_outbound : (sendAck client type msgid).1.outbound i = client.outbound i := by
  unfold sendAck
  split <;> rfl

@[simp] theorem sendAck_inbound : (sendAck client type msgid).1.inbound i = client.inbound i := by
  unfold sendAck
  split <;> rfl

/-- An acknowledgement for the sender of an id. -/
theorem answer_ackPacket :
    answer i (ackPacket type msgid) = if msgid = i then answerOf type else none := by
  unfold answer ackPacket
  dsimp only
  rw [MsgType.ofCode_code]
  rfl

/-- For the receiver only a PUBREL is one. -/
theorem forward_ackPacket : forward i (ackPacket type msgid)
    = if msgid = i ∧ type = .pubrel then some .release else none := by
  unfold forward ackPacket
  dsimp only
  simp only [MsgType.ofCode_code, Option.some_inj]

end

/-! ## §3. The receiver reads. -/

/-- An end has read a packet that is, for the receiver of an id, this one. -/
structure Reads (i : Nat) (f : Option (Forward Content)) (client : Clients) (r : Clients × Sends) :
    Prop where
  inbound : r.1.inbound i = (f.map (client.inbound i).read).getD (client.inbound i)
  sends : ∃ l, Appends client r l ∧ l.filterMap (answer i) = (f.map Forward.answer).toList

section

variable {opts : SessionOptions} {client client' : Clients} {i : Nat}

/-- A function that concerns the outbound messages only. -/
theorem reads_none (hin : client'.inbound i = client.inbound i)
    (hqueue : client'.outboundQueue = client.outboundQueue) : Reads i none client (client', []) :=
  ⟨hin, [], appends_nil hqueue, rfl⟩

/-- A function that ends with an acknowledgement. -/
theorem reads_sendAck (hquiet : client.Quiet) (hqueue : client'.outboundQueue = client.outboundQueue)
    (hpending : client'.noPendingWrites = client.noPendingWrites) {type : MsgType} {msgid : Nat}
    {f : Option (Forward Content)}
    (hin : client'.inbound i = (f.map (client.inbound i).read).getD (client.inbound i))
    (hanswer : (if msgid = i then answerOf type else none) = f.map Forward.answer) :
    Reads i f client (sendAck client' type msgid) := by
  refine ⟨?_, [ackPacket type msgid], appends_sendAck hquiet hqueue hpending type msgid, ?_⟩
  · rw [sendAck_inbound]
    exact hin
  · rw [← hanswer, ← answer_ackPacket, List.filterMap_cons, List.filterMap_nil]
    cases answer i (ackPacket type msgid) <;> rfl

/-- What `Protocol_processPublication` adds to the messages that arrived. -/
theorem processPublication_arrived (publish : Publish) (qos : Nat) :
    (processPublication client publish).arrived qos i = client.arrived qos i ++
      if publish.header.qos.toNat = qos ∧ publish.msgId = i then
        [(publish.header.retain, ⟨publish.topic, publish.payload⟩)] else [] := by
  unfold Clients.arrived processPublication
  simp only [List.filter_append, List.map_append, List.filter_cons, List.filter_nil, decide_eq_true_eq]
  split <;> rfl

/-- With QoS 1. -/
theorem processPublication_plain (publish : Publish) (hqos : publish.header.qos = 1) :
    (processPublication client publish).inbound i
      = if publish.msgId = i then
          (client.inbound i).read (.plain (publish.header.retain, ⟨publish.topic, publish.payload⟩))
        else client.inbound i := by
  unfold Clients.inbound
  rw [processPublication_arrived, processPublication_arrived, hqos]
  have h2 : ¬ ((1 : BitVec 2).toNat = 2 ∧ publish.msgId = i) := fun h => absurd h.1 (by decide)
  rw [if_neg h2, List.append_nil]
  by_cases hid : publish.msgId = i
  · rw [if_pos hid, if_pos ⟨by decide, hid⟩]
    rfl
  · rw [if_neg hid, if_neg fun h => hid h.2, List.append_nil]
    rfl

/-- With QoS 0. -/
theorem processPublication_inbound (publish : Publish) (hqos : publish.header.qos = 0) :
    (processPublication client publish).inbound i = client.inbound i := by
  unfold Clients.inbound
  rw [processPublication_arrived, processPublication_arrived, hqos]
  have hpos : ∀ qos > 0, ¬ ((0 : BitVec 2).toNat = qos ∧ publish.msgId = i) := by
    intro qos hq h
    have h0 : 0 = qos := h.1
    omega
  rw [if_neg (hpos 2 (by decide)), if_neg (hpos 1 (by decide)), List.append_nil, List.append_nil]
  rfl

/-- A PUBLISH is stored, or handed over and acknowledged, by its QoS. -/
theorem handlePublishes_reads (hquiet : client.Quiet) (publish : Publish) :
    Reads i (forward i (.publish publish)) client (handlePublishes client publish) := by
  unfold handlePublishes forward
  dsimp only
  by_cases h1 : publish.header.qos = 1
  -- QoS 1: handed over at once, and acknowledged
  · have h0 : ¬ publish.header.qos = 0 := by rw [h1]; decide
    rw [if_neg h0, if_pos h1, if_pos h1]
    refine reads_sendAck hquiet ?_ ?_ ?_ ?_
    · rfl
    · rfl
    · rw [processPublication_plain publish h1]
      split <;> rfl
    · split <;> rfl
  · rw [if_neg h1, if_neg h1]
    by_cases h2 : publish.header.qos = 2
    · have h0 : ¬ publish.header.qos = 0 := by rw [h2]; decide
      rw [if_neg h0, if_pos h2, if_pos h2]
      refine reads_sendAck hquiet ?_ ?_ ?_ ?_
      · rfl
      · rfl
      · unfold Clients.inbound
        -- only stored: the PUBREL will hand it over
        simp only [findItem, storeInbound, Keyed.lookup_store]
        split <;> rfl
      · split <;> rfl
    · rw [if_neg h2, if_neg h2, ite_self]
      by_cases h0 : publish.header.qos = 0
      · rw [if_pos h0]
        exact reads_none (processPublication_inbound publish h0) rfl
      · rw [if_neg h0]
        -- with both bits set there is no such QoS
        exact reads_none rfl rfl

/-- A release when nothing is held. -/
theorem release_none {msgId : Nat} (hnone : findItem client.inboundMsgs msgId = none) :
    (client.inbound msgId).read .release = client.inbound msgId := by
  have hheld : (client.inbound msgId).held = none := by
    unfold Clients.inbound
    rw [hnone]
    rfl
  unfold Inbound.read
  rw [hheld, Option.toList_none, List.append_nil, ← hheld]

/-- A release when the message is there. -/
theorem release_some (hwf : client.Wf opts) {m : Messages} {msgId : Nat} {publish : Publish}
    (hm : findItem client.inboundMsgs msgId = some m)
    (hpub : publish = ⟨⟨0, false, 2, m.retain⟩, m.publish.topic, m.msgid, m.publish.payload⟩) :
    ({ processPublication client publish with
        inboundMsgs := removeItem client.inboundMsgs msgId } : Clients).inbound i
      = if msgId = i then (client.inbound i).read .release else client.inbound i := by
  have hid : m.msgid = msgId := (Keyed.lookup_some hm).2
  have hplain : (processPublication client publish).arrived 1 i = client.arrived 1 i := by
    rw [processPublication_arrived, hpub]
    exact List.append_nil _
  have hexact : (processPublication client publish).arrived 2 i
      = client.arrived 2 i ++ if msgId = i then [m.content] else [] := by
    rw [processPublication_arrived, hpub, ← hid]
    simp only [true_and, BitVec.reduceToNat]
    rfl
  have hheld : findItem (removeItem client.inboundMsgs msgId) i
      = if msgId = i then none else findItem client.inboundMsgs i :=
    Keyed.lookup_remove hwf.inbound msgId i
  apply Inbound.ext
  · show (findItem (removeItem client.inboundMsgs msgId) i).map Messages.content = _
    rw [hheld]
    split <;> rfl
  · show (processPublication client publish).arrived 2 i = _
    rw [hexact]
    by_cases h : msgId = i
    · subst h
      rw [if_pos rfl, if_pos rfl]
      show _ = _ ++ ((findItem client.inboundMsgs msgId).map Messages.content).toList
      rw [hm]
      rfl
    · rw [if_neg h, if_neg h, List.append_nil]
      rfl
  · show (processPublication client publish).arrived 1 i = _
    rw [hplain]
    split <;> rfl

/-- A PUBREL releases what is held, and is answered in any case. -/
theorem handlePubrels_reads (hwf : client.Wf opts) (hquiet : client.Quiet) (msgId : Nat) :
    Reads i (if msgId = i then some .release else none) client (handlePubrels client msgId) := by
  have hanswer : (if msgId = i then answerOf .pubcomp else none)
      = (if msgId = i then some .release else none : Option (Forward Content)).map Forward.answer := by
    split <;> rfl
  unfold handlePubrels
  cases hm : findItem client.inboundMsgs msgId with
  | none =>
      -- already released: the answer alone is repeated
      refine reads_sendAck hquiet rfl rfl ?_ hanswer
      split
      next hid =>
        subst hid
        exact (release_none hm).symm
      · rfl
  | some m =>
      obtain ⟨hqos, hnext⟩ := hwf.received m (Keyed.lookup_some hm).1
      simp only [if_neg (not_not.mpr hqos), if_neg (not_not.mpr hnext)]
      refine reads_sendAck hquiet ?_ ?_ ?_ hanswer
      · rfl
      · rfl
      · refine (release_some hwf hm ?_).trans ?_
        · rw [hqos]
          rfl
        · split <;> rfl

/-- The acknowledgements a sender reads concern its own messages. -/
theorem handlePubacks_frame (client : Clients) (msgId : Nat) :
    ∃ msgs, handlePubacks client msgId = { client with outboundMsgs := msgs } := by
  unfold handlePubacks
  split
  · exact ⟨_, rfl⟩
  · split
    · exact ⟨_, rfl⟩
    · exact ⟨_, rfl⟩

theorem handlePubcomps_frame (client : Clients) (msgId : Nat) :
    ∃ msgs, handlePubcomps client msgId = { client with outboundMsgs := msgs } := by
  unfold handlePubcomps
  split
  · exact ⟨_, rfl⟩
  · split
    · exact ⟨_, rfl⟩
    · split
      · exact ⟨_, rfl⟩
      · exact ⟨_, rfl⟩

theorem handlePubrecs_frame (client : Clients) (msgId : Nat) :
    ∃ msgs, handlePubrecs client msgId = sendAck { client with outboundMsgs := msgs } .pubrel msgId := by
  unfold handlePubrecs
  split
  · exact ⟨_, rfl⟩
  · split
    · exact ⟨_, rfl⟩
    · split
      · exact ⟨_, rfl⟩
      · exact ⟨_, rfl⟩

/-- **WHAT A RECEIVER READS** is, for each id, a step of its handshake. -/
theorem cycle_reads (hwf : client.Wf opts) (hquiet : client.Quiet) (pack : Packet) :
    Reads i (forward i pack) client (cycle client pack) := by
  unfold cycle
  cases pack with
  | publish publish => exact handlePublishes_reads hquiet publish
  | ack ack =>
      unfold forward
      dsimp only
      cases htype : MsgType.ofCode ack.header.type with
      | none =>
          rw [if_neg (by simp)]
          exact reads_none rfl rfl
      | some type =>
          by_cases hrel : type = .pubrel
          · subst hrel
            -- of the acknowledgements only a PUBREL is for the receiver
            simp only [and_true]
            exact handlePubrels_reads hwf hquiet ack.msgId
          · rw [if_neg (by simpa using fun _ => hrel)]
            cases type with
            | puback =>
                obtain ⟨msgs, hframe⟩ := handlePubacks_frame client ack.msgId
                dsimp only
                rw [hframe]
                exact reads_none rfl rfl
            | pubcomp =>
                obtain ⟨msgs, hframe⟩ := handlePubcomps_frame client ack.msgId
                dsimp only
                rw [hframe]
                exact reads_none rfl rfl
            | pubrec =>
                obtain ⟨msgs, hframe⟩ := handlePubrecs_frame client ack.msgId
                dsimp only
                rw [hframe]
                refine reads_sendAck hquiet ?_ ?_ ?_ ?_
                · rfl
                · rfl
                · rfl
                · exact ite_self _
            | pubrel => exact absurd rfl hrel
            | _ => exact reads_none rfl rfl
  | _ => exact reads_none rfl rfl

end

/-! ## §4. The sender reads. -/

/-- An end has read a packet that is, for the sender of an id, this one. -/
structure Answered (i : Nat) (a : Option Answer) (client : Clients) (r : Clients × Sends) :
    Prop where
  outbound : r.1.outbound i = (a.map (client.outbound i).read).getD (client.outbound i)
  sends : ∃ l, Appends client r l ∧ l.filterMap (forward i) = (a.map Answer.release).getD []

section

variable {opts : SessionOptions} {client client' : Clients} {i : Nat}

/-- A function that concerns the inbound messages only. -/
theorem answered_none (hout : client'.outbound i = client.outbound i)
    (hqueue : client'.outboundQueue = client.outboundQueue) : Answered i none client (client', []) :=
  ⟨hout, [], appends_nil hqueue, rfl⟩

/-- A function that ends with an acknowledgement. -/
theorem answered_sendAck (hquiet : client.Quiet)
    (hqueue : client'.outboundQueue = client.outboundQueue)
    (hpending : client'.noPendingWrites = client.noPendingWrites) {type : MsgType} {msgid : Nat}
    {a : Option Answer}
    (hout : client'.outbound i = (a.map (client.outbound i).read).getD (client.outbound i))
    (hrelease : (a.map Answer.release).getD []
      = if msgid = i ∧ type = .pubrel then [(.release : Forward Content)] else []) :
    Answered i a client (sendAck client' type msgid) := by
  refine ⟨?_, [ackPacket type msgid], appends_sendAck hquiet hqueue hpending type msgid, ?_⟩
  · rw [sendAck_outbound]
    exact hout
  · rw [hrelease, List.filterMap_cons, List.filterMap_nil, forward_ackPacket]
    by_cases h : msgid = i ∧ type = .pubrel
    · rw [if_pos h, if_pos h]
    · rw [if_neg h, if_neg h]

theorem handlePublishes_answered (hquiet : client.Quiet) (publish : Publish) :
    Answered i none client (handlePublishes client publish) := by
  unfold handlePublishes
  split
  · exact answered_none rfl rfl
  · split
    · refine answered_sendAck hquiet ?_ ?_ ?_ ?_
      · rfl
      · rfl
      · rfl
      · exact (if_neg fun h => absurd h.2 (by decide)).symm
    · split
      · refine answered_sendAck hquiet ?_ ?_ ?_ ?_
        · rfl
        · rfl
        · rfl
        · exact (if_neg fun h => absurd h.2 (by decide)).symm
      · exact answered_none rfl rfl

theorem handlePubrels_answered (hquiet : client.Quiet) (msgId : Nat) :
    Answered i none client (handlePubrels client msgId) := by
  have hrelease : (none.map Answer.release).getD []
      = if msgId = i ∧ MsgType.pubcomp = .pubrel then [(.release : Forward Content)] else [] :=
    (if_neg fun h => absurd h.2 (by decide)).symm
  unfold handlePubrels
  split
  · exact answered_sendAck hquiet rfl rfl rfl hrelease
  · split
    · exact answered_sendAck hquiet rfl rfl rfl hrelease
    · split
      · exact answered_sendAck hquiet rfl rfl rfl hrelease
      · refine answered_sendAck hquiet ?_ ?_ ?_ hrelease
        · rfl
        · rfl
        · rfl

theorem sender_some {msgs : List Messages} {m : Messages} (h : findItem msgs i = some m) :
    sender msgs i = m.sender := by
  unfold sender
  rw [h]

theorem sender_none {msgs : List Messages} (h : findItem msgs i = none) :
    sender msgs i = .idle := by
  unfold sender
  rw [h]

/-- A message found is where its exchange is. -/
theorem Messages.Sent.cases {m : Messages} (h : m.Sent) :
    m.qos = 1 ∧ m.sender = .plain m.content
      ∨ m.qos = 2 ∧ m.nextMessageType = some .pubrec ∧ m.sender = .offering m.content
      ∨ m.qos = 2 ∧ m.nextMessageType = some .pubcomp ∧ m.sender = .releasing m.content := by
  unfold Messages.sender
  rcases h.2 with hqos | ⟨hqos, hnext | hnext⟩
  · exact .inl ⟨hqos, if_pos hqos⟩
  · refine .inr (.inl ⟨hqos, hnext, ?_⟩)
    rw [if_neg (by omega), if_pos hnext]
  · refine .inr (.inr ⟨hqos, hnext, ?_⟩)
    rw [if_neg (by omega), hnext, if_neg (by decide)]

/-- The exchanges after an answer that changes nothing. -/
theorem sender_same {msgs : List Messages} {msgid : Nat} {a : Answer}
    (h : (sender msgs msgid).next a = sender msgs msgid) :
    sender msgs i = if msgid = i then (sender msgs i).next a else sender msgs i := by
  by_cases hid : msgid = i
  · subst hid
    rw [if_pos rfl, h]
  · rw [if_neg hid]

/-- The exchanges after an answer that ends one. -/
theorem sender_remove {msgs : List Messages} (hnodup : (msgs.map Messages.msgid).Nodup)
    {msgid : Nat} {a : Answer} (h : (sender msgs msgid).next a = .idle) :
    sender (removeItem msgs msgid) i = if msgid = i then (sender msgs i).next a else sender msgs i := by
  have hfind : findItem (removeItem msgs msgid) i = if msgid = i then none else findItem msgs i :=
    Keyed.lookup_remove hnodup msgid i
  by_cases hid : msgid = i
  · subst hid
    rw [if_pos rfl] at hfind ⊢
    rw [h, sender_none hfind]
  · rw [if_neg hid] at hfind ⊢
    unfold sender
    rw [hfind]

/-- The exchanges after the answer to an offer. -/
theorem sender_setNext {msgs : List Messages} {msgid : Nat} {m : Messages}
    (hm : findItem msgs msgid = some m) (hqos : m.qos = 2) (hs : m.sender = .offering m.content) :
    sender (setNext msgs msgid .pubcomp) i
      = if msgid = i then (sender msgs i).next .received else sender msgs i := by
  have hfind : findItem (setNext msgs msgid .pubcomp) i = if msgid = i then
      (findItem msgs msgid).map fun m => { m with nextMessageType := some .pubcomp }
      else findItem msgs i := Keyed.lookup_modify (fun m => by rfl) _ _ _
  by_cases hid : msgid = i
  · subst hid
    rw [if_pos rfl, hm] at hfind
    rw [if_pos rfl, sender_some hm, hs, sender_some hfind]
    unfold Messages.sender
    dsimp only
    rw [if_neg (by omega), if_neg (by decide)]
    rfl
  · rw [if_neg hid] at hfind ⊢
    unfold sender
    rw [hfind]

/-- A PUBACK ends an exchange with QoS 1 and no other. -/
theorem handlePubacks_sender (hwf : client.Wf opts) (msgId : Nat) :
    sender (handlePubacks client msgId).outboundMsgs i
      = if msgId = i then (sender client.outboundMsgs i).next .acknowledged
        else sender client.outboundMsgs i := by
  unfold handlePubacks
  cases hm : findItem client.outboundMsgs msgId with
  | none => exact sender_same (by rw [sender_none hm]; rfl)
  | some m =>
      dsimp only
      rcases (hwf.sent m (Keyed.lookup_some hm).1).cases with ⟨hqos, hs⟩ | ⟨hqos, -, hs⟩ | ⟨hqos, -, hs⟩
      · rw [if_neg (not_not.mpr hqos)]
        exact sender_remove hwf.outbound (by rw [sender_some hm, hs]; rfl)
      · rw [if_pos (by omega)]
        exact sender_same (by rw [sender_some hm, hs]; rfl)
      · rw [if_pos (by omega)]
        exact sender_same (by rw [sender_some hm, hs]; rfl)

/-- A PUBCOMP ends an exchange that has been released. -/
theorem handlePubcomps_sender (hwf : client.Wf opts) (msgId : Nat) :
    sender (handlePubcomps client msgId).outboundMsgs i
      = if msgId = i then (sender client.outboundMsgs i).next .completed
        else sender client.outboundMsgs i := by
  unfold handlePubcomps
  cases hm : findItem client.outboundMsgs msgId with
  | none => exact sender_same (by rw [sender_none hm]; rfl)
  | some m =>
      dsimp only
      rcases (hwf.sent m (Keyed.lookup_some hm).1).cases with
        ⟨hqos, hs⟩ | ⟨hqos, hnext, hs⟩ | ⟨hqos, hnext, hs⟩
      · rw [if_pos (by omega)]
        exact sender_same (by rw [sender_some hm, hs]; rfl)
      · rw [if_neg (not_not.mpr hqos), if_pos (by rw [hnext]; decide)]
        exact sender_same (by rw [sender_some hm, hs]; rfl)
      · rw [if_neg (not_not.mpr hqos), if_neg (not_not.mpr hnext)]
        exact sender_remove hwf.outbound (by rw [sender_some hm, hs]; rfl)

/-- A PUBREC releases an exchange that offers, and is answered in any case. -/
theorem handlePubrecs_sender (hwf : client.Wf opts) (msgId : Nat) :
    ∃ msgs, handlePubrecs client msgId = sendAck { client with outboundMsgs := msgs } .pubrel msgId
      ∧ sender msgs i = if msgId = i then (sender client.outboundMsgs i).next .received
        else sender client.outboundMsgs i := by
  unfold handlePubrecs
  cases hm : findItem client.outboundMsgs msgId with
  | none => exact ⟨_, rfl, sender_same (by rw [sender_none hm]; rfl)⟩
  | some m =>
      dsimp only
      rcases (hwf.sent m (Keyed.lookup_some hm).1).cases with
        ⟨hqos, hs⟩ | ⟨hqos, hnext, hs⟩ | ⟨hqos, hnext, hs⟩
      · rw [if_pos (by omega)]
        exact ⟨_, rfl, sender_same (by rw [sender_some hm, hs]; rfl)⟩
      · rw [if_neg (not_not.mpr hqos), if_neg (not_not.mpr hnext)]
        exact ⟨_, rfl, sender_setNext hm hqos hs⟩
      · rw [if_neg (not_not.mpr hqos), if_pos (by rw [hnext]; decide)]
        exact ⟨_, rfl, sender_same (by rw [sender_some hm, hs]; rfl)⟩

/-- A final answer is read, and the application told. -/
theorem answered_final (hout : ∃ msgs, client' = { client with outboundMsgs := msgs })
    {a : Answer} (ha : a ≠ .received) {msgId : Nat}
    (hs : sender client'.outboundMsgs i = if msgId = i then (sender client.outboundMsgs i).next a
      else sender client.outboundMsgs i) :
    Answered i (if msgId = i then some a else none) client (deliveryComplete client' msgId, []) := by
  obtain ⟨msgs, rfl⟩ := hout
  refine ⟨?_, [], appends_nil rfl, ?_⟩
  · apply Outbound.ext
    · show sender msgs i = _
      rw [hs]
      split <;> rfl
    · split <;> rfl
    · split <;> rfl
    -- `deliveryComplete` is called for the id, whatever the list held
    · show (client.hist.completed ++ [msgId]).count i = _
      rw [List.count_append, List.count_singleton]
      by_cases hid : msgId = i
      · subst hid
        rw [if_pos rfl, if_pos (beq_self_eq_true msgId)]
        show _ = client.hist.completed.count msgId + if a = .received then 0 else 1
        rw [if_neg ha]
      · rw [if_neg hid, if_neg (by simpa using hid)]
        rfl
  · by_cases hid : msgId = i
    · rw [if_pos hid]
      cases a with
      | received => exact absurd rfl ha
      | acknowledged => rfl
      | completed => rfl
    · rw [if_neg hid]
      rfl

/-- **WHAT A SENDER READS** is, for each id, a step of its handshake. -/
theorem cycle_answered (hwf : client.Wf opts) (hquiet : client.Quiet) (pack : Packet) :
    Answered i (answer i pack) client (cycle client pack) := by
  unfold cycle
  cases pack with
  | publish publish => exact handlePublishes_answered hquiet publish
  | ack ack =>
      unfold answer
      dsimp only
      cases htype : MsgType.ofCode ack.header.type with
      | none =>
          rw [Option.bind_none, ite_self]
          exact answered_none rfl rfl
      | some type =>
          rw [Option.bind_some]
          cases type with
          | puback =>
              exact answered_final (handlePubacks_frame client ack.msgId) (by decide)
                (handlePubacks_sender hwf ack.msgId)
          | pubcomp =>
              exact answered_final (handlePubcomps_frame client ack.msgId) (by decide)
                (handlePubcomps_sender hwf ack.msgId)
          | pubrec =>
              obtain ⟨msgs, hframe, hs⟩ := handlePubrecs_sender (i := i) hwf ack.msgId
              dsimp only
              rw [hframe]
              refine answered_sendAck hquiet ?_ ?_ ?_ ?_
              · rfl
              · rfl
              · apply Outbound.ext
                · show sender msgs i = _
                  rw [hs]
                  split <;> rfl
                · split <;> rfl
                · split <;> rfl
                · split <;> rfl
              · by_cases hid : ack.msgId = i
                -- the PUBREL that goes back is the release
                · rw [if_pos hid, if_pos ⟨hid, rfl⟩]
                  rfl
                · rw [if_neg hid, if_neg fun h => hid h.1]
                  rfl
          | pubrel =>
              show Answered i (if ack.msgId = i then none else none) _ _
              rw [ite_self]
              exact handlePubrels_answered hquiet ack.msgId
          | _ =>
              show Answered i (if ack.msgId = i then none else none) _ _
              rw [ite_self]
              exact answered_none rfl rfl
  | _ => exact answered_none rfl rfl

end

/-! ## §5. An end acts on its own. -/

/-- The handshakes of an end's own messages and of those it receives go on
with what a function has done. -/
structure Moves (R : Handshake.State Content → Prop) (L : Prop) (client : Clients)
    (r : Clients × Sends) : Prop where
  outbound (i : Nat) : ∃ l, Appends client r l ∧ ∀ n fwd back,
    Steps R L (join (client.outbound i) n fwd back)
      (join (r.1.outbound i) n (fwd ++ l.filterMap (forward i)) back)
  inbound (i : Nat) : ∃ l, Appends client r l ∧ ∀ o fwd back,
    Steps R L (join o (client.inbound i) fwd back)
      (join o (r.1.inbound i) fwd (back ++ l.filterMap (answer i)))

section

variable {R : Handshake.State Content → Prop} {L : Prop} {opts : SessionOptions}
variable {client client' : Clients} {i : Nat}

/-- Nothing that an exchange sees has changed. -/
theorem moves_same (h : client'.outboundMsgs = client.outboundMsgs
      ∧ client'.inboundMsgs = client.inboundMsgs ∧ client'.hist = client.hist
      ∧ client'.outboundQueue = client.outboundQueue) : Moves R L client (client', []) := by
  obtain ⟨hout, hin, hhist, hqueue⟩ := h
  refine ⟨fun i => ⟨[], appends_nil hqueue, ?_⟩, fun i => ⟨[], appends_nil hqueue, ?_⟩⟩
  · intro n fwd back
    unfold Clients.outbound Clients.started
    dsimp only
    rw [hout, hhist, List.filterMap_nil, List.append_nil]
  · intro o fwd back
    unfold Clients.inbound Clients.arrived
    dsimp only
    rw [hin, hhist, List.filterMap_nil, List.append_nil]

/-- A PUBLISH, for the receiver of an id. -/
theorem forward_publishPacket {m : Messages} (hqos : m.qos ≤ 2) (dup : Bool) :
    forward i (publishPacket m dup) = if m.msgid = i then
      if m.qos = 1 then some (.plain m.content)
      else if m.qos = 2 then some (.offer m.content) else none
    else none := by
  unfold forward publishPacket
  dsimp only
  obtain h | h | h : m.qos = 0 ∨ m.qos = 1 ∨ m.qos = 2 := by omega
  all_goals
    rw [h]
    rfl

theorem startPublish_hist (client : Clients) (m : Messages) : (startPublish client m).1.hist
    = { client.hist with started := client.hist.started ++ [m] } := by
  unfold startPublish
  dsimp only
  split
  · rfl
  · rfl

/-- A message that is sent is one more that was started. -/
theorem startPublish_started (m : Messages) (qos : Nat) :
    (startPublish client m).1.started qos i
      = client.started qos i ++ if m.qos = qos ∧ m.msgid = i then [m.content] else [] := by
  unfold Clients.started
  rw [startPublish_hist]
  simp only [List.filter_append, List.map_append, List.filter_cons, List.filter_nil,
    decide_eq_true_eq]
  split <;> rfl

/-- Its id, free before, now has an exchange. -/
theorem startPublish_sender {m : Messages}
    (hfree : m.qos > 0 → m.msgid ∉ client.outboundMsgs.map Messages.msgid) :
    sender (startPublish client m).1.outboundMsgs i
      = if m.qos > 0 ∧ m.msgid = i then m.sender else sender client.outboundMsgs i := by
  unfold startPublish
  dsimp only
  by_cases hpos : m.qos > 0
  · have hfind : findItem (client.outboundMsgs ++ [m]) i
        = if m.msgid = i then some m else findItem client.outboundMsgs i :=
      Keyed.lookup_snoc (hfree hpos) i
    rw [if_pos hpos]
    by_cases hid : m.msgid = i
    · rw [if_pos hid] at hfind
      rw [if_pos ⟨hpos, hid⟩]
      exact sender_some hfind
    · rw [if_neg hid] at hfind
      rw [if_neg fun h => hid h.2]
      unfold sender
      rw [hfind]
  · rw [if_neg hpos, if_neg fun h => hpos h.1]

theorem startPublish_frame (client : Clients) (m : Messages) :
    (startPublish client m).2 = [publishPacket m false]
      ∧ (startPublish client m).1.outboundQueue = client.outboundQueue
      ∧ (startPublish client m).1.hist.completed = client.hist.completed := by
  unfold startPublish
  dsimp only
  split
  · exact ⟨rfl, rfl, rfl⟩
  · exact ⟨rfl, rfl, rfl⟩

theorem startPublish_inbound (m : Messages) :
    (startPublish client m).1.inbound i = client.inbound i := by
  unfold startPublish
  dsimp only
  split <;> rfl

/-- **A message that is sent** begins the exchange of its id. -/
theorem startPublish_outbound {m : Messages} (hqos : m.qos ≤ 2)
    (hfree : m.qos > 0 → m.msgid ∉ client.outboundMsgs.map Messages.msgid)
    (hnext : m.qos = 2 → m.nextMessageType = some .pubrec) (n fwd back) :
    Steps R L (join (client.outbound i) n fwd back)
      (join ((startPublish client m).1.outbound i) n
        (fwd ++ [publishPacket m false].filterMap (forward i)) back) := by
  have hcount : (startPublish client m).1.hist.completed = client.hist.completed :=
    (startPublish_frame client m).2.2
  have hidle : m.qos > 0 → m.msgid = i → (client.outbound i).sender = .idle := by
    intro hpos hid
    exact sender_none (Keyed.lookup_eq_none.mpr (hid ▸ hfree hpos))
  have hforward := forward_publishPacket (i := i) hqos false
  have houtbound : (startPublish client m).1.outbound i
      = ⟨if m.qos > 0 ∧ m.msgid = i then m.sender else sender client.outboundMsgs i,
        client.started 2 i ++ if m.qos = 2 ∧ m.msgid = i then [m.content] else [],
        client.started 1 i ++ if m.qos = 1 ∧ m.msgid = i then [m.content] else [],
        client.hist.completed.count i⟩ := by
    unfold Clients.outbound
    rw [startPublish_sender hfree, startPublish_started, startPublish_started, hcount]
  rw [houtbound, List.filterMap_cons, List.filterMap_nil, hforward]
  by_cases hid : m.msgid = i
  · obtain h | h | h : m.qos = 0 ∨ m.qos = 1 ∨ m.qos = 2 := by omega
    · simp [h]
      -- QoS 0: no id, and no exchange
      exact .refl
    · have hs : m.sender = .plain m.content := if_pos h
      simp [h, hid, hs]
      exact Steps.plain (hidle (by omega) hid) m.content
    · have hs : m.sender = .offering m.content := by
        unfold Messages.sender
        rw [if_neg (by omega), if_pos (hnext h)]
      simp [h, hid, hs]
      exact Steps.offer (hidle (by omega) hid) m.content
  · simp only [hid, and_false, if_false, List.append_nil]
    exact .refl

/-- Sending a message moves the exchange of its id on. -/
theorem startPublish_moves {m : Messages} (hempty : client.outboundQueue = []) (hqos : m.qos ≤ 2)
    (hfree : m.qos > 0 → m.msgid ∉ client.outboundMsgs.map Messages.msgid)
    (hnext : m.qos = 2 → m.nextMessageType = some .pubrec) :
    Moves R L client (startPublish client m) := by
  obtain ⟨hsends, hqueue, -⟩ := startPublish_frame client m
  have happends : Appends client (startPublish client m) [publishPacket m false] := by
    unfold Appends
    rw [hsends]
    exact appends_sends hempty hqueue
  refine ⟨fun i => ⟨_, happends, ?_⟩, fun i => ⟨_, happends, ?_⟩⟩
  · exact startPublish_outbound hqos hfree hnext
  · intro o fwd back
    rw [startPublish_inbound]
    show Steps R L _ (join o _ fwd (back ++ []))
    rw [List.append_nil]

theorem assignMsgId_frame (client : Clients) :
    ∃ msgID, (assignMsgId client).2 = { client with msgID := msgID } := by
  unfold assignMsgId
  dsimp only
  split
  · exact ⟨_, rfl⟩
  · exact ⟨client.msgID, rfl⟩

/-- A publish starts a message of its QoS, with an id that is free when it has
one. -/
theorem publish5_start {p : Publication} {qos : Nat} {retain : Bool} {r : Clients × Sends}
    (hr : publish5 client p qos retain = some r) :
    ∃ msgID msgid, r = startPublish { client with msgID := msgID } (createMessage msgid qos retain p)
      ∧ (qos > 0 → (assignMsgId client).1 ≠ 0 ∧ msgid = (assignMsgId client).1)
      ∧ (qos = 0 → msgid = 0) := by
  unfold publish5 at hr
  by_cases hpos : qos > 0
  · simp only [if_pos hpos] at hr
    by_cases h0 : (assignMsgId client).1 = 0
    · rw [if_pos h0] at hr
      cases hr
    · rw [if_neg h0] at hr
      injection hr with hr
      subst hr
      obtain ⟨msgID, hframe⟩ := assignMsgId_frame client
      rw [hframe]
      exact ⟨msgID, _, rfl, fun _ => ⟨h0, rfl⟩, fun h => absurd h (by omega)⟩
  · rw [if_neg hpos] at hr
    injection hr with hr
    exact ⟨client.msgID, 0, hr.symm, fun h => absurd h hpos, fun _ => rfl⟩

/-- **A publish** moves the exchanges of both directions on. -/
theorem publish5_moves (hwf : client.Wf opts) (hempty : client.outboundQueue = [])
    {p : Publication} {qos : Nat} {retain : Bool} (hqos : qos ≤ 2) {r : Clients × Sends}
    (hr : publish5 client p qos retain = some r) : Moves R L client r := by
  obtain ⟨msgID, msgid, rfl, hid, -⟩ := publish5_start hr
  have hfree : qos > 0 → msgid ∉ client.outboundMsgs.map Messages.msgid := by
    intro hpos
    obtain ⟨h0, rfl⟩ := hid hpos
    exact (assignMsgId_fresh hwf.msgID h0).2
  have hmoves : Moves R L { client with msgID := msgID }
      (startPublish { client with msgID := msgID } (createMessage msgid qos retain p)) :=
    startPublish_moves hempty hqos hfree fun h2 => if_pos h2
  exact ⟨hmoves.outbound, hmoves.inbound⟩

/-- What is sent for one message. -/
theorem resend_sent {m : Messages} (hm : m.Sent) :
    ∃ pack, resend m = some pack
      ∧ (forward i pack).toList = if m.msgid = i then m.sender.packet else [] := by
  have hqos : m.qos ≤ 2 := by
    rcases hm.2 with h | ⟨h, -⟩
    · omega
    · omega
  have htoList : ∀ f : Forward Content,
      (if m.msgid = i then some f else none).toList = if m.msgid = i then [f] else [] := by
    intro f
    split <;> rfl
  rcases hm.cases with ⟨h1, hs⟩ | ⟨h2, hnext, hs⟩ | ⟨h2, hnext, hs⟩
  · refine ⟨_, if_pos (.inl h1), ?_⟩
    rw [forward_publishPacket hqos, if_pos h1, hs]
    exact htoList _
  · have h1 : ¬ m.qos = 1 := by omega
    refine ⟨_, if_pos (.inr ⟨h2, hnext⟩), ?_⟩
    rw [forward_publishPacket hqos, if_neg h1, if_pos h2, hs]
    exact htoList _
  · refine ⟨ackPacket .pubrel m.msgid, ?_, ?_⟩
    · unfold resend
      rw [hnext, if_neg (by simp [h2]), if_pos ⟨by omega, rfl⟩]
    · rw [forward_ackPacket, hs]
      simp only [and_true]
      exact htoList _

/-- What `MQTTProtocol_retries` sends of a list of messages is, for an id, what
its exchange has to say. -/
theorem resend_forward {msgs : List Messages} (hnodup : (msgs.map Messages.msgid).Nodup)
    (hsent : ∀ m ∈ msgs, m.Sent) :
    (msgs.filterMap resend).filterMap (forward i) = (sender msgs i).packet := by
  induction msgs with
  | nil => rfl
  | cons m msgs ih =>
      rw [List.map_cons, List.nodup_cons] at hnodup
      obtain ⟨pack, hresend, hforward⟩ := resend_sent (i := i) (hsent m List.mem_cons_self)
      -- on the list: no later message has the id of the first
      have htail := ih hnodup.2 fun m' hm' => hsent m' (List.mem_cons_of_mem m hm')
      have hcons : ((m :: msgs).filterMap resend).filterMap (forward i)
          = (forward i pack).toList ++ (msgs.filterMap resend).filterMap (forward i) := by
        rw [List.filterMap_cons_some hresend, List.filterMap_cons]
        cases forward i pack <;> rfl
      rw [hcons, hforward, htail]
      have hfind : findItem (m :: msgs) i = if m.msgid = i then some m else findItem msgs i :=
        Keyed.lookup_cons m msgs i
      by_cases hid : m.msgid = i
      · rw [if_pos hid] at hfind ⊢
        rw [sender_some hfind, sender_none (Keyed.lookup_eq_none.mpr (hid ▸ hnodup.1))]
        exact List.append_nil _
      · rw [if_neg hid] at hfind ⊢
        unfold sender
        rw [hfind]
        rfl

/-- Nothing that is sent again answers anything. -/
theorem resend_answer (msgs : List Messages) :
    (msgs.filterMap resend).filterMap (answer i) = [] := by
  rw [List.filterMap_filterMap, List.filterMap_eq_nil_iff]
  intro m _
  unfold resend
  split
  · rfl
  · split
    · show answer i (ackPacket .pubrel m.msgid) = none
      rw [answer_ackPacket]
      exact ite_self _
    · rfl

/-- Of a part of the messages, nothing or that. -/
theorem resend_sublist (hwf : client.Wf opts) {msgs : List Messages}
    (hsub : msgs.Sublist client.outboundMsgs) :
    (msgs.filterMap resend).filterMap (forward i) = []
      ∨ (msgs.filterMap resend).filterMap (forward i) = (client.outbound i).sender.packet := by
  have hpacket : (msgs.filterMap resend).filterMap (forward i) = (sender msgs i).packet := by
    refine resend_forward (hwf.outbound.sublist (hsub.map _)) ?_
    intro m hm
    exact hwf.sent m (hsub.subset hm)
  rw [hpacket]
  -- the message with the id is in the part, or it is not
  rcases Keyed.lookup_sublist (k := i) hsub hwf.outbound with hfind | hfind
  · left
    rw [sender_none hfind]
    rfl
  · right
    show _ = (sender client.outboundMsgs i).packet
    unfold sender findItem
    rw [hfind]

/-- `MQTTProtocol_retries` sends some of the outbound messages, each at most once. -/
theorem retries_frame (client : Clients) (retryInterval : Int) (regardless : Bool)
    (due : Nat → Bool) (n : Nat) : ∃ (client' : Clients) (msgs : List Messages),
      retries retryInterval client regardless due n = (client', msgs.filterMap resend)
        ∧ msgs.Sublist client.outboundMsgs ∧ client'.outboundQueue = client.outboundQueue
        ∧ ∀ i, client'.outbound i = client.outbound i ∧ client'.inbound i = client.inbound i := by
  unfold retries
  split
  · exact ⟨client, [], rfl, List.nil_sublist _, rfl, fun i => ⟨rfl, rfl⟩⟩
  · refine ⟨_, _, rfl, ?_, rfl, fun i => ⟨rfl, rfl⟩⟩
    exact List.filter_sublist.trans (List.take_sublist n _)

/-- **What is sent again** is what the exchanges have to say. -/
theorem retries_moves (hwf : client.Wf opts) (hempty : client.outboundQueue = [])
    (retryInterval : Int) (regardless : Bool) (due : Nat → Bool) (n : Nat)
    (hR : (retries retryInterval client regardless due n).2 ≠ [] → ∀ t, R t) :
    Moves R L client (retries retryInterval client regardless due n) := by
  obtain ⟨client', msgs, hr, hsub, hqueue, hlists⟩ :=
    retries_frame client retryInterval regardless due n
  rw [hr] at hR ⊢
  have happends : Appends client (client', msgs.filterMap resend) (msgs.filterMap resend) :=
    appends_sends hempty hqueue
  refine ⟨fun i => ⟨_, happends, ?_⟩, fun i => ⟨_, happends, ?_⟩⟩
  · intro n fwd back
    show Steps R L _ (join (client'.outbound i) n _ back)
    rw [(hlists i).1]
    rcases resend_sublist (i := i) hwf hsub with hnone | hpacket
    · rw [hnone, List.append_nil]
    · by_cases hempty' : msgs.filterMap resend = []
      · rw [hempty', List.filterMap_nil, List.append_nil]
      · rw [hpacket]
        exact Steps.resend (hR hempty' _)
  · intro o fwd back
    rw [resend_answer, List.append_nil]
    show Steps R L _ (join o (client'.inbound i) fwd back)
    rw [(hlists i).2]

end

/-! ## §6. Every step. -/

namespace Session

@[simp] theorem peer_peer (e : End) : e.peer.peer = e := by cases e <;> rfl

theorem peer_ne (e : End) : e.peer ≠ e := by cases e <;> decide

/-- There are two ends. -/
theorem eq_peer {e e' : End} (h : e' ≠ e) : e' = e.peer := by
  cases e with
  | near =>
      cases e' with
      | near => exact absurd rfl h
      | far => rfl
  | far =>
      cases e' with
      | near => rfl
      | far => exact absurd rfl h

section

variable {R : Handshake.State Content → Prop} {L : Prop} {s : Session} {e e' : End} {r : Clients × Sends}
variable {i : Nat}

@[simp] theorem put_ends_self : (s.put e r).ends e = r.1 := update_self ..

@[simp] theorem put_ends_peer : (s.put e r).ends e.peer = s.ends e.peer :=
  update_of_ne (peer_ne e) ..

/-- To the end that has acted nothing new is on the way. -/
@[simp] theorem put_way_self : (s.put e r).way e = s.way e := by
  unfold way
  rw [put_ends_peer]
  show update s.wire e.peer _ e ++ _ = _
  rw [update_of_ne (peer_ne e).symm]

/-- To its peer there is what was written and what now waits. -/
theorem put_way_peer : (s.put e r).way e.peer = s.wire e.peer ++ (r.2 ++ r.1.queued) := by
  unfold way
  rw [peer_peer, put_ends_self]
  show update s.wire e.peer _ e.peer ++ _ = _
  rw [update_self, List.append_assoc]

/-- To its peer there is what it has sent. -/
theorem put_way_appends {l : List Packet} (h : Appends (s.ends e) r l) :
    (s.put e r).way e.peer = s.way e.peer ++ l := by
  rw [put_way_peer, h, ← List.append_assoc]
  unfold way
  rw [peer_peer]

/-- The exchanges whose messages an end receives. -/
theorem exchange_peer (s : Session) : s.exchange e.peer i = join ((s.ends e.peer).outbound i)
    ((s.ends e).inbound i) ((s.way e).filterMap (forward i))
    ((s.way e.peer).filterMap (answer i)) := by
  unfold exchange
  rw [peer_peer]

/-- What holds of the exchanges an end sends in and of those it receives in
holds of all. -/
theorem forall_exchange {P : Session → Session → End → Nat → Prop} {s' : Session} (e' : End)
    (hself : ∀ i, P s s' e' i) (hpeer : ∀ i, P s s' e'.peer i) (e : End) (i : Nat) : P s s' e i := by
  by_cases he : e = e'
  · rw [he]
    exact hself i
  · rw [eq_peer he]
    exact hpeer i

/-- **An end acts on its own**: a step of every exchange. -/
theorem moves_exchange (h : Moves R L (s.ends e') r) (e : End) (i : Nat) :
    Steps R L (s.exchange e i) ((s.put e' r).exchange e i) := by
  refine forall_exchange (P := fun s s' e i => Steps R L (s.exchange e i) (s'.exchange e i)) e' ?_ ?_ e i
  · intro i
    obtain ⟨l, happends, hsteps⟩ := h.outbound i
    unfold Session.exchange
    rw [put_ends_self, put_ends_peer, put_way_self, put_way_appends happends, List.filterMap_append]
    exact hsteps _ _ _
  · intro i
    obtain ⟨l, happends, hsteps⟩ := h.inbound i
    rw [exchange_peer, exchange_peer, put_ends_self, put_ends_peer, put_way_self,
      put_way_appends happends, List.filterMap_append]
    exact hsteps _ _ _

/-- **A packet is read**, the first on its way: a step of its exchange, and of
no other. -/
theorem cycle_exchange {opts : SessionOptions} {t : Session} {pack : Packet}
    (hwf : (s.ends e').Wf opts) (hquiet : (s.ends e').Quiet) (hends : t.ends = s.ends)
    (hself : t.way e' = pack :: s.way e') (hpeer : t.way e'.peer = s.way e'.peer)
    (e : End) (i : Nat) :
    Steps R L (t.exchange e i) ((s.put e' (cycle (s.ends e') pack)).exchange e i) := by
  refine forall_exchange (P := fun s s' e i => Steps R L (s.exchange e i) (s'.exchange e i)) e' ?_ ?_ e i
  · intro i
    obtain ⟨hout, l, happends, hl⟩ := cycle_answered (i := i) hwf hquiet pack
    unfold Session.exchange
    rw [put_ends_self, put_ends_peer, put_way_self, put_way_appends happends, List.filterMap_append,
      hl, hout, hself, hpeer, hends, List.filterMap_cons]
    cases answer i pack with
    | none =>
        dsimp only [Option.map_none, Option.getD_none]
        rw [List.append_nil]
    | some a => exact Steps.read_back a
  · intro i
    obtain ⟨hin, l, happends, hl⟩ := cycle_reads (i := i) hwf hquiet pack
    rw [exchange_peer, exchange_peer, put_ends_self, put_ends_peer, put_way_self,
      put_way_appends happends, List.filterMap_append, hl, hin, hself, hpeer, hends,
      List.filterMap_cons]
    cases forward i pack with
    | none =>
        dsimp only [Option.map_none, Option.getD_none, Option.toList_none]
        rw [List.append_nil]
    | some f => exact Steps.read_fwd f

/-- Fewer packets on the way, and nothing else. -/
theorem exchange_lose {s' : Session} (hL : L)
    (hout : ∀ e i, (s'.ends e).outbound i = (s.ends e).outbound i)
    (hin : ∀ e i, (s'.ends e).inbound i = (s.ends e).inbound i)
    (hway : ∀ e, (s'.way e).Sublist (s.way e)) (e : End) (i : Nat) :
    Steps R L (s.exchange e i) (s'.exchange e i) := by
  unfold exchange
  rw [hout, hin]
  exact Steps.lose hL ((hway _).filterMap _) ((hway _).filterMap _)

/-- All the acknowledgements that waited are written. -/
theorem writeAvailable_way (again : Bool) {n : Nat} (hall : (s.ends e').outboundQueue.length ≤ n)
    (e : End) : (s.put e' (MQTTProtocol.writeAvailable
      { s.ends e' with noPendingWrites := !again } n)).way e = s.way e := by
  by_cases he : e = e'
  · rw [he, put_way_self]
  · rw [eq_peer he, put_way_peer]
    unfold way
    rw [peer_peer]
    show _ ++ (List.map _ (List.take n _) ++ []) = _
    rw [List.append_nil, List.take_of_length_le hall]
    rfl

/-- They are written, or dropped. -/
theorem writeAvailable_exchange (again : Bool) {n : Nat}
    (hL : (s.ends e').outboundQueue.length ≤ n ∨ L) (e : End) (i : Nat) :
    Steps R L (s.exchange e i) ((s.put e' (MQTTProtocol.writeAvailable
      { s.ends e' with noPendingWrites := !again } n)).exchange e i) := by
  have hout := forall_put (s := s) (e := e')
    (r := MQTTProtocol.writeAvailable { s.ends e' with noPendingWrites := !again } n)
    (P := fun e c => ∀ i, c.outbound i = (s.ends e).outbound i) (fun _ _ => rfl) fun _ => rfl
  have hin := forall_put (s := s) (e := e')
    (r := MQTTProtocol.writeAvailable { s.ends e' with noPendingWrites := !again } n)
    (P := fun e c => ∀ i, c.inbound i = (s.ends e).inbound i) (fun _ _ => rfl) fun _ => rfl
  rcases hL with hall | hL
  · unfold exchange
    rw [hout, hin, writeAvailable_way again hall, writeAvailable_way again hall]
  · refine exchange_lose hL hout hin ?_ e i
    intro e
    by_cases he : e = e'
    · rw [he, put_way_self]
    · rw [eq_peer he, put_way_peer]
      unfold way
      rw [peer_peer]
      refine (List.Sublist.refl _).append ?_
      show (List.map _ (List.take n _) ++ []).Sublist (List.map _ _)
      rw [List.append_nil]
      exact (List.take_sublist _ _).map _

/-- A new connection sends some of the outbound messages, each at most once. -/
theorem resume_frame (opts : SessionOptions) (client : Clients) (n : Nat) :
    ∃ (client' : Clients) (msgs : List Messages),
      resume opts client n = (client', msgs.filterMap resend)
        ∧ msgs.Sublist client.outboundMsgs ∧ client'.outboundQueue = client.outboundQueue
        ∧ ∀ i, client'.outbound i = client.outbound i ∧ client'.inbound i = client.inbound i := by
  unfold resume
  dsimp only
  split
  · obtain ⟨client', msgs, h⟩ := retries_frame { client with noPendingWrites := true }
      opts.retryInterval true (fun _ => true) n
    exact ⟨client', msgs, h⟩
  · exact ⟨_, [], rfl, List.nil_sublist _, rfl, fun i => ⟨rfl, rfl⟩⟩

/-- **THE CONNECTION IS MADE AGAIN**: what was on the way is lost, and what is
not acknowledged is sent again. -/
theorem connect_exchange {opts : End → SessionOptions} (hwf : ∀ e, (s.ends e).Wf (opts e))
    (hempty : ∀ e, (s.ends e).outboundQueue = []) (hR : ∀ t, Drained t → R t) (hL : L)
    (n : End → Nat)
    (e : End) (i : Nat) :
    Steps R L (s.exchange e i) (Session.exchange ⟨fun e => (resume (opts e) (s.ends e) (n e)).1,
      fun e => (resume (opts e.peer) (s.ends e.peer) (n e.peer)).2, true⟩ e i) := by
  obtain ⟨client, msgs, hself, hsub, hqueue, hlists⟩ := resume_frame (opts e) (s.ends e) (n e)
  obtain ⟨client', msgs', hpeer, -, hqueue', hlists'⟩ :=
    resume_frame (opts e.peer) (s.ends e.peer) (n e.peer)
  have hnew : Session.exchange ⟨fun e => (resume (opts e) (s.ends e) (n e)).1,
      fun e => (resume (opts e.peer) (s.ends e.peer) (n e.peer)).2, true⟩ e i
      = join ((s.ends e).outbound i) ((s.ends e.peer).inbound i)
        ((msgs.filterMap resend).filterMap (forward i)) [] := by
    unfold Session.exchange way Clients.queued
    dsimp only
    rw [peer_peer, hself, hpeer]
    dsimp only
    rw [hqueue, hqueue', hempty, hempty, List.map_nil, List.append_nil, List.append_nil,
      resend_answer, (hlists i).1, (hlists' i).2]
  -- first everything on the way is lost, then one side speaks again
  have hlost : Steps R L (s.exchange e i)
      (join ((s.ends e).outbound i) ((s.ends e.peer).inbound i) [] []) :=
    Steps.lose hL (List.nil_sublist _) (List.nil_sublist _)
  rw [hnew]
  rcases resend_sublist (i := i) (hwf e) hsub with hnone | hpacket
  · rw [hnone]
    exact hlost
  · rw [hpacket, ← List.nil_append ((s.ends e).outbound i).sender.packet]
    exact hlost.trans (Steps.resend (hR _ ⟨rfl, rfl⟩))

end

end Session

end MqttBenchmark.Paho
