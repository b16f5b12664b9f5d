/-
  MqttBenchmark.Paho.Session
  ──────────────────────────
  **THE TWO ENDS OF A SESSION.**

  `MQTTProtocolClient.c` keeps, for one client, the messages it has sent and
  not seen acknowledged and the QoS 2 messages it has received and not seen
  released.  The functions below are those of the source on one `Clients`;
  what a function puts on the socket is returned beside the new state.  Two
  ends that run them share a connection, which may break and be made again
  with the session kept.

    • `assignMsgId`, `startPublish`, `handlePublishes`, … — the code,
    • `cycle` — `MQTTClient_cycle` on one packet,
    • `step`, `session` — the two ends, in every order,
    • `Takes` — what a step does.

  MODELLING CHOICES.  Version 3.1.1 with `cleansession` 0: with 1 the session
  ends with its connection.  The far end answers as this library would.
  Whether a write leaves the socket with pending bytes, whether a retry is
  due and when a connection breaks is open.  When the pending bytes are
  written, the acknowledgements queued behind them follow at once, up to the
  first whose write does not complete.  `malloc` succeeds.
-/
import MqttBenchmark.Paho.Packet
import MqttBenchmark.Lib.Transition
import MqttBenchmark.Lib.Keyed
import Mathlib.Logic.Function.Basic

namespace MqttBenchmark.Paho

open Lib Function

/-! ## §1. One client. -/

/-- What is published: `Publications`. -/
structure Publication where
  topic : Bytes
  payload : Bytes
  deriving DecidableEq, Repr

/-- `Messages`; `nextMessageType` is set for QoS 2 only. -/
structure Messages where
  msgid : Nat
  qos : Nat
  retain : Bool
  publish : Publication
  nextMessageType : Option MsgType
  deriving DecidableEq, Repr

structure AckRequest where
  messageId : Nat
  ackType : MsgType
  deriving DecidableEq, Repr

/-- `qEntry` with its `MQTTClient_message`. -/
structure QEntry where
  topicName : Bytes
  payload : Bytes
  qos : Nat
  retained : Bool
  dup : Bool
  msgid : Nat
  deriving DecidableEq, Repr

/-- History variables: no function reads them. -/
structure SessionHistory where
  /-- Every message a publish started, with the QoS 0 ones. -/
  started : List Messages
  /-- Every message put into `messageQueue`. -/
  arrived : List QEntry
  /-- The tokens `deliveryComplete` was called with. -/
  completed : List Nat
  deriving DecidableEq, Repr

/-- The fields of `Clients` the protocol uses. -/
structure Clients where
  msgID : Nat
  outboundMsgs : List Messages
  inboundMsgs : List Messages
  messageQueue : List QEntry
  outboundQueue : List AckRequest
  /-- `Socket_noPendingWrites` -/
  noPendingWrites : Bool
  connectCount : Nat
  connectSent : Nat
  hist : SessionHistory
  deriving DecidableEq, Repr

/-- As `MQTTClient_create` makes it. -/
def Clients.initial : Clients := ⟨0, [], [], [], [], true, 0, 0, ⟨[], [], []⟩⟩

/-- The options a client connects with. -/
structure SessionOptions where
  maxInflightMessages : Nat
  retryInterval : Int

/-- What is put on the socket, in order. -/
abbrev Sends := List Packet

/-- `MAX_MSG_ID` -/
def maxMsgId : Nat := 65535

namespace MQTTProtocol

/-! ## §2. Message ids. -/

def nextMsgId (msgid : Nat) : Nat := if msgid = maxMsgId then 1 else msgid + 1

/-- `ListFindItem(msgs, &msgid, messageIDCompare)`. -/
def findItem (msgs : List Messages) (msgid : Nat) : Option Messages :=
  Keyed.lookup Messages.msgid msgs msgid

/-- The loop of `MQTTProtocol_assignMsgId`, at most `fuel` rounds; 0 when all
were tried. -/
def assignLoop (outboundMsgs : List Messages) (start : Nat) : Nat → Nat → Nat
  | 0, _ => 0
  | fuel + 1, msgid =>
      if (findItem outboundMsgs msgid).isSome then
        let msgid := nextMsgId msgid
        if msgid = start then 0 else assignLoop outboundMsgs start fuel msgid
      else msgid

/-- `MQTTProtocol_assignMsgId`: the id, or 0 if none is available. -/
def assignMsgId (client : Clients) : Nat × Clients :=
  let msgid := assignLoop client.outboundMsgs client.msgID (maxMsgId + 1) (nextMsgId client.msgID)
  (msgid, if msgid ≠ 0 then { client with msgID := msgid } else client)

/-! ## §3. Publishing. -/

def publishPacket (m : Messages) (dup : Bool) : Packet :=
  .publish ⟨⟨MsgType.publish.code, dup, BitVec.ofNat 2 m.qos, m.retain⟩, m.publish.topic, m.msgid,
    m.publish.payload⟩

def ackPacket (type : MsgType) (msgid : Nat) : Packet :=
  .ack ⟨⟨type.code, false, if type = .pubrel then 1 else 0, false⟩, msgid⟩

/-- `MQTTProtocol_createMessage`. -/
def createMessage (msgid qos : Nat) (retain : Bool) (publish : Publication) : Messages :=
  ⟨msgid, qos, retain, publish, if qos = 2 then some .pubrec else none⟩

/-- `MQTTProtocol_startPublish`: a QoS 0 message is not kept. -/
def startPublish (client : Clients) (m : Messages) : Clients × Sends :=
  let client := { client with hist := { client.hist with started := client.hist.started ++ [m] } }
  if m.qos > 0 then
    ({ client with outboundMsgs := client.outboundMsgs ++ [m] }, [publishPacket m false])
  else (client, [publishPacket m false])

/-- `MQTTClient_publish5` behind its wait for room; none when no id is left. -/
def publish5 (client : Clients) (publish : Publication) (qos : Nat) (retain : Bool) :
    Option (Clients × Sends) :=
  if qos > 0 then
    let (msgid, client) := assignMsgId client
    if msgid = 0 then none else some (startPublish client (createMessage msgid qos retain publish))
  else some (startPublish client (createMessage 0 qos retain publish))

/-! ## §4. Packets that arrive. -/

/-- `Protocol_processPublication`; a QoS 2 message loses its DUP flag. -/
def processPublication (client : Clients) (publish : Publish) : Clients :=
  let qe : QEntry := ⟨publish.topic, publish.payload, publish.header.qos.toNat,
    publish.header.retain, if publish.header.qos = 2 then false else publish.header.dup,
    publish.msgId⟩
  { client with
    messageQueue := client.messageQueue ++ [qe]
    hist := { client.hist with arrived := client.hist.arrived ++ [qe] } }

/-- An acknowledgement: at once, or queued behind pending writes. -/
def sendAck (client : Clients) (type : MsgType) (msgid : Nat) : Clients × Sends :=
  if client.noPendingWrites then (client, [ackPacket type msgid])
  else ({ client with outboundQueue := client.outboundQueue ++ [⟨msgid, type⟩] }, [])

/-- `ListInsert` before the message with this id and `ListRemove` of that, or
`ListAppend` without one. -/
def storeInbound (msgs : List Messages) (m : Messages) : List Messages :=
  Keyed.store Messages.msgid msgs m

/-- `ListRemove` of the message found. -/
def removeItem (msgs : List Messages) (msgid : Nat) : List Messages :=
  Keyed.remove Messages.msgid msgs msgid

/-- The message found expects that packet next. -/
def setNext (msgs : List Messages) (msgid : Nat) (type : MsgType) : List Messages :=
  Keyed.modify Messages.msgid (fun m => { m with nextMessageType := some type }) msgs msgid

/-- `MQTTProtocol_handlePublishes`. -/
def handlePublishes (client : Clients) (publish : Publish) : Clients × Sends :=
  if publish.header.qos = 0 then (processPublication client publish, [])
  else if publish.header.qos = 1 then
    sendAck (processPublication client publish) .puback publish.msgId
  else if publish.header.qos = 2 then
    let m : Messages := ⟨publish.msgId, 2, publish.header.retain, ⟨publish.topic, publish.payload⟩,
      some .pubrel⟩
    sendAck { client with inboundMsgs := storeInbound client.inboundMsgs m } .pubrec publish.msgId
  else (client, [])

/-- `MQTTProtocol_handlePubacks`. -/
def handlePubacks (client : Clients) (msgId : Nat) : Clients :=
  match findItem client.outboundMsgs msgId with
  | none => client
  | some m =>
      if m.qos ≠ 1 then client
      else { client with outboundMsgs := removeItem client.outboundMsgs msgId }

/-- `MQTTProtocol_handlePubrecs`: the release is sent under all circumstances. -/
def handlePubrecs (client : Clients) (msgId : Nat) : Clients × Sends :=
  let client :=
    match findItem client.outboundMsgs msgId with
    | none => client
    | some m =>
        if m.qos ≠ 2 then client
        else if m.nextMessageType ≠ some .pubrec then client
        else { client with outboundMsgs := setNext client.outboundMsgs msgId .pubcomp }
  sendAck client .pubrel msgId

/-- `MQTTProtocol_handlePubrels`: the answer is sent under all circumstances. -/
def handlePubrels (client : Clients) (msgId : Nat) : Clients × Sends :=
  let client :=
    match findItem client.inboundMsgs msgId with
    | none => client
    | some m =>
        if m.qos ≠ 2 then client
        else if m.nextMessageType ≠ some .pubrel then client
        else
          let publish : Publish := ⟨⟨0, false, BitVec.ofNat 2 m.qos, m.retain⟩, m.publish.topic,
            m.msgid, m.publish.payload⟩
          let client := processPublication client publish
          { client with inboundMsgs := removeItem client.inboundMsgs msgId }
  sendAck client .pubcomp msgId

/-- `MQTTProtocol_handlePubcomps`. -/
def handlePubcomps (client : Clients) (msgId : Nat) : Clients :=
  match findItem client.outboundMsgs msgId with
  | none => client
  | some m =>
      if m.qos ≠ 2 then client
      else if m.nextMessageType ≠ some .pubcomp then client
      else { client with outboundMsgs := removeItem client.outboundMsgs msgId }

/-! ## §5. Sending again. -/

/-- What `MQTTProtocol_retries` sends for one message. -/
def resend (m : Messages) : Option Packet :=
  if m.qos = 1 ∨ m.qos = 2 ∧ m.nextMessageType = some .pubrec then some (publishPacket m true)
  else if m.qos ≠ 0 ∧ m.nextMessageType = some .pubcomp then some (ackPacket .pubrel m.msgid)
  else none

/-- `MQTTProtocol_retries`; it gets through `n` messages before the socket has
pending writes, and `due` are those whose time has come. -/
def retries (retryInterval : Int) (client : Clients) (regardless : Bool) (due : Nat → Bool)
    (n : Nat) : Clients × Sends :=
  if !regardless ∧ retryInterval ≤ 0 ∧ client.connectSent = client.connectCount then (client, [])
  else
    let connectCount := if regardless then client.outboundMsgs.length else client.connectCount
    let regardless := regardless || client.connectSent < connectCount
    let msgs := client.outboundMsgs.take n
    ({ client with
        connectCount := connectCount
        connectSent := client.connectSent + if regardless then msgs.length else 0
        noPendingWrites := client.noPendingWrites && client.outboundMsgs.length ≤ n },
      (msgs.filter fun m => regardless || due m.msgid).filterMap resend)

/-- `MQTTProtocol_writeAvailable`: the writes of `n` queued acknowledgements
complete, the others are dropped. -/
def writeAvailable (client : Clients) (n : Nat) : Clients × Sends :=
  ({ client with outboundQueue := [] },
    (client.outboundQueue.take n).map fun ack => ackPacket ack.ackType ack.messageId)

end MQTTProtocol

namespace MQTTClient

open MQTTProtocol

/-- The call of `deliveryComplete`. -/
def deliveryComplete (client : Clients) (msgid : Nat) : Clients :=
  { client with hist := { client.hist with completed := client.hist.completed ++ [msgid] } }

/-- `MQTTClient_cycle` on one packet.  `deliveryComplete` is called for every
`PUBACK` and `PUBCOMP`, whether or not a message with that id is known. -/
def cycle (client : Clients) (pack : Packet) : Clients × Sends :=
  match pack with
  | .publish publish => handlePublishes client publish
  | .ack ack =>
      match MsgType.ofCode ack.header.type with
      | some .puback => (deliveryComplete (handlePubacks client ack.msgId) ack.msgId, [])
      | some .pubcomp => (deliveryComplete (handlePubcomps client ack.msgId) ack.msgId, [])
      | some .pubrec => handlePubrecs client ack.msgId
      | some .pubrel => handlePubrels client ack.msgId
      | _ => (client, [])
  | _ => (client, [])

end MQTTClient

/-! ## §6. The session. -/

inductive End where
  | near
  | far
  deriving DecidableEq, Repr

def End.peer : End → End
  | .near => .far
  | .far => .near

/-- Both ends, and the packets on their way to each. -/
structure Session where
  ends : End → Clients
  wire : End → List Packet
  connected : Bool

namespace Session

open MQTTProtocol MQTTClient

def initial : Session := ⟨fun _ => Clients.initial, fun _ => [], true⟩

inductive Action where
  /-- An application publishes. -/
  | publish (e : End) (p : Publication) (qos : Nat) (retain : Bool)
  /-- A subscribe or an unsubscribe takes a message id. -/
  | takeId (e : End)
  /-- The next packet is read. -/
  | cycle (e : End)
  /-- The application takes the next message. -/
  | messageArrived (e : End)
  /-- Messages whose time has come are sent again. -/
  | retry (e : End) (due : Nat → Bool) (n : Nat)
  /-- A write has left pending bytes. -/
  | pending (e : End)
  /-- The pending bytes are written. -/
  | writeAvailable (e : End) (n : Nat) (again : Bool)
  | lose
  /-- Connected again; `n` as in `retries`. -/
  | connect (n : End → Nat)

/-- A function of one end has returned. -/
def put (s : Session) (e : End) (r : Clients × Sends) : Session where
  ends := update s.ends e r.1
  wire := update s.wire e.peer (s.wire e.peer ++ r.2)
  connected := s.connected

/-- `MQTTProtocol_retry` on a connection just made. -/
def resume (opts : SessionOptions) (client : Clients) (n : Nat) : Clients × Sends :=
  let client := { client with noPendingWrites := true }
  if client.outboundMsgs.length > 0 then
    retries opts.retryInterval client true (fun _ => true) n
  else (client, [])

def step (opts : End → SessionOptions) (s : Session) (a : Action) : Option Session :=
  match a with
  | .publish e p qos retain =>
      let client := s.ends e
      if s.connected ∧ client.outboundMsgs.length < (opts e).maxInflightMessages
          ∧ client.noPendingWrites ∧ qos ≤ 2 then
        (publish5 client p qos retain).map (s.put e)
      else none
  | .takeId e =>
      if s.connected then some (s.put e ((assignMsgId (s.ends e)).2, [])) else none
  | .cycle e =>
      match s.wire e with
      | [] => none
      | pack :: rest => some ({ s with wire := update s.wire e rest }.put e
          (MQTTClient.cycle (s.ends e) pack))
  | .messageArrived e =>
      let client := s.ends e
      match client.messageQueue with
      | [] => none
      | _ :: rest => some (s.put e ({ client with messageQueue := rest }, []))
  | .retry e due n =>
      if s.connected ∧ (s.ends e).noPendingWrites then
        some (s.put e (retries (opts e).retryInterval (s.ends e) false due n))
      else none
  | .pending e =>
      if s.connected then some (s.put e ({ s.ends e with noPendingWrites := false }, [])) else none
  | .writeAvailable e n again =>
      if s.connected ∧ (s.ends e).noPendingWrites = false then
        some (s.put e (MQTTProtocol.writeAvailable { s.ends e with noPendingWrites := !again } n))
      else none
  | .lose => if s.connected then some { s with wire := fun _ => [], connected := false } else none
  | .connect n =>
      if s.connected then none
      else
        let resumed e := resume (opts e) (s.ends e) (n e)
        some ⟨fun e => (resumed e).1, fun e => (resumed e.peer).2, true⟩

/-! ## §7. What a step does. -/

/-- A step that is taken, by its action. -/
inductive Takes (opts : End → SessionOptions) (s : Session) : Action → Session → Prop
  | publish (e : End) (p : Publication) (qos : Nat) (retain : Bool) (r : Clients × Sends)
      (hconnected : s.connected)
      (hroom : (s.ends e).outboundMsgs.length < (opts e).maxInflightMessages)
      (hpending : (s.ends e).noPendingWrites) (hqos : qos ≤ 2)
      (hr : publish5 (s.ends e) p qos retain = some r) :
      Takes opts s (.publish e p qos retain) (s.put e r)
  | takeId (e : End) : Takes opts s (.takeId e) (s.put e ((assignMsgId (s.ends e)).2, []))
  | cycle (e : End) (pack : Packet) (rest : List Packet) (hwire : s.wire e = pack :: rest) :
      Takes opts s (.cycle e) ({ s with wire := update s.wire e rest }.put e
        (MQTTClient.cycle (s.ends e) pack))
  | messageArrived (e : End) (qe : QEntry) (rest : List QEntry)
      (hqueue : (s.ends e).messageQueue = qe :: rest) :
      Takes opts s (.messageArrived e) (s.put e ({ s.ends e with messageQueue := rest }, []))
  | retry (e : End) (due : Nat → Bool) (n : Nat) (hpending : (s.ends e).noPendingWrites)
      (hconnected : s.connected) :
      Takes opts s (.retry e due n)
        (s.put e (retries (opts e).retryInterval (s.ends e) false due n))
  | pending (e : End) (hconnected : s.connected) :
      Takes opts s (.pending e) (s.put e ({ s.ends e with noPendingWrites := false }, []))
  | writeAvailable (e : End) (n : Nat) (again : Bool) (hconnected : s.connected) :
      Takes opts s (.writeAvailable e n again)
        (s.put e (MQTTProtocol.writeAvailable { s.ends e with noPendingWrites := !again } n))
  | lose : Takes opts s .lose { s with wire := fun _ => [], connected := false }
  | connect (n : End → Nat) (hlost : s.connected = false) :
      Takes opts s (.connect n) ⟨fun e => (resume (opts e) (s.ends e) (n e)).1,
        fun e => (resume (opts e.peer) (s.ends e.peer) (n e.peer)).2, true⟩

theorem takes_of_step {opts : End → SessionOptions} {s s' : Session} {a : Action}
    (h : step opts s a = some s') : Takes opts s a s' := by
  cases a with
  | publish e p qos retain =>
      simp only [step] at h
      split at h
      next hcond =>
        obtain ⟨hconnected, hroom, hpending, hqos⟩ := hcond
        obtain ⟨r, hr, rfl⟩ := Option.map_eq_some_iff.mp h
        exact .publish e p qos retain r hconnected hroom hpending hqos hr
      · cases h
  | takeId e =>
      simp only [step] at h
      split at h
      · cases h
        exact .takeId e
      · cases h
  | cycle e =>
      simp only [step] at h
      split at h
      · cases h
      next pack rest hwire =>
        cases h
        exact .cycle e pack rest hwire
  | messageArrived e =>
      simp only [step] at h
      split at h
      · cases h
      next qe rest hqueue =>
        cases h
        exact .messageArrived e qe rest hqueue
  | retry e due n =>
      simp only [step] at h
      split at h
      next hcond =>
        cases h
        exact .retry e due n hcond.2 hcond.1
      · cases h
  | pending e =>
      simp only [step] at h
      split at h
      next hconnected =>
        cases h
        exact .pending e hconnected
      · cases h
  | writeAvailable e n again =>
      simp only [step] at h
      split at h
      next hcond =>
        cases h
        exact .writeAvailable e n again hcond.1
      · cases h
  | lose =>
      simp only [step] at h
      split at h
      · cases h
        exact .lose
      · cases h
  | connect n =>
      simp only [step] at h
      split at h
      · cases h
      next hlost =>
        cases h
        exact .connect n (by simpa using hlost)

end Session

/-- The session, from its first connection on. -/
def session (opts : End → SessionOptions) : System Session Session.Action :=
  ⟨Session.initial, Session.step opts⟩

end MqttBenchmark.Paho
