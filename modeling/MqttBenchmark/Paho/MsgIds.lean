/-
  MqttBenchmark.Paho.MsgIds
  ─────────────────────────
  **MESSAGE IDS IN A SESSION.**

  A message id stands for one message from the publish to the final
  acknowledgement, on the wire and in the token the application waits with.

    • `assignMsgId_fresh`, `assignMsgId_pos` — the search for a free id,
    • `Clients.Wf` — what the lists of a client keep,
    • `ids_in_flight` — in every reachable state of a session.
-/
import MqttBenchmark.Paho.Session
import Mathlib.Data.Finset.Card
import Mathlib.Order.Interval.Finset.Nat

namespace MqttBenchmark.Paho

open Lib Lib.System Function

namespace MQTTProtocol

/-! ## §1. The search for a free id. -/

/-- An id that a packet can carry. -/
def IsMsgId (msgid : Nat) : Prop := 1 ≤ msgid ∧ msgid ≤ maxMsgId

/-- The next id, as a remainder: after 65535 comes 1. -/
theorem nextMsgId_eq {msgid : Nat} (h : msgid ≤ maxMsgId) :
    nextMsgId msgid = msgid % 65535 + 1 := by
  unfold nextMsgId
  unfold maxMsgId at h ⊢
  split <;> omega

/-- It fits a packet. -/
theorem isMsgId_next {msgid : Nat} (h : msgid ≤ maxMsgId) : IsMsgId (nextMsgId msgid) := by
  rw [nextMsgId_eq h]
  unfold IsMsgId maxMsgId
  omega

/-- What the search ends with is 0 or free. -/
theorem assignLoop_free (msgs : List Messages) (start : Nat) : ∀ (fuel msgid : Nat),
    IsMsgId msgid → assignLoop msgs start fuel msgid ≠ 0 →
    IsMsgId (assignLoop msgs start fuel msgid)
      ∧ findItem msgs (assignLoop msgs start fuel msgid) = none := by
  intro fuel
  induction fuel with
  | zero => intro msgid _ h; exact absurd rfl h
  | succ fuel ih =>
      intro msgid hid h
      unfold assignLoop at h ⊢
      by_cases hused : (findItem msgs msgid).isSome
      · rw [if_pos hused] at h ⊢
        by_cases hstart : nextMsgId msgid = start
        -- back at the start: the search was in vain
        · simp only [if_pos hstart] at h
          exact absurd rfl h
        · simp only [if_neg hstart] at h ⊢
          exact ih _ (isMsgId_next hid.2) h
      · rw [if_neg hused]
        exact ⟨hid, by simpa using hused⟩

/-- The id after `k` further rounds. -/
theorem iterate_next {start : Nat} (h : start ≤ maxMsgId) (k : Nat) :
    nextMsgId^[k] (nextMsgId start) = (start + k) % 65535 + 1 := by
  induction k with
  | zero => exact nextMsgId_eq h
  | succ k ih =>
      rw [Function.iterate_succ_apply', ih, nextMsgId_eq (by unfold maxMsgId; omega)]
      omega

/-- A search in vain has found every id in use that it came to. -/
theorem assignLoop_used {msgs : List Messages} {start : Nat} : ∀ {fuel msgid : Nat},
    IsMsgId msgid → assignLoop msgs start fuel msgid = 0 → ∀ k < fuel,
    (∀ j, 1 ≤ j → j ≤ k → nextMsgId^[j] msgid ≠ start) →
    (findItem msgs (nextMsgId^[k] msgid)).isSome := by
  intro fuel
  induction fuel with
  | zero => intro msgid _ _ k hk; omega
  | succ fuel ih =>
      intro msgid hid h k hk hbefore
      unfold assignLoop at h
      by_cases hused : (findItem msgs msgid).isSome
      · rw [if_pos hused] at h
        cases k with
        -- round 0 is this id, a later one a round of the rest
        | zero => exact hused
        | succ k =>
            have hstart : ¬ nextMsgId msgid = start := hbefore 1 (by omega) (by omega)
            simp only [if_neg hstart] at h
            refine ih (isMsgId_next hid.2) h k (by omega) ?_
            intro j h1 hj
            exact hbefore (j + 1) (by omega) (by omega)
      · rw [if_neg hused] at h
        unfold IsMsgId at hid
        omega

/-- The search comes to every id but the one it started from. -/
theorem assignMsgId_zero {client : Clients} (hmsgID : client.msgID ≤ maxMsgId)
    (h : (assignMsgId client).1 = 0) {msgid : Nat} (hid : IsMsgId msgid)
    (hne : msgid ≠ client.msgID) : (findItem client.outboundMsgs msgid).isSome := by
  unfold IsMsgId maxMsgId at hid
  have hle : client.msgID ≤ 65535 := hmsgID
  -- the round in which the search comes to `msgid`
  let k := (msgid + 65534 - client.msgID) % 65535
  have hk : k = (msgid + 65534 - client.msgID) % 65535 := rfl
  have hreach : nextMsgId^[k] (nextMsgId client.msgID) = msgid := by
    rw [iterate_next hmsgID]
    omega
  rw [← hreach]
  refine assignLoop_used (isMsgId_next hmsgID) h k (by unfold maxMsgId; omega) ?_
  intro j h1 hj
  -- and before that it has not come back
  rw [iterate_next hmsgID]
  omega

/-- **An id is found** as long as fewer than 65534 messages are in flight. -/
theorem assignMsgId_pos {client : Clients} (hmsgID : client.msgID ≤ maxMsgId)
    (hcount : client.outboundMsgs.length < 65534) : (assignMsgId client).1 ≠ 0 := by
  intro h
  have hsub : (Finset.Icc 1 maxMsgId).erase client.msgID
      ⊆ (client.outboundMsgs.map Messages.msgid).toFinset := by
    intro msgid hmem
    obtain ⟨hne, hid⟩ := Finset.mem_erase.mp hmem
    obtain ⟨m, hm⟩ := Option.isSome_iff_exists.mp
      (assignMsgId_zero hmsgID h (Finset.mem_Icc.mp hid) hne)
    obtain ⟨hmsg, rfl⟩ := Keyed.lookup_some hm
    exact List.mem_toFinset.mpr (List.mem_map_of_mem hmsg)
  -- counting: 65534 ids, and at most one for each message
  have hcard := Finset.card_le_card hsub
  have hids := List.toFinset_card_le (client.outboundMsgs.map Messages.msgid)
  have hall := Finset.pred_card_le_card_erase (s := Finset.Icc 1 maxMsgId) (a := client.msgID)
  rw [Nat.card_Icc] at hall
  rw [List.length_map] at hids
  unfold maxMsgId at hcard hall
  omega

/-- **The id that is found is free** and fits in two bytes. -/
theorem assignMsgId_fresh {client : Clients} (hmsgID : client.msgID ≤ maxMsgId)
    (h : (assignMsgId client).1 ≠ 0) :
    IsMsgId (assignMsgId client).1
      ∧ (assignMsgId client).1 ∉ client.outboundMsgs.map Messages.msgid := by
  obtain ⟨hid, hnone⟩ := assignLoop_free _ _ _ _ (isMsgId_next hmsgID) h
  exact ⟨hid, Keyed.lookup_eq_none.mp hnone⟩

end MQTTProtocol

open MQTTProtocol MQTTClient

/-! ## §2. What the lists of a client keep. -/

/-- A message of `outboundMsgs`. -/
def Messages.Sent (m : Messages) : Prop :=
  IsMsgId m.msgid ∧ (m.qos = 1 ∨ m.qos = 2 ∧
    (m.nextMessageType = some .pubrec ∨ m.nextMessageType = some .pubcomp))

/-- A message of `inboundMsgs`. -/
def Messages.Received (m : Messages) : Prop := m.qos = 2 ∧ m.nextMessageType = some .pubrel

/-- **Well-formed**: in each list, one message an id. -/
structure Clients.Wf (opts : SessionOptions) (client : Clients) : Prop where
  msgID : client.msgID ≤ maxMsgId
  outbound : (client.outboundMsgs.map Messages.msgid).Nodup
  sent : ∀ m ∈ client.outboundMsgs, m.Sent
  room : client.outboundMsgs.length ≤ opts.maxInflightMessages
  inbound : (client.inboundMsgs.map Messages.msgid).Nodup
  received : ∀ m ∈ client.inboundMsgs, m.Received

namespace Clients.Wf

variable {opts : SessionOptions} {client : Clients}

/-- An end that has just been created. -/
theorem initial : Wf opts Clients.initial where
  msgID := Nat.zero_le _
  outbound := List.nodup_nil
  sent _ hm := absurd hm List.not_mem_nil
  room := Nat.zero_le _
  inbound := List.nodup_nil
  received _ hm := absurd hm List.not_mem_nil

/-- Only the lists and the last id matter. -/
theorem congr (h : client.Wf opts) {client' : Clients} (hid : client'.msgID = client.msgID)
    (hout : client'.outboundMsgs = client.outboundMsgs)
    (hin : client'.inboundMsgs = client.inboundMsgs) : client'.Wf opts := by
  obtain ⟨h1, h2, h3, h4, h5, h6⟩ := h
  rw [← hid] at h1
  rw [← hout] at h2 h3 h4
  rw [← hin] at h5 h6
  exact ⟨h1, h2, h3, h4, h5, h6⟩

/-- Only the last id changes, and only to one that was found. -/
theorem assignMsgId (h : client.Wf opts) : (assignMsgId client).2.Wf opts := by
  by_cases h0 : (MQTTProtocol.assignMsgId client).1 = 0
  · have hsame : (MQTTProtocol.assignMsgId client).2 = client := if_neg (not_not.mpr h0)
    rw [hsame]
    exact h
  · have hset : (MQTTProtocol.assignMsgId client).2
        = { client with msgID := (MQTTProtocol.assignMsgId client).1 } := if_pos h0
    rw [hset]
    exact { h with msgID := (assignMsgId_fresh h.msgID h0).1.2 }

/-- A message with a free id is sent. -/
theorem startPublish (h : client.Wf opts) {m : Messages}
    (hroom : client.outboundMsgs.length < opts.maxInflightMessages)
    (hm : m.qos > 0 → m.Sent ∧ m.msgid ∉ client.outboundMsgs.map Messages.msgid) :
    (startPublish client m).1.Wf opts := by
  unfold MQTTProtocol.startPublish
  by_cases hqos : m.qos > 0
  · simp only [if_pos hqos]
    obtain ⟨hsent, hfree⟩ := hm hqos
    refine ⟨h.msgID, Keyed.nodup_snoc h.outbound hfree, ?_, ?_, h.inbound, h.received⟩
    · intro m' hm'
      rcases List.mem_append.mp hm' with hm' | hm'
      · exact h.sent m' hm'
      · obtain rfl := List.mem_singleton.mp hm'
        exact hsent
    · show (client.outboundMsgs ++ [m]).length ≤ _
      rw [List.length_append, List.length_singleton]
      exact hroom
  · simp only [if_neg hqos]
    exact h.congr rfl rfl rfl

/-- **A publish** keeps the lists well-formed: its id was free. -/
theorem publish5 (h : client.Wf opts) {p : Publication} {qos : Nat} {retain : Bool}
    (hroom : client.outboundMsgs.length < opts.maxInflightMessages) (hqos : qos ≤ 2)
    {r : Clients × Sends} (hr : publish5 client p qos retain = some r) : r.1.Wf opts := by
  unfold MQTTProtocol.publish5 at hr
  by_cases hpos : qos > 0
  · simp only [if_pos hpos] at hr
    by_cases h0 : (MQTTProtocol.assignMsgId client).1 = 0
    · rw [if_pos h0] at hr
      cases hr
    · rw [if_neg h0] at hr
      injection hr with hr
      subst hr
      have hlists : (MQTTProtocol.assignMsgId client).2.outboundMsgs = client.outboundMsgs := by
        unfold MQTTProtocol.assignMsgId
        dsimp only
        split <;> rfl
      obtain ⟨hid, hfree⟩ := assignMsgId_fresh h.msgID h0
      -- the id that was found is free in the same lists
      refine h.assignMsgId.startPublish (by rw [hlists]; exact hroom) fun _ => ?_
      rw [hlists]
      refine ⟨⟨hid, ?_⟩, hfree⟩
      obtain rfl | rfl : qos = 1 ∨ qos = 2 := by omega
      · exact .inl rfl
      · exact .inr ⟨rfl, .inl rfl⟩
  · rw [if_neg hpos] at hr
    injection hr with hr
    subst hr
    exact h.startPublish hroom fun hq => absurd hq hpos

/-- One message less. -/
theorem remove (h : client.Wf opts) (msgid : Nat) :
    Wf opts { client with outboundMsgs := removeItem client.outboundMsgs msgid } where
  msgID := h.msgID
  outbound := h.outbound.sublist (Keyed.map_remove_sublist _ _)
  sent m hm := h.sent m (Keyed.mem_remove hm)
  room := (List.eraseP_sublist.length_le).trans h.room
  inbound := h.inbound
  received := h.received

/-- An acknowledgement touches no list of messages. -/
theorem sendAck (h : client.Wf opts) (type : MsgType) (msgid : Nat) :
    (sendAck client type msgid).1.Wf opts := by
  unfold MQTTProtocol.sendAck
  split
  · exact h
  · exact h.congr rfl rfl rfl

theorem processPublication (h : client.Wf opts) (publish : Publish) :
    (processPublication client publish).Wf opts :=
  h.congr rfl rfl rfl

/-- A message of QoS 2 takes the place of one with its id. -/
theorem handlePublishes (h : client.Wf opts) (publish : Publish) :
    (handlePublishes client publish).1.Wf opts := by
  unfold MQTTProtocol.handlePublishes
  split
  · exact h.congr rfl rfl rfl
  · split
    · exact (h.processPublication publish).sendAck _ _
    · split
      · refine sendAck ?_ _ _
        -- QoS 2: stored, in the place of a message with the same id
        refine { h with inbound := Keyed.nodup_store h.inbound _, received := ?_ }
        intro m hm
        rcases Keyed.mem_store hm with hm | rfl
        · exact h.received m hm
        · exact ⟨rfl, rfl⟩
      · exact h

/-- The final acknowledgements take a message out, or nothing. -/
theorem handlePubacks (h : client.Wf opts) (msgId : Nat) : (handlePubacks client msgId).Wf opts := by
  unfold MQTTProtocol.handlePubacks
  split
  · exact h
  · split
    · exact h
    · exact h.remove msgId

theorem handlePubcomps (h : client.Wf opts) (msgId : Nat) :
    (handlePubcomps client msgId).Wf opts := by
  unfold MQTTProtocol.handlePubcomps
  split
  · exact h
  · split
    · exact h
    · split
      · exact h
      · exact h.remove msgId

/-- A QoS 2 message now waits for a `PUBCOMP`. -/
theorem setNext (h : client.Wf opts) {msgid : Nat} {m : Messages}
    (hm : findItem client.outboundMsgs msgid = some m) (hqos : m.qos = 2) :
    Wf opts { client with outboundMsgs := setNext client.outboundMsgs msgid .pubcomp } := by
  have hmap : (MQTTProtocol.setNext client.outboundMsgs msgid .pubcomp).map Messages.msgid
      = client.outboundMsgs.map Messages.msgid := Keyed.map_modify (fun m => by rfl) _ _
  refine { h with outbound := ?_, sent := ?_, room := ?_ }
  · show (List.map _ _).Nodup
    rw [hmap]
    exact h.outbound
  · intro m' hm'
    rcases Keyed.mem_modify hm' with hm' | ⟨b, hb, rfl⟩
    · exact h.sent m' hm'
    · obtain rfl : m = b := Option.some.inj (hm.symm.trans hb)
      exact ⟨(h.sent m (Keyed.lookup_some hm).1).1, .inr ⟨hqos, .inr rfl⟩⟩
  · have hlen := congrArg List.length hmap
    rw [List.length_map, List.length_map] at hlen
    show List.length _ ≤ _
    rw [hlen]
    exact h.room

theorem handlePubrecs (h : client.Wf opts) (msgId : Nat) :
    (handlePubrecs client msgId).1.Wf opts := by
  unfold MQTTProtocol.handlePubrecs
  refine sendAck ?_ _ _
  split
  · exact h
  next m hm =>
    split
    · exact h
    next hqos =>
      split
      · exact h
      · exact h.setNext hm (not_not.mp hqos)

/-- A `PUBREL` takes a message out of the inbound list. -/
theorem handlePubrels (h : client.Wf opts) (msgId : Nat) :
    (handlePubrels client msgId).1.Wf opts := by
  unfold MQTTProtocol.handlePubrels
  refine sendAck ?_ _ _
  split
  · exact h
  · split
    · exact h
    · split
      · exact h
      · refine { h with inbound := ?_, received := ?_ }
        · exact h.inbound.sublist (Keyed.map_remove_sublist _ _)
        · intro m hm
          exact h.received m (Keyed.mem_remove hm)

/-- **A packet that is read** keeps the lists well-formed, whatever it is. -/
theorem cycle (h : client.Wf opts) (pack : Packet) : (cycle client pack).1.Wf opts := by
  unfold MQTTClient.cycle
  split
  · exact h.handlePublishes _
  · split
    · exact (h.handlePubacks _).congr rfl rfl rfl
    · exact (h.handlePubcomps _).congr rfl rfl rfl
    · exact h.handlePubrecs _
    · exact h.handlePubrels _
    · exact h
  · exact h

theorem retries (h : client.Wf opts) (retryInterval : Int) (regardless : Bool) (due : Nat → Bool)
    (n : Nat) : (retries retryInterval client regardless due n).1.Wf opts := by
  unfold MQTTProtocol.retries
  split
  · exact h
  · exact h.congr rfl rfl rfl

/-- A new connection changes no list. -/
theorem resume (h : client.Wf opts) (n : Nat) : (Session.resume opts client n).1.Wf opts := by
  unfold Session.resume
  dsimp only
  split
  · refine retries ?_ _ _ _ _
    exact h.congr rfl rfl rfl
  · exact h.congr rfl rfl rfl

end Clients.Wf

/-! ## §3. In every reachable state. -/

variable {opts : End → SessionOptions}

namespace Session

/-- A property of each end, where one end has changed. -/
theorem forall_put {P : End → Clients → Prop} {s : Session} {e : End} {r : Clients × Sends}
    (h : ∀ e, P e (s.ends e)) (hr : P e r.1) (e' : End) : P e' ((s.put e r).ends e') := by
  show P e' (update s.ends e r.1 e')
  by_cases he : e' = e
  · subst he
    rw [update_self]
    exact hr
  · rw [update_of_ne he]
    exact h e'

/-- Every step keeps both ends well-formed. -/
theorem wf_step {s s' : Session} {a : Action} (h : ∀ e, (s.ends e).Wf (opts e))
    (hstep : step opts s a = some s') : ∀ e, (s'.ends e).Wf (opts e) := by
  cases takes_of_step hstep with
  | publish e p qos retain r _ hroom _ hqos hr =>
      exact forall_put h ((h e).publish5 hroom hqos hr)
  | takeId e => exact forall_put h (h e).assignMsgId
  | cycle e pack rest =>
      exact forall_put (s := { s with wire := update s.wire e rest }) h ((h e).cycle pack)
  | messageArrived e => exact forall_put h ((h e).congr rfl rfl rfl)
  | retry e due n => exact forall_put h ((h e).retries _ _ _ _)
  | pending e => exact forall_put h ((h e).congr rfl rfl rfl)
  | writeAvailable e n again => exact forall_put h ((h e).congr rfl rfl rfl)
  | lose => exact h
  | connect n => exact fun e => (h e).resume (n e)

/-- **Both ends are well-formed in every reachable state.** -/
theorem reachable_wf {s : Session} (h : (session opts).Reachable s) (e : End) :
    (s.ends e).Wf (opts e) := by
  refine h.induct (P := fun s => ∀ e, (s.ends e).Wf (opts e)) (fun _ => Clients.Wf.initial) ?_ e
  intro s a s' _ hwf hstep
  exact wf_step hwf hstep

/-- **THE IDS IN FLIGHT** are different from each other, between 1 and 65535,
and no more than `maxInflightMessages`; where these are fewer than 65535, a
publish that has room never lacks an id. -/
theorem ids_in_flight {s : Session} (h : (session opts).Reachable s) (e : End) :
    ((s.ends e).outboundMsgs.map Messages.msgid).Nodup
      ∧ (∀ m ∈ (s.ends e).outboundMsgs, 1 ≤ m.msgid ∧ m.msgid ≤ 65535)
      ∧ (s.ends e).outboundMsgs.length ≤ (opts e).maxInflightMessages
      ∧ ((opts e).maxInflightMessages < 65535 →
          (s.ends e).outboundMsgs.length < (opts e).maxInflightMessages →
          ∀ p qos retain, publish5 (s.ends e) p qos retain ≠ none) := by
  have hwf := reachable_wf h e
  refine ⟨hwf.outbound, fun m hm => (hwf.sent m hm).1, hwf.room, ?_⟩
  intro hmax hroom p qos retain
  unfold publish5
  by_cases hqos : qos > 0
  · simp only [if_pos hqos, if_neg (assignMsgId_pos hwf.msgID (by omega))]
    exact Option.some_ne_none _
  · rw [if_neg hqos]
    exact Option.some_ne_none _

/-- Two messages are in flight when the id of the first is free again. -/
theorem ids_in_flight_two :
    ∃ s, (session fun _ => ⟨2, 0⟩).Reachable s
      ∧ (s.ends .near).outboundMsgs.map Messages.msgid = [2, 3]
      ∧ ((s.ends .near).outboundMsgs.map Messages.msgid).Nodup := by
  have hrun : (session fun _ => ⟨2, 0⟩).Reachable _ := leads_of_run
    [.publish .near ⟨[], []⟩ 1 false, .publish .near ⟨[], []⟩ 2 false, .cycle .far, .cycle .near,
      .publish .near ⟨[], []⟩ 1 true] rfl
  exact ⟨_, hrun, rfl, (ids_in_flight hrun .near).1⟩

end Session

end MqttBenchmark.Paho
