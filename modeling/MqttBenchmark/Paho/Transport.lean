/-
  MqttBenchmark.Paho.Transport
  ────────────────────────────
  **THE SESSION OVER BYTES.**

  What an end sends is written to the connection as bytes.  They reach the
  other end in pieces of any length, and a packet is read once all of its
  bytes are there: `MQTTClient_cycle` calls `MQTTPacket_Factory` on what the
  socket has received, and what is not a whole packet it keeps.

    • `Transport.step` — two ends over such a connection,
    • `Carries` — the bytes of a session,
    • `carries_run` — every run over bytes is a run of the session,
    • `carries_read` — no read fails.
-/
import MqttBenchmark.Paho.Framing
import MqttBenchmark.Paho.InOrder

namespace MqttBenchmark.Paho

open Lib Lib.System MQTTProtocol MQTTClient MQTTPacket Function

/-! ## §1. Two ends and the bytes between them. -/

/-- What is put on the socket for a packet that is sent. -/
def written : Packet → Bytes
  | .publish p => sendPublish p p.header.dup p.header.qos.toNat p.header.retain
  | .ack a => ((MsgType.ofCode a.header.type).map fun t =>
      MQTTPacket.sendAck t a.msgId a.header.dup).getD []
  | _ => []

/-- Two ends and the bytes of the connection between them. -/
structure Transport where
  ends : End → Clients
  /-- Written by the peer and not yet received. -/
  network : End → Bytes
  /-- Received and not yet read. -/
  received : End → Bytes
  connected : Bool

namespace Transport

/-- Connected, and nothing written. -/
def initial : Transport := ⟨fun _ => Clients.initial, fun _ => [], fun _ => [], true⟩

inductive Action where
  /-- Whatever an end does but read. -/
  | act (a : Session.Action)
  /-- The next `n` bytes reach an end. -/
  | receive (e : End) (n : Nat)
  /-- An end reads the next packet, if it is there. -/
  | cycle (e : End)

/-- The ends, with nothing between them. -/
def bare (t : Transport) : Session := ⟨t.ends, fun _ => [], t.connected⟩

/-- What was sent is written.  With the connection the bytes on it are lost. -/
def carry (t : Transport) (s : Session) : Transport where
  ends := s.ends
  network e := if s.connected then t.network e ++ (s.wire e).flatMap written else []
  received e := if s.connected then t.received e else []
  connected := s.connected

/-- A read that fails closes the connection; a packet of a type that is skipped
changes nothing. -/
def read (t : Transport) (e : End) : Outcome ReadError (Option Packet) → Transport
  | .interrupted => t
  | .error _ => t.carry { t.bare with connected := false }
  | .complete none rest => { t with received := update t.received e rest }
  | .complete (some pack) rest =>
      { t with received := update t.received e rest }.carry
        (t.bare.put e (MQTTClient.cycle (t.ends e) pack))

/-- A step over bytes.  An end acts as in a session with nothing on the way, and
what it sends is written. -/
def step (opts : End → SessionOptions) (t : Transport) : Action → Option Transport
  | .act a => (Session.step opts t.bare a).map t.carry
  | .receive e n =>
      some { t with
        network := update t.network e ((t.network e).drop n)
        received := update t.received e (t.received e ++ (t.network e).take n) }
  | .cycle e => if t.connected then some (t.read e (factory (t.received e))) else none

end Transport

/-- **The session over bytes.** -/
def transport (opts : End → SessionOptions) : System Transport Transport.Action :=
  ⟨Transport.initial, Transport.step opts⟩

/-! ## §2. What can be written. -/

/-- It is read back as the packet it is. -/
def Packet.Fits (pack : Packet) : Prop :=
  ∃ p : Sent, p.Fits ∧ p.packet = pack ∧ p.bytes = written pack

/-- Whatever is behind it stays unread. -/
theorem Packet.Fits.read {pack : Packet} (h : pack.Fits) (rest : Bytes) :
    factory (written pack ++ rest) = .complete (some pack) rest := by
  obtain ⟨p, hp, rfl, hbytes⟩ := h
  rw [← hbytes]
  exact factory_sent hp rest

/-- Within the limits of the format: `writeUTF` has two bytes for the length of
the topic. -/
structure Publication.Fits (p : Publication) : Prop where
  topic_nulFree : 0 ∉ p.topic
  topic_length : p.topic.length < 2 ^ 16
  total : p.topic.length + p.payload.length + 4 < 2 ^ 28

/-- Every acknowledgement of an id of two bytes can be written. -/
theorem fits_ackPacket {type : MsgType} {msgid : Nat}
    (htype : type = .puback ∨ type = .pubrec ∨ type = .pubrel ∨ type = .pubcomp)
    (hid : msgid < 2 ^ 16) : (ackPacket type msgid).Fits := by
  refine ⟨.ack type msgid false, ⟨htype, hid⟩, rfl, ?_⟩
  unfold written ackPacket
  dsimp only
  rw [MsgType.ofCode_code]
  rfl

/-- So can a message within the limits; with QoS 0 it has no id to lose. -/
theorem fits_publishPacket {m : Messages} (hqos : m.qos ≤ 2) (hid : m.msgid < 2 ^ 16)
    (hzero : m.qos = 0 → m.msgid = 0) (hfits : m.publish.Fits) (dup : Bool) :
    (publishPacket m dup).Fits := by
  have hbits : (BitVec.ofNat 2 m.qos).toNat = m.qos := by
    rw [BitVec.toNat_ofNat]
    omega
  refine ⟨.publish _, ⟨⟨hfits.topic_nulFree, hfits.topic_length, ?_, fun _ => hid, ?_⟩, rfl, ?_⟩,
    rfl, rfl⟩
  · rw [hbits]
    omega
  · have htotal := hfits.total
    have htopic : (m.publish.topic.takeWhile (· ≠ 0)).length ≤ m.publish.topic.length :=
      (List.takeWhile_sublist _).length_le
    rw [publishData_length]
    dsimp only
    split
    · omega
    · omega
  · intro h
    refine hzero ?_
    rw [← hbits]
    exact congrArg BitVec.toNat h

/-- An end whose messages and acknowledgements can all be written. -/
structure Clients.Fits (client : Clients) : Prop where
  sent : ∀ m ∈ client.outboundMsgs, m.publish.Fits
  queued : ∀ pack ∈ client.queued, pack.Fits

/-- So can what a function sends. -/
structure Writes (r : Clients × Sends) : Prop where
  client : r.1.Fits
  sends : ∀ pack ∈ r.2, pack.Fits

/-- An end without messages. -/
theorem clients_initial_fits : Clients.initial.Fits :=
  ⟨fun _ h => absurd h List.not_mem_nil, fun _ h => absurd h List.not_mem_nil⟩

section

variable {opts : SessionOptions} {client client' : Clients}

/-- Only messages that were there, and the same acknowledgements. -/
theorem Clients.Fits.congr (h : client.Fits)
    (hout : ∀ m ∈ client'.outboundMsgs, ∃ m' ∈ client.outboundMsgs, m.publish = m'.publish)
    (hqueue : client'.outboundQueue = client.outboundQueue) : client'.Fits := by
  constructor
  · intro m hm
    obtain ⟨m', hm', heq⟩ := hout m hm
    rw [heq]
    exact h.sent m' hm'
  · unfold Clients.queued
    rw [hqueue]
    exact h.queued

theorem Clients.Fits.same (h : client.Fits) (hout : client'.outboundMsgs = client.outboundMsgs)
    (hqueue : client'.outboundQueue = client.outboundQueue) : client'.Fits :=
  h.congr (fun m hm => ⟨m, hout ▸ hm, rfl⟩) hqueue

/-- Nothing is sent. -/
theorem writes_nil (h : client.Fits) : Writes (client, []) :=
  ⟨h, fun _ hm => absurd hm List.not_mem_nil⟩

/-- An acknowledgement is sent, or queued. -/
theorem writes_sendAck (h : client.Fits) {type : MsgType} {msgid : Nat}
    (hack : (ackPacket type msgid).Fits) : Writes (MQTTProtocol.sendAck client type msgid) := by
  unfold MQTTProtocol.sendAck
  split
  · refine ⟨h, fun pack hp => ?_⟩
    rw [List.mem_singleton.mp hp]
    exact hack
  · refine writes_nil ⟨h.sent, fun pack hp => ?_⟩
    unfold Clients.queued at hp
    rw [List.map_append] at hp
    rcases List.mem_append.mp hp with hp | hp
    · exact h.queued pack hp
    · rw [List.mem_singleton.mp hp]
      exact hack

/-- **What a publish sends** can be written. -/
theorem writes_publish5 (hwf : client.Wf opts) (h : client.Fits) {p : Publication} {qos : Nat}
    {retain : Bool} (hqos : qos ≤ 2) (hfits : p.Fits) {r : Clients × Sends}
    (hr : publish5 client p qos retain = some r) : Writes r := by
  obtain ⟨msgID, msgid, rfl, hid, hzero⟩ := publish5_start hr
  have hlt : msgid < 2 ^ 16 := by
    by_cases hpos : qos > 0
    · obtain ⟨h0, rfl⟩ := hid hpos
      have hrange := (assignMsgId_fresh hwf.msgID h0).1.2
      unfold maxMsgId at hrange
      omega
    · rw [hzero (by omega)]
      -- with QoS 0 the id is 0
      omega
  obtain ⟨hsends, hqueue, -⟩ :=
    startPublish_frame { client with msgID := msgID } (createMessage msgid qos retain p)
  refine ⟨⟨?_, ?_⟩, ?_⟩
  · unfold startPublish
    dsimp only
    split
    · intro m hm
      rcases List.mem_append.mp hm with hm | hm
      · exact h.sent m hm
      · rw [List.mem_singleton.mp hm]
        exact hfits
    · exact h.sent
  · unfold Clients.queued
    rw [hqueue]
    exact h.queued
  · intro pack hp
    rw [hsends] at hp
    rw [List.mem_singleton.mp hp]
    exact fits_publishPacket hqos hlt hzero hfits false

/-- The id of a `PUBLISH` or of an acknowledgement that is read has two bytes. -/
theorem Packet.Fits.publish_id {p : Publish} (h : (Packet.publish p).Fits)
    (hqos : p.header.qos ≠ 0) : p.msgId < 2 ^ 16 := by
  obtain ⟨s, hs, hpacket, -⟩ := h
  cases s with
  | publish pack =>
      cases hpacket
      refine hs.1.msgId_lt ?_
      have hpos : p.header.qos.toNat ≠ 0 := fun h0 => hqos (BitVec.eq_of_toNat_eq h0)
      omega
  | ack => cases hpacket
  | pingreq => cases hpacket

theorem Packet.Fits.ack_id {ack : Ack} (h : (Packet.ack ack).Fits) : ack.msgId < 2 ^ 16 := by
  obtain ⟨s, hs, hpacket, -⟩ := h
  cases s with
  | publish => cases hpacket
  | ack =>
      cases hpacket
      exact hs.2
  | pingreq => cases hpacket

/-- **What a packet that is read makes an end send** can be written: its id has
two bytes, and so has the id of the reply. -/
theorem writes_cycle (h : client.Fits) {pack : Packet} (hpack : pack.Fits) :
    Writes (cycle client pack) := by
  unfold cycle
  cases pack with
  | publish p =>
      dsimp only
      unfold handlePublishes
      split
      · exact writes_nil (h.same rfl rfl)
      next h0 =>
        have hid := hpack.publish_id h0
        split
        · refine writes_sendAck ?_ (fits_ackPacket (.inl rfl) hid)
          exact h.same rfl rfl
        · split
          · refine writes_sendAck ?_ (fits_ackPacket (.inr (.inl rfl)) hid)
            exact h.same rfl rfl
          · exact writes_nil h
  | ack ack =>
      have hid := hpack.ack_id
      dsimp only
      split
      · refine writes_nil ?_
        unfold handlePubacks
        split
        · exact h.same rfl rfl
        · split
          · exact h.same rfl rfl
          · exact h.congr (fun m hm => ⟨m, Keyed.mem_remove hm, rfl⟩) rfl
      · refine writes_nil ?_
        unfold handlePubcomps
        split
        · exact h.same rfl rfl
        · split
          · exact h.same rfl rfl
          · split
            · exact h.same rfl rfl
            · exact h.congr (fun m hm => ⟨m, Keyed.mem_remove hm, rfl⟩) rfl
      · unfold handlePubrecs
        refine writes_sendAck ?_ (fits_ackPacket (.inr (.inr (.inl rfl))) hid)
        split
        · exact h
        next m hm =>
          split
          · exact h
          · split
            · exact h
            · refine h.congr (fun m' hm' => ?_) rfl
              rcases Keyed.mem_modify hm' with hm' | ⟨m'', hm'', rfl⟩
              · exact ⟨m', hm', rfl⟩
              · exact ⟨m'', (Keyed.lookup_some hm'').1, rfl⟩
      · unfold handlePubrels
        refine writes_sendAck ?_ (fits_ackPacket (.inr (.inr (.inr rfl))) hid)
        split
        · exact h
        · split
          · exact h
          · split
            · exact h
            · exact h.same rfl rfl
      · exact writes_nil h
  | _ => exact writes_nil h

/-- What is sent again could be sent. -/
theorem fits_resend {m : Messages} (hm : m.Sent) (hfits : m.publish.Fits) {pack : Packet}
    (h : resend m = some pack) : pack.Fits := by
  have hid : m.msgid < 2 ^ 16 := by
    have hrange := hm.1.2
    unfold maxMsgId at hrange
    omega
  have hqos : 1 ≤ m.qos ∧ m.qos ≤ 2 := by
    rcases hm.2 with h | ⟨h, -⟩
    · omega
    · omega
  unfold resend at h
  split at h
  · cases h
    exact fits_publishPacket hqos.2 hid (by omega) hfits true
  · split at h
    · cases h
      exact fits_ackPacket (.inr (.inr (.inl rfl))) hid
    · cases h

/-- Some of the outbound messages are sent again. -/
theorem writes_resend (hwf : client.Wf opts) (h : client.Fits) {msgs : List Messages}
    (hsub : msgs.Sublist client.outboundMsgs) (hout : client'.outboundMsgs = client.outboundMsgs)
    (hqueue : client'.outboundQueue = client.outboundQueue) :
    Writes (client', msgs.filterMap resend) := by
  refine ⟨h.same hout hqueue, fun pack hp => ?_⟩
  obtain ⟨m, hm, hresend⟩ := List.mem_filterMap.mp hp
  have hmem := hsub.subset hm
  exact fits_resend (hwf.sent m hmem) (h.sent m hmem) hresend

/-- Sending again keeps the messages. -/
theorem retries_outboundMsgs (client : Clients) (retryInterval : Int) (regardless : Bool)
    (due : Nat → Bool) (n : Nat) :
    (retries retryInterval client regardless due n).1.outboundMsgs = client.outboundMsgs := by
  unfold retries
  split
  · rfl
  · rfl

/-- **What `MQTTProtocol_retries` sends** can be written. -/
theorem writes_retries (hwf : client.Wf opts) (h : client.Fits) (retryInterval : Int)
    (regardless : Bool) (due : Nat → Bool) (n : Nat) :
    Writes (retries retryInterval client regardless due n) := by
  have hout := retries_outboundMsgs client retryInterval regardless due n
  obtain ⟨client', msgs, hframe, hsub, hqueue, -⟩ :=
    retries_frame client retryInterval regardless due n
  rw [hframe] at hout ⊢
  exact writes_resend hwf h hsub hout hqueue

/-- **What a new connection sends** can be written. -/
theorem writes_resume (hwf : client.Wf opts) (h : client.Fits) (n : Nat) :
    Writes (Session.resume opts client n) := by
  unfold Session.resume
  dsimp only
  split
  · have hwf' : Clients.Wf opts { client with noPendingWrites := true } := hwf.congr rfl rfl rfl
    exact writes_retries hwf' (h.same rfl rfl) _ _ _ _
  · exact writes_nil (h.same rfl rfl)

/-- Queued acknowledgements are written, or dropped. -/
theorem writes_writeAvailable (h : client.Fits) (n : Nat) :
    Writes (MQTTProtocol.writeAvailable client n) := by
  refine ⟨⟨h.sent, fun _ hp => absurd hp List.not_mem_nil⟩, fun pack hp => h.queued pack ?_⟩
  exact (List.take_sublist _ _).map _ |>.subset hp

end

/-! ## §3. Sessions whose packets can be written. -/

namespace Session

variable {opts : End → SessionOptions}

/-- Nothing but what can be written is on the way. -/
structure Writable (opts : End → SessionOptions) (s : Session) : Prop where
  wf (e : End) : (s.ends e).Wf (opts e)
  fits (e : End) : (s.ends e).Fits
  wire (e : End) : ∀ pack ∈ s.wire e, pack.Fits
  closed : s.connected = false → ∀ e, s.wire e = []

/-- What is published can be written. -/
def Fitting : Action → Prop
  | .publish _ p _ _ => p.Fits
  | _ => True

theorem writable_initial : Writable opts initial where
  wf _ := .initial
  fits _ := clients_initial_fits
  wire _ _ h := absurd h List.not_mem_nil
  closed h := Bool.noConfusion h

/-- An end acts. -/
theorem writable_put {s : Session} (h : Writable opts s) {e : End} {r : Clients × Sends}
    (hwf : ∀ e', ((s.put e r).ends e').Wf (opts e')) (hr : Writes r)
    (hsends : s.connected = false → r.2 = []) : Writable opts (s.put e r) := by
  refine ⟨hwf, forall_put (P := fun _ => Clients.Fits) h.fits hr.client, ?_, ?_⟩
  · intro e' pack hp
    by_cases he : e' = e.peer
    · subst he
      have hwire : (s.put e r).wire e.peer = s.wire e.peer ++ r.2 := update_self ..
      rw [hwire] at hp
      rcases List.mem_append.mp hp with hp | hp
      · exact h.wire _ pack hp
      · exact hr.sends pack hp
    · have hwire : (s.put e r).wire e' = s.wire e' := update_of_ne he ..
      rw [hwire] at hp
      exact h.wire _ pack hp
  · intro hclosed e'
    have hnone := h.closed hclosed
    show update s.wire e.peer (s.wire e.peer ++ r.2) e' = []
    rw [hnone, hsends hclosed]
    by_cases he : e' = e.peer
    · rw [he, update_self]
      rfl
    · rw [update_of_ne he, hnone]

/-- Nothing is on a connection that is closed. -/
theorem absurd_closed {s : Session} {P : Prop} (hconnected : s.connected = true) :
    s.connected = false → P := by
  intro hclosed
  rw [hclosed] at hconnected
  cases hconnected

/-- **Only what can be written is ever on the way**, if only that is published. -/
theorem writable_step {s s' : Session} {a : Action} (h : Writable opts s) (hfit : Fitting a)
    (hstep : step opts s a = some s') : Writable opts s' := by
  have hwf := wf_step h.wf hstep
  cases takes_of_step hstep with
  | publish e p qos retain r hconnected _ _ hqos hr =>
      exact writable_put h hwf (writes_publish5 (h.wf e) (h.fits e) hqos hfit hr)
        (absurd_closed hconnected)
  | takeId e =>
      obtain ⟨msgID, hframe⟩ := assignMsgId_frame (s.ends e)
      rw [hframe] at hwf ⊢
      exact writable_put h hwf (writes_nil ((h.fits e).same rfl rfl)) fun _ => rfl
  | cycle e pack rest hwire =>
      have hpack := h.wire e
      rw [hwire] at hpack
      have hopen : s.connected = false → False := by
        intro hclosed
        have hnone := h.closed hclosed e
        rw [hwire] at hnone
        cases hnone
      refine writable_put (s := { s with wire := update s.wire e rest }) ?_ hwf
        (writes_cycle (h.fits e) (hpack pack List.mem_cons_self)) fun hclosed => (hopen hclosed).elim
      refine ⟨h.wf, h.fits, ?_, fun hclosed => (hopen hclosed).elim⟩
      intro e' p hp
      by_cases he : e' = e
      · subst he
        have hrest : update s.wire e' rest e' = rest := update_self ..
        exact hpack p (List.mem_cons_of_mem _ (hrest ▸ hp))
      · have hsame : update s.wire e rest e' = s.wire e' := update_of_ne he ..
        exact h.wire e' p (hsame ▸ hp)
  | messageArrived e =>
      exact writable_put h hwf (writes_nil ((h.fits e).same rfl rfl)) fun _ => rfl
  | retry e due n _ hconnected =>
      exact writable_put h hwf (writes_retries (h.wf e) (h.fits e) _ _ _ _) (absurd_closed hconnected)
  | pending e hconnected =>
      exact writable_put h hwf (writes_nil ((h.fits e).same rfl rfl)) (absurd_closed hconnected)
  | writeAvailable e n again hconnected =>
      refine writable_put h hwf (writes_writeAvailable ?_ n) (absurd_closed hconnected)
      exact (h.fits e).same rfl rfl
  | lose => exact ⟨hwf, h.fits, fun _ _ hp => absurd hp List.not_mem_nil, fun _ _ => rfl⟩
  | connect n hlost =>
      have hwrites : ∀ e, Writes (resume (opts e) (s.ends e) (n e)) := fun e =>
        writes_resume (h.wf e) (h.fits e) (n e)
      exact ⟨hwf, fun e => (hwrites e).client, fun e => (hwrites e.peer).sends, fun hclosed =>
        Bool.noConfusion hclosed⟩

/-! ## §4. What a step sends does not depend on what is on the way. -/

/-- A function of one end has returned. -/
theorem put_bare {s : Session} {e : End} {r : Clients × Sends}
    (hclosed : s.connected = false → r.2 = [] ∧ ∀ e, s.wire e = []) (e' : End) :
    (s.put e r).wire e' = if s.connected then
      s.wire e' ++ ({ s with wire := fun _ => [] }.put e r).wire e' else [] := by
  show update s.wire e.peer (s.wire e.peer ++ r.2) e'
    = if s.connected then s.wire e' ++ update (fun _ => []) e.peer ([] ++ r.2) e' else []
  by_cases hconnected : s.connected = true
  · rw [if_pos hconnected]
    by_cases he : e' = e.peer
    · subst he
      rw [update_self, update_self]
      rfl
    · rw [update_of_ne he, update_of_ne he, List.append_nil]
  · obtain ⟨hnone, hwire⟩ := hclosed (Bool.not_eq_true _ ▸ hconnected)
    rw [if_neg hconnected, hnone, hwire]
    by_cases he : e' = e.peer
    · rw [he, update_self]
      rfl
    · rw [update_of_ne he, hwire]

/-- **A step with nothing on the way** is a step with anything. -/
theorem step_bare {s s₀ : Session} {a : Action} (hclosed : s.connected = false → ∀ e, s.wire e = [])
    (h : step opts { s with wire := fun _ => [] } a = some s₀) :
    ∃ s', step opts s a = some s' ∧ s'.ends = s₀.ends ∧ s'.connected = s₀.connected
      ∧ ∀ e, s'.wire e = if s₀.connected then s.wire e ++ s₀.wire e else [] := by
  have hput : ∀ {e : End} {r : Clients × Sends}, (s.connected = false → r.2 = []) →
      ∀ e', (s.put e r).wire e' = if s.connected then
        s.wire e' ++ ({ s with wire := fun _ => [] }.put e r).wire e' else [] := fun hnone =>
    put_bare fun hc => ⟨hnone hc, hclosed hc⟩
  cases a with
  | publish e p qos retain =>
      simp only [step] at h ⊢
      split at h
      next hcond =>
        obtain ⟨r, hr, rfl⟩ := Option.map_eq_some_iff.mp h
        refine ⟨s.put e r, ?_, rfl, rfl, hput (absurd_closed hcond.1)⟩
        rw [if_pos hcond, hr]
        rfl
      · cases h
  | takeId e =>
      simp only [step] at h ⊢
      split at h
      next hcond =>
        cases h
        exact ⟨_, if_pos hcond, rfl, rfl, hput fun _ => rfl⟩
      · cases h
  | cycle e => cases h
  | messageArrived e =>
      simp only [step] at h ⊢
      split at h
      · cases h
      next qe rest hqueue =>
        cases h
        exact ⟨s.put e ({ s.ends e with messageQueue := rest }, []), rfl, rfl, rfl, hput fun _ => rfl⟩
  | retry e due n =>
      simp only [step] at h ⊢
      split at h
      next hcond =>
        cases h
        exact ⟨_, if_pos hcond, rfl, rfl, hput (absurd_closed hcond.1)⟩
      · cases h
  | pending e =>
      simp only [step] at h ⊢
      split at h
      next hcond =>
        cases h
        exact ⟨_, if_pos hcond, rfl, rfl, hput fun _ => rfl⟩
      · cases h
  | writeAvailable e n again =>
      simp only [step] at h ⊢
      split at h
      next hcond =>
        cases h
        exact ⟨_, if_pos hcond, rfl, rfl, hput (absurd_closed hcond.1)⟩
      · cases h
  | lose =>
      simp only [step] at h ⊢
      split at h
      next hcond =>
        cases h
        exact ⟨_, if_pos hcond, rfl, rfl, fun _ => rfl⟩
      · cases h
  | connect n =>
      simp only [step] at h ⊢
      split at h
      · cases h
      next hlost =>
        cases h
        refine ⟨_, if_neg hlost, rfl, rfl, fun e => ?_⟩
        rw [if_pos rfl, hclosed (by simpa using hlost)]
        rfl

end Session

namespace Transport

variable {opts : End → SessionOptions}

/-! ## §5. Conditions on what the ends do. -/

/-- A condition on what the ends do, whatever is on the way. -/
def OnEnds (P : Session → Session.Action → Prop) : Prop :=
  ∀ s s' a, s.ends = s'.ends → P s a → P s' a

/-- The state and the action of a step, as the session sees them. -/
def Under (P : Session → Session.Action → Prop) (t : Transport) : Action → Prop
  | .act a => P t.bare a ∧ Session.Fitting a
  | .receive _ _ => True
  | .cycle e => P t.bare (.cycle e)

/-- The conditions of the session are of this kind. -/
theorem onEnds_flushed : OnEnds Session.Flushed := by
  intro s s' a hends h
  cases a with
  | connect n =>
      intro e
      rw [← hends]
      exact h e
  | _ => trivial

theorem onEnds_kept : OnEnds Session.Kept := by
  intro s s' a hends h
  cases a with
  | writeAvailable e n again =>
      show (s'.ends e).outboundQueue.length ≤ n
      rw [← hends]
      exact h
  | lose => exact h
  | connect n => exact h
  | _ => trivial

theorem onEnds_unrepeated : OnEnds (Session.Unrepeated opts) := by
  intro s s' a hends h
  cases a with
  | retry e due n =>
      show (retries (opts e).retryInterval (s'.ends e) false due n).2 = []
      rw [← hends]
      exact h
  | _ => trivial

theorem onEnds_and {P P' : Session → Session.Action → Prop} (hP : OnEnds P) (hP' : OnEnds P') :
    OnEnds fun s a => P s a ∧ P' s a :=
  fun s s' a hends h => ⟨hP s s' a hends h.1, hP' s s' a hends h.2⟩

instance (p : Publication) : Decidable p.Fits :=
  decidable_of_iff (0 ∉ p.topic ∧ p.topic.length < 2 ^ 16
    ∧ p.topic.length + p.payload.length + 4 < 2 ^ 28)
    ⟨fun h => ⟨h.1, h.2.1, h.2.2⟩, fun h => ⟨h.topic_nulFree, h.topic_length, h.total⟩⟩

instance : ∀ a, Decidable (Session.Fitting a)
  | .publish _ p _ _ => inferInstanceAs (Decidable p.Fits)
  | .takeId _ | .cycle _ | .messageArrived _ | .retry .. | .pending _ | .writeAvailable .. | .lose
  | .connect _ => isTrue trivial

instance (P : Session → Session.Action → Prop) [∀ s a, Decidable (P s a)] (t : Transport) :
    ∀ a, Decidable (Under P t a)
  | .act a => inferInstanceAs (Decidable (P t.bare a ∧ Session.Fitting a))
  | .receive _ _ => isTrue trivial
  | .cycle e => inferInstanceAs (Decidable (P t.bare (.cycle e)))

/-! ## §6. Every run over bytes is a run of the session. -/

/-- The bytes of a session. -/
structure Carries (t : Transport) (s : Session) : Prop where
  ends : t.ends = s.ends
  connected : t.connected = s.connected
  bytes (e : End) : t.received e ++ t.network e = (s.wire e).flatMap written

/-- What has been received is a whole packet or more, or not yet one. -/
theorem Carries.factory {t : Transport} {s : Session} (h : Carries t s)
    (hs : s.Writable opts) (e : End) :
    factory (t.received e) = .interrupted ∨ ∃ pack rest wire, s.wire e = pack :: wire
      ∧ MQTTPacket.factory (t.received e) = .complete (some pack) rest
      ∧ rest ++ t.network e = wire.flatMap written := by
  have hbytes := h.bytes e
  cases hread : MQTTPacket.factory (t.received e) with
  | interrupted => exact .inl rfl
  | error err =>
      -- an error would stay one with the bytes that are still to come,
      -- and these are packets that can be read
      have hall := factoryReader.error_append hread (t.network e)
      rw [hbytes] at hall
      cases hwire : s.wire e with
      | nil =>
          rw [hwire] at hall
          cases hall
      | cons pack wire =>
          have hfits := hs.wire e pack (by rw [hwire]; exact List.mem_cons_self)
          rw [hwire, List.flatMap_cons] at hall
          cases (hfits.read _).symm.trans hall
  | complete pack rest =>
      -- with the bytes still to come it is the same packet, so the first on the way
      have hall := factoryReader.complete_append hread (t.network e)
      rw [hbytes] at hall
      cases hwire : s.wire e with
      | nil =>
          rw [hwire] at hall
          cases hall
      | cons p wire =>
          have hfits := hs.wire e p (by rw [hwire]; exact List.mem_cons_self)
          rw [hwire, List.flatMap_cons] at hall
          obtain ⟨rfl, hrest⟩ := Outcome.complete.inj ((hfits.read _).symm.trans hall)
          exact .inr ⟨p, rest, wire, rfl, rfl, hrest.symm⟩

/-- What an end has done but read. -/
theorem Carries.carry {t : Transport} {s s₀ s' : Session} (h : Carries t s)
    (hends : s'.ends = s₀.ends) (hconnected : s'.connected = s₀.connected)
    (hwire : ∀ e, s'.wire e = if s₀.connected then s.wire e ++ s₀.wire e else []) :
    Carries (t.carry s₀) s' := by
  refine ⟨hends.symm, hconnected.symm, fun e => ?_⟩
  have hbytes := h.bytes e
  show (if s₀.connected then t.received e else [])
    ++ (if s₀.connected then t.network e ++ (s₀.wire e).flatMap written else []) = _
  rw [hwire]
  by_cases hopen : s₀.connected = true
  · rw [if_pos hopen, if_pos hopen, if_pos hopen, List.flatMap_append, ← hbytes, List.append_assoc]
  · rw [if_neg hopen, if_neg hopen, if_neg hopen]
    rfl

/-- Bytes are received. -/
theorem Carries.receive {t : Transport} {s : Session} (h : Carries t s) (e : End) (n : Nat) :
    Carries { t with
      network := update t.network e ((t.network e).drop n)
      received := update t.received e (t.received e ++ (t.network e).take n) } s := by
  refine ⟨h.ends, h.connected, fun e' => ?_⟩
  show update t.received e _ e' ++ update t.network e _ e' = _
  by_cases he : e' = e
  · rw [he, update_self, update_self, List.append_assoc, List.take_append_drop]
    exact h.bytes e
  · rw [update_of_ne he, update_of_ne he]
    exact h.bytes e'

/-- A packet is read. -/
theorem Carries.read {t : Transport} {s : Session} (h : Carries t s) (hopen : s.connected)
    {e : End} {pack : Packet} {rest : Bytes} {wire : List Packet}
    (hrest : rest ++ t.network e = wire.flatMap written) :
    Carries (t.read e (.complete (some pack) rest))
      ({ s with wire := update s.wire e wire }.put e (MQTTClient.cycle (s.ends e) pack)) := by
  obtain ⟨ends, network, received, connected⟩ := t
  obtain ⟨hends, hconnected, hbytes⟩ := h
  dsimp only at hends hconnected hbytes hrest
  subst hends hconnected
  have hread : Carries ⟨s.ends, network, update received e rest, s.connected⟩
      { s with wire := update s.wire e wire } := by
    refine ⟨rfl, rfl, fun e' => ?_⟩
    show update received e rest e' ++ network e' = (update s.wire e wire e').flatMap written
    by_cases he : e' = e
    · rw [he, update_self, update_self]
      exact hrest
    · rw [update_of_ne he, update_of_ne he]
      exact hbytes e'
  exact hread.carry rfl rfl (Session.put_bare (Session.absurd_closed hopen))

/-- **ONE STEP OVER BYTES** is a step of the session or none. -/
theorem carries_step {P : Session → Session.Action → Prop}
    (hP : OnEnds P) {t t' : Transport} {s : Session} {a : Action}
    (h : Carries t s) (hs : s.Writable opts) (hunder : Under P t a) (hstep : step opts t a = some t') :
    ∃ s', (session opts).LeadsWhen P s s' ∧ Carries t' s' ∧ s'.Writable opts := by
  cases a with
  | act a =>
      obtain ⟨s₀, hs₀, rfl⟩ := Option.map_eq_some_iff.mp hstep
      have hbare : t.bare = { s with wire := fun _ => [] } := by
        unfold bare
        rw [h.ends, h.connected]
      rw [hbare] at hs₀
      obtain ⟨s', hs', hends, hconnected, hwire⟩ := Session.step_bare hs.closed hs₀
      exact ⟨s', .single (hP _ _ _ h.ends hunder.1) hs', h.carry hends hconnected hwire,
        Session.writable_step hs hunder.2 hs'⟩
  | receive e n =>
      -- the session does nothing
      injection hstep with hstep
      subst hstep
      exact ⟨s, .refl, h.receive e n, hs⟩
  | cycle e =>
      have hopen : t.connected = true := by
        by_contra hclosed
        cases (if_neg hclosed).symm.trans hstep
      have hread : t.read e (MQTTPacket.factory (t.received e)) = t' :=
        Option.some.inj ((if_pos hopen).symm.trans hstep)
      rcases h.factory hs e with hkept | ⟨pack, rest, wire, hwire, hcomplete, hrest⟩
      -- not yet a packet, or the first one on the way
      · rw [hkept] at hread
        rw [← hread]
        exact ⟨s, .refl, h, hs⟩
      · have hcycle : Session.step opts s (.cycle e) = some ({ s with
            wire := update s.wire e wire }.put e (MQTTClient.cycle (s.ends e) pack)) := by
          simp only [Session.step, hwire]
        rw [hcomplete] at hread
        rw [← hread]
        exact ⟨_, .single (hP _ _ _ h.ends hunder) hcycle, h.read (h.connected ▸ hopen) hrest,
          Session.writable_step hs (show Session.Fitting (.cycle e) from trivial) hcycle⟩

open Classical in
/-- The session simulates it. -/
theorem simulation {P : Session → Session.Action → Prop}
    (hP : OnEnds P) :
    Simulation ((transport opts).guarded (Under P)) (session opts) P
      fun t s => Carries t s ∧ s.Writable opts where
  init := ⟨⟨rfl, rfl, fun _ => rfl⟩, Session.writable_initial⟩
  step := by
    intro t a t' s _ hR hstep
    obtain ⟨hunder, hstep⟩ := guarded_step.mp hstep
    exact carries_step hP hR.1 hR.2 hunder hstep

/-- No read fails. -/
theorem Carries.no_error {t : Transport} {s : Session} (h : Carries t s) (hs : s.Writable opts)
    (e : End) (err : ReadError) : MQTTPacket.factory (t.received e) ≠ .error err := by
  intro herror
  rcases h.factory hs e with hkept | ⟨pack, rest, wire, -, hcomplete, -⟩
  · cases hkept.symm.trans herror
  · cases hcomplete.symm.trans herror

/-- When no byte is left, no packet is. -/
theorem Carries.wire_nil {t : Transport} {s : Session} (h : Carries t s) (hs : s.Writable opts)
    {e : End} (hnone : t.received e = [] ∧ t.network e = []) : s.wire e = [] := by
  have hbytes := h.bytes e
  rw [hnone.1, hnone.2] at hbytes
  cases hwire : s.wire e with
  | nil => rfl
  | cons pack wire =>
      have hfits := hs.wire e pack (by rw [hwire]; exact List.mem_cons_self)
      have hread := hfits.read (wire.flatMap written)
      rw [hwire, List.flatMap_cons] at hbytes
      rw [← hbytes] at hread
      cases hread

open Classical in
/-- The session of a run over bytes, with what can be written on its way. -/
theorem reaches_session {P : Session → Session.Action → Prop} (hP : OnEnds P) {t : Transport}
    (h : (transport opts).LeadsWhen (Under P) initial t) :
    ∃ s, (session opts).LeadsWhen P Session.initial s ∧ Carries t s ∧ s.Writable opts :=
  (simulation hP).reaches h.guarded

/-- **EVERY RUN OVER BYTES IS A RUN OF THE SESSION**, under any condition on the
ends and on what they do, wherever the connection cuts the bytes; and no read
fails. -/
theorem carries_run {P : Session → Session.Action → Prop} (hP : OnEnds P) {t : Transport}
    (h : (transport opts).LeadsWhen (Under P) initial t) :
    (∃ s, (session opts).LeadsWhen P Session.initial s ∧ Carries t s)
      ∧ ∀ e err, MQTTPacket.factory (t.received e) ≠ .error err := by
  obtain ⟨s, hrun, hcarries, hs⟩ := reaches_session hP h
  exact ⟨⟨s, hrun, hcarries⟩, hcarries.no_error hs⟩

/-- The connection breaks in the middle of a packet, and is made again. -/
def cut (qos : Nat) : List Action :=
  [.act (.publish .near ⟨[116], [104, 105]⟩ qos false), .receive .far 3, .cycle .far, .act .lose,
    .act (.connect fun _ => 1), .receive .far 4, .cycle .far, .receive .far 7, .cycle .far,
    .receive .near 4, .cycle .near, .receive .far 1, .cycle .far, .receive .far 3, .cycle .far,
    .receive .near 9, .cycle .near]

/-- The session has come as far as the bytes. -/
theorem carries_run_cut : ∃ t s, (session fun _ => ⟨1, 0⟩).LeadsWhen Session.Flushed Session.initial s
    ∧ Carries t s ∧ (s.ends .far).hist.arrived.length = 1 := by
  have hrun : ((transport fun _ => ⟨1, 0⟩).runWhen (Under Session.Flushed) (cut 2) initial).map
      (fun t => (t.ends .far).hist.arrived.length) = some 1 := by decide +kernel
  obtain ⟨t, ht, hlen⟩ := Option.map_eq_some_iff.mp hrun
  obtain ⟨⟨s, hs, hcarries⟩, -⟩ := carries_run onEnds_flushed (leadsWhen_of_run _ ht)
  exact ⟨t, s, hs, hcarries, hcarries.ends ▸ hlen⟩

open Classical in
/-- What holds of the ends of a session holds of them over bytes. -/
theorem ends_invariant {P : Session → Session.Action → Prop} (hP : OnEnds P)
    {Q : (End → Clients) → Prop}
    (hQ : ∀ s, (session opts).LeadsWhen P Session.initial s → Q s.ends) {t : Transport}
    (h : (transport opts).LeadsWhen (Under P) initial t) : Q t.ends :=
  (simulation hP).invariant (P := fun t => Q t.ends) hQ
    (fun _ _ hR hends => hR.1.ends ▸ hends) h.guarded

end Transport

end MqttBenchmark.Paho
