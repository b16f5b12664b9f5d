/-
  MqttBenchmark.Paho.Delivered
  ────────────────────────────
  **WHAT TWO ENDS DELIVER OVER BYTES**, in every run: publishes of both,
  packets cut anywhere, pending writes, retries, and connections that break in
  the middle of a packet and are made again.

    • `exactly_once_over_bytes` — QoS 2,
    • `one_at_a_time_over_bytes` — QoS 2 with one message in flight at a time,
    • `at_least_once_over_bytes`, `tokens_over_bytes` — QoS 1 and the tokens,
    • `in_order_over_bytes` — every QoS, on one connection.
-/
import MqttBenchmark.Paho.Transport

namespace MqttBenchmark.Paho.Transport

open Lib Lib.System MQTTProtocol MQTTClient Function

variable {opts : End → SessionOptions}

/-! ## §1. Over connections that break. -/

/-- **QoS 2 MESSAGES ARRIVE EXACTLY ONCE**: of each id, those that have
arrived are those published, in their order; only the one in flight may be
missing. -/
theorem exactly_once_over_bytes {t : Transport}
    (h : (transport opts).LeadsWhen (Under Session.Flushed) initial t) (e : End) (i : Nat) :
    (t.ends e).started 2 i = (t.ends e.peer).arrived 2 i
      ∨ ∃ m ∈ (t.ends e).outboundMsgs, m.msgid = i ∧ m.qos = 2
          ∧ (t.ends e).started 2 i = (t.ends e.peer).arrived 2 i ++ [m.content] :=
  ends_invariant onEnds_flushed
    (Q := fun ends => (ends e).started 2 i = (ends e.peer).arrived 2 i
      ∨ ∃ m ∈ (ends e).outboundMsgs, m.msgid = i ∧ m.qos = 2
          ∧ (ends e).started 2 i = (ends e.peer).arrived 2 i ++ [m.content])
    (fun _ hrun => Session.exactly_once hrun e i) h

theorem exactly_once_over_bytes_cut : ∃ t, (transport fun _ => ⟨1, 0⟩).LeadsWhen
      (Under Session.Flushed) initial t
    ∧ (t.ends .far).hist.arrived.length = 1
    ∧ (t.ends .near).started 2 1 = (t.ends .far).arrived 2 1 := by
  have hrun : ((transport fun _ => ⟨1, 0⟩).runWhen (Under Session.Flushed) (cut 2) initial).map
      (fun t => ((t.ends .near).outboundMsgs, (t.ends .far).hist.arrived.length))
        = some ([], 1) := by decide +kernel
  obtain ⟨t, ht, hout⟩ := Option.map_eq_some_iff.mp hrun
  obtain ⟨hnone, hlen⟩ := Prod.mk.inj hout
  refine ⟨t, leadsWhen_of_run _ ht, hlen, ?_⟩
  rcases exactly_once_over_bytes (leadsWhen_of_run _ ht) .near 1 with h | ⟨m, hm, -⟩
  · exact h
  · rw [hnone] at hm
    cases hm

/-- **THEY ARRIVE IN THEIR ORDER** from an end that has one message in flight
at a time. -/
theorem one_at_a_time_over_bytes {t : Transport}
    (h : (transport opts).LeadsWhen (Under Session.Flushed) initial t) {e : End}
    (hone : (opts e).maxInflightMessages ≤ 1) :
    Session.startedAll (t.ends e) 2 = Session.arrivedAll (t.ends e.peer) 2
      ∨ ∃ m, (t.ends e).outboundMsgs = [m] ∧ m.qos = 2
          ∧ Session.startedAll (t.ends e) 2
            = Session.arrivedAll (t.ends e.peer) 2 ++ [(m.msgid, m.content)] :=
  ends_invariant onEnds_flushed
    (Q := fun ends => Session.startedAll (ends e) 2 = Session.arrivedAll (ends e.peer) 2
      ∨ ∃ m, (ends e).outboundMsgs = [m] ∧ m.qos = 2
          ∧ Session.startedAll (ends e) 2
            = Session.arrivedAll (ends e.peer) 2 ++ [(m.msgid, m.content)])
    (fun _ hrun => Session.arrive_in_order hrun hone) h

/-- The second message is in flight. -/
theorem one_at_a_time_over_bytes_cut : ∃ t, (transport fun _ => ⟨1, 0⟩).LeadsWhen
      (Under Session.Flushed) initial t
    ∧ (Session.startedAll (t.ends .near) 2).length = 2
    ∧ ∃ m : Messages, Session.startedAll (t.ends .near) 2
        = Session.arrivedAll (t.ends .far) 2 ++ [(m.msgid, m.content)] := by
  have hrun : ((transport fun _ => ⟨1, 0⟩).runWhen (Under Session.Flushed)
      (cut 2 ++ [.act (.publish .near ⟨[116], [33]⟩ 2 true)]) initial).map
      (fun t => ((Session.startedAll (t.ends .near) 2).length,
        (Session.arrivedAll (t.ends .far) 2).length)) = some (2, 1) := by decide +kernel
  obtain ⟨t, ht, hout⟩ := Option.map_eq_some_iff.mp hrun
  obtain ⟨hstarted, harrived⟩ := Prod.mk.inj hout
  refine ⟨t, leadsWhen_of_run _ ht, hstarted, ?_⟩
  rcases one_at_a_time_over_bytes (e := .near) (leadsWhen_of_run _ ht) (Nat.le_refl 1) with
    h | ⟨m, -, -, h⟩
  · have hlen : (Session.startedAll (t.ends .near) 2).length
        = (Session.arrivedAll (t.ends .far) 2).length := congrArg List.length h
    omega
  · exact ⟨m, h⟩

/-! ## §2. Where messages are sent again on a new connection only. -/

theorem onEnds_unrepeated_flushed :
    OnEnds fun s a => Session.Flushed s a ∧ Session.Unrepeated opts s a :=
  onEnds_and onEnds_flushed onEnds_unrepeated

/-- **QoS 1 MESSAGES ARRIVE AT LEAST ONCE**: of each id, those published are
among those that have arrived, in their order; only the one in flight may be
missing. -/
theorem at_least_once_over_bytes {t : Transport}
    (h : (transport opts).LeadsWhen
      (Under fun s a => Session.Flushed s a ∧ Session.Unrepeated opts s a) initial t)
    (e : End) (i : Nat) :
    ((t.ends e).started 1 i).Sublist ((t.ends e.peer).arrived 1 i)
      ∨ ∃ m ∈ (t.ends e).outboundMsgs, m.msgid = i ∧ m.qos = 1
          ∧ ((t.ends e).started 1 i).Sublist ((t.ends e.peer).arrived 1 i ++ [m.content]) :=
  ends_invariant onEnds_unrepeated_flushed
    (Q := fun ends => ((ends e).started 1 i).Sublist ((ends e.peer).arrived 1 i)
      ∨ ∃ m ∈ (ends e).outboundMsgs, m.msgid = i ∧ m.qos = 1
          ∧ ((ends e).started 1 i).Sublist ((ends e.peer).arrived 1 i ++ [m.content]))
    (fun _ hrun => Session.at_least_once hrun e i) h

/-- The answer is lost in the middle, and the message sent again. -/
def twice : List Action :=
  [.act (.publish .near ⟨[116], [104, 105]⟩ 1 false), .receive .far 9, .cycle .far,
    .receive .near 2, .cycle .near, .act .lose, .act (.connect fun _ => 1), .receive .far 9,
    .cycle .far, .receive .near 4, .cycle .near]

/-- It arrives twice. -/
theorem at_least_once_over_bytes_cut : ∃ t, (transport fun _ => ⟨1, 0⟩).LeadsWhen
      (Under fun s a => Session.Flushed s a ∧ Session.Unrepeated (fun _ => ⟨1, 0⟩) s a) initial t
    ∧ ((t.ends .far).arrived 1 1).length = 2
    ∧ ((t.ends .near).started 1 1).Sublist ((t.ends .far).arrived 1 1) := by
  have hrun : ((transport fun _ => ⟨1, 0⟩).runWhen
      (Under fun s a => Session.Flushed s a ∧ Session.Unrepeated (fun _ => ⟨1, 0⟩) s a)
      twice initial).map
      (fun t => ((t.ends .near).outboundMsgs, ((t.ends .far).arrived 1 1).length))
        = some ([], 2) := by decide +kernel
  obtain ⟨t, ht, hout⟩ := Option.map_eq_some_iff.mp hrun
  obtain ⟨hnone, hlen⟩ := Prod.mk.inj hout
  refine ⟨t, leadsWhen_of_run _ ht, hlen, ?_⟩
  rcases at_least_once_over_bytes (leadsWhen_of_run _ ht) .near 1 with h | ⟨m, hm, -⟩
  · exact h
  · rw [hnone] at hm
    cases hm

/-- **A TOKEN IS ONE MESSAGE, AND IT HAS ARRIVED**: the calls of
`deliveryComplete` with an id are as many as the messages published with it,
less the one in flight, and no more than the other end has got. -/
theorem tokens_over_bytes {t : Transport}
    (h : (transport opts).LeadsWhen
      (Under fun s a => Session.Flushed s a ∧ Session.Unrepeated opts s a) initial t)
    (e : End) (i : Nat) :
    (t.ends e).hist.completed.count i + ((t.ends e).outboundMsgs.map Messages.msgid).count i
        = ((t.ends e).started 2 i).length + ((t.ends e).started 1 i).length
      ∧ (t.ends e).hist.completed.count i
        ≤ ((t.ends e.peer).arrived 2 i).length + ((t.ends e.peer).arrived 1 i).length :=
  ends_invariant onEnds_unrepeated_flushed
    (Q := fun ends => (ends e).hist.completed.count i
        + ((ends e).outboundMsgs.map Messages.msgid).count i
        = ((ends e).started 2 i).length + ((ends e).started 1 i).length
      ∧ (ends e).hist.completed.count i
        ≤ ((ends e.peer).arrived 2 i).length + ((ends e.peer).arrived 1 i).length)
    (fun _ hrun => ⟨Session.tokens hrun e i, Session.token_arrived hrun e i⟩) h

/-- One token for a message that has arrived twice. -/
theorem tokens_over_bytes_cut : ∃ t, (transport fun _ => ⟨1, 0⟩).LeadsWhen
      (Under fun s a => Session.Flushed s a ∧ Session.Unrepeated (fun _ => ⟨1, 0⟩) s a) initial t
    ∧ ((t.ends .far).arrived 1 1).length = 2
    ∧ (t.ends .near).hist.completed.count 1 = 1 := by
  have hrun : ((transport fun _ => ⟨1, 0⟩).runWhen
      (Under fun s a => Session.Flushed s a ∧ Session.Unrepeated (fun _ => ⟨1, 0⟩) s a)
      twice initial).map
      (fun t => ((t.ends .near).outboundMsgs, ((t.ends .far).arrived 1 1).length,
        ((t.ends .near).started 2 1).length + ((t.ends .near).started 1 1).length))
        = some ([], 2, 1) := by decide +kernel
  obtain ⟨t, ht, hout⟩ := Option.map_eq_some_iff.mp hrun
  obtain ⟨hnone, hlen, hstarted⟩ : (t.ends .near).outboundMsgs = []
    ∧ ((t.ends .far).arrived 1 1).length = 2 ∧ _ = 1 := by simpa using hout
  have htokens := (tokens_over_bytes (leadsWhen_of_run _ ht) .near 1).1
  rw [hnone, hstarted] at htokens
  exact ⟨t, leadsWhen_of_run _ ht, hlen, htokens⟩

/-! ## §3. On one connection. -/

/-- Neither on the network nor at a socket is anything left. -/
def Silent (t : Transport) : Prop :=
  ∀ e, (t.received e = [] ∧ t.network e = []) ∧ (t.ends e).outboundQueue = []

theorem Carries.way_nil {t : Transport} {s : Session} (h : Carries t s) (hs : s.Writable opts)
    (hsilent : Silent t) (e : End) : s.way e = [] := by
  have hqueue := (hsilent e.peer).2
  unfold Session.way Clients.queued
  rw [h.wire_nil hs (hsilent e).1, ← h.ends, hqueue]
  rfl

theorem onEnds_unbroken : OnEnds (Session.Unbroken opts) :=
  onEnds_and onEnds_kept onEnds_unrepeated

/-- **EVERY MESSAGE ARRIVES, AND IN ITS ORDER**, as long as the connection holds
and nothing is sent again: those of each QoS arrive in the order in which they
were published, and all have arrived when nothing is left on the way. -/
theorem in_order_over_bytes {t : Transport}
    (h : (transport opts).LeadsWhen (Under (Session.Unbroken opts)) initial t) (e : End) {qos : Nat}
    (hqos : qos ≤ 2) :
    Session.arrivedAll (t.ends e.peer) qos <+: Session.startedAll (t.ends e) qos
      ∧ (Silent t →
          Session.arrivedAll (t.ends e.peer) qos = Session.startedAll (t.ends e) qos) := by
  obtain ⟨s, hrun, hcarries, hs⟩ := reaches_session onEnds_unbroken h
  obtain ⟨hinit, hall⟩ := Session.unbroken_in_order hrun e hqos
  rw [hcarries.ends]
  exact ⟨hinit, fun hsilent => hall (hcarries.way_nil hs hsilent)⟩

/-- Three in flight, two of whose answers had to wait. -/
def three : List Action :=
  [.act (.publish .near ⟨[116], [1]⟩ 2 false), .act (.publish .near ⟨[116], [2]⟩ 2 false),
    .act (.pending .far), .receive .far 12, .cycle .far, .receive .far 4, .cycle .far,
    .act (.writeAvailable .far 2 false), .receive .near 8, .cycle .near,
    .act (.publish .near ⟨[116], [3]⟩ 2 false), .cycle .near, .receive .far 16, .cycle .far,
    .cycle .far, .cycle .far]

theorem in_order_over_bytes_three : ∃ t, (transport fun _ => ⟨3, 0⟩).LeadsWhen
      (Under (Session.Unbroken fun _ => ⟨3, 0⟩)) initial t
    ∧ (Session.startedAll (t.ends .near) 2).length = 3
    ∧ Session.arrivedAll (t.ends .far) 2 = (Session.startedAll (t.ends .near) 2).take 2 := by
  have hrun : ((transport fun _ => ⟨3, 0⟩).runWhen (Under (Session.Unbroken fun _ => ⟨3, 0⟩))
      three initial).map (fun t => ((Session.startedAll (t.ends .near) 2).length,
        (Session.arrivedAll (t.ends .far) 2).length)) = some (3, 2) := by decide +kernel
  obtain ⟨t, ht, hout⟩ := Option.map_eq_some_iff.mp hrun
  obtain ⟨hstarted, harrived⟩ := Prod.mk.inj hout
  refine ⟨t, leadsWhen_of_run _ ht, hstarted, ?_⟩
  have hinit : Session.arrivedAll (t.ends .far) 2 <+: Session.startedAll (t.ends .near) 2 :=
    (in_order_over_bytes (leadsWhen_of_run _ ht) .near (Nat.le_refl 2)).1
  have htake := List.prefix_iff_eq_take.mp hinit
  rw [harrived] at htake
  exact htake

end MqttBenchmark.Paho.Transport
