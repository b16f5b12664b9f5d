/-
  MqttBenchmark.Process.Receive
  ─────────────────────────────
  **THE RECEIVE BUFFERS OF A PROCESS WITH ONE SUBSCRIBE THREAD.**

  `msgarrvd` keeps a counter over two buffers that the subscribe thread
  allocates and that `main` sorts at the end.  `Reception` is the part of
  the state this is about.

    • `Reception.Inv` — counter, buffers and posts as functions of the
      messages that arrived so far,
    • `reception_inv` — it holds in every reachable state,
    • `receive_buffers` — what that means for the buffers.
-/
import MqttBenchmark.Process.Shutdown
import MqttBenchmark.Lib.Slots

namespace MqttBenchmark.Process

open Lib Lib.System Function

variable {ι : Type} {o : ByteOrder} {cfg : Config} {s s' : State ι}

/-! ## §1. The view. -/

/-- `main` is past the call of `summary_stats`. -/
def MainPC.summarised : MainPC → Bool
  | .joinPubs _ | .disconnect | .returned => true
  | _ => false

/-- The callback as far as `msgarrvd` goes. -/
def CallbackPC.arrival : CallbackPC ι → CallbackPC ι
  | .arrived m t => .arrived m t
  | .storeRtt m t x => .storeRtt m t x
  | .count m t => .count m t
  | _ => .idle

namespace CallbackPC

/-- The data message `msgarrvd` is handling. -/
def current : CallbackPC ι → Option (Message ι × UInt64)
  | .arrived m t => if m.topicName = pubkill then none else some (m, t)
  | .storeRtt m t _ => some (m, t)
  | .count m t => some (m, t)
  | _ => none

/-- 1 while the receive time of the current message is not dealt with. -/
def beforeReceive : CallbackPC ι → Nat
  | .arrived m _ => if m.topicName = pubkill then 0 else 1
  | _ => 0

/-- 1 while the sample of the current message is not dealt with. -/
def beforeRtt : CallbackPC ι → Nat
  | .arrived m _ => if m.topicName = pubkill then 0 else 1
  | .storeRtt _ _ _ => 1
  | _ => 0

/-- 1 while the current message is not counted. -/
def beforeCount : CallbackPC ι → Nat
  | .arrived m _ => if m.topicName = pubkill then 0 else 1
  | .storeRtt _ _ _ => 1
  | .count _ _ => 1
  | _ => 0

/-- 1 while the post for the current `pubkill` message is not made. -/
def beforeKill : CallbackPC ι → Nat
  | .arrived m _ => if m.topicName = pubkill then 1 else 0
  | _ => 0

end CallbackPC

/-- A message of another topic than `pubkill`. -/
def isData (p : Message ι × UInt64) : Bool := decide (p.1.topicName ≠ pubkill)

/-- The data messages that arrived so far, with their clock readings. -/
def dataMessages (s : State ι) : List (Message ι × UInt64) := s.hist.arrivals.filter isData

/-- The number of `pubkill` messages that arrived so far. -/
def killMessages (s : State ι) : Nat := s.hist.arrivals.countP fun p => !isData p

/-- What reception is about. -/
structure Reception (ι : Type) where
  callback : CallbackPC ι
  it : UInt32
  receiveTs : Option (List UInt64)
  rttTs : Option (List UInt32)
  summarised : Bool
  data : List (Message ι × UInt64)
  kills : Nat
  recorded : List (Message ι × UInt64 × UInt32)
  killPosts : Nat
  donePosts : Nat

def reception (s : State ι) : Reception ι :=
  ⟨s.callback.arrival, s.it, s.receiveTs, s.rttTs, s.main.summarised, dataMessages s,
    killMessages s, s.hist.recorded, s.hist.killPosts, s.hist.donePosts⟩

namespace Reception

/-- The data messages whose receive time has been dealt with. -/
def receiveDone (v : Reception ι) : List (Message ι × UInt64) :=
  v.data.take (v.data.length - v.callback.beforeReceive)

/-- The data messages whose sample has been dealt with. -/
def rttDone (v : Reception ι) : List (Message ι × UInt64) :=
  v.data.take (v.data.length - v.callback.beforeRtt)

/-- **The reception invariant.** -/
structure Inv (o : ByteOrder) (cfg : Config) (v : Reception ι) : Prop where
  it : v.it.toNat + v.callback.beforeCount = v.data.length
  kill : v.killPosts + v.callback.beforeKill = v.kills
  last : ∀ p, v.callback.current = some p → ∃ earlier, v.data = earlier ++ [p]
  receive : ∀ b, v.receiveTs = some b →
    b = slots cfg.maxIter.toNat (v.receiveDone.map (·.2)) 0
  rtt : v.summarised = false → ∀ b, v.rttTs = some b →
    b = slots cfg.maxIter.toNat (v.recorded.map (·.2.2)) 0
  rttLen : ∀ b, v.rttTs = some b → b.length = cfg.maxIter.toNat
  recorded : v.recorded.map (fun r => (r.1, r.2.1)) = v.rttDone.take cfg.maxIter.toNat
  samples : ∀ r ∈ v.recorded, sampleOf o r.1 r.2.1 = some r.2.2
  done : v.donePosts = if cfg.maxIter.toNat < v.rttDone.length then 1 else 0
  storing : ∀ m t x, v.callback = .storeRtt m t x → v.it < cfg.maxIter ∧ sampleOf o m t = some x

end Reception

/-! ## §2. The buffers exist before data can arrive. -/

/-- A subscribe thread past an allocation leaves the buffer allocated. -/
theorem allocated (hsubs : cfg.numSubs = 1) (h : (system o cfg).Reachable s) :
    (s.subs 0 ≠ .absent → s.subs 0 ≠ .allocReceive → s.receiveTs ≠ none)
      ∧ (s.subs 0 ≠ .absent → s.subs 0 ≠ .allocReceive → s.subs 0 ≠ .allocRtt → s.rttTs ≠ none) := by
  refine reachable_induct (P := fun s =>
    (s.subs 0 ≠ .absent → s.subs 0 ≠ .allocReceive → s.receiveTs ≠ none)
      ∧ (s.subs 0 ≠ .absent → s.subs 0 ≠ .allocReceive → s.subs 0 ≠ .allocRtt → s.rttTs ≠ none))
    h ⟨fun h => absurd rfl h, fun h => absurd rfl h⟩ ?_
  intro s s' hs _ ih hm
  cases hm with
  | main h =>
      cases h with
      | createSub i hpc hi =>
          obtain rfl : i = 0 := by omega
          simp
      | summary buf sorted hpc hbuf hperm => exact ⟨ih.1, by simp⟩
      | _ => exact ih
  | sub i h =>
      rcases h.lt_numSubs hs with rfl | hlt
      · exact ih
      obtain rfl : i = 0 := by omega
      cases h with
      | allocReceive hpc => simp
      | allocRtt hpc => exact ⟨fun _ _ => ih.1 (by simp [hpc]) (by simp [hpc]), by simp⟩
      | passed d hpc hd =>
          have hout : s.subs 0 ≠ .absent ∧ s.subs 0 ≠ .allocReceive ∧ s.subs 0 ≠ .allocRtt := by
            rcases hpc with hpc | hpc <;> simp [hpc]
          exact ⟨fun _ _ => ih.1 hout.1 hout.2.1, fun _ _ _ => ih.2 hout.1 hout.2.1 hout.2.2⟩
      | exit => exact ih
      | _ =>
          have hpc := ‹s.subs 0 = _›
          exact ⟨fun _ _ => ih.1 (by simp [hpc]) (by simp [hpc]),
            fun _ _ _ => ih.2 (by simp [hpc]) (by simp [hpc]) (by simp [hpc])⟩
  | pub i h =>
      have f := h.frame
      rw [f.subs, f.receiveTs, f.rttTs]
      exact ih
  | callback h =>
      have f := h.frame
      rw [f.subs]
      constructor
      · intro h1 h2
        have hb := ih.1 h1 h2
        cases h with
        -- a store keeps the buffer it stores to
        | storeReceive m t x buf hpc htopic hit hx hbuf =>
            unfold storeAt at hbuf
            grind
        | _ => exact hb
      · intro h1 h2 h3
        have hb := ih.2 h1 h2 h3
        cases h with
        | storeRtt m t x buf hpc hbuf =>
            unfold storeAt at hbuf
            grind
        | _ => exact hb
  | paho h =>
      have f := h.frame
      rw [f.subs, f.receiveTs, f.rttTs]
      exact ih

/-- Once a data message has arrived both buffers are allocated. -/
theorem allocated_of_data (hsubs : cfg.numSubs = 1) (h : (system o cfg).Reachable s)
    (hdata : ∃ p ∈ s.hist.arrivals, p.1.topicName ≠ pubkill) :
    s.receiveTs ≠ none ∧ s.rttTs ≠ none := by
  have hearly : (s.subs 0).early = false := by
    by_contra hne
    have hno := no_data_of_early hsubs.le h (by simpa using hne)
    obtain ⟨p, hp, htopic⟩ := hdata
    exact htopic (hno.arrivals p hp)
  have hb := allocated hsubs h
  have h1 : s.subs 0 ≠ .absent := by
    intro hpc
    rw [hpc] at hearly
    cases hearly
  have h2 : s.subs 0 ≠ .allocReceive := by
    intro hpc
    rw [hpc] at hearly
    cases hearly
  have h3 : s.subs 0 ≠ .allocRtt := by
    intro hpc
    rw [hpc] at hearly
    cases hearly
  exact ⟨hb.1 h1 h2, hb.2 h1 h2 h3⟩

/-! ## §3. The moves of reception. -/

/-- A store that succeeds stores in bounds. -/
theorem storeAt_eq_some {α : Type} {buf buf' : Option (List α)} {i : Nat} {y : α}
    (h : storeAt buf i y = some buf') :
    ∃ b, buf = some b ∧ i < b.length ∧ buf' = some (b.set i y) := by
  unfold storeAt at h
  split at h
  next => cases h
  next b =>
    split at h <;> cases h
    exact ⟨b, rfl, ‹_›, rfl⟩

namespace Reception

variable {v : Reception ι} {m : Message ι} {t : UInt64} {x : UInt32}

/-- A `pubkill` message arrives. -/
theorem Inv.arriveKill (hi : v.Inv o cfg) (hcb : v.callback = .idle)
    (htopic : m.topicName = pubkill) :
    { v with callback := .arrived m t, kills := v.kills + 1 }.Inv o cfg := by
  obtain ⟨h1, h2, h3, h4, h5, h6, h7, h8, h9, h10⟩ := hi
  simp only [receiveDone, rttDone, hcb] at h1 h2 h4 h7 h9
  refine ⟨?_, ?_, ?_, ?_, h5, h6, ?_, h8, ?_, by simp⟩
  · simpa [CallbackPC.beforeCount, htopic] using h1
  · simpa [CallbackPC.beforeKill, htopic] using h2
  · simp [CallbackPC.current, htopic]
  · simpa only [receiveDone, CallbackPC.beforeReceive, htopic, if_true] using h4
  · simpa only [rttDone, CallbackPC.beforeRtt, htopic, if_true] using h7
  · simp only [rttDone, CallbackPC.beforeRtt, htopic, if_true]
    exact h9

/-- A data message arrives. -/
theorem Inv.arriveData (hi : v.Inv o cfg) (hcb : v.callback = .idle)
    (htopic : m.topicName ≠ pubkill) :
    { v with callback := .arrived m t, data := v.data ++ [(m, t)] }.Inv o cfg := by
  obtain ⟨h1, h2, h3, h4, h5, h6, h7, h8, h9, h10⟩ := hi
  simp only [receiveDone, rttDone, hcb, CallbackPC.beforeCount, CallbackPC.beforeKill,
    CallbackPC.beforeReceive, CallbackPC.beforeRtt, Nat.sub_zero, Nat.add_zero,
    List.take_length] at h1 h2 h4 h7 h9
  -- the new message is the one not dealt with yet
  have htake : (v.data ++ [(m, t)]).take ((v.data ++ [(m, t)]).length - 1) = v.data := by simp
  refine ⟨?_, ?_, ?_, ?_, h5, h6, ?_, h8, ?_, by simp⟩
  · simpa [CallbackPC.beforeCount, htopic] using h1
  · simpa [CallbackPC.beforeKill, htopic] using h2
  · intro p hp
    simp only [CallbackPC.current, htopic, if_false, Option.some.injEq] at hp
    exact ⟨v.data, by rw [hp]⟩
  · simpa only [receiveDone, CallbackPC.beforeReceive, htopic, if_false, htake] using h4
  · simpa only [rttDone, CallbackPC.beforeRtt, htopic, if_false, htake] using h7
  · simpa only [rttDone, CallbackPC.beforeRtt, htopic, if_false, htake] using h9

/-- The post for a `pubkill` message. -/
theorem Inv.kill_post (hi : v.Inv o cfg) (hcb : v.callback = .arrived m t)
    (htopic : m.topicName = pubkill) :
    { v with callback := .idle, killPosts := v.killPosts + 1 }.Inv o cfg := by
  obtain ⟨h1, h2, h3, h4, h5, h6, h7, h8, h9, h10⟩ := hi
  simp only [receiveDone, rttDone, hcb, CallbackPC.beforeCount, CallbackPC.beforeKill,
    CallbackPC.beforeReceive, CallbackPC.beforeRtt, htopic, if_true] at h1 h2 h4 h7 h9
  exact ⟨h1, h2, by simp [CallbackPC.current], h4, h5, h6, h7, h8, h9, by simp⟩

/-- The message being handled splits off the end of the data. -/
theorem Inv.split (hi : v.Inv o cfg) (hcur : v.callback.current = some (m, t))
    (hcount : v.callback.beforeCount = 1) :
    ∃ earlier, v.data = earlier ++ [(m, t)] ∧ v.it.toNat = earlier.length := by
  obtain ⟨earlier, hdata⟩ := hi.last _ hcur
  have hit := hi.it
  rw [hcount, hdata, List.length_append, List.length_singleton] at hit
  exact ⟨earlier, hdata, by omega⟩

/-- The receive time of a message goes to its slot. -/
theorem Inv.store_receive (hi : v.Inv o cfg) (hcb : v.callback = .arrived m t)
    (htopic : m.topicName ≠ pubkill) (hit : v.it < cfg.maxIter) (hx : sampleOf o m t = some x)
    {buf : Option (List UInt64)} (hbuf : storeAt v.receiveTs v.it.toNat t = some buf) :
    { v with callback := .storeRtt m t x, receiveTs := buf }.Inv o cfg := by
  obtain ⟨earlier, hdata, hlen⟩ := hi.split (m := m) (t := t)
    (by simp [hcb, CallbackPC.current, htopic]) (by simp [hcb, CallbackPC.beforeCount, htopic])
  obtain ⟨h1, h2, h3, h4, h5, h6, h7, h8, h9, h10⟩ := hi
  obtain ⟨b, hb, -, rfl⟩ := storeAt_eq_some hbuf
  have hb := h4 b hb
  simp only [receiveDone, rttDone, hcb, CallbackPC.beforeCount, CallbackPC.beforeKill,
    CallbackPC.beforeReceive, CallbackPC.beforeRtt, htopic, if_false] at h1 h2 hb h7 h9
  refine ⟨h1, h2, ?_, ?_, h5, h6, h7, h8, h9, ?_⟩
  · intro p hp
    simp only [CallbackPC.current, Option.some.injEq] at hp
    exact ⟨earlier, by rw [← hp]; exact hdata⟩
  · intro b' hb'
    -- slot `it` is the first one after those of the earlier messages
    obtain rfl : b.set v.it.toNat t = b' := by simpa using hb'
    have hlt : earlier.length < cfg.maxIter.toNat := by
      rw [← hlen]
      exact UInt32.lt_iff_toNat_lt.mp hit
    have hdone : earlier = v.data.take (v.data.length - 1) := by simp [hdata]
    simp only [receiveDone, CallbackPC.beforeReceive, Nat.sub_zero, List.take_length]
    rw [hb, ← hdone, hdata, List.map_append, List.map_singleton,
      slots_snoc_set _ _ _ (by simpa using hlt), List.length_map, hlen]
  · intro m' t' x' heq
    cases heq
    exact ⟨hit, hx⟩

/-- The sample of a message goes to its slot. -/
theorem Inv.store_rtt (hi : v.Inv o cfg) (hcb : v.callback = .storeRtt m t x)
    {buf : Option (List UInt32)} (hbuf : storeAt v.rttTs v.it.toNat x = some buf) :
    { v with callback := .count m t, rttTs := buf,
             recorded := v.recorded ++ [(m, t, x)] }.Inv o cfg := by
  obtain ⟨earlier, hdata, hlen⟩ := hi.split (m := m) (t := t)
    (by simp [hcb, CallbackPC.current]) (by simp [hcb, CallbackPC.beforeCount])
  obtain ⟨h1, h2, h3, h4, h5, h6, h7, h8, h9, h10⟩ := hi
  obtain ⟨hit, hx⟩ := h10 m t x hcb
  obtain ⟨b, hb, -, rfl⟩ := storeAt_eq_some hbuf
  have hlt : earlier.length < cfg.maxIter.toNat := by
    rw [← hlen]
    exact UInt32.lt_iff_toNat_lt.mp hit
  have hearlier : v.data.take (v.data.length - 1) = earlier := by simp [hdata]
  simp only [receiveDone, rttDone, hcb, CallbackPC.beforeCount, CallbackPC.beforeKill,
    CallbackPC.beforeReceive, CallbackPC.beforeRtt, hearlier] at h1 h2 h4 h7 h9
  -- so far every message has had a slot
  have hrec : v.recorded.length = earlier.length := by
    have hlength := congrArg List.length h7
    rw [List.length_map, List.length_take] at hlength
    omega
  refine ⟨h1, h2, ?_, h4, ?_, ?_, ?_, ?_, ?_, by simp⟩
  · intro p hp
    simp only [CallbackPC.current, Option.some.injEq] at hp
    exact ⟨earlier, by rw [← hp]; exact hdata⟩
  · intro hsum b' hb'
    obtain rfl : b.set v.it.toNat x = b' := by simpa using hb'
    rw [h5 hsum b hb, List.map_append, List.map_singleton,
      slots_snoc_set _ _ _ (by rw [List.length_map, hrec]; exact hlt), List.length_map, hrec, hlen]
  · intro b' hb'
    obtain rfl : b.set v.it.toNat x = b' := by simpa using hb'
    rw [List.length_set]
    exact h6 b hb
  · simp only [rttDone, CallbackPC.beforeRtt, Nat.sub_zero, List.take_length]
    rw [List.map_append, h7, hdata, List.take_of_length_le (by omega),
      List.take_of_length_le (by rw [List.length_append, List.length_singleton]; omega)]
    rfl
  · intro r hr
    rcases List.mem_append.mp hr with hr | hr
    · exact h8 r hr
    · rw [List.mem_singleton.mp hr]
      exact hx
  · simp only [rttDone, CallbackPC.beforeRtt, Nat.sub_zero, List.take_length]
    rw [h9, hdata, List.length_append, List.length_singleton, if_neg (by omega), if_neg (by omega)]

/-- A message beyond the last slot is only counted, after the one post. -/
theorem Inv.beyond (hi : v.Inv o cfg) (hcb : v.callback = .arrived m t)
    (htopic : m.topicName ≠ pubkill) (hit : cfg.maxIter ≤ v.it) :
    { v with callback := .count m t,
             donePosts := if v.it = cfg.maxIter then v.donePosts + 1 else v.donePosts }.Inv o cfg := by
  obtain ⟨earlier, hdata, hlen⟩ := hi.split (m := m) (t := t)
    (by simp [hcb, CallbackPC.current, htopic]) (by simp [hcb, CallbackPC.beforeCount, htopic])
  obtain ⟨h1, h2, h3, h4, h5, h6, h7, h8, h9, h10⟩ := hi
  have hle : cfg.maxIter.toNat ≤ earlier.length := by
    rw [← hlen]
    exact UInt32.le_iff_toNat_le.mp hit
  have hearlier : v.data.take (v.data.length - 1) = earlier := by simp [hdata]
  simp only [receiveDone, rttDone, hcb, CallbackPC.beforeCount, CallbackPC.beforeKill,
    CallbackPC.beforeReceive, CallbackPC.beforeRtt, htopic, if_false, hearlier] at h1 h2 h4 h7 h9
  refine ⟨h1, h2, ?_, ?_, h5, h6, ?_, h8, ?_, by simp⟩
  · intro p hp
    simp only [CallbackPC.current, Option.some.injEq] at hp
    exact ⟨earlier, by rw [← hp]; exact hdata⟩
  · intro b hb
    simp only [receiveDone, CallbackPC.beforeReceive, Nat.sub_zero, List.take_length]
    rw [h4 b hb, hdata, List.map_append, List.map_singleton,
      slots_snoc_full _ _ _ (by rw [List.length_map]; exact hle)]
  · simp only [rttDone, CallbackPC.beforeRtt, Nat.sub_zero, List.take_length]
    rw [h7, hdata, List.take_append_of_le_length hle]
  · simp only [rttDone, CallbackPC.beforeRtt, Nat.sub_zero, List.take_length]
    rw [h9, hdata, List.length_append, List.length_singleton]
    -- the post comes with the message right after the last slot
    have hiff : v.it = cfg.maxIter ↔ earlier.length = cfg.maxIter.toNat := by
      rw [← UInt32.toNat_inj, hlen]
    simp only [hiff]
    split_ifs <;> omega

/-- The message is counted. -/
theorem Inv.count (hi : v.Inv o cfg) (hcb : v.callback = .count m t)
    (hlen : v.data.length < 2 ^ 32) :
    { v with callback := .idle, it := v.it + 1 }.Inv o cfg := by
  obtain ⟨h1, h2, h3, h4, h5, h6, h7, h8, h9, h10⟩ := hi
  simp only [receiveDone, rttDone, hcb, CallbackPC.beforeCount, CallbackPC.beforeKill,
    CallbackPC.beforeReceive, CallbackPC.beforeRtt] at h1 h2 h4 h7 h9
  refine ⟨?_, h2, by simp [CallbackPC.current], h4, h5, h6, h7, h8, h9, by simp⟩
  show (v.it + 1).toNat + 0 = v.data.length
  rw [UInt32.toNat_add]
  have hone : (1 : UInt32).toNat = 1 := rfl
  -- below `2 ^ 32` messages the counter does not wrap
  rw [hone, Nat.mod_eq_of_lt (by omega)]
  exact h1

end Reception

/-! ## §4. All moves. -/

theorem dataMessages_eq_nil (h : NoData s) : dataMessages s = [] := by
  rw [dataMessages, List.filter_eq_nil_iff]
  intro p hp
  simp [isData, h.arrivals p hp]

theorem reception_inv_main (hi : (reception s).Inv o cfg) (h : MainMove cfg s s') :
    (reception s').Inv o cfg := by
  obtain ⟨h1, h2, h3, h4, h5, h6, h7, h8, h9, h10⟩ := hi
  cases h with
  | noSummary hpc hbuf => exact ⟨h1, h2, h3, h4, Bool.noConfusion, h6, h7, h8, h9, h10⟩
  | summary buf sorted hpc hbuf hperm =>
      refine ⟨h1, h2, h3, h4, Bool.noConfusion, ?_, h7, h8, h9, h10⟩
      intro b hb
      obtain rfl : sorted = b := by simpa [reception] using hb
      -- sorting keeps the length, and the slots are not claimed any more
      rw [hperm.length_eq]
      exact h6 buf hbuf
  | _ =>
      rw [reception, ‹s.main = _›] at h5
      exact ⟨h1, h2, h3, h4, h5, h6, h7, h8, h9, h10⟩

theorem reception_inv_sub (hsubs : cfg.numSubs = 1) (hs : (system o cfg).Reachable s)
    (hi : (reception s).Inv o cfg) {i : Nat} (h : SubMove cfg s i s') :
    (reception s').Inv o cfg := by
  rcases h.lt_numSubs hs with rfl | hlt
  · exact hi
  obtain rfl : i = 0 := by omega
  cases h with
  | allocReceive hpc =>
      -- a fresh buffer, and no data yet
      have hdata := dataMessages_eq_nil (no_data_of_early hsubs.le hs (by rw [hpc]; rfl))
      obtain ⟨h1, h2, h3, h4, h5, h6, h7, h8, h9, h10⟩ := hi
      refine ⟨h1, h2, h3, ?_, h5, h6, h7, h8, h9, h10⟩
      intro b hb
      obtain rfl : List.replicate cfg.maxIter.toNat 0 = b := by simpa [reception] using hb
      have hdata' : (reception (State.setSub { s with
          receiveTs := some (List.replicate cfg.maxIter.toNat 0) } 0 .allocRtt)).data = [] := hdata
      rw [Reception.receiveDone, hdata', List.take_nil, List.map_nil, slots_nil]
  | allocRtt hpc =>
      have hno := no_data_of_early hsubs.le hs (by rw [hpc]; rfl)
      obtain ⟨h1, h2, h3, h4, h5, h6, h7, h8, h9, h10⟩ := hi
      refine ⟨h1, h2, h3, h4, ?_, ?_, h7, h8, h9, h10⟩
      · intro _ b hb
        obtain rfl : List.replicate cfg.maxIter.toNat 0 = b := by simpa [reception] using hb
        show _ = slots cfg.maxIter.toNat (s.hist.recorded.map (·.2.2)) 0
        rw [hno.recorded, List.map_nil, slots_nil]
      · intro b hb
        obtain rfl : List.replicate cfg.maxIter.toNat 0 = b := by simpa [reception] using hb
        exact List.length_replicate
  | _ => exact hi

theorem reception_inv_callback (hi : (reception s).Inv o cfg) (hlen : (dataMessages s).length < 2 ^ 32)
    (h : CallbackMove o cfg s s') : (reception s').Inv o cfg := by
  have hview : (reception s).callback = s.callback.arrival := rfl
  cases h with
  | take n dt d hpc hd =>
      have hidle : s.callback.arrival = .idle := by rcases hpc with hpc | hpc <;> rw [hpc] <;> rfl
      simp only [reception, hidle] at hi
      exact hi
  | blocked n dt hpc hd =>
      simp only [reception, hpc, CallbackPC.arrival] at hi
      exact hi
  | storeToken n dt hpc =>
      simp only [reception, hpc, CallbackPC.arrival] at hi
      exact hi
  | kill m t hpc htopic =>
      rw [hpc] at hview
      exact hi.kill_post hview htopic
  | storeReceive m t x buf hpc htopic hit hx hbuf =>
      rw [hpc] at hview
      exact hi.store_receive hview htopic hit hx hbuf
  | full m t hpc htopic hit =>
      rw [hpc] at hview
      have hnext := hi.beyond hview htopic (by rw [← hit]; exact UInt32.le_refl _)
      have hdone : (reception s).it = cfg.maxIter := hit
      simp only [hdone, if_true] at hnext
      rw [← hit] at hnext
      exact hnext
  | skip m t hpc htopic hit =>
      rw [hpc] at hview
      have hne : s.it ≠ cfg.maxIter := fun heq => by simp [heq] at hit
      have hnext := hi.beyond hview htopic (UInt32.le_of_lt hit)
      simp only [reception, hne, if_false] at hnext
      exact hnext
  | storeRtt m t x buf hpc hbuf =>
      rw [hpc] at hview
      exact hi.store_rtt hview hbuf
  | count m t hpc =>
      rw [hpc] at hview
      exact hi.count hview hlen
  | fault => exact hi

theorem reception_inv_paho (hi : (reception s).Inv o cfg) (h : PahoMove s s') :
    (reception s').Inv o cfg := by
  have hview : (reception s).callback = s.callback.arrival := rfl
  cases h with
  | arrive m t hpc hmatch =>
      rw [hpc] at hview
      by_cases htopic : m.topicName = pubkill
      · have hnext := hi.arriveKill (m := m) (t := t) hview htopic
        simpa [reception, dataMessages, killMessages, List.filter_append, isData, htopic,
          CallbackPC.arrival] using hnext
      · have hnext := hi.arriveData (m := m) (t := t) hview htopic
        simpa [reception, dataMessages, killMessages, List.filter_append, isData, htopic,
          CallbackPC.arrival] using hnext
  | confirm k n dt hpc hk =>
      simp only [reception, hpc, CallbackPC.arrival] at hi
      exact hi
  | lose => exact hi

/-- Messages are never taken back. -/
theorem arrivals_prefix (h : Move o cfg s s') : ∃ more, s'.hist.arrivals = s.hist.arrivals ++ more := by
  cases h with
  | main h => exact ⟨[], by rw [h.frame.arrivals, List.append_nil]⟩
  | sub i h => exact ⟨[], by rw [h.frame.arrivals, List.append_nil]⟩
  | pub i h => exact ⟨[], by rw [h.frame.hist, List.append_nil]⟩
  | callback h => exact ⟨[], by rw [h.frame.arrivals, List.append_nil]⟩
  | paho h =>
      cases h with
      | arrive m t hpc hmatch => exact ⟨[(m, t)], rfl⟩
      | _ => exact ⟨[], (List.append_nil _).symm⟩

theorem dataMessages_mono (h : Move o cfg s s') :
    (dataMessages s).length ≤ (dataMessages s').length := by
  obtain ⟨more, hmore⟩ := arrivals_prefix h
  rw [dataMessages, dataMessages, hmore, List.filter_append, List.length_append]
  exact Nat.le_add_right _ _

/-- **The reception invariant holds in every reachable state**, up to 2³²
data messages. -/
theorem reception_inv (hsubs : cfg.numSubs = 1) (h : (system o cfg).Reachable s) :
    (dataMessages s).length < 2 ^ 32 → (reception s).Inv o cfg := by
  refine reachable_induct
    (P := fun s => (dataMessages s).length < 2 ^ 32 → (reception s).Inv o cfg) h ?_ ?_
  · intro _
    refine ⟨rfl, rfl, ?_, ?_, ?_, ?_, ?_, ?_, ?_, ?_⟩ <;>
      simp [reception, initial, dataMessages, Reception.rttDone, CallbackPC.arrival,
        CallbackPC.current]
  intro s s' hs _ ih hm hlen
  -- messages are never taken back, so the bound held before the move
  have hlen₀ : (dataMessages s).length < 2 ^ 32 := (dataMessages_mono hm).trans_lt hlen
  have hi := ih hlen₀
  cases hm with
  | main h => exact reception_inv_main hi h
  | sub i h => exact reception_inv_sub hsubs hs hi h
  | pub i h =>
      have f := h.frame
      have hview : reception s' = reception s := by
        simp only [reception, dataMessages, killMessages, f.callback, f.it, f.receiveTs, f.rttTs,
          f.main, f.hist]
      rw [hview]
      exact hi
  | callback h => exact reception_inv_callback hi hlen₀ h
  | paho h => exact reception_inv_paho hi h

/-! ## §5. What the invariant says about the buffers. -/

namespace Reception

variable {v : Reception ι}

theorem Inv.receive_length (hi : v.Inv o cfg) {b : List UInt64} (hb : v.receiveTs = some b) :
    b.length = cfg.maxIter.toNat := by
  rw [hi.receive b hb, slots_length]

/-- Slot `i` of `receive_ts`: the receive time of data message `i`, or 0. -/
theorem Inv.receive_slot (hi : v.Inv o cfg) {b : List UInt64} (hb : v.receiveTs = some b) {i : Nat}
    (hlt : i < cfg.maxIter.toNat) : b[i]? = some ((v.receiveDone.map (·.2)).getD i 0) := by
  rw [hi.receive b hb, slots_getElem? _ _ hlt]

/-- Slot `i` of `rtt_ts`: the sample of data message `i`. -/
theorem Inv.rtt_slot (hi : v.Inv o cfg) (hsum : v.summarised = false) {b : List UInt32}
    (hb : v.rttTs = some b) {i : Nat} (hlt : i < cfg.maxIter.toNat) {p : Message ι × UInt64}
    (hp : v.rttDone[i]? = some p) : ∃ x, sampleOf o p.1 p.2 = some x ∧ b[i]? = some x := by
  have hrec : (v.recorded.map fun r => (r.1, r.2.1))[i]? = some p := by
    rw [hi.recorded, List.getElem?_take_of_lt hlt]
    exact hp
  rw [List.getElem?_map, Option.map_eq_some_iff] at hrec
  obtain ⟨r, hr, rfl⟩ := hrec
  refine ⟨r.2.2, hi.samples r (List.mem_of_getElem? hr), ?_⟩
  rw [hi.rtt hsum b hb, slots_getElem? _ _ hlt, List.getD_eq_getElem?_getD, List.getElem?_map, hr]
  rfl

/-- A slot of `rtt_ts` no message has reached is still 0. -/
theorem Inv.rtt_slot_zero (hi : v.Inv o cfg) (hsum : v.summarised = false) {b : List UInt32}
    (hb : v.rttTs = some b) {i : Nat} (hlt : i < cfg.maxIter.toNat)
    (hp : v.rttDone[i]? = none) : b[i]? = some 0 := by
  have hrec : (v.recorded.map fun r => (r.1, r.2.1))[i]? = none := by
    rw [hi.recorded, List.getElem?_take_of_lt hlt]
    exact hp
  rw [List.getElem?_map, Option.map_eq_none_iff] at hrec
  rw [hi.rtt hsum b hb, slots_getElem? _ _ hlt, List.getD_eq_getElem?_getD, List.getElem?_map, hrec]
  rfl

theorem Inv.done_le_one (hi : v.Inv o cfg) : v.donePosts ≤ 1 := by
  rw [hi.done]
  split <;> omega

/-- `done_receiving` is posted only after every slot was written. -/
theorem Inv.full_of_done (hi : v.Inv o cfg) (hpos : 0 < v.donePosts) :
    cfg.maxIter.toNat < v.rttDone.length := by
  rw [hi.done] at hpos
  split at hpos
  next hlt => exact hlt
  next => omega

theorem rttDone_length_le (v : Reception ι) : v.rttDone.length ≤ v.receiveDone.length := by
  have hle : v.callback.beforeReceive ≤ v.callback.beforeRtt := by
    cases v.callback <;> simp [CallbackPC.beforeReceive, CallbackPC.beforeRtt]
  rw [rttDone, receiveDone, List.length_take, List.length_take]
  omega

/-- Between two data messages both buffers have all of them. -/
theorem done_of_idle (v : Reception ι) (h : v.callback.beforeCount = 0) :
    v.receiveDone = v.data ∧ v.rttDone = v.data := by
  have hle : v.callback.beforeReceive = 0 ∧ v.callback.beforeRtt = 0 := by
    cases hcb : v.callback <;> rw [hcb] at h <;>
      simp_all [CallbackPC.beforeReceive, CallbackPC.beforeRtt, CallbackPC.beforeCount]
  rw [receiveDone, rttDone, hle.1, hle.2]
  exact ⟨List.take_length, List.take_length⟩

/-- After the post the counter is past the last slot. -/
theorem Inv.not_writing (hi : v.Inv o cfg) (hpos : 0 < v.donePosts) {m : Message ι} {t : UInt64}
    (hcur : v.callback.current = some (m, t)) (hcount : v.callback.beforeCount = 1)
    (hrtt : v.callback.beforeRtt = 1) : cfg.maxIter < v.it := by
  obtain ⟨earlier, hdata, hlen⟩ := hi.split hcur hcount
  have hfull := hi.full_of_done hpos
  -- the current message comes after those that filled the buffer
  rw [rttDone, hrtt, hdata] at hfull
  rw [UInt32.lt_iff_toNat_lt, hlen]
  simpa using hfull

end Reception

/-- After the post of `done_receiving` the callback leaves both buffers alone. -/
theorem buffers_kept (hi : (reception s).Inv o cfg) (hpos : 0 < s.hist.donePosts)
    (h : CallbackMove o cfg s s') : s'.receiveTs = s.receiveTs ∧ s'.rttTs = s.rttTs := by
  have hview : (reception s).callback = s.callback.arrival := rfl
  cases h with
  | storeReceive m t x buf hpc htopic hit hx hbuf =>
      rw [hpc] at hview
      have hlt := hi.not_writing (m := m) (t := t) hpos
        (by simp [hview, CallbackPC.arrival, CallbackPC.current, htopic])
        (by simp [hview, CallbackPC.arrival, CallbackPC.beforeCount, htopic])
        (by simp [hview, CallbackPC.arrival, CallbackPC.beforeRtt, htopic])
      exact absurd (UInt32.lt_trans hlt hit) (UInt32.lt_irrefl _)
  | storeRtt m t x buf hpc hbuf =>
      rw [hpc] at hview
      have hlt := hi.not_writing (m := m) (t := t) hpos
        (by simp [hview, CallbackPC.arrival, CallbackPC.current])
        (by simp [hview, CallbackPC.arrival, CallbackPC.beforeCount])
        (by simp [hview, CallbackPC.arrival, CallbackPC.beforeRtt])
      exact absurd (UInt32.lt_trans hlt (hi.storing m t x hview).1) (UInt32.lt_irrefl _)
  | _ => exact ⟨rfl, rfl⟩

/-- A data message that is being handled has arrived. -/
theorem arrived_of_current (hi : (reception s).Inv o cfg) {p : Message ι × UInt64}
    (hcur : s.callback.arrival.current = some p) :
    ∃ p ∈ s.hist.arrivals, p.1.topicName ≠ pubkill := by
  obtain ⟨earlier, hdata⟩ := hi.last p hcur
  have hmem : p ∈ dataMessages s := by
    show p ∈ (reception s).data
    rw [hdata]
    simp
  rw [dataMessages, List.mem_filter] at hmem
  exact ⟨p, hmem.1, by simpa [isData] using hmem.2⟩

/-- **The receive buffers**, for one subscribe thread and fewer than 2³² data
messages.  `msgarrvd` stores in bounds of an allocated buffer; slot `i` holds
the receive time and the sample of exactly the `i`-th data message that was
dealt with (between two messages: of all), the other slots 0, until `main`
sorts `rtt_ts`; `pubkill` messages are not counted and each is posted once;
`done_receiving` is posted at most once, after every slot is written, and no
slot is written after it. -/
theorem receive_buffers (o : ByteOrder) (cfg : Config) (hsubs : cfg.numSubs = 1) (s : State ι)
    (h : (system o cfg).Reachable s) (hcount : (dataMessages s).length < 2 ^ 32) :
    (∀ m t, s.callback = .arrived m t → m.topicName ≠ pubkill → s.it < cfg.maxIter →
      ∃ b, s.receiveTs = some b ∧ s.it.toNat < b.length)
    ∧ (∀ m t x, s.callback = .storeRtt m t x → s.it < cfg.maxIter ∧
      ∃ b, s.rttTs = some b ∧ s.it.toNat < b.length)
    ∧ (∀ b, s.receiveTs = some b → b.length = cfg.maxIter.toNat ∧
      ∀ i < cfg.maxIter.toNat, b[i]? = some (((reception s).receiveDone.map (·.2)).getD i 0))
    ∧ (s.main.summarised = false → ∀ b, s.rttTs = some b → b.length = cfg.maxIter.toNat ∧
      ∀ i < cfg.maxIter.toNat,
        (∀ p, (reception s).rttDone[i]? = some p →
          ∃ x, sampleOf o p.1 p.2 = some x ∧ b[i]? = some x)
        ∧ ((reception s).rttDone[i]? = none → b[i]? = some 0))
    ∧ (s.callback.arrival.beforeCount = 0 → (reception s).receiveDone = dataMessages s
      ∧ (reception s).rttDone = dataMessages s)
    ∧ s.it.toNat + s.callback.arrival.beforeCount = (dataMessages s).length
    ∧ s.hist.killPosts + s.callback.arrival.beforeKill = killMessages s
    ∧ s.hist.donePosts ≤ 1
    ∧ (0 < s.hist.donePosts → cfg.maxIter.toNat < (reception s).rttDone.length
      ∧ cfg.maxIter.toNat < (reception s).receiveDone.length)
    ∧ (0 < s.hist.donePosts → ∀ t, step o cfg s .callback = some t →
      t.receiveTs = s.receiveTs ∧ t.rttTs = s.rttTs) := by
  have hi := reception_inv hsubs h hcount
  refine ⟨?_, ?_, ?_, ?_,
    (reception s).done_of_idle, hi.it, hi.kill, hi.done_le_one, ?_, ?_⟩
  · intro m t hcb htopic hit
    have hdata := arrived_of_current (p := (m, t)) hi
      (by simp [hcb, CallbackPC.arrival, CallbackPC.current, htopic])
    obtain ⟨b, hb⟩ := Option.ne_none_iff_exists'.mp (allocated_of_data hsubs h hdata).1
    refine ⟨b, hb, ?_⟩
    rw [hi.receive_length hb]
    exact UInt32.lt_iff_toNat_lt.mp hit
  · intro m t x hcb
    have hdata := arrived_of_current (p := (m, t)) hi
      (by simp [hcb, CallbackPC.arrival, CallbackPC.current])
    obtain ⟨b, hb⟩ := Option.ne_none_iff_exists'.mp (allocated_of_data hsubs h hdata).2
    have hit := (hi.storing m t x (by simp [reception, hcb, CallbackPC.arrival])).1
    refine ⟨hit, b, hb, ?_⟩
    rw [hi.rttLen b hb]
    exact UInt32.lt_iff_toNat_lt.mp hit
  · intro b hb
    exact ⟨hi.receive_length hb, fun i hlt => hi.receive_slot hb hlt⟩
  · intro hsum b hb
    exact ⟨hi.rttLen b hb, fun i hlt =>
      ⟨fun p hp => hi.rtt_slot hsum hb hlt hp, fun hp => hi.rtt_slot_zero hsum hb hlt hp⟩⟩
  · intro hpos
    have hfull := hi.full_of_done hpos
    exact ⟨hfull, hfull.trans_le (Reception.rttDone_length_le _)⟩
  · intro hpos t hstep
    have hm : CallbackMove o cfg s t := by
      unfold step at hstep
      split at hstep
      next => exact callbackStep_move hstep
      next => cases hstep
    exact buffers_kept hi hpos hm

/-- A publisher and a subscriber; 20 data messages with a `pubkill` message
among them, another `pubkill`, the data message that makes the post, and one
more, which has just arrived. -/
def fullSchedule : List (Action Unit) :=
  List.replicate 7 (.main granted) ++ List.replicate 4 (.sub 0 granted)
    ++ List.replicate 3 (.pub 0 granted)
    ++ (List.range 7).flatMap dataCall ++ killCall ++ (List.range' 7 13).flatMap dataCall ++ killCall
    ++ fullCall 20 ++ [.arrive (dataMessage () "topic") 21]

/-- `--pub=topic --sub=topic`, every other option at its default: the buffers
are full, each message has its slot, and the last one changes none. -/
theorem receive_buffers_full :
    ∃ s : State Unit,
      (system .little (Config.default ["topic"] ["topic"])).run fullSchedule initial = some s
      ∧ s.hist.donePosts = 1 ∧ s.hist.killPosts = 2
      ∧ (∃ b, s.receiveTs = some b ∧ b.length = 20
        ∧ ∀ i < 20, b[i]? = some (((reception s).receiveDone.map (·.2)).getD i 0))
      ∧ (∃ t, step .little (Config.default ["topic"] ["topic"]) s .callback = some t
        ∧ t.receiveTs = s.receiveTs ∧ t.rttTs = s.rttTs) := by
  -- the run, and what it leaves
  have hrun : ((system .little (Config.default ["topic"] ["topic"])).run fullSchedule initial).map
      (fun s => (s.hist.donePosts, (dataMessages s).length, killMessages s,
        s.callback.arrival.beforeKill, s.receiveTs.isSome,
        (step .little (Config.default ["topic"] ["topic"]) s .callback).isSome))
      = some (1, 22, 2, 0, true, true) := rfl
  obtain ⟨s, hs, hfacts⟩ := Option.map_eq_some_iff.mp hrun
  simp only [Prod.mk.injEq] at hfacts
  obtain ⟨hdone, hdata, hkill, hbefore, hsome, hnext⟩ := hfacts
  obtain ⟨-, -, hreceive, -, -, -, hkills, -, -, hkept⟩ := receive_buffers .little
    (Config.default ["topic"] ["topic"]) rfl s (leads_of_run _ hs) (by omega)
  obtain ⟨b, hb⟩ := Option.isSome_iff_exists.mp hsome
  obtain ⟨t, ht⟩ := Option.isSome_iff_exists.mp hnext
  refine ⟨s, hs, hdone, by omega, ⟨b, hb, ?_⟩, t, ht, hkept (by omega) t ht⟩
  exact hreceive b hb

end MqttBenchmark.Process
