/-
  MqttBenchmark.Process.Frames
  ────────────────────────────
  **WHAT A STEP LEAVES ALONE, AND WHICH THREADS EXIST.**

    • the frames: the parts of the state a move of one thread never writes,
    • `Spawned` — which threads exist, from the program counter of `main`,
    • `Startup` — before the threads exist nothing else has happened,
    • `step_local`, `step_pub`, `step_arrive` — what one action can do,
    • `seen` — every sample belongs to a message that arrived.
-/
import MqttBenchmark.Process.Moves

namespace MqttBenchmark.Process

open Lib Function

variable {ι : Type} {o : ByteOrder} {cfg : Config} {s s' : State ι}

/-! ## §1. Frames. -/

/-- `main` writes neither the library's state nor the callback's. -/
structure MainFrame (s s' : State ι) : Prop where
  callback : s'.callback = s.callback
  deliveredtoken : s'.deliveredtoken = s.deliveredtoken
  receiveTs : s'.receiveTs = s.receiveTs
  it : s'.it = s.it
  paho : s'.paho = s.paho
  arrivals : s'.hist.arrivals = s.hist.arrivals
  recorded : s'.hist.recorded = s.hist.recorded
  killPosts : s'.hist.killPosts = s.hist.killPosts
  endPosts : s'.hist.endPosts = s.hist.endPosts
  donePosts : s'.hist.donePosts = s.hist.donePosts

theorem MainMove.frame (h : MainMove cfg s s') : MainFrame s s' := by
  cases h <;> exact ⟨rfl, rfl, rfl, rfl, rfl, rfl, rfl, rfl, rfl, rfl⟩

/-- A subscribe thread writes the buffers, two semaphores and itself. -/
structure SubFrame (i : Nat) (s s' : State ι) : Prop where
  main : s'.main = s.main
  pubs : s'.pubs = s.pubs
  callback : s'.callback = s.callback
  qos1Pubmutex : s'.qos1Pubmutex = s.qos1Pubmutex
  deliveredtoken : s'.deliveredtoken = s.deliveredtoken
  it : s'.it = s.it
  subTid : s'.subTid = s.subTid
  pubTid : s'.pubTid = s.pubTid
  issued : s'.paho.issued = s.paho.issued
  inflight : s'.paho.inflight = s.paho.inflight
  confirmed : s'.paho.confirmed = s.paho.confirmed
  arrivals : s'.hist.arrivals = s.hist.arrivals
  recorded : s'.hist.recorded = s.hist.recorded
  killPosts : s'.hist.killPosts = s.hist.killPosts
  donePosts : s'.hist.donePosts = s.hist.donePosts
  subJoins : s'.hist.subJoins = s.hist.subJoins
  pubJoins : s'.hist.pubJoins = s.hist.pubJoins
  others : ∀ j, j ≠ i → s'.subs j = s.subs j
  absent : ∀ j, s'.subs j = .absent ↔ s.subs j = .absent

theorem SubMove.frame {i : Nat} (h : SubMove cfg s i s') : SubFrame i s s' := by
  cases h <;> constructor <;> intros <;> simp [update_apply] <;> grind

/-- A publish thread writes the token, two semaphores, the library's
records and itself. -/
structure PubFrame (i : Nat) (s s' : State ι) : Prop where
  main : s'.main = s.main
  subs : s'.subs = s.subs
  callback : s'.callback = s.callback
  doneReceiving : s'.doneReceiving = s.doneReceiving
  receiveTs : s'.receiveTs = s.receiveTs
  rttTs : s'.rttTs = s.rttTs
  it : s'.it = s.it
  subTid : s'.subTid = s.subTid
  pubTid : s'.pubTid = s.pubTid
  confirmed : s'.paho.confirmed = s.paho.confirmed
  hist : s'.hist = s.hist
  others : ∀ j, j ≠ i → s'.pubs j = s.pubs j
  absent : ∀ j, (s'.pubs j).pc = .absent ↔ (s.pubs j).pc = .absent

theorem PubMove.frame {i : Nat} (h : PubMove cfg s i s') : PubFrame i s s' := by
  cases h <;> constructor <;> intros <;> simp [update_apply] <;> grind

/-- The callback thread writes no program counter but its own. -/
structure CallbackFrame (s s' : State ι) : Prop where
  main : s'.main = s.main
  subs : s'.subs = s.subs
  pubs : s'.pubs = s.pubs
  subTid : s'.subTid = s.subTid
  pubTid : s'.pubTid = s.pubTid
  subscribed : s'.paho.subscribed = s.paho.subscribed
  issued : s'.paho.issued = s.paho.issued
  inflight : s'.paho.inflight = s.paho.inflight
  arrivals : s'.hist.arrivals = s.hist.arrivals
  endPosts : s'.hist.endPosts = s.hist.endPosts
  subJoins : s'.hist.subJoins = s.hist.subJoins
  pubJoins : s'.hist.pubJoins = s.hist.pubJoins

theorem CallbackMove.frame (h : CallbackMove o cfg s s') : CallbackFrame s s' := by
  cases h <;> exact ⟨rfl, rfl, rfl, rfl, rfl, rfl, rfl, rfl, rfl, rfl, rfl, rfl⟩

/-- The library writes its own records and starts callbacks. -/
structure PahoFrame (s s' : State ι) : Prop where
  main : s'.main = s.main
  subs : s'.subs = s.subs
  pubs : s'.pubs = s.pubs
  outcome : s'.outcome = s.outcome
  doneReceiving : s'.doneReceiving = s.doneReceiving
  stopPublish : s'.stopPublish = s.stopPublish
  qos1Pubmutex : s'.qos1Pubmutex = s.qos1Pubmutex
  deliveredtoken : s'.deliveredtoken = s.deliveredtoken
  receiveTs : s'.receiveTs = s.receiveTs
  rttTs : s'.rttTs = s.rttTs
  it : s'.it = s.it
  subTid : s'.subTid = s.subTid
  pubTid : s'.pubTid = s.pubTid
  subscribed : s'.paho.subscribed = s.paho.subscribed
  issued : s'.paho.issued = s.paho.issued
  confirmed : s'.paho.confirmed = s.paho.confirmed
  recorded : s'.hist.recorded = s.hist.recorded
  killPosts : s'.hist.killPosts = s.hist.killPosts
  endPosts : s'.hist.endPosts = s.hist.endPosts
  donePosts : s'.hist.donePosts = s.hist.donePosts
  subJoins : s'.hist.subJoins = s.hist.subJoins
  pubJoins : s'.hist.pubJoins = s.hist.pubJoins

theorem PahoMove.frame (h : PahoMove s s') : PahoFrame s s' := by
  cases h <;> constructor <;> rfl

/-! ## §2. Which threads exist. -/

/-- Subscribe threads created so far. -/
def MainPC.subsMade (cfg : Config) : MainPC → Nat
  | .initDone | .initStop | .initMutex => 0
  | .createSubs i => i
  | _ => cfg.numSubs

/-- Publish threads created so far. -/
def MainPC.pubsMade (cfg : Config) : MainPC → Nat
  | .initDone | .initStop | .initMutex | .createSubs _ => 0
  | .createPubs i => i
  | _ => cfg.numPubs

/-- The handle kept after `n` creations: the last one. -/
def lastTid : Nat → Option Nat
  | 0 => none
  | n + 1 => some n

/-- The threads that exist are the ones `main` created. -/
structure Spawned (cfg : Config) (s : State ι) : Prop where
  subsLe : s.main.subsMade cfg ≤ cfg.numSubs
  pubsLe : s.main.pubsMade cfg ≤ cfg.numPubs
  subs : ∀ i, s.subs i = .absent ↔ s.main.subsMade cfg ≤ i
  pubs : ∀ i, (s.pubs i).pc = .absent ↔ s.main.pubsMade cfg ≤ i
  subTid : s.subTid = lastTid (s.main.subsMade cfg)
  pubTid : s.pubTid = lastTid (s.main.pubsMade cfg)

theorem Spawned.main_move (hs : Spawned cfg s) (h : MainMove cfg s s') : Spawned cfg s' := by
  obtain ⟨h1, h2, h3, h4, h5, h6⟩ := hs
  cases h with
  | createSub i hpc hi =>
      -- thread `i` is the one that has been missing
      rw [hpc] at h1 h2 h3 h4 h5 h6
      refine ⟨hi, h2, ?_, h4, rfl, h6⟩
      intro j
      have hj := h3 j
      simp only [MainPC.subsMade, update_apply] at hj ⊢
      split
      next heq => simp; omega
      next hne => rw [hj]; omega
  | subsCreated i hpc hi =>
      rw [hpc] at h1 h2 h3 h4 h5 h6
      simp only [MainPC.subsMade] at h1 h3 h5
      -- the loop ends with its counter at the bound
      obtain rfl : i = cfg.numSubs := by omega
      exact ⟨h1, Nat.zero_le _, h3, h4, h5, h6⟩
  | createPub i hpc hi =>
      rw [hpc] at h1 h2 h3 h4 h5 h6
      refine ⟨h1, hi, h3, ?_, h5, rfl⟩
      intro j
      have hj := h4 j
      simp only [MainPC.pubsMade, update_apply] at hj ⊢
      split
      next heq => simp [PubThread.fresh]; omega
      next hne => rw [hj]; omega
  | pubsCreated i hpc hi =>
      rw [hpc] at h1 h2 h3 h4 h5 h6
      simp only [MainPC.pubsMade] at h2 h4 h6
      obtain rfl : i = cfg.numPubs := by omega
      exact ⟨h1, h2, h3, h4, h5, h6⟩
  | _ =>
      rw [‹s.main = _›] at h1 h2 h3 h4 h5 h6
      exact ⟨h1, h2, h3, h4, h5, h6⟩

theorem Spawned.congr (hs : Spawned cfg s) (hmain : s'.main = s.main)
    (hsubs : ∀ j, s'.subs j = .absent ↔ s.subs j = .absent)
    (hpubs : ∀ j, (s'.pubs j).pc = .absent ↔ (s.pubs j).pc = .absent)
    (hst : s'.subTid = s.subTid) (hpt : s'.pubTid = s.pubTid) : Spawned cfg s' := by
  obtain ⟨h1, h2, h3, h4, h5, h6⟩ := hs
  refine ⟨?_, ?_, fun j => ?_, fun j => ?_, ?_, ?_⟩ <;> rw [hmain]
  · exact h1
  · exact h2
  · rw [hsubs, h3]
  · rw [hpubs, h4]
  · rw [hst, h5]
  · rw [hpt, h6]

/-- In every reachable state the threads that exist are the ones created. -/
theorem spawned (h : (system o cfg).Reachable s) : Spawned cfg s := by
  refine reachable_induct h ?_ ?_
  · exact ⟨Nat.zero_le _, Nat.zero_le _, fun i => by simp [initial, MainPC.subsMade],
      fun i => by simp [initial, MainPC.pubsMade], rfl, rfl⟩
  · intro s s' _ _ hs hm
    cases hm with
    | main h => exact hs.main_move h
    | sub i h =>
        have f := h.frame
        exact hs.congr f.main f.absent (by simp [f.pubs]) f.subTid f.pubTid
    | pub i h =>
        have f := h.frame
        exact hs.congr f.main (by simp [f.subs]) f.absent f.subTid f.pubTid
    | callback h =>
        have f := h.frame
        exact hs.congr f.main (by simp [f.subs]) (by simp [f.pubs]) f.subTid f.pubTid
    | paho h =>
        have f := h.frame
        exact hs.congr f.main (by simp [f.subs]) (by simp [f.pubs]) f.subTid f.pubTid

/-- A thread that has left `absent` was created. -/
theorem sub_lt (h : (system o cfg).Reachable s) {i : Nat} (hi : s.subs i ≠ .absent) :
    i < s.main.subsMade cfg := by
  rw [Ne, (spawned h).subs i] at hi
  omega

theorem pub_lt (h : (system o cfg).Reachable s) {i : Nat} (hi : (s.pubs i).pc ≠ .absent) :
    i < s.main.pubsMade cfg := by
  rw [Ne, (spawned h).pubs i] at hi
  omega

theorem sub_lt_numSubs (h : (system o cfg).Reachable s) {i : Nat} (hi : s.subs i ≠ .absent) :
    i < cfg.numSubs := by
  have hlt := sub_lt h hi
  have hle := (spawned h).subsLe
  omega

theorem pub_lt_numPubs (h : (system o cfg).Reachable s) {i : Nat}
    (hi : (s.pubs i).pc ≠ .absent) : i < cfg.numPubs := by
  have hlt := pub_lt h hi
  have hle := (spawned h).pubsLe
  omega

theorem sub_absent (h : (system o cfg).Reachable s) {i : Nat} (hi : cfg.numSubs ≤ i) :
    s.subs i = .absent := by
  by_contra hne
  have hlt := sub_lt_numSubs h hne
  omega

theorem pub_absent (h : (system o cfg).Reachable s) {i : Nat} (hi : cfg.numPubs ≤ i) :
    (s.pubs i).pc = .absent := by
  by_contra hne
  have hlt := pub_lt_numPubs h hne
  omega

/-- The thread a move belongs to exists, unless the move is `exit`. -/
theorem SubMove.made {i : Nat} (hs : (system o cfg).Reachable s) (h : SubMove cfg s i s') :
    s' = s.exit ∨ i < s.main.subsMade cfg := by
  cases h with
  | exit => exact .inl rfl
  | passed d hpc hd => exact .inr (sub_lt hs (by rcases hpc with hpc | hpc <;> rw [hpc] <;> simp))
  | _ => exact .inr (sub_lt hs (by rw [‹s.subs i = _›]; simp))

theorem PubMove.made {i : Nat} (hs : (system o cfg).Reachable s) (h : PubMove cfg s i s') :
    s' = s.exit ∨ i < s.main.pubsMade cfg := by
  cases h with
  | exit => exact .inl rfl
  | _ => exact .inr (pub_lt hs (by rw [‹(s.pubs i).pc = _›]; simp))

theorem SubMove.lt_numSubs {i : Nat} (hs : (system o cfg).Reachable s) (h : SubMove cfg s i s') :
    s' = s.exit ∨ i < cfg.numSubs := by
  rcases h.made hs with hexit | hlt
  · exact .inl hexit
  · have hle := (spawned hs).subsLe
    right
    omega

theorem PubMove.lt_numPubs {i : Nat} (hs : (system o cfg).Reachable s) (h : PubMove cfg s i s') :
    s' = s.exit ∨ i < cfg.numPubs := by
  rcases h.made hs with hexit | hlt
  · exact .inl hexit
  · have hle := (spawned hs).pubsLe
    right
    omega

/-! ## §3. Before the threads. -/

/-- `main` has not initialised all semaphores yet. -/
def MainPC.initialising : MainPC → Bool
  | .initDone | .initStop | .initMutex => true
  | _ => false

theorem MainPC.made_of_initialising {pc : MainPC} (h : pc.initialising = true) :
    pc.subsMade cfg = 0 ∧ pc.pubsMade cfg = 0 := by
  cases pc <;> simp [initialising, subsMade, pubsMade] at h ⊢

/-- Nothing but `main` has run. -/
structure Untouched (s : State ι) : Prop where
  callback : s.callback = .idle
  deliveredtoken : s.deliveredtoken = -1
  receiveTs : s.receiveTs = none
  rttTs : s.rttTs = none
  it : s.it = 0
  subscribed : s.paho.subscribed = []
  issued : s.paho.issued = 0
  inflight : s.paho.inflight = []
  confirmed : s.paho.confirmed = []
  hist : s.hist = initial.hist

/-- **While `main` initialises the semaphores nothing else has happened.** -/
theorem startup (h : (system o cfg).Reachable s) : s.main.initialising = true → Untouched s := by
  refine reachable_induct (P := fun s => s.main.initialising = true → Untouched s) h ?_ ?_
  · intro _
    exact ⟨rfl, rfl, rfl, rfl, rfl, rfl, rfl, rfl, rfl, rfl⟩
  intro s s' hs _ ih hm hinit
  cases hm with
  | main h =>
      -- `main` never goes back to the initialisation
      have hpre : s.main.initialising = true := by
        cases h <;> first | (simp [MainPC.initialising] at hinit; done) | (rw [‹s.main = _›]; rfl)
      obtain ⟨h1, h2, h3, h4, h5, h6, h7, h8, h9, h10⟩ := ih hpre
      cases h <;> first
        | exact ⟨h1, h2, h3, h4, h5, h6, h7, h8, h9, h10⟩
        | (rw [‹s.main = _›] at hpre; simp [MainPC.initialising] at hpre)
  | sub i h =>
      rw [h.frame.main] at hinit
      rcases h.made hs with rfl | hlt
      · obtain ⟨h1, h2, h3, h4, h5, h6, h7, h8, h9, h10⟩ := ih hinit
        exact ⟨h1, h2, h3, h4, h5, h6, h7, h8, h9, h10⟩
      · rw [(MainPC.made_of_initialising hinit).1] at hlt
        omega
  | pub i h =>
      rw [h.frame.main] at hinit
      rcases h.made hs with rfl | hlt
      · obtain ⟨h1, h2, h3, h4, h5, h6, h7, h8, h9, h10⟩ := ih hinit
        exact ⟨h1, h2, h3, h4, h5, h6, h7, h8, h9, h10⟩
      · rw [(MainPC.made_of_initialising hinit).2] at hlt
        omega
  | callback h =>
      rw [h.frame.main] at hinit
      obtain ⟨h1, h2, h3, h4, h5, h6, h7, h8, h9, h10⟩ := ih hinit
      cases h with
      | fault => exact ⟨h1, h2, h3, h4, h5, h6, h7, h8, h9, h10⟩
      | take n dt d hpc hd => rw [h1] at hpc; simp at hpc
      | _ => rw [h1] at *; contradiction
  | paho h =>
      rw [h.frame.main] at hinit
      obtain ⟨h1, h2, h3, h4, h5, h6, h7, h8, h9, h10⟩ := ih hinit
      cases h with
      -- no filter, no publish: nothing arrives and nothing is confirmed
      | arrive m t hpc hmatch => rw [h6] at hmatch; simp [couldMatch] at hmatch
      | confirm k n dt hpc hk => rw [h8] at hk; simp at hk
      | lose => exact ⟨h1, h2, h3, h4, h5, h6, h7, h8, h9, h10⟩

/-! ## §4. What one action can do. -/

/-- An action without a message and without a publish thread. -/
def Action.isLocal : Action ι → Prop
  | .pub _ _ | .arrive _ _ => False
  | _ => True

/-- What a local action leaves alone. -/
structure LocalFrame (s s' : State ι) : Prop where
  issued : s'.paho.issued = s.paho.issued
  arrivals : s'.hist.arrivals = s.hist.arrivals
  pubs : ∀ i, s'.pubs i = s.pubs i ∨ (s'.pubs i).pc = .start

theorem step_local {a : Action ι} (h : step o cfg s a = some s') (ha : a.isLocal) :
    LocalFrame s s' := by
  have hsame : ∀ {p : Nat → PubThread}, p = s.pubs → ∀ i, p i = s.pubs i ∨ (p i).pc = .start := by
    rintro p rfl i
    exact .inl rfl
  unfold step at h
  split at h
  next hrun =>
    cases a with
    | main e =>
        have hm := mainStep_move h
        refine ⟨by rw [hm.frame.paho], hm.frame.arrivals, ?_⟩
        cases hm with
        | createPub i hpc hi =>
            intro j
            by_cases hj : j = i
            · subst hj
              exact .inr (by simp [PubThread.fresh])
            · exact .inl (update_of_ne hj _ _)
        | _ => exact hsame rfl
    | sub i e =>
        have f := (subscribeStep_move h).frame
        exact ⟨f.issued, f.arrivals, hsame f.pubs⟩
    | callback =>
        have f := (callbackStep_move h).frame
        exact ⟨f.issued, f.arrivals, hsame f.pubs⟩
    | confirm k =>
        simp only at h
        split at h
        next => split at h <;> cases h; exact ⟨rfl, rfl, hsame rfl⟩
        next => cases h
    | lose => cases h; exact ⟨rfl, rfl, hsame rfl⟩
    | pub i e => exact ha.elim
    | arrive m x => exact ha.elim
  next => cases h

theorem step_running {a : Action ι} (h : step o cfg s a = some s') : s.outcome = .running :=
  (step_move h).1

theorem step_pub {i : Nat} {e : Answer} (h : step o cfg s (.pub i e) = some s') :
    PubMove cfg s i s' := by
  unfold step at h
  split at h
  next => exact publishStep_move h
  next => cases h

/-- Only at `publish` does a publish thread issue anything. -/
theorem step_pub_issued {i : Nat} {e : Answer} (h : step o cfg s (.pub i e) = some s')
    (hpc : (s.pubs i).pc ≠ .publish) : s'.paho.issued = s.paho.issued := by
  have hm := step_pub h
  cases hm with
  | publish tok hpc' htok hlost => exact absurd hpc' hpc
  | _ => rfl

/-- Losing the connection leaves everything else alone. -/
theorem step_lose (h : step o cfg s .lose = some s') :
    s' = { s with paho := { s.paho with lost := true } } := by
  unfold step at h
  split at h <;> cases h
  rfl

theorem step_arrive {m : Message ι} {x : UInt64} (h : step o cfg s (.arrive m x) = some s') :
    s.callback = .idle
      ∧ s' = { s with callback := .arrived m x,
                      hist := { s.hist with arrivals := s.hist.arrivals ++ [(m, x)] } } := by
  unfold step at h
  split at h
  next =>
    simp only at h
    split at h
    next hpc => split at h <;> cases h; exact ⟨hpc, rfl⟩
    next => cases h
  next => cases h

/-! ## §5. Every sample belongs to an arrival. -/

/-- The message being handled and the messages recorded have arrived, and the
samples are theirs. -/
structure Seen (o : ByteOrder) (s : State ι) : Prop where
  arrived : ∀ m x, s.callback = .arrived m x → (m, x) ∈ s.hist.arrivals
  storing : ∀ m x y, s.callback = .storeRtt m x y →
    (m, x) ∈ s.hist.arrivals ∧ sampleOf o m x = some y
  recorded : ∀ r ∈ s.hist.recorded, (r.1, r.2.1) ∈ s.hist.arrivals ∧ sampleOf o r.1 r.2.1 = some r.2.2

theorem Seen.congr (hs : Seen o s) (hcb : s'.callback = s.callback)
    (harr : s'.hist.arrivals = s.hist.arrivals) (hrec : s'.hist.recorded = s.hist.recorded) :
    Seen o s' := by
  obtain ⟨h1, h2, h3⟩ := hs
  exact ⟨by rwa [hcb, harr], by rwa [hcb, harr], by rwa [harr, hrec]⟩

theorem seen (h : (system o cfg).Reachable s) : Seen o s := by
  apply reachable_induct h ⟨by simp [initial], by simp [initial], by simp [initial]⟩
  intro s s' _ _ hs hm
  obtain ⟨h1, h2, h3⟩ := hs
  cases hm with
  | main h => exact Seen.congr ⟨h1, h2, h3⟩ h.frame.callback h.frame.arrivals h.frame.recorded
  | sub i h => exact Seen.congr ⟨h1, h2, h3⟩ h.frame.callback h.frame.arrivals h.frame.recorded
  | pub i h =>
      have f := h.frame
      exact Seen.congr ⟨h1, h2, h3⟩ f.callback (by rw [f.hist]) (by rw [f.hist])
  | callback h =>
      cases h with
      | storeReceive m x y buf hpc htopic hit hx hbuf =>
          refine ⟨by simp, ?_, h3⟩
          -- what is being stored is the sample just computed
          intro m' x' y' heq
          cases heq
          exact ⟨h1 m x hpc, hx⟩
      | storeRtt m x y buf hpc hbuf =>
          refine ⟨by simp, by simp, ?_⟩
          intro r hr
          rcases List.mem_append.mp hr with hr | hr
          · exact h3 r hr
          · rw [List.mem_singleton.mp hr]
            exact h2 m x y hpc
      | fault => exact ⟨h1, h2, h3⟩
      | _ => exact ⟨by simp, by simp, h3⟩
  | paho h =>
      cases h with
      | arrive m x hpc hmatch =>
          refine ⟨?_, by simp, ?_⟩
          · intro m' x' heq
            cases heq
            exact List.mem_append_right _ (List.mem_singleton_self _)
          · intro r hr
            exact ⟨List.mem_append_left _ (h3 r hr).1, (h3 r hr).2⟩
      | confirm k n dt hpc hk => exact ⟨by simp, by simp, h3⟩
      | lose => exact ⟨h1, h2, h3⟩

end MqttBenchmark.Process
