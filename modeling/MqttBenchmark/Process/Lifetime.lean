/-
  MqttBenchmark.Process.Lifetime
  ──────────────────────────────
  **SEMAPHORES ARE USED AFTER `main` DESTROYED THEM.**

  `main` destroys all three semaphores as soon as it has created the
  threads, before it joins any of them.

    • `uses` — the semaphore a step waits on, tries or posts,
    • `lifetime_iff` — every use lies in the life time only for a process
      whose threads never get to use one.
-/
import MqttBenchmark.Process.Shutdown

namespace MqttBenchmark.Process

open Lib Lib.System Function

variable {ι : Type} {o : ByteOrder} {cfg : Config} {s s' t : State ι}

/-! ## §1. Uses of the semaphores. -/

/-- The semaphores of `mqtt.c`. -/
inductive SemName where
  | doneReceiving
  | stopPublish
  | qos1Pubmutex
  deriving DecidableEq, Repr

def State.sem (s : State ι) : SemName → Sem
  | .doneReceiving => s.doneReceiving
  | .stopPublish => s.stopPublish
  | .qos1Pubmutex => s.qos1Pubmutex

def SubPC.uses : SubPC → Option SemName
  | .waitDone | .inWaitDone => some .doneReceiving
  | .postStop => some .stopPublish
  | _ => none

def PubPC.uses : PubPC → Option SemName
  | .postMutex => some .qos1Pubmutex
  | .tryStop => some .stopPublish
  | _ => none

/-- `msgarrvd` posts for `pubkill`, and for the message after the last slot. -/
def callbackUses (cfg : Config) (s : State ι) : Option SemName :=
  match s.callback with
  | .delivered _ _ | .inWaitMutex _ _ => some .qos1Pubmutex
  | .arrived m _ =>
      if m.topicName = pubkill then some .stopPublish
      else if s.it = cfg.maxIter then some .doneReceiving
      else none
  | _ => none

/-- The semaphore an action uses, other than by `sem_init` and `sem_destroy`. -/
def uses (cfg : Config) (s : State ι) : Action ι → Option SemName
  | .sub i _ => (s.subs i).uses
  | .pub i _ => (s.pubs i).pc.uses
  | .callback => callbackUses cfg s
  | _ => none

/-- The semaphore `main` destroys next. -/
def MainPC.destroys : MainPC → Option SemName
  | .destroyDone => some .doneReceiving
  | .destroyStop => some .stopPublish
  | .destroyMutex => some .qos1Pubmutex
  | _ => none

/-- A thread is suspended in `sem_wait` on the semaphore. -/
def blockedOn (s : State ι) : SemName → Prop
  | .doneReceiving => ∃ i, s.subs i = .inWaitDone
  | .stopPublish => False
  | .qos1Pubmutex => ∃ n dt, s.callback = .inWaitMutex n dt

/-- Every use is of a live semaphore, and none is destroyed under a thread
blocked on it. -/
structure LifetimeSafe (o : ByteOrder) (cfg : Config) (s : State ι) : Prop where
  live : ∀ a x t, step o cfg s a = some t → uses cfg s a = some x → (s.sem x).stage = .live
  unblocked : s.outcome = .running → ∀ x, s.main.destroys = some x → ¬ blockedOn s x

/-! ## §2. A process that uses none. -/

/-- Nobody has subscribed and no callback runs. -/
structure Early (s : State ι) : Prop where
  subs : ∀ i, (s.subs i).early = true
  callback : s.callback = .idle
  subscribed : s.paho.subscribed = []
  inflight : s.paho.inflight = []

/-- Without a subscription and a publish no callback is ever started. -/
theorem no_callback (hpubs : cfg.numPubs = 0) (hqos : 2 < cfg.qos)
    (h : (system o cfg).Reachable s) :
    s.callback = .idle ∧ s.paho.subscribed = [] ∧ s.paho.inflight = [] := by
  apply reachable_induct (P := fun s : State ι =>
    s.callback = .idle ∧ s.paho.subscribed = [] ∧ s.paho.inflight = []) h ⟨rfl, rfl, rfl⟩
  intro s s' hs _ ih hm
  obtain ⟨hcb, hsub, hfl⟩ := ih
  cases hm with
  | main h =>
      have f := h.frame
      rw [f.callback, f.paho]
      exact ⟨hcb, hsub, hfl⟩
  | sub i h =>
      have f := h.frame
      rw [f.callback, f.inflight]
      refine ⟨hcb, ?_, hfl⟩
      cases h with
      -- the library refuses the QoS, so no filter is added
      | subscribe hpc hle hlost => exact absurd hle (UInt32.not_le.mpr hqos)
      | _ => exact hsub
  | pub i h =>
      rcases h.lt_numPubs hs with rfl | hlt
      · exact ⟨hcb, hsub, hfl⟩
      · omega
  | callback h =>
      cases h with
      | take n dt d hpc hd =>
          rw [hcb] at hpc
          simp at hpc
      | fault => exact ⟨hcb, hsub, hfl⟩
      | _ =>
          rw [‹s.callback = _›] at hcb
          cases hcb
  | paho h =>
      cases h with
      | arrive m t hpc hmatch =>
          rw [hsub] at hmatch
          simp [couldMatch] at hmatch
      | confirm k n dt hpc hk =>
          rw [hfl] at hk
          simp at hk
      | lose => exact ⟨hcb, hsub, hfl⟩

/-- Without publish threads and with a refused QoS nothing is ever received. -/
theorem early (hpubs : cfg.numPubs = 0) (hqos : 2 < cfg.qos) (h : (system o cfg).Reachable s) :
    Early s := by
  obtain ⟨hcb, hsub, hfl⟩ := no_callback hpubs hqos h
  exact ⟨sub_early hqos h, hcb, hsub, hfl⟩

theorem lifetime_safe (hpubs : cfg.numPubs = 0) (hqos : 2 < cfg.qos)
    (h : (system o cfg).Reachable s) : LifetimeSafe o cfg s := by
  -- no thread gets to a semaphore: what exists has not subscribed
  have he := early hpubs hqos h
  have hsub : ∀ i, (s.subs i).uses = none := by
    intro i
    have hpc := he.subs i
    cases hs : s.subs i <;> rw [hs] at hpc <;> first | rfl | cases hpc
  have hpub : ∀ i, (s.pubs i).pc.uses = none := by
    intro i
    rw [pub_absent h (by omega)]
    rfl
  constructor
  · intro a x t _ hx
    cases a with
    | sub i e => simp [uses, hsub i] at hx
    | pub i e => simp [uses, hpub i] at hx
    | callback => simp [uses, callbackUses, he.callback] at hx
    | _ => cases hx
  · intro _ x _ hx
    cases x with
    | doneReceiving =>
        obtain ⟨i, hi⟩ := hx
        have hpc := he.subs i
        rw [hi] at hpc
        cases hpc
    | stopPublish => exact hx
    | qos1Pubmutex =>
        obtain ⟨n, dt, hcb⟩ := hx
        rw [he.callback] at hcb
        cases hcb

/-! ## §3. Every other process. -/

/-- A `pubkill` message posts the destroyed `stop_publish`. -/
theorem stop_used_after_destroy [Inhabited ι] (cfg : Config) (hpubs : 0 < cfg.numPubs) :
    ∃ s : State ι, (system o cfg).Reachable s ∧ ¬ LifetimeSafe o cfg s := by
  refine ⟨_, (leads_destroyed.trans (leads_pub_subscribed 0 rfl (destroyed₀_pubs hpubs) rfl)).trans
    (leads_arrive ⟨pubkill, [], [], default⟩ 0 rfl rfl rfl
      ⟨pubkill, List.mem_cons_self, fun _ => rfl⟩), ?_⟩
  -- the callback is about to post, and `main` is past its `sem_destroy`
  intro hsafe
  have hlive := hsafe.live .callback .stopPublish _ rfl rfl
  cases hlive

/-- A subscribe thread waits on the destroyed `done_receiving`. -/
theorem done_used_after_destroy (cfg : Config) (hsubs : 0 < cfg.numSubs) (hqos : cfg.qos ≤ 2) :
    ∃ s : State ι, (system o cfg).Reachable s ∧ ¬ LifetimeSafe o cfg s := by
  refine ⟨_, leads_destroyed.trans (leads_sub_subscribed 0 rfl (destroyed₀_subs hsubs) rfl hqos), ?_⟩
  intro hsafe
  have hlive := hsafe.live (.sub 0 granted) .doneReceiving _ (by rfl) rfl
  cases hlive

/-- **The semaphores are used within their life time exactly when no thread
gets to use one**: no publish thread, and a QoS the library refuses. -/
theorem lifetime_iff [Inhabited ι] (o : ByteOrder) (cfg : Config)
    (hsome : 0 < cfg.numPubs ∨ 0 < cfg.numSubs) :
    (∀ s : State ι, (system o cfg).Reachable s → LifetimeSafe o cfg s)
      ↔ cfg.numPubs = 0 ∧ 2 < cfg.qos := by
  constructor
  · intro hall
    have hpubs : cfg.numPubs = 0 := by
      by_contra hne
      obtain ⟨s, hs, hbad⟩ :=
        stop_used_after_destroy (ι := ι) (o := o) cfg (Nat.pos_of_ne_zero hne)
      exact hbad (hall s hs)
    refine ⟨hpubs, ?_⟩
    by_contra hqos
    obtain ⟨s, hs, hbad⟩ := done_used_after_destroy (ι := ι) (o := o) cfg
      (hsome.resolve_left (by omega)) (by grind)
    exact hbad (hall s hs)
  · intro h s hs
    obtain ⟨hpubs, hqos⟩ := h
    exact lifetime_safe hpubs hqos hs

/-- At `--pub=topic`: not the case. -/
theorem lifetime_iff_default :
    (∀ s : State Unit, (system .little (Config.default ["topic"] [])).Reachable s →
        LifetimeSafe .little (Config.default ["topic"] []) s)
      ↔ (Config.default ["topic"] []).numPubs = 0 ∧ 2 < (Config.default ["topic"] []).qos :=
  lifetime_iff .little (Config.default ["topic"] []) (.inl (by decide))

/-- `--pub=topic`: a `pubkill` message posts a destroyed semaphore. -/
theorem lifetime_fails_for_one_publisher :
    ¬ ∀ s : State Unit, (system .little (Config.default ["topic"] [])).Reachable s →
        LifetimeSafe .little (Config.default ["topic"] []) s := by
  intro hall
  obtain ⟨s, hs, hbad⟩ := stop_used_after_destroy (ι := Unit) (o := .little)
    (Config.default ["topic"] []) (by decide)
  exact hbad (hall s hs)

end MqttBenchmark.Process
