/-
  MqttBenchmark.Lib.Transition
  ────────────────────────────
  **LABELLED TRANSITION SYSTEMS WITH AN EXECUTABLE STEP.**

  A system is an initial state and a guarded step FUNCTION: `step s a` is
  `some s'` when action `a` is enabled in `s`, and `none` otherwise.  The
  same definition is replayed on concrete schedules (`run`) and reasoned
  about over all of them:

    • `Leads`     — reachability from a given state, as a closure,
    • `Reachable` — reachability from the initial state,
    • the induction rules `Leads.induct` and `Reachable.induct`, which turn
      a step lemma into a statement about whole runs,
    • `Stuck` — closed sets of states: once inside, never outside,
    • `reachable_congr` — systems that agree on what one of them reaches,
    • `LeadsWhen` — reachability by steps that all meet a condition.
-/
import Mathlib.Tactic.Common

namespace MqttBenchmark.Lib

/-- An initial state and a guarded, executable step. -/
structure System (σ α : Type*) where
  /-- Where every run starts. -/
  init : σ
  /-- One step of action `a`, when it is enabled. -/
  step : σ → α → Option σ

namespace System

variable {σ α : Type*} (M : System σ α)

/-! ## §1. Runs and reachability. -/

/-- Replay a schedule; `none` as soon as an action is not enabled. -/
def run : List α → σ → Option σ
  | [], s => some s
  | a :: as, s => (M.step s a).bind (run as)

/-- `Leads s t`: some schedule takes `s` to `t`. -/
inductive Leads (s : σ) : σ → Prop
  | refl : Leads s s
  | step {t u : σ} {a : α} (h : Leads s t) (hstep : M.step t a = some u) : Leads s u

/-- `t` is reachable when the initial state leads to it. -/
def Reachable (t : σ) : Prop := M.Leads M.init t

variable {M}

theorem Leads.single {s t : σ} {a : α} (h : M.step s a = some t) : M.Leads s t :=
  Leads.step Leads.refl h

theorem Leads.trans {s t u : σ} (h₁ : M.Leads s t) (h₂ : M.Leads t u) : M.Leads s u := by
  -- on the second run: its last step becomes the last step of the whole
  induction h₂ with
  | refl => exact h₁
  | step _ hstep ih => exact Leads.step ih hstep

theorem Reachable.init : M.Reachable M.init := Leads.refl

theorem Reachable.leads {s t : σ} (hs : M.Reachable s) (h : M.Leads s t) : M.Reachable t :=
  Leads.trans hs h

theorem Reachable.step {s t : σ} {a : α} (hs : M.Reachable s) (h : M.step s a = some t) :
    M.Reachable t :=
  Leads.step hs h

/-- A schedule that replays is a run. -/
theorem leads_of_run : ∀ (as : List α) {s t : σ}, M.run as s = some t → M.Leads s t
  | [], s, t, h => by
      injection h with h
      subst h
      exact Leads.refl
  | a :: as, s, t, h => by
      simp only [run, Option.bind_eq_some_iff] at h
      obtain ⟨u, hu, ht⟩ := h
      exact (Leads.single hu).trans (leads_of_run as ht)

/-! ## §2. The induction rules. -/

/-- **From a step lemma to a run lemma**: what every step out of a state with
`P` keeps holds all along a run that starts with `P`. -/
theorem Leads.induct {P : σ → Prop} {s t : σ} (h : M.Leads s t) (h0 : P s)
    (hstep : ∀ t a u, M.Leads s t → P t → M.step t a = some u → P u) : P t := by
  -- the prefix of the run is itself a run, which the step lemma may use
  induction h with
  | refl => exact h0
  | step h hu ih => exact hstep _ _ _ h ih hu

/-- **The invariant rule**: an invariant holds in every reachable state. -/
theorem Reachable.induct {P : σ → Prop} {t : σ} (h : M.Reachable t) (h0 : P M.init)
    (hstep : ∀ s a s', M.Reachable s → P s → M.step s a = some s' → P s') : P t :=
  Leads.induct h h0 hstep

/-- A set of states no step leaves. -/
def Stuck (M : System σ α) (P : σ → Prop) : Prop :=
  ∀ s a s', P s → M.step s a = some s' → P s'

theorem Stuck.leads {P : σ → Prop} (hP : M.Stuck P) {s t : σ} (hs : P s) (h : M.Leads s t) :
    P t :=
  h.induct hs fun _ _ _ _ ht hu => hP _ _ _ ht hu

/-- **Two systems with the same steps out of what one of them reaches** reach
the same states. -/
theorem reachable_congr {N : System σ α} (hinit : M.init = N.init)
    (hstep : ∀ s a, N.Reachable s → M.step s a = N.step s a) (s : σ) :
    M.Reachable s ↔ N.Reachable s := by
  constructor
  · intro h
    refine h.induct (by rw [hinit]; exact Reachable.init) ?_
    intro s a t _ hs ht
    rw [hstep s a hs] at ht
    exact hs.step ht
  · intro h
    refine h.induct (by rw [← hinit]; exact Reachable.init) ?_
    intro s a t hs hM ht
    rw [← hstep s a hs] at ht
    exact hM.step ht

/-! ## §3. Runs whose steps all meet a condition. -/

variable (M) in
/-- `LeadsWhen C s t`: some schedule takes `s` to `t`, and the state and the
action of each of its steps meet `C`. -/
inductive LeadsWhen (C : σ → α → Prop) (s : σ) : σ → Prop
  | refl : LeadsWhen C s s
  | step {t u : σ} {a : α} (h : LeadsWhen C s t) (hC : C t a) (hstep : M.step t a = some u) :
      LeadsWhen C s u

variable {C : σ → α → Prop}

theorem LeadsWhen.single {s t : σ} {a : α} (hC : C s a) (h : M.step s a = some t) :
    M.LeadsWhen C s t :=
  LeadsWhen.step LeadsWhen.refl hC h

theorem LeadsWhen.trans {s t u : σ} (h₁ : M.LeadsWhen C s t) (h₂ : M.LeadsWhen C t u) :
    M.LeadsWhen C s u := by
  induction h₂ with
  | refl => exact h₁
  | step _ hC hstep ih => exact LeadsWhen.step ih hC hstep

theorem LeadsWhen.leads {s t : σ} (h : M.LeadsWhen C s t) : M.Leads s t := by
  induction h with
  | refl => exact Leads.refl
  | step _ _ hstep ih => exact Leads.step ih hstep

variable (M) in
/-- Replay a schedule whose steps all meet `C`. -/
def runWhen (C : σ → α → Prop) [∀ s a, Decidable (C s a)] : List α → σ → Option σ
  | [], s => some s
  | a :: as, s => if C s a then (M.step s a).bind (runWhen C as) else none

theorem leadsWhen_of_run [∀ s a, Decidable (C s a)] :
    ∀ (as : List α) {s t : σ}, M.runWhen C as s = some t → M.LeadsWhen C s t
  | [], s, t, h => by
      injection h with h
      subst h
      exact LeadsWhen.refl
  | a :: as, s, t, h => by
      simp only [runWhen] at h
      split at h
      next hC =>
        obtain ⟨u, hu, ht⟩ := Option.bind_eq_some_iff.mp h
        exact (LeadsWhen.single hC hu).trans (leadsWhen_of_run as ht)
      next => cases h

/-- **The invariant rule under a condition**: the step lemma may use it. -/
theorem LeadsWhen.induct {P : σ → Prop} {s t : σ} (h : M.LeadsWhen C s t) (h0 : P s)
    (hstep : ∀ t a u, M.LeadsWhen C s t → P t → C t a → M.step t a = some u → P u) : P t := by
  induction h with
  | refl => exact h0
  | step h hC hu ih => exact hstep _ _ _ h ih hC hu

end System

end MqttBenchmark.Lib
