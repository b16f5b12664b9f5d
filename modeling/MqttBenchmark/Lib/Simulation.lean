/-
  MqttBenchmark.Lib.Simulation
  ────────────────────────────
  **FORWARD SIMULATION BETWEEN TWO SYSTEMS.**

  `N` simulates `M` when related initial states exist and every step of `M`
  out of a reachable state is answered by a run of `N`, of any length, whose
  steps meet a condition.

    • `Simulation` — one step at a time,
    • `Simulation.reaches` — whole runs,
    • `Simulation.invariant` — what holds of `N` along such runs holds of `M`,
    • `guarded` — the steps of a system that meet a condition.
-/
import MqttBenchmark.Lib.Transition

namespace MqttBenchmark.Lib.System

variable {σ α τ β : Type*} {M : System σ α} {N : System τ β} {C : τ → β → Prop}
variable {R : σ → τ → Prop}

/-- Every step of `M` is answered by steps of `N` that meet `C`. -/
structure Simulation (M : System σ α) (N : System τ β) (C : τ → β → Prop) (R : σ → τ → Prop) :
    Prop where
  init : R M.init N.init
  step : ∀ s a s' t, M.Reachable s → R s t → M.step s a = some s' →
    ∃ t', N.LeadsWhen C t t' ∧ R s' t'

/-- **From steps to runs**: every reachable state of `M` is related to one that
`N` reaches under `C`. -/
theorem Simulation.reaches (h : Simulation M N C R) {s : σ} (hs : M.Reachable s) :
    ∃ t, N.LeadsWhen C N.init t ∧ R s t := by
  refine hs.induct (P := fun s => ∃ t, N.LeadsWhen C N.init t ∧ R s t) ⟨_, .refl, h.init⟩ ?_
  intro s a s' hs hsim hstep
  obtain ⟨t, ht, hR⟩ := hsim
  obtain ⟨t', ht', hR'⟩ := h.step s a s' t hs hR hstep
  exact ⟨t', ht.trans ht', hR'⟩

/-- What holds of `N` along every run under `C` holds of `M`, through `R`. -/
theorem Simulation.invariant (h : Simulation M N C R) {P : σ → Prop} {Q : τ → Prop}
    (hQ : ∀ t, N.LeadsWhen C N.init t → Q t) (hPQ : ∀ s t, R s t → Q t → P s) {s : σ}
    (hs : M.Reachable s) : P s := by
  obtain ⟨t, ht, hR⟩ := h.reaches hs
  exact hPQ s t hR (hQ t ht)

/-! ## Runs under a condition. -/

/-- The system that takes the steps that meet a condition. -/
def guarded (M : System σ α) (D : σ → α → Prop) [∀ s a, Decidable (D s a)] : System σ α where
  init := M.init
  step s a := if D s a then M.step s a else none

theorem guarded_step {D : σ → α → Prop} [∀ s a, Decidable (D s a)] {s s' : σ} {a : α} :
    (M.guarded D).step s a = some s' ↔ D s a ∧ M.step s a = some s' := by
  show (if D s a then M.step s a else none) = some s' ↔ _
  by_cases hD : D s a
  · rw [if_pos hD]
    exact ⟨fun h => ⟨hD, h⟩, And.right⟩
  · rw [if_neg hD]
    constructor
    · intro h
      cases h
    · intro h
      exact absurd h.1 hD

/-- Its runs are the runs under the condition. -/
theorem LeadsWhen.guarded {D : σ → α → Prop} [∀ s a, Decidable (D s a)] {s : σ}
    (h : M.LeadsWhen D M.init s) : (M.guarded D).Reachable s := by
  induction h with
  | refl => exact .refl
  | step _ hD hstep ih => exact .step ih (guarded_step.mpr ⟨hD, hstep⟩)

/-- Under a condition that implies another. -/
theorem LeadsWhen.mono {C' : τ → β → Prop} (hC : ∀ t b, C t b → C' t b) {s t : τ}
    (h : N.LeadsWhen C s t) : N.LeadsWhen C' s t := by
  induction h with
  | refl => exact .refl
  | step _ hc hstep ih => exact .step ih (hC _ _ hc) hstep

/-- **The same steps in another system**: where two systems agree on the steps
that meet a condition, they have the same runs under it. -/
theorem LeadsWhen.congr {N' : System τ β} (hstep : ∀ t b, C t b → N.step t b = N'.step t b)
    {s t : τ} (h : N.LeadsWhen C s t) : N'.LeadsWhen C s t := by
  induction h with
  | refl => exact .refl
  | step _ hc hs ih => exact .step ih hc ((hstep _ _ hc).symm.trans hs)

end MqttBenchmark.Lib.System
