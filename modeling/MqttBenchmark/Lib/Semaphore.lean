/-
  MqttBenchmark.Lib.Semaphore
  ───────────────────────────
  **COUNTING SEMAPHORES WITH A LIFE TIME.**

  A semaphore is its value and where it stands between `sem_init` and
  `sem_destroy`.  The operations act on the value alone, whatever the stage:
  using a semaphore outside its life time is undefined, and the life time is
  what a client has to prove, so it is recorded and not enforced.
-/
import Mathlib.Tactic.Common

namespace MqttBenchmark.Lib

/-- Where a semaphore stands in its life. -/
inductive Stage where
  /-- Static storage, never initialised. -/
  | raw
  /-- Between initialisation and destruction. -/
  | live
  /-- After destruction. -/
  | destroyed
  deriving DecidableEq, Repr

/-- A counting semaphore. -/
structure Sem where
  value : Nat
  stage : Stage
  deriving DecidableEq, Repr

namespace Sem

/-- The largest value a semaphore holds; a post beyond it fails. -/
def valueMax : Nat := 2147483647

/-- A zeroed object that was never initialised. -/
def raw : Sem := ⟨0, .raw⟩

def init (v : Nat) : Sem := ⟨v, .live⟩

def destroy (s : Sem) : Sem := { s with stage := .destroyed }

def post (s : Sem) : Sem := { s with value := min (s.value + 1) valueMax }

/-- Take one unit, when there is one: a successful `sem_trywait`, or the
moment a `sem_wait` returns. -/
def take (s : Sem) : Option Sem :=
  match s.value with
  | 0 => none
  | v + 1 => some { s with value := v }

@[simp] theorem post_value (s : Sem) : s.post.value = min (s.value + 1) valueMax := rfl

theorem post_pos (s : Sem) : 0 < s.post.value := by
  rw [post_value, valueMax]
  omega

theorem take_eq_none {s : Sem} : s.take = none ↔ s.value = 0 := by
  unfold take
  split <;> simp_all

/-- What a successful take does: one unit less, same stage. -/
theorem take_eq_some {s t : Sem} : s.take = some t ↔ s.value = t.value + 1 ∧ s.stage = t.stage := by
  obtain ⟨v, st⟩ := s
  obtain ⟨w, st'⟩ := t
  cases v <;> simp [take, eq_comm]

end Sem

end MqttBenchmark.Lib
