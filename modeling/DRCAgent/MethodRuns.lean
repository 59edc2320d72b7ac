/-
# Methods of an object

A small library: a method of an object with a mutable state, which returns or raises and keeps
in either case what it has changed, unless one of its loops runs on: a loop is given a number
of turns, and where they are not enough there is no result.

* `invoke_bind_of_ok`, `invoke_bind_of_error`: what a statement leaves to the rest of a method.
* `invoke_bind_mono`: a rest that does what another one does, where that one ends.
-/
import Mathlib.Tactic.Common

namespace Methods

universe u

/-- A method over states `σ` that raises an `ε`. -/
abbrev Method (ε σ : Type) := ExceptT ε (StateT σ Option)

section Calls

variable {ε σ α β : Type}

/-- What a call returns or raises, and the state after it. -/
def invoke (method : Method ε σ α) (s : σ) : Option (Except ε α × σ) := method.run.run s

/-- A loop that is still running. -/
def running : Method ε σ α := ExceptT.mk fun _ => none

variable {s s' : σ}

@[simp] theorem invoke_get (s : σ) : invoke (get : Method ε σ σ) s = some (.ok s, s) := rfl

@[simp] theorem invoke_modify (f : σ → σ) (s : σ) :
    invoke (modify f : Method ε σ Unit) s = some (.ok (), f s) := rfl

theorem invoke_bind (method : Method ε σ α) (rest : α → Method ε σ β) (s : σ) :
    invoke (method >>= rest) s = (invoke method s).bind fun out =>
      match out.1 with
      | .ok a => invoke (rest a) out.2
      | .error e => some (.error e, out.2) := by
  show (invoke method s).bind _ = _
  congr 1
  funext out
  obtain ⟨result, s'⟩ := out
  cases result with
  | ok a => rfl
  | error e => rfl

/-- The rest goes on with what was returned. -/
theorem invoke_bind_of_ok {method : Method ε σ α} {a : α} (rest : α → Method ε σ β)
    (h : invoke method s = some (.ok a, s')) :
    invoke (method >>= rest) s = invoke (rest a) s' := by
  rw [invoke_bind, h, Option.bind_some]

/-- What was raised is raised. -/
theorem invoke_bind_of_error {method : Method ε σ α} {e : ε} (rest : α → Method ε σ β)
    (h : invoke method s = some (.error e, s')) :
    invoke (method >>= rest) s = some (.error e, s') := by
  rw [invoke_bind, h, Option.bind_some]

/-- A rest that has the outcome of another one can stand for it. -/
theorem invoke_bind_mono {method : Method ε σ α} {rest rest' : α → Method ε σ β}
    {out : Except ε β × σ}
    (hrest : ∀ a s', invoke (rest a) s' = some out → invoke (rest' a) s' = some out)
    (h : invoke (method >>= rest) s = some out) : invoke (method >>= rest') s = some out := by
  cases hmethod : invoke method s with
  | none =>
    rw [invoke_bind, hmethod] at h
    cases h
  | some outcome =>
    obtain ⟨result, s'⟩ := outcome
    cases result with
    | ok a =>
      rw [invoke_bind_of_ok _ hmethod] at h ⊢
      exact hrest a s' h
    | error e =>
      rw [invoke_bind_of_error _ hmethod] at h ⊢
      exact h

end Calls

end Methods
