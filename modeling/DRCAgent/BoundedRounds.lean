/-
# Loops of a bounded number of rounds

A small library: a loop that runs a body at most `n` times. Each round either
ends the loop with a result or goes on from a new state, and the body is told how
many rounds are left after it.

* `loop_induct`: the invariant rule, for a property of the result.
* `loop_mono`: the refinement rule. A loop that reaches its goal hands the goal
  over to a second loop, which may need one or two rounds for each of its rounds.
-/
import Mathlib.Tactic.Common

namespace Rounds

universe u v w

/-- What one round does. -/
inductive Round (S : Type u) (R : Type v)
  | done (result : R)
  | next (state : S)

variable {S : Type u} {R : Type v}

/-- A round that goes on does so in a state with `P`, and one that ends the loop does so
with a result with `Q`. -/
def Round.Holds (P : S → Prop) (Q : R → Prop) : Round S R → Prop
  | done r => Q r
  | next s => P s

/-- At most `n` rounds of `body`; `exhausted` is the result when none is left. -/
def loop (body : ℕ → S → Round S R) (exhausted : S → R) : ℕ → S → R
  | 0, s => exhausted s
  | n + 1, s =>
    match body n s with
    | .done r => r
    | .next s' => loop body exhausted n s'

variable {body : ℕ → S → Round S R} {exhausted : S → R} {n : ℕ} {s s' : S} {r : R}

theorem loop_done (h : body n s = .done r) : loop body exhausted (n + 1) s = r := by
  rw [loop, h]

theorem loop_next (h : body n s = .next s') :
    loop body exhausted (n + 1) s = loop body exhausted n s' := by
  rw [loop, h]

/-- **The invariant rule.**  `I n s` holds before the last `n` rounds. -/
theorem loop_induct (I : ℕ → S → Prop) (Q : R → Prop)
    (hround : ∀ n s, I (n + 1) s → (body n s).Holds (I n) Q)
    (hexhausted : ∀ s, I 0 s → Q (exhausted s)) (h : I n s) : Q (loop body exhausted n s) := by
  induction n generalizing s with
  | zero => exact hexhausted s h
  | succ n ih =>
    have hlast := hround n s h
    rcases hbody : body n s with r | s'
    · rw [loop_done hbody]
      rwa [hbody] at hlast
    · rw [loop_next hbody]
      rw [hbody] at hlast
      exact ih hlast

section Refinement

variable {S' : Type w} {body' : ℕ → S' → Round S' R} {exhausted' : S' → R}

/-- **The refinement rule.**  `Rel` relates the states of a loop to the states of a
second one. Whenever the first loop still reaches `Q`, one of its rounds either
shows that the second loop reaches `Q`, or is matched by rounds of the second loop
that lead to related states again. -/
theorem loop_mono (Rel : ℕ → S → ℕ → S' → Prop) (Q : R → Prop)
    (hexhausted : ∀ s m t, Rel 0 s m t → ¬ Q (exhausted s))
    (hdone : ∀ n s m t r, Rel (n + 1) s m t → body n s = .done r → Q r →
      Q (loop body' exhausted' m t))
    (hnext : ∀ n s m t s', Rel (n + 1) s m t → body n s = .next s' → Q (loop body exhausted n s') →
      ∃ m' t', Rel n s' m' t' ∧ loop body' exhausted' m t = loop body' exhausted' m' t')
    {m : ℕ} {t : S'} (hrel : Rel n s m t) (hQ : Q (loop body exhausted n s)) :
    Q (loop body' exhausted' m t) := by
  induction n generalizing s m t with
  | zero => exact absurd hQ (hexhausted s m t hrel)
  | succ n ih =>
    rcases hround : body n s with r | s'
    · rw [loop_done hround] at hQ
      exact hdone n s m t r hrel hround hQ
    · rw [loop_next hround] at hQ
      obtain ⟨m', t', hrel', heq⟩ := hnext n s m t s' hrel hround hQ
      rw [heq]
      exact ih hrel' hQ

end Refinement

end Rounds
