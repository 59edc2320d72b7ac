/-
# Growing a selection greedily

A small library about the loop that asks a function for the next element to
append and stops when it has none.

* `invariant_grow`: what every pick keeps holds at the end.
* `pick_grow`: over a finite universe the loop ends because there is no pick.
* `grow_capped`: a loop that stops at a number of elements is the loop without
  the cap, cut off there; so the cap can stop it behind any pick.
-/
import Mathlib.Data.Finset.Card

namespace Greedy

open List

universe u

variable {α : Type u}

/-- Append picks until there is none, or the fuel is spent. -/
def grow (pick : List α → Option α) : ℕ → List α → List α
  | 0, s => s
  | n + 1, s =>
    match pick s with
    | none => s
    | some added => grow pick n (s ++ [added])

variable {pick : List α → Option α}

/-- There is nothing to append. -/
theorem grow_of_none {s : List α} (h : pick s = none) (n : ℕ) : grow pick n s = s := by
  cases n with
  | zero => rfl
  | succ n => rw [grow, h]

/-- The first pick is appended, then the loop goes on. -/
theorem grow_succ_of_some {s : List α} {added : α} (h : pick s = some added) (n : ℕ) :
    grow pick (n + 1) s = grow pick n (s ++ [added]) := by
  rw [grow, h]

/-- **The invariant rule.** -/
theorem invariant_grow (I : List α → Prop)
    (hstep : ∀ s added, I s → pick s = some added → I (s ++ [added])) (n : ℕ) {s : List α}
    (hs : I s) : I (grow pick n s) := by
  induction n generalizing s with
  | zero => exact hs
  | succ n ih =>
    cases hpick : pick s with
    | none =>
      rw [grow_of_none hpick]
      exact hs
    | some added =>
      rw [grow_succ_of_some hpick]
      exact ih (hstep s added hs hpick)

/-- The loop only appends. -/
theorem prefix_grow (n : ℕ) (s : List α) : s <+: grow pick n s :=
  invariant_grow (s <+: ·) (fun _ _ h _ => h.trans (prefix_append _ _)) n prefix_rfl

/-- One more turn appends the pick of what the loop has come to. -/
theorem grow_succ (n : ℕ) (s : List α) :
    grow pick (n + 1) s = grow pick n s ++ (pick (grow pick n s)).toList := by
  induction n generalizing s with
  | zero =>
    cases hpick : pick s with
    | none => rw [grow_of_none hpick, grow, hpick, Option.toList_none, append_nil]
    | some added => rw [grow_succ_of_some hpick, grow, grow, hpick, Option.toList_some]
  | succ n ih =>
    cases hpick : pick s with
    | none =>
      rw [grow_of_none hpick, grow_of_none hpick, hpick, Option.toList_none, append_nil]
    | some added => rw [grow_succ_of_some hpick, ih, grow_succ_of_some hpick]

/-- With a pick for each element of a finite universe, the loop ends because
there is no further pick. -/
theorem pick_grow [DecidableEq α] (U : Finset α)
    (hfresh : ∀ s added, pick s = some added → added ∈ U ∧ added ∉ s) (n : ℕ) {s : List α}
    (hnodup : s.Nodup) (hs : ∀ x ∈ s, x ∈ U) (hfuel : U.card ≤ s.length + n) :
    pick (grow pick n s) = none := by
  induction n generalizing s with
  | zero =>
    have hcard : U.card ≤ s.toFinset.card := by
      rw [toFinset_card_of_nodup hnodup]
      exact hfuel
    have hU : s.toFinset = U :=
      Finset.eq_of_subset_of_card_le (fun x hx => hs x (mem_toFinset.1 hx)) hcard
    rw [grow]
    cases hpick : pick s with
    | none => rfl
    | some added =>
      obtain ⟨hmem, hnot⟩ := hfresh s added hpick
      rw [← hU] at hmem
      exact absurd (mem_toFinset.1 hmem) hnot
  | succ n ih =>
    cases hpick : pick s with
    | none =>
      rw [grow, hpick]
      exact hpick
    | some added =>
      obtain ⟨hmem, hnot⟩ := hfresh s added hpick
      simp only [grow, hpick]
      apply ih
      · exact nodup_append.2 ⟨hnodup, nodup_singleton added, by
          rintro x hx y hy rfl
          exact hnot (mem_singleton.1 hy ▸ hx)⟩
      · intro x hx
        rcases mem_append.1 hx with hx | hx
        · exact hs x hx
        · exact mem_singleton.1 hx ▸ hmem
      · rw [length_append, length_singleton]
        omega

/-- **A cap on the number of elements** cuts the loop off, and changes nothing else. -/
theorem grow_capped {capped : List α → Option α} {c : ℕ}
    (hcapped : ∀ s, capped s = if s.length < c then pick s else none) (n : ℕ) (s : List α) :
    grow capped n s = grow pick (min n (c - s.length)) s := by
  induction n generalizing s with
  | zero => rw [Nat.zero_min]; rfl
  | succ n ih =>
    have hpick := hcapped s
    split_ifs at hpick with hless
    · have hturns : min (n + 1) (c - s.length) = min n (c - (s.length + 1)) + 1 := by omega
      rw [hturns]
      cases hadded : pick s with
      | none => rw [grow_of_none (hpick.trans hadded), grow_of_none hadded]
      | some added =>
        rw [grow_succ_of_some (hpick.trans hadded), grow_succ_of_some hadded, ih,
          length_append, length_singleton]
    · have hturns : min (n + 1) (c - s.length) = 0 := by omega
      rw [grow_of_none hpick, hturns]
      rfl

end Greedy
