/-
# Counting users by their state

A small library: finitely many users, each in a state of its own, and how many of them are
in a state of some kind. When one user changes its state the count follows that user alone
(`count_update`), so a counter beside it, such as the value of a semaphore, stays in balance
with it by an argument about one user.
-/
import Mathlib.Algebra.Order.BigOperators.Group.Finset

namespace SlotCounts

open Finset Function

variable {ι α : Type*} [Fintype ι]

/-- How many users are in a state of the kind `p`. -/
def count (p : α → Bool) (f : ι → α) : ℕ := ∑ i, (p (f i)).toNat

variable {p q : α → Bool} {f : ι → α}

theorem count_eq_zero (h : ∀ i, p (f i) = false) : count p f = 0 :=
  sum_eq_zero fun i _ => by rw [h i]; rfl

/-- Users that are of no kind `q` nor among the `s` do not count. -/
theorem count_le (s : Finset ι) (h : ∀ i, p (f i) = true → q (f i) = true ∨ i ∈ s) :
    count p f ≤ count q f + s.card := by
  classical
  have hcard : s.card = ∑ i, (decide (i ∈ s)).toNat := by
    rw [card_eq_sum_ones, ← sum_filter_add_sum_filter_not univ (· ∈ s)]
    have hin : ∑ i with i ∈ s, (decide (i ∈ s)).toNat = ∑ _i ∈ s, 1 := by
      rw [filter_mem_eq_inter, univ_inter]
      exact sum_congr rfl fun i hi => by rw [decide_eq_true hi]; rfl
    have hout : ∑ i with i ∉ s, (decide (i ∈ s)).toNat = 0 :=
      sum_eq_zero fun i hi => by rw [decide_eq_false (mem_filter.1 hi).2]; rfl
    rw [hin, hout, add_zero]
  rw [hcard, count, count, ← sum_add_distrib]
  refine sum_le_sum fun i _ => ?_
  cases hp : p (f i) with
  | false => exact Nat.zero_le _
  | true =>
    rcases h i hp with hq | hs
    · rw [hq]
      exact Nat.le_add_right _ _
    · rw [decide_eq_true hs]
      exact Nat.le_add_left _ _

variable [DecidableEq ι]

/-- **One user changes its state.** -/
theorem count_update (p : α → Bool) (f : ι → α) (i : ι) (a : α) :
    count p (update f i a) + (p (f i)).toNat = count p f + (p a).toNat := by
  have hrest : ∑ j ∈ univ.erase i, (p (update f i a j)).toNat =
      ∑ j ∈ univ.erase i, (p (f j)).toNat := by
    refine sum_congr rfl fun j hj => ?_
    rw [update_of_ne (ne_of_mem_erase hj)]
  have hnew := add_sum_erase univ (fun j => (p (update f i a j)).toNat)
    (mem_univ i)
  have hold := add_sum_erase univ (fun j => (p (f j)).toNat) (mem_univ i)
  simp only [update_self] at hnew
  rw [count, count, ← hnew, ← hold, hrest]
  omega

end SlotCounts
