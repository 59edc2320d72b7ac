/-
# Greedy matching by keys

A small library: each element of a first list takes one with its key out of a pool, if there
is one. Which one it takes does not matter for how many are taken: of each key the pool
loses as many as there are takers, or all (`count_left`). So what is left is, per key, what
the pool has more than there are takers, and no other matching by keys is larger
(`length_le_of_matching`).
-/
import Mathlib.Algebra.BigOperators.Group.Finset.Basic

namespace GreedyMatching

open List

universe u v w

variable {α : Type u} {β : Type v} {κ : Type w} [DecidableEq β]

/-- The pairs, and what is left of the pool. -/
def matchPool (pick : α → List β → Option β) : List α → List β → List (α × β) × List β
  | [], pool => ([], pool)
  | taker :: rest, pool =>
    match pick taker pool with
    | none => matchPool pick rest pool
    | some taken =>
      ((taker, taken) :: (matchPool pick rest (pool.erase taken)).1,
        (matchPool pick rest (pool.erase taken)).2)

/-- A taker takes something with its key, and nothing only where there is nothing. -/
structure PicksByKey (takerKey : α → κ) (key : β → κ) (pick : α → List β → Option β) :
    Prop where
  mem : ∀ taker pool taken, pick taker pool = some taken →
    taken ∈ pool ∧ key taken = takerKey taker
  none : ∀ taker pool, pick taker pool = none → ∀ item ∈ pool, key item ≠ takerKey taker

variable {takerKey : α → κ} {key : β → κ} {pick : α → List β → Option β}

/-- Each taker takes once. -/
theorem takers_sublist (pick : α → List β → Option β) (takers : List α) (pool : List β) :
    ((matchPool pick takers pool).1.map (·.1)).Sublist takers := by
  induction takers generalizing pool with
  | nil => exact Sublist.slnil
  | cons taker rest ih =>
    rw [matchPool]
    cases pick taker pool with
    | none => exact (ih pool).cons taker
    | some taken => exact (ih (pool.erase taken)).cons_cons taker

/-- What is taken and what is left is the pool. -/
theorem taken_append_left_perm (h : PicksByKey takerKey key pick) (takers : List α)
    (pool : List β) :
    ((matchPool pick takers pool).1.map (·.2) ++ (matchPool pick takers pool).2).Perm
      pool := by
  induction takers generalizing pool with
  | nil => exact Perm.refl _
  | cons taker rest ih =>
    rw [matchPool]
    cases hpick : pick taker pool with
    | none => exact ih pool
    | some taken =>
      have hmem := (h.mem taker pool taken hpick).1
      exact ((ih (pool.erase taken)).cons taken).trans (perm_cons_erase hmem).symm

theorem key_of_mem_pairs (h : PicksByKey takerKey key pick) {takers : List α} {pool : List β}
    {pair : α × β} (hpair : pair ∈ (matchPool pick takers pool).1) :
    key pair.2 = takerKey pair.1 := by
  induction takers generalizing pool with
  | nil => cases hpair
  | cons taker rest ih =>
    rw [matchPool] at hpair
    cases hpick : pick taker pool with
    | none =>
      rw [hpick] at hpair
      exact ih hpair
    | some taken =>
      rw [hpick] at hpair
      rcases mem_cons.1 hpair with rfl | hrest
      · exact (h.mem taker pool taken hpick).2
      · exact ih hrest

section Count

variable [DecidableEq κ]

/-- **Of each key the pool loses one for each taker, or all.** -/
theorem count_left (h : PicksByKey takerKey key pick) (takers : List α) (pool : List β)
    (k : κ) :
    ((matchPool pick takers pool).2.map key).count k =
      (pool.map key).count k - (takers.map takerKey).count k := by
  induction takers generalizing pool with
  | nil => rfl
  | cons taker rest ih =>
    rw [matchPool]
    cases hpick : pick taker pool with
    | none =>
      show ((matchPool pick rest pool).2.map key).count k = _
      rw [ih, map_cons, count_cons]
      split_ifs with hk
      · -- there is nothing of this key, now or later
        have hnone : (pool.map key).count k = 0 := by
          refine count_eq_zero.2 fun hmem => ?_
          obtain ⟨item, hitem, hkey⟩ := mem_map.1 hmem
          exact h.none taker pool hpick item hitem (hkey.trans (eq_of_beq hk).symm)
        omega
      · rfl
    | some taken =>
      show ((matchPool pick rest (pool.erase taken)).2.map key).count k = _
      obtain ⟨hmem, hkey⟩ := h.mem taker pool taken hpick
      have hpool : (pool.map key).count k =
          ((pool.erase taken).map key).count k + if key taken == k then 1 else 0 := by
        rw [((perm_cons_erase hmem).map key).count_eq, map_cons, count_cons]
      rw [ih, map_cons, count_cons, hpool, hkey]
      omega

/-- Of each key as many are taken as there are on both sides. -/
theorem count_taken (h : PicksByKey takerKey key pick) (takers : List α) (pool : List β)
    (k : κ) :
    ((matchPool pick takers pool).1.map fun pair => key pair.2).count k =
      min ((pool.map key).count k) ((takers.map takerKey).count k) := by
  have hperm := ((taken_append_left_perm h takers pool).map key).count_eq k
  rw [map_append, count_append, map_map, count_left h] at hperm
  have htaken : ((matchPool pick takers pool).1.map fun pair => key pair.2).count k =
      ((matchPool pick takers pool).1.map (key ∘ fun pair => pair.2)).count k := rfl
  omega

theorem count_map_le {γ : Type*} {items items' : List γ} (h : items.Subperm items') (f : γ → κ)
    (k : κ) : (items.map f).count k ≤ (items'.map f).count k := by
  obtain ⟨permuted, hperm, hsublist⟩ := h
  rw [← (hperm.map f).count_eq]
  exact (hsublist.map f).count_le k

/-- **The greed costs no pair**: a matching by keys has no more of them. -/
theorem length_le_of_matching (h : PicksByKey takerKey key pick) {takers : List α}
    {pool : List β} {pairs : List (α × β)} (htakers : (pairs.map (·.1)).Subperm takers)
    (hpool : (pairs.map (·.2)).Subperm pool)
    (hkeys : ∀ pair ∈ pairs, key pair.2 = takerKey pair.1) :
    pairs.length ≤ (matchPool pick takers pool).1.length := by
  have hsame : pairs.map (fun pair => key pair.2) = (pairs.map (·.1)).map takerKey := by
    rw [map_map]
    exact map_congr_left hkeys
  have hsubperm : (pairs.map fun pair => key pair.2).Subperm
      ((matchPool pick takers pool).1.map fun pair => key pair.2) := by
    refine subperm_ext_iff.2 fun k _ => ?_
    rw [count_taken h]
    refine le_min ?_ ?_
    · have hmap : pairs.map (fun pair => key pair.2) = (pairs.map (·.2)).map key := by
        rw [map_map]
        rfl
      rw [hmap]
      exact count_map_le hpool key k
    · rw [hsame]
      exact count_map_le htakers takerKey k
  have hlength := hsubperm.length_le
  rwa [length_map, length_map] at hlength

/-- What is left, counted by the keys of the pool. -/
theorem length_left (h : PicksByKey takerKey key pick) (takers : List α) (pool : List β) :
    (matchPool pick takers pool).2.length =
      ∑ k ∈ (pool.map key).toFinset,
        ((pool.map key).count k - (takers.map takerKey).count k) := by
  have hmem : ∀ k ∈ ((matchPool pick takers pool).2.map key : Multiset κ),
      k ∈ (pool.map key).toFinset := by
    intro k hk
    have hcount := count_pos_iff.2 (Multiset.mem_coe.1 hk)
    rw [count_left h] at hcount
    exact mem_toFinset.2 (count_pos_iff.1 (by omega))
  have hsum := Multiset.sum_count_eq_card hmem
  rw [Multiset.coe_card, length_map] at hsum
  rw [← hsum]
  refine Finset.sum_congr rfl fun k _ => ?_
  rw [Multiset.coe_count, count_left h]

/-- The keys of what is left. -/
theorem mem_keys_left (h : PicksByKey takerKey key pick) {takers : List α} {pool : List β}
    {k : κ} : k ∈ (matchPool pick takers pool).2.map key ↔
      (takers.map takerKey).count k < (pool.map key).count k := by
  rw [← count_pos_iff, count_left h]
  omega

end Count

end GreedyMatching
