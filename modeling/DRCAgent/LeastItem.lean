/-
# The least item of a list

`min(items, key=key)`: the first item of least key, found by one pass that keeps the best item
so far.
-/
import Mathlib.Data.Prod.Lex

namespace LeastItem

open List

variable {α β : Type}

/-- `min(items, key=key)`: the first item of least key. -/
def least [LT β] [DecidableLT β] (key : α → β) : List α → Option α
  | [] => none
  | item :: rest =>
    some (rest.foldl (fun best other => if key other < key best then other else best) item)

variable [LinearOrder β] [DecidableLT β] {key : α → β}

theorem foldl_least (item : α) (rest : List α) :
    rest.foldl (fun best other => if key other < key best then other else best) item ∈
        item :: rest ∧
      ∀ other ∈ item :: rest,
        key (rest.foldl (fun best other => if key other < key best then other else best) item) ≤
          key other := by
  induction rest generalizing item with
  | nil =>
    refine ⟨mem_singleton_self item, fun other hother => ?_⟩
    rw [mem_singleton.1 hother]
    exact le_rfl
  | cons next rest ih =>
    rw [foldl_cons]
    by_cases hless : key next < key item
    · rw [if_pos hless]
      obtain ⟨hmem, hle⟩ := ih next
      refine ⟨mem_cons_of_mem _ hmem, forall_mem_cons.2 ⟨?_, hle⟩⟩
      exact (hle next mem_cons_self).trans hless.le
    · rw [if_neg hless]
      obtain ⟨hmem, hle⟩ := ih item
      have hitem := hle item mem_cons_self
      refine ⟨?_, ?_⟩
      · obtain heq | hrest := mem_cons.1 hmem
        · exact mem_cons.2 (Or.inl heq)
        · exact mem_cons_of_mem _ (mem_cons_of_mem _ hrest)
      · intro other hother
        obtain rfl | hother := mem_cons.1 hother
        · exact hitem
        · obtain rfl | hother := mem_cons.1 hother
          · exact hitem.trans (not_lt.1 hless)
          · exact hle other (mem_cons_of_mem _ hother)

/-- **The least item** is one of the items, and no other has a smaller key. -/
theorem least_eq_some {items : List α} {item : α} (h : least key items = some item) :
    item ∈ items ∧ ∀ other ∈ items, key item ≤ key other := by
  cases items with
  | nil => cases h
  | cons first rest =>
    rw [← Option.some.inj h]
    exact foldl_least first rest

theorem exists_least {items : List α} {item : α} (h : item ∈ items) :
    ∃ found, least key items = some found := by
  cases items with
  | nil => cases h
  | cons first rest => exact ⟨_, rfl⟩

end LeastItem
