/-
# Loops that accumulate rows under keys

A small library: a loop over items that keeps one row for each key, updates the row of an
item's key, and may fail. What it finds under a key in the end is what the items of that
key alone accumulate, in their order, and where it fails the items of some key fail
(`run_spec`). So the loop depends on the order of the items of each key only.
-/
import DRCAgent.Failures
import DRCAgent.InsertionDict
import Mathlib.Data.List.Induction

namespace GroupedFold

open Failures List

universe u

variable {ε K α σ : Type u} [DecidableEq K] (key : α → K) (start : K → σ)
  (step : σ → α → Except ε σ)

/-- One turn: the row of the item's key is updated. -/
def addItem (rows : List (K × σ)) (item : α) : Except ε (List (K × σ)) := do
  let row ← step ((rows.lookup (key item)).getD (start (key item))) item
  return Dicts.insert (key item) row rows

/-- The loop. -/
def run (items : List α) : Except ε (List (K × σ)) :=
  items.foldlM (addItem key start step) []

/-- What the items of a key accumulate. -/
def own (k : K) (items : List α) : Except ε σ :=
  (items.filter fun item => key item = k).foldlM step (start k)

/-- Every key with an item has the row that its items accumulate, no other has one. -/
structure Describes (rows : List (K × σ)) (items : List α) : Prop where
  nodup : (rows.map (·.1)).Nodup
  absent : ∀ k, (∀ item ∈ items, key item ≠ k) → rows.lookup k = none
  present : ∀ k, (∃ item ∈ items, key item = k) →
    ∃ row, rows.lookup k = some row ∧ own key start step k items = .ok row

variable {key start step}

theorem own_append {k : K} {items : List α} {item : α} :
    own key start step k (items ++ [item]) =
      if key item = k then own key start step k items >>= fun row => step row item
      else own key start step k items := by
  rw [own, own, filter_append]
  by_cases hk : key item = k
  · rw [if_pos hk, filter_cons_of_pos (by simpa using hk), filter_nil,
      foldlM_append]
    refine bind_congr fun row => ?_
    rw [foldlM_cons]
    exact bind_pure _
  · rw [if_neg hk, filter_cons_of_neg (by simpa using hk), filter_nil,
      append_nil]

/-- The row that a turn updates is what the items of its key have accumulated. -/
theorem Describes.own_eq {rows : List (K × σ)} {items : List α}
    (h : Describes key start step rows items) (k : K) :
    own key start step k items = .ok ((rows.lookup k).getD (start k)) := by
  by_cases hpresent : ∃ item ∈ items, key item = k
  · obtain ⟨row, hlookup, hown⟩ := h.present k hpresent
    rw [hown, hlookup, Option.getD_some]
  · push Not at hpresent
    have hfilter : (items.filter fun item => key item = k) = [] := by
      refine filter_eq_nil_iff.2 fun item hitem => ?_
      simpa using hpresent item hitem
    rw [own, hfilter, h.absent k hpresent]
    rfl

/-- **One turn**: a row more, or the failure of the items of its key. -/
theorem Describes.addItem {rows : List (K × σ)} {items : List α}
    (h : Describes key start step rows items) (item : α) :
    (∃ rows', GroupedFold.addItem key start step rows item = .ok rows' ∧
      Describes key start step rows' (items ++ [item])) ∨
    ∃ e, GroupedFold.addItem key start step rows item = .error e ∧
      own key start step (key item) (items ++ [item]) = .error e := by
  have hown : own key start step (key item) (items ++ [item]) =
      step ((rows.lookup (key item)).getD (start (key item))) item := by
    rw [own_append, if_pos rfl, h.own_eq]
    rfl
  rw [GroupedFold.addItem]
  cases hstep : step ((rows.lookup (key item)).getD (start (key item))) item with
  | error e => exact Or.inr ⟨e, rfl, hown.trans hstep⟩
  | ok row =>
    -- the row of the item's key is new, the others stay
    refine Or.inl ⟨_, rfl, Dicts.nodup_keys_insert h.nodup, fun k hk => ?_, fun k hk => ?_⟩
    · have hne : k ≠ key item := (hk item (mem_append_right _ (mem_singleton_self item))).symm
      rw [Dicts.lookup_insert, if_neg hne]
      exact h.absent k fun other hother => hk other (mem_append_left _ hother)
    · rw [Dicts.lookup_insert]
      by_cases hkey : k = key item
      · subst hkey
        exact ⟨row, if_pos rfl, hown.trans hstep⟩
      · obtain ⟨other, hother, rfl⟩ := hk
        have hmem : other ∈ items := by
          rcases mem_append.1 hother with hmem | hlast
          · exact hmem
          · exact absurd (congrArg key (mem_singleton.1 hlast)) hkey
        obtain ⟨old, hlookup, hold⟩ := h.present (key other) ⟨other, hmem, rfl⟩
        refine ⟨old, by rw [if_neg hkey, hlookup], ?_⟩
        rw [own_append, if_neg (Ne.symm hkey), hold]

theorem run_append (items : List α) (item : α) :
    run key start step (items ++ [item]) =
      run key start step items >>= fun rows => addItem key start step rows item := by
  rw [run, foldlM_append]
  refine bind_congr fun rows => ?_
  rw [foldlM_cons]
  exact bind_pure _

/-- **The loop**: it returns the rows of all keys, or fails as the items of some key do. -/
theorem run_spec (key : α → K) (start : K → σ) (step : σ → α → Except ε σ) (items : List α) :
    (∃ rows, run key start step items = .ok rows ∧ Describes key start step rows items) ∨
      ∃ e, run key start step items = .error e ∧
        ∃ item ∈ items, own key start step (key item) items = .error e := by
  induction items using reverseRecOn with
  | nil => exact Or.inl ⟨[], rfl, nodup_nil, fun _ _ => rfl, by simp⟩
  | append_singleton items item ih =>
    rw [run_append]
    rcases ih with ⟨rows, hrun, hrows⟩ | ⟨e, hrun, other, hother, hown⟩
    · rw [hrun]
      rcases hrows.addItem item with ⟨rows', hadd, hrows'⟩ | ⟨e, hadd, hown⟩
      · exact Or.inl ⟨rows', hadd, hrows'⟩
      · exact Or.inr ⟨e, hadd, item, mem_append_right _ (mem_singleton_self item), hown⟩
    · -- a failure stays
      rw [hrun]
      refine Or.inr ⟨e, rfl, other, mem_append_left _ hother, ?_⟩
      rw [own_append, hown]
      split_ifs <;> rfl

end GroupedFold
