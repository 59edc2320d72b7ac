/-
# Dictionaries in the order of their keys

A small library: the items of a dictionary sorted by their keys. Two dictionaries that find
the same under every key have the same sorted items (`sortedItems_congr`), so what is built
from sorted items does not depend on the order of the assignments.
-/
import DRCAgent.InsertionDict
import Mathlib.Data.List.Sort

namespace Dicts

open List

universe u v w

variable {K : Type u} {V : Type v} [LinearOrder K]

/-- `sorted(dict.items())`: no two items have a key in common. -/
def sortedItems (dict : List (K × V)) : List (K × V) :=
  dict.insertionSort fun a b => a.1 ≤ b.1

theorem sortedItems_perm (dict : List (K × V)) : (sortedItems dict).Perm dict :=
  perm_insertionSort _ _

theorem mem_sortedItems {dict : List (K × V)} {entry : K × V} :
    entry ∈ sortedItems dict ↔ entry ∈ dict :=
  (sortedItems_perm dict).mem_iff

theorem pairwise_sortedItems (dict : List (K × V)) :
    (sortedItems dict).Pairwise fun a b => a.1 ≤ b.1 := by
  have : Std.Total fun a b : K × V => a.1 ≤ b.1 := ⟨fun a b => le_total a.1 b.1⟩
  have : IsTrans (K × V) fun a b => a.1 ≤ b.1 := ⟨fun _ _ _ => le_trans⟩
  exact pairwise_insertionSort _ _

/-- The keys are strictly sorted: no two items have one key. -/
theorem strict_sortedItems {dict : List (K × V)} (hnodup : (dict.map (·.1)).Nodup) :
    (sortedItems dict).Pairwise fun a b => a.1 < b.1 := by
  have hne : (sortedItems dict).Pairwise fun a b => a.1 ≠ b.1 :=
    pairwise_map.1 (((sortedItems_perm dict).map _).nodup_iff.2 hnodup)
  exact (pairwise_sortedItems dict).imp₂ (fun _ _ => lt_of_le_of_ne) hne

/-- The items of one dictionary in any order. -/
theorem sortedItems_eq_of_perm {dict dict' : List (K × V)} (hnodup : (dict.map (·.1)).Nodup)
    (h : dict.Perm dict') : sortedItems dict = sortedItems dict' := by
  have hperm : (sortedItems dict).Perm (sortedItems dict') :=
    (sortedItems_perm dict).trans (h.trans (sortedItems_perm dict').symm)
  refine hperm.eq_of_pairwise (fun a b ha hb hab hba => ?_) (pairwise_sortedItems _)
    (pairwise_sortedItems _)
  have hkey : a.1 = b.1 := le_antisymm hab hba
  exact inj_on_of_nodup_map hnodup (mem_sortedItems.1 ha)
    (mem_sortedItems.1 (hperm.symm.subset hb)) hkey

/-- **Dictionaries that find the same** have the same sorted items. -/
theorem sortedItems_congr {dict dict' : List (K × V)} (hnodup : (dict.map (·.1)).Nodup)
    (hnodup' : (dict'.map (·.1)).Nodup) (h : ∀ k, dict.lookup k = dict'.lookup k) :
    sortedItems dict = sortedItems dict' := by
  refine sortedItems_eq_of_perm hnodup ?_
  refine (perm_ext_iff_of_nodup hnodup.of_map hnodup'.of_map).2 fun entry => ?_
  constructor
  · intro hmem
    exact mem_of_lookup ((h entry.1).symm.trans (lookup_of_mem hnodup hmem))
  · intro hmem
    exact mem_of_lookup ((h entry.1).trans (lookup_of_mem hnodup' hmem))

/-- Sorting by the keys does not look at the values. -/
theorem sortedItems_map_value {W : Type w} (f : V → W) (dict : List (K × V)) :
    sortedItems (dict.map fun entry => (entry.1, f entry.2)) =
      (sortedItems dict).map fun entry => (entry.1, f entry.2) :=
  (map_insertionSort (fun a b : K × V => a.1 ≤ b.1) (fun a b : K × W => a.1 ≤ b.1)
    (fun entry => (entry.1, f entry.2)) dict fun _ _ _ _ => Iff.rfl).symm

/-- What is sorted by distinct keys does not depend on the order. -/
theorem insertionSort_eq_of_perm {key : V → K} {values values' : List V}
    (hnodup : (values.map key).Nodup) (h : values.Perm values') :
    values.insertionSort (fun a b => key a ≤ key b) =
      values'.insertionSort (fun a b => key a ≤ key b) := by
  have : Std.Total fun a b : V => key a ≤ key b := ⟨fun a b => le_total (key a) (key b)⟩
  have : IsTrans V fun a b => key a ≤ key b := ⟨fun _ _ _ => le_trans⟩
  have hself := perm_insertionSort (fun a b => key a ≤ key b) values
  have hself' := perm_insertionSort (fun a b => key a ≤ key b) values'
  have hperm := hself.trans (h.trans hself'.symm)
  refine hperm.eq_of_pairwise (fun a b ha hb hab hba => ?_) (pairwise_insertionSort _ _)
    (pairwise_insertionSort _ _)
  exact inj_on_of_nodup_map hnodup (hself.subset ha) (h.symm.subset (hself'.subset hb))
    (le_antisymm hab hba)

/-! ## Groups -/

/-- The values grouped by their keys, with the keys in order. -/
def groups (key : V → K) (values : List V) : List (K × List V) :=
  sortedItems (collect (values.map fun value => (key value, value)))

theorem filter_keyed (key : V → K) (values : List V) (k : K) :
    ((values.map fun value => (key value, value)).filter (·.1 = k)).map (·.2) =
      values.filter (key · = k) := by
  rw [filter_map, map_map]
  exact map_id _

theorem lookup_keyed (key : V → K) (values : List V) (k : K) :
    (collect (values.map fun value => (key value, value))).lookup k =
      if values.filter (key · = k) = [] then none else some (values.filter (key · = k)) := by
  have hfound := lookup_collect (values.map fun value => (key value, value)) k
  rw [filter_keyed] at hfound
  cases hlookup : (collect (values.map fun value => (key value, value))).lookup k with
  | none =>
    rw [hlookup, Option.getD_none] at hfound
    rw [← hfound, if_pos rfl]
  | some group =>
    rw [hlookup, Option.getD_some] at hfound
    rw [← hfound, if_neg (ne_nil_of_mem_collect (mem_of_lookup hlookup))]

/-- A group has all values of its key, and at least one. -/
theorem mem_groups {key : V → K} {values : List V} {k : K} {group : List V} :
    (k, group) ∈ groups key values ↔ group = values.filter (key · = k) ∧ group ≠ [] := by
  have hnodup := nodup_keys_collect (values.map fun value => (key value, value))
  rw [groups, mem_sortedItems]
  constructor
  · intro hmem
    have hvalues := values_of_mem_collect hmem
    rw [filter_keyed] at hvalues
    exact ⟨hvalues, ne_nil_of_mem_collect hmem⟩
  · rintro ⟨rfl, hne⟩
    have hlookup := lookup_keyed key values k
    rw [if_neg hne] at hlookup
    exact mem_of_lookup hlookup

/-- The keys of the groups are strictly increasing. -/
theorem strict_groups (key : V → K) (values : List V) :
    (groups key values).Pairwise fun a b => a.1 < b.1 :=
  strict_sortedItems (nodup_keys_collect _)

/-- What is made of the groups does not depend on the order of the values if it does not
within each group. -/
theorem groups_congr {W : Type w} {key : V → K} {values values' : List V} (f : List V → W)
    (h : values.Perm values')
    (hf : ∀ k, f (values.filter (key · = k)) = f (values'.filter (key · = k))) :
    (groups key values).map (fun group => (group.1, f group.2)) =
      (groups key values').map fun group => (group.1, f group.2) := by
  have hkeys : ∀ values : List V, (((collect (values.map fun value => (key value, value))).map
      fun group => (group.1, f group.2)).map (·.1)).Nodup := by
    intro values
    rw [map_map]
    exact nodup_keys_collect _
  rw [groups, groups, ← sortedItems_map_value, ← sortedItems_map_value]
  refine sortedItems_congr (hkeys values) (hkeys values') fun k => ?_
  have hfilter : (values.filter (key · = k)).Perm (values'.filter (key · = k)) := h.filter _
  rw [lookup_map_value, lookup_map_value, lookup_keyed, lookup_keyed]
  by_cases hempty : values.filter (key · = k) = []
  · have hempty' := perm_nil.1 (hempty ▸ hfilter.symm)
    rw [if_pos hempty, if_pos hempty', Option.map_none]
  · have hempty' : values'.filter (key · = k) ≠ [] :=
      fun heq => hempty (perm_nil.1 (heq ▸ hfilter))
    rw [if_neg hempty, if_neg hempty', Option.map_some, Option.map_some, hf k]

end Dicts
