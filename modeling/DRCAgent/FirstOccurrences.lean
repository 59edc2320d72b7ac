/-
# First occurrences

A small library: the elements of a list in the order of their first occurrences, as the keys
of an insertion-ordered dictionary are, and the first few of them.

* `take_firsts_perm_iff`: some elements are the first ones exactly when each of them is met
  before every other element.
* `idxOf_flatten_lt_iff`: what is met first in a list of groups.
* `lookup_flatten`: what is found in a list of groups is found in the first group that has
  the key.
-/
import DRCAgent.InsertionDict
import Mathlib.Data.List.Induction
import Mathlib.Data.List.Perm.Subperm
import Mathlib.Order.Lattice

namespace FirstOccurrences

open List

universe u v

variable {K : Type u} {V : Type v} [DecidableEq K]

/-- The elements of a list, each once, in the order of their first occurrences. -/
def firsts (l : List K) : List K :=
  l.foldl (fun seen x => if x ∈ seen then seen else seen ++ [x]) []

theorem firsts_concat (l : List K) (x : K) :
    firsts (l ++ [x]) = if x ∈ firsts l then firsts l else firsts l ++ [x] := by
  rw [firsts, foldl_append, foldl_cons, foldl_nil, ← firsts]

theorem mem_firsts {l : List K} {x : K} : x ∈ firsts l ↔ x ∈ l := by
  induction l using reverseRecOn with
  | nil => rfl
  | append_singleton l y ih =>
    rw [firsts_concat, mem_append, mem_singleton]
    by_cases hy : y ∈ firsts l
    · rw [if_pos hy, ih]
      constructor
      · exact Or.inl
      · rintro (hx | rfl)
        · exact hx
        · exact ih.1 hy
    · rw [if_neg hy, mem_append, mem_singleton, ih]

theorem nodup_firsts (l : List K) : (firsts l).Nodup := by
  induction l using reverseRecOn with
  | nil => exact nodup_nil
  | append_singleton l y ih =>
    rw [firsts_concat]
    by_cases hy : y ∈ firsts l
    · rwa [if_pos hy]
    · rw [if_neg hy]
      exact ih.append (nodup_singleton y) (disjoint_singleton.2 hy)

theorem firsts_of_nodup {l : List K} (h : l.Nodup) : firsts l = l := by
  induction l using reverseRecOn with
  | nil => rfl
  | append_singleton l y ih =>
    obtain ⟨hl, -, hdisjoint⟩ := nodup_append'.1 h
    have hy : y ∉ l := fun hmem => hdisjoint hmem (mem_singleton_self y)
    rw [firsts_concat, ih hl, if_neg hy]

/-- They come in the order in which they are met. -/
theorem pairwise_firsts (l : List K) :
    (firsts l).Pairwise fun a b => l.idxOf a < l.idxOf b := by
  induction l using reverseRecOn with
  | nil => exact Pairwise.nil
  | append_singleton l y ih =>
    have hold : (firsts l).Pairwise fun a b => (l ++ [y]).idxOf a < (l ++ [y]).idxOf b := by
      refine ih.imp_of_mem fun ha hb hlt => ?_
      rwa [idxOf_append_of_mem (mem_firsts.1 ha), idxOf_append_of_mem (mem_firsts.1 hb)]
    rw [firsts_concat]
    by_cases hy : y ∈ firsts l
    · rwa [if_pos hy]
    · rw [if_neg hy, pairwise_append]
      refine ⟨hold, pairwise_singleton _ _, fun a ha b hb => ?_⟩
      rw [mem_singleton.1 hb, idxOf_append_of_mem (mem_firsts.1 ha),
        idxOf_append_of_notMem (fun hmem => hy (mem_firsts.2 hmem))]
      exact Nat.lt_add_right _ (idxOf_lt_length_of_mem (mem_firsts.1 ha))

/-- The keys of a dictionary come in the order of their first assignments. -/
theorem keys_ofList (entries : List (K × V)) :
    (Dicts.ofList entries).map (·.1) = firsts (entries.map (·.1)) := by
  induction entries using reverseRecOn with
  | nil => rfl
  | append_singleton entries entry ih =>
    rw [map_append, map_singleton, firsts_concat, ← ih, Dicts.ofList,
      foldl_append, foldl_cons, foldl_nil, ← Dicts.ofList]
    by_cases hkey : entry.1 ∈ (Dicts.ofList entries).map (·.1)
    · rw [if_pos hkey, Dicts.keys_insert_of_mem hkey]
    · rw [if_neg hkey, Dicts.insert_of_notMem hkey, map_append, map_singleton]

/-! ## The first few -/

/-- Of two elements, one among the first and one not, the first one is met before. -/
theorem idxOf_lt_of_mem_take {l : List K} {n : ℕ} {p q : K} (hp : p ∈ (firsts l).take n)
    (hq : q ∈ l) (hrest : q ∉ (firsts l).take n) : l.idxOf p < l.idxOf q := by
  have hdrop : q ∈ (firsts l).drop n := by
    rw [← mem_firsts, ← take_append_drop n (firsts l), mem_append] at hq
    exact hq.resolve_left hrest
  have hpairs := pairwise_firsts l
  rw [← take_append_drop n (firsts l), pairwise_append] at hpairs
  exact hpairs.2.2 p hp q hdrop

/-- **The first elements** are those that are each met before every other one. -/
theorem take_firsts_perm_iff {l chosen : List K} {n : ℕ} (hnodup : chosen.Nodup)
    (hlength : chosen.length = n) (hsub : chosen ⊆ l) :
    ((firsts l).take n).Perm chosen ↔
      ∀ p ∈ chosen, ∀ q ∈ l, q ∉ chosen → l.idxOf p < l.idxOf q := by
  have hlength' : ((firsts l).take n).length = n := by
    have hle := (subperm_of_subset hnodup fun _ hp => mem_firsts.2 (hsub hp)).length_le
    rw [length_take, ← hlength, min_eq_left hle]
  have htake := (nodup_firsts l).sublist (take_sublist n _)
  constructor
  · intro hperm p hp q hq hrest
    exact idxOf_lt_of_mem_take (hperm.mem_iff.2 hp) hq fun h => hrest (hperm.mem_iff.1 h)
  · intro h
    -- one of the first that is not chosen would be met after all the chosen, which then fill
    -- the first places
    refine (subperm_of_subset htake fun q hq => ?_).perm_of_length_le (by omega)
    by_contra hnot
    have hchosen : chosen ⊆ (firsts l).take n := by
      intro p hp
      by_contra hrest
      have hlt := h p hp q (mem_firsts.1 (mem_of_mem_take hq)) hnot
      exact lt_asymm hlt (idxOf_lt_of_mem_take hq (hsub hp) hrest)
    have hperm := (subperm_of_subset hnodup hchosen).perm_of_length_le (by omega)
    exact hnot (hperm.mem_iff.2 hq)

/-! ## Groups -/

/-- Of two elements the first is met before the second in a list of groups where a group has
it, before the second if that is in the group at all, and no group before has the second. -/
theorem idxOf_flatten_lt_iff {groups : List (List K)} {p q : K} :
    groups.flatten.idxOf p < groups.flatten.idxOf q ↔
      ∃ before group after, groups = before ++ group :: after ∧ (∀ g ∈ before, q ∉ g) ∧
        group.idxOf p < group.idxOf q := by
  induction groups with
  | nil => simp
  | cons group groups ih =>
    rw [flatten_cons]
    by_cases hq : q ∈ group
    · -- the first group decides
      have hsplit : (∃ before g after, group :: groups = before ++ g :: after ∧
          (∀ g ∈ before, q ∉ g) ∧ g.idxOf p < g.idxOf q) ↔
            group.idxOf p < group.idxOf q := by
        constructor
        · rintro ⟨before, g, after, heq, hbefore, hlt⟩
          cases before with
          | nil =>
            obtain ⟨rfl, -⟩ := cons.inj heq
            exact hlt
          | cons first before =>
            obtain ⟨rfl, -⟩ := cons.inj heq
            exact absurd hq (hbefore _ mem_cons_self)
        · exact fun hlt => ⟨[], group, groups, rfl, fun _ h => absurd h not_mem_nil, hlt⟩
      rw [hsplit, idxOf_append_of_mem hq]
      by_cases hp : p ∈ group
      · rw [idxOf_append_of_mem hp]
      · have hlt := idxOf_lt_length_of_mem hq
        rw [idxOf_append_of_notMem hp, idxOf_of_notMem hp]
        omega
    · rw [idxOf_append_of_notMem hq]
      by_cases hp : p ∈ group
      · have hlt := idxOf_lt_length_of_mem hp
        rw [idxOf_append_of_mem hp]
        refine iff_of_true (by omega) ⟨[], group, groups, rfl, ?_, ?_⟩
        · exact fun _ h => absurd h not_mem_nil
        · rwa [idxOf_of_notMem hq]
      · -- neither is in the first group
        rw [idxOf_append_of_notMem hp, Nat.add_lt_add_iff_left, ih]
        constructor
        · rintro ⟨before, g, after, rfl, hbefore, hlt⟩
          refine ⟨group :: before, g, after, rfl, ?_, hlt⟩
          exact forall_mem_cons.2 ⟨hq, hbefore⟩
        · rintro ⟨before, g, after, heq, hbefore, hlt⟩
          cases before with
          | nil =>
            obtain ⟨rfl, -⟩ := cons.inj heq
            rw [idxOf_of_notMem hp, idxOf_of_notMem hq] at hlt
            exact absurd hlt (lt_irrefl _)
          | cons first before =>
            obtain ⟨rfl, rfl⟩ := cons.inj heq
            exact ⟨before, g, after, rfl, (forall_mem_cons.1 hbefore).2, hlt⟩

/-- What is found in a list of groups is found in the first group that has the key. -/
theorem lookup_flatten {groups : List (List (K × V))} {k : K} {value : V}
    (h : groups.flatten.lookup k = some value) :
    ∃ before group after, groups = before ++ group :: after ∧ (k, value) ∈ group ∧
      ∀ g ∈ before, k ∉ g.map (·.1) := by
  induction groups with
  | nil => cases h
  | cons group groups ih =>
    rw [flatten_cons, List.lookup_append] at h
    cases hgroup : group.lookup k with
    | some found =>
      rw [hgroup, Option.some_or] at h
      obtain rfl := Option.some.inj h
      refine ⟨[], group, groups, rfl, Dicts.mem_of_lookup hgroup, ?_⟩
      exact fun _ hmem => absurd hmem not_mem_nil
    | none =>
      rw [hgroup, Option.none_or] at h
      obtain ⟨before, g, after, rfl, hmem, hbefore⟩ := ih h
      refine ⟨group :: before, g, after, rfl, hmem, forall_mem_cons.2 ⟨?_, hbefore⟩⟩
      intro hkey
      obtain ⟨entry, hentry, rfl⟩ := mem_map.1 hkey
      have hne := lookup_eq_none_iff.1 hgroup entry hentry
      exact absurd hne (by simp)

end FirstOccurrences
