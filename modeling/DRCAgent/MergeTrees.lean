/-
# Merges in any bracketing

A library about reducers: binary functions that combine lists of updates, which a
runtime may apply in any grouping. A tree records one grouping; its leaves are the
updates in order.

* A reducer that normalizes the concatenation of its arguments, by a normalization that
  absorbs itself on both sides, gives every grouping the normalization of all the updates
  (`fold_eq_normal`), so the grouping does not matter (`fold_eq_of_leaves`).
* `keepFirst` keeps the first item of every identity, `keepLast` the last item of every key,
  by key. Both absorb themselves (`keepFirst_absorbs`, `keepLast_absorbs`).
* What `keepLast` keeps is determined by the last item of each key (`keepLast_eq_iff`), so
  updates without a common key can come in any order (`lastOf_flatten_perm`).
-/
import DRCAgent.InsertionDict
import Mathlib.Data.List.Sort
import Mathlib.Data.List.Perm.Basic

namespace Merges

open List

universe u v

/-! ## Trees of merges -/

/-- A grouping of updates: an update by itself, or the merge of two groupings. -/
inductive MergeTree (A : Type u)
  | update (value : A)
  | merge (left right : MergeTree A)

namespace MergeTree

variable {A : Type u}

/-- The updates, from left to right. -/
def leaves : MergeTree A → List A
  | update value => [value]
  | merge left right => left.leaves ++ right.leaves

/-- The result of the merges. -/
def fold (reduce : A → A → A) : MergeTree A → A
  | update value => value
  | merge left right => reduce (left.fold reduce) (right.fold reduce)

theorem leaves_ne_nil (t : MergeTree A) : t.leaves ≠ [] := by
  induction t with
  | update value => exact cons_ne_nil value []
  | merge left right ihLeft _ => exact append_ne_nil_of_left_ne_nil ihLeft _

/-- A merge has at least two updates. -/
theorem two_le_leaves_merge (left right : MergeTree A) :
    2 ≤ (merge left right).leaves.length := by
  have hleft := length_pos_iff.2 left.leaves_ne_nil
  have hright := length_pos_iff.2 right.leaves_ne_nil
  rw [leaves, length_append]
  omega

end MergeTree

/-! ## Reducers that normalize a concatenation -/

section Absorbing

variable {A : Type u} {normal : List A → List A} {reduce : List A → List A → List A}

/-- The normalization of a part does not change the normalization of the whole. -/
structure Absorbs (normal : List A → List A) : Prop where
  left (l r : List A) : normal (normal l ++ r) = normal (l ++ r)
  right (l r : List A) : normal (l ++ normal r) = normal (l ++ r)

/-- Inside a concatenation, a grouping can be replaced by its updates. -/
theorem normal_fold (habsorbs : Absorbs normal) (hreduce : ∀ l r, reduce l r = normal (l ++ r))
    (t : MergeTree (List A)) : ∀ before after : List A,
      normal (before ++ t.fold reduce ++ after) = normal (before ++ t.leaves.flatten ++ after) := by
  induction t with
  | update value =>
    intro before after
    rw [MergeTree.fold, MergeTree.leaves, flatten_singleton]
  | merge left right ihLeft ihRight =>
    intro before after
    rw [MergeTree.fold, MergeTree.leaves, flatten_append, hreduce]
    calc normal (before ++ normal (left.fold reduce ++ right.fold reduce) ++ after)
        = normal (before ++ (left.fold reduce ++ right.fold reduce) ++ after) := by
          rw [← habsorbs.left, habsorbs.right, habsorbs.left]
      _ = normal (before ++ left.fold reduce ++ (right.fold reduce ++ after)) := by
          simp only [append_assoc]
      _ = normal (before ++ left.leaves.flatten ++ right.fold reduce ++ after) := by
          rw [ihLeft]
          simp only [append_assoc]
      _ = normal (before ++ (left.leaves.flatten ++ right.leaves.flatten) ++ after) := by
          rw [ihRight]
          simp only [append_assoc]

/-- **Every merge** is the normalization of all its updates. -/
theorem fold_eq_normal (habsorbs : Absorbs normal) (hreduce : ∀ l r, reduce l r = normal (l ++ r))
    (left right : MergeTree (List A)) :
    (MergeTree.merge left right).fold reduce =
      normal (MergeTree.merge left right).leaves.flatten := by
  have hleft := normal_fold habsorbs hreduce left [] (right.fold reduce)
  have hright := normal_fold habsorbs hreduce right left.leaves.flatten []
  rw [nil_append, nil_append] at hleft
  rw [append_nil, append_nil] at hright
  rw [MergeTree.fold, hreduce, hleft, hright, MergeTree.leaves, flatten_append]

/-- Groupings of the same updates give the same result. -/
theorem fold_eq_of_leaves (habsorbs : Absorbs normal)
    (hreduce : ∀ l r, reduce l r = normal (l ++ r)) {t t' : MergeTree (List A)}
    (h : t.leaves = t'.leaves) : t.fold reduce = t'.fold reduce := by
  cases t with
  | update value =>
    cases t' with
    | update value' =>
      rw [MergeTree.leaves, MergeTree.leaves] at h
      exact singleton_injective h
    | merge left' right' =>
      have htwo := MergeTree.two_le_leaves_merge left' right'
      rw [← h, MergeTree.leaves, length_singleton] at htwo
      omega
  | merge left right =>
    cases t' with
    | update value' =>
      have htwo := MergeTree.two_le_leaves_merge left right
      rw [h, MergeTree.leaves, length_singleton] at htwo
      omega
    | merge left' right' =>
      rw [fold_eq_normal habsorbs hreduce, fold_eq_normal habsorbs hreduce, h]

end Absorbing

/-! ## The first item of every identity -/

section First

variable {A : Type u} {K : Type v} [DecidableEq K] {identity : A → K}

/-- The items whose identity is neither seen before nor earlier in the list. -/
def keepFirst (identity : A → K) (seen : List K) : List A → List A
  | [] => []
  | item :: rest =>
    if identity item ∈ seen then keepFirst identity seen rest
    else item :: keepFirst identity (identity item :: seen) rest

/-- What is kept depends on the set of what is seen. -/
theorem keepFirst_congr {seen seen' : List K} (h : ∀ k, k ∈ seen ↔ k ∈ seen') (l : List A) :
    keepFirst identity seen l = keepFirst identity seen' l := by
  induction l generalizing seen seen' with
  | nil => rfl
  | cons item rest ih =>
    rw [keepFirst, keepFirst, ih h]
    by_cases hitem : identity item ∈ seen
    · rw [if_pos hitem, if_pos ((h _).1 hitem)]
    · rw [if_neg hitem, if_neg (fun hmem => hitem ((h _).2 hmem))]
      congr 1
      apply ih
      intro k
      rw [mem_cons, mem_cons, h k]

/-- A list is read after what precedes it has been seen. -/
theorem keepFirst_append (seen : List K) (l r : List A) :
    keepFirst identity seen (l ++ r) =
      keepFirst identity seen l ++ keepFirst identity (l.map identity ++ seen) r := by
  induction l generalizing seen with
  | nil => rfl
  | cons item rest ih =>
    rw [cons_append, keepFirst, keepFirst, ih, ih]
    by_cases hitem : identity item ∈ seen
    · rw [if_pos hitem, if_pos hitem]
      congr 1
      apply keepFirst_congr
      intro k
      simp only [map_cons, cons_append, mem_cons, mem_append]
      constructor
      · exact Or.inr
      · rintro (rfl | hk)
        · exact Or.inr hitem
        · exact hk
    · rw [if_neg hitem, if_neg hitem, cons_append]
      congr 2
      apply keepFirst_congr
      intro k
      simp only [map_cons, cons_append, mem_cons, mem_append]
      tauto

/-- What was dropped as seen would be dropped again. -/
theorem keepFirst_keepFirst {seen seen' : List K} (h : ∀ k ∈ seen', k ∈ seen) (l : List A) :
    keepFirst identity seen (keepFirst identity seen' l) = keepFirst identity seen l := by
  induction l generalizing seen seen' with
  | nil => rfl
  | cons item rest ih =>
    rw [keepFirst]
    by_cases hitem' : identity item ∈ seen'
    · rw [if_pos hitem', ih h, keepFirst, if_pos (h _ hitem')]
    · rw [if_neg hitem', keepFirst, keepFirst]
      by_cases hitem : identity item ∈ seen
      · rw [if_pos hitem, if_pos hitem]
        apply ih
        intro k hk
        rcases mem_cons.1 hk with rfl | hk
        · exact hitem
        · exact h k hk
      · rw [if_neg hitem, if_neg hitem]
        congr 1
        apply ih
        intro k hk
        rcases mem_cons.1 hk with rfl | hk
        · exact mem_cons_self
        · exact mem_cons_of_mem _ (h k hk)

/-- Nothing is kept of what has been seen. -/
theorem keepFirst_eq_nil {seen : List K} {l : List A} (h : ∀ item ∈ l, identity item ∈ seen) :
    keepFirst identity seen l = [] := by
  induction l with
  | nil => rfl
  | cons item rest ih =>
    rw [keepFirst, if_pos (h item mem_cons_self)]
    exact ih fun other hother => h other (mem_cons_of_mem _ hother)

/-- The identities that are kept. -/
theorem mem_identities_keepFirst {seen : List K} {l : List A} {k : K} :
    k ∈ (keepFirst identity seen l).map identity ++ seen ↔ k ∈ l.map identity ++ seen := by
  induction l generalizing seen with
  | nil => rfl
  | cons item rest ih =>
    rw [keepFirst]
    by_cases hitem : identity item ∈ seen
    · rw [if_pos hitem, ih]
      simp only [map_cons, cons_append, mem_cons, mem_append]
      constructor
      · exact Or.inr
      · rintro (rfl | hk)
        · exact Or.inr hitem
        · exact hk
    · have hrest : k ∈ (keepFirst identity (identity item :: seen) rest).map identity ++
          identity item :: seen ↔ k ∈ rest.map identity ++ identity item :: seen := ih
      simp only [mem_append, mem_cons] at hrest
      rw [if_neg hitem]
      simp only [map_cons, cons_append, mem_cons, mem_append]
      tauto

theorem keepFirst_absorbs : Absorbs (keepFirst identity []) where
  left l r := by
    rw [keepFirst_append, keepFirst_append, keepFirst_keepFirst (fun _ => id)]
    congr 1
    exact keepFirst_congr (fun _ => mem_identities_keepFirst) r
  right l r := by
    rw [keepFirst_append, keepFirst_append, keepFirst_keepFirst]
    exact fun _ hk => (nomatch hk)

/-- A part is not added to the whole again. -/
theorem keepFirst_append_of_subset {l part : List A} (h : ∀ item ∈ part, item ∈ l) :
    keepFirst identity [] (keepFirst identity [] l ++ part) = keepFirst identity [] l := by
  rw [keepFirst_absorbs.left, keepFirst_append]
  have hseen : keepFirst identity (l.map identity ++ []) part = [] := by
    apply keepFirst_eq_nil
    intro item hitem
    rw [append_nil]
    exact mem_map_of_mem (h item hitem)
  rw [hseen, append_nil]

end First

/-! ## The last item of every key -/

section Last

variable {A : Type u} {K : Type v} [LinearOrder K] {key : A → K}

/-- The last item with the key. -/
def lastOf (key : A → K) (k : K) (l : List A) : Option A := l.reverse.find? fun item => key item = k

/-- The dictionary of the items by key, in which a later item replaces an earlier one. -/
def byKey (key : A → K) (l : List A) : List (K × A) :=
  Dicts.ofList (l.map fun item => (key item, item))

/-- The last item of every key, by key. -/
def keepLast (key : A → K) (l : List A) : List A :=
  (((byKey key l).map (·.1)).insertionSort (· ≤ ·)).filterMap fun k => (byKey key l).lookup k

theorem lastOf_append (k : K) (l r : List A) :
    lastOf key k (l ++ r) = (lastOf key k r).or (lastOf key k l) := by
  rw [lastOf, reverse_append, find?_append]
  rfl

theorem lastOf_isSome {k : K} {l : List A} : (lastOf key k l).isSome ↔ k ∈ l.map key := by
  rw [lastOf, find?_isSome, mem_map]
  simp only [mem_reverse, decide_eq_true_eq]

/-- No item has the key. -/
theorem lastOf_eq_none {k : K} {l : List A} (h : k ∉ l.map key) : lastOf key k l = none := by
  rw [← Option.not_isSome_iff_eq_none, lastOf_isSome]
  exact h

/-- The dictionary finds the last item. -/
theorem lookup_byKey (k : K) (l : List A) : (byKey key l).lookup k = lastOf key k l := by
  rw [byKey, Dicts.lookup_ofList, ← map_reverse, lastOf]
  induction l.reverse with
  | nil => rfl
  | cons item rest ih =>
    rw [map_cons, lookup_cons, find?_cons, ih]
    by_cases hk : key item = k
    · simp [hk]
    · have hbeq : (k == key item) = false := beq_eq_false_iff_ne.2 (Ne.symm hk)
      simp [hk, hbeq]

theorem mem_keys_byKey {k : K} {l : List A} : k ∈ (byKey key l).map (·.1) ↔ k ∈ l.map key := by
  rw [byKey, Dicts.mem_keys_ofList, map_map]
  rfl

theorem nodup_keys_byKey (l : List A) : ((byKey key l).map (·.1)).Nodup :=
  Dicts.nodup_keys_ofList _

/-- What is kept depends on the last item of each key. -/
theorem keepLast_congr {l l' : List A} (h : ∀ k, lastOf key k l = lastOf key k l') :
    keepLast key l = keepLast key l' := by
  have hkeys : ((byKey key l).map (·.1)).Perm ((byKey key l').map (·.1)) := by
    refine (perm_ext_iff_of_nodup (nodup_keys_byKey l) (nodup_keys_byKey l')).2 fun k => ?_
    rw [mem_keys_byKey, mem_keys_byKey, ← lastOf_isSome, ← lastOf_isSome, h k]
  have hsorted : ((byKey key l).map (·.1)).insertionSort (· ≤ ·) =
      ((byKey key l').map (·.1)).insertionSort (· ≤ ·) := by
    refine Perm.eq_of_pairwise (fun _ _ _ _ => le_antisymm)
      (pairwise_insertionSort _ _) (pairwise_insertionSort _ _) ?_
    exact ((perm_insertionSort _ _).trans hkeys).trans (perm_insertionSort _ _).symm
  rw [keepLast, keepLast, hsorted]
  refine filterMap_congr fun k _ => ?_
  rw [lookup_byKey, lookup_byKey, h k]

/-- What is kept, with its keys, is the dictionary in another order. -/
theorem keepLast_perm_byKey (l : List A) :
    ((keepLast key l).map fun item => (key item, item)).Perm (byKey key l) := by
  have hvalues : (keepLast key l).Perm ((byKey key l).map (·.2)) := by
    rw [← Dicts.filterMap_lookup (nodup_keys_byKey l)]
    exact (perm_insertionSort _ _).filterMap _
  refine (hvalues.map _).trans ?_
  rw [map_map]
  -- an entry of the dictionary has its item under the item's own key
  have hentries : (byKey key l).map ((fun item => (key item, item)) ∘ (·.2)) =
      (byKey key l).map id := by
    refine map_congr_left fun entry hentry => ?_
    obtain ⟨item, -, rfl⟩ := mem_map.1 (Dicts.mem_ofList hentry)
    rfl
  rw [hentries, map_id]

/-- The last item of a key is kept. -/
theorem lastOf_keepLast (k : K) (l : List A) : lastOf key k (keepLast key l) = lastOf key k l := by
  have hperm : ((keepLast key l).map fun item => (key item, item)).Perm (byKey key l) :=
    keepLast_perm_byKey l
  have hnodup : (((keepLast key l).map fun item => (key item, item)).map (·.1)).Nodup :=
    ((hperm.map _).nodup_iff).2 (nodup_keys_byKey l)
  rw [← lookup_byKey, ← lookup_byKey, byKey, Dicts.ofList_of_nodup hnodup]
  exact Dicts.lookup_perm (nodup_keys_byKey l) hperm.symm k

/-- **What is kept** is the same exactly if the last item of each key is. -/
theorem keepLast_eq_iff {l l' : List A} :
    keepLast key l = keepLast key l' ↔ ∀ k, lastOf key k l = lastOf key k l' := by
  constructor
  · intro h k
    rw [← lastOf_keepLast k l, h, lastOf_keepLast]
  · exact keepLast_congr

theorem keepLast_absorbs : Absorbs (keepLast key) where
  left l r := by
    apply keepLast_congr
    intro k
    rw [lastOf_append, lastOf_append, lastOf_keepLast]
  right l r := by
    apply keepLast_congr
    intro k
    rw [lastOf_append, lastOf_append, lastOf_keepLast]

/-- A part is added to the whole again without effect exactly if the whole ends with its last
items. -/
theorem keepLast_append_iff {l part : List A} :
    keepLast key (keepLast key l ++ part) = keepLast key l ↔
      ∀ item ∈ part, lastOf key (key item) part = lastOf key (key item) l := by
  rw [keepLast_absorbs.left, keepLast_eq_iff]
  constructor
  · intro h item hitem
    have hsome : (lastOf key (key item) part).isSome := lastOf_isSome.2 (mem_map_of_mem hitem)
    obtain ⟨last, hlast⟩ := Option.isSome_iff_exists.1 hsome
    have hk := h (key item)
    rw [lastOf_append, hlast, Option.some_or] at hk
    rw [hlast, hk]
  · intro h k
    rw [lastOf_append]
    by_cases hk : k ∈ part.map key
    · obtain ⟨item, hitem, rfl⟩ := mem_map.1 hk
      rw [h item hitem, Option.or_self]
    · rw [lastOf_eq_none hk, Option.none_or]

/-- The last items of updates without a common key do not depend on the order of the
updates. -/
theorem lastOf_flatten_perm {updates updates' : List (List A)} (h : updates.Perm updates')
    (hdisjoint : updates.Pairwise fun l r => ∀ k ∈ l.map key, k ∉ r.map key) (k : K) :
    lastOf key k updates.flatten = lastOf key k updates'.flatten := by
  induction h with
  | nil => rfl
  | cons update _ ih =>
    rw [flatten_cons, flatten_cons, lastOf_append, lastOf_append, ih (pairwise_cons.1 hdisjoint).2]
  | swap update other rest =>
    simp only [flatten_cons, lastOf_append, Option.or_assoc]
    congr 1
    have hapart := (pairwise_cons.1 hdisjoint).1 update mem_cons_self
    by_cases hk : k ∈ other.map key
    · rw [lastOf_eq_none (hapart k hk), Option.none_or, Option.or_none]
    · rw [lastOf_eq_none hk, Option.none_or, Option.or_none]
  | trans h₁ _ ih₁ ih₂ =>
    rw [ih₁ hdisjoint]
    apply ih₂
    refine (h₁.pairwise_iff ?_).1 hdisjoint
    exact fun hapart k hk hmem => hapart k hmem hk

end Last

end Merges
