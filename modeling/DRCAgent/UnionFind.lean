/-
# Union-find by least elements

A small library: a union-find forest over a linear order in which the root of a merged
class is the lesser of the two roots. So a parent is never greater than its child,
which is what makes the search for a root end; the forest carries that as a field.

`find` halves the path it walks. Its fuel is the number of the elements, which is
enough (`find_isRoot`). `groups` collects the elements by their roots and is a
partition of them, in order (`groups_perm`).
-/
import Mathlib.Data.List.Sort
import DRCAgent.InsertionDict

namespace Disjoint

open Function List

universe u

variable {α : Type u} [LinearOrder α]

/-- A forest over the elements `ids`. -/
structure UnionFind (α : Type u) [LinearOrder α] where
  ids : List α
  parent : α → α
  parent_le : ∀ x, parent x ≤ x

namespace UnionFind

/-- Every element is its own parent. -/
def ofIds (ids : List α) : UnionFind α where
  ids := ids
  parent := id
  parent_le := fun _ => le_rfl

/-- The parents of elements are elements. -/
def Closed (uf : UnionFind α) : Prop := ∀ x ∈ uf.ids, uf.parent x ∈ uf.ids

/-- `item` gets a parent that is not greater. -/
def setParent (uf : UnionFind α) (item target : α) (hle : target ≤ item) : UnionFind α where
  ids := uf.ids
  parent := update uf.parent item target
  parent_le := by
    intro x
    by_cases hx : x = item
    · rw [hx, update_self]
      exact hle
    · rw [update_of_ne hx]
      exact uf.parent_le x

/-- `parent[item] = parent[parent[item]]` -/
def halve (uf : UnionFind α) (item : α) : UnionFind α :=
  uf.setParent item (uf.parent (uf.parent item)) ((uf.parent_le _).trans (uf.parent_le item))

/-- The walk to the root. -/
def findFuel : ℕ → UnionFind α → α → α × UnionFind α
  | 0, uf, item => (item, uf)
  | fuel + 1, uf, item =>
    if uf.parent item = item then (item, uf)
    else findFuel fuel (uf.halve item) ((uf.halve item).parent item)

/-- The root of an element, and the forest with the path halved. -/
def find (uf : UnionFind α) (item : α) : α × UnionFind α := findFuel uf.ids.length uf item

/-- The classes of two elements become one, under the lesser of their roots. -/
def union (uf : UnionFind α) (left right : α) : UnionFind α :=
  let a := (uf.find left).1
  let uf₁ := (uf.find left).2
  let b := (uf₁.find right).1
  let uf₂ := (uf₁.find right).2
  if a = b then uf₂
  else if h : b < a then uf₂.setParent a b h.le
  else uf₂.setParent b a (not_lt.1 h)

/-- One turn of the loop of `groups`. -/
def collect (state : UnionFind α × List (α × List α)) (item : α) :
    UnionFind α × List (α × List α) :=
  ((state.1.find item).2, Dicts.append (state.1.find item).1 item state.2)

/-- The elements by their roots, in order. -/
def groups (uf : UnionFind α) : List (List α) :=
  ((uf.ids.insertionSort (· ≤ ·)).foldl collect (uf, [])).2.map (·.2)

section Find

variable {uf : UnionFind α} {item target x : α} {fuel : ℕ}

theorem closed_ofIds (ids : List α) : (ofIds ids).Closed := fun _ h => h

theorem Closed.setParent (h : uf.Closed) (hle : target ≤ item)
    (hmem : item ∈ uf.ids → target ∈ uf.ids) : (uf.setParent item target hle).Closed := by
  intro x hx
  show update uf.parent item target x ∈ uf.ids
  by_cases hxi : x = item
  · rw [hxi] at hx ⊢
    rw [update_self]
    exact hmem hx
  · rw [update_of_ne hxi]
    exact h x hx

theorem Closed.halve (h : uf.Closed) (item : α) : (uf.halve item).Closed :=
  h.setParent _ fun hmem => h _ (h item hmem)

theorem halve_parent_self : (uf.halve item).parent item = uf.parent (uf.parent item) :=
  update_self ..

/-- The elements below `item`. -/
def below (uf : UnionFind α) (item : α) : List α := uf.ids.filter (· < item)

/-- A proper ancestor has fewer elements below it. -/
theorem length_below_lt (hx : x ∈ uf.ids) (hlt : x < item) :
    (uf.below x).length < (uf.below item).length := by
  have hsub : (uf.below x).Sublist (uf.below item) := by
    refine monotone_filter_right uf.ids ?_
    intro y hy
    rw [decide_eq_true_eq] at hy ⊢
    exact hy.trans hlt
  have hne : uf.below x ≠ uf.below item := by
    intro heq
    have hmem : x ∈ uf.below item := mem_filter.2 ⟨hx, decide_eq_true hlt⟩
    rw [← heq] at hmem
    have hself := (mem_filter.1 hmem).2
    rw [decide_eq_true_eq] at hself
    exact lt_irrefl x hself
  refine lt_of_le_of_ne hsub.length_le ?_
  intro heq
  exact hne (hsub.eq_of_length heq)

theorem findFuel_ids : (findFuel fuel uf item).2.ids = uf.ids := by
  induction fuel generalizing uf item with
  | zero => rfl
  | succ fuel ih =>
    rw [findFuel]
    split_ifs with hroot
    · rfl
    · rw [ih]
      rfl

theorem find_ids (uf : UnionFind α) (item : α) : (uf.find item).2.ids = uf.ids := findFuel_ids

/-- The root of an element is an element, and the forest stays closed. -/
theorem Closed.findFuel (h : uf.Closed) (hitem : item ∈ uf.ids) :
    (findFuel fuel uf item).1 ∈ uf.ids ∧ (UnionFind.findFuel fuel uf item).2.Closed := by
  induction fuel generalizing uf item with
  | zero => exact ⟨hitem, h⟩
  | succ fuel ih =>
    rw [UnionFind.findFuel]
    split_ifs with hroot
    · exact ⟨hitem, h⟩
    · exact ih (h.halve item) (h.halve item item hitem)

/-- With more fuel than there are elements below, the walk ends at a root. -/
theorem findFuel_isRoot (h : uf.Closed) (hitem : item ∈ uf.ids)
    (hfuel : (uf.below item).length < fuel) :
    (findFuel fuel uf item).2.parent (findFuel fuel uf item).1 = (findFuel fuel uf item).1 := by
  induction fuel generalizing uf item with
  | zero => omega
  | succ fuel ih =>
    rw [findFuel]
    split_ifs with hroot
    · exact hroot
    · have hmem : uf.parent (uf.parent item) ∈ uf.ids := h _ (h item hitem)
      have hlt : uf.parent (uf.parent item) < item :=
        (uf.parent_le _).trans_lt (lt_of_le_of_ne (uf.parent_le item) hroot)
      have hless := length_below_lt hmem hlt
      rw [halve_parent_self]
      refine ih (h.halve item) hmem ?_
      show (uf.below (uf.parent (uf.parent item))).length < fuel
      omega

/-- **The fuel is enough**: `find` returns a root. -/
theorem find_isRoot (h : uf.Closed) (hitem : item ∈ uf.ids) :
    (uf.find item).2.parent (uf.find item).1 = (uf.find item).1 := by
  refine findFuel_isRoot h hitem ?_
  have hsub : (uf.below item).Sublist uf.ids := filter_sublist
  refine lt_of_le_of_ne hsub.length_le ?_
  intro heq
  have hall : uf.below item = uf.ids := hsub.eq_of_length heq
  rw [← hall] at hitem
  have hself := (mem_filter.1 hitem).2
  rw [decide_eq_true_eq] at hself
  exact lt_irrefl item hself

theorem union_ids (uf : UnionFind α) (left right : α) : (uf.union left right).ids = uf.ids := by
  have hids : ((uf.find left).2.find right).2.ids = uf.ids := by
    rw [find_ids, find_ids]
  unfold union
  dsimp only
  split_ifs
  · exact hids
  · exact hids
  · exact hids

/-- A union of elements keeps the forest closed. -/
theorem Closed.union (h : uf.Closed) {left right : α} (hleft : left ∈ uf.ids)
    (hright : right ∈ uf.ids) : (uf.union left right).Closed := by
  have hfirst : (uf.find left).1 ∈ uf.ids ∧ (uf.find left).2.Closed := h.findFuel hleft
  have hids₁ := find_ids uf left
  have hright₁ : right ∈ (uf.find left).2.ids := hids₁.symm ▸ hright
  have hsecond : ((uf.find left).2.find right).1 ∈ (uf.find left).2.ids ∧
      ((uf.find left).2.find right).2.Closed := hfirst.2.findFuel hright₁
  have hids₂ := find_ids (uf.find left).2 right
  unfold UnionFind.union
  dsimp only
  split_ifs with hsame hlt
  · exact hsecond.2
  · refine hsecond.2.setParent hlt.le fun _ => ?_
    rw [hids₂]
    exact hsecond.1
  · refine hsecond.2.setParent (not_lt.1 hlt) fun _ => ?_
    rw [hids₂, hids₁]
    exact hfirst.1

end Find

section Groups

variable {items : List α} {state : UnionFind α × List (α × List α)}

theorem collect_perm (items : List α) (state : UnionFind α × List (α × List α)) :
    ((items.foldl collect state).2.map (·.2)).flatten.Perm
      (items ++ (state.2.map (·.2)).flatten) := by
  induction items generalizing state with
  | nil => exact Perm.refl _
  | cons item rest ih =>
    rw [foldl_cons]
    refine (ih (collect state item)).trans ?_
    have hone := Dicts.append_perm (state.1.find item).1 item state.2
    exact (hone.append_left rest).trans perm_middle

theorem collect_ne_nil (items : List α) (h : ∀ entry ∈ state.2, entry.2 ≠ []) :
    ∀ entry ∈ (items.foldl collect state).2, entry.2 ≠ [] := by
  induction items generalizing state with
  | nil => exact h
  | cons item rest ih =>
    rw [foldl_cons]
    exact ih (Dicts.append_ne_nil h)

/-- **The groups partition the elements.** -/
theorem groups_perm (uf : UnionFind α) : uf.groups.flatten.Perm uf.ids := by
  have hcollect := collect_perm (uf.ids.insertionSort (· ≤ ·)) (uf, [])
  rw [map_nil, flatten_nil, append_nil] at hcollect
  exact hcollect.trans (perm_insertionSort _ _)

/-- No group is empty. -/
theorem groups_ne_nil {uf : UnionFind α} {group : List α} (h : group ∈ uf.groups) : group ≠ [] := by
  obtain ⟨entry, hentry, rfl⟩ := mem_map.1 h
  have hstart : ∀ entry ∈ ((uf, []) : UnionFind α × List (α × List α)).2, entry.2 ≠ [] := by
    intro entry hentry
    cases hentry
  exact collect_ne_nil _ hstart entry hentry

end Groups

end UnionFind

end Disjoint
