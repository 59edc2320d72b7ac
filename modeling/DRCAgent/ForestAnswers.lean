/-
# What the dictionaries of parents answer

A dictionary of parents is a union-find forest (`Represents`), and its methods are the
operations of the forest (`call_find`, `call_union`, `call_groups`). So after any calls it has
the classes of the pairs that were united (`runCalls_spec`), and what it answers depends on
them only.

Main result:

* `forest_answers`: every call ends, the representative of an id is the least id of its
  component, and the groups are the components, in whatever order the calls were made.
-/
import DRCAgent.Connectivity
import DRCAgent.FirstOccurrences
import DRCAgent.ForestDicts
import Mathlib.Order.Bounds.Basic

namespace DRCAgent.Forests

open Disjoint (UnionFind)
open Disjoint.UnionFind
open FirstOccurrences (firsts)
open List Methods Option Relation

/-! ## The dictionary is a forest -/

/-- The dictionary has the parents of the forest. -/
structure Represents (parents : Parents) (uf : UnionFind String) : Prop where
  keys : parents.map (·.1) = uf.ids
  nodup : uf.ids.Nodup
  lookup : ∀ x ∈ uf.ids, parents.lookup x = some (uf.parent x)
  closed : uf.Closed

section Represents

variable {parents : Parents} {uf : UnionFind String} {item target : String}

theorem keys_init (ids : List String) : (init ids).map (·.1) = firsts ids := by
  rw [init, FirstOccurrences.keys_ofList, List.map_map]
  exact congrArg firsts (map_id ids)

/-- At first every id is alone. -/
theorem represents_init (ids : List String) :
    Represents (init ids) (ofIds (firsts ids)) where
  keys := keys_init ids
  nodup := FirstOccurrences.nodup_firsts ids
  lookup := by
    intro x hx
    have hkeys : x ∈ (init ids).map (·.1) := (keys_init ids).symm ▸ hx
    obtain ⟨⟨k, value⟩, hmem, rfl⟩ := mem_map.1 hkeys
    -- every entry that was assigned is an id with itself
    obtain ⟨id, -, hid⟩ := mem_map.1 (Dicts.mem_ofList hmem)
    obtain ⟨rfl, rfl⟩ := Prod.mk.inj hid
    exact Dicts.lookup_of_mem (Dicts.nodup_keys_ofList _) hmem
  closed := closed_ofIds _

theorem Represents.length (h : Represents parents uf) : parents.length = uf.ids.length := by
  rw [← h.keys, length_map]

theorem Represents.lookup_eq_none (h : Represents parents uf) (hitem : item ∉ uf.ids) :
    parents.lookup item = none := by
  rw [← h.keys] at hitem
  refine lookup_eq_none_iff.2 fun entry hentry => bne_iff_ne.2 ?_
  rintro rfl
  exact hitem (mem_map_of_mem hentry)

theorem Represents.setParent (h : Represents parents uf) (hitem : item ∈ uf.ids)
    (htarget : target ∈ uf.ids) (hle : target ≤ item) :
    Represents (Dicts.insert item target parents) (uf.setParent item target hle) where
  keys := by
    rw [Dicts.keys_insert_of_mem (h.keys ▸ hitem), h.keys]
    rfl
  nodup := h.nodup
  lookup := by
    intro x hx
    rw [Dicts.lookup_insert]
    by_cases hxi : x = item
    · have hself : (uf.setParent item target hle).parent item = target :=
        Function.update_self ..
      rw [if_pos hxi, hxi, hself]
    · have hother : (uf.setParent item target hle).parent x = uf.parent x :=
        Function.update_of_ne hxi ..
      rw [if_neg hxi, h.lookup x hx, hother]
  closed := h.closed.setParent hle fun _ => htarget

/-! ## The methods are the operations -/

theorem call_parentOf (h : Represents parents uf) (hitem : item ∈ uf.ids) :
    invoke (parentOf item) parents = some (.ok (uf.parent item), parents) := by
  rw [parentOf, invoke_bind_of_ok _ (invoke_get parents), h.lookup item hitem]
  rfl

theorem call_parentOf_unknown (h : Represents parents uf) (hitem : item ∉ uf.ids) :
    invoke (parentOf item) parents = some (.error ⟨item⟩, parents) := by
  rw [parentOf, invoke_bind_of_ok _ (invoke_get parents), h.lookup_eq_none hitem]
  rfl

/-- **The walk ends**: with more turns than there are ids below, it is the walk of the forest. -/
theorem call_walk (turns : ℕ) (h : Represents parents uf) (hitem : item ∈ uf.ids)
    (hturns : (uf.below item).length ≤ turns) : ∃ parents',
    invoke (walk (turns + 1) item) parents =
      some (.ok (findFuel turns uf item).1, parents') ∧
    Represents parents' (findFuel turns uf item).2 := by
  induction turns generalizing parents uf item with
  | zero =>
    -- nothing is below the id, so it is its own parent
    have hroot : uf.parent item = item := by
      by_contra hne
      have hlt := length_below_lt (h.closed item hitem) (lt_of_le_of_ne (uf.parent_le item) hne)
      omega
    refine ⟨parents, ?_, h⟩
    rw [walk, invoke_bind_of_ok _ (call_parentOf h hitem), if_pos hroot]
    rfl
  | succ turns ih =>
    rw [findFuel]
    by_cases hroot : uf.parent item = item
    · rw [if_pos hroot]
      refine ⟨parents, ?_, h⟩
      rw [walk, invoke_bind_of_ok _ (call_parentOf h hitem), if_pos hroot]
      rfl
    · rw [if_neg hroot]
      have hparent : uf.parent item ∈ uf.ids := h.closed item hitem
      have habove : uf.parent (uf.parent item) ∈ uf.ids := h.closed _ hparent
      have hlt : uf.parent (uf.parent item) < item :=
        (uf.parent_le _).trans_lt (lt_of_le_of_ne (uf.parent_le item) hroot)
      have hless := length_below_lt habove hlt
      have hhalve : Represents (Dicts.insert item (uf.parent (uf.parent item)) parents)
          (uf.halve item) := h.setParent hitem habove hlt.le
      have hbelow : ((uf.halve item).below ((uf.halve item).parent item)).length ≤ turns := by
        rw [halve_parent_self]
        show (uf.below (uf.parent (uf.parent item))).length ≤ turns
        omega
      obtain ⟨parents', hcall, hrep⟩ := ih hhalve (hhalve.closed item hitem) hbelow
      refine ⟨parents', ?_, hrep⟩
      rw [← hcall, walk, invoke_bind_of_ok _ (call_parentOf h hitem), if_neg hroot,
        invoke_bind_of_ok _ (call_parentOf h hitem),
        invoke_bind_of_ok _ (call_parentOf h hparent),
        Forests.setParent, invoke_bind_of_ok _ (invoke_modify _ _),
        invoke_bind_of_ok _ (call_parentOf hhalve hitem)]

/-- **`find` is the one of the forest.** -/
theorem call_find (h : Represents parents uf) (hitem : item ∈ uf.ids) : ∃ parents',
    invoke (find item) parents = some (.ok (uf.find item).1, parents') ∧
      Represents parents' (uf.find item).2 := by
  rw [find, invoke_bind_of_ok _ (invoke_get parents), h.length]
  exact call_walk uf.ids.length h hitem filter_sublist.length_le

/-- More turns change nothing to a walk that has ended. -/
theorem call_walk_mono {turns turns' : ℕ} (hle : turns ≤ turns')
    {out : Except KeyError String × Parents} (h : invoke (walk turns item) parents = some out) :
    invoke (walk turns' item) parents = some out := by
  induction turns generalizing turns' item parents with
  | zero => cases h
  | succ turns ih =>
    obtain ⟨turns', rfl⟩ := Nat.exists_eq_add_one_of_ne_zero (Nat.ne_zero_of_lt hle)
    have hle' : turns ≤ turns' := Nat.succ_le_succ_iff.1 hle
    rw [walk] at h ⊢
    refine invoke_bind_mono (fun parent s h => ?_) h
    by_cases hroot : parent = item
    · rw [if_pos hroot] at h ⊢
      exact h
    · rw [if_neg hroot] at h ⊢
      refine invoke_bind_mono (fun below s h => ?_) h
      refine invoke_bind_mono (fun above s h => ?_) h
      refine invoke_bind_mono (fun _ s h => ?_) h
      exact invoke_bind_mono (fun next s h => ih hle' h) h

/-- **However many turns the walk is given** beyond the number of the ids, it ends as in
`find`. -/
theorem call_walk_eq_find {turns : ℕ} (h : Represents parents uf) (hitem : item ∈ uf.ids)
    (hturns : parents.length < turns) :
    invoke (walk turns item) parents = invoke (find item) parents := by
  obtain ⟨parents', hcall, -⟩ := call_find h hitem
  rw [hcall]
  rw [find, invoke_bind_of_ok _ (invoke_get parents)] at hcall
  exact call_walk_mono hturns hcall

theorem call_find_unknown (h : Represents parents uf) (hitem : item ∉ uf.ids) :
    invoke (find item) parents = some (.error ⟨item⟩, parents) := by
  rw [find, invoke_bind_of_ok _ (invoke_get parents), walk,
    invoke_bind_of_error _ (call_parentOf_unknown h hitem)]

/-- **`union` is the one of the forest.** -/
theorem call_union (h : Represents parents uf) {left right : String} (hleft : left ∈ uf.ids)
    (hright : right ∈ uf.ids) : ∃ parents',
    invoke (union left right) parents = some (.ok (), parents') ∧
      Represents parents' (uf.union left right) := by
  obtain ⟨parents₁, hcall₁, hrep₁⟩ := call_find h hleft
  have hids₁ := find_ids uf left
  have hright₁ : right ∈ (uf.find left).2.ids := hids₁.symm ▸ hright
  obtain ⟨parents₂, hcall₂, hrep₂⟩ := call_find hrep₁ hright₁
  have hids₂ := find_ids (uf.find left).2 right
  have ha : (uf.find left).1 ∈ ((uf.find left).2.find right).2.ids := by
    rw [hids₂, hids₁]
    exact (h.closed.findFuel hleft).1
  have hb : ((uf.find left).2.find right).1 ∈ ((uf.find left).2.find right).2.ids := by
    rw [hids₂]
    exact (hrep₁.closed.findFuel hright₁).1
  rw [union, invoke_bind_of_ok _ hcall₁, invoke_bind_of_ok _ hcall₂]
  unfold UnionFind.union
  dsimp only
  split_ifs with hsame hlt
  · exact ⟨parents₂, rfl, hrep₂⟩
  · exact ⟨_, rfl, hrep₂.setParent ha hb hlt.le⟩
  · exact ⟨_, rfl, hrep₂.setParent hb ha (not_lt.1 hlt)⟩

/-- The loop of `groups` is the one of the forest. -/
theorem call_gather (h : Represents parents uf) {items : List String}
    (hitems : ∀ x ∈ items, x ∈ uf.ids) (result : List (String × List String)) : ∃ parents',
    invoke (items.foldlM gather result) parents =
      some (.ok (items.foldl collect (uf, result)).2, parents') ∧
    Represents parents' (items.foldl collect (uf, result)).1 := by
  induction items generalizing parents uf result with
  | nil => exact ⟨parents, rfl, h⟩
  | cons x items ih =>
    obtain ⟨hx, hrest⟩ := forall_mem_cons.1 hitems
    obtain ⟨parents₁, hcall₁, hrep₁⟩ := call_find h hx
    have hgather : invoke (gather result x) parents =
        some (.ok (Dicts.append (uf.find x).1 x result), parents₁) := by
      rw [gather, invoke_bind_of_ok _ hcall₁]
      rfl
    have hrest₁ : ∀ y ∈ items, y ∈ (uf.find x).2.ids := by
      rw [find_ids]
      exact hrest
    rw [foldlM_cons, invoke_bind_of_ok _ hgather, foldl_cons]
    exact ih hrep₁ hrest₁ _

/-- **`groups` is the one of the forest.** -/
theorem call_groups (h : Represents parents uf) : ∃ parents',
    invoke groups parents = some (.ok uf.groups, parents') ∧
    Represents parents'
      ((uf.ids.insertionSort (· ≤ ·)).foldl collect (uf, [])).1 := by
  have hitems : ∀ x ∈ uf.ids.insertionSort (· ≤ ·), x ∈ uf.ids :=
    fun x hx => (mem_insertionSort _).1 hx
  obtain ⟨parents', hcall, hrep⟩ := call_gather h hitems []
  refine ⟨parents', ?_, hrep⟩
  rw [groups, invoke_bind_of_ok _ (invoke_get parents), h.keys, invoke_bind_of_ok _ hcall]
  rfl

end Represents

/-! ## The classes of a run -/

/-- The pair that a call unites, if both are ids. -/
def Call.united (ids : List String) : Call → List (String × String)
  | .union left right => if left ∈ ids ∧ right ∈ ids then [(left, right)] else []
  | .find _ | .groups => []

/-- The pairs that the calls unite. -/
def united (ids : List String) (calls : List Call) : List (String × String) :=
  calls.flatMap (Call.united ids)

/-- Two ids are in one component: equal, or connected by united pairs. -/
def Linked (ids : List String) (calls : List Call) : String → String → Prop :=
  EqvGen fun a b => (a, b) ∈ united ids calls

theorem within_united (ids : List String) (calls : List Call) :
    Within ids (united ids calls) := by
  rintro ⟨a, b⟩ hpair
  obtain ⟨c, -, hpair⟩ := mem_flatMap.1 hpair
  cases c with
  | find item => cases hpair
  | groups => cases hpair
  | union left right =>
    rw [Call.united] at hpair
    split_ifs at hpair with hids
    · obtain ⟨rfl, rfl⟩ := Prod.mk.inj (mem_singleton.1 hpair)
      exact hids
    · cases hpair

/-- The order of the calls does not matter to what they connect. -/
theorem linked_perm {ids : List String} {calls calls' : List Call} (h : calls'.Perm calls)
    (a b : String) : Linked ids calls' a b ↔ Linked ids calls a b := by
  have hpairs : ∀ c d, (c, d) ∈ united ids calls' ↔ (c, d) ∈ united ids calls :=
    fun c d => (h.flatMap_right _).mem_iff
  exact ⟨EqvGen.mono (fun c d => (hpairs c d).1) a b, EqvGen.mono (fun c d => (hpairs c d).2) a b⟩

section Runs

variable {parents : Parents} {uf base : UnionFind String}

/-- **A call unites its pair**, and nothing else changes the classes. -/
theorem call_spec (h : Represents parents uf) (hbase : base.Closed) (halike : base.Alike uf)
    (c : Call) : ∃ result parents' uf', invoke c.method parents = some (result, parents') ∧
      Represents parents' uf' ∧ (base.unions (c.united base.ids)).Alike uf' := by
  cases c with
  | find item =>
    by_cases hitem : item ∈ uf.ids
    · obtain ⟨parents', hcall, hrep⟩ := call_find h hitem
      refine ⟨.ok (), parents', _, ?_, hrep, halike.find (halike.ids ▸ hitem)⟩
      rw [Call.method, invoke_bind_of_ok _ hcall]
      rfl
    · refine ⟨.error ⟨item⟩, parents, uf, ?_, h, halike⟩
      exact invoke_bind_of_error _ (call_find_unknown h hitem)
  | groups =>
    obtain ⟨parents', hcall, hrep⟩ := call_groups h
    refine ⟨.ok (), parents', _, ?_, hrep, halike.collect (fun x hx => ?_) []⟩
    · rw [Call.method, invoke_bind_of_ok _ hcall]
      rfl
    · rw [← halike.ids]
      exact (mem_insertionSort _).1 hx
  | union left right =>
    rw [Call.united, ← halike.ids]
    by_cases hleft : left ∈ uf.ids
    · by_cases hright : right ∈ uf.ids
      · rw [if_pos ⟨hleft, hright⟩]
        obtain ⟨parents', hcall, hrep⟩ := call_union h hleft hright
        exact ⟨_, parents', _, hcall, hrep,
          halike.union hbase (halike.ids ▸ hleft) (halike.ids ▸ hright)⟩
      · -- the path of the first one is halved before the second one raises
        rw [if_neg fun hids => hright hids.2]
        obtain ⟨parents', hcall, hrep⟩ := call_find h hleft
        have hright' : right ∉ (uf.find left).2.ids := by rwa [find_ids]
        refine ⟨.error ⟨right⟩, parents', _, ?_, hrep, halike.find (halike.ids ▸ hleft)⟩
        rw [Call.method, union, invoke_bind_of_ok _ hcall]
        exact invoke_bind_of_error _ (call_find_unknown hrep hright')
    · rw [if_neg fun hids => hleft hids.1]
      refine ⟨.error ⟨left⟩, parents, uf, ?_, h, halike⟩
      exact invoke_bind_of_error _ (call_find_unknown h hleft)

/-- **A run** ends, with the classes of the pairs that its calls unite. -/
theorem runCalls_spec (calls : List Call) (h : Represents parents uf) (hbase : base.Closed)
    (halike : base.Alike uf) : ∃ parents' uf', runCalls calls parents = some parents' ∧
      Represents parents' uf' ∧ (base.unions (united base.ids calls)).Alike uf' := by
  induction calls generalizing parents uf base with
  | nil => exact ⟨parents, uf, rfl, h, halike⟩
  | cons c calls ih =>
    obtain ⟨result, parents₁, uf₁, hcall, hrep₁, halike₁⟩ := call_spec h hbase halike c
    have hwithin : Within base.ids (c.united base.ids) := by
      have hone := within_united base.ids [c]
      rwa [united, flatMap_singleton] at hone
    obtain ⟨parents', uf', hrun, hrep', halike'⟩ := ih hrep₁ (hbase.unions hwithin) halike₁
    refine ⟨parents', uf', ?_, hrep', ?_⟩
    · rw [runCalls, hcall]
      exact hrun
    · rw [unions_ids] at halike'
      rw [united, flatMap_cons, unions, foldl_append]
      exact halike'

end Runs

/-! ## What is answered -/

/-- The forest of the united pairs. -/
def components (ids : List String) (calls : List Call) : UnionFind String :=
  (ofIds (firsts ids)).unions (united ids calls)

/-- **The groups are the components** of the ids, each in order. -/
structure Components (ids : List String) (linked : String → String → Prop)
    (groups : List (List String)) : Prop where
  nonempty : ∀ group ∈ groups, group ≠ []
  cover : ∀ x ∈ ids, ∃ group ∈ groups, x ∈ group
  disjoint : groups.flatten.Nodup
  component : ∀ group ∈ groups, ∀ x ∈ group, ∀ y, y ∈ group ↔ y ∈ ids ∧ linked x y
  sorted : ∀ group ∈ groups, group.Pairwise (· < ·)

/-- **What a dictionary answers** after some calls: the walk of `find` ends, however many turns
it may take. -/
structure Answers (ids : List String) (calls : List Call) (parents : Parents) : Prop where
  find : ∀ item ∈ ids, ∃ root parents', invoke (find item) parents = some (.ok root, parents') ∧
    (∀ turns, parents.length < turns → invoke (walk turns item) parents =
      some (.ok root, parents')) ∧
    IsLeast {other | other ∈ ids ∧ Linked ids calls item other} root
  unknown : ∀ item ∉ ids, invoke (Forests.find item) parents = some (.error ⟨item⟩, parents)
  groups : ∃ result parents', invoke groups parents = some (.ok result, parents') ∧
    Components ids (Linked ids calls) result

/-- Two dictionaries have the same representatives and the same groups. -/
structure SameAnswers (parents parents' : Parents) : Prop where
  find : ∀ item, (invoke (find item) parents').map Prod.fst =
    (invoke (find item) parents).map Prod.fst
  groups : (invoke groups parents').map Prod.fst = (invoke groups parents).map Prod.fst

section Answers

variable {ids : List String} {calls calls' : List Call} {parents parents' : Parents}
  {uf uf' : UnionFind String} {item : String}

theorem components_ids (ids : List String) (calls : List Call) :
    (components ids calls).ids = firsts ids := unions_ids _ _

theorem within_firsts (ids : List String) (calls : List Call) :
    Within (firsts ids) (united ids calls) := by
  intro pair hpair
  obtain ⟨hleft, hright⟩ := within_united ids calls pair hpair
  exact ⟨FirstOccurrences.mem_firsts.2 hleft, FirstOccurrences.mem_firsts.2 hright⟩

theorem closed_components (ids : List String) (calls : List Call) :
    (components ids calls).Closed :=
  (closed_ofIds _).unions (within_firsts ids calls)

theorem mem_components : item ∈ (components ids calls).ids ↔ item ∈ ids := by
  rw [components_ids, FirstOccurrences.mem_firsts]

theorem same_components (a b : String) :
    (components ids calls).Same a b ↔ Linked ids calls a b :=
  same_unions_ofIds (within_firsts ids calls) a b

/-- The root of an id is the least id of its component. -/
theorem isLeast_root (hitem : item ∈ ids) :
    IsLeast {other | other ∈ ids ∧ Linked ids calls item other}
      ((components ids calls).root item) := by
  have hmem : item ∈ (components ids calls).ids := mem_components.2 hitem
  have hclosed := closed_components ids calls
  constructor
  · exact ⟨mem_components.1 (root_mem hclosed hmem),
      (same_components _ _).1 (same_root hclosed hmem)⟩
  · rintro other ⟨-, hlinked⟩
    exact root_le_of_same hclosed ((same_components _ _).2 hlinked)

/-- The groups of the forest are the components. -/
theorem components_groups (ids : List String) (calls : List Call) :
    Components ids (Linked ids calls) (components ids calls).groups := by
  have hclosed := closed_components ids calls
  have hnodup : (components ids calls).ids.Nodup := by
    rw [components_ids]
    exact FirstOccurrences.nodup_firsts ids
  have hmem : ∀ group ∈ (components ids calls).groups, ∀ x ∈ group,
      x ∈ (components ids calls).ids := fun group hgroup x hx =>
    (groups_perm _).mem_iff.1 (mem_flatten.2 ⟨group, hgroup, hx⟩)
  constructor
  · exact fun group hgroup => groups_ne_nil hgroup
  · exact fun x hx => exists_group (mem_components.2 hx)
  · exact (groups_perm _).nodup_iff.2 hnodup
  · intro group hgroup x hx y
    rw [group_of_mem hclosed hgroup hx, mem_filter, mem_insertionSort,
      decide_eq_true_eq, mem_components, ← same_components]
    constructor
    · rintro ⟨hy, hroot⟩
      exact ⟨hy, (same_iff_root hclosed (hmem group hgroup x hx)
        (mem_components.2 hy)).2 hroot.symm⟩
    · rintro ⟨hy, hsame⟩
      exact ⟨hy, (hsame.root_eq hclosed).symm⟩
  · -- a group is a part of the sorted ids
    intro group hgroup
    obtain ⟨x, hx⟩ := exists_mem_of_ne_nil group (groups_ne_nil hgroup)
    rw [group_of_mem hclosed hgroup hx]
    refine Pairwise.filter _ ?_
    exact (pairwise_insertionSort (· ≤ ·) _).imp₂ (fun a b hle hne => lt_of_le_of_ne hle hne)
      ((perm_insertionSort _ _).nodup_iff.2 hnodup)

theorem answers_of_alike (h : Represents parents uf) (halike : (components ids calls).Alike uf) :
    Answers ids calls parents := by
  have hclosed := closed_components ids calls
  constructor
  · intro item hitem
    have hmem : item ∈ (components ids calls).ids := mem_components.2 hitem
    obtain ⟨parents', hcall, -⟩ := call_find h (halike.mem hmem)
    rw [halike.find_eq hclosed hmem] at hcall
    refine ⟨_, parents', hcall, fun turns hturns => ?_, isLeast_root hitem⟩
    rw [call_walk_eq_find h (halike.mem hmem) hturns, hcall]
  · intro item hitem
    refine call_find_unknown h fun hmem => hitem ?_
    rw [halike.ids] at hmem
    exact mem_components.1 hmem
  · obtain ⟨parents', hcall, -⟩ := call_groups h
    rw [halike.groups_eq hclosed] at hcall
    exact ⟨_, parents', hcall, components_groups ids calls⟩

/-- **The answers depend on the classes only.** -/
theorem sameAnswers_of_alike {base : UnionFind String} (hbase : base.Closed)
    (h : Represents parents uf) (halike : base.Alike uf) (h' : Represents parents' uf')
    (halike' : base.Alike uf') : SameAnswers parents parents' := by
  constructor
  · intro item
    by_cases hitem : item ∈ base.ids
    · obtain ⟨_, hcall, -⟩ := call_find h (halike.mem hitem)
      obtain ⟨_, hcall', -⟩ := call_find h' (halike'.mem hitem)
      rw [hcall, hcall', map_some, map_some, halike.find_eq hbase hitem,
        halike'.find_eq hbase hitem]
    · have hunknown : item ∉ uf.ids := halike.ids ▸ hitem
      have hunknown' : item ∉ uf'.ids := halike'.ids ▸ hitem
      rw [call_find_unknown h hunknown, call_find_unknown h' hunknown', map_some, map_some]
  · obtain ⟨_, hcall, -⟩ := call_groups h
    obtain ⟨_, hcall', -⟩ := call_groups h'
    rw [hcall, hcall', map_some, map_some, halike.groups_eq hbase, halike'.groups_eq hbase]

/-- Calls in another order give the same classes. -/
theorem components_perm (h : calls'.Perm calls) :
    (components ids calls).Alike (components ids calls') where
  ids := by rw [components_ids, components_ids]
  closed := closed_components ids calls'
  same := by
    intro a b
    rw [same_components, same_components]
    exact linked_perm h a b

/-- A run from the ids alone. -/
theorem runCalls_init (ids : List String) (calls : List Call) : ∃ parents uf,
    runCalls calls (init ids) = some parents ∧ Represents parents uf ∧
      (components ids calls).Alike uf := by
  have hids : ∀ c : Call, c.united (firsts ids) = c.united ids := by
    intro c
    cases c with
    | find item => rfl
    | groups => rfl
    | union left right =>
      simp only [Call.united, FirstOccurrences.mem_firsts]
  have hunited : united (firsts ids) calls = united ids calls :=
    flatMap_congr fun c _ => hids c
  obtain ⟨parents, uf, hrun, hrep, halike⟩ := runCalls_spec calls (represents_init ids)
    (closed_ofIds _) (.refl (closed_ofIds _))
  refine ⟨parents, uf, hrun, hrep, ?_⟩
  rw [components, ← hunited]
  exact halike

end Answers

/-! ## The groups of the mapper -/

section Mapper

variable {parents : Parents} {uf : UnionFind String} {matchedIds : List String}

/-- The loop of the mapper over the sorted ids is the one of `groups`. -/
theorem call_members (h : Represents parents uf) (hids : uf.ids = sortedSet matchedIds) :
    invoke (members matchedIds) parents = invoke groups parents := by
  have hsorted : (sortedSet matchedIds).insertionSort (· ≤ ·) = sortedSet matchedIds :=
    (pairwise_sortedSet matchedIds).insertionSort_eq
  rw [groups, invoke_bind_of_ok _ (invoke_get parents), h.keys, hids, hsorted]
  rfl

end Mapper

/-! ## The main result -/

/-- **What the dictionaries of parents answer.**  Every call ends; the representative of an id is
the least id of its component, and the groups are the components of the pairs that were
united, whatever the order of the calls was; the mapper collects the same groups. -/
theorem forest_answers (ids : List String) (calls : List Call) : ∃ parents,
    runCalls calls (init ids) = some parents ∧ Answers ids calls parents ∧
    (∀ matchedIds, ids = sortedSet matchedIds →
      invoke (members matchedIds) parents = invoke groups parents) ∧
    ∀ calls', calls'.Perm calls → ∃ parents',
      runCalls calls' (init ids) = some parents' ∧ SameAnswers parents parents' := by
  obtain ⟨parents, uf, hrun, hrep, halike⟩ := runCalls_init ids calls
  refine ⟨parents, hrun, answers_of_alike hrep halike, ?_, ?_⟩
  · rintro matchedIds rfl
    refine call_members hrep (halike.ids.trans ?_)
    rw [components_ids, FirstOccurrences.firsts_of_nodup (nodup_sortedSet _)]
  · intro calls' hperm
    obtain ⟨parents', uf', hrun', hrep', halike'⟩ := runCalls_init ids calls'
    exact ⟨parents', hrun', sameAnswers_of_alike (closed_components ids calls) hrep halike hrep'
      ((components_perm hperm).trans halike')⟩

/-- Two chains that meet, and an id that is alone. -/
example : ((runCalls [.union "d" "c", .find "d", .union "b" "a", .union "d" "a"]
    (init ["d", "c", "b", "a", "e"])).bind (invoke groups)).map Prod.fst =
      some (.ok [["a", "b", "c", "d"], ["e"]]) := by
  decide +kernel

end DRCAgent.Forests
