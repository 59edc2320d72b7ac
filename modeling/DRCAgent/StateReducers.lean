/-
# The reducers of the workflow state

`merge_by_subgraph_id` and `append_dedup` of `schemas/workflow.py`: what the graph runtime
uses to merge the updates of parallel branches into a list of the state.

The first keeps the last result of every subgraph, by subgraph id; the second keeps the
first item of every identity, in the order of arrival. Both are normalizations of a
concatenation, so the grouping of the merges does not matter. An update that arrives
again changes nothing for `append_dedup`. For `merge_by_subgraph_id` it wins over the
updates that were merged after it, so it changes nothing exactly if none of them has
another result for one of its subgraphs.
-/
import DRCAgent.MergeTrees
import DRCAgent.Schemas
import Mathlib.Data.String.Basic

namespace DRCAgent.Reducers

open List Merges

/-! ## The reducers -/

structure SubgraphPlanResult where
  subgraphId : String
  bundleRef : Option ArtifactRef := none
  status : String
  errors : List String := []
  deriving DecidableEq

/-- `merge_by_subgraph_id`: `sorted(merged)` is the sorted list of the keys. -/
def mergeBySubgraphId (left right : List SubgraphPlanResult) : List SubgraphPlanResult :=
  let merged := Dicts.ofList ((left ++ right).map fun item => (item.subgraphId, item))
  ((merged.map (·.1)).insertionSort (· ≤ ·)).filterMap fun key => merged.lookup key

/-- What `append_dedup` reads of an item. `none` is an attribute that the item does not
have, or that is `None`. -/
structure ItemAttributes (A : Type) where
  verificationId : A → Option String
  errorId : A → Option String
  repr : A → String

/-- `value or other`: an empty string is false. -/
def orElse (value : Option String) (other : String) : String :=
  match value with
  | some text => if text = "" then other else text
  | none => other

/-- `getattr(item, "verification_id", None) or getattr(item, "error_id", None) or repr(item)` -/
def ItemAttributes.identity {A : Type} (attributes : ItemAttributes A) (item : A) : String :=
  orElse (attributes.verificationId item) (orElse (attributes.errorId item) (attributes.repr item))

/-- The body of the loop of `append_dedup`, with `result` and `seen` as its state. -/
def ItemAttributes.append {A : Type} (attributes : ItemAttributes A)
    (state : List A × List String) (item : A) : List A × List String :=
  let identity := attributes.identity item
  if identity ∉ state.2 then (state.1 ++ [item], identity :: state.2) else state

/-- `append_dedup` -/
def appendDedup {A : Type} (attributes : ItemAttributes A) (left right : List A) : List A :=
  ((left ++ right).foldl attributes.append ([], [])).1

/-! ## What they keep -/

theorem mergeBySubgraphId_eq (left right : List SubgraphPlanResult) :
    mergeBySubgraphId left right = keepLast (·.subgraphId) (left ++ right) := rfl

theorem appendDedup_eq {A : Type} (attributes : ItemAttributes A) (left right : List A) :
    appendDedup attributes left right = keepFirst attributes.identity [] (left ++ right) := by
  have hfold : ∀ (l result : List A) (seen : List String),
      (l.foldl attributes.append (result, seen)).1 =
        result ++ keepFirst attributes.identity seen l := by
    intro l
    induction l with
    | nil =>
      intro result seen
      exact (append_nil result).symm
    | cons item rest ih =>
      intro result seen
      rw [foldl_cons, keepFirst, ItemAttributes.append]
      by_cases hitem : attributes.identity item ∈ seen
      · rw [if_pos hitem, if_neg (fun hnot => hnot hitem)]
        exact ih result seen
      · rw [if_neg hitem, if_pos hitem, ih, append_assoc]
        rfl
  exact hfold (left ++ right) [] []

/-! ## Merges in any bracketing -/

/-- The last result for the subgraph in a list of updates. -/
abbrev lastResult (subgraphId : String) (updates : List (List SubgraphPlanResult)) :
    Option SubgraphPlanResult :=
  lastOf (·.subgraphId) subgraphId updates.flatten

/-- The updates have no subgraph in common. -/
def DisjointUpdates (updates : List (List SubgraphPlanResult)) : Prop :=
  updates.Pairwise fun l r => ∀ id ∈ l.map (·.subgraphId), id ∉ r.map (·.subgraphId)

instance (updates : List (List SubgraphPlanResult)) : Decidable (DisjointUpdates updates) :=
  inferInstanceAs (Decidable (updates.Pairwise _))

/-- An update that is merged again into a merge of it. -/
theorem mergeBySubgraphId_again (left right : MergeTree (List SubgraphPlanResult))
    (update : List SubgraphPlanResult) :
    mergeBySubgraphId ((MergeTree.merge left right).fold mergeBySubgraphId) update =
        (MergeTree.merge left right).fold mergeBySubgraphId ↔
      ∀ item ∈ update, lastResult item.subgraphId [update] =
        lastResult item.subgraphId (MergeTree.merge left right).leaves := by
  rw [fold_eq_normal keepLast_absorbs mergeBySubgraphId_eq, mergeBySubgraphId_eq,
    keepLast_append_iff]
  simp only [lastResult, flatten_singleton]

theorem appendDedup_again {A : Type} (attributes : ItemAttributes A)
    (left right : MergeTree (List A)) {update : List A}
    (h : update ∈ (MergeTree.merge left right).leaves) :
    appendDedup attributes ((MergeTree.merge left right).fold (appendDedup attributes)) update =
      (MergeTree.merge left right).fold (appendDedup attributes) := by
  rw [fold_eq_normal keepFirst_absorbs (appendDedup_eq attributes), appendDedup_eq]
  apply keepFirst_append_of_subset
  intro item hitem
  exact mem_flatten.2 ⟨update, h, hitem⟩

/-- Updates without a common subgraph can come in any order. -/
theorem merges_perm {t t' : MergeTree (List SubgraphPlanResult)} (h : t.leaves.Perm t'.leaves)
    (hdisjoint : DisjointUpdates t.leaves) :
    t.fold mergeBySubgraphId = t'.fold mergeBySubgraphId := by
  cases t with
  | update value =>
    -- one update alone has one grouping
    have hleaves : t'.leaves = [value] := singleton_perm.1 h |>.symm
    exact fold_eq_of_leaves keepLast_absorbs mergeBySubgraphId_eq hleaves.symm
  | merge left right =>
    cases t' with
    | update value' =>
      have hleaves := perm_singleton.1 h
      exact fold_eq_of_leaves keepLast_absorbs mergeBySubgraphId_eq hleaves
    | merge left' right' =>
      rw [fold_eq_normal keepLast_absorbs mergeBySubgraphId_eq,
        fold_eq_normal keepLast_absorbs mergeBySubgraphId_eq]
      exact keepLast_congr (lastOf_flatten_perm h hdisjoint)

/-- **The reducers and the groupings of the merges.**  The grouping does not matter for
either reducer. Merging an update again changes nothing for `append_dedup`; for
`merge_by_subgraph_id` exactly if the last results that it has are the last ones of all the
updates, as right after its merge. Without a common subgraph, the order does not matter to
`merge_by_subgraph_id`. -/
theorem reducers_any_bracketing {A : Type} (attributes : ItemAttributes A) :
    (∀ t t' : MergeTree (List SubgraphPlanResult), t.leaves = t'.leaves →
      t.fold mergeBySubgraphId = t'.fold mergeBySubgraphId) ∧
    (∀ t t' : MergeTree (List A), t.leaves = t'.leaves →
      t.fold (appendDedup attributes) = t'.fold (appendDedup attributes)) ∧
    (∀ (left right : MergeTree (List A)), ∀ update ∈ (MergeTree.merge left right).leaves,
      appendDedup attributes ((MergeTree.merge left right).fold (appendDedup attributes)) update =
        (MergeTree.merge left right).fold (appendDedup attributes)) ∧
    (∀ (left right : MergeTree (List SubgraphPlanResult)),
      ∀ update ∈ (MergeTree.merge left right).leaves,
        (mergeBySubgraphId ((MergeTree.merge left right).fold mergeBySubgraphId) update =
            (MergeTree.merge left right).fold mergeBySubgraphId ↔
          ∀ item ∈ update, lastResult item.subgraphId [update] =
            lastResult item.subgraphId (MergeTree.merge left right).leaves)) ∧
    (∀ state update : List SubgraphPlanResult,
      mergeBySubgraphId (mergeBySubgraphId state update) update = mergeBySubgraphId state update) ∧
    (∀ t t' : MergeTree (List SubgraphPlanResult), t.leaves.Perm t'.leaves →
      DisjointUpdates t.leaves → t.fold mergeBySubgraphId = t'.fold mergeBySubgraphId) := by
  refine ⟨?_, ?_, ?_, ?_, ?_, ?_⟩
  · intro t t' h
    exact fold_eq_of_leaves keepLast_absorbs mergeBySubgraphId_eq h
  · intro t t' h
    exact fold_eq_of_leaves keepFirst_absorbs (appendDedup_eq attributes) h
  · intro left right update h
    exact appendDedup_again attributes left right h
  · intro left right update _
    exact mergeBySubgraphId_again left right update
  · intro state update
    refine (mergeBySubgraphId_again (.update state) (.update update) update).2 ?_
    intro item hitem
    have hsome : (lastOf (·.subgraphId) item.subgraphId update).isSome :=
      lastOf_isSome.2 (mem_map_of_mem hitem)
    obtain ⟨last, hlast⟩ := Option.isSome_iff_exists.1 hsome
    simp only [lastResult, MergeTree.leaves, singleton_append, flatten_cons,
      flatten_nil, append_nil, lastOf_append, hlast, Option.some_or]
  · intro t t' h hdisjoint
    exact merges_perm h hdisjoint

/-- A result of the subgraph `a`, and a later one. -/
def plannedResult : SubgraphPlanResult := { subgraphId := "a", status := "PLANNED" }

def failedResult : SubgraphPlanResult := { subgraphId := "a", status := "FAILED" }

def otherResult : SubgraphPlanResult := { subgraphId := "b", status := "PLANNED" }

/-- Results as their own representations. -/
def resultAttributes : ItemAttributes SubgraphPlanResult where
  verificationId _ := none
  errorId _ := none
  repr item := item.subgraphId ++ item.status

/-- Three branches, grouped and ordered in two ways, with an update merged again. -/
theorem reducers_any_bracketing_sample :
    (MergeTree.merge (.update [plannedResult]) (.merge (.update [otherResult]) (.update []))).fold
        mergeBySubgraphId =
      (MergeTree.merge (.merge (.update []) (.update [otherResult])) (.update [plannedResult])).fold
        mergeBySubgraphId ∧
    appendDedup resultAttributes
        (appendDedup resultAttributes [plannedResult] [failedResult]) [plannedResult] =
      [plannedResult, failedResult] := by
  obtain ⟨-, -, hagain, -, -, hperm⟩ := reducers_any_bracketing resultAttributes
  constructor
  · exact hperm _ _ (by decide) (by decide)
  · exact hagain (.update [plannedResult]) (.update [failedResult]) [plannedResult] (by decide)

/-- A planned result that arrives again after the failure of its subgraph has been merged
takes its place. -/
theorem replayed_result_wins :
    [plannedResult] ∈ (MergeTree.merge (.update [plannedResult]) (.update [failedResult])).leaves ∧
    mergeBySubgraphId ((MergeTree.merge (.update [plannedResult]) (.update [failedResult])).fold
        mergeBySubgraphId) [plannedResult] ≠
      (MergeTree.merge (.update [plannedResult]) (.update [failedResult])).fold
        mergeBySubgraphId := by
  decide

end DRCAgent.Reducers
