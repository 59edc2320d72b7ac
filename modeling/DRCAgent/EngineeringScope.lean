/-
# The scope of an engineering run

`engineering_scope_views` of `workflow/active_window.py`. The regions of the targets are
closed under three kinds of rules: both ends of a hard edge, all regions of a scope that
may not be cut, and all regions of the subgraphs a subgraph depends on. Each turn of the
loop applies the rules once, and the loop ends with a turn that adds nothing.

Main results:
* `engineeringSelection_least`: the selection is the least closed set with the targets' regions
* `engineeringScopeViews_spec`: for a nonempty target set, the views are the scopes cut down
  to the selection
-/
import DRCAgent.RuleClosure
import DRCAgent.WindowClosure
import Mathlib.Order.Bounds.Basic

namespace DRCAgent

open List RuleClosure

section Scope

variable (graph : AgentGraph) (subgraphs : List AgentSubgraph)

/-! ## The loop -/

/-- The set meets the regions of the scope. -/
def MeetsScope (selected : Finset String) (scope : AgentSubgraph) : Prop :=
  (selected ∩ scope.regionIds.toFinset).Nonempty

instance (selected : Finset String) (scope : AgentSubgraph) :
    Decidable (MeetsScope selected scope) :=
  inferInstanceAs (Decidable (Finset.Nonempty _))

/-- `scope.hierarchical or scope.scope_kind != "FLAT" or scope.boundary_dependency_ids` -/
def AgentSubgraph.isWhole (scope : AgentSubgraph) : Bool :=
  scope.hierarchical || scope.scopeKind ≠ "FLAT" || scope.boundaryDependencyIds ≠ []

/-- The regions of the graph that hold a target. -/
def targetRegions (targetIds : Finset String) : Finset String :=
  ((graph.regions.filter fun r => r.2.any (· ∈ targetIds)).map (·.1)).toFinset

/-- `{node for e in graph.edges if e.hard and (e.u in selected or e.v in selected)
for node in (e.u, e.v)}`, with the selection. -/
def expandHardEdges (selected : Finset String) : Finset String :=
  selected ∪ ((graph.edges.filter fun e => e.hard && (e.u ∈ selected || e.v ∈ selected)).flatMap
    fun e => [e.u, e.v]).toFinset

/-- A scope that may not be cut comes in whole. -/
def expandScope (expanded : Finset String) (scope : AgentSubgraph) : Finset String :=
  if MeetsScope expanded scope ∧ scope.isWhole then expanded ∪ scope.regionIds.toFinset
  else expanded

/-- `owners[neighbor].region_ids` -/
def ownerRegions (neighbor : String) : Finset String :=
  (((byId subgraphs neighbor).map (·.regionIds)).getD []).toFinset

/-- What the scope depends on comes in whole. -/
def expandDependencies (expanded : Finset String) (scope : AgentSubgraph) : Finset String :=
  if MeetsScope expanded scope then
    ((hardNeighbours graph subgraphs scope.subgraphId).map (ownerRegions subgraphs)).foldl
      (· ∪ ·) expanded
  else expanded

/-- One turn of the `while` loop. -/
def engineeringTurn (selected : Finset String) : Finset String :=
  subgraphs.foldl (expandDependencies graph subgraphs)
    (subgraphs.foldl expandScope (expandHardEdges graph selected))

/-- The ids a turn can add. -/
def scopeUniverse : Finset String :=
  (graph.edges.flatMap fun e => [e.u, e.v]).toFinset ∪ (subgraphs.flatMap (·.regionIds)).toFinset

/-- The selection at the end of the `while` loop. Every turn but the last adds an id. -/
def engineeringSelection (targetIds : Finset String) : Finset String :=
  saturate (engineeringTurn graph subgraphs) ((scopeUniverse graph subgraphs).card + 1)
    (targetRegions graph targetIds)

/-- The view of a scope: its selected regions, and its edges between them. -/
def scopeView (selected : Finset String) (scope : AgentSubgraph) : AgentSubgraph :=
  let ids := sortedSet (scope.regionIds.filter (· ∈ selected))
  { scope with
    regionIds := ids
    edgeIds := (graph.edges.filter fun e =>
      e.edgeId ∈ scope.edgeIds && e.u ∈ ids && e.v ∈ ids).map (·.edgeId) }

/-- **`engineering_scope_views`.** -/
def engineeringScopeViews (targetIds : Finset String) : List AgentSubgraph :=
  if targetIds = ∅ then subgraphs
  else
    let selected := engineeringSelection graph subgraphs targetIds
    (subgraphs.map (scopeView graph selected)).filter (·.regionIds ≠ [])

/-! ## The neighbours are subgraphs

The look-up `owners[neighbor]` finds every neighbour. -/

/-! ## The rules -/

/-- Both ends of a hard edge. -/
def edgeRules : List (Rule String) :=
  (graph.edges.filter (·.hard)).map fun e => ⟨{e.u, e.v}, {e.u, e.v}⟩

/-- All regions of a scope that may not be cut. -/
def scopeRules (scope : AgentSubgraph) : List (Rule String) :=
  if scope.isWhole then [⟨scope.regionIds.toFinset, scope.regionIds.toFinset⟩] else []

/-- All regions of the subgraphs a scope depends on. -/
def dependencyRules (scope : AgentSubgraph) : List (Rule String) :=
  ((hardNeighbours graph subgraphs scope.subgraphId).map (ownerRegions subgraphs)).map
    (Rule.mk scope.regionIds.toFinset)

/-- All rules of the loop. -/
def engineeringRules : List (Rule String) :=
  edgeRules graph ++ subgraphs.flatMap scopeRules ++
    subgraphs.flatMap (dependencyRules graph subgraphs)

theorem pass_expandHardEdges : Pass (edgeRules graph) (expandHardEdges graph) := by
  refine pass_of_mem fun S x => ?_
  rw [expandHardEdges, Finset.mem_union, mem_toFinset, mem_flatMap]
  refine or_congr Iff.rfl ⟨?_, ?_⟩
  · rintro ⟨e, he, hx⟩
    obtain ⟨he, hguard⟩ := mem_filter.1 he
    obtain ⟨hhard, hends⟩ := (Bool.and_eq_true _ _).mp hguard
    refine ⟨_, mem_map_of_mem (mem_filter.2 ⟨he, hhard⟩), ?_, by simpa using hx⟩
    rcases (Bool.or_eq_true _ _).mp hends with hu | hv
    · exact ⟨e.u, Finset.mem_inter.2 ⟨of_decide_eq_true hu, by simp⟩⟩
    · exact ⟨e.v, Finset.mem_inter.2 ⟨of_decide_eq_true hv, by simp⟩⟩
  · rintro ⟨rule, hrule, ⟨y, hy⟩, hx⟩
    obtain ⟨e, he, rfl⟩ := mem_map.1 hrule
    obtain ⟨he, hhard⟩ := mem_filter.1 he
    obtain ⟨hyS, hye⟩ := Finset.mem_inter.1 hy
    refine ⟨e, mem_filter.2 ⟨he, ?_⟩, by simpa using hx⟩
    rw [Bool.and_eq_true, Bool.or_eq_true]
    refine ⟨hhard, ?_⟩
    rcases Finset.mem_insert.1 hye with rfl | hye
    · exact .inl (decide_eq_true hyS)
    · rw [Finset.mem_singleton.1 hye] at hyS
      exact .inr (decide_eq_true hyS)

theorem pass_expandScope (scope : AgentSubgraph) :
    Pass (scopeRules scope) (fun S => expandScope S scope) := by
  cases hwhole : scope.isWhole with
  | false =>
    have hsame : (fun S => expandScope S scope) = id := by
      funext S
      rw [expandScope, hwhole, if_neg (fun h => Bool.false_ne_true h.2)]
      rfl
    rw [scopeRules, hwhole, hsame]
    exact pass_id
  | true =>
    have h := pass_fire scope.regionIds.toFinset [scope.regionIds.toFinset]
    rw [scopeRules, hwhole]
    simp only [expandScope, MeetsScope, hwhole, and_true]
    exact h

theorem pass_expandDependencies (scope : AgentSubgraph) :
    Pass (dependencyRules graph subgraphs scope)
      (fun S => expandDependencies graph subgraphs S scope) :=
  pass_fire scope.regionIds.toFinset _

/-- A turn of the loop applies every rule. -/
theorem pass_engineeringTurn :
    Pass (engineeringRules graph subgraphs) (engineeringTurn graph subgraphs) :=
  ((pass_expandHardEdges graph).comp (Pass.foldl pass_expandScope subgraphs)).comp
    (Pass.foldl (pass_expandDependencies graph subgraphs) subgraphs)

/-! ## The least closed set -/

/-- The set is closed under hard edges, under scopes that may not be cut, and under the
hard dependencies between subgraphs. -/
structure ScopeClosed (S : Set String) : Prop where
  hardEdges : ∀ e ∈ graph.edges, e.hard = true → (e.u ∈ S ∨ e.v ∈ S) → e.u ∈ S ∧ e.v ∈ S
  wholeScopes : ∀ scope ∈ subgraphs, scope.isWhole = true → (∃ r ∈ scope.regionIds, r ∈ S) →
    ∀ r ∈ scope.regionIds, r ∈ S
  dependencies : ∀ scope ∈ subgraphs, (∃ r ∈ scope.regionIds, r ∈ S) →
    ∀ neighbor ∈ hardNeighbours graph subgraphs scope.subgraphId,
      ∀ other, byId subgraphs neighbor = some other → ∀ r ∈ other.regionIds, r ∈ S

theorem meetsScope_iff {S : Finset String} {scope : AgentSubgraph} :
    MeetsScope S scope ↔ ∃ r ∈ scope.regionIds, r ∈ S := by
  constructor
  · rintro ⟨r, hr⟩
    obtain ⟨hS, hr⟩ := Finset.mem_inter.1 hr
    exact ⟨r, mem_toFinset.1 hr, hS⟩
  · rintro ⟨r, hr, hS⟩
    exact ⟨r, Finset.mem_inter.2 ⟨hS, mem_toFinset.2 hr⟩⟩

theorem mem_ownerRegions {neighbor r : String} :
    r ∈ ownerRegions subgraphs neighbor ↔
      ∃ other, byId subgraphs neighbor = some other ∧ r ∈ other.regionIds := by
  rw [ownerRegions, mem_toFinset]
  cases byId subgraphs neighbor with
  | none => simp
  | some other => simp

theorem closed_edgeRules {S : Finset String} :
    Closed (edgeRules graph) S ↔ ∀ e ∈ graph.edges, e.hard = true →
      (e.u ∈ S ∨ e.v ∈ S) → e.u ∈ S ∧ e.v ∈ S := by
  have hmet : ∀ e : AgentEdge, (S ∩ {e.u, e.v}).Nonempty ↔ e.u ∈ S ∨ e.v ∈ S := by
    intro e
    constructor
    · rintro ⟨r, hr⟩
      obtain ⟨hS, hr⟩ := Finset.mem_inter.1 hr
      rcases Finset.mem_insert.1 hr with rfl | hr
      · exact .inl hS
      · exact .inr (Finset.mem_singleton.1 hr ▸ hS)
    · rintro (hu | hv)
      · exact ⟨e.u, Finset.mem_inter.2 ⟨hu, by simp⟩⟩
      · exact ⟨e.v, Finset.mem_inter.2 ⟨hv, by simp⟩⟩
  simp only [Closed, edgeRules, forall_mem_map, mem_filter, and_imp, hmet,
    Finset.insert_subset_iff, Finset.singleton_subset_iff]

theorem closed_scopeRules {S : Finset String} {scope : AgentSubgraph} :
    Closed (scopeRules scope) S ↔ (scope.isWhole = true → (∃ r ∈ scope.regionIds, r ∈ S) →
      ∀ r ∈ scope.regionIds, r ∈ S) := by
  cases hwhole : scope.isWhole with
  | false => simp [scopeRules, hwhole, closed_nil]
  | true =>
    rw [scopeRules, hwhole, if_pos rfl, Closed, forall_mem_singleton, ← meetsScope_iff]
    simp only [MeetsScope, Finset.subset_iff, mem_toFinset, true_imp_iff]

theorem closed_dependencyRules {S : Finset String} {scope : AgentSubgraph} :
    Closed (dependencyRules graph subgraphs scope) S ↔ ((∃ r ∈ scope.regionIds, r ∈ S) →
      ∀ neighbor ∈ hardNeighbours graph subgraphs scope.subgraphId,
        ∀ other, byId subgraphs neighbor = some other → ∀ r ∈ other.regionIds, r ∈ S) := by
  rw [dependencyRules, Closed, ← meetsScope_iff]
  simp only [forall_mem_map, Finset.subset_iff, mem_ownerRegions]
  constructor
  · intro h hmet neighbor hneighbor other hother r hr
    exact h neighbor hneighbor hmet ⟨other, hother, hr⟩
  · rintro h neighbor hneighbor hmet r ⟨other, hother, hr⟩
    exact h hmet neighbor hneighbor other hother r hr

theorem closed_flatMap {rules : AgentSubgraph → List (Rule String)} {S : Finset String} :
    Closed (subgraphs.flatMap rules) S ↔ ∀ scope ∈ subgraphs, Closed (rules scope) S := by
  simp only [Closed, mem_flatMap]
  constructor
  · exact fun h scope hscope rule hrule => h rule ⟨scope, hscope, hrule⟩
  · rintro h rule ⟨scope, hscope, hrule⟩
    exact h scope hscope rule hrule

/-- The rules say what closed means. -/
theorem closed_iff {S : Finset String} :
    Closed (engineeringRules graph subgraphs) S ↔ ScopeClosed graph subgraphs S := by
  rw [engineeringRules, closed_append, closed_append, closed_edgeRules, closed_flatMap,
    closed_flatMap]
  simp only [closed_scopeRules, closed_dependencyRules]
  constructor
  · rintro ⟨⟨hedges, hscopes⟩, hdependencies⟩
    exact ⟨hedges, hscopes, hdependencies⟩
  · rintro ⟨hedges, hscopes, hdependencies⟩
    exact ⟨⟨hedges, hscopes⟩, hdependencies⟩

theorem ScopeClosed.inter {S T : Set String} (hS : ScopeClosed graph subgraphs S)
    (hT : ScopeClosed graph subgraphs T) : ScopeClosed graph subgraphs (S ∩ T) where
  hardEdges e he hhard hends := by
    obtain ⟨hu, hv⟩ := hS.hardEdges e he hhard (hends.imp And.left And.left)
    obtain ⟨hu', hv'⟩ := hT.hardEdges e he hhard (hends.imp And.right And.right)
    exact ⟨⟨hu, hu'⟩, hv, hv'⟩
  wholeScopes scope hscope hwhole := by
    rintro ⟨r, hr, hrS, hrT⟩ r' hr'
    exact ⟨hS.wholeScopes scope hscope hwhole ⟨r, hr, hrS⟩ r' hr',
      hT.wholeScopes scope hscope hwhole ⟨r, hr, hrT⟩ r' hr'⟩
  dependencies scope hscope := by
    rintro ⟨r, hr, hrS, hrT⟩ neighbor hneighbor other hother r' hr'
    exact ⟨hS.dependencies scope hscope ⟨r, hr, hrS⟩ neighbor hneighbor other hother r' hr',
      hT.dependencies scope hscope ⟨r, hr, hrT⟩ neighbor hneighbor other hother r' hr'⟩

/-- Everything a turn can add, with the start, is closed. -/
theorem closed_universe (targets : Finset String) :
    Closed (engineeringRules graph subgraphs) (targets ∪ scopeUniverse graph subgraphs) := by
  have hnode : ∀ e ∈ graph.edges, ∀ r ∈ [e.u, e.v],
      r ∈ targets ∪ scopeUniverse graph subgraphs := fun e he r hr =>
    Finset.mem_union_right _ (Finset.mem_union_left _ (mem_toFinset.2 (mem_flatMap.2 ⟨e, he, hr⟩)))
  have hregion : ∀ scope ∈ subgraphs, ∀ r ∈ scope.regionIds,
      r ∈ targets ∪ scopeUniverse graph subgraphs := fun scope hscope r hr =>
    Finset.mem_union_right _ (Finset.mem_union_right _
      (mem_toFinset.2 (mem_flatMap.2 ⟨scope, hscope, hr⟩)))
  refine (closed_iff graph subgraphs).2 ⟨fun e he _ _ => ?_, fun scope hscope _ _ r hr => ?_,
    fun scope _ _ neighbor _ other hother r hr => ?_⟩
  · exact ⟨hnode e he e.u (by simp), hnode e he e.v (by simp)⟩
  · exact hregion scope hscope r hr
  · exact hregion other (mem_reverse.1 (mem_of_find?_eq_some hother)) r hr

theorem card_universe_lt (targets : Finset String) :
    (targets ∪ scopeUniverse graph subgraphs).card <
      targets.card + ((scopeUniverse graph subgraphs).card + 1) :=
  Nat.lt_succ_of_le (Finset.card_union_le _ _)

/-- The selection is the least closed set that holds the regions of the targets. -/
theorem engineeringSelection_least (targetIds : Finset String) :
    targetRegions graph targetIds ⊆ engineeringSelection graph subgraphs targetIds ∧
      ScopeClosed graph subgraphs (engineeringSelection graph subgraphs targetIds) ∧
      ∀ T : Set String, ScopeClosed graph subgraphs T →
        (∀ r ∈ targetRegions graph targetIds, r ∈ T) →
        ∀ r ∈ engineeringSelection graph subgraphs targetIds, r ∈ T := by
  classical
  obtain ⟨hsub, hclosed, hleast⟩ := saturate_spec (pass_engineeringTurn graph subgraphs)
    (closed_universe graph subgraphs (targetRegions graph targetIds)) _
    Finset.subset_union_left (card_universe_lt graph subgraphs _)
  refine ⟨hsub, (closed_iff graph subgraphs).1 hclosed, fun T hT htargets r hr => ?_⟩
  -- the part of the selection in the other set is closed too
  have hinter : ScopeClosed graph subgraphs
      ((engineeringSelection graph subgraphs targetIds).filter (· ∈ T) : Finset String) := by
    rw [Finset.coe_filter]
    exact ScopeClosed.inter graph subgraphs ((closed_iff graph subgraphs).1 hclosed) hT
  have hmem := hleast _ ((closed_iff graph subgraphs).2 hinter)
    (fun x hx => Finset.mem_filter.2 ⟨hsub hx, htargets x hx⟩) hr
  exact (Finset.mem_filter.1 hmem).2

/-- More turns change nothing. -/
theorem engineeringSelection_stable (targetIds : Finset String) (n : ℕ)
    (hn : (scopeUniverse graph subgraphs).card < n) :
    saturate (engineeringTurn graph subgraphs) n (targetRegions graph targetIds) =
      saturate (engineeringTurn graph subgraphs) (n + 1) (targetRegions graph targetIds) := by
  refine saturate_stable (pass_engineeringTurn graph subgraphs)
    (closed_universe graph subgraphs (targetRegions graph targetIds)) n
    Finset.subset_union_left ?_
  have := card_universe_lt graph subgraphs (targetRegions graph targetIds)
  omega

/-! ## The views -/

/-- The view of a scope, cut down to a selection. -/
structure IsViewOf (selected : Finset String) (scope view : AgentSubgraph) : Prop where
  regionIds : ∀ r, r ∈ view.regionIds ↔ r ∈ scope.regionIds ∧ r ∈ selected
  sorted : view.regionIds.Pairwise (· < ·)
  edgeIds : ∀ id, id ∈ view.edgeIds ↔ id ∈ scope.edgeIds ∧
    ∃ e ∈ graph.edges, e.edgeId = id ∧ e.u ∈ view.regionIds ∧ e.v ∈ view.regionIds
  /-- Nothing else is changed. -/
  other : { view with regionIds := scope.regionIds, edgeIds := scope.edgeIds } = scope

theorem isViewOf_scopeView (selected : Finset String) (scope : AgentSubgraph) :
    IsViewOf graph selected scope (scopeView graph selected scope) where
  regionIds r := by
    show r ∈ sortedSet _ ↔ _
    rw [mem_sortedSet, mem_filter, decide_eq_true_iff]
  sorted := by
    show (sortedSet _).Pairwise _
    exact (pairwise_sortedSet _).imp₂ (fun _ _ => lt_of_le_of_ne) (nodup_sortedSet _)
  edgeIds id := by
    show id ∈ List.map _ _ ↔ _
    rw [mem_map]
    constructor
    · rintro ⟨e, he, rfl⟩
      obtain ⟨he, hguard⟩ := mem_filter.1 he
      rw [Bool.and_eq_true, Bool.and_eq_true, decide_eq_true_iff, decide_eq_true_iff,
        decide_eq_true_iff] at hguard
      exact ⟨hguard.1.1, e, he, rfl, hguard.1.2, hguard.2⟩
    · rintro ⟨hid, e, he, rfl, hu, hv⟩
      refine ⟨e, mem_filter.2 ⟨he, ?_⟩, rfl⟩
      rw [Bool.and_eq_true, Bool.and_eq_true, decide_eq_true_iff, decide_eq_true_iff,
        decide_eq_true_iff]
      exact ⟨⟨hid, hu⟩, hv⟩
  other := rfl

theorem scopeView_ne_nil {selected : Finset String} {scope : AgentSubgraph} :
    (scopeView graph selected scope).regionIds ≠ [] ↔ MeetsScope selected scope := by
  have hview := (isViewOf_scopeView graph selected scope).regionIds
  rw [meetsScope_iff]
  constructor
  · intro hne
    obtain ⟨r, hr⟩ := exists_mem_of_ne_nil _ hne
    exact ⟨r, (hview r).1 hr⟩
  · rintro ⟨r, hr⟩
    exact ne_nil_of_mem ((hview r).2 hr)

/-- **The scope of an engineering run.**  For a nonempty target set the loop ends, with the
least set that holds the regions of the targets and is closed under hard edges, whole
scopes and hard dependencies; the views are the scopes that meet it, cut down to it. For no
target the scopes are returned as they are. -/
theorem engineeringScopeViews_spec (targetIds : Finset String) (htargets : targetIds ≠ ∅) :
    engineeringScopeViews graph subgraphs ∅ = subgraphs ∧
      ∃ selected : Finset String,
        (∀ n, (scopeUniverse graph subgraphs).card < n →
          saturate (engineeringTurn graph subgraphs) n (targetRegions graph targetIds) =
            selected) ∧
        engineeringTurn graph subgraphs selected = selected ∧
        IsLeast {T : Set String | (∀ r ∈ targetRegions graph targetIds, r ∈ T) ∧
          ScopeClosed graph subgraphs T} selected ∧
        List.Forall₂ (IsViewOf graph selected)
          (subgraphs.filter fun scope => MeetsScope selected scope)
          (engineeringScopeViews graph subgraphs targetIds) := by
  obtain ⟨hsub, hclosed, hleast⟩ := engineeringSelection_least graph subgraphs targetIds
  refine ⟨if_pos rfl, engineeringSelection graph subgraphs targetIds, fun n hn => ?_, ?_,
    ⟨⟨hsub, hclosed⟩, fun T hT => hleast T hT.2 hT.1⟩, ?_⟩
  · induction n, (Nat.succ_le_of_lt hn) using Nat.le_induction with
    | base => rfl
    | succ n hle ih =>
      rw [← engineeringSelection_stable graph subgraphs targetIds n (Nat.lt_of_succ_le hle)]
      exact ih (Nat.lt_of_succ_le hle)
  · have hpass := pass_engineeringTurn graph subgraphs
    refine Finset.Subset.antisymm ?_ (hpass.subset _)
    exact hpass.within _ _ ((closed_iff graph subgraphs).2 hclosed) (Finset.Subset.refl _)
  · rw [engineeringScopeViews, if_neg htargets, filter_map, forall₂_map_right_iff]
    have hsame : (fun scope => decide (MeetsScope
        (engineeringSelection graph subgraphs targetIds) scope)) =
        (fun view : AgentSubgraph => decide (view.regionIds ≠ [])) ∘
          scopeView graph (engineeringSelection graph subgraphs targetIds) := by
      funext scope
      rw [Function.comp_apply, decide_eq_decide, scopeView_ne_nil]
    rw [hsame, forall₂_same]
    exact fun scope _ => isViewOf_scopeView graph _ scope

end Scope

/-! ## A chain of two scopes -/

/-- A target region, and a region behind a hard edge. -/
def chainGraph : AgentGraph where
  edges := [{ edgeId := "e", u := "r1", v := "r2", hard := true }]
  regions := [("r1", ["v1"]), ("r2", ["v2"]), ("r3", ["v3"])]

/-- The scope of the first region, and that of the two others. -/
def chainScopes : List AgentSubgraph :=
  [{ subgraphId := "s1", regionIds := ["r1"] },
    { subgraphId := "s2", regionIds := ["r2", "r3"], edgeIds := ["e"] }]

theorem engineeringScopeViews_spec_chain :
    ∃ selected : Finset String,
      engineeringTurn chainGraph chainScopes selected = selected ∧
      List.Forall₂ (IsViewOf chainGraph selected)
        (chainScopes.filter fun scope => MeetsScope selected scope)
        (engineeringScopeViews chainGraph chainScopes {"v1"}) := by
  obtain ⟨-, selected, -, hfixed, -, hviews⟩ :=
    engineeringScopeViews_spec chainGraph chainScopes {"v1"} (Finset.singleton_ne_empty _)
  exact ⟨selected, hfixed, hviews⟩

/-- Without a target every scope is returned as it is, although the empty set is closed and
holds the regions of no target. -/
theorem engineeringScopeViews_no_target :
    engineeringScopeViews chainGraph chainScopes ∅ = chainScopes ∧
      IsLeast {T : Set String | (∀ r ∈ targetRegions chainGraph ∅, r ∈ T) ∧
        ScopeClosed chainGraph chainScopes T} ∅ ∧
      ¬ List.Forall₂ (IsViewOf chainGraph ∅)
        (chainScopes.filter fun scope => MeetsScope ∅ scope)
        (engineeringScopeViews chainGraph chainScopes ∅) := by
  have htargets : targetRegions chainGraph ∅ = ∅ := by decide
  refine ⟨rfl, ⟨⟨?_, ?_⟩, fun T _ => Set.empty_subset T⟩, ?_⟩
  · rw [htargets]
    exact fun r hr => absurd hr (Finset.notMem_empty r)
  · refine ⟨fun e _ _ hends => ?_, fun scope _ _ hmet => ?_, fun scope _ hmet => ?_⟩
    · exact absurd hends (by simp)
    · exact absurd hmet (by simp)
    · exact absurd hmet (by simp)
  · intro hviews
    have hlength := hviews.length_eq
    have hnone : (chainScopes.filter fun scope => MeetsScope ∅ scope) = [] := by decide
    rw [hnone] at hlength
    cases hlength

end DRCAgent
