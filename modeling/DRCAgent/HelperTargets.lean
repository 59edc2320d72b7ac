/-
# The target of a helper across a subgraph boundary

`plan_subgraph` of `workflow/runtime.py` plans the subgraphs of a window one by one.
It slices the roles, the claimed frontier and the helper assignments of the window to
the regions of one subgraph, and `plan` intersects the targets of an assignment with
the sliced frontier. An assignment was bound by a search over the whole graph, so
its targets can all lie in another subgraph; then the slice drops them.

Main result:

* `helper_target_iff`: a helper is planned for a target it assists exactly when a
  region of the subgraph at hand carries a claimed violation of a decision region the
  helper reaches.
-/
import DRCAgent.PlanningRoles
import DRCAgent.WindowRoles

namespace DRCAgent

open List

/-! ## The slices of a subgraph -/

/-- `window.claimed_frontier_violation_ids or window.frontier_violation_ids` -/
def ActiveWindow.claims (w : ActiveWindow) : List String :=
  if w.claimedFrontierViolationIds = [] then w.frontierViolationIds
  else w.claimedFrontierViolationIds

/-- The arguments `plan_subgraph` passes to `plan`. -/
def planSubgraphArguments (graph : AgentGraph) (w : ActiveWindow) (subgraph : AgentSubgraph) :
    PlanArguments where
  currentSnapshotId := some w.baseSnapshotId
  decisionRegionIds := some (sortedSet (subgraph.regionIds.filter (· ∈ w.decisionRegionIds)))
  helperRegionIds := some (sortedSet (subgraph.regionIds.filter (· ∈ w.helperRegionIds)))
  contextOnlyRegionIds :=
    some (sortedSet (subgraph.regionIds.filter (· ∈ w.contextOnlyRegionIds)))
  claimedFrontierViolationIds :=
    some (sortedSet ((subgraph.regionIds.flatMap (regionViolations graph)).filter (· ∈ w.claims)))
  helperAssignments :=
    some (w.helperAssignments.filter (·.helperRegionId ∈ subgraph.regionIds))

/-- `session.subgraphs` -/
def windowSubgraphs (req : WindowRequest) (w : ActiveWindow) : List AgentSubgraph :=
  w.subgraphIds.filterMap (byId req.subgraphs)

/-- `plan` accepts the slices and plans the helper of the assignment for a target of
the assignment. -/
def PlannedForTarget (graph : AgentGraph) (w : ActiveWindow) (subgraph : AgentSubgraph)
    (a : HelperRegionAssignment) : Prop :=
  ∃ roles target, planningRoles graph subgraph (planSubgraphArguments graph w subgraph) =
      .ok roles ∧
    a.helperRegionId ∈ roles.planningRegionIds ∧
    roles.planningTargets graph a.helperRegionId = some [target] ∧
    target ∈ a.assistedTargetViolationIds

/-- A region of the subgraph carries a claimed violation of a decision region that the
helper reaches by proven hard edges, without passing another decision region. -/
def AssistsInside (graph : AgentGraph) (w : ActiveWindow) (subgraph : AgentSubgraph)
    (helper : String) : Prop :=
  ∃ d ∈ w.decisionRegionIds, AssistPath graph w.decisionRegionIds helper d ∧
    ∃ v ∈ regionViolations graph d, v ∈ w.claimedFrontierViolationIds ∧
      ∃ r ∈ subgraph.regionIds, v ∈ regionViolations graph r

/-! ## The slices are accepted -/

section Slices

variable {graph : AgentGraph} {w : ActiveWindow} {subgraph : AgentSubgraph} {r v : String}

/-- The split that the slices of a window amount to. -/
def slicedSplit (w : ActiveWindow) (subgraph : AgentSubgraph) : RoleSplit where
  decision := sortedSet (subgraph.regionIds.filter (· ∈ w.decisionRegionIds))
  helper := sortedSet (subgraph.regionIds.filter (· ∈ w.helperRegionIds))
  context := sortedSet (subgraph.regionIds.filter (· ∈ w.contextOnlyRegionIds))

theorem mem_slice {role : List String} :
    r ∈ sortedSet (subgraph.regionIds.filter (· ∈ role)) ↔ r ∈ subgraph.regionIds ∧ r ∈ role := by
  rw [mem_sortedSet, mem_filter, decide_eq_true_eq]

/-- Roles that partition the window partition each of its subgraphs. -/
theorem roleSplit_slices (h : RolesSound graph w)
    (hregions : ∀ r ∈ subgraph.regionIds, r ∈ w.regionIds) :
    roleSplit subgraph (planSubgraphArguments graph w subgraph) = .ok (slicedSplit w subgraph) := by
  have hnodup := h.partition.nodup_iff.2 h.nodup
  obtain ⟨hdh, -, hcontext⟩ := nodup_append.1 hnodup
  obtain ⟨-, -, hhelper⟩ := nodup_append.1 hdh
  have hcover : sortedSet (sortedSet (subgraph.regionIds.filter (· ∈ w.decisionRegionIds)) ++
      sortedSet (subgraph.regionIds.filter (· ∈ w.helperRegionIds)) ++
      sortedSet (subgraph.regionIds.filter (· ∈ w.contextOnlyRegionIds))) =
        sortedSet subgraph.regionIds := by
    refine sortedSet_congr fun r => ?_
    rw [mem_append, mem_append, mem_slice, mem_slice, mem_slice]
    constructor
    · rintro ((hr | hr) | hr)
      · exact hr.1
      · exact hr.1
      · exact hr.1
    · intro hr
      have hmem := h.partition.mem_iff.2 (hregions r hr)
      rw [mem_append, mem_append] at hmem
      tauto
  have hslices : ∀ role : List String,
      sortedSet ((some (sortedSet (subgraph.regionIds.filter (· ∈ role)))).getD []) =
        sortedSet (subgraph.regionIds.filter (· ∈ role)) := fun role => sortedSet_sortedSet _
  have hsupplied : (planSubgraphArguments graph w subgraph).rolesSupplied = true := rfl
  rw [roleSplit, if_pos hsupplied]
  simp only [planSubgraphArguments, hslices, hcover, ne_eq, not_true_eq_false, or_false]
  rw [if_neg]
  · rfl
  · simp only [any_eq_true, decide_eq_true_eq, mem_slice, not_or]
    refine ⟨?_, ?_, ?_⟩
    · rintro ⟨r, hr, hr'⟩
      exact hhelper r hr.2 r hr'.2 rfl
    · rintro ⟨r, hr, hr'⟩
      exact hcontext r (mem_append_left _ hr.2) r hr'.2 rfl
    · rintro ⟨r, hr, hr'⟩
      exact hcontext r (mem_append_right _ hr.2) r hr'.2 rfl

/-- The role setup of a subgraph of a window succeeds. -/
theorem planningRoles_slices (h : RolesSound graph w)
    (hregions : ∀ r ∈ subgraph.regionIds, r ∈ w.regionIds)
    (hknown : ∀ r ∈ subgraph.regionIds, r ∈ graph.regions.map (·.1)) :
    planningRoles graph subgraph (planSubgraphArguments graph w subgraph) =
      .ok (rolesOfSplit graph (slicedSplit w subgraph)
        (planSubgraphArguments graph w subgraph)) := by
  have hnone : (subgraph.regionIds.any fun r => r ∉ graph.regions.map (·.1)) = false := by
    refine any_eq_false.2 fun r hr => ?_
    simpa using hknown r hr
  rw [planningRoles, roleSplit_slices h hregions]
  change (if _ then _ else _) = _
  rw [if_neg (by rw [hnone]; exact Bool.false_ne_true)]

/-- A key that no other assignment has finds its assignment. -/
theorem assignmentOf_eq_some {assignments : List HelperRegionAssignment}
    {a : HelperRegionAssignment} (hnodup : (assignments.map (·.helperRegionId)).Nodup)
    (ha : a ∈ assignments) : assignmentOf assignments a.helperRegionId = some a := by
  have hsome : (assignmentOf assignments a.helperRegionId).isSome := by
    rw [assignmentOf, find?_isSome]
    exact ⟨a, mem_reverse.2 ha, by simp⟩
  obtain ⟨b, hb⟩ := Option.isSome_iff_exists.1 hsome
  have hmem : b ∈ assignments := mem_reverse.1 (mem_of_find?_eq_some hb)
  have hkey : b.helperRegionId = a.helperRegionId := by simpa using find?_some hb
  rw [hb, inj_on_of_nodup_map hnodup hmem ha hkey]

/-- The frontier of the sliced roles. -/
theorem mem_claimedFrontier_slices (hclaims : w.claims = w.claimedFrontierViolationIds) :
    v ∈ (rolesOfSplit graph (slicedSplit w subgraph)
        (planSubgraphArguments graph w subgraph)).claimedFrontier ↔
      (∃ r ∈ subgraph.regionIds, v ∈ regionViolations graph r) ∧
        v ∈ w.claimedFrontierViolationIds := by
  simp only [rolesOfSplit, claimedFrontierOf, planSubgraphArguments, mem_sortedSet,
    mem_filter, mem_flatMap, decide_eq_true_eq, hclaims]

end Slices

/-- The first of a sorted set, where there is one. -/
theorem take_one_sortedSet {values : List String} :
    (∃ x, (sortedSet values).take 1 = [x] ∧ x ∈ values) ↔ ∃ x, x ∈ values := by
  constructor
  · rintro ⟨x, -, hx⟩
    exact ⟨x, hx⟩
  · rintro ⟨x, hx⟩
    have hx' := mem_sortedSet.2 hx
    cases hsorted : sortedSet values with
    | nil =>
      rw [hsorted] at hx'
      exact absurd hx' not_mem_nil
    | cons first rest =>
      refine ⟨first, rfl, mem_sortedSet.1 ?_⟩
      rw [hsorted]
      exact mem_cons_self

/-! ## The window -/

section Window

variable {stableHash : WindowIdentity → String} {req : WindowRequest} {w : ActiveWindow}

/-- The graph of a selected window has every region of the supplied subgraphs. -/
theorem regions_known (h : selectActiveWindow stableHash req = .ok (some w)) :
    ∀ s ∈ req.subgraphs, ∀ r ∈ s.regionIds, r ∈ req.graph.regions.map (·.1) := by
  rw [selectActiveWindow] at h
  split_ifs at h with hpending hmissing
  · cases h
  · intro s hs r hr
    by_contra hnot
    apply hmissing
    rw [any_eq_true]
    refine ⟨s, hs, any_eq_true.2 ⟨r, hr, ?_⟩⟩
    simpa using hnot

theorem claims_window (h : selectActiveWindow stableHash req = .ok (some w)) :
    w.claims = w.claimedFrontierViolationIds := by
  obtain ⟨seed, -, rfl⟩ := selectActiveWindow_some h
  rw [ActiveWindow.claims]
  split_ifs with hnil
  · rfl
  · rfl

theorem windowSubgraphs_regions (h : selectActiveWindow stableHash req = .ok (some w))
    {s : AgentSubgraph} (hs : s ∈ windowSubgraphs req w) :
    s ∈ req.subgraphs ∧ ∀ r ∈ s.regionIds, r ∈ w.regionIds := by
  obtain ⟨seed, -, rfl⟩ := selectActiveWindow_some h
  obtain ⟨id, hid, hby⟩ := mem_filterMap.1 hs
  refine ⟨(subgraphId_of_byId hby).1, fun r hr => ?_⟩
  refine mem_sortedSet.2 (mem_flatMap.2 ⟨id, mem_sortedSet.1 hid, ?_⟩)
  rw [hby]
  exact hr

/-- The targets of an assignment, as violations in the graph. -/
theorem mem_assistedTargets (h : selectActiveWindow stableHash req = .ok (some w))
    {a : HelperRegionAssignment} (ha : a ∈ w.helperAssignments) {v : String} :
    v ∈ a.assistedTargetViolationIds ↔
      ∃ d ∈ w.decisionRegionIds, AssistPath req.graph w.decisionRegionIds a.helperRegionId d ∧
        v ∈ regionViolations req.graph d ∧ v ∈ w.claimedFrontierViolationIds := by
  obtain ⟨seed, -, rfl⟩ := selectActiveWindow_some h
  obtain ⟨r, -, hr⟩ := mem_buildHelperAssignments.1 ha
  obtain ⟨rfl, -, htargets, -⟩ := fields_of_helperAssignment hr
  rw [htargets]
  exact mem_assistTargets

theorem nodup_assignments (h : selectActiveWindow stableHash req = .ok (some w)) :
    (w.helperAssignments.map (·.helperRegionId)).Nodup ∧
      ∀ a ∈ w.helperAssignments, a.helperRegionId ∈ w.helperRegionIds := by
  obtain ⟨seed, -, rfl⟩ := selectActiveWindow_some h
  rw [helperRegionIds_window, ← map_helperRegionId_window stableHash]
  refine ⟨?_, fun a ha => mem_map_of_mem ha⟩
  rw [map_helperRegionId_window]
  exact nodup_sortedSet _

/-- The roles of a sliced subgraph, at a helper with an assignment to plan for. -/
theorem slices_at_helper (h : selectActiveWindow stableHash req = .ok (some w))
    {a : HelperRegionAssignment} (ha : a ∈ w.helperAssignments)
    (hstatus : a.status = "DEPENDENCY_ASSIST") {s : AgentSubgraph}
    (hhelper : a.helperRegionId ∈ s.regionIds) {roles : RegionRoles}
    (hroles : roles = rolesOfSplit req.graph (slicedSplit w s)
      (planSubgraphArguments req.graph w s)) :
    a.helperRegionId ∈ roles.planningRegionIds ∧
      roles.planningTargets req.graph a.helperRegionId =
        some ((sortedSet (a.assistedTargetViolationIds.filter
          (· ∈ roles.claimedFrontier))).take 1) := by
  obtain ⟨hnodup, hids⟩ := nodup_assignments h
  have hassignments : roles.assignments =
      w.helperAssignments.filter (·.helperRegionId ∈ s.regionIds) := by
    rw [hroles]
    rfl
  have hfound : assignmentOf roles.assignments a.helperRegionId = some a := by
    rw [hassignments]
    refine assignmentOf_eq_some (hnodup.sublist (filter_sublist.map _)) ?_
    exact mem_filter.2 ⟨ha, by simpa using hhelper⟩
  have hmem : a.helperRegionId ∈ roles.helper := by
    have hsplit : roles.helper = (slicedSplit w s).helper.filter
        fun r => (assignmentOf roles.assignments r).isSome := by
      rw [hroles]
      rfl
    rw [hsplit]
    refine mem_filter.2 ⟨mem_slice.2 ⟨hhelper, hids a ha⟩, ?_⟩
    rw [hfound]
    rfl
  refine ⟨RegionRoles.mem_planningRegionIds.2 (.inr ⟨hmem, ?_⟩), ?_⟩
  · rw [RegionRoles.isUnsupported, hfound, Option.any_some, hstatus]
    decide
  · rw [RegionRoles.planningTargets, if_pos hmem, hfound]
    rfl

end Window

/-- **Helper targets across subgraphs.** -/
theorem helper_target_iff (stableHash : WindowIdentity → String) (req : WindowRequest)
    (w : ActiveWindow) (h : selectActiveWindow stableHash req = .ok (some w))
    (a : HelperRegionAssignment) (ha : a ∈ w.helperAssignments)
    (hstatus : a.status = "DEPENDENCY_ASSIST") (s : AgentSubgraph)
    (hs : s ∈ windowSubgraphs req w) (hhelper : a.helperRegionId ∈ s.regionIds) :
    PlannedForTarget req.graph w s a ↔ AssistsInside req.graph w s a.helperRegionId := by
  obtain ⟨hsupplied, hregions⟩ := windowSubgraphs_regions h hs
  have haccepted := planningRoles_slices (window_roles stableHash req w h) hregions
    (regions_known h s hsupplied)
  obtain ⟨hplanned, htargets⟩ := slices_at_helper h ha hstatus hhelper rfl
  have hclaims := claims_window h
  have hfirst : PlannedForTarget req.graph w s a ↔
      ∃ v, v ∈ a.assistedTargetViolationIds.filter
        (· ∈ (rolesOfSplit req.graph (slicedSplit w s)
          (planSubgraphArguments req.graph w s)).claimedFrontier) := by
    rw [← take_one_sortedSet]
    constructor
    · rintro ⟨roles, target, hroles, -, htarget, hmem⟩
      obtain rfl := Except.ok.inj (hroles.symm.trans haccepted)
      have htake := Option.some.inj (htarget.symm.trans htargets)
      refine ⟨target, htake.symm, mem_sortedSet.1 (mem_of_mem_take (i := 1) ?_)⟩
      rw [← htake]
      exact mem_singleton_self _
    · rintro ⟨v, htake, hv⟩
      rw [htake] at htargets
      exact ⟨_, v, haccepted, hplanned, htargets, (mem_filter.1 hv).1⟩
  rw [hfirst]
  simp only [mem_filter, decide_eq_true_eq, mem_claimedFrontier_slices hclaims,
    mem_assistedTargets h ha]
  constructor
  · rintro ⟨v, ⟨d, hd, hpath, hv, -⟩, hinside, hclaimed⟩
    exact ⟨d, hd, hpath, v, hv, hclaimed, hinside⟩
  · rintro ⟨d, hd, hpath, v, hv, hclaimed, hinside⟩
    exact ⟨v, ⟨d, hd, hpath, hv, hclaimed⟩, hinside, hclaimed⟩

/-- Two subgraphs joined by a proven hard edge, with the only target in the first. -/
def boundaryRequest : WindowRequest where
  graph := {
    edges := [{ edgeId := "e1", u := "r1", v := "r2", hard := true
                evidence := [{ evidenceId := "physical:1", kind := "same_writable_occurrence" }] }]
    regions := [("r1", ["v1"]), ("r2", [])] }
  subgraphs := [{ subgraphId := "A", regionIds := ["r1"] },
    { subgraphId := "B", regionIds := ["r2"] }]
  iterationFrontierViolationIds := {"v1"}
  currentViolationIds := {"v1"}
  maxParallelSubgraphs := 2
  maxActiveRegions := 8
  topKCandidatesIncludingNoop := 3
  maxNonNoopActionsPerBatch := 8

/-- The assignment that binds `r2` to the target of `r1`. -/
def boundaryAssist : HelperRegionAssignment where
  helperRegionId := "r2"
  assistedRegionIds := ["r1"]
  assistedTargetViolationIds := ["v1"]
  dependencyEvidenceIds := ["physical:1"]
  helperPotentialDofCapabilityIds := []
  helperPotentialCarrierIds := []
  helperProtectedRelationIds := []
  snapshotId := ""
  status := "DEPENDENCY_ASSIST"

/-- The helper across the boundary is planned with no target. -/
theorem helper_planned_without_target :
    ∃ w s roles, selectActiveWindow (fun _ => "0") boundaryRequest = .ok (some w) ∧
      boundaryAssist ∈ w.helperAssignments ∧ s ∈ windowSubgraphs boundaryRequest w ∧
      boundaryAssist.helperRegionId ∈ s.regionIds ∧
      planningRoles boundaryRequest.graph s
        (planSubgraphArguments boundaryRequest.graph w s) = .ok roles ∧
      boundaryAssist.helperRegionId ∈ roles.planningRegionIds ∧
      roles.planningTargets boundaryRequest.graph boundaryAssist.helperRegionId = some [] := by
  refine ⟨_, { subgraphId := "B", regionIds := ["r2"] }, {
    decision := []
    helper := ["r2"]
    context := []
    claimedFrontier := []
    assignments := [boundaryAssist] }, rfl, ?_⟩
  decide +kernel

/-- The helper of the chain shares its subgraph with the target. -/
theorem helper_target_iff_chain :
    ∃ w s, selectActiveWindow (fun _ => "0") chainRequest = .ok (some w) ∧
      (PlannedForTarget chainRequest.graph w s boundaryAssist ↔
        AssistsInside chainRequest.graph w s boundaryAssist.helperRegionId) := by
  refine ⟨_, { subgraphId := "A", regionIds := ["r1", "r2", "r3"] }, rfl, ?_⟩
  exact helper_target_iff (fun _ => "0") chainRequest _ rfl _ (by decide +kernel) rfl _
    (by decide +kernel) (by decide)

end DRCAgent
