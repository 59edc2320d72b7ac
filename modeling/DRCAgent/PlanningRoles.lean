/-
# The roles and targets of a subgraph's plan

The role setup of `SubgraphPlanner.plan` in `workflow/planning.py`: the decision,
helper and context regions of a subgraph, the frontier it claims, the assignment of
each helper, the regions it plans and the one target each of them is planned for.

Main result:

* `RegionRoles.regions_perm`: the regions that are planned, the context regions and
  the unsupported helpers are the regions of the subgraph, each once.
-/
import DRCAgent.ActiveWindow

namespace DRCAgent

open List

/-! ## The setup -/

/-- The keyword arguments of `plan` that its role setup reads. -/
structure PlanArguments where
  currentSnapshotId : Option String := none
  decisionRegionIds : Option (List String) := none
  helperRegionIds : Option (List String) := none
  contextOnlyRegionIds : Option (List String) := none
  claimedFrontierViolationIds : Option (List String) := none
  helperAssignments : Option (List HelperRegionAssignment) := none

/-- `roles_supplied` -/
def PlanArguments.rolesSupplied (args : PlanArguments) : Bool :=
  args.decisionRegionIds.isSome || args.helperRegionIds.isSome ||
    args.contextOnlyRegionIds.isSome

/-- The three role sets as they are supplied. -/
structure RoleSplit where
  decision : List String
  helper : List String
  context : List String

/-- `decision_ids`, `helper_ids` and `context_ids` after the partition check. -/
def roleSplit (subgraph : AgentSubgraph) (args : PlanArguments) : Except String RoleSplit :=
  if args.rolesSupplied then
    let decision := sortedSet (args.decisionRegionIds.getD [])
    let helper := sortedSet (args.helperRegionIds.getD [])
    let context := sortedSet (args.contextOnlyRegionIds.getD [])
    if decision.any (· ∈ helper) ∨ decision.any (· ∈ context) ∨ helper.any (· ∈ context) ∨
        sortedSet (decision ++ helper ++ context) ≠ sortedSet subgraph.regionIds then
      .error "REGION_ROLE_PARTITION_INVALID"
    else .ok ⟨decision, helper, context⟩
  else .ok ⟨sortedSet subgraph.regionIds, [], []⟩

/-- The roles a plan works with. -/
structure RegionRoles where
  decision : List String
  /-- The helpers that have an assignment. -/
  helper : List String
  context : List String
  claimedFrontier : List String
  assignments : List HelperRegionAssignment
  deriving DecidableEq

/-- `helper_assignment_by_region[region_id]`: the last assignment of the region. -/
def assignmentOf (assignments : List HelperRegionAssignment) (regionId : String) :
    Option HelperRegionAssignment :=
  assignments.reverse.find? (·.helperRegionId = regionId)

/-- `claimed_frontier` -/
def claimedFrontierOf (graph : AgentGraph) (split : RoleSplit) (args : PlanArguments) :
    List String :=
  match args.claimedFrontierViolationIds with
  | some ids => sortedSet ids
  | none => sortedSet (split.decision.flatMap (regionViolations graph))

/-- `helper_assignments` -/
def helperAssignmentsOf (graph : AgentGraph) (split : RoleSplit) (args : PlanArguments) :
    List HelperRegionAssignment :=
  match args.helperAssignments with
  | some assignments => assignments
  | none =>
    if split.helper = [] then []
    else buildHelperAssignments graph split.helper split.decision
      (claimedFrontierOf graph split args)
      ((nonempty args.currentSnapshotId).getD "UNKNOWN_SNAPSHOT")

/-- A helper without an assignment becomes a context region. -/
def rolesOfSplit (graph : AgentGraph) (split : RoleSplit) (args : PlanArguments) : RegionRoles :=
  let assignments := helperAssignmentsOf graph split args
  { decision := split.decision
    helper := split.helper.filter fun r => (assignmentOf assignments r).isSome
    context := sortedSet
      (split.context ++ split.helper.filter fun r => (assignmentOf assignments r).isNone)
    claimedFrontier := claimedFrontierOf graph split args
    assignments := assignments }

/-- The role setup. A region that the graph does not have is a `KeyError`. -/
def planningRoles (graph : AgentGraph) (subgraph : AgentSubgraph) (args : PlanArguments) :
    Except String RegionRoles := do
  let split ← roleSplit subgraph args
  if subgraph.regionIds.any fun r => r ∉ graph.regions.map (·.1) then .error "KeyError"
  else .ok (rolesOfSplit graph split args)

namespace RegionRoles

variable (roles : RegionRoles)

/-- `assignment.status == "UNSUPPORTED_WITH_EVIDENCE"` -/
def isUnsupported (regionId : String) : Bool :=
  (assignmentOf roles.assignments regionId).any (·.status = "UNSUPPORTED_WITH_EVIDENCE")

/-- `unsupported_helper_ids` -/
def unsupportedHelpers : List String := roles.helper.filter roles.isUnsupported

/-- `planning_region_ids` -/
def planningRegionIds : List String :=
  sortedSet (roles.decision ++ roles.helper.filter fun r => !roles.isUnsupported r)

/-- `planning_targets_by_region.get(region_id)`: a helper is planned for a target it
assists, and not for a marker of its own. -/
def planningTargets (graph : AgentGraph) (regionId : String) : Option (List String) :=
  if regionId ∈ roles.helper then
    (assignmentOf roles.assignments regionId).map fun assignment =>
      (sortedSet (assignment.assistedTargetViolationIds.filter (· ∈ roles.claimedFrontier))).take 1
  else if regionId ∈ roles.decision then
    some ((sortedSet ((regionViolations graph regionId).filter (· ∈ roles.claimedFrontier))).take 1)
  else none

end RegionRoles

/-! ## The roles are a partition -/

/-- The role sets share no region and cover the regions of the subgraph. -/
structure RoleSplit.Partitions (split : RoleSplit) (subgraph : AgentSubgraph) : Prop where
  nodup_decision : split.decision.Nodup
  nodup_helper : split.helper.Nodup
  decision_helper : ∀ r ∈ split.decision, r ∉ split.helper
  decision_context : ∀ r ∈ split.decision, r ∉ split.context
  helper_context : ∀ r ∈ split.helper, r ∉ split.context
  cover : ∀ r, r ∈ subgraph.regionIds ↔
    r ∈ split.decision ∨ r ∈ split.helper ∨ r ∈ split.context

/-- A split of the roles is a partition. -/
theorem partitions_of_roleSplit {subgraph : AgentSubgraph} {args : PlanArguments}
    {split : RoleSplit} (h : roleSplit subgraph args = .ok split) : split.Partitions subgraph := by
  rw [roleSplit] at h
  split at h
  · dsimp only at h
    split_ifs at h with hinvalid
    obtain rfl := Except.ok.inj h
    simp only [not_or, Bool.not_eq_true, any_eq_false, decide_eq_true_eq, ne_eq,
      not_not] at hinvalid
    obtain ⟨hdh, hdc, hhc, hcover⟩ := hinvalid
    refine ⟨nodup_sortedSet _, nodup_sortedSet _, hdh, hdc, hhc, fun r => ?_⟩
    rw [← mem_sortedSet, ← hcover, mem_sortedSet, mem_append, mem_append, or_assoc]
  · obtain rfl := Except.ok.inj h
    refine ⟨nodup_sortedSet _, nodup_nil, fun _ _ => not_mem_nil,
      fun _ _ => not_mem_nil, fun _ _ => not_mem_nil, fun r => ?_⟩
    simp

/-- What a role setup that succeeds has computed. -/
theorem rolesOfSplit_of_planningRoles {graph : AgentGraph} {subgraph : AgentSubgraph}
    {args : PlanArguments} {roles : RegionRoles}
    (h : planningRoles graph subgraph args = .ok roles) :
    ∃ split, roleSplit subgraph args = .ok split ∧ roles = rolesOfSplit graph split args := by
  rw [planningRoles] at h
  cases hsplit : roleSplit subgraph args with
  | error e => rw [hsplit] at h; cases h
  | ok split =>
    rw [hsplit] at h
    change (if _ then _ else _) = _ at h
    split_ifs at h
    exact ⟨split, rfl, (Except.ok.inj h).symm⟩

namespace RegionRoles

/-- What the role setup establishes: three disjoint role sets that cover the subgraph,
the helpers being those with an assignment. -/
structure WellFormed (roles : RegionRoles) (subgraph : AgentSubgraph) : Prop where
  nodup_decision : roles.decision.Nodup
  nodup_helper : roles.helper.Nodup
  nodup_context : roles.context.Nodup
  decision_helper : ∀ r ∈ roles.decision, r ∉ roles.helper
  decision_context : ∀ r ∈ roles.decision, r ∉ roles.context
  helper_context : ∀ r ∈ roles.helper, r ∉ roles.context
  cover : ∀ r, r ∈ subgraph.regionIds ↔
    r ∈ roles.decision ∨ r ∈ roles.helper ∨ r ∈ roles.context
  assigned : ∀ r ∈ roles.helper, (assignmentOf roles.assignments r).isSome

/-- The roles that are returned are well formed. -/
theorem wellFormed_of_planningRoles {graph : AgentGraph} {subgraph : AgentSubgraph}
    {args : PlanArguments} {roles : RegionRoles}
    (h : planningRoles graph subgraph args = .ok roles) : roles.WellFormed subgraph := by
  obtain ⟨split, hsplit, rfl⟩ := rolesOfSplit_of_planningRoles h
  have hpart := partitions_of_roleSplit hsplit
  have hcontext : ∀ r, r ∈ (rolesOfSplit graph split args).context ↔ r ∈ split.context ∨
      r ∈ split.helper ∧ (assignmentOf (helperAssignmentsOf graph split args) r).isNone := by
    intro r
    rw [rolesOfSplit, mem_sortedSet, mem_append, mem_filter]
  have hhelper : ∀ r, r ∈ (rolesOfSplit graph split args).helper ↔
      r ∈ split.helper ∧ (assignmentOf (helperAssignmentsOf graph split args) r).isSome :=
    fun r => mem_filter
  refine ⟨hpart.nodup_decision, hpart.nodup_helper.filter _, nodup_sortedSet _,
    fun r hr hr' => ?_, fun r hr hr' => ?_, fun r hr hr' => ?_, fun r => ?_, fun r hr => ?_⟩
  · exact hpart.decision_helper r hr ((hhelper r).1 hr').1
  · rcases (hcontext r).1 hr' with hc | hc
    · exact hpart.decision_context r hr hc
    · exact hpart.decision_helper r hr hc.1
  · obtain ⟨hr, hsome⟩ := (hhelper r).1 hr
    rcases (hcontext r).1 hr' with hc | ⟨-, hnone⟩
    · exact hpart.helper_context r hr hc
    · rw [Option.isNone_iff_eq_none] at hnone
      rw [hnone] at hsome
      cases hsome
  · rw [hpart.cover, hcontext, hhelper]
    cases hassigned : assignmentOf (helperAssignmentsOf graph split args) r with
    | none => simp [rolesOfSplit]; tauto
    | some a => simp [rolesOfSplit]
  · exact ((hhelper r).1 hr).2

variable {roles : RegionRoles} {subgraph : AgentSubgraph} {r : String}

theorem mem_unsupportedHelpers :
    r ∈ roles.unsupportedHelpers ↔ r ∈ roles.helper ∧ roles.isUnsupported r = true :=
  mem_filter

/-- Who plans: the deciding regions and the supported helpers. -/
theorem mem_planningRegionIds :
    r ∈ roles.planningRegionIds ↔
      r ∈ roles.decision ∨ r ∈ roles.helper ∧ roles.isUnsupported r = false := by
  rw [planningRegionIds, mem_sortedSet, mem_append, mem_filter, Bool.not_eq_true']

theorem nodup_planningRegionIds : roles.planningRegionIds.Nodup := nodup_sortedSet _

namespace WellFormed

variable (h : roles.WellFormed subgraph)
include h

/-- No context plans. -/
theorem planning_not_context (hr : r ∈ roles.planningRegionIds) : r ∉ roles.context := by
  rcases mem_planningRegionIds.1 hr with hd | hh
  · exact h.decision_context r hd
  · exact h.helper_context r hh.1

theorem planning_not_unsupported (hr : r ∈ roles.planningRegionIds) :
    r ∉ roles.unsupportedHelpers := by
  intro hunsupported
  obtain ⟨hhelper, hstatus⟩ := mem_unsupportedHelpers.1 hunsupported
  rcases mem_planningRegionIds.1 hr with hd | hh
  · exact h.decision_helper r hd hhelper
  · rw [hh.2] at hstatus
    cases hstatus

theorem context_not_unsupported (hr : r ∈ roles.context) : r ∉ roles.unsupportedHelpers :=
  fun hunsupported => h.helper_context r (mem_unsupportedHelpers.1 hunsupported).1 hr

/-- **The regions of a plan.** -/
theorem regions_perm :
    (roles.planningRegionIds ++ roles.context ++ roles.unsupportedHelpers).Perm
      (sortedSet subgraph.regionIds) := by
  refine (perm_ext_iff_of_nodup ?_ (nodup_sortedSet _)).2 fun r => ?_
  · refine nodup_append.2 ⟨nodup_append.2 ⟨nodup_planningRegionIds, h.nodup_context,
      ?_⟩, h.nodup_helper.filter _, ?_⟩
    · rintro r hr _ hr' rfl
      exact h.planning_not_context hr hr'
    · rintro r hr _ hr' rfl
      rcases mem_append.1 hr with hr | hr
      · exact h.planning_not_unsupported hr hr'
      · exact h.context_not_unsupported hr hr'
  · rw [mem_sortedSet, h.cover, mem_append, mem_append, mem_planningRegionIds,
      mem_unsupportedHelpers]
    cases hstatus : roles.isUnsupported r with
    | false => simp; tauto
    | true => simp; tauto

end WellFormed

end RegionRoles

end DRCAgent
