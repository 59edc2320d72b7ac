/-
# Binding and revising repair plans

`bind_kernel_plan` and `validate_execution_feedback_revision`
(src/drc_agent/repair_kernel_integration/plan_binding.py). A plan of the model is bound
to the scenes and the degrees of freedom of a region; after execution feedback the model
may revise the plan, within the fields that the kind of feedback opens.

An accepted revision has an id of its own, and changes no other field than these
(`planId_of_accepted`, `scope_of_accepted`).
-/
import DRCAgent.ActiveWindow
import DRCAgent.InsertionDict

namespace DRCAgent.Kernel

/-! ## The records -/

structure KernelRepairPlan where
  planId : String
  targetViolationIds : List String := []
  targetWitnessIds : List String := []
  targetRelation : String := "AUTO"
  preferredParticipantIds : List String := []
  preferredDofIds : List String := []
  forbiddenDofIds : List String := []
  strategy : String := "AUTO"
  fallbackStrategy : Option String := none
  maxOperationCount : ℕ := 4
  maxTrajectoryDepth : ℕ := 4
  rationaleEvidenceIds : List String := []
  coordinationRequest : Option String := none
  confidenceMilli : ℕ := 0

inductive PlanOrigin
  | realLlm | frozenRealLlmReplay | fakeLlm | deterministicTest
deriving DecidableEq

structure BoundKernelPlan where
  planId : String
  origin : PlanOrigin
  selectedViolationIds : List String
  selectedWitnessIds : List String
  preferredParticipantIds : List String
  preferredDofIds : List String
  allowedDofIds : List String
  forbiddenDofIds : List String
  maxOperationCount : ℕ
  maxTrajectoryDepth : ℕ
  strategy : String
  fallbackStrategy : Option String
  coordinationRequest : Option String
  bindingEffects : List String
deriving DecidableEq

/-- The report, which has passed if it has no errors. -/
structure PlanBindingReport where
  planId : String
  origin : PlanOrigin
  errors : List String
  bindingEffects : List String
deriving DecidableEq

/-- What the binding reads of a scene. -/
structure RepairScene where
  sceneId : String
  primaryViolationId : String
  targetWitnessId : Option String := none
  participantIds : List String := []
  /-- The kind of the relation and that of its constraint. -/
  relation : Option (String × Option String) := none
  repairFamily : String

structure RepairDof where
  dofId : String
  sceneId : String

/-- The ids of the semantic registry. -/
structure PlanRegistry where
  registryId : String
  scenes : List String
  dofs : List String
  participants : List String

/-- What a region is bound to. -/
structure RegionInputs where
  origin : PlanOrigin
  supportedViolationIds : List String
  scenes : List RepairScene
  dofs : List RepairDof
  configuredMaxDepth : ℕ
  witnessRelationByViolation : List (String × String) := []
  registry : Option PlanRegistry := none

/-! ## Binding -/

/-- `sorted(set(ids) - set(others))` -/
def sortedDifference (ids others : List String) : List String :=
  sortedSet (ids.filter fun id => !others.contains id)

/-- `",".join(ids)` -/
def commaJoin (ids : List String) : String := String.intercalate "," ids

/-- An error with the ids it is about, if there are any. -/
def idsError (code : String) (ids : List String) : List String :=
  if ids.isEmpty then [] else [code ++ ":" ++ commaJoin ids]

/-- One comparison of `_validate_registry_surface`. -/
def surfaceError (kind : String) (expected actual : List String) : List String :=
  if expected.toFinset = actual.toFinset then []
  else ["PLAN_SEMANTIC_REGISTRY_" ++ kind ++ "_SURFACE_MISMATCH:missing=" ++
    commaJoin (sortedDifference expected actual) ++ ";extra=" ++
    commaJoin (sortedDifference actual expected)]

/-- `_validate_registry_surface` -/
def validateRegistrySurface (inputs : RegionInputs) : List String :=
  match inputs.registry with
  | none => []
  | some registry =>
    if registry.registryId = "" then ["PLAN_SEMANTIC_REGISTRY_ID_REQUIRED"]
    else
      surfaceError "SCENE" (inputs.scenes.map (·.sceneId)) registry.scenes ++
        surfaceError "DOF" (inputs.dofs.map (·.dofId)) registry.dofs ++
          surfaceError "PARTICIPANT" (inputs.scenes.flatMap (·.participantIds))
            registry.participants

/-- The scene of a violation, the last of several. -/
def sceneByViolation (inputs : RegionInputs) (violationId : String) : Option RepairScene :=
  inputs.scenes.reverse.find? fun scene => scene.primaryViolationId == violationId

/-- What a plan selects in a region. -/
structure Selection where
  requestedTargets : List String
  selectedTargets : List String
  selectedScenes : List RepairScene
  selectedDofIds : List String

def selectionOf (plan : KernelRepairPlan) (inputs : RegionInputs) : Selection :=
  let requested := plan.targetViolationIds.eraseDups
  let targets := requested.filter fun id =>
    inputs.supportedViolationIds.contains id && (sceneByViolation inputs id).isSome
  let scenes := targets.filterMap (sceneByViolation inputs)
  let sceneIds := scenes.map (·.sceneId)
  { requestedTargets := requested
    selectedTargets := targets
    selectedScenes := scenes
    selectedDofIds := (inputs.dofs.filter fun dof => sceneIds.contains dof.sceneId).map (·.dofId) }

/-- The errors about the targets of a plan. -/
def targetErrors (inputs : RegionInputs) (sel : Selection) : List String :=
  let withScene := inputs.scenes.map (·.primaryViolationId)
  let unknown := sortedDifference sel.requestedTargets (inputs.supportedViolationIds ++ withScene)
  (if sel.requestedTargets.isEmpty then ["TARGET_VIOLATION_REQUIRED"] else []) ++
    if !unknown.isEmpty then
      ["TARGET_VIOLATION_NOT_CURRENT_OR_SUPPORTED:" ++ commaJoin unknown]
    else idsError "TARGET_VIOLATION_SCENE_UNAVAILABLE"
      (sortedDifference sel.requestedTargets withScene)

/-- The witnesses of a plan that its scenes do not have. -/
def invalidWitnesses (plan : KernelRepairPlan) (sel : Selection) : List String :=
  sortedDifference plan.targetWitnessIds
    (sel.selectedScenes.filterMap fun scene => scene.targetWitnessId.filter (· ≠ ""))

/-- The relations that the scenes of a plan are in. -/
def currentRelations (inputs : RegionInputs) (sel : Selection) : List String :=
  (sel.selectedScenes.filterMap (·.relation)).flatMap (fun r => r.1 :: r.2.toList) ++
    sel.selectedTargets.filterMap fun target =>
      inputs.witnessRelationByViolation.lookup target

/-- The participants of a plan that its scenes do not have. -/
def invalidParticipants (plan : KernelRepairPlan) (sel : Selection) : List String :=
  sortedDifference plan.preferredParticipantIds
    (sel.selectedScenes.flatMap (·.participantIds))

/-- `hard_dof_family` -/
def hardDofFamily (sel : Selection) : Bool :=
  !sel.selectedScenes.isEmpty && sel.selectedScenes.all (·.repairFamily == "SPACING")

/-- `allowed_dofs`: a preference binds in a hard family only. -/
def allowedDofs (plan : KernelRepairPlan) (sel : Selection) : List String :=
  let offered :=
    if hardDofFamily sel && !plan.preferredDofIds.isEmpty then plan.preferredDofIds
    else sel.selectedDofIds
  offered.filter fun id => !plan.forbiddenDofIds.contains id

/-- The errors of a plan, in order. -/
def bindingErrors (plan : KernelRepairPlan) (inputs : RegionInputs) (sel : Selection) :
    List String :=
  validateRegistrySurface inputs ++ targetErrors inputs sel ++
    idsError "TARGET_WITNESS_MISMATCH" (invalidWitnesses plan sel) ++
    (if plan.targetRelation ≠ "AUTO" ∧ plan.targetRelation ∉ currentRelations inputs sel then
      ["TARGET_RELATION_MISMATCH:" ++ plan.targetRelation] else []) ++
    idsError "PARTICIPANT_NOT_IN_SELECTED_SCENE" (invalidParticipants plan sel) ++
    idsError "PREFERRED_DOF_NOT_IN_SELECTED_SCENE"
      (sortedDifference plan.preferredDofIds sel.selectedDofIds) ++
    idsError "FORBIDDEN_DOF_NOT_IN_SELECTED_SCENE"
      (sortedDifference plan.forbiddenDofIds sel.selectedDofIds) ++
    idsError "DOF_ALLOWED_FORBIDDEN_OVERLAP"
      (sortedSet (plan.preferredDofIds.filter plan.forbiddenDofIds.contains)) ++
    if !sel.selectedDofIds.isEmpty && (allowedDofs plan sel).isEmpty then
      ["DOF_ALLOWED_SET_EMPTY"] else []

/-- What the binding took into account, in order. -/
def bindingEffects (plan : KernelRepairPlan) (inputs : RegionInputs) (sel : Selection) :
    List String :=
  (if sel.selectedTargets.isEmpty then [] else ["TARGET_VIOLATION_HARD_FILTER"]) ++
    (if (invalidWitnesses plan sel).isEmpty && !plan.targetWitnessIds.isEmpty then
      ["WITNESS_VALIDATED"] else []) ++
    (if plan.targetRelation ≠ "AUTO" ∧ plan.targetRelation ∈ currentRelations inputs sel then
      ["RELATION_VALIDATED"] else []) ++
    (if (invalidParticipants plan sel).isEmpty && !plan.preferredParticipantIds.isEmpty then
      ["PARTICIPANT_ORDERING_ONLY"] else []) ++
    (if plan.preferredDofIds.isEmpty && plan.forbiddenDofIds.isEmpty then []
      else if hardDofFamily sel then ["DOF_HARD_FILTER"] else ["DOF_ORDER_ONLY"]) ++
    ["MAX_OPERATION_COUNT", "MAX_TRAJECTORY_DEPTH"]

/-- `bind_kernel_plan` -/
def bindKernelPlan (plan : KernelRepairPlan) (inputs : RegionInputs) :
    Except PlanBindingReport (BoundKernelPlan × PlanBindingReport) :=
  let sel := selectionOf plan inputs
  let report : PlanBindingReport := {
    planId := plan.planId
    origin := inputs.origin
    errors := bindingErrors plan inputs sel
    bindingEffects := bindingEffects plan inputs sel }
  if report.errors ≠ [] then .error report
  else
    .ok ({
      planId := plan.planId
      origin := inputs.origin
      selectedViolationIds := sel.selectedTargets
      selectedWitnessIds := plan.targetWitnessIds.eraseDups
      preferredParticipantIds := plan.preferredParticipantIds.eraseDups
      preferredDofIds := plan.preferredDofIds.eraseDups
      allowedDofIds := sortedSet (allowedDofs plan sel)
      forbiddenDofIds := plan.forbiddenDofIds.eraseDups
      maxOperationCount := plan.maxOperationCount
      maxTrajectoryDepth := min inputs.configuredMaxDepth plan.maxTrajectoryDepth
      strategy := plan.strategy
      fallbackStrategy := plan.fallbackStrategy
      coordinationRequest := plan.coordinationRequest
      bindingEffects := report.bindingEffects }, report)

/-! ## Revising -/

inductive FeedbackKind
  | preferredDofInfeasible | depthExtensionAvailable | physicalConstraintFailure
deriving DecidableEq

structure AllowedIds where
  participantIds : List String
  dofIds : List String

/-- What `allowed_binding_ids` gives a revision to choose from. -/
def allowedBindingIds (inputs : RegionInputs) : AllowedIds where
  participantIds := sortedSet (inputs.scenes.flatMap (·.participantIds))
  dofIds := sortedSet (inputs.dofs.map (·.dofId))

/-- A set of degrees of freedom that was shown to be feasible, with the least operation
count for it. -/
structure OperationBound where
  dofIds : List String
  minimumMaxOperationCount : ℕ

/-- `mutable_by_kind`, and what every revision may change. -/
def mutableFields (kind : FeedbackKind) : List String :=
  ["plan_id", "rationale_evidence_ids", "confidence_milli"] ++
    match kind with
    | .preferredDofInfeasible => ["preferred_dof_ids", "forbidden_dof_ids", "max_operation_count"]
    | .depthExtensionAvailable => ["max_trajectory_depth"]
    | .physicalConstraintFailure =>
      ["preferred_participant_ids", "preferred_dof_ids", "strategy", "fallback_strategy",
        "max_operation_count", "coordination_request"]

/-- The fields in which two plans differ. -/
def changedFields (original revised : KernelRepairPlan) : List String :=
  ([("plan_id", decide (original.planId ≠ revised.planId)),
    ("target_violation_ids", decide (original.targetViolationIds ≠ revised.targetViolationIds)),
    ("target_witness_ids", decide (original.targetWitnessIds ≠ revised.targetWitnessIds)),
    ("target_relation", decide (original.targetRelation ≠ revised.targetRelation)),
    ("preferred_participant_ids",
      decide (original.preferredParticipantIds ≠ revised.preferredParticipantIds)),
    ("preferred_dof_ids", decide (original.preferredDofIds ≠ revised.preferredDofIds)),
    ("forbidden_dof_ids", decide (original.forbiddenDofIds ≠ revised.forbiddenDofIds)),
    ("strategy", decide (original.strategy ≠ revised.strategy)),
    ("fallback_strategy", decide (original.fallbackStrategy ≠ revised.fallbackStrategy)),
    ("max_operation_count", decide (original.maxOperationCount ≠ revised.maxOperationCount)),
    ("max_trajectory_depth", decide (original.maxTrajectoryDepth ≠ revised.maxTrajectoryDepth)),
    ("rationale_evidence_ids",
      decide (original.rationaleEvidenceIds ≠ revised.rationaleEvidenceIds)),
    ("coordination_request", decide (original.coordinationRequest ≠ revised.coordinationRequest)),
    ("confidence_milli", decide (original.confidenceMilli ≠ revised.confidenceMilli))].filter
      (·.2)).map (·.1)

inductive RevisionDecision
  | accepted | declined
deriving DecidableEq

/-- The last step of each kind of revision: one that changes something has a new id. -/
def decideRevision (original revised : KernelRepairPlan) (changes : Bool) :
    Except String RevisionDecision :=
  if !changes then .ok .declined
  else if revised.planId = original.planId then .error "EXECUTION_REVISION_PLAN_ID_NOT_CHANGED"
  else .ok .accepted

/-- The bounds by their sets, once they are checked. -/
def operationBounds (alternatives : List (Finset String)) (bounds : List OperationBound) :
    Except String (List (Finset String × ℕ)) :=
  bounds.foldlM
    (fun proved bound =>
      let option := bound.dofIds.toFinset
      let required := bound.minimumMaxOperationCount
      if option ∉ alternatives ∨ required < 1 ∨ 4 < required then
        .error "EXECUTION_REVISION_OPERATION_BOUND_PROOF_INVALID"
      else .ok (Dicts.insert option (min required ((proved.lookup option).getD required)) proved))
    []

/-- The check of the operation count against the bounds of the viable sets. -/
def operationCountError (original revised : KernelRepairPlan) (proved : List ℕ) :
    Option String :=
  if revised.maxOperationCount ≠ original.maxOperationCount then
    match proved.min? with
    | none => some "EXECUTION_REVISION_OPERATION_BOUND_INCREASE_UNPROVED"
    | some minimum =>
      if minimum ≤ original.maxOperationCount then
        some "EXECUTION_REVISION_OPERATION_BOUND_INCREASE_UNNECESSARY"
      else if revised.maxOperationCount ≠ minimum then
        some "EXECUTION_REVISION_OPERATION_BOUND_NOT_PROVED_MINIMUM"
      else none
  else
    match proved.min? with
    | none => none
    | some minimum =>
      if revised.maxOperationCount < minimum then
        some "EXECUTION_REVISION_OPERATION_BOUND_STILL_INFEASIBLE"
      else none

/-- A revision after `PREFERRED_DOF_INFEASIBLE`. -/
def validatePreferred (original revised : KernelRepairPlan) (allowed : AllowedIds)
    (sets : List (List String)) (bounds : List OperationBound) :
    Except String RevisionDecision :=
  let alternatives := (sets.filter fun option => !option.isEmpty).map (·.toFinset)
  if alternatives.isEmpty then .error "EXECUTION_REVISION_ALTERNATIVE_PROOF_MISSING"
  else
    match operationBounds alternatives bounds with
    | .error e => .error e
    | .ok proved =>
      let unknown := sortedDifference (revised.preferredDofIds ++ revised.forbiddenDofIds)
        allowed.dofIds
      let added := sortedDifference revised.forbiddenDofIds original.forbiddenDofIds
      let unproved := (sortedDifference original.forbiddenDofIds revised.forbiddenDofIds).filter
        fun id => !sets.any (·.contains id)
      let preferred := revised.preferredDofIds.toFinset
      let open_ := alternatives.filter fun option =>
        decide (Disjoint option revised.forbiddenDofIds.toFinset)
      if !unknown.isEmpty then .error ("EXECUTION_REVISION_UNKNOWN_DOF:" ++ commaJoin unknown)
      else if !added.isEmpty then
        .error ("EXECUTION_REVISION_ADDED_FORBIDDEN_DOF:" ++ commaJoin added)
      else if !unproved.isEmpty then
        .error ("EXECUTION_REVISION_UNPROVED_DOF_UNFORBIDDEN:" ++ commaJoin unproved)
      else if preferred ≠ ∅ ∧ preferred ∉ alternatives then
        .error "EXECUTION_REVISION_PREFERRED_SET_NOT_PROVED"
      else if preferred = ∅ ∧ open_.isEmpty then
        .error "EXECUTION_REVISION_ALL_PROVED_ALTERNATIVES_FORBIDDEN"
      else
        let viable := if preferred = ∅ then open_ else [preferred]
        match operationCountError original revised
            (viable.filterMap fun option => proved.lookup option) with
        | some e => .error e
        | none => decideRevision original revised
            (decide (revised.preferredDofIds ≠ original.preferredDofIds) ||
              decide (revised.forbiddenDofIds ≠ original.forbiddenDofIds) ||
                decide (revised.maxOperationCount ≠ original.maxOperationCount))

/-- A revision after `PHYSICAL_CONSTRAINT_FAILURE`. -/
def validatePhysical (original revised : KernelRepairPlan) (allowed : AllowedIds) :
    Except String RevisionDecision :=
  let unknown := sortedDifference revised.preferredParticipantIds allowed.participantIds ++
    sortedDifference revised.preferredDofIds allowed.dofIds
  if !unknown.isEmpty then
    .error ("EXECUTION_REVISION_UNKNOWN_PHYSICAL_BINDING:" ++ commaJoin unknown)
  else decideRevision original revised ((changedFields original revised).any
    ["preferred_participant_ids", "preferred_dof_ids", "strategy", "fallback_strategy",
      "max_operation_count", "coordination_request"].contains)

/-- A revision after `DEPTH_EXTENSION_AVAILABLE`. -/
def validateDepth (original revised : KernelRepairPlan) (configuredMaxDepth : ℕ) :
    Except String RevisionDecision :=
  if revised.maxTrajectoryDepth < original.maxTrajectoryDepth then
    .error "EXECUTION_REVISION_DEPTH_DECREASED"
  else if configuredMaxDepth < revised.maxTrajectoryDepth then
    .error "EXECUTION_REVISION_DEPTH_EXCEEDS_CONFIGURED_MAX"
  else decideRevision original revised
    (decide (original.maxTrajectoryDepth < revised.maxTrajectoryDepth))

/-- `validate_execution_feedback_revision` -/
def validateExecutionFeedbackRevision (original revised : KernelRepairPlan) (kind : FeedbackKind)
    (allowed : AllowedIds) (configuredMaxDepth : ℕ) (sets : List (List String))
    (bounds : List OperationBound) : Except String RevisionDecision :=
  let changed := (changedFields original revised).filter fun field =>
    !(mutableFields kind).contains field
  if !changed.isEmpty then
    .error ("EXECUTION_REVISION_SCOPE_VIOLATION:" ++ commaJoin (changed.insertionSort (· ≤ ·)))
  else if kind ≠ .preferredDofInfeasible ∧
      revised.forbiddenDofIds ≠ original.forbiddenDofIds then
    .error "EXECUTION_REVISION_FORBIDDEN_DOF_CHANGED"
  else
    match kind with
    | .preferredDofInfeasible => validatePreferred original revised allowed sets bounds
    | .physicalConstraintFailure => validatePhysical original revised allowed
    | .depthExtensionAvailable => validateDepth original revised configuredMaxDepth

/-! ## What a revision may do -/

section Revision

variable {original revised : KernelRepairPlan} {kind : FeedbackKind} {allowed : AllowedIds}
  {configuredMaxDepth : ℕ} {sets : List (List String)} {bounds : List OperationBound}
  {inputs : RegionInputs} {bound bound' : BoundKernelPlan} {report report' : PlanBindingReport}

theorem planId_of_decided {changes : Bool}
    (h : decideRevision original revised changes = .ok .accepted) :
    revised.planId ≠ original.planId := by
  unfold decideRevision at h
  split_ifs at h with hchanges hid
  · cases h
  · exact hid

theorem planId_of_preferred
    (h : validatePreferred original revised allowed sets bounds = .ok .accepted) :
    revised.planId ≠ original.planId := by
  unfold validatePreferred at h
  dsimp only at h
  split at h
  · cases h
  · split at h
    · cases h
    · split_ifs at h
      all_goals
        split at h
        · cases h
        · exact planId_of_decided h

/-- **An accepted revision has a new id.** -/
theorem planId_of_accepted
    (h : validateExecutionFeedbackRevision original revised kind allowed configuredMaxDepth sets
      bounds = .ok .accepted) :
    revised.planId ≠ original.planId := by
  unfold validateExecutionFeedbackRevision at h
  dsimp only at h
  split_ifs at h
  cases kind with
  | preferredDofInfeasible => exact planId_of_preferred h
  | physicalConstraintFailure =>
    unfold validatePhysical at h
    dsimp only at h
    split_ifs at h
    exact planId_of_decided h
  | depthExtensionAvailable =>
    unfold validateDepth at h
    split_ifs at h
    exact planId_of_decided h

/-- **An accepted revision changes no field but those that are open.** -/
theorem scope_of_accepted
    (h : validateExecutionFeedbackRevision original revised kind allowed configuredMaxDepth sets
      bounds = .ok .accepted) :
    ∀ field ∈ changedFields original revised, field ∈ mutableFields kind := by
  unfold validateExecutionFeedbackRevision at h
  dsimp only at h
  split_ifs at h with hchanged
  all_goals
    intro field hfield
    rw [Bool.not_eq_true, Bool.not_eq_false', List.isEmpty_iff, List.filter_eq_nil_iff] at hchanged
    have hopen := hchanged field hfield
    rw [Bool.not_eq_true', Bool.not_eq_false, List.contains_iff_mem] at hopen
    exact hopen

/-- The targets of a plan are open to no revision. -/
theorem targets_of_accepted
    (h : validateExecutionFeedbackRevision original revised kind allowed configuredMaxDepth sets
      bounds = .ok .accepted) :
    revised.targetViolationIds = original.targetViolationIds := by
  by_contra hne
  have hchanged : "target_violation_ids" ∈ changedFields original revised := by
    refine List.mem_map.2 ⟨("target_violation_ids", true), ?_, rfl⟩
    refine List.mem_filter.2 ⟨?_, rfl⟩
    rw [decide_eq_true (Ne.symm hne)]
    simp
  have hopen := scope_of_accepted h _ hchanged
  cases kind
  all_goals
    revert hopen
    decide

/-- What a binding that returns has in it. -/
theorem bindKernelPlan_ok (h : bindKernelPlan original inputs = .ok (bound, report)) :
    bound.planId = original.planId ∧
      bound.selectedViolationIds = (selectionOf original inputs).selectedTargets := by
  unfold bindKernelPlan at h
  dsimp only at h
  split_ifs at h
  cases h
  exact ⟨rfl, rfl⟩

/-- **A bound revision** has another id and selects the same violations. -/
theorem rebound_of_accepted
    (h : validateExecutionFeedbackRevision original revised kind allowed configuredMaxDepth sets
      bounds = .ok .accepted)
    (hbound : bindKernelPlan original inputs = .ok (bound, report))
    (hbound' : bindKernelPlan revised inputs = .ok (bound', report')) :
    bound'.planId ≠ bound.planId ∧ bound'.selectedViolationIds = bound.selectedViolationIds := by
  obtain ⟨hid, hselected⟩ := bindKernelPlan_ok hbound
  obtain ⟨hid', hselected'⟩ := bindKernelPlan_ok hbound'
  constructor
  · rw [hid, hid']
    exact planId_of_accepted h
  · rw [hselected, hselected']
    unfold selectionOf
    rw [targets_of_accepted h]

end Revision

end DRCAgent.Kernel
