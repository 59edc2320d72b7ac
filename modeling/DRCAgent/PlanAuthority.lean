/-
# What a bound plan may do

`bind_kernel_plan` (src/drc_agent/repair_kernel_integration/plan_binding.py) turns the
plan of a model into the authority of a search. Every id of a bound plan is one of a
selected scene, and the degrees of freedom that it allows are those of the selected scenes
without the forbidden ones. A requested target is an error where it has no scene, but not
where it has one and is not supported: such a target is left out.

Main results:

* `bound_authorized`: the authority of a bound plan.
* `targets_carried_iff`: a bound plan has all requested targets exactly when all of them
  are supported.
-/
import DRCAgent.PlanBinding

namespace DRCAgent.Kernel

open List

/-! ## Selection -/

section Selection

variable (plan : KernelRepairPlan) (inputs : RegionInputs)

/-- The scene of a supported target of the plan. -/
def Selects (scene : RepairScene) : Prop :=
  ∃ id ∈ plan.targetViolationIds, id ∈ inputs.supportedViolationIds ∧
    sceneByViolation inputs id = some scene

/-- A degree of freedom of a selected scene. -/
def OwnsDof (id : String) : Prop :=
  ∃ dof ∈ inputs.dofs, dof.dofId = id ∧ ∃ scene, Selects plan inputs scene ∧
    dof.sceneId = scene.sceneId

variable {plan inputs} {id : String} {scene : RepairScene}

/-- The scene of a violation is one of the inputs. -/
theorem sceneByViolation_some (h : sceneByViolation inputs id = some scene) :
    scene ∈ inputs.scenes ∧ scene.primaryViolationId = id := by
  rw [sceneByViolation] at h
  have hmem := mem_of_find?_eq_some h
  have hid := find?_some h
  exact ⟨mem_reverse.1 hmem, by simpa using hid⟩

theorem sceneByViolation_isSome :
    (sceneByViolation inputs id).isSome ↔ id ∈ inputs.scenes.map (·.primaryViolationId) := by
  rw [sceneByViolation, find?_isSome, mem_map]
  constructor
  · rintro ⟨scene, hscene, hid⟩
    exact ⟨scene, mem_reverse.1 hscene, by simpa using hid⟩
  · rintro ⟨scene, hscene, hid⟩
    exact ⟨scene, mem_reverse.2 hscene, by simpa using hid⟩

/-- The selected targets are supported and have a scene. -/
theorem mem_selectedTargets : id ∈ (selectionOf plan inputs).selectedTargets ↔
    id ∈ plan.targetViolationIds ∧ id ∈ inputs.supportedViolationIds ∧
      id ∈ inputs.scenes.map (·.primaryViolationId) := by
  rw [selectionOf]
  dsimp only
  rw [mem_filter, mem_eraseDups, Bool.and_eq_true, contains_iff_mem, sceneByViolation_isSome]

/-- The selected scenes are those of the selected targets. -/
theorem mem_selectedScenes :
    scene ∈ (selectionOf plan inputs).selectedScenes ↔ Selects plan inputs scene := by
  have hscenes : (selectionOf plan inputs).selectedScenes =
      (selectionOf plan inputs).selectedTargets.filterMap (sceneByViolation inputs) := rfl
  rw [hscenes, mem_filterMap, Selects]
  simp only [mem_selectedTargets, and_assoc]
  refine exists_congr fun id => and_congr_right fun _ => and_congr_right fun _ => ?_
  refine and_iff_right_of_imp fun h => ?_
  obtain ⟨hscene, hid⟩ := sceneByViolation_some h
  exact mem_map.2 ⟨scene, hscene, hid⟩

/-- The selected parameters are those of the selected scenes. -/
theorem mem_selectedDofIds :
    id ∈ (selectionOf plan inputs).selectedDofIds ↔ OwnsDof plan inputs id := by
  have hdofs : (selectionOf plan inputs).selectedDofIds = (inputs.dofs.filter fun dof =>
      ((selectionOf plan inputs).selectedScenes.map (·.sceneId)).contains dof.sceneId).map
        (·.dofId) := rfl
  rw [hdofs, mem_map, OwnsDof]
  simp only [mem_filter, contains_iff_mem, mem_map, mem_selectedScenes]
  constructor
  · rintro ⟨dof, ⟨hdof, scene, hscene, hid⟩, rfl⟩
    exact ⟨dof, hdof, rfl, scene, hscene, hid.symm⟩
  · rintro ⟨dof, hdof, rfl, scene, hscene, hid⟩
    exact ⟨dof, ⟨hdof, scene, hscene, hid.symm⟩, rfl⟩

end Selection

/-! ## Binding without errors -/

section Binding

variable {plan : KernelRepairPlan} {inputs : RegionInputs} {bound : BoundKernelPlan}
  {report : PlanBindingReport} {code : String} {ids others : List String}

theorem mem_sortedDifference {id : String} :
    id ∈ sortedDifference ids others ↔ id ∈ ids ∧ id ∉ others := by
  simp [sortedDifference]

theorem sortedDifference_eq_nil : sortedDifference ids others = [] ↔ ∀ id ∈ ids, id ∈ others := by
  rw [eq_nil_iff_forall_not_mem]
  simp only [mem_sortedDifference, not_and, not_not]

theorem idsError_eq_nil : idsError code ids = [] ↔ ids = [] := by
  rw [idsError]
  split_ifs with h
  · exact ⟨fun _ => isEmpty_iff.1 h, fun _ => rfl⟩
  · exact ⟨fun hnil => (nomatch hnil), fun hnil => absurd (isEmpty_iff.2 hnil) h⟩

/-- The errors of the plan that bind a search. -/
structure BindsCleanly (plan : KernelRepairPlan) (inputs : RegionInputs) : Prop where
  requested : plan.targetViolationIds ≠ []
  scenes : ∀ id ∈ plan.targetViolationIds, id ∈ inputs.scenes.map (·.primaryViolationId)
  witnesses : ∀ id ∈ plan.targetWitnessIds, ∃ scene, Selects plan inputs scene ∧
    scene.targetWitnessId = some id
  participants : ∀ id ∈ plan.preferredParticipantIds, ∃ scene, Selects plan inputs scene ∧
    id ∈ scene.participantIds
  preferred : ∀ id ∈ plan.preferredDofIds, OwnsDof plan inputs id
  forbidden : ∀ id ∈ plan.forbiddenDofIds, OwnsDof plan inputs id
  disjoint : ∀ id ∈ plan.preferredDofIds, id ∉ plan.forbiddenDofIds
  allowed : (∃ id, OwnsDof plan inputs id) → allowedDofs plan (selectionOf plan inputs) ≠ []

/-- The targets are in order if each has a scene. -/
theorem targetErrors_eq_nil : targetErrors inputs (selectionOf plan inputs) = [] ↔
    plan.targetViolationIds ≠ [] ∧
      ∀ id ∈ plan.targetViolationIds, id ∈ inputs.scenes.map (·.primaryViolationId) := by
  have hrequested : ∀ id, id ∈ (selectionOf plan inputs).requestedTargets ↔
      id ∈ plan.targetViolationIds := fun id => mem_eraseDups
  have hempty : (selectionOf plan inputs).requestedTargets = [] ↔ plan.targetViolationIds = [] := by
    rw [eq_nil_iff_forall_not_mem, eq_nil_iff_forall_not_mem]
    simp only [hrequested]
  rw [targetErrors, append_eq_nil_iff]
  refine and_congr ?_ ?_
  · split_ifs with h
    · exact ⟨fun hnil => (nomatch hnil), fun hne => absurd (hempty.1 (isEmpty_iff.1 h)) hne⟩
    · exact ⟨fun _ hnil => h (isEmpty_iff.2 (hempty.2 hnil)), fun _ => rfl⟩
  · split_ifs with hunknown
    · -- an unknown target has no scene either
      refine ⟨fun hnil => (nomatch hnil), fun hscenes => ?_⟩
      rw [Bool.not_eq_true', isEmpty_eq_false_iff_exists_mem] at hunknown
      obtain ⟨id, hid⟩ := hunknown
      obtain ⟨hmem, hnot⟩ := mem_sortedDifference.1 hid
      exact absurd (mem_append_right _ (hscenes id ((hrequested id).1 hmem))) hnot
    · rw [idsError_eq_nil, sortedDifference_eq_nil]
      simp only [hrequested]

theorem invalidWitnesses_eq_nil : invalidWitnesses plan (selectionOf plan inputs) = [] →
    ∀ id ∈ plan.targetWitnessIds, ∃ scene, Selects plan inputs scene ∧
      scene.targetWitnessId = some id := by
  intro h id hid
  have hmem := (sortedDifference_eq_nil.1 h) id hid
  obtain ⟨scene, hscene, hwitness⟩ := mem_filterMap.1 hmem
  exact ⟨scene, mem_selectedScenes.1 hscene, (Option.filter_eq_some_iff.1 hwitness).1⟩

theorem invalidParticipants_eq_nil : invalidParticipants plan (selectionOf plan inputs) = [] →
    ∀ id ∈ plan.preferredParticipantIds, ∃ scene, Selects plan inputs scene ∧
      id ∈ scene.participantIds := by
  intro h id hid
  have hmem := (sortedDifference_eq_nil.1 h) id hid
  obtain ⟨scene, hscene, hparticipant⟩ := mem_flatMap.1 hmem
  exact ⟨scene, mem_selectedScenes.1 hscene, hparticipant⟩

/-- **A plan without errors** asks for what its scenes have. -/
theorem bindsCleanly_of_errors (h : bindingErrors plan inputs (selectionOf plan inputs) = []) :
    BindsCleanly plan inputs := by
  rw [bindingErrors] at h
  simp only [append_eq_nil_iff, idsError_eq_nil] at h
  obtain ⟨⟨⟨⟨⟨⟨⟨⟨-, htargets⟩, hwitnesses⟩, -⟩, hparticipants⟩, hpreferred⟩, hforbidden⟩,
    hoverlap⟩, hallowed⟩ := h
  obtain ⟨hrequested, hscenes⟩ := targetErrors_eq_nil.1 htargets
  refine ⟨hrequested, hscenes, invalidWitnesses_eq_nil hwitnesses,
    invalidParticipants_eq_nil hparticipants, fun id hid => ?_, fun id hid => ?_,
    fun id hid hid' => ?_, ?_⟩
  · exact mem_selectedDofIds.1 (sortedDifference_eq_nil.1 hpreferred id hid)
  · exact mem_selectedDofIds.1 (sortedDifference_eq_nil.1 hforbidden id hid)
  · have hmem : id ∈ sortedSet (plan.preferredDofIds.filter plan.forbiddenDofIds.contains) := by
      rw [mem_sortedSet, mem_filter, contains_iff_mem]
      exact ⟨hid, hid'⟩
    rw [hoverlap] at hmem
    cases hmem
  · rintro ⟨id, hid⟩ hnil
    rw [← mem_selectedDofIds] at hid
    have hne : (selectionOf plan inputs).selectedDofIds.isEmpty = false :=
      isEmpty_eq_false_iff_exists_mem.2 ⟨id, hid⟩
    rw [hnil, hne] at hallowed
    cases hallowed

/-- **What a plan is bound to.** -/
theorem bindKernelPlan_eq_ok (h : bindKernelPlan plan inputs = .ok (bound, report)) :
    BindsCleanly plan inputs ∧ bound = {
      planId := plan.planId
      origin := inputs.origin
      selectedViolationIds := (selectionOf plan inputs).selectedTargets
      selectedWitnessIds := plan.targetWitnessIds.eraseDups
      preferredParticipantIds := plan.preferredParticipantIds.eraseDups
      preferredDofIds := plan.preferredDofIds.eraseDups
      allowedDofIds := sortedSet (allowedDofs plan (selectionOf plan inputs))
      forbiddenDofIds := plan.forbiddenDofIds.eraseDups
      maxOperationCount := plan.maxOperationCount
      maxTrajectoryDepth := min inputs.configuredMaxDepth plan.maxTrajectoryDepth
      strategy := plan.strategy
      fallbackStrategy := plan.fallbackStrategy
      coordinationRequest := plan.coordinationRequest
      bindingEffects := bindingEffects plan inputs (selectionOf plan inputs) } := by
  unfold bindKernelPlan at h
  dsimp only at h
  split_ifs at h with herrors
  obtain ⟨rfl, -⟩ := Prod.mk.inj (Except.ok.inj h)
  exact ⟨bindsCleanly_of_errors (not_not.1 herrors), rfl⟩

end Binding

/-! ## The authority of a bound plan -/

/-- **What a bound plan may do**, and what it is about. -/
structure Authorized (plan : KernelRepairPlan) (inputs : RegionInputs) (bound : BoundKernelPlan) :
    Prop where
  /-- A degree of freedom is allowed only if a selected scene has it and the plan does not
  forbid it. -/
  allowed : ∀ id ∈ bound.allowedDofIds, OwnsDof plan inputs id ∧ id ∉ plan.forbiddenDofIds
  preferred : ∀ id ∈ bound.preferredDofIds, id ∈ bound.allowedDofIds
  nonempty : (∃ id, OwnsDof plan inputs id) → bound.allowedDofIds ≠ []
  /-- Among spacing scenes a preference is exact. -/
  spacing : (∀ scene, Selects plan inputs scene → scene.repairFamily = "SPACING") →
    plan.preferredDofIds ≠ [] → ∀ id, id ∈ bound.allowedDofIds ↔ id ∈ bound.preferredDofIds
  /-- Every id is one of a selected scene. -/
  violations : ∀ id ∈ bound.selectedViolationIds, ∃ scene, Selects plan inputs scene ∧
    scene.primaryViolationId = id
  witnesses : ∀ id ∈ bound.selectedWitnessIds, ∃ scene, Selects plan inputs scene ∧
    scene.targetWitnessId = some id
  participants : ∀ id ∈ bound.preferredParticipantIds, ∃ scene, Selects plan inputs scene ∧
    id ∈ scene.participantIds
  dofs : ∀ id ∈ bound.preferredDofIds ++ bound.allowedDofIds ++ bound.forbiddenDofIds,
    OwnsDof plan inputs id
  depth : bound.maxTrajectoryDepth ≤ inputs.configuredMaxDepth

section Authority

variable {plan : KernelRepairPlan} {inputs : RegionInputs} {bound : BoundKernelPlan}
  {report : PlanBindingReport} {id : String}

/-- What the bound plan allows. -/
theorem mem_allowedDofs {sel : Selection} : id ∈ allowedDofs plan sel ↔
    (if hardDofFamily sel = true ∧ plan.preferredDofIds ≠ [] then id ∈ plan.preferredDofIds
      else id ∈ sel.selectedDofIds) ∧ id ∉ plan.forbiddenDofIds := by
  rw [allowedDofs, mem_filter]
  refine and_congr ?_ (by simp)
  by_cases h : hardDofFamily sel = true ∧ plan.preferredDofIds ≠ []
  · rw [if_pos h, if_pos (by simpa using h)]
  · rw [if_neg h, if_neg (by simpa using h)]

/-- Spacing scenes make the preferences binding. -/
theorem hardDofFamily_of_spacing (hselects : ∃ scene, Selects plan inputs scene)
    (hspacing : ∀ scene, Selects plan inputs scene → scene.repairFamily = "SPACING") :
    hardDofFamily (selectionOf plan inputs) = true := by
  obtain ⟨scene, hscene⟩ := hselects
  rw [hardDofFamily, Bool.and_eq_true, Bool.not_eq_true', isEmpty_eq_false_iff_exists_mem,
    all_eq_true]
  refine ⟨⟨scene, mem_selectedScenes.2 hscene⟩, fun other hother => ?_⟩
  rw [hspacing other (mem_selectedScenes.1 hother)]
  rfl

/-- **The authority of a bound plan** is what its selected scenes grant. -/
theorem bound_authorized (h : bindKernelPlan plan inputs = .ok (bound, report)) :
    Authorized plan inputs bound := by
  obtain ⟨hclean, rfl⟩ := bindKernelPlan_eq_ok h
  have hallowed : ∀ id, id ∈ allowedDofs plan (selectionOf plan inputs) →
      OwnsDof plan inputs id ∧ id ∉ plan.forbiddenDofIds := by
    intro id hid
    obtain ⟨hoffered, hforbidden⟩ := mem_allowedDofs.1 hid
    refine ⟨?_, hforbidden⟩
    split_ifs at hoffered with hhard
    · exact hclean.preferred id hoffered
    · exact mem_selectedDofIds.1 hoffered
  have hpreferred : ∀ id ∈ plan.preferredDofIds,
      id ∈ allowedDofs plan (selectionOf plan inputs) := by
    intro id hid
    refine mem_allowedDofs.2 ⟨?_, hclean.disjoint id hid⟩
    split_ifs with hhard
    · exact hid
    · exact mem_selectedDofIds.2 (hclean.preferred id hid)
  refine ⟨fun id hid => hallowed id (mem_sortedSet.1 hid),
    fun id hid => mem_sortedSet.2 (hpreferred id (mem_eraseDups.1 hid)),
    fun hdof hnil => ?_, fun hspacing hne id => ?_, fun id hid => ?_,
    fun id hid => hclean.witnesses id (mem_eraseDups.1 hid),
    fun id hid => hclean.participants id (mem_eraseDups.1 hid), fun id hid => ?_,
    min_le_left _ _⟩
  · obtain ⟨id, hid⟩ := exists_mem_of_ne_nil _ (hclean.allowed hdof)
    have hmem := mem_sortedSet.2 hid
    dsimp only at hnil
    rw [hnil] at hmem
    cases hmem
  · dsimp only
    rw [mem_sortedSet, mem_eraseDups]
    refine ⟨fun hid => ?_, hpreferred id⟩
    -- a preferred degree of freedom is one of a selected scene
    obtain ⟨other, hother⟩ := exists_mem_of_ne_nil _ hne
    obtain ⟨dof, -, -, scene, hscene, -⟩ := hclean.preferred other hother
    obtain ⟨hoffered, -⟩ := mem_allowedDofs.1 hid
    rwa [if_pos ⟨hardDofFamily_of_spacing ⟨scene, hscene⟩ hspacing, hne⟩] at hoffered
  · obtain ⟨htarget, hsupported, hscene⟩ := mem_selectedTargets.1 hid
    obtain ⟨scene, hscene⟩ := Option.isSome_iff_exists.1 (sceneByViolation_isSome.2 hscene)
    exact ⟨scene, ⟨id, htarget, hsupported, hscene⟩, (sceneByViolation_some hscene).2⟩
  · rw [mem_append, mem_append] at hid
    rcases hid with (hid | hid) | hid
    · exact hclean.preferred id (mem_eraseDups.1 hid)
    · exact (hallowed id (mem_sortedSet.1 hid)).1
    · exact hclean.forbidden id (mem_eraseDups.1 hid)

/-- **All requested targets are carried** into the bound plan exactly when all of them are
supported. -/
theorem targets_carried_iff (h : bindKernelPlan plan inputs = .ok (bound, report)) :
    (bound.selectedViolationIds ≠ [] ∧
        bound.selectedViolationIds = plan.targetViolationIds.eraseDups) ↔
      ∀ id ∈ plan.targetViolationIds, id ∈ inputs.supportedViolationIds := by
  obtain ⟨hclean, rfl⟩ := bindKernelPlan_eq_ok h
  have hselected : (selectionOf plan inputs).selectedTargets = plan.targetViolationIds.eraseDups ↔
      ∀ id ∈ plan.targetViolationIds, id ∈ inputs.supportedViolationIds := by
    constructor
    · intro heq id hid
      have hmem : id ∈ (selectionOf plan inputs).selectedTargets := by
        rw [heq]
        exact mem_eraseDups.2 hid
      exact (mem_selectedTargets.1 hmem).2.1
    · intro hsupported
      refine filter_eq_self.2 fun id hid => ?_
      have htarget := mem_eraseDups.1 hid
      rw [Bool.and_eq_true, contains_iff_mem, sceneByViolation_isSome]
      exact ⟨hsupported id htarget, hclean.scenes id htarget⟩
  dsimp only
  rw [hselected, and_iff_right_of_imp]
  intro hsupported
  rw [hselected.2 hsupported]
  obtain ⟨id, hid⟩ := exists_mem_of_ne_nil _ hclean.requested
  exact ne_nil_of_mem (mem_eraseDups.2 hid)

end Authority

/-! ## A sample -/

/-- Two violations with a spacing scene each, of which some are supported. -/
def spacingInputs (supported : List String) : RegionInputs where
  origin := .fakeLlm
  supportedViolationIds := supported
  scenes := [{ sceneId := "s1", primaryViolationId := "v1", repairFamily := "SPACING" },
    { sceneId := "s2", primaryViolationId := "v2", repairFamily := "SPACING" }]
  dofs := [⟨"d1", "s1"⟩, ⟨"d2", "s1"⟩, ⟨"d3", "s2"⟩]
  configuredMaxDepth := 3

/-- A plan for the violations, with a degree of freedom to prefer and one to leave alone. -/
def spacingPlan : KernelRepairPlan where
  planId := "p"
  targetViolationIds := ["v1", "v2", "v1"]
  preferredDofIds := ["d1"]
  forbiddenDofIds := ["d2"]

/-- The bound plan. -/
def spacingBound (selected : List String) : BoundKernelPlan where
  planId := "p"
  origin := .fakeLlm
  selectedViolationIds := selected
  selectedWitnessIds := []
  preferredParticipantIds := []
  preferredDofIds := ["d1"]
  allowedDofIds := ["d1"]
  forbiddenDofIds := ["d2"]
  maxOperationCount := 4
  maxTrajectoryDepth := 3
  strategy := "AUTO"
  fallbackStrategy := none
  coordinationRequest := none
  bindingEffects := ["TARGET_VIOLATION_HARD_FILTER", "DOF_HARD_FILTER", "MAX_OPERATION_COUNT",
    "MAX_TRAJECTORY_DEPTH"]

/-- The report of the binding. -/
def spacingReport : PlanBindingReport where
  planId := "p"
  origin := .fakeLlm
  errors := []
  bindingEffects := (spacingBound []).bindingEffects

theorem bound_authorized_spacing :
    Authorized spacingPlan (spacingInputs ["v1", "v2"]) (spacingBound ["v1", "v2"]) :=
  @bound_authorized _ _ _ spacingReport (by decide +kernel)

theorem targets_carried_iff_spacing :
    ((spacingBound ["v1", "v2"]).selectedViolationIds ≠ [] ∧
        (spacingBound ["v1", "v2"]).selectedViolationIds =
          spacingPlan.targetViolationIds.eraseDups) ↔
      ∀ id ∈ spacingPlan.targetViolationIds,
        id ∈ (spacingInputs ["v1", "v2"]).supportedViolationIds :=
  @targets_carried_iff _ _ _ spacingReport (by decide +kernel)

/-- The second target has a scene and is not supported: it is left out without an error. -/
theorem unsupported_target_dropped :
    bindKernelPlan spacingPlan (spacingInputs ["v1"]) = .ok (spacingBound ["v1"], spacingReport) ∧
      (spacingBound ["v1"]).selectedViolationIds ≠ spacingPlan.targetViolationIds.eraseDups := by
  decide +kernel

end DRCAgent.Kernel
