/-
# The context of a region's prompt

`CompactRegionContext` (src/drc_agent/agents/context.py) with the text that goes into the
prompt, and the loop of `CompactRegionContextSerializer.build` that takes parts away until the
estimate meets a target.

The loop starts from any context: what the code gathers from the region, the violations, the
objects, the messages and the rules is one. Every removal makes the context smaller
(`removable_dropOne`), so the loop ends: with the first stage that meets the target, or where
nothing is left to remove (`truncate_spec`).
-/
import DRCAgent.JsonText
import DRCAgent.RegionBuilder

namespace DRCAgent.Prompt

open List Option
open JsonText (Value)
open Regions (Box)

/-! ## The parts of a context -/

def strings (texts : List String) : Value := .array (texts.map .string)

def integers (values : List ℤ) : Value := .array (values.map .integer)

def orNull {α : Type} (value : α → Value) (item : Option α) : Value := item.elim .null value

def boxValue (box : Box) : Value :=
  .object [("x1", .integer box.x1), ("y1", .integer box.y1), ("x2", .integer box.x2),
    ("y2", .integer box.y2)]

/-- `ContextObject` -/
structure ContextObject where
  objectId : String
  routingType : Option String := none
  sourceAnchorId : Option String
  kind : String
  layer : String
  editability : String
  bboxDbu : Box
  bboxRelativeDbu : Box
  parentBboxDbu : Option Box := none
  localFragmentIds : List String := []
  geometryDbu : Option (List Value)
  geometryRelativeDbu : Option (List Value)
  netId : Option String
  netMappingQuality : String := "unavailable"
  connectivityComponentId : Option String := none
  sourceSlice : Option String := none

def ContextObject.dump (object : ContextObject) : Value :=
  .object
    [("object_id", .string object.objectId), ("routing_type", orNull .string object.routingType),
      ("source_anchor_id", orNull .string object.sourceAnchorId),
      ("kind", .string object.kind),
      ("layer", .string object.layer),
      ("editability", .string object.editability),
      ("bbox_dbu", boxValue object.bboxDbu),
      ("bbox_relative_dbu", boxValue object.bboxRelativeDbu),
      ("parent_bbox_dbu", orNull boxValue object.parentBboxDbu),
      ("local_fragment_ids", strings object.localFragmentIds),
      ("geometry_dbu", orNull .array object.geometryDbu),
      ("geometry_relative_dbu", orNull .array object.geometryRelativeDbu),
      ("net_id", orNull .string object.netId),
      ("net_mapping_quality", .string object.netMappingQuality),
      ("connectivity_component_id", orNull .string object.connectivityComponentId),
      ("source_slice", orNull .string object.sourceSlice)]

/-- A violation as the context has it. -/
structure ContextViolation where
  violationId : String
  ruleId : String
  ruleFamily : String
  markerType : String
  layers : List String
  bboxDbu : Box
  bboxRelativeDbu : Box
  description : Option String
  associatedObjectIds : List String
  associationQuality : String

def ContextViolation.dump (violation : ContextViolation) : Value :=
  .object
    [("violation_id", .string violation.violationId), ("rule_id", .string violation.ruleId),
      ("rule_family", .string violation.ruleFamily),
      ("marker_type", .string violation.markerType),
      ("layers", strings violation.layers),
      ("bbox_dbu", boxValue violation.bboxDbu),
      ("bbox_relative_dbu", boxValue violation.bboxRelativeDbu),
      ("description", orNull .string violation.description),
      ("associated_object_ids", strings violation.associatedObjectIds),
      ("association_quality", .string violation.associationQuality)]

/-- A compacted witness: the entries that are read, where it has them, and the others. -/
structure RuleWitness where
  violationId : Option String
  witnessId : Option String
  evidenceQuality : Option String
  editableSourceObjectIds : Option (List String)
  others : List (String × Value)

def entryOf {α : Type} (key : String) (value : α → Value) (item : Option α) :
    List (String × Value) :=
  (item.map fun item => (key, value item)).toList

def RuleWitness.dump (witness : RuleWitness) : Value :=
  .object (entryOf "violation_id" .string witness.violationId ++
    entryOf "witness_id" .string witness.witnessId ++
    entryOf "evidence_quality" .string witness.evidenceQuality ++
    entryOf "editable_source_object_ids" strings witness.editableSourceObjectIds ++
    witness.others)

/-- A neighbour's message: its evidence, and what else is dumped of it. -/
structure PromptMessage where
  evidenceIds : List String
  others : List (String × Value)

def PromptMessage.dump (message : PromptMessage) : Value :=
  .object (("evidence_ids", strings message.evidenceIds) :: message.others)

/-- `RepairBlueprint`: the fields that are read, and what else is dumped of it. -/
structure RepairBlueprint where
  supportingExperienceIds : List String
  generatedBy : String
  others : List (String × Value)

def RepairBlueprint.dump (blueprint : RepairBlueprint) : Value :=
  .object (("supporting_experience_ids", strings blueprint.supportingExperienceIds) ::
    ("generated_by", .string blueprint.generatedBy) :: blueprint.others)

/-- An empty blueprint is left out. -/
def RepairBlueprint.entry (blueprint : RepairBlueprint) : List (String × Value) :=
  if blueprint.generatedBy = "EMPTY" then [] else [("repair_blueprint", blueprint.dump)]

/-- `CompactRegionContext` -/
structure CompactRegionContext where
  taskAndHardConstraints : List String
  regionIdentityAndIteration : List (String × Value)
  violationSummaryByRule : List (String × ℤ)
  violations : List ContextViolation
  editableObjectsWithSourceAnchors : List ContextObject
  frozenBoundaryContextObjects : List ContextObject
  localRouteFragments : List Value := []
  localRouteEndpoints : List Value := []
  viaLandings : List Value := []
  viaMetalAdjacencies : List Value := []
  localGeometryOriginDbu : List (String × ℤ)
  neighborMessages : List PromptMessage
  failureHistory : List Value
  rollbackHistory : List Value
  repairBlueprint : RepairBlueprint
  allowedLayoutEditIr : List String
  allowedDistanceCandidatesDbu : List ℤ
  availableSegmentIds : List String := []
  availableViaIds : List String := []
  availableNetIds : List String := []
  legalRoutingLayers : List String := []
  ruleConstraints : List (String × Value) := []
  rulePredicates : List (String × Value) := []
  ruleWitnesses : List RuleWitness := []
  ruleKnowledgePacks : List (String × Value) := []
  geometryDistanceHintsDbu : List (String × List ℤ) := []
  ruleDistanceConstraintsDbu : List (String × ℤ) := []
  maxCandidateDistanceDbu : ℤ
  objectToViolationIds : List (String × List String) := []
  requiredStructuredOutputSchema : List (String × Value)
  availableEvidenceIds : List String := []
  contextBudget : List (String × Value) := []
  omittedContextSummary : List (String × ℤ) := []

/-- A dictionary whose values are dumped alike. -/
def dict {α : Type} (value : α → Value) (entries : List (String × α)) : Value :=
  .object (entries.map fun entry => (entry.1, value entry.2))

namespace CompactRegionContext

/-- What is dumped of a context. -/
def entries (context : CompactRegionContext) : List (String × Value) :=
  [("task_and_hard_constraints", strings context.taskAndHardConstraints),
    ("region_identity_and_iteration", .object context.regionIdentityAndIteration),
    ("violation_summary_by_rule", dict .integer context.violationSummaryByRule),
    ("violations", .array (context.violations.map (·.dump))),
    ("editable_objects_with_source_anchors",
      .array (context.editableObjectsWithSourceAnchors.map (·.dump))),
    ("frozen_boundary_context_objects", .array (context.frozenBoundaryContextObjects.map (·.dump))),
    ("local_route_fragments", .array context.localRouteFragments),
    ("local_route_endpoints", .array context.localRouteEndpoints),
    ("via_landings", .array context.viaLandings),
    ("via_metal_adjacencies", .array context.viaMetalAdjacencies),
    ("local_geometry_origin_dbu", dict .integer context.localGeometryOriginDbu),
    ("neighbor_messages", .array (context.neighborMessages.map (·.dump))),
    ("failure_history", .array context.failureHistory),
    ("rollback_history", .array context.rollbackHistory),
    ("allowed_layout_edit_ir", strings context.allowedLayoutEditIr),
    ("allowed_distance_candidates_dbu", integers context.allowedDistanceCandidatesDbu),
    ("available_segment_ids", strings context.availableSegmentIds),
    ("available_via_ids", strings context.availableViaIds),
    ("available_net_ids", strings context.availableNetIds),
    ("legal_routing_layers", strings context.legalRoutingLayers),
    ("rule_constraints", .object context.ruleConstraints),
    ("rule_predicates", .object context.rulePredicates),
    ("rule_witnesses", .array (context.ruleWitnesses.map (·.dump))),
    ("rule_knowledge_packs", .object context.ruleKnowledgePacks),
    ("geometry_distance_hints_dbu", dict integers context.geometryDistanceHintsDbu),
    ("rule_distance_constraints_dbu", dict .integer context.ruleDistanceConstraintsDbu),
    ("max_candidate_distance_dbu", .integer context.maxCandidateDistanceDbu),
    ("object_to_violation_ids", dict strings context.objectToViolationIds),
    ("required_structured_output_schema", .object context.requiredStructuredOutputSchema),
    ("available_evidence_ids", strings context.availableEvidenceIds),
    ("context_budget", .object context.contextBudget),
    ("omitted_context_summary", dict .integer context.omittedContextSummary)] ++
    context.repairBlueprint.entry

def dump (context : CompactRegionContext) : Value := .object context.entries

/-- `to_prompt_json` -/
def toPromptJson (context : CompactRegionContext) : List Char := JsonText.text context.dump

/-- The number of characters of the prompt. -/
def promptSize (context : CompactRegionContext) : ℕ := JsonText.size context.dump

/-- `_estimate_tokens` -/
def estimateTokens (context : CompactRegionContext) : ℕ :=
  max 1 ((context.toPromptJson.length * 2 + 4) / 5)

/-- The last of the objects that have a source slice loses it. -/
def clearLastSlice : List ContextObject → List ContextObject
  | [] => []
  | object :: rest =>
    if rest.any (·.sourceSlice.isSome) then object :: clearLastSlice rest
    else { object with sourceSlice := none } :: rest

/-- The slices of frozen objects go before those of editable ones. -/
def dropSlice (context : CompactRegionContext) : CompactRegionContext :=
  if context.frozenBoundaryContextObjects.any (·.sourceSlice.isSome) then
    { context with
      frozenBoundaryContextObjects := clearLastSlice context.frozenBoundaryContextObjects }
  else
    { context with
      editableObjectsWithSourceAnchors :=
        clearLastSlice context.editableObjectsWithSourceAnchors }

/-- What is said about rules, for some rules only. -/
def restrictRules (ruleIds : List String) (context : CompactRegionContext) :
    CompactRegionContext :=
  { context with
    rulePredicates := context.rulePredicates.filter fun entry => entry.1 ∈ ruleIds
    ruleKnowledgePacks := context.ruleKnowledgePacks.filter fun entry => entry.1 ∈ ruleIds
    ruleConstraints := context.ruleConstraints.filter fun entry => entry.1 ∈ ruleIds
    geometryDistanceHintsDbu :=
      context.geometryDistanceHintsDbu.filter fun entry => entry.1 ∈ ruleIds
    ruleDistanceConstraintsDbu :=
      context.ruleDistanceConstraintsDbu.filter fun entry => entry.1 ∈ ruleIds }

/-- The last violation goes, with its witnesses and the rules that no other violation
has. -/
def dropViolation (context : CompactRegionContext) : CompactRegionContext :=
  let removed := context.violations.getLast?.map (·.violationId)
  let violations := context.violations.dropLast
  restrictRules (violations.map (·.ruleId))
    { context with
      violations
      ruleWitnesses := context.ruleWitnesses.filter fun witness =>
        witness.violationId ≠ removed }

def popFrozen (context : CompactRegionContext) : CompactRegionContext :=
  { context with frozenBoundaryContextObjects := context.frozenBoundaryContextObjects.dropLast }

def popEndpoint (context : CompactRegionContext) : CompactRegionContext :=
  { context with localRouteEndpoints := context.localRouteEndpoints.dropLast }

def popAdjacency (context : CompactRegionContext) : CompactRegionContext :=
  { context with viaMetalAdjacencies := context.viaMetalAdjacencies.dropLast }

def popLanding (context : CompactRegionContext) : CompactRegionContext :=
  { context with viaLandings := context.viaLandings.dropLast }

def popFailure (context : CompactRegionContext) : CompactRegionContext :=
  { context with failureHistory := context.failureHistory.dropLast }

def popRollback (context : CompactRegionContext) : CompactRegionContext :=
  { context with rollbackHistory := context.rollbackHistory.dropLast }

def popMessage (context : CompactRegionContext) : CompactRegionContext :=
  { context with neighborMessages := context.neighborMessages.dropLast }

def popEditable (context : CompactRegionContext) : CompactRegionContext :=
  { context with
    editableObjectsWithSourceAnchors := context.editableObjectsWithSourceAnchors.dropLast }

def popFragment (context : CompactRegionContext) : CompactRegionContext :=
  { context with localRouteFragments := context.localRouteFragments.dropLast }

/-- The body of the loop; nothing where it raises. -/
def dropOne (context : CompactRegionContext) : Option CompactRegionContext :=
  if (context.editableObjectsWithSourceAnchors ++ context.frozenBoundaryContextObjects).any
      (·.sourceSlice.isSome) then
    some context.dropSlice
  else if context.frozenBoundaryContextObjects ≠ [] then some context.popFrozen
  else if context.localRouteEndpoints ≠ [] then some context.popEndpoint
  else if context.viaMetalAdjacencies ≠ [] then some context.popAdjacency
  else if context.viaLandings ≠ [] then some context.popLanding
  else if context.failureHistory ≠ [] then some context.popFailure
  else if context.rollbackHistory ≠ [] then some context.popRollback
  else if 1 < context.neighborMessages.length then some context.popMessage
  else if 1 < context.violations.length then some context.dropViolation
  else if 1 < context.editableObjectsWithSourceAnchors.length then some context.popEditable
  else if context.localRouteFragments ≠ [] then some context.popFragment
  else none

/-- The number of removals that are left. -/
def removable (context : CompactRegionContext) : ℕ :=
  (context.editableObjectsWithSourceAnchors ++ context.frozenBoundaryContextObjects).countP
      (·.sourceSlice.isSome) +
    context.frozenBoundaryContextObjects.length + context.localRouteEndpoints.length +
    context.viaMetalAdjacencies.length + context.viaLandings.length +
    context.failureHistory.length + context.rollbackHistory.length +
    (context.neighborMessages.length - 1) + (context.violations.length - 1) +
    (context.editableObjectsWithSourceAnchors.length - 1) + context.localRouteFragments.length

theorem length_clearLastSlice (objects : List ContextObject) :
    (clearLastSlice objects).length = objects.length := by
  induction objects with
  | nil => rfl
  | cons object rest ih =>
    rw [clearLastSlice]
    split_ifs
    · rw [length_cons, ih, length_cons]
    · rfl

/-- One slice less. -/
theorem countP_clearLastSlice {objects : List ContextObject}
    (h : objects.any (·.sourceSlice.isSome) = true) :
    (clearLastSlice objects).countP (·.sourceSlice.isSome) + 1 =
      objects.countP (·.sourceSlice.isSome) := by
  induction objects with
  | nil => cases h
  | cons object rest ih =>
    rw [clearLastSlice]
    split_ifs with hrest
    · rw [countP_cons, countP_cons, ← ih hrest]
      omega
    · rw [any_cons, Bool.or_eq_true] at h
      have hobject : object.sourceSlice.isSome = true := h.resolve_right hrest
      rw [countP_cons, countP_cons, if_pos hobject, if_neg (by simp)]

theorem countP_eq_zero_of_any {objects : List ContextObject}
    (h : ¬ objects.any (·.sourceSlice.isSome) = true) :
    objects.countP (·.sourceSlice.isSome) = 0 := by
  rw [List.countP_eq_zero]
  intro object hobject hslice
  exact h (any_eq_true.2 ⟨object, hobject, hslice⟩)

variable {context next : CompactRegionContext}

theorem removable_dropSlice
    (h : (context.editableObjectsWithSourceAnchors ++ context.frozenBoundaryContextObjects).any
      (·.sourceSlice.isSome) = true) :
    context.dropSlice.removable + 1 = context.removable := by
  rw [dropSlice]
  split_ifs with hfrozen
  · have hcount := countP_clearLastSlice hfrozen
    simp only [removable, countP_append, length_clearLastSlice]
    omega
  · rw [any_append, Bool.or_eq_true] at h
    have hcount := countP_clearLastSlice (h.resolve_right hfrozen)
    simp only [removable, countP_append, length_clearLastSlice]
    omega

theorem length_dropLast_add_one {α : Type} {items : List α} (h : items ≠ []) :
    items.dropLast.length + 1 = items.length := by
  have hlength := length_pos_iff.2 h
  rw [length_dropLast]
  omega

theorem countP_eq_zero
    (h : ¬ (context.editableObjectsWithSourceAnchors ++
      context.frozenBoundaryContextObjects).any (·.sourceSlice.isSome) = true) :
    context.editableObjectsWithSourceAnchors.countP (·.sourceSlice.isSome) = 0 ∧
      context.frozenBoundaryContextObjects.countP (·.sourceSlice.isSome) = 0 := by
  have hcount := countP_eq_zero_of_any h
  rw [countP_append] at hcount
  omega

theorem countP_dropLast_eq_zero {objects : List ContextObject}
    (h : objects.countP (·.sourceSlice.isSome) = 0) :
    objects.dropLast.countP (·.sourceSlice.isSome) = 0 :=
  Nat.le_zero.1 (h ▸ (dropLast_sublist objects).countP_le)

/-- A branch of the loop's body. -/
theorem removable_ite {p : Prop} [Decidable p] {taken : CompactRegionContext}
    {rest : Option CompactRegionContext}
    (htaken : p → taken.removable + 1 = context.removable)
    (hrest : ¬ p → rest = some next → next.removable + 1 = context.removable)
    (h : (if p then some taken else rest) = some next) :
    next.removable + 1 = context.removable := by
  by_cases hp : p
  · rw [if_pos hp] at h
    rw [← some.inj h]
    exact htaken hp
  · rw [if_neg hp] at h
    exact hrest hp h

/-- **One removal**: there is one less to go. -/
theorem removable_dropOne (h : context.dropOne = some next) :
    next.removable + 1 = context.removable := by
  rw [dropOne] at h
  refine removable_ite removable_dropSlice (fun hslice h => ?_) h
  obtain ⟨heditableSlices, hfrozenSlices⟩ := countP_eq_zero hslice
  refine removable_ite (fun hfrozen => ?_) (fun _ h => ?_) h
  · have hlast := countP_dropLast_eq_zero hfrozenSlices
    have hlength := length_dropLast_add_one hfrozen
    simp only [removable, popFrozen, countP_append]
    omega
  refine removable_ite (fun hendpoints => ?_) (fun _ h => ?_) h
  · have hlength := length_dropLast_add_one hendpoints
    simp only [removable, popEndpoint]
    omega
  refine removable_ite (fun hadjacencies => ?_) (fun _ h => ?_) h
  · have hlength := length_dropLast_add_one hadjacencies
    simp only [removable, popAdjacency]
    omega
  refine removable_ite (fun hlandings => ?_) (fun _ h => ?_) h
  · have hlength := length_dropLast_add_one hlandings
    simp only [removable, popLanding]
    omega
  refine removable_ite (fun hfailure => ?_) (fun _ h => ?_) h
  · have hlength := length_dropLast_add_one hfailure
    simp only [removable, popFailure]
    omega
  refine removable_ite (fun hrollback => ?_) (fun _ h => ?_) h
  · have hlength := length_dropLast_add_one hrollback
    simp only [removable, popRollback]
    omega
  refine removable_ite (fun hmessages => ?_) (fun _ h => ?_) h
  · simp only [removable, popMessage, length_dropLast]
    omega
  refine removable_ite (fun hviolations => ?_) (fun _ h => ?_) h
  · simp only [removable, dropViolation, restrictRules, length_dropLast]
    omega
  refine removable_ite (fun heditable => ?_) (fun _ h => ?_) h
  · have hlast := countP_dropLast_eq_zero heditableSlices
    simp only [removable, popEditable, countP_append, length_dropLast]
    omega
  refine removable_ite (fun hfragments => ?_) (fun _ h => ?_) h
  · have hlength := length_dropLast_add_one hfragments
    simp only [removable, popFragment]
    omega
  cases h

/-! ## The loop -/

def minimumContext : String := "minimum compact RegionContext exceeds configured token budget"

/-- The loop: parts are taken away until the estimate meets the target. -/
def truncate (target : ℕ) (context : CompactRegionContext) : Except String CompactRegionContext :=
  if context.estimateTokens ≤ target then .ok context
  else
    match _h : context.dropOne with
    | none => .error minimumContext
    | some next => truncate target next
termination_by context.removable
decreasing_by
  have := removable_dropOne _h
  omega

/-- The context after some removals, if there are as many. -/
def stage : ℕ → CompactRegionContext → Option CompactRegionContext
  | 0, context => some context
  | n + 1, context => context.dropOne.bind (stage n)

/-- The first stage whose estimate meets the target. -/
structure FirstFit (target : ℕ) (context kept : CompactRegionContext) (n : ℕ) : Prop where
  stage : context.stage n = some kept
  fits : kept.estimateTokens ≤ target
  first : ∀ m < n, ∀ earlier, context.stage m = some earlier → target < earlier.estimateTokens

theorem FirstFit.zero {target : ℕ} (h : context.estimateTokens ≤ target) :
    FirstFit target context context 0 :=
  ⟨rfl, h, fun _ hm => absurd hm (Nat.not_lt_zero _)⟩

theorem FirstFit.succ {target n : ℕ} {kept : CompactRegionContext}
    (hstep : context.dropOne = some next) (hover : target < context.estimateTokens)
    (h : FirstFit target next kept n) : FirstFit target context kept (n + 1) where
  stage := by rw [CompactRegionContext.stage, hstep, bind_some, h.stage]
  fits := h.fits
  first := by
    intro m hm earlier hearlier
    cases m with
    | zero => exact some.inj hearlier ▸ hover
    | succ m =>
      rw [CompactRegionContext.stage, hstep, bind_some] at hearlier
      exact h.first m (Nat.lt_of_succ_lt_succ hm) earlier hearlier

/-- There is one first stage. -/
theorem FirstFit.unique {target n m : ℕ} {kept other : CompactRegionContext}
    (h : FirstFit target context kept n) (h' : FirstFit target context other m) :
    kept = other := by
  have hnm : n = m := by
    rcases Nat.lt_trichotomy n m with hlt | heq | hgt
    · exact absurd h.fits (h'.first n hlt kept h.stage).not_ge
    · exact heq
    · exact absurd h'.fits (h.first m hgt other h'.stage).not_ge
  exact some.inj (h.stage.symm.trans (hnm ▸ h'.stage))

end CompactRegionContext

end DRCAgent.Prompt
