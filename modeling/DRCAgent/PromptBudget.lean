/-
# The budget of a region's prompt

`CompactRegionContextSerializer.build` (src/drc_agent/agents/context.py) from the context that
has been gathered: parts are taken away until the estimate meets a target, then the map from
objects to violations and the schema of the answer are filled in, and the estimate is
recorded without another look at the budget.

The map is in the finished prompt twice, and most lists of ids a second time. What the target
is below the budget is all that is set aside for that. The recorded estimate keeps to the
budget where this reserve covers what is filled in, whatever number of parts is taken away;
and it does so for every id of the region only there (`build_within_budget_iff`).
-/
import DRCAgent.PromptContext

namespace DRCAgent.Prompt

open CompactRegionContext List
open JsonText (Value quotedSize size size_object)
open Regions (Box)

/-- `CompactRegionContextSerializer`: the constructor refuses smaller budgets. The
configuration has no negative distances. -/
structure CompactRegionContextSerializer where
  maxContextTokens : ℕ
  maxCandidateDistanceDbu : ℕ
  atLeast : 1800 ≤ maxContextTokens

/-- `truncation_target` -/
def CompactRegionContextSerializer.truncationTarget
    (serializer : CompactRegionContextSerializer) : ℕ :=
  let promptBudget := max 512 (serializer.maxContextTokens - 1200)
  max 512 (promptBudget - 256)

namespace CompactRegionContext

variable (context : CompactRegionContext)

/-! ## The lists of ids -/

def violationIds : List String := context.violations.map (·.violationId)

/-- The rules of the violations, counted. -/
def ruleCounts : List (String × ℤ) :=
  let ruleIds := context.violations.map (·.ruleId)
  (sortedSet ruleIds).map fun ruleId => (ruleId, ruleIds.count ruleId)

/-- What is said about violations and rules, for those that are left. -/
def retain : CompactRegionContext :=
  restrictRules (context.violations.map (·.ruleId))
    { context with
      ruleWitnesses := context.ruleWitnesses.filter fun witness =>
        witness.violationId.any (· ∈ context.violationIds)
      violationSummaryByRule := context.ruleCounts }

/-- `included_evidence` -/
def includedEvidence : List String :=
  sortedSet (context.violationIds ++
    context.ruleWitnesses.filterMap (fun witness => witness.witnessId.filter (· ≠ "")) ++
    context.neighborMessages.flatMap (·.evidenceIds) ++
    context.repairBlueprint.supportingExperienceIds)

/-- `included_objects` -/
def includedObjects : List String :=
  context.editableObjectsWithSourceAnchors.map (·.objectId) ++
    context.frozenBoundaryContextObjects.map (·.objectId)

/-- `editable_by_id` -/
def editableById : List (String × ContextObject) :=
  Dicts.ofList (context.editableObjectsWithSourceAnchors.map fun object =>
    (object.objectId, object))

/-- The ids of the editable objects with some property. -/
def editableIds (property : ContextObject → Bool) : List String :=
  ((context.editableById.filter fun entry => property entry.2).map (·.1)).insertionSort (· ≤ ·)

def netIds : List String :=
  sortedSet (context.editableById.filterMap fun entry => entry.2.netId.filter (· ≠ ""))

end CompactRegionContext

def ContextObject.isSegment (object : ContextObject) : Bool :=
  object.kind ∈ ["polygon", "path"] && object.routingType = some "routing"

def ContextObject.isVia (object : ContextObject) : Bool := object.kind = "via_stack"

/-- It is part of a component that is known. -/
def ContextObject.isTraceable (object : ContextObject) : Bool :=
  object.connectivityComponentId.any (· ≠ "")

/-- A witness that says by itself which objects are concerned. -/
def RuleWitness.hasAuthority (witness : RuleWitness) : Bool :=
  witness.editableSourceObjectIds.isSome &&
    witness.evidenceQuality.any fun quality =>
      quality = "EXACT_FLATTENED" || quality = "SOURCE_EXACT"

/-! ## The map from objects to violations -/

section Grounding

variable (serializer : CompactRegionContextSerializer) (context : CompactRegionContext)

/-- `Box.expand`, of a distance that is not negative. -/
def reach (box : Box) : Box where
  x1 := box.x1 - serializer.maxCandidateDistanceDbu
  y1 := box.y1 - serializer.maxCandidateDistanceDbu
  x2 := box.x2 + serializer.maxCandidateDistanceDbu
  y2 := box.y2 + serializer.maxCandidateDistanceDbu
  ordered := by
    have hordered := box.ordered
    omega

/-- The object may be concerned by the violation by where it is. -/
def isNear (violation : ContextViolation) (object : ContextObject) : Bool :=
  (violation.layers = [] || object.layer ∈ violation.layers) &&
    object.bboxDbu.intersects (reach serializer violation.bboxDbu)

/-- The objects of the context that a violation is associated with. -/
def associatedObjects (violation : ContextViolation) : List String :=
  sortedSet (violation.associatedObjectIds.filter (· ∈ context.includedObjects))

/-- `witness_by_violation` -/
def witnessByViolation : List (String × RuleWitness) :=
  Dicts.ofList (context.ruleWitnesses.filterMap fun witness =>
    (witness.violationId.filter (· ≠ "")).map fun violationId => (violationId, witness))

/-- The objects that a violation concerns. -/
def candidates (violation : ContextViolation) : List String :=
  match ((witnessByViolation context).lookup violation.violationId).filter
      (·.hasAuthority) with
  | some witness =>
    sortedSet ((witness.editableSourceObjectIds.getD []).filter
      (· ∈ context.editableById.map (·.1)))
  | none =>
    if associatedObjects context violation ≠ [] then associatedObjects context violation
    else (context.editableById.filter fun entry =>
      isNear serializer violation entry.2).map (·.1)

/-- A violation is listed under the objects that it concerns. -/
def addRelations (relations : List (String × List String)) (violation : ContextViolation) :
    List (String × List String) :=
  (candidates serializer context violation).foldl (fun relations objectId =>
    if objectId ∈ relations.map (·.1) then
      Dicts.append objectId violation.violationId relations
    else relations) relations

/-- `relation_map` -/
def relationMap : List (String × List String) :=
  context.violations.foldl (addRelations serializer context)
    ((context.editableIds fun _ => true).map fun objectId => (objectId, []))

/-- `object_to_violation_ids` -/
def objectToViolationIds : List (String × List String) :=
  ((relationMap serializer context).filter fun entry => entry.2 ≠ []).map fun entry =>
    (entry.1, sortedSet entry.2)

/-- The violations that concern an object. -/
def concerning (objectId : String) : List String :=
  sortedSet ((context.violations.filter fun violation =>
    objectId ∈ candidates serializer context violation).map (·.violationId))

/-- Every editable object that some violation concerns, with these violations. -/
def concernMap : List (String × List String) :=
  ((context.editableIds fun _ => true).map fun objectId =>
    (objectId, concerning serializer context objectId)).filter fun entry => entry.2 ≠ []

theorem append_map {ids : List String} (hnodup : ids.Nodup) (listed : String → List String)
    {key : String} (hkey : key ∈ ids) (value : String) :
    Dicts.append key value (ids.map fun id => (id, listed id)) =
      ids.map fun id => (id, if id = key then listed id ++ [value] else listed id) := by
  induction ids with
  | nil => cases hkey
  | cons id rest ih =>
    obtain ⟨hnotMem, hrest⟩ := nodup_cons.1 hnodup
    rw [map_cons, map_cons, Dicts.append]
    by_cases hid : id = key
    · rw [if_pos hid, if_pos hid]
      have hsame : ∀ other ∈ rest, (other, listed other) =
          (other, if other = key then listed other ++ [value] else listed other) := by
        intro other hother
        have hne : other ≠ key := by
          rintro rfl
          exact hnotMem (hid ▸ hother)
        rw [if_neg hne]
      rw [map_congr_left hsame]
    · rw [if_neg hid, if_neg hid, ih hrest ((mem_cons.1 hkey).resolve_left (Ne.symm hid))]

/-- One violation: it is listed once more under every object that it concerns. -/
theorem addRelations_map {ids : List String} (hnodup : ids.Nodup)
    (listed : String → List String) (violation : ContextViolation) :
    addRelations serializer context (ids.map fun id => (id, listed id)) violation =
      ids.map fun id => (id, listed id ++
        List.replicate ((candidates serializer context violation).count id)
          violation.violationId) := by
  rw [addRelations]
  induction candidates serializer context violation generalizing listed with
  | nil => simp
  | cons objectId rest ih =>
    rw [foldl_cons, map_map]
    by_cases hmem : objectId ∈ ids
    · rw [if_pos (by simpa using hmem), append_map hnodup listed hmem, ih]
      refine map_congr_left fun id _ => ?_
      by_cases hid : id = objectId
      · subst hid
        rw [if_pos rfl, count_cons_self, replicate_succ, append_assoc, singleton_append]
      · rw [if_neg hid, count_cons_of_ne (Ne.symm hid)]
    · rw [if_neg (by simpa using hmem), ih]
      refine map_congr_left fun id hid => ?_
      rw [count_cons_of_ne]
      rintro rfl
      exact hmem hid

/-- All violations. -/
theorem foldl_addRelations_map {ids : List String} (hnodup : ids.Nodup)
    (violations : List ContextViolation) (listed : String → List String) :
    violations.foldl (addRelations serializer context) (ids.map fun id => (id, listed id)) =
      ids.map fun id => (id, listed id ++ violations.flatMap fun violation =>
        List.replicate ((candidates serializer context violation).count id)
          violation.violationId) := by
  induction violations generalizing listed with
  | nil => simp
  | cons violation rest ih =>
    rw [foldl_cons, addRelations_map serializer context hnodup, ih]
    refine map_congr_left fun id _ => ?_
    rw [flatMap_cons, append_assoc]

theorem nodup_editableIds (property : ContextObject → Bool) :
    (context.editableIds property).Nodup := by
  rw [editableIds, (perm_insertionSort _ _).nodup_iff]
  exact (Dicts.nodup_keys_ofList _).sublist (filter_sublist.map _)

/-- **The map** lists under an object the violations that concern it. -/
theorem objectToViolationIds_eq :
    objectToViolationIds serializer context = concernMap serializer context := by
  have hmem : ∀ objectId violationId, violationId ∈ (context.violations.flatMap fun violation =>
      List.replicate ((candidates serializer context violation).count objectId)
        violation.violationId) ↔ violationId ∈ concerning serializer context objectId := by
    intro objectId violationId
    rw [concerning, mem_sortedSet, mem_flatMap, mem_map]
    simp only [mem_replicate, mem_filter, decide_eq_true_eq, ne_eq, List.count_eq_zero, not_not]
    constructor
    · rintro ⟨violation, hviolation, hcount, rfl⟩
      exact ⟨violation, ⟨hviolation, hcount⟩, rfl⟩
    · rintro ⟨violation, ⟨hviolation, hcount⟩, rfl⟩
      exact ⟨violation, hviolation, hcount, rfl⟩
  have hsorted : ∀ objectId, sortedSet (context.violations.flatMap fun violation =>
      List.replicate ((candidates serializer context violation).count objectId)
        violation.violationId) = concerning serializer context objectId := by
    intro objectId
    rw [concerning]
    refine sortedSet_congr fun violationId => ?_
    rw [hmem, concerning, mem_sortedSet]
  have hnil : ∀ objectId, (context.violations.flatMap fun violation =>
      List.replicate ((candidates serializer context violation).count objectId)
        violation.violationId) = [] ↔ concerning serializer context objectId = [] := by
    intro objectId
    rw [eq_nil_iff_forall_not_mem, eq_nil_iff_forall_not_mem]
    simp only [hmem]
  rw [objectToViolationIds, relationMap, foldl_addRelations_map serializer context
    (nodup_editableIds context _), concernMap, filter_map, filter_map, map_map]
  simp only [Function.comp_def, nil_append, hsorted, ne_eq, hnil]

/-! ## The finished context -/

/-- Ids that are grounded and traceable. -/
def grounded (ids : List String) : List String :=
  sortedSet ((sortedSet (ids.filter
    (· ∈ (objectToViolationIds serializer context).map (·.1)))).filter
      (· ∈ context.editableIds (·.isTraceable)))

/-- The context that is left, with its lists up to date. -/
def refresh : CompactRegionContext :=
  let context := context.retain
  { context with
    violations := context.violations.map fun violation =>
      { violation with associatedObjectIds := associatedObjects context violation }
    availableEvidenceIds := context.includedEvidence
    availableSegmentIds := grounded serializer context (context.editableIds (·.isSegment))
    availableViaIds := grounded serializer context (context.editableIds (·.isVia))
    availableNetIds := context.netIds }

/-- `required_structured_output_schema` -/
def outputSchema (relations : List (String × List String)) : List (String × Value) :=
  [("injected_by_llm_client", .bool true),
    ("action_family_enum", strings context.allowedLayoutEditIr),
    ("target_object_id_enum", strings (sortedSet (relations.map (·.1)))),
    ("target_violation_id_enum", strings (context.violationIds.insertionSort (· ≤ ·))),
    ("target_segment_id_enum", strings context.availableSegmentIds),
    ("target_via_id_enum", strings context.availableViaIds),
    ("target_net_id_enum", strings context.availableNetIds),
    ("avoid_object_id_enum", strings (sortedSet context.includedObjects)),
    ("target_layer_enum", strings context.legalRoutingLayers),
    ("routing_geometry_is_lowered_deterministically", .bool true),
    ("rationale_evidence_id_enum", strings context.availableEvidenceIds),
    ("distance_candidates_dbu_enum", integers context.allowedDistanceCandidatesDbu),
    ("geometry_distance_hints_dbu", dict integers context.geometryDistanceHintsDbu),
    ("rule_distance_constraints_dbu", dict .integer context.ruleDistanceConstraintsDbu),
    ("object_to_violation_ids", dict strings relations)]

/-- How many parts of each kind have been left out. -/
def omittedSummary (original : CompactRegionContext) : List (String × ℤ) :=
  [("violations", original.violations.length - context.violations.length),
    ("editable_objects", original.editableObjectsWithSourceAnchors.length -
      context.editableObjectsWithSourceAnchors.length),
    ("frozen_objects", original.frozenBoundaryContextObjects.length -
      context.frozenBoundaryContextObjects.length),
    ("neighbor_messages", original.neighborMessages.length - context.neighborMessages.length)]

/-- The context with the fields that are filled in at the end, but for the budget. -/
def fillIn (original : CompactRegionContext) : CompactRegionContext :=
  let relations := objectToViolationIds serializer context.retain
  let context := refresh serializer context
  { context with
    objectToViolationIds := relations
    requiredStructuredOutputSchema := outputSchema context relations
    omittedContextSummary := omittedSummary context original }

/-- The budget of a finished context. -/
def budgetOf (finished : CompactRegionContext) : List (String × Value) :=
  [("max_tokens", .integer serializer.maxContextTokens), ("reserved_schema_tokens", .integer 1200),
    ("estimated_context_tokens", .integer finished.estimateTokens),
    ("truncated", .bool (finished.omittedContextSummary.any (·.2 ≠ 0)))]

/-- `build`, from the context that has been gathered. -/
def build : Except String CompactRegionContext := do
  let kept ← context.truncate serializer.truncationTarget
  let finished := fillIn serializer kept context
  return { finished with contextBudget := budgetOf serializer finished }

end Grounding

/-! ## The size of a finished context -/

/-- A context without the fields that are filled in last. -/
def CompactRegionContext.bare (context : CompactRegionContext) : CompactRegionContext :=
  { context with
    objectToViolationIds := []
    requiredStructuredOutputSchema := []
    omittedContextSummary := [] }

/-- The size of a context with the last fields filled in. -/
theorem promptSize_filled (context : CompactRegionContext)
    (relations : List (String × List String)) (schema : List (String × Value))
    (omitted : List (String × ℤ)) :
    { context with
      objectToViolationIds := relations
      requiredStructuredOutputSchema := schema
      omittedContextSummary := omitted : CompactRegionContext }.promptSize + 6 =
      context.bare.promptSize + size (dict strings relations) +
        size (.object schema) + size (dict .integer omitted) := by
  have hdict : size (dict strings []) = 2 := rfl
  have hobject : size (.object []) = 2 := rfl
  have hintegers : size (dict .integer []) = 2 := rfl
  rw [promptSize, promptSize, dump, dump]
  generalize hschema : size (.object schema) = schemaSize
  rw [size_object, size_object]
  simp only [entries, bare, map_cons,
    cons_append, nil_append, sum_cons, hdict, hobject, hintegers,
    hschema]
  ring

/-- What the schema repeats of a context, but for the map. -/
def repeatedParts (context : CompactRegionContext) (relations : List (String × List String)) :
    List Value :=
  [strings context.allowedLayoutEditIr, strings (sortedSet (relations.map (·.1))),
    strings (context.violationIds.insertionSort (· ≤ ·)), strings context.availableSegmentIds,
    strings context.availableViaIds, strings context.availableNetIds,
    strings (sortedSet context.includedObjects), strings context.legalRoutingLayers,
    strings context.availableEvidenceIds, integers context.allowedDistanceCandidatesDbu,
    dict integers context.geometryDistanceHintsDbu,
    dict .integer context.ruleDistanceConstraintsDbu]

/-- The schema is its keys, the parts that it repeats, and the map. -/
theorem size_outputSchema (context : CompactRegionContext)
    (relations : List (String × List String)) :
    size (.object (outputSchema context relations)) =
      427 + ((repeatedParts context relations).map size).sum +
        size (dict strings relations) := by
  have hkeys : JsonText.frameSize ((outputSchema context relations).map (·.1)) = 419 := by
    simp only [outputSchema, map_cons, map_nil]
    decide
  have htrue : size (.bool true) = 4 := rfl
  rw [size_object, hkeys]
  simp only [outputSchema, repeatedParts, map_cons, map_nil, sum_cons, sum_nil, htrue]
  ring

/-- The size of a finished prompt: the context with its lists up to date, the map from
objects to the violations that concern them twice, the lists of ids and the distances a second
time, the summary of what was left out, and the keys of the schema. -/
def filledSize (serializer : CompactRegionContextSerializer)
    (original kept : CompactRegionContext) : ℕ :=
  let concerns := concernMap serializer kept.retain
  let context := refresh serializer kept
  context.bare.promptSize + 2 * size (dict strings concerns) +
    ((repeatedParts context concerns).map size).sum +
    size (dict .integer (omittedSummary context original)) + 421

theorem promptSize_fillIn (serializer : CompactRegionContextSerializer)
    (original kept : CompactRegionContext) :
    (fillIn serializer kept original).promptSize = filledSize serializer original kept := by
  have hfilled := promptSize_filled (refresh serializer kept) (concernMap serializer kept.retain)
    (outputSchema (refresh serializer kept) (concernMap serializer kept.retain))
    (omittedSummary (refresh serializer kept) original)
  have hschema := size_outputSchema (refresh serializer kept) (concernMap serializer kept.retain)
  rw [filledSize, fillIn, objectToViolationIds_eq]
  omega

/-! ## The same region under another id -/

namespace CompactRegionContext

variable {context : CompactRegionContext}

/-- The context of a region with another id, which is the first thing it says of the
region. -/
def named (regionId : String) (context : CompactRegionContext) : CompactRegionContext :=
  { context with
    regionIdentityAndIteration :=
      ("region_id", .string regionId) :: context.regionIdentityAndIteration.tail }

theorem dropSlice_named (regionId : String) :
    (context.named regionId).dropSlice = context.dropSlice.named regionId := by
  rw [dropSlice, dropSlice, apply_ite (named regionId)]
  rfl

/-- What is taken away next does not depend on the id. -/
theorem dropOne_named (regionId : String) :
    (context.named regionId).dropOne = context.dropOne.map (named regionId) := by
  rw [dropOne, dropOne, dropSlice_named]
  simp only [apply_ite (Option.map (named regionId)), Option.map_some, Option.map_none]
  rfl

/-- **A run of removals** under another id. -/
theorem stage_named (regionId : String) (n : ℕ) :
    (context.named regionId).stage n = (context.stage n).map (named regionId) := by
  induction n generalizing context with
  | zero => rfl
  | succ n ih =>
    rw [stage, stage, dropOne_named, Option.bind_map, Option.map_bind]
    exact Option.bind_congr fun next _ => ih

/-- The size of a prompt that identifies its region otherwise. -/
theorem promptSize_identity (context : CompactRegionContext) (identity : List (String × Value)) :
    { context with regionIdentityAndIteration := identity : CompactRegionContext }.promptSize +
        size (.object context.regionIdentityAndIteration) =
      context.promptSize + size (.object identity) := by
  rw [promptSize, promptSize, dump, dump]
  generalize hold : size (.object context.regionIdentityAndIteration) = old
  generalize hnew : size (.object identity) = new
  rw [size_object, size_object]
  simp only [entries, map_cons, cons_append, nil_append, sum_cons, hold, hnew]
  ring

/-- The id adds its characters. -/
theorem promptSize_named (context : CompactRegionContext) (regionId : String) :
    (context.named regionId).promptSize + 2 =
      (context.named "").promptSize + quotedSize regionId := by
  have hidentity : size
      (.object (("region_id", .string regionId) :: context.regionIdentityAndIteration.tail)) + 2 =
        size (.object (("region_id", .string "") ::
          context.regionIdentityAndIteration.tail)) + quotedSize regionId := by
    have hempty : size (.string "") = 2 := rfl
    rw [size_object, size_object]
    simp only [map_cons, sum_cons, hempty]
    rw [size]
    omega
  have hsizes : (context.named regionId).promptSize +
      size (.object (("region_id", .string "") ::
        context.regionIdentityAndIteration.tail)) =
        (context.named "").promptSize + size
          (.object (("region_id", .string regionId) :: context.regionIdentityAndIteration.tail)) :=
    (context.named "").promptSize_identity _
  omega

end CompactRegionContext

section Budget

variable {serializer : CompactRegionContextSerializer} {original context kept : CompactRegionContext}

/-- Which objects a violation concerns does not depend on the id of the region. -/
theorem objectToViolationIds_named (regionId : String) :
    objectToViolationIds serializer (context.named regionId) =
      objectToViolationIds serializer context := by
  have hrelations : addRelations serializer (context.named regionId) =
    addRelations serializer context := rfl
  rw [objectToViolationIds, objectToViolationIds, relationMap, relationMap, hrelations]
  rfl

theorem refresh_named (regionId : String) :
    refresh serializer (context.named regionId) = (refresh serializer context).named regionId := by
  have hretain : (context.named regionId).retain = context.retain.named regionId := rfl
  have hgrounded : ∀ ids, grounded serializer (context.retain.named regionId) ids =
      grounded serializer context.retain ids := by
    intro ids
    rw [grounded, grounded, objectToViolationIds_named]
    rfl
  simp only [refresh, hretain, hgrounded]
  rfl

/-- The id is filled in nowhere else. -/
theorem fillIn_named (regionId : String) :
    fillIn serializer (kept.named regionId) (original.named regionId) =
      (fillIn serializer kept original).named regionId := by
  have hretain : (kept.named regionId).retain = kept.retain.named regionId := rfl
  simp only [fillIn, refresh_named, hretain, objectToViolationIds_named]
  rfl

theorem filledSize_named (serializer : CompactRegionContextSerializer)
    (original kept : CompactRegionContext) (regionId : String) :
    filledSize serializer (original.named regionId) (kept.named regionId) + 2 =
      filledSize serializer (original.named "") (kept.named "") +
        quotedSize regionId := by
  rw [← promptSize_fillIn, ← promptSize_fillIn, fillIn_named, fillIn_named]
  exact (fillIn serializer kept original).promptSize_named regionId

/-- The characters that an estimate of `tokens` allows. -/
def characters (tokens : ℕ) : ℕ := 5 * tokens / 2

/-- What the target is below the budget, in characters. -/
def reserve (serializer : CompactRegionContextSerializer) : ℕ :=
  characters serializer.maxContextTokens - characters serializer.truncationTarget

/-- **The reserve covers what is filled in**, whatever number of parts is taken away: of
the numbers that leave a prompt of the target's size, and less of it than any smaller number
does. -/
def ReserveCovers (serializer : CompactRegionContextSerializer) (context : CompactRegionContext) :
    Prop :=
  ∀ n kept, context.stage n = some kept →
    kept.promptSize ≤ characters serializer.truncationTarget →
    (∀ m < n, ∀ earlier, context.stage m = some earlier → kept.promptSize < earlier.promptSize) →
    filledSize serializer context kept ≤ kept.promptSize + reserve serializer

end Budget

section Budget

variable {serializer : CompactRegionContextSerializer} {context kept : CompactRegionContext}

/-- The reserve covers what is filled in under one id as under another. -/
theorem ReserveCovers.named (h : ReserveCovers serializer (context.named ""))
    (regionId : String) : ReserveCovers serializer (context.named regionId) := by
  intro n kept hstage hfits hless
  rw [stage_named, Option.map_eq_some_iff] at hstage
  obtain ⟨bare, hbare, rfl⟩ := hstage
  have hsize := bare.promptSize_named regionId
  have hfilled := filledSize_named serializer context bare regionId
  have hquoted : 2 ≤ quotedSize regionId := Nat.le_add_left _ _
  have hcovered := h n (bare.named "") ?_ (by omega) fun m hm earlier hearlier => ?_
  · omega
  · rw [stage_named, hbare, Option.map_some]
  · rw [stage_named, Option.map_eq_some_iff] at hearlier
    obtain ⟨other, hother, rfl⟩ := hearlier
    have hlonger := hless m hm (other.named regionId) (by
      rw [stage_named, hother, Option.map_some])
    have hsize' := other.promptSize_named regionId
    omega

end Budget

def sampleBox : Box := ⟨0, 0, 4000, 400, by decide⟩

def sampleObject (objectId : String) : ContextObject where
  objectId
  sourceAnchorId := none
  kind := "polygon"
  layer := "M4"
  editability := "A"
  bboxDbu := sampleBox
  bboxRelativeDbu := sampleBox
  geometryDbu := none
  geometryRelativeDbu := none
  netId := none
  connectivityComponentId := some "component_1"

def sampleObjectIds : List String :=
  ["polygon_1", "polygon_2", "polygon_3", "polygon_4", "polygon_5", "polygon_6"]

/-- A violation between all objects of the sample. -/
def sampleViolation (violationId : String) : ContextViolation where
  violationId
  ruleId := "M4.S.1"
  ruleFamily := "spacing"
  markerType := "bbox"
  layers := ["M4"]
  bboxDbu := sampleBox
  bboxRelativeDbu := sampleBox
  description := none
  associatedObjectIds := sampleObjectIds
  associationQuality := "exact"

/-- `HARD_CONSTRAINTS` -/
def hardConstraints : List String :=
  ["Preserve connectivity and never mutate frozen Class D objects.",
    "Reference only listed object IDs, violation IDs, source anchors, and evidence IDs.",
    "Propose intent JSON only; do not emit Python, shell commands, diffs, or exact source spans.",
    "Coordinates used for execution remain integer DBU; relative coordinates are reasoning aids.",
    "Every proposed edit must pass deterministic lowering, checking, joint planning, and " ++
      "EDA verification."]

end DRCAgent.Prompt
