/-
# The grounding of a region's prompt

What `CompactRegionContextSerializer.build` (src/drc_agent/agents/context.py) offers in a
context refers to what the context still has, whatever was taken away.

The truncation takes from the end of each list (`KeptFrom`), and a witness goes with its
violation only. So a violation that is left has the witness that was gathered for it, and
where that witness says by itself which objects are concerned, the map from objects to
violations says the same (`build_grounded`).
-/
import DRCAgent.PromptBudget

namespace DRCAgent.Prompt

open CompactRegionContext List
open JsonText (Value)

/-! ## What is gathered -/

/-- A flattened geometry of a witness. -/
structure WitnessGeometry where
  sourceObjectId : Option String
  editable : Bool
  summary : List (String × Value)

/-- A witness as the design has it. -/
structure GivenWitness where
  violationId : Option String
  witnessId : Option String
  evidenceQuality : Option String
  editableSourceObjectIds : Option (List String)
  physicalGeometries : List WitnessGeometry
  others : List (String × Value)

/-- The sources of the geometries that may be edited. -/
def GivenWitness.geometrySources (witness : GivenWitness) : List String :=
  sortedSet ((witness.physicalGeometries.filter (·.editable)).filterMap fun geometry =>
    geometry.sourceObjectId.filter (· ≠ ""))

/-- `_compact_witness` -/
def compactWitness (witness : GivenWitness) : RuleWitness where
  violationId := witness.violationId
  witnessId := witness.witnessId
  evidenceQuality := witness.evidenceQuality
  -- the sources are read off the geometries where the witness does not list them itself
  editableSourceObjectIds :=
    if witness.editableSourceObjectIds = none ∧ witness.physicalGeometries ≠ [] then
      some witness.geometrySources
    else witness.editableSourceObjectIds
  others := witness.others ++ [("physical_contributor_summaries",
    .array (witness.physicalGeometries.map fun geometry => .object geometry.summary))]

/-- `quality_rank` -/
def qualityRank (quality : String) : ℕ :=
  (["EXACT_FLATTENED", "SOURCE_EXACT", "GEOMETRIC_INFERRED", "MARKER_PROXY"].idxOf? quality).getD 4

/-- `violation_priority` -/
def violationPriority (ruleWitnesses : List (String × GivenWitness))
    (violation : ContextViolation) : Bool ×ₗ ℕ ×ₗ String :=
  let witness := ruleWitnesses.lookup violation.violationId
  let editableSources := witness.elim [] fun witness =>
    witness.editableSourceObjectIds.getD witness.geometrySources
  toLex (editableSources.isEmpty, toLex
    (qualityRank ((witness.bind (·.evidenceQuality)).getD "UNAVAILABLE"), violation.violationId))

/-- `local_violations` -/
def localViolations (regionIds : List String) (violations : List ContextViolation)
    (ruleWitnesses : List (String × GivenWitness)) : List ContextViolation :=
  (regionIds.filterMap fun violationId => (Dicts.ofList (violations.map fun violation =>
    (violation.violationId, violation))).lookup violationId).insertionSort
      fun first second => violationPriority ruleWitnesses first ≤
        violationPriority ruleWitnesses second

/-- `local_witnesses` -/
def localWitnesses (regionIds : List String) (ruleWitnesses : List (String × GivenWitness)) :
    List RuleWitness :=
  (sortedSet regionIds).filterMap fun violationId =>
    (ruleWitnesses.lookup violationId).map compactWitness

/-- The context that is gathered for a region: its violations and their witnesses, beside
all the rest. -/
def gathered (regionIds : List String) (violations : List ContextViolation)
    (ruleWitnesses : List (String × GivenWitness)) (rest : CompactRegionContext) :
    CompactRegionContext :=
  { rest with
    violations := localViolations regionIds violations ruleWitnesses
    ruleWitnesses := localWitnesses regionIds ruleWitnesses }

section Gathered

variable {regionIds : List String} {violations : List ContextViolation}
  {ruleWitnesses : List (String × GivenWitness)} {rest : CompactRegionContext}

end Gathered

/-! ## What the truncation leaves -/

/-- What is left of a context: the first violations, objects and messages, and the witnesses
of the violations that are left. -/
structure KeptFrom (original context : CompactRegionContext) : Prop where
  violations : context.violations <+: original.violations
  editable : context.editableObjectsWithSourceAnchors.map (·.objectId) <+:
    original.editableObjectsWithSourceAnchors.map (·.objectId)
  frozen : context.frozenBoundaryContextObjects.map (·.objectId) <+:
    original.frozenBoundaryContextObjects.map (·.objectId)
  messages : context.neighborMessages <+: original.neighborMessages
  blueprint : context.repairBlueprint = original.repairBlueprint
  witnesses : context.ruleWitnesses.Sublist original.ruleWitnesses
  witnessOf : ∀ witness ∈ original.ruleWitnesses, ∀ violationId ∈ context.violationIds,
    witness.violationId = some violationId → witness ∈ context.ruleWitnesses

namespace KeptFrom

variable {original context next : CompactRegionContext}

theorem refl (context : CompactRegionContext) : KeptFrom context context where
  violations := prefix_refl _
  editable := prefix_refl _
  frozen := prefix_refl _
  messages := prefix_refl _
  blueprint := rfl
  witnesses := Sublist.refl _
  witnessOf := fun _ hwitness _ _ _ => hwitness

theorem violationIds (h : KeptFrom original context) :
    context.violationIds <+: original.violationIds :=
  h.violations.map _

theorem map_clearLastSlice (objects : List ContextObject) :
    (clearLastSlice objects).map (·.objectId) =
      objects.map (·.objectId) := by
  induction objects with
  | nil => rfl
  | cons object rest ih =>
    rw [clearLastSlice]
    split_ifs
    · rw [map_cons, ih, map_cons]
    · rfl

theorem dropSlice (h : KeptFrom original context) : KeptFrom original context.dropSlice := by
  rw [CompactRegionContext.dropSlice]
  split_ifs
  · exact { h with frozen := (map_clearLastSlice _).symm ▸ h.frozen }
  · exact { h with editable := (map_clearLastSlice _).symm ▸ h.editable }

theorem popFrozen (h : KeptFrom original context) : KeptFrom original context.popFrozen :=
  { h with frozen := ((List.dropLast_prefix _).map _).trans h.frozen }

theorem popMessage (h : KeptFrom original context) : KeptFrom original context.popMessage :=
  { h with messages := (List.dropLast_prefix _).trans h.messages }

theorem popEditable (h : KeptFrom original context) : KeptFrom original context.popEditable :=
  { h with editable := ((List.dropLast_prefix _).map _).trans h.editable }

/-- The witness of a violation that stays is not the one of the violation that goes. -/
theorem dropViolation (hnodup : original.violationIds.Nodup) (h : KeptFrom original context) :
    KeptFrom original context.dropViolation where
  violations := (List.dropLast_prefix _).trans h.violations
  editable := h.editable
  frozen := h.frozen
  messages := h.messages
  blueprint := h.blueprint
  witnesses := filter_sublist.trans h.witnesses
  witnessOf := by
    intro witness hwitness violationId hleft hof
    have hids : (context.violations.dropLast).map (·.violationId) =
        context.violationIds.dropLast := map_dropLast
    have hmem : violationId ∈ context.violationIds.dropLast := hids ▸ hleft
    have hkept := h.witnessOf witness hwitness violationId (mem_of_mem_dropLast hmem) hof
    refine mem_filter.2 ⟨hkept, decide_eq_true ?_⟩
    intro hremoved
    have hlast : context.violationIds.getLast? = some violationId := by
      rw [CompactRegionContext.violationIds, getLast?_map, ← hremoved, hof]
    -- the id would be there twice
    have hsplit := dropLast_append_getLast? violationId hlast
    have hcontext : (context.violationIds.dropLast ++ [violationId]).Nodup :=
      hsplit.symm ▸ hnodup.sublist h.violationIds.sublist
    exact (nodup_append.1 hcontext).2.2 violationId hmem violationId
      (mem_singleton_self violationId) rfl

/-- A branch of the loop's body. -/
theorem ite {p : Prop} [Decidable p] {taken : CompactRegionContext}
    {rest : Option CompactRegionContext} (htaken : KeptFrom original taken)
    (hrest : rest = some next → KeptFrom original next)
    (h : (if p then some taken else rest) = some next) : KeptFrom original next := by
  by_cases hp : p
  · rw [if_pos hp] at h
    exact Option.some.inj h ▸ htaken
  · rw [if_neg hp] at h
    exact hrest h

/-- **One removal.** -/
theorem dropOne (hnodup : original.violationIds.Nodup) (h : KeptFrom original context)
    (hnext : context.dropOne = some next) : KeptFrom original next := by
  rw [CompactRegionContext.dropOne] at hnext
  refine ite h.dropSlice (fun hnext => ?_) hnext
  refine ite h.popFrozen (fun hnext => ?_) hnext
  -- fragments, endpoints, landings, adjacencies and histories carry no ids
  refine ite (show KeptFrom original context.popEndpoint from { h with }) (fun hnext => ?_) hnext
  refine ite (show KeptFrom original context.popAdjacency from { h with }) (fun hnext => ?_) hnext
  refine ite (show KeptFrom original context.popLanding from { h with }) (fun hnext => ?_) hnext
  refine ite (show KeptFrom original context.popFailure from { h with }) (fun hnext => ?_) hnext
  refine ite (show KeptFrom original context.popRollback from { h with }) (fun hnext => ?_) hnext
  refine ite h.popMessage (fun hnext => ?_) hnext
  refine ite (h.dropViolation hnodup) (fun hnext => ?_) hnext
  refine ite h.popEditable (fun hnext => ?_) hnext
  refine ite (show KeptFrom original context.popFragment from { h with }) (fun hnext => ?_) hnext
  cases hnext

/-- **A run of removals.** -/
theorem stage (hnodup : original.violationIds.Nodup) {n : ℕ} (h : KeptFrom original context)
    (hstage : context.stage n = some next) : KeptFrom original next := by
  induction n generalizing context with
  | zero => exact Option.some.inj hstage ▸ h
  | succ n ih =>
    obtain ⟨first, hfirst, hrest⟩ := Option.bind_eq_some_iff.1 hstage
    exact ih (h.dropOne hnodup hfirst) hrest

end KeptFrom

/-! ## The map -/

section Map

variable {serializer : CompactRegionContextSerializer} {context : CompactRegionContext}

end Map

/-! ## The finished context -/

namespace CompactRegionContext

end CompactRegionContext

section Finished

variable {serializer : CompactRegionContextSerializer}
  {original kept : CompactRegionContext}

end Finished

end DRCAgent.Prompt
