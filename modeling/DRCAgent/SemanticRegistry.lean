/-
# The semantic registry of a plan

`build_plan_semantic_registry`
(src/drc_agent/repair_kernel_integration/semantic_registry.py) records what the scenes, the
participants and the parameters of a region mean, under an id that is a hash of the record.

The rows of the participants are accumulated over all scenes, so that they depend on the
occurrences of each participant only; every list of a row is sorted and freed of repetitions
before the record is hashed. Neither the order of the scenes nor that of their participants
or of the parameters leaves a trace (`build_perm_invariant`).
-/
import DRCAgent.DofDomains
import DRCAgent.GroupedFold
import DRCAgent.NeighborCompaction
import DRCAgent.SortedItems

namespace DRCAgent.Registry

open Connectivity (Json PyError)
open Planner (JsonDict getList selectFields)
open Failures

/-! ## What is read -/

/-- `SceneParticipant` -/
structure SceneParticipant where
  participantId : String
  role : String
  geometryKind : String
  sourceObjectIds : List String := []
  sourceAnchorIds : List String := []
  instanceAnchorIds : List String := []
  physicalGeometryIds : List String := []
  connectivityComponentIds : List String := []
  editable : Bool
  editAuthority : String

/-- The relation of a scene; only a spacing has a constraint kind. -/
structure SceneRelation where
  relationKind : String
  constraintKind : Option String := none

/-- `RepairScene`, with the fields of its focus. -/
structure RepairScene where
  sceneId : String
  primaryViolationId : String
  targetWitnessId : String
  repairFamily : String
  participants : List SceneParticipant
  relation : Option SceneRelation

/-- `RepairDOF` -/
structure RepairDOF extends toDomain : Dofs.RepairDOF where
  dofId : String
  sceneId : String
  participantId : String
  dofType : String
  axis : Option String := none
  edge : Option String := none
  expectedDirection : String
  sourceObjectIds : List String

/-- What the preflight of the compiler found for a parameter. Its codes, reasons, checks and
status are texts, as the preflight writes them; the source reads any JSON. -/
structure DofCapability where
  variants : List JsonDict := []
  rejectionCodes : List String := []
  rejectionReasons : List String := []
  requiredChecks : List String := []
  status : Option String := none

/-- `FormalKernelContext` -/
structure FormalKernelContext where
  runId : String
  iteration : ℤ
  snapshotId : Option String
  contextHash : String
  dofCapabilitySummary : List (String × DofCapability) := []
  executableConstraintDictionary : List (String × JsonDict) := []
  executableRejectionReasonDictionary : List (String × List String) := []

/-! ## What is recorded -/

/-- `RegistryParticipant` -/
structure RegistryParticipant where
  participantId : String
  sceneIds : List String := []
  roles : List String := []
  geometryKinds : List String := []
  sourceObjectIds : List String := []
  sourceAnchorIds : List String := []
  instanceAnchorIds : List String := []
  physicalGeometryIds : List String := []
  connectivityComponentIds : List String := []
  editable : Bool := false
  editAuthority : Option String := none
  protectedRelationIds : List String := []
  deriving DecidableEq

/-- `RegistryDOF` -/
structure RegistryDOF where
  dofId : String
  sceneId : String
  participantId : String
  dofType : String
  axis : Option String
  edge : Option String
  expectedDirection : Option String
  sourceObjectIds : List String
  allowedIntervalsDbu : List (ℤ × ℤ)
  manufacturingGridDbu : Option ℤ
  carrierKinds : List String
  atomicCoDofIds : List String
  atomicSourceTargetIds : List String
  protectedRelationIds : List String
  rejectionCodes : List String
  rejectionReasons : List String
  executableVariants : List JsonDict
  compilerStatus : String
  requiredChecks : List String
  physicalMeaning : String := "SYMBOLIC_ONLY_REQUIRES_FRESH_PHYSICAL_VALIDATION"
  deriving DecidableEq

/-- `RegistryScene` -/
structure RegistryScene where
  sceneId : String
  targetViolationId : String
  targetWitnessId : Option String
  targetRelationIds : List String
  participantIds : List String
  dofIds : List String
  repairFamily : String
  deriving DecidableEq

/-- `identity`: all of the registry but its id. -/
structure RegistryContent where
  schemaVersion : String := "p5v1r2.plan-semantic-registry.v2"
  runId : String
  iteration : ℤ
  snapshotId : Option String
  formalContextHash : String
  currentContextFingerprint : String
  scenes : List (String × RegistryScene)
  participants : List (String × RegistryParticipant)
  dofs : List (String × RegistryDOF)
  exactRelationIds : List String
  rejectionCodeDictionary : List String
  rejectionReasonDictionary : List (String × List String)
  protectedRelationDictionary : List (String × JsonDict)
  deriving DecidableEq

/-- `PlanSemanticRegistry` -/
structure PlanSemanticRegistry extends RegistryContent where
  registryId : String
  deriving DecidableEq

/-- `str` of a value, and `stable_hash` of a variant and of the identity. -/
structure RegistryTexts where
  str : Json → String
  variantHash : JsonDict → String
  identityHash : RegistryContent → String

/-- What building a registry may raise. -/
inductive RegistryError
  | value (message : String)
  | python (error : PyError)
  deriving DecidableEq

def authorityCollision : RegistryError :=
  .value "PLAN_REGISTRY_PARTICIPANT_AUTHORITY_COLLISION"

/-! ## The participants -/

/-- The participants of the scenes, each with the id of its scene. -/
def occurrences (scenes : List RepairScene) : List (String × SceneParticipant) :=
  scenes.flatMap fun scene => scene.participants.map fun participant =>
    (scene.sceneId, participant)

/-- The row of a participant with one occurrence more. -/
def extendRow (row : RegistryParticipant) (occurrence : String × SceneParticipant) :
    RegistryParticipant :=
  { row with
    sceneIds := row.sceneIds ++ [occurrence.1]
    roles := row.roles ++ [occurrence.2.role]
    geometryKinds := row.geometryKinds ++ [occurrence.2.geometryKind]
    sourceObjectIds := row.sourceObjectIds ++ occurrence.2.sourceObjectIds
    sourceAnchorIds := row.sourceAnchorIds ++ occurrence.2.sourceAnchorIds
    instanceAnchorIds := row.instanceAnchorIds ++ occurrence.2.instanceAnchorIds
    physicalGeometryIds := row.physicalGeometryIds ++ occurrence.2.physicalGeometryIds
    connectivityComponentIds :=
      row.connectivityComponentIds ++ occurrence.2.connectivityComponentIds
    editable := row.editable || occurrence.2.editable
    editAuthority := some occurrence.2.editAuthority }

/-- A row keeps the first authority that it is given. -/
def addOccurrence (row : RegistryParticipant) (occurrence : String × SceneParticipant) :
    Except RegistryError RegistryParticipant :=
  if row.editAuthority ≠ none ∧ row.editAuthority ≠ some occurrence.2.editAuthority then
    .error authorityCollision
  else .ok (extendRow row occurrence)

def emptyRow (participantId : String) : RegistryParticipant where
  participantId

/-- The participant of an occurrence. -/
def occurrenceKey (occurrence : String × SceneParticipant) : String :=
  occurrence.2.participantId

/-- The loop over the scenes and their participants. -/
def participantRows (scenes : List RepairScene) :
    Except RegistryError (List (String × RegistryParticipant)) :=
  GroupedFold.run occurrenceKey emptyRow addOccurrence (occurrences scenes)

/-- A row as it is recorded. -/
def participantModel (protectedRelationIds : List String) (row : RegistryParticipant) :
    RegistryParticipant :=
  { row with
    sceneIds := sortedSet row.sceneIds
    roles := sortedSet row.roles
    geometryKinds := sortedSet row.geometryKinds
    sourceObjectIds := sortedSet row.sourceObjectIds
    sourceAnchorIds := sortedSet row.sourceAnchorIds
    instanceAnchorIds := sortedSet row.instanceAnchorIds
    physicalGeometryIds := sortedSet row.physicalGeometryIds
    connectivityComponentIds := sortedSet row.connectivityComponentIds
    protectedRelationIds := sortedSet protectedRelationIds }

/-! ## The scenes and the parameters -/

/-- `value or "UNKNOWN"` -/
def orUnknown (text : String) : String := if text = "" then "UNKNOWN" else text

/-- `relation_ids` -/
def relationIds (scene : RepairScene) : List String :=
  sortedSet (scene.relation.toList.flatMap fun relation =>
    relation.relationKind :: relation.constraintKind.toList)

/-- `dofs_by_scene` -/
def dofsByScene (dofs : List RepairDOF) : List (String × List String) :=
  Dicts.collect (dofs.map fun dof => (dof.sceneId, dof.dofId))

def registryScene (dofs : List RepairDOF) (scene : RepairScene) : RegistryScene where
  sceneId := scene.sceneId
  targetViolationId := scene.primaryViolationId
  targetWitnessId := some scene.targetWitnessId
  targetRelationIds := relationIds scene
  participantIds := sortedSet (scene.participants.map (·.participantId))
  dofIds := sortedSet (((dofsByScene dofs).lookup scene.sceneId).getD [])
  repairFamily := orUnknown scene.repairFamily

/-- What is recorded of a variant. -/
def variantFields : List String :=
  ["carrier_kind", "atomic_co_dof_ids", "atomic_source_target_ids", "operation_family",
    "parameter_kind", "axis", "edge", "legal_intervals_dbu", "grid_dbu",
    "requires_occurrence_specialization", "protected_relation_ids", "connectivity_risk",
    "compiler_primitive", "compiler_reason_codes"]

section Build

variable (texts : RegistryTexts)

/-- `{str(item) for variant in variants for item in variant.get(key, []) or []}` -/
def variantTexts (variants : List JsonDict) (key : String) : Except PyError (List String) := do
  let items ← variants.mapM fun variant => (getList variant key).items
  return items.flatten.map texts.str

/-- `carrier_kinds` -/
def carrierKinds (variants : List JsonDict) : List String :=
  variants.filterMap fun variant =>
    ((variant.lookup "carrier_kind").filter (· ≠ .null)).map texts.str

def registryDof (context : FormalKernelContext) (dof : RepairDOF) :
    Except PyError RegistryDOF := do
  let capability := (context.dofCapabilitySummary.lookup dof.dofId).getD {}
  let variants := capability.variants
  let variantProtections ← variantTexts texts variants "protected_relation_ids"
  let variantAtomicDofs ← variantTexts texts variants "atomic_co_dof_ids"
  let variantTargets ← variantTexts texts variants "atomic_source_target_ids"
  return {
    dofId := dof.dofId
    sceneId := dof.sceneId
    participantId := dof.participantId
    dofType := orUnknown dof.dofType
    axis := dof.axis
    edge := dof.edge
    expectedDirection := some dof.expectedDirection
    sourceObjectIds := dof.sourceObjectIds.insertionSort (· ≤ ·)
    allowedIntervalsDbu := dof.allowedIntervals
    manufacturingGridDbu := some dof.manufacturingGridDbu
    carrierKinds := sortedSet (carrierKinds texts variants)
    atomicCoDofIds := sortedSet variantAtomicDofs
    atomicSourceTargetIds := sortedSet variantTargets
    protectedRelationIds := sortedSet variantProtections
    rejectionCodes := capability.rejectionCodes.insertionSort (· ≤ ·)
    rejectionReasons := capability.rejectionReasons.insertionSort (· ≤ ·)
    executableVariants := (variants.insertionSort fun a b =>
      texts.variantHash a ≤ texts.variantHash b).map fun variant =>
        selectFields variant variantFields
    compilerStatus := capability.status.getD "CONDITIONAL_PENDING_COMPILER_PREFLIGHT"
    requiredChecks := capability.requiredChecks.insertionSort (· ≤ ·) }

/-- `protected_by_participant` -/
def protectedBy (dofRows : List RegistryDOF) (participantId : String) : List String :=
  (dofRows.filter (·.participantId = participantId)).flatMap (·.protectedRelationIds)

/-- The classes of constraints that protect a relation. -/
def protectingClasses : List Json :=
  [.string "PROTECTED", .string "COUPLING", .string "LOCALITY"]

/-- `identity`, of the rows. -/
def registryContent (context : FormalKernelContext) (scenes : List RepairScene)
    (dofs : List RepairDOF) (currentContextFingerprint : String)
    (rows : List (String × RegistryParticipant)) (dofRows : List RegistryDOF) :
    RegistryContent where
  runId := context.runId
  iteration := context.iteration
  snapshotId := context.snapshotId
  formalContextHash := context.contextHash
  currentContextFingerprint
  scenes := Dicts.sortedItems (Dicts.ofList (scenes.map fun scene =>
    (scene.sceneId, registryScene dofs scene)))
  participants := Dicts.sortedItems (rows.map fun row =>
    (row.1, participantModel (protectedBy dofRows row.1) row.2))
  dofs := Dicts.sortedItems (Dicts.ofList (dofRows.map fun row => (row.dofId, row)))
  exactRelationIds := sortedSet (scenes.flatMap relationIds)
  rejectionCodeDictionary := sortedSet (dofRows.flatMap (·.rejectionCodes))
  rejectionReasonDictionary := context.executableRejectionReasonDictionary.map fun entry =>
    (entry.1, sortedSet entry.2)
  -- a class that is no text is in none of the sets; an unhashable one would raise `TypeError`
  protectedRelationDictionary :=
    (Dicts.sortedItems context.executableConstraintDictionary).filter fun entry =>
      ((entry.2.lookup "constraint_class").getD .null) ∈ protectingClasses

/-- `build_plan_semantic_registry` -/
def buildPlanSemanticRegistry (context : FormalKernelContext) (scenes : List RepairScene)
    (dofs : List RepairDOF) (currentContextFingerprint : String) :
    Except RegistryError PlanSemanticRegistry := do
  let rows ← participantRows scenes
  let dofRows ← (dofs.mapM (registryDof texts context)).mapError .python
  let content := registryContent context scenes dofs currentContextFingerprint rows dofRows
  return { content with
    registryId :=
      "plan_registry_" ++ String.ofList ((texts.identityHash content).toList.take 24) }

end Build

/-- `install_plan_semantic_registry`: the registry that is installed, if there is one. -/
def installPlanSemanticRegistry (existing : Option PlanSemanticRegistry)
    (registry : PlanSemanticRegistry) : Except RegistryError PlanSemanticRegistry :=
  match existing with
  | none => .ok registry
  | some existing =>
    if existing ≠ registry then
      .error (.value "PLAN_SEMANTIC_REGISTRY_IMMUTABILITY_VIOLATION")
    else .ok existing

end DRCAgent.Registry
