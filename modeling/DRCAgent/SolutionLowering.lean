/-
# Lowering solutions to programs

`build_solution_specialization_programs` (edit_authority/proposals.py): each solution of the
geometry solver becomes a program that rewrites single occurrences of cells, or is rejected with a
code.

Main result:

* `accounts_lowerLoops`: the loops of a solution record rejections of this solution only, and none
  unless they fail.
-/
import DRCAgent.ClosedCarriers

namespace DRCAgent.EditAuthority

open List Regions

/-! ## The source -/

structure GeometrySolution where
  solutionId : String
  selectedDofIds : List String := []
  operations : List RepairOperation

structure Dof where
  dofId : String
  participantId : String
  sourceObjectIds : List String

structure LoweredProgram where
  programId : String
  regionId : String
  targetViolationIds : List String
  witnessIds : List String
  operations : List RepairOperation
  strategyCode : String
  deriving DecidableEq

/-- A record of `rejections`. -/
structure Rejection where
  stage : String := "SPECIALIZATION_LOWERING"
  code : String
  solutionId : String
  selectedDofIds : List String
  sourceObjectId : Option String

/-- The scene, the authority and the context of a call. `sceneDofs` is what the imported
`generate_repair_dofs` returns for the scene; `occurrenceTransform`, `rectanglePoints` and the
hashes are functions that are called. -/
structure LoweringCall where
  scene : LoweringScene
  sceneDofs : List Dof
  insertionOwnerByLayer : List (String × String)
  objects : List SourceObject
  physical : List PhysicalGeometry
  editableIds : List String
  caseId : String
  occurrenceTransform : List Point → PhysicalGeometry → Option OccurrenceTransform
  rectanglePoints : Box → List Point
  projectionId : Option String → String → List Point → String
  /-- `stable_hash([scene_id, operations])[:20]` -/
  programDigest : String → List RepairOperation → String
  /-- `stable_hash(item.model_dump(mode="json"))` -/
  contentHash : LoweredProgram → String

/-- The variables of the turn of one solution. -/
structure LoweringState where
  rejections : List Rejection
  failed : Bool := false
  replacements : List InstanceLayerReplacement := []
  replacementsByOwner : List (String × List InstanceLayerReplacement) := []
  directOperations : List EditOperation := []
  closedDirectMoves : List (String × ℤ × ℤ) := []
  closedOccurrenceMoves : List (List PhysicalGeometry × ℤ × ℤ) := []

/-- `reject` -/
def rejection (solution : GeometrySolution) (code : String) (sourceId : Option String := none) :
    Rejection where
  code := code
  solutionId := solution.solutionId
  selectedDofIds := solution.selectedDofIds
  sourceObjectId := sourceId

namespace LoweringState

variable (s : LoweringState)

/-- `failed = True`, before a `break`. -/
def fail : LoweringState := { s with failed := true }

/-- `reject(...)`, `failed = True`, before a `break`. -/
def rejectWith (solution : GeometrySolution) (code : String) (sourceId : Option String := none) :
    LoweringState :=
  { s with rejections := s.rejections ++ [rejection solution code sourceId], failed := true }

/-- Replacements of an owner. -/
def supply (owner : String) (added : List InstanceLayerReplacement) : LoweringState :=
  { s with
    replacements := s.replacements ++ added
    replacementsByOwner := added.foldl (fun dict r => Dicts.append owner r dict)
      s.replacementsByOwner }

/-- The replacements of some occurrences are dropped, and the owners that are left with none. -/
def dropAnchors (anchors : List String) : LoweringState :=
  { s with
    replacements := s.replacements.filter (·.instanceAnchorId ∉ anchors)
    replacementsByOwner := (s.replacementsByOwner.map fun entry =>
      (entry.1, entry.2.filter (·.instanceAnchorId ∉ anchors))).filter (·.2 ≠ []) }

end LoweringState

/-- A loop whose body breaks when it has set `failed`. -/
def untilFailed {α : Type} (body : α → LoweringState → LoweringState) :
    List α → LoweringState → LoweringState
  | [], s => s
  | x :: xs, s =>
    let after := body x s
    if after.failed then after else untilFailed body xs after

/-- The moves of the operations of a source. -/
def movesOf (operations : List EditOperation) : List MoveObjectOp :=
  operations.filterMap EditOperation.asMove

/-- `len(translations) == len(source_operations)` -/
def onlyMoves (operations : List EditOperation) : Bool :=
  (movesOf operations).length = operations.length

def sumDx (operations : List EditOperation) : ℤ := ((movesOf operations).map (·.dxDbu)).sum

def sumDy (operations : List EditOperation) : ℤ := ((movesOf operations).map (·.dyDbu)).sum

/-- `scene.repair_family in {SPACING, ALIGNMENT}` -/
def RepairFamily.closesMoves (family : RepairFamily) : Bool :=
  family = .spacing || family = .alignment

/-- The operations on the box of the target polygon, one after the other. -/
def applyOperations (box : Box) (operations : List EditOperation) : Option Box :=
  operations.foldlM applyRectilinearOperation box

namespace LoweringCall

variable (call : LoweringCall)

/-- `objects`, as the helpers read them. -/
def shapes : List ShapedObject := call.objects.map (·.toShapedObject)

/-- `object_by_id.get` -/
def objectById (objectId : String) : Option SourceObject :=
  call.objects.reverse.find? (·.objectId = objectId)

/-- `participants_by_id.get` -/
def participantById (participantId : String) : Option SceneParticipant :=
  call.scene.participants.reverse.find? (·.participantId = participantId)

/-- `scene_dof_by_id.get` -/
def dofById (dofId : String) : Option Dof := call.sceneDofs.reverse.find? (·.dofId = dofId)

/-- `participant_by_source.get(source_id, [])`: a participant counts as often as it names the
source. -/
def participantBySource (sourceId : String) : List SceneParticipant :=
  (call.scene.participants.filter (·.instanceAnchorIds ≠ [])).flatMap fun participant =>
    (participant.sourceObjectIds.filter (· = sourceId)).map fun _ => participant

/-- `projection_geometry_ids_by_source.get(source_id, set())` -/
def projectionGeometryIds (sourceId : String) : List String :=
  (call.scene.boundaryContributors.flatten.filter fun boundary =>
    sourceId ∈ boundary.sourceObjectIds).flatMap (·.physicalGeometryIds)

/-- `selected_participants_by_source.get(source_id, set())` -/
def selectedParticipantIds (solution : GeometrySolution) (sourceId : String) : List String :=
  ((solution.selectedDofIds.filterMap call.dofById).filter fun dof =>
    sourceId ∈ dof.sourceObjectIds).map (·.participantId)

/-- The via and the layer of the metal of a via-metal relation. -/
def viaContext : Option SceneParticipant × Option String :=
  match call.scene.repairFamily, call.scene.relation with
  | .viaMetalContextual, .viaMetal relation =>
    (call.participantById relation.viaParticipantId,
      (call.participantById relation.metalParticipantId).map (·.layer))
  | _, _ => (none, none)

/-- `specialization_anchor` -/
def specializationAnchor (solutions : List GeometrySolution) : Option String :=
  let solutionSourceIds := (solutions.flatMap fun solution =>
    (solution.operations.filterMap RepairOperation.asEdit).map (·.targetObjectId)).filter (· ≠ "")
  ((call.objects.insertionSort fun a b => a.objectId ≤ b.objectId).find? fun item =>
    item.objectId ∈ solutionSourceIds && item.isAnchor).map (·.objectId)

/-- The participants of a source, among the selected ones where some are selected. -/
def participantsOf (solution : GeometrySolution) (sourceId : String) : List SceneParticipant :=
  let selected := call.selectedParticipantIds solution sourceId
  if selected ≠ [] then
    (call.participantBySource sourceId).filter (·.participantId ∈ selected)
  else call.participantBySource sourceId

/-- `occurrences` -/
def occurrencesOf (participant : Option SceneParticipant) (sourceId : String) :
    List PhysicalGeometry :=
  let targetIds := match participant with
    | some participant => participant.physicalGeometryIds
    | none => call.projectionGeometryIds sourceId
  (call.physical.filter fun item => item.geometryId ∈ targetIds &&
      item.sourceObjectId = some sourceId && item.instanceAnchorId.isSome).insertionSort
    fun a b => toLex (pyStr a.instanceAnchorId, a.geometryId) ≤
      toLex (pyStr b.instanceAnchorId, b.geometryId)

/-- `owner`, for the source of an occurrence that is edited. -/
def declarationOwner (anchor : Option String) (sourceId layer : String) : Option String :=
  if ((call.objectById sourceId).any SourceObject.isAnchor) then some sourceId
  else
    match call.insertionOwnerByLayer.lookup layer with
    | some owner => some owner
    | none =>
      -- any insertion owner will do, and without one the anchor of the solutions
      match ((call.insertionOwnerByLayer.map (·.2)).insertionSort (· ≤ ·)).head? with
      | some owner => some owner
      | none => anchor

/-- `owner`, for the source of an occurrence that moves along. -/
def carrierOwner (anchor : Option String) (source : SourceObject) (layer : String) :
    Option String :=
  if source.isAnchor then some source.objectId
  else
    match call.insertionOwnerByLayer.lookup layer with
    | some owner => some owner
    | none => anchor

/-- `marker_edge` -/
def markerEdge (sourceId : String) : Option MarkerEdge :=
  match call.scene.relation with
  | .spacing relation =>
    if (call.participantById relation.participantAId).any (sourceId ∈ ·.sourceObjectIds) then
      relation.participantAMarkerEdge
    else if (call.participantById relation.participantBId).any (sourceId ∈ ·.sourceObjectIds) then
      relation.participantBMarkerEdge
    else none
  | _ => none

/-- The occurrence, as the translation of a whole occurrence reads it. -/
def translated (representative : PhysicalGeometry) : FlattenedPhysicalGeometry where
  sourceObjectId := pyStr representative.sourceObjectId
  sourceCell := representative.sourceCell
  instanceAnchorId := pyStr representative.instanceAnchorId

/-- The branch of an occurrence whose operations are all moves. -/
def lowerTranslation (solution : GeometrySolution) (sourceId : String)
    (operations : List EditOperation) (owner : String) (occurrences : List PhysicalGeometry)
    (representative : PhysicalGeometry) (index : ℕ) (source : SourceObject)
    (t : OccurrenceTransform) (s : LoweringState) : LoweringState :=
  let layers := cellLayers call.shapes representative.sourceCell none
  if call.scene.repairFamily = .spacing ∧ 4 < layers.length then
    match call.markerEdge sourceId with
    | none => s.rejectWith solution "LOWERING_FRAGMENT_EDGE_MISSING" sourceId
    | some edge =>
      match localFragmentTranslationReplacement call.occurrenceTransform representative sourceId
          source call.shapes call.caseId (sumDx operations) (sumDy operations) edge with
      | none => s.rejectWith solution "LOWERING_FRAGMENT_NOT_REPRESENTABLE" sourceId
      | some fragment => s.supply owner [fragment]
  else
    let noted :=
      if index = 0 ∧ call.scene.repairFamily.closesMoves then
        { s with closedOccurrenceMoves := s.closedOccurrenceMoves ++
            [(occurrences, sumDx operations, sumDy operations)] }
      else s
    noted.supply owner (layers.map (translatedLayer (translated representative) call.shapes
      call.caseId t (sumDx operations) (sumDy operations)))

/-- One polygon of the cell: the target is resized, with its box, or there is a code. -/
def resizePolygon (sourceId : String) (operations : List EditOperation) (t : OccurrenceTransform)
    (item : ShapedObject) : Except String (List Point × Option Box) :=
  let polygon := localPolygon item
  if item.objectId ≠ sourceId then .ok (polygon, none)
  else
    match polygon.map t.transform with
    | [p, q, r, v] =>
      match applyOperations (Candidates.hull p [q, r, v]) operations with
      | none => .error "LOWERING_INVALID_RECTANGLE_OPERATION"
      | some changed =>
        .ok (canonicalPolygon ((call.rectanglePoints changed).map t.inverse), some changed)
    | _ => .error "LOWERING_NON_RECTANGULAR_TARGET"

/-- `replacement_local` and `changed_target_box`, which the last resized polygon sets. -/
def resizePolygons (sourceId : String) (operations : List EditOperation) (t : OccurrenceTransform)
    (members : List ShapedObject) : Except String (List (List Point) × Option Box) := do
  let resized ← members.mapM (call.resizePolygon sourceId operations t)
  .ok (resized.map (·.1), (resized.filterMap (·.2)).getLast?)

/-- The via that has to be kept inside its landings. -/
def viaChange (relationMetalLayer : String) (representative : PhysicalGeometry) (changedVia : Box)
    (t : OccurrenceTransform) : ViaChange where
  rectanglePoints := call.rectanglePoints
  projectionId := call.projectionId
  representative := representative
  changedVia := changedVia
  relationMetalLayer := relationMetalLayer
  objects := call.shapes
  physical := call.physical
  transform := t
  caseId := call.caseId

/-- The landings of a resized via. -/
def closeVia (solution : GeometrySolution) (sourceId owner : String)
    (representative : PhysicalGeometry) (t : OccurrenceTransform) (changedTargetBox : Option Box)
    (s : LoweringState) : LoweringState :=
  match changedTargetBox, call.viaContext with
  | some changed, (some via, some metalLayer) =>
    if sourceId ∈ via.sourceObjectIds then
      match (call.viaChange metalLayer representative changed
          t).viaStackContainmentReplacements with
      | none => s.rejectWith solution "LOWERING_VIA_STACK_CLOSURE_UNAVAILABLE" sourceId
      | some closure => s.supply owner closure
    else s
  | _, _ => s

/-- The branch of an occurrence with an operation that is not a move. -/
def lowerResize (solution : GeometrySolution) (sourceId : String)
    (operations : List EditOperation) (owner : String) (representative : PhysicalGeometry)
    (t : OccurrenceTransform) (s : LoweringState) : LoweringState :=
  let members := layerObjects call.shapes representative.sourceCell representative.layer
  if members = [] then s.rejectWith solution "LOWERING_CELL_GEOMETRY_MISSING" sourceId
  else
    match call.resizePolygons sourceId operations t members with
    | .error code => s.rejectWith solution code sourceId
    | .ok (replacementLocal, changedTargetBox) =>
      call.closeVia solution sourceId owner representative t changedTargetBox
        (s.supply owner
          [{ instanceAnchorId := pyStr representative.instanceAnchorId
             parentCell := "cell_" ++ call.caseId
             sourceCell := pyStr representative.sourceCell
             layer := representative.layer
             transform := t
             originalPolygonsLocalDbu := members.map localPolygon
             replacementPolygonsLocalDbu := replacementLocal }])

/-- The turn of one occurrence of a source. -/
def lowerOccurrence (solution : GeometrySolution) (sourceId : String)
    (operations : List EditOperation) (owner : String) (occurrences : List PhysicalGeometry)
    (turn : PhysicalGeometry × ℕ) (s : LoweringState) : LoweringState :=
  match call.objectById sourceId with
  | none => s.rejectWith solution "LOWERING_TRANSFORM_UNRESOLVED" sourceId
  | some source =>
    match call.occurrenceTransform (source.geometryDbu.getD []) turn.1 with
    | none => s.rejectWith solution "LOWERING_TRANSFORM_UNRESOLVED" sourceId
    | some t =>
      if onlyMoves operations then
        call.lowerTranslation solution sourceId operations owner occurrences turn.1 turn.2
          source t s
      else call.lowerResize solution sourceId operations owner turn.1 t s

/-- The turn of one source of a solution. -/
def lowerSource (anchor : Option String) (solution : GeometrySolution)
    (turn : String × List EditOperation) (s : LoweringState) : LoweringState :=
  if turn.1 ∈ call.editableIds then
    -- an editable source is edited where it is
    let direct := { s with directOperations := s.directOperations ++ turn.2 }
    if call.scene.repairFamily.closesMoves && onlyMoves turn.2 then
      { direct with closedDirectMoves := direct.closedDirectMoves ++
          [(turn.1, sumDx turn.2, sumDy turn.2)] }
    else direct
  else
    let participants := call.participantsOf solution turn.1
    if 1 < participants.length then
      s.rejectWith solution "LOWERING_MULTIPLE_PARTICIPANTS" turn.1
    else
      match call.occurrencesOf participants.head? turn.1 with
      | [] => s.rejectWith solution "LOWERING_OCCURRENCE_NOT_RESOLVED" turn.1
      | first :: rest =>
        let layer := (participants.head?.map (·.layer)).getD first.layer
        match call.declarationOwner anchor turn.1 layer with
        | none => s.rejectWith solution "LOWERING_DECLARATION_OWNER_MISSING" turn.1
        | some owner =>
          untilFailed (call.lowerOccurrence solution turn.1 turn.2 owner (first :: rest))
            (first :: rest).zipIdx s

/-- An occurrence that moves along: without a source, a transform or an owner the loop breaks, and
no code is recorded here. -/
def translateCarrier (anchor : Option String) (globalDx globalDy : ℤ) (layerOf : String → String)
    (representative : PhysicalGeometry) (s : LoweringState) : LoweringState :=
  let replacements := translatedOccurrenceReplacements
    (fun geometry _ => call.occurrenceTransform geometry representative)
    (translated representative) call.shapes
    (fun objectId => (call.objectById objectId).map (·.toShapedObject)) call.caseId globalDx globalDy
    (closedOccurrenceLayerScope call.scene.repairFamily (layerOf representative.layer))
  match replacements, call.objectById (pyStr representative.sourceObjectId) with
  | some replacements, some source =>
    match call.carrierOwner anchor source representative.layer with
    | none => s.fail
    | some owner => s.supply owner replacements
  | _, _ => s.fail

/-- A direct member of a component has to be editable, and moves with it. -/
def coupleDirect (solution : GeometrySolution) (globalDx globalDy : ℤ) (sourceId : String)
    (s : LoweringState) : LoweringState :=
  if sourceId ∉ call.editableIds then
    s.rejectWith solution "LOWERING_CLOSURE_AUTHORITY_DENIED" sourceId
  else
    let existing := (movesOf s.directOperations).filter (·.targetObjectId = sourceId)
    if existing.any fun item => item.dxDbu ≠ globalDx || item.dyDbu ≠ globalDy then
      s.rejectWith solution "LOWERING_INCONSISTENT_COUPLED_MOVE" sourceId
    else if existing = [] then
      { s with directOperations := s.directOperations ++ [.move ⟨sourceId, globalDx, globalDy⟩] }
    else s

/-- The turn of one moved occurrence group. -/
def closeOccurrenceMove (anchor : Option String) (solution : GeometrySolution)
    (move : List PhysicalGeometry × ℤ × ℤ) (s : LoweringState) : LoweringState :=
  if mayPreserveExternalMetalContributors call.scene.relation move.1 call.physical move.2.1
      move.2.2 then s
  else
    match closedSameLayerComponent move.1 call.physical with
    | none => s.rejectWith solution "LOWERING_COMPONENT_UNBOUNDED"
    | some component =>
      let seedAnchors := move.1.filterMap (·.instanceAnchorId)
      let directSources := (component.filter (·.instanceAnchorId.isNone)).filterMap
        (·.sourceObjectId)
      let coupled := untilFailed (call.coupleDirect solution move.2.1 move.2.2)
        (sortedSet directSources) s
      if coupled.failed then coupled
      else
        let occurrenceByAnchor := leastByAnchor (component.filter hasLineage)
        if 4 < occurrenceByAnchor.length then
          coupled.rejectWith solution "LOWERING_OCCURRENCE_BOUND_EXCEEDED"
        else
          untilFailed (call.translateCarrier anchor move.2.1 move.2.2 id)
            (((Dicts.sortedItems occurrenceByAnchor).filter (·.1 ∉ seedAnchors)).map (·.2)) coupled

/-- The turn of one moved direct source. -/
def closeDirectMove (anchor : Option String) (solution : GeometrySolution)
    (move : String × ℤ × ℤ) (s : LoweringState) : LoweringState :=
  match call.objectById move.1 with
  | none => s.rejectWith solution "LOWERING_DIRECT_SOURCE_MISSING" move.1
  | some direct =>
    match closedDirectMetalOccurrences direct call.physical with
    | none => s.rejectWith solution "LOWERING_DIRECT_OCCURRENCE_BOUND_EXCEEDED" move.1
    | some occurrences =>
      untilFailed (call.translateCarrier anchor move.2.1 move.2.2 fun _ => direct.layer)
        occurrences (s.dropAnchors (occurrences.map fun item => pyStr item.instanceAnchorId))

/-- `sorted(operations_by_source.items())` -/
def operationsBySource (operations : List EditOperation) : List (String × List EditOperation) :=
  (sortedSet (operations.map (·.targetObjectId))).map fun sourceId =>
    (sourceId, operations.filter (·.targetObjectId = sourceId))

/-- The loops of one solution. -/
def lowerLoops (anchor : Option String) (solution : GeometrySolution)
    (operations : List EditOperation) (rejections : List Rejection) : LoweringState :=
  let sources := untilFailed (call.lowerSource anchor solution) (operationsBySource operations)
    { rejections := rejections }
  let occurrences :=
    if !sources.failed && sources.closedDirectMoves = [] then
      untilFailed (call.closeOccurrenceMove anchor solution) sources.closedOccurrenceMoves sources
    else sources
  if !occurrences.failed then
    untilFailed (call.closeDirectMove anchor solution) occurrences.closedDirectMoves occurrences
  else occurrences

/-- The program of the operations of a solution. -/
def program (operations : List RepairOperation) : LoweredProgram where
  programId := "phase3r_program_" ++ call.programDigest call.scene.sceneId operations
  regionId := call.scene.regionId
  targetViolationIds := [call.scene.primaryViolationId]
  witnessIds := [call.scene.targetWitnessId]
  operations := operations
  strategyCode := "PHASE3_" ++ call.scene.repairFamily.value ++ "_INSTANCE_SPECIALIZATION"

/-- What follows the loops: the rejections, and the program where there is one. -/
def finish (solution : GeometrySolution) (s : LoweringState) :
    List Rejection × Option LoweredProgram :=
  let specializedInstances := (s.replacements.map (·.instanceAnchorId)).toFinset.card
  let specializations := groupSpecializationOperations s.replacementsByOwner
  if s.failed then
    -- a loop that broke without a code
    if s.rejections.any (·.solutionId = solution.solutionId) then (s.rejections, none)
    else (s.rejections ++ [rejection solution "LOWERING_CLOSED_CARRIER_UNRESOLVED"], none)
  else if s.replacements = [] then
    (s.rejections ++ [rejection solution "LOWERING_EMPTY_REPLACEMENTS"], none)
  else if 4 < specializedInstances then
    (s.rejections ++ [rejection solution "LOWERING_OCCURRENCE_BOUND_EXCEEDED"], none)
  else
    match specializations with
    | none => (s.rejections ++ [rejection solution "LOWERING_REPLACEMENT_GROUP_REJECTED"], none)
    | some specializations =>
      let operations := s.directOperations.map .edit ++
        specializations.map .specializeInstanceLayer
      if 4 < operations.length then
        (s.rejections ++ [rejection solution "LOWERING_OPERATION_BOUND_EXCEEDED"], none)
      else (s.rejections, some (call.program operations))

/-- The turn of one solution. -/
def lowerSolution (anchor : Option String) (rejections : List Rejection)
    (solution : GeometrySolution) : List Rejection × Option LoweredProgram :=
  match solution.operations.mapM RepairOperation.asEdit with
  | none => (rejections ++ [rejection solution "LOWERING_UNSUPPORTED_OPERATION"], none)
  | some operations =>
    if operations = [] then
      (rejections ++ [rejection solution "LOWERING_EMPTY_OPERATIONS"], none)
    else call.finish solution (call.lowerLoops anchor solution operations rejections)

/-- The turns of the solutions: the program of each, where there is one, and the rejections. -/
def lowerAll (anchor : Option String) :
    List GeometrySolution → List Rejection → List (Option LoweredProgram) × List Rejection
  | [], rejections => ([], rejections)
  | solution :: rest, rejections =>
    let turn := call.lowerSolution anchor rejections solution
    let later := lowerAll anchor rest turn.1
    (turn.2 :: later.1, later.2)

/-- `unique.setdefault(...)` -/
def setdefault (unique : List (String × LoweredProgram)) (item : LoweredProgram) :
    List (String × LoweredProgram) :=
  match unique.lookup (call.contentHash item) with
  | some _ => unique
  | none => Dicts.insert (call.contentHash item) item unique

/-- `list(unique.values())` -/
def uniquePrograms (programs : List LoweredProgram) : List LoweredProgram :=
  (programs.foldl call.setdefault []).map (·.2)

/-- **`build_solution_specialization_programs`**, with the list the rejections are added to. -/
def buildSolutionSpecializationPrograms (solutions : List GeometrySolution)
    (rejections : List Rejection) : List LoweredProgram × List Rejection :=
  let turns := call.lowerAll (call.specializationAnchor solutions) solutions rejections
  (call.uniquePrograms turns.1.reduceOption, turns.2)

end LoweringCall

/-! ## What a turn records -/

/-- Rejections of one solution are added, and none unless the turn has failed. -/
structure Accounts (solutionId : String) (s after : LoweringState) : Prop where
  recorded : ∃ new, after.rejections = s.rejections ++ new ∧ ∀ r ∈ new, r.solutionId = solutionId
  kept : after.failed = false → after.rejections = s.rejections

section Accounts

variable {solutionId : String} {s middle after : LoweringState}

/-- A step that records nothing. -/
theorem accounts_of_eq (h : after.rejections = s.rejections) : Accounts solutionId s after :=
  ⟨⟨[], by rw [h, List.append_nil], by simp⟩, fun _ => h⟩

theorem accounts_rejectWith (solution : GeometrySolution) (code : String)
    (sourceId : Option String) :
    Accounts solution.solutionId s (s.rejectWith solution code sourceId) := by
  refine ⟨⟨[rejection solution code sourceId], rfl, ?_⟩, fun h => ?_⟩
  · intro r hr
    rw [List.mem_singleton.1 hr]
    rfl
  · exact absurd h (by simp [LoweringState.rejectWith])

/-- A step after one that records nothing. -/
theorem Accounts.of_eq (h : Accounts solutionId middle after)
    (heq : middle.rejections = s.rejections) : Accounts solutionId s after :=
  ⟨heq ▸ h.recorded, fun hfailed => (h.kept hfailed).trans heq⟩

/-- A step after one that has not failed. -/
theorem Accounts.trans (h : Accounts solutionId s middle) (hmiddle : middle.failed = false)
    (h' : Accounts solutionId middle after) : Accounts solutionId s after :=
  h'.of_eq (h.kept hmiddle)

/-- **A loop** records what its turns record. -/
theorem accounts_untilFailed {α : Type} {body : α → LoweringState → LoweringState}
    (hbody : ∀ x s, Accounts solutionId s (body x s)) (xs : List α) (s : LoweringState) :
    Accounts solutionId s (untilFailed body xs s) := by
  induction xs generalizing s with
  | nil => exact accounts_of_eq rfl
  | cons x xs ih =>
    show Accounts solutionId s (if (body x s).failed then body x s
      else untilFailed body xs (body x s))
    cases hfailed : (body x s).failed with
    | true =>
      rw [if_pos rfl]
      exact hbody x s
    | false =>
      rw [if_neg Bool.false_ne_true]
      exact (hbody x s).trans hfailed (ih _)

end Accounts

namespace LoweringCall

variable {call : LoweringCall} {anchor : Option String} {solution : GeometrySolution}
  {sourceId owner : String} {operations : List EditOperation} {s : LoweringState}

theorem accounts_lowerTranslation (occurrences : List PhysicalGeometry)
    (representative : PhysicalGeometry) (index : ℕ) (source : SourceObject)
    (t : OccurrenceTransform) :
    Accounts solution.solutionId s (call.lowerTranslation solution sourceId operations owner
      occurrences representative index source t s) := by
  rw [lowerTranslation]
  dsimp only
  split_ifs with hfragment hnote
  · -- the fragment of a cell with many layers
    cases call.markerEdge sourceId with
    | none => exact accounts_rejectWith _ _ _
    | some edge =>
      dsimp only
      split
      · exact accounts_rejectWith _ _ _
      · exact accounts_of_eq rfl
  · exact accounts_of_eq rfl
  · exact accounts_of_eq rfl

theorem accounts_closeVia (representative : PhysicalGeometry) (t : OccurrenceTransform)
    (changedTargetBox : Option Box) :
    Accounts solution.solutionId s
      (call.closeVia solution sourceId owner representative t changedTargetBox s) := by
  unfold closeVia
  split
  · split_ifs
    · split
      · exact accounts_rejectWith _ _ _
      · exact accounts_of_eq rfl
    · exact accounts_of_eq rfl
  · exact accounts_of_eq rfl

/-- A resized source is accounted for. -/
theorem accounts_lowerResize (representative : PhysicalGeometry) (t : OccurrenceTransform) :
    Accounts solution.solutionId s
      (call.lowerResize solution sourceId operations owner representative t s) := by
  rw [lowerResize]
  split_ifs
  · exact accounts_rejectWith _ _ _
  · split
    · exact accounts_rejectWith _ _ _
    · -- the replacement is supplied before the landings are looked at
      exact (accounts_closeVia representative t _).of_eq rfl

/-- So is each occurrence. -/
theorem accounts_lowerOccurrence (occurrences : List PhysicalGeometry)
    (turn : PhysicalGeometry × ℕ) (s : LoweringState) :
    Accounts solution.solutionId s
      (call.lowerOccurrence solution sourceId operations owner occurrences turn s) := by
  rw [lowerOccurrence]
  split
  · exact accounts_rejectWith _ _ _
  · split
    · exact accounts_rejectWith _ _ _
    · split_ifs
      · exact accounts_lowerTranslation _ _ _ _ _
      · exact accounts_lowerResize _ _

/-- So is each source. -/
theorem accounts_lowerSource (turn : String × List EditOperation) (s : LoweringState) :
    Accounts solution.solutionId s (call.lowerSource anchor solution turn s) := by
  rw [lowerSource]
  dsimp only
  split_ifs
  · exact accounts_of_eq rfl
  · exact accounts_of_eq rfl
  · exact accounts_rejectWith _ _ _
  · split
    · exact accounts_rejectWith _ _ _
    · split
      · exact accounts_rejectWith _ _ _
      · exact accounts_untilFailed (accounts_lowerOccurrence _) _ _

theorem accounts_translateCarrier {solutionId : String} (globalDx globalDy : ℤ)
    (layerOf : String → String) (representative : PhysicalGeometry) (s : LoweringState) :
    Accounts solutionId s
      (call.translateCarrier anchor globalDx globalDy layerOf representative s) := by
  rw [translateCarrier]
  split
  · split
    · exact accounts_of_eq rfl
    · exact accounts_of_eq rfl
  · exact accounts_of_eq rfl

theorem accounts_coupleDirect (globalDx globalDy : ℤ) (sourceId : String) (s : LoweringState) :
    Accounts solution.solutionId s (call.coupleDirect solution globalDx globalDy sourceId s) := by
  rw [coupleDirect]
  split_ifs with hdenied
  · dsimp only
    split_ifs
    · exact accounts_rejectWith _ _ _
    · exact accounts_of_eq rfl
    · exact accounts_of_eq rfl
  · exact accounts_rejectWith _ _ _

/-- So is the move of an occurrence. -/
theorem accounts_closeOccurrenceMove (move : List PhysicalGeometry × ℤ × ℤ) (s : LoweringState) :
    Accounts solution.solutionId s (call.closeOccurrenceMove anchor solution move s) := by
  rw [closeOccurrenceMove]
  split_ifs
  · exact accounts_of_eq rfl
  · split
    · exact accounts_rejectWith _ _ _
    · rename_i component _
      dsimp only
      have hcoupled := accounts_untilFailed
        (@accounts_coupleDirect call solution move.2.1 move.2.2)
        (sortedSet ((component.filter (·.instanceAnchorId.isNone)).filterMap (·.sourceObjectId))) s
      split_ifs with hfailed hbound
      · exact hcoupled
      · exact hcoupled.trans (Bool.not_eq_true _ ▸ hfailed) (accounts_rejectWith _ _ _)
      · exact hcoupled.trans (Bool.not_eq_true _ ▸ hfailed)
          (accounts_untilFailed (accounts_translateCarrier _ _ _) _ _)

theorem accounts_closeDirectMove (move : String × ℤ × ℤ) (s : LoweringState) :
    Accounts solution.solutionId s (call.closeDirectMove anchor solution move s) := by
  rw [closeDirectMove]
  split
  · exact accounts_rejectWith _ _ _
  · split
    · exact accounts_rejectWith _ _ _
    · exact (accounts_untilFailed (accounts_translateCarrier _ _ _) _ _).of_eq rfl

/-- **The loops of a solution** record rejections of this solution only, and none unless they
fail. -/
theorem accounts_lowerLoops (rejections : List Rejection) :
    Accounts solution.solutionId { rejections := rejections }
      (call.lowerLoops anchor solution operations rejections) := by
  have hsources := accounts_untilFailed (@accounts_lowerSource call anchor solution)
    (operationsBySource operations) { rejections := rejections }
  rw [lowerLoops]
  split_ifs with hdirect hfailed hfailed
  · rw [Bool.and_eq_true, Bool.not_eq_true'] at hdirect
    rw [Bool.not_eq_true'] at hfailed
    refine (hsources.trans hdirect.1 ?_).trans hfailed ?_
    · exact accounts_untilFailed accounts_closeOccurrenceMove _ _
    · exact accounts_untilFailed accounts_closeDirectMove _ _
  · rw [Bool.and_eq_true, Bool.not_eq_true'] at hdirect
    exact hsources.trans hdirect.1 (accounts_untilFailed accounts_closeOccurrenceMove _ _)
  · rw [Bool.not_eq_true'] at hfailed
    exact hsources.trans hfailed (accounts_untilFailed accounts_closeDirectMove _ _)
  · exact hsources

end LoweringCall

end DRCAgent.EditAuthority
