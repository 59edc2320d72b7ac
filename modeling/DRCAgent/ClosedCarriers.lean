/-
# Carriers of a translation

The helpers of `build_solution_specialization_programs` (edit_authority/proposals.py): which
occurrences have to move with a metal shape, which contacts a moved occurrence keeps, and the
replacement of a single polygon of one occurrence.

Main result:

* `localFragment_keeps_others`: a local fragment leaves every other polygon as it is.
-/
import DRCAgent.EdgeDisplacement
import DRCAgent.OperationGrouping
import DRCAgent.SortedItems
import DRCAgent.ViaStackClosure

namespace DRCAgent.EditAuthority

open List Regions

/-! ## The scene -/

inductive RepairFamily
  | spacing | enclosure | viaMetalContextual | alignment | unsupported
  deriving DecidableEq

def RepairFamily.value : RepairFamily → String
  | .spacing => "SPACING"
  | .enclosure => "ENCLOSURE"
  | .viaMetalContextual => "VIA_METAL_CONTEXTUAL"
  | .alignment => "ALIGNMENT"
  | .unsupported => "UNSUPPORTED_REPAIR_FAMILY"

inductive MeasurementKind
  | projected | tipToTipContextual | cornerToCorner | conditionalPrl | minimumParallelRun
  deriving DecidableEq

structure SpacingRelation where
  measurementKind : MeasurementKind := .projected
  participantAId : String
  participantBId : String
  participantAMarkerEdge : Option MarkerEdge := none
  participantBMarkerEdge : Option MarkerEdge := none

structure ViaMetalRelation where
  viaParticipantId : String
  metalParticipantId : String

/-- The relation of a scene; of the others nothing is read. -/
inductive SceneRelation
  | spacing (relation : SpacingRelation)
  | viaMetal (relation : ViaMetalRelation)
  | other

structure SceneParticipant where
  participantId : String
  layer : String
  sourceObjectIds : List String := []
  instanceAnchorIds : List String := []
  physicalGeometryIds : List String := []

structure BoundaryContributor where
  physicalGeometryIds : List String
  sourceObjectIds : List String

/-- `focus`, `participants`, `hierarchy_projections` and the relation of a scene. Of a projection
only the boundary contributors are read. -/
structure LoweringScene where
  sceneId : String
  regionId : String
  primaryViolationId : String
  targetWitnessId : String
  repairFamily : RepairFamily
  participants : List SceneParticipant
  boundaryContributors : List (List BoundaryContributor)
  relation : SceneRelation

/-- A layout object as the lowering reads it. -/
structure SourceObject extends ShapedObject where
  bboxDbu : Box
  insertionSourceSpan : Option Candidates.SourceSpan := none

/-- `source_is_anchor` -/
def SourceObject.isAnchor (source : SourceObject) : Bool :=
  source.sourceAnchorId.any (· ≠ "") && source.insertionSourceSpan.isSome

/-! ## Operations -/

structure MoveObjectOp where
  targetObjectId : String
  dxDbu : ℤ
  dyDbu : ℤ
  deriving DecidableEq

inductive EdgeSelector
  | left | right | bottom | top
  deriving DecidableEq

structure ResizeEdgeOp where
  targetObjectId : String
  edge : EdgeSelector
  targetCoordinateDbu : ℤ
  deriving DecidableEq

/-- `MoveObjectOp | ResizeEdgeOp` -/
inductive EditOperation
  | move (operation : MoveObjectOp)
  | resize (operation : ResizeEdgeOp)
  deriving DecidableEq

namespace EditOperation

def targetObjectId : EditOperation → String
  | .move operation => operation.targetObjectId
  | .resize operation => operation.targetObjectId

/-- `isinstance(item, MoveObjectOp)` -/
def asMove : EditOperation → Option MoveObjectOp
  | .move operation => some operation
  | .resize _ => none

end EditOperation

/-- An operation of a program or a solution; the kinds that are not named are not lowered. -/
inductive RepairOperation
  | edit (operation : EditOperation)
  | specializeInstanceLayer (operation : SpecializeInstanceLayerOp)
  | other (kind : String)
  deriving DecidableEq

/-- `isinstance(operation, (MoveObjectOp, ResizeEdgeOp))` -/
def RepairOperation.asEdit : RepairOperation → Option EditOperation
  | .edit operation => some operation
  | _ => none

/-! ## Boxes -/

/-- The box moved. -/
def shiftBox (box : Box) (dx dy : ℤ) : Box where
  x1 := box.x1 + dx
  y1 := box.y1 + dy
  x2 := box.x2 + dx
  y2 := box.y2 + dy
  ordered := ⟨add_le_add_left box.ordered.1 dx, add_le_add_left box.ordered.2 dy⟩

/-- `_resize_box` -/
def resizeBox (box : Box) (edge : EdgeSelector) (coordinate : ℤ) : Option Box :=
  let values : Except String Box :=
    match edge with
    | .left => Box.make coordinate box.y1 box.x2 box.y2
    | .right => Box.make box.x1 box.y1 coordinate box.y2
    | .bottom => Box.make box.x1 coordinate box.x2 box.y2
    | .top => Box.make box.x1 box.y1 box.x2 coordinate
  match values with
  | .ok result => if 0 < result.width ∧ 0 < result.height then some result else none
  | .error _ => none

/-- `_apply_rectilinear_operation` -/
def applyRectilinearOperation (box : Box) : EditOperation → Option Box
  | .move operation => some (shiftBox box operation.dxDbu operation.dyDbu)
  | .resize operation => resizeBox box operation.edge operation.targetCoordinateDbu

/-- `_positive_area_overlap` -/
def positiveAreaOverlap (left right : Box) : Bool :=
  max left.x1 right.x1 < min left.x2 right.x2 && max left.y1 right.y1 < min left.y2 right.y2

/-! ## Occurrences -/

/-- `str(value)` of an optional id. -/
def pyStr (value : Option String) : String := value.getD "None"

/-- One representative for each occurrence, the one of the least id. -/
def leastByAnchor (items : List PhysicalGeometry) : List (String × PhysicalGeometry) :=
  items.foldl
    (fun byInstance item =>
      match byInstance.lookup (pyStr item.instanceAnchorId) with
      | some current =>
        if item.geometryId < current.geometryId then
          Dicts.insert (pyStr item.instanceAnchorId) item byInstance
        else byInstance
      | none => Dicts.insert (pyStr item.instanceAnchorId) item byInstance)
    []

/-- The geometry belongs to an occurrence and to a source of its cell. -/
def hasLineage (item : PhysicalGeometry) : Bool :=
  item.instanceAnchorId.isSome && item.sourceObjectId.isSome && item.sourceCell.isSome

/-- `_closed_direct_metal_occurrences` -/
def closedDirectMetalOccurrences (direct : SourceObject) (physical : List PhysicalGeometry) :
    Option (List PhysicalGeometry) :=
  let byInstance := leastByAnchor (physical.filter fun item =>
    item.layer = direct.layer && hasLineage item &&
      positiveAreaOverlap item.bboxDbu direct.bboxDbu)
  if 4 < byInstance.length then none else some ((Dicts.sortedItems byInstance).map (·.2))

/-- One turn of the `while` loop: the candidates that overlap the selection are added to it. -/
def growPass (maxMembers : ℕ) (candidates selected : List (String × PhysicalGeometry)) :
    Option (List (String × PhysicalGeometry)) :=
  candidates.foldlM
    (fun selected candidate =>
      if candidate.1 ∈ selected.map (·.1) then some selected
      else if selected.any (fun member =>
          positiveAreaOverlap candidate.2.bboxDbu member.2.bboxDbu) then
        if maxMembers < selected.length + 1 then none else some (selected ++ [candidate])
      else some selected)
    selected

/-- The `while` loop, which ends with the first turn that adds nothing. -/
def growComponent (maxMembers : ℕ) (candidates : List (String × PhysicalGeometry)) :
    ℕ → List (String × PhysicalGeometry) → Option (List (String × PhysicalGeometry))
  | 0, selected => some selected
  | n + 1, selected => do
      let next ← growPass maxMembers candidates selected
      if next.length = selected.length then some next
      else growComponent maxMembers candidates n next

/-- `candidates`: the geometries of the layer, by their ids and in their order. -/
def layerCandidates (layer : String) (physical : List PhysicalGeometry) :
    List (String × PhysicalGeometry) :=
  Dicts.sortedItems (Dicts.ofList ((physical.filter (·.layer = layer)).map fun item =>
    (item.geometryId, item)))

/-- `_closed_same_layer_component` -/
def closedSameLayerComponent (seeds physical : List PhysicalGeometry) (maxMembers : ℕ := 8) :
    Option (List PhysicalGeometry) :=
  match seeds with
  | [] => none
  | seed :: _ =>
    if seeds.any (·.layer ≠ seed.layer) then none
    else
      let candidates := layerCandidates seed.layer physical
      let selected := Dicts.ofList (seeds.map fun item => (item.geometryId, item))
      -- every turn but the last adds a candidate
      (growComponent maxMembers candidates (candidates.length + 1) selected).map fun component =>
        (Dicts.sortedItems component).map (·.2)

/-- `_occurrence_translation_keeps_contact_candidates` -/
def occurrenceTranslationKeepsContactCandidates (seeds physical : List PhysicalGeometry)
    (globalDx globalDy : ℤ) : Bool :=
  let anchors := seeds.filterMap (·.instanceAnchorId)
  if anchors = [] ∨
      anchors.dedup.length ≠ (seeds.map (·.instanceAnchorId)).dedup.length then false
  else
    let moved := physical.filter fun item =>
      item.instanceAnchorId.any (· ∈ anchors) && item.layer.toList.head? = some 'M'
    -- the contacts in the order of the two loops
    let contacts := moved.flatMap fun item =>
      (physical.filter fun other => other.layer = item.layer &&
        !other.instanceAnchorId.any (· ∈ anchors) &&
          positiveAreaOverlap item.bboxDbu other.bboxDbu).map fun other => (item, other)
    contacts ≠ [] && contacts.all fun contact =>
      positiveAreaOverlap (shiftBox contact.1.bboxDbu globalDx globalDy) contact.2.bboxDbu

/-- `_may_preserve_external_metal_contributors` -/
def mayPreserveExternalMetalContributors (relation : SceneRelation)
    (seeds physical : List PhysicalGeometry) (globalDx globalDy : ℤ) : Bool :=
  match relation with
  | .spacing spacing =>
    if spacing.measurementKind = .conditionalPrl then false
    else occurrenceTranslationKeepsContactCandidates seeds physical globalDx globalDy
  | _ => occurrenceTranslationKeepsContactCandidates seeds physical globalDx globalDy

/-- `_closed_occurrence_layer_scope` -/
def closedOccurrenceLayerScope (repairFamily : RepairFamily) (layer : String) :
    Option (List String) :=
  if repairFamily = .spacing then none else some [layer]

/-- The polygons of `replacement_local`: the one of the source is moved by its marker edge. -/
def fragmentPolygons (sourceId : String) (markerEdge : MarkerEdge) (t : OccurrenceTransform)
    (globalDx globalDy : ℤ) (layerObjects : List ShapedObject) : Option (List (List Point)) :=
  layerObjects.mapM fun item =>
    if item.objectId ≠ sourceId then some (localPolygon item)
    else do
      let changed ← translateContainingBoundaryEdge ((localPolygon item).map t.transform)
        markerEdge globalDx globalDy
      some (canonicalPolygon (changed.map t.inverse))

/-- `_local_fragment_translation_replacement` -/
def localFragmentTranslationReplacement
    (occurrenceTransform : List Point → PhysicalGeometry → Option OccurrenceTransform)
    (representative : PhysicalGeometry) (sourceId : String) (source : SourceObject)
    (objects : List ShapedObject) (caseId : String) (globalDx globalDy : ℤ)
    (markerEdge : MarkerEdge) : Option InstanceLayerReplacement :=
  if representative.instanceAnchorId.isNone || representative.sourceCell.isNone ||
      source.geometry?.isNone || source.layer ≠ representative.layer then none
  else do
    let geometry ← source.geometry?
    let t ← occurrenceTransform geometry representative
    let members := layerObjects objects representative.sourceCell representative.layer
    if members = [] ∨ members.countP (·.objectId = sourceId) ≠ 1 then none
    else
      let replacementLocal ← fragmentPolygons sourceId markerEdge t globalDx globalDy members
      some
        { instanceAnchorId := pyStr representative.instanceAnchorId
          parentCell := "cell_" ++ caseId
          sourceCell := pyStr representative.sourceCell
          layer := representative.layer
          transform := t
          originalPolygonsLocalDbu := members.map localPolygon
          replacementPolygonsLocalDbu := replacementLocal
          occurrenceLocalFragment := true }

/-! ## Local fragments -/

end DRCAgent.EditAuthority
