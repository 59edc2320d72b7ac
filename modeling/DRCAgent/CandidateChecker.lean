/-
# The candidate checker

`CandidateChecker.validate` of `actions/candidates.py`, with its levels in the order of
the source. A check passes, or it refuses the candidate with an issue, or it raises an
exception; `validate` returns a report unless some check that is reached raises.

The values of the fields that the schemas leave open are JSON values, and what pydantic
makes of them is a parameter, as are `int` and `str` of a value and the proof engine.
The floating-point numbers are those of `Regions.Doubles`, together with the operations
that raise when the result is too large.
-/
import DRCAgent.CandidateGeometry
import DRCAgent.Connectivity
import DRCAgent.SpecializationCompiler

namespace DRCAgent.Candidates

open List
open Connectivity (Json PyError)
open Regions (Box RuleFamily EditabilityClass ViolationRecord Doubles)
open EditAuthority (InstanceGeometrySpecialization inside)

/-! ## Records -/

inductive ActionType
  | noOp | moveShape | resizeShape | adjustEndpoint | addPolygon | deletePolygon
  | moveViaStack | addViaStack | deleteViaStack | replaceViaStack | changeLayer
  | localDetour | localReroute | instanceSpecialization
  deriving DecidableEq

def ActionType.value : ActionType → String
  | noOp => "NO_OP"
  | moveShape => "MOVE_SHAPE"
  | resizeShape => "RESIZE_SHAPE"
  | adjustEndpoint => "ADJUST_ENDPOINT"
  | addPolygon => "ADD_POLYGON"
  | deletePolygon => "DELETE_POLYGON"
  | moveViaStack => "MOVE_VIA_STACK"
  | addViaStack => "ADD_VIA_STACK"
  | deleteViaStack => "DELETE_VIA_STACK"
  | replaceViaStack => "REPLACE_VIA_STACK"
  | changeLayer => "CHANGE_LAYER"
  | localDetour => "LOCAL_DETOUR"
  | localReroute => "LOCAL_REROUTE"
  | instanceSpecialization => "INSTANCE_SPECIALIZATION"

inductive CandidateValidationStatus
  | valid | validRequiresSandbox | invalidSchema | invalidTarget | invalidEditability
  | invalidGeometry | invalidResource | invalidBenefitProof | staleTarget | unpatchable
  deriving DecidableEq

structure Predicate where
  kind : String
  parameters : List (String × Json) := []

structure LayoutEdit where
  op : ActionType
  targetObjectIds : List String
  sourceAnchorIds : List String
  layerAfter : Option String := none
  geometryBeforeDbu : Option (List (List Point)) := none
  geometryAfterDbu : Option (List (List Point)) := none
  replacementGroupId : Option String := none
  /-- `dx` and `dy` -/
  deltaDbu : Option (ℤ × ℤ) := none
  instanceSpecializations : List InstanceGeometrySpecialization := []
  deriving DecidableEq

structure SourceTarget where
  sourceAnchorId : String
  sourceHash : String

structure ResourceClaim where
  resourceId : String
  amount : ℤ := 1
  capacity : Option ℤ := none

structure SideEffect where
  kind : String

structure ValidationIssue where
  level : ℕ
  code : String
  message : String
  deriving DecidableEq

structure RuleBenefitProofRecord where
  violationId : String
  proofCode : String

structure BenefitEvidence where
  proofCodes : List String := []
  ruleProofs : List RuleBenefitProofRecord := []
  provenDrcBenefitLb : ℕ := 0
  heuristicRemovedViolationIds : List String := []
  heuristicDrcBenefitEst : ℕ := 0

structure RepairCandidate where
  candidateId : String
  regionId : String
  actionFamily : String
  edits : List LayoutEdit
  semanticObjective : String := "AUTO"
  semanticPostconditions : List Predicate := []
  targetViolationIds : List String := []
  targetObjectIds : List String := []
  sourceTargets : List SourceTarget := []
  editFootprintDbu : Box
  requiredResources : List ResourceClaim := []
  benefitEvidence : BenefitEvidence := {}
  predictedSideEffects : List SideEffect := []
  validationStatus : CandidateValidationStatus
  validationIssues : List ValidationIssue := []

def RepairCandidate.isNoop (candidate : RepairCandidate) : Bool :=
  candidate.actionFamily = ActionType.noOp.value && candidate.edits.isEmpty

structure SourceSpan where
  path : String
  startLine : ℤ
  endLine : ℤ

structure LayoutObject extends Regions.LayoutObject where
  sourceSpan : Option SourceSpan := none
  insertionSourceSpan : Option SourceSpan := none

/-- A value of `design.objects`, by what `LayoutObject.model_validate` makes of it. -/
inductive RawObject
  | null
  | invalid
  | record (obj : LayoutObject)

structure DesignState where
  dieBoundary : Option Box := none
  legalLayers : List String := []
  objects : List (String × RawObject) := []
  localTopology : List (String × Json) := []
  sourceHashes : List (String × String) := []
  resourceCapacities : List (String × ℤ) := []
  manufacturingGridDbu : ℤ := 1
  grid_pos : 1 ≤ manufacturingGridDbu := by decide

structure RegionState where
  regionId : String
  bboxDbu : Box
  editHaloDbu : Box
  violationIds : List String

/-- `violations`, as a list or as a dictionary. -/
inductive Violations
  | list (items : List ViolationRecord)
  | dict (entries : List (String × ViolationRecord))

/-- `violation_by_id` -/
def Violations.byId : Violations → List (String × ViolationRecord)
  | list items => Dicts.ofList (items.map fun item => (item.violationId, item))
  | dict entries => entries

structure ValidationReport where
  candidateId : String
  status : CandidateValidationStatus
  issues : List ValidationIssue := []
  levelsPassed : List ℕ := []

/-- What `validate` returns, with the candidate that it has updated. -/
structure Validation where
  report : ValidationReport
  candidate : RepairCandidate

/-- The functions that are not in the source. -/
structure Externals where
  /-- `int` of a string -/
  intOfText : String → Option ℤ
  /-- `str` of a value that is no string -/
  textOf : Json → Except PyError String
  /-- `Box.model_validate` -/
  boxOf : Json → Option Box
  /-- `RuleBenefitProofEngine().prove`, for the rule catalog -/
  prove : RepairCandidate → List (String × ViolationRecord) → List (String × List LayoutObject) →
    Except PyError (List RuleBenefitProofRecord)

/-- The operations on `float` that raise `OverflowError`, and those without an analogue
in `Doubles`. -/
class CheckedDoubles (D : Type) extends Doubles D where
  /-- `int ** 0.5` is too large. -/
  rootRaises : ℤ → Bool
  /-- `int / int` is too large. -/
  trueDivRaises : ℤ → ℤ → Bool
  /-- `float ** 2` is too large. -/
  squareRaises : D → Bool
  square : D → D
  add : D → D → D
  /-- `float ** 0.5` -/
  rootFloat : D → D

/-! ## Values and boxes -/

/-- `parameters.get(key)` -/
def Predicate.get (predicate : Predicate) (key : String) : Json :=
  (predicate.parameters.lookup key).getD .null

/-- `parameters[key]` -/
def Predicate.item (predicate : Predicate) (key : String) : Except PyError Json :=
  match predicate.parameters.lookup key with
  | some value => .ok value
  | none => .error .keyError

/-- A value that `hash` accepts. -/
def hashable : Json → Bool
  | .array _ | .object _ => false
  | _ => true

/-- `design.objects[object_id]`, validated. -/
def DesignState.record (design : DesignState) (objectId : String) : Except PyError LayoutObject :=
  match design.objects.lookup objectId with
  | some (.record obj) => .ok obj
  | some _ => .error .valueError
  | none => .error .keyError

/-- `design.objects.get(object_id)`, validated where it is not `None`. -/
def DesignState.record? (design : DesignState) (objectId : String) :
    Except PyError (Option LayoutObject) :=
  match design.objects.lookup objectId with
  | some (.record obj) => .ok (some obj)
  | some .invalid => .error .valueError
  | some .null | none => .ok none

/-- `str` of an integer: there is a limit to its digits. -/
def intText (value : ℤ) : Except PyError String :=
  if value.natAbs < 10 ^ 4300 then .ok (toString value) else .error .valueError

def expandBox (box : Box) (amount : ℤ) : Except PyError Box :=
  (box.expand amount).mapError fun _ => .valueError

/-- The box of one point. -/
def pointBox (p : Point) : Box := ⟨p.x, p.y, p.x, p.y, le_refl _, le_refl _⟩

/-- The box of a first point and others. -/
def hull (p : Point) (points : List Point) : Box :=
  points.foldl (fun box q => box.union (pointBox q)) (pointBox p)

/-- `_geometry_box` -/
def geometryBox : List Point → Except PyError Box
  | [] => .error .valueError
  | p :: points => .ok (hull p points)

/-- `edit.geometry_after_dbu or []` -/
def LayoutEdit.afterPolygons (edit : LayoutEdit) : List (List Point) :=
  edit.geometryAfterDbu.getD []

/-- `_after_box` -/
def afterBox (candidate : RepairCandidate) (objectId : String) : Option Box :=
  match (candidate.edits.filter fun edit => objectId ∈ edit.targetObjectIds).flatMap
      fun edit => edit.afterPolygons.flatten with
  | [] => none
  | p :: points => some (hull p points)

/-- `Box.model_validate` of a value. -/
def Externals.box (ext : Externals) (value : Json) : Except PyError Box :=
  match ext.boxOf value with
  | some box => .ok box
  | none => .error .valueError

/-- `str(value)` -/
def Externals.text (ext : Externals) : Json → Except PyError String
  | .string text => .ok text
  | value => ext.textOf value

/-- The value equals a string. -/
def isText (value : Json) (text : String) : Bool :=
  match value with
  | .string other => other = text
  | _ => false

/-- The value equals a string or `None`. -/
def isAnchor (value : Json) (anchor : Option String) : Bool :=
  match value, anchor with
  | .string other, some text => other = text
  | .null, none => true
  | _, _ => false

/-! ## Local decompositions -/

section Decomposition

variable (ext : Externals) (candidate : RepairCandidate) (design : DesignState)

/-- `(design.local_topology.get("fragments") or {}).get(fragment_id)`, or `None` without a
topology. -/
def boundFragment (fragmentId : Json) : Except PyError Json :=
  if design.localTopology.isEmpty then .ok .null
  else match ((design.localTopology.lookup "fragments").getD .null).orEmpty with
  | .object fragments =>
    match fragmentId with
    | .string id => .ok ((fragments.lookup id).getD .null)
    | .array _ | .object _ => .error .typeError
    | _ => .ok .null
  | _ => .error .attributeError

/-- The parent object with its id, where `design.objects` has it. -/
def parentOf (parentId : Json) : Except PyError (Option (String × LayoutObject)) :=
  match parentId with
  | .string id => do return (← design.record? id).map fun obj => (id, obj)
  | .array _ | .object _ => .error .typeError
  | _ => .ok none

/-- `deletes` -/
def deletesOf (parentId : String) : List LayoutEdit :=
  candidate.edits.filter fun edit => edit.op = .deletePolygon && edit.targetObjectIds = [parentId]

/-- `replacements` -/
def replacementsOf (parentId : String) : List LayoutEdit :=
  candidate.edits.filter fun edit => edit.op = .addPolygon && edit.targetObjectIds = [parentId] &&
    !edit.afterPolygons.isEmpty

/-- `sides` -/
def sidesOf : List LayoutEdit :=
  candidate.edits.filter fun edit => edit.op = .addPolygon && edit.targetObjectIds.isEmpty &&
    !edit.afterPolygons.isEmpty

/-- `edit.geometry_after_dbu[0]`, where there is one. -/
def LayoutEdit.firstPolygon (edit : LayoutEdit) : List Point := edit.afterPolygons.headD []

/-- The anchors of the fragment, of the predicate and of the parent agree, and the parent
has its source. The anchor of the parent is a string or `None`, so the comparison of the
first two need not look at other values. -/
def ownsFragment (predicate : Predicate) (fragment : List (String × Json)) (parentId : String)
    (parent : LayoutObject) : Bool :=
  isText ((fragment.lookup "parent_object_id").getD .null) parentId &&
    isAnchor ((fragment.lookup "parent_source_anchor_id").getD .null) parent.sourceAnchorId &&
    isAnchor (predicate.get "parent_source_anchor_id") parent.sourceAnchorId &&
    parent.sourceSpan.isSome && parent.insertionSourceSpan.isSome

/-- The edits are one replacement group at the anchor of the parent. -/
def oneGroup (parent : LayoutObject) : Bool :=
  candidate.edits.all (fun edit => edit.sourceAnchorIds.map some = [parent.sourceAnchorId]) &&
    (candidate.edits.map (·.replacementGroupId)).dedup.length = 1 &&
    none ∉ candidate.edits.map (·.replacementGroupId)

/-- The pieces lie on the fragment and reach from one end of the parent to the other. -/
def coversParent (sideBoxes : List Box) (replacementBox fragmentBox parentBox : Box) : Bool :=
  if sideBoxes.isEmpty then true
  else if sideBoxes.any fun box => !box.intersects fragmentBox then false
  else
    let combined := sideBoxes.foldl Box.union replacementBox
    if parentBox.height ≤ parentBox.width then
      combined.x1 = parentBox.x1 && combined.x2 = parentBox.x2
    else combined.y1 = parentBox.y1 && combined.y2 = parentBox.y2

/-- The pieces of a decomposition. -/
def provenPieces (predicate : Predicate) (fragmentBox : Box) (parentId : String)
    (parent : LayoutObject) : Except PyError Bool :=
  match deletesOf candidate parentId, replacementsOf candidate parentId with
  | [_], [replacement] => do
    let count ← ((predicate.parameters.lookup "side_piece_count").getD (.number (-1))).toInt
      ext.intOfText
    if (sidesOf candidate).length ≠ count ∨ !oneGroup candidate parent then return false
    else do
      let replacementBox ← geometryBox replacement.firstPolygon
      if !replacementBox.intersects fragmentBox then return false
      else do
        let sideBoxes ← (sidesOf candidate).mapM fun edit => geometryBox edit.firstPolygon
        return coversParent sideBoxes replacementBox fragmentBox parent.bboxDbu
  | _, _ => .ok false

/-- The boxes of a decomposition, and then its pieces. -/
def provenBoxes (predicate : Predicate) (fragment : List (String × Json)) (parentId : String)
    (parent : LayoutObject) : Except PyError Bool := do
  let changed ← ext.box (predicate.get "changed_footprint_dbu")
  if changed ≠ candidate.editFootprintDbu then return false
  else do
    let fragmentBox ← (Json.object fragment).field "bbox_dbu" >>= ext.box
    let given ← ext.box (predicate.get "fragment_bbox_dbu")
    if given ≠ fragmentBox then return false
    else provenPieces ext candidate predicate fragmentBox parentId parent

/-- The decomposition that one predicate describes. -/
def provenBy (predicate : Predicate) : Except PyError Bool := do
  let fragment ← boundFragment design (predicate.get "fragment_id")
  if !fragment.truthy then return false
  else match ← parentOf design (predicate.get "parent_object_id") with
    | none => return false
    | some (parentId, parent) =>
      match fragment with
      | .object entries =>
        if !ownsFragment predicate entries parentId parent then return false
        else provenBoxes ext candidate predicate entries parentId parent
      | _ => .error .attributeError

/-- The predicates of the kind `local_fragment_decomposition`. -/
def fragmentPredicates : List Predicate :=
  candidate.semanticPostconditions.filter fun item => item.kind = "local_fragment_decomposition"

/-- `_proven_local_decomposition` -/
def provenLocalDecomposition : Except PyError Bool :=
  match fragmentPredicates candidate with
  | [predicate] => provenBy ext candidate design predicate
  | _ => .ok false

/-- `set(value)` -/
def setOf (value : Json) : Except PyError (List Json) := do
  let items ← value.items
  if items.all hashable then return items else .error .typeError

/-- The fragment names the violation and the parent of the predicate. -/
def fragmentNames (predicate : Predicate) (violationId : String) : Except PyError Bool := do
  let fragment ← boundFragment design (predicate.get "fragment_id")
  if !fragment.truthy then return false
  else match fragment with
    | .object entries => do
      let violationIds := (entries.lookup "violation_ids").getD .null
      let names ← setOf (if violationIds.truthy then violationIds else .array [])
      -- the id of a parent that is found is a string
      return names.any (isText · violationId) && match predicate.get "parent_object_id" with
        | .string parentId => isText ((entries.lookup "parent_object_id").getD .null) parentId
        | _ => false
    | _ => .error .attributeError

/-- `_local_decomposition_targets_violation` -/
def localDecompositionTargetsViolation (violationId : String) : Except PyError Bool := do
  if ← provenLocalDecomposition ext candidate design then
    match fragmentPredicates candidate with
    | predicate :: _ => fragmentNames design predicate violationId
    | [] => return false
  else return false

end Decomposition

/-! ## Semantic predicates -/

section Semantics

variable (ext : Externals) (candidate : RepairCandidate) (design : DesignState)
  (predicate : Predicate)

/-- The after polygons of the edits that have a target. -/
def targetPolygons : List (List Point) :=
  (candidate.edits.filter fun edit => !edit.targetObjectIds.isEmpty).flatMap (·.afterPolygons)

/-- The after polygons of the edits that add one. -/
def patchPolygons : List (List Point) :=
  (candidate.edits.filter fun edit => edit.op = .addPolygon).flatMap (·.afterPolygons)

/-- `local_fragment_decomposition` -/
def fragmentIssue : Except PyError (Option (String × String)) := do
  if ← provenLocalDecomposition ext candidate design then return none
  else return some ("LOCAL_PATCH_UNREPRESENTABLE",
    "local route decomposition lacks exact parent/source ownership proof")

/-- `match_reference_width` -/
def widthIssue : Except PyError (Option (String × String)) := do
  let expected ← ((predicate.parameters.lookup "reference_width_dbu").getD (.number (-1))).toInt
    ext.intOfText
  match ← (targetPolygons candidate).mapM geometryBox with
  | [box] =>
    let actual := if isText (predicate.get "axis") "Y" then box.height else box.width
    if actual ≠ expected then do
      let actualText ← intText actual
      let expectedText ← intText expected
      return some ("SEMANTIC_WIDTH_MISMATCH",
        "after perpendicular width " ++ actualText ++ " != reference " ++ expectedText)
    else return none
  | _ => return some ("SEMANTIC_WIDTH_UNPROVEN",
      "MATCH_REFERENCE_WIDTH requires one authoritative after geometry")

/-- The patch encloses the box and overlaps the parent. -/
def encloses (patch required parent : Box) : Bool :=
  patch.x1 ≤ required.x1 && patch.y1 ≤ required.y1 && required.x2 ≤ patch.x2 &&
    required.y2 ≤ patch.y2 && 0 < patch.intersectionArea parent

/-- The patches of `ensure_enclosure`, for a parent that is there. -/
def patchIssue (marker : Box) (required : ℤ) (parent : LayoutObject) :
    Except PyError (Option (String × String)) := do
  let patches ← (patchPolygons candidate).mapM geometryBox
  if patches.isEmpty then
    return some ("SEMANTIC_ENCLOSURE_UNPROVEN", "ENSURE_ENCLOSURE has no bounded metal patch")
  else do
    let requiredBox ← expandBox marker required
    if patches.any fun patch => encloses patch requiredBox parent.bboxDbu then return none
    else return some ("SEMANTIC_ENCLOSURE_MISMATCH",
      "local patch does not both enclose the marker and overlap its parent route")

/-- `ensure_enclosure` -/
def enclosureIssue : Except PyError (Option (String × String)) := do
  let marker ← predicate.item "marker_bbox_dbu" >>= ext.box
  let required ← predicate.item "minimum_enclosure_dbu" >>= Json.toInt ext.intOfText
  let parentId ← predicate.item "parent_object_id" >>= ext.text
  match ← design.record? parentId with
  | none => return some ("SEMANTIC_ENCLOSURE_PARENT_MISSING",
      "enclosure parent object is unavailable")
  | some parent => patchIssue candidate marker required parent

/-- `snap_edge_to_legal_alignment` -/
def alignmentIssue : Except PyError (Option (String × String)) := do
  let axis ← predicate.item "axis" >>= ext.text
  let period ← predicate.item "period_dbu" >>= Json.toInt ext.intOfText
  let origin ← predicate.item "origin_dbu" >>= Json.toInt ext.intOfText
  let target ← predicate.item "target_coordinate_dbu" >>= Json.toInt ext.intOfText
  match ← (targetPolygons candidate).mapM geometryBox with
  | [box] =>
    let coordinate := if axis = "Y" then box.y1 else box.x1
    if coordinate = target ∧ period = 0 then .error .zeroDivisionError
    else if coordinate ≠ target ∨ (coordinate - origin) % period ≠ 0 then
      return some ("SEMANTIC_ALIGNMENT_MISMATCH",
        "after edge is not at the deterministic legal coordinate")
    else return none
  | _ => return some ("SEMANTIC_ALIGNMENT_UNPROVEN",
      "alignment requires one authoritative after geometry")

/-- What one predicate reports. -/
def predicateIssue : Except PyError (Option (String × String)) :=
  if predicate.kind = "local_fragment_decomposition" then fragmentIssue ext candidate design
  else if predicate.kind = "match_reference_width" then widthIssue ext candidate predicate
  else if predicate.kind = "ensure_enclosure" then enclosureIssue ext candidate design predicate
  else if predicate.kind = "snap_edge_to_legal_alignment" then
    alignmentIssue ext candidate predicate
  else .ok none

/-- `_semantic_consistency_issue` -/
def semanticConsistencyIssue : Except PyError (Option (String × String)) :=
  candidate.semanticPostconditions.findSomeM? (predicateIssue ext candidate design)

end Semantics

/-! ## Locality and effects -/

section Locality

variable (ext : Externals) (candidate : RepairCandidate) (design : DesignState)
  (region : RegionState) (violations : List (String × ViolationRecord))

/-- `_specialization_targets_marker`, for `marker.expand(influence)`. -/
def specializationTargetsMarker (expanded : Box) : Bool :=
  candidate.edits.any fun edit => !edit.instanceSpecializations.isEmpty &&
    (edit.geometryBeforeDbu.getD [] ++ edit.afterPolygons).any fun polygon =>
      match polygon with
      | [] => false
      | p :: points => (hull p points).intersects expanded

/-- `local_objectives` -/
def localObjectives : List String :=
  ["ENSURE_ENCLOSURE", "SNAP_EDGE_TO_LEGAL_ALIGNMENT", "INCREASE_SPACING",
    "LOCAL_DETOUR_AROUND_OBSTACLE"]

/-- The first box is within the second. -/
def within (box outer : Box) : Bool :=
  outer.x1 ≤ box.x1 && outer.y1 ≤ box.y1 && box.x2 ≤ outer.x2 && box.y2 ≤ outer.y2

/-- `markers` -/
def targetMarkers : List Box :=
  candidate.targetViolationIds.filterMap fun identifier =>
    (violations.lookup identifier).map (·.markerBboxDbu)

/-- `_locality_issue` -/
def localityIssue : Except PyError (Option (String × String)) :=
  if candidate.semanticObjective ∉ localObjectives then .ok none
  else match targetMarkers candidate violations with
  | [] => .ok (some ("LOCALITY_EVIDENCE_MISSING", "local repair has no target marker"))
  | marker :: markers => do
    let margin := max (design.manufacturingGridDbu * 4) 1
    let influence ← expandBox (markers.foldl Box.union marker) margin
    let localScope ← expandBox region.bboxDbu margin
    let footprint := candidate.editFootprintDbu
    if !within footprint region.editHaloDbu then
      return some ("EXCESSIVE_COLLATERAL_FOOTPRINT",
        "changed footprint exceeds the bounded region edit halo")
    else if max (max (influence.area * 16) (localScope.area * 4)) (margin * margin * 16) <
        footprint.area then
      return some ("EXCESSIVE_COLLATERAL_FOOTPRINT",
        "changed footprint is disproportionate to local fragment scope")
    else if footprint.intersects influence then return none
    else if ← candidate.targetViolationIds.allM
        (localDecompositionTargetsViolation ext candidate design) then return none
    else return some ("OFF_TARGET_FOOTPRINT",
      "changed footprint does not intersect target violation influence")

end Locality

section Effects

variable {D : Type} [CheckedDoubles D]

/-- `left.gap(right)` -/
def checkedGap (left right : Box) : Except PyError D :=
  let dx := max (max (left.x1 - right.x2) (right.x1 - left.x2)) 0
  let dy := max (max (left.y1 - right.y2) (right.y1 - left.y2)) 0
  if CheckedDoubles.rootRaises D (dx * dx + dy * dy) then .error .overflowError
  else .ok (left.gap right)

/-- `box.centroid` on one axis -/
def checkedCentroid (low high : ℤ) : Except PyError D :=
  if CheckedDoubles.trueDivRaises D (low + high) 2 then .error .overflowError
  else .ok (Doubles.trueDiv (low + high) 2)

/-- `float ** 2` -/
def checkedSquare (value : D) : Except PyError D :=
  if CheckedDoubles.squareRaises value then .error .overflowError
  else .ok (CheckedDoubles.square value)

/-- `_centroid_distance` -/
def centroidDistance (left right : Box) : Except PyError D := do
  let lx ← checkedCentroid left.x1 left.x2
  let ly ← checkedCentroid left.y1 left.y2
  let rx ← checkedCentroid right.x1 right.x2
  let ry ← checkedCentroid right.y1 right.y2
  let dx ← checkedSquare (Doubles.sub lx rx)
  let dy ← checkedSquare (Doubles.sub ly ry)
  return CheckedDoubles.rootFloat (CheckedDoubles.add dx dy)

variable (D) (candidate : RepairCandidate) (violation : ViolationRecord)

/-- The candidate resizes a shape or adjusts an endpoint. -/
def RepairCandidate.resizes (candidate : RepairCandidate) : Bool :=
  candidate.actionFamily ∈ [ActionType.resizeShape.value, ActionType.adjustEndpoint.value]

/-- The effect on one object, from its box after the candidate. -/
def objectEffect (after before : Box) : Except PyError Bool :=
  let marker := violation.markerBboxDbu
  match violation.ruleFamily with
  | .spacing | .short => do
    let gapAfter : D ← checkedGap after marker
    let gapBefore ← checkedGap before marker
    return decide (gapBefore < gapAfter)
  | .width => .ok (candidate.resizes &&
      (before.width < after.width || before.height < after.height))
  | .area | .enclosure => .ok (candidate.resizes && before.area < after.area)
  | .alignment => do
    let distanceAfter : D ← centroidDistance after marker
    let distanceBefore ← centroidDistance before marker
    return decide (distanceAfter < distanceBefore)
  | .via | .unknown => .ok false

/-- The effect on an object, where the candidate gives it a geometry. -/
def effectOn (obj : LayoutObject) : Except PyError Bool :=
  match afterBox candidate obj.objectId with
  | none => .ok false
  | some after => objectEffect D candidate violation after obj.bboxDbu

/-- `_heuristic_effect` -/
def heuristicEffect (objects : List LayoutObject) : Except PyError Bool :=
  objects.anyM (effectOn D candidate violation)

end Effects

/-! ## The levels -/

/-- How a check ends that does not pass: with the issue and the status of a refusal, or with
an exception. -/
inductive Exit
  | refused (issue : ValidationIssue) (status : CandidateValidationStatus)
  | raised (exception : PyError)
  deriving DecidableEq

abbrev Check := Except Exit

/-- `fail` -/
def fail {α : Type} (level : ℕ) (code message : String) (status : CandidateValidationStatus) :
    Check α :=
  .error (.refused ⟨level, code, message⟩ status)

/-- What the check evaluates may raise. -/
def attempt {α : Type} (x : Except PyError α) : Check α := x.mapError .raised

section Levels

variable (D : Type) [CheckedDoubles D] (ext : Externals) (candidate : RepairCandidate)
  (region : RegionState) (design : DesignState) (allowedActionFamilies : List String)
  (violations : Violations)

def identityCheck : Check Unit :=
  if candidate.regionId ≠ region.regionId ∨ candidate.candidateId = "" then
    fail 0 "IDENTITY_MISMATCH" "candidate identity does not match region" .invalidSchema
  else if candidate.actionFamily ∉ allowedActionFamilies then
    fail 0 "ACTION_NOT_ALLOWED" "action family is outside the rule whitelist" .invalidSchema
  else .ok ()

/-- The edits of a routing macro that replace a polygon. -/
def replacementEdits : List LayoutEdit :=
  candidate.edits.filter fun edit => edit.op ∈ [ActionType.deletePolygon, .addPolygon] &&
    edit.replacementGroupId.isSome

/-- The action family is a routing macro. -/
def RepairCandidate.isRouting (candidate : RepairCandidate) : Bool :=
  candidate.actionFamily ∈ [ActionType.localDetour.value, ActionType.localReroute.value,
    ActionType.changeLayer.value]

def routingCheck : Check Unit :=
  let operations := candidate.edits.map (·.op)
  if !candidate.isRouting then .ok ()
  else if ((replacementEdits candidate).map (·.replacementGroupId)).dedup.length ≠ 1 then
    fail 0 "INVALID_ROUTING_REPLACEMENT_GROUP"
      "routing macro edits must share one replacement_group_id" .invalidSchema
  else if operations.count .deletePolygon ≠ 1 then
    fail 0 "INVALID_ROUTING_DELETE_COUNT" "routing macro must delete exactly one old segment"
      .invalidSchema
  else if !candidate.edits.any fun edit => edit.op = .addPolygon &&
      !edit.targetObjectIds.isEmpty && !edit.afterPolygons.isEmpty then
    fail 0 "INVALID_ROUTING_REPLACEMENT"
      "routing macro must add one executable replacement polygon" .invalidSchema
  else if candidate.actionFamily = ActionType.changeLayer.value ∧
      operations.count .addViaStack < 2 then
    fail 0 "MISSING_LAYER_CHANGE_VIAS" "CHANGE_LAYER requires deterministic endpoint vias"
      .invalidSchema
  else .ok ()

def targetCheck : Check Unit :=
  if !candidate.targetViolationIds.all (· ∈ region.violationIds) then
    fail 0 "UNKNOWN_VIOLATION" "candidate references a violation outside its region" .invalidTarget
  else if !candidate.targetObjectIds.all (· ∈ design.objects.map (·.1)) then
    fail 0 "UNKNOWN_OBJECT" "candidate references an unknown object" .invalidTarget
  else if !candidate.targetViolationIds.all (· ∈ violations.byId.map (·.1)) then
    fail 0 "MISSING_VIOLATION_EVIDENCE" "candidate target violation evidence is unavailable"
      .invalidTarget
  else .ok ()

/-- `influence`; no distance is negative. -/
def influence : ℤ :=
  max design.manufacturingGridDbu
    (((candidate.edits.filterMap (·.deltaDbu)).map fun delta => max |delta.1| |delta.2|).foldl max 0)

/-- `related` -/
def relatedObjects (targets : List LayoutObject) (violation : ViolationRecord) :
    List LayoutObject :=
  targets.filter fun obj =>
    (violation.associatedObjectIds.isEmpty || obj.objectId ∈ violation.associatedObjectIds) &&
      (violation.layers.isEmpty || obj.layer ∈ violation.layers)

/-- The violation is near a related object, a specialized polygon or the footprint of an
enclosure. -/
def nearTarget (related : List LayoutObject) (violation : ViolationRecord) (expanded : Box) :
    Bool :=
  related.any (·.bboxDbu.intersects expanded) || specializationTargetsMarker candidate expanded ||
    (candidate.semanticObjective = "ENSURE_ENCLOSURE" &&
      candidate.editFootprintDbu.intersects violation.markerBboxDbu)

/-- The objects that are related to a violation near which they are. -/
def relationCheck (targets : List LayoutObject) (violationId : String) :
    Check (List LayoutObject) :=
  match violations.byId.lookup violationId with
  | none => .error (.raised .keyError)
  | some violation =>
    let related := relatedObjects targets violation
    if related.isEmpty then
      fail 0 "UNRELATED_OBJECT_VIOLATION"
        "target object is not associated with the violation layers" .invalidTarget
    else do
      let expanded ← attempt (expandBox violation.markerBboxDbu (influence candidate design))
      if nearTarget candidate related violation expanded then return related
      else if ← attempt (localDecompositionTargetsViolation ext candidate design violationId) then
        return related
      else
        fail 0 "OUTSIDE_VIOLATION_INFLUENCE"
          "target geometry is outside the violation influence area" .invalidTarget

/-- An assignment to `related_by_violation`. -/
def relationEntry (targets : List LayoutObject) (violationId : String) :
    Check (String × List LayoutObject) := do
  return (violationId, ← relationCheck ext candidate design violations targets violationId)

/-- `related_by_violation` -/
def relationsCheck : Check (List (String × List LayoutObject)) := do
  let targets ← attempt (candidate.targetObjectIds.mapM design.record)
  let related ← candidate.targetViolationIds.mapM
    (relationEntry ext candidate design violations targets)
  return Dicts.ofList related

def sourceTargetCheck (target : SourceTarget) : Check Unit :=
  match design.sourceHashes.lookup target.sourceAnchorId with
  | none => fail 1 "MISSING_SOURCE_ANCHOR" "source anchor is unavailable" .invalidTarget
  | some hash =>
    if hash ≠ target.sourceHash then
      fail 1 "STALE_TARGET" "source geometry changed after candidate generation" .staleTarget
    else .ok ()

/-- `edits_by_anchor` -/
def editsByAnchor : List (String × List LayoutEdit) :=
  Dicts.collect (candidate.edits.flatMap fun edit =>
    edit.sourceAnchorIds.map fun anchor => (anchor, edit))

/-- `valid_direct_plus_specialization` -/
def validDirectPlusSpecialization (anchorEdits : List LayoutEdit) : Bool :=
  let carrierSpecializations := anchorEdits.filter fun edit =>
    edit.op = .instanceSpecialization && !edit.instanceSpecializations.isEmpty &&
      edit.targetObjectIds.isEmpty
  match carrierSpecializations, anchorEdits.filter (· ∉ carrierSpecializations) with
  | [_], [ordinary] => !ordinary.targetObjectIds.isEmpty &&
      ordinary.op ∈ [ActionType.adjustEndpoint, .resizeShape, .moveShape]
  | _, _ => false

/-- `valid_replacement` -/
def validReplacement (anchorEdits : List LayoutEdit) : Bool :=
  let replacementGroups := (anchorEdits.map (·.replacementGroupId)).dedup
  replacementGroups.length = 1 && none ∉ replacementGroups &&
    (anchorEdits.countP fun edit => edit.op ∈ [ActionType.deletePolygon, .deleteViaStack]) = 1 &&
    (anchorEdits.countP fun edit => !edit.afterPolygons.isEmpty && !edit.targetObjectIds.isEmpty) = 1

def anchorCheck (entry : String × List LayoutEdit) : Check Unit :=
  if entry.2.length ≤ 1 ∨ validReplacement entry.2 ∨ validDirectPlusSpecialization entry.2 then
    .ok ()
  else fail 1 "INTERNAL_SOURCE_CONFLICT"
    ("edits on " ++ entry.1 ++ " are not one atomic replacement group") .invalidTarget

/-- Level 1. -/
def sourceCheck : Check Unit := do
  candidate.sourceTargets.forM (sourceTargetCheck design)
  (editsByAnchor candidate).forM anchorCheck

/-- `"VIA_STACK" in edit.op.value` -/
def ActionType.onViaStack (op : ActionType) : Bool :=
  decide ("VIA_STACK".toList <:+: op.value.toList)

/-- An edit of one of its targets. -/
def editCheck (entry : LayoutEdit × String) : Check Unit := do
  let obj ← attempt (design.record entry.2)
  match obj.editability with
  | .D => fail 2 "FROZEN_OBJECT" "Class D object cannot be mutated" .invalidEditability
  | .C =>
    if entry.1.op = .adjustEndpoint then return ()
    else if ← attempt (provenLocalDecomposition ext candidate design) then return ()
    else fail 2 "BOUNDARY_OBJECT_OPERATION" ("Class C requires endpoint adjustment or an exact " ++
      "source-owned local decomposition proof") .invalidEditability
  | .A =>
    if entry.1.op.onViaStack then return ()
    else fail 2 "PARTIAL_VIA_EDIT" "Class A via stack must be edited atomically" .invalidEditability
  | .B => return ()

/-- The edits with each of their targets. -/
def editTargets : List (LayoutEdit × String) :=
  candidate.edits.flatMap fun edit => edit.targetObjectIds.map fun objectId => (edit, objectId)

/-- Level 2. -/
def editabilityCheck : Check Unit := (editTargets candidate).forM (editCheck ext candidate design)

def polygonCheck (polygon : List Point) : Check Unit :=
  if polygon.any fun p =>
      p.x % design.manufacturingGridDbu ≠ 0 || p.y % design.manufacturingGridDbu ≠ 0 then
    fail 3 "OFF_MANUFACTURING_GRID" "after geometry is off the configured DBU grid" .invalidGeometry
  else if !polygonAccepted polygon then
    fail 3 "INVALID_POLYGON" "after geometry is degenerate" .invalidGeometry
  else if design.dieBoundary.any fun die => polygon.any fun p => !inside die p then
    fail 3 "OUTSIDE_DIE" "after geometry is outside die boundary" .invalidGeometry
  else .ok ()

def layerCheck (edit : LayoutEdit) : Check Unit :=
  let layer := edit.layerAfter.getD ""
  if layer ≠ "" ∧ design.legalLayers ≠ [] ∧ layer ∉ design.legalLayers then
    fail 3 "ILLEGAL_LAYER" "target layer is not legal" .invalidGeometry
  else .ok ()

/-- The geometry of level 3. -/
def geometryCheck : Check Unit :=
  candidate.edits.forM fun edit => do
    edit.afterPolygons.forM (polygonCheck design)
    layerCheck design edit

/-- An issue of level 3, where there is one. -/
def issueCheck (issue : Except PyError (Option (String × String))) : Check Unit := do
  match ← attempt issue with
  | some (code, message) => fail 3 code message .invalidGeometry
  | none => return ()

/-- One claim against the demand of those before. -/
def claimCheck (demand : List (String × ℤ)) (claim : ResourceClaim) :
    Check (List (String × ℤ)) :=
  let total := (demand.lookup claim.resourceId).getD 0 + claim.amount
  let capacity := match claim.capacity with
    | some capacity => some capacity
    | none => design.resourceCapacities.lookup claim.resourceId
  if capacity.any (· < total) then
    fail 4 "INTERNAL_RESOURCE_OVERFLOW" "candidate exceeds resource capacity" .invalidResource
  else .ok (Dicts.insert claim.resourceId total demand)

/-- Level 4. -/
def resourceCheck : Check Unit := do
  let _ ← candidate.requiredResources.foldlM (claimCheck design) []

/-- Level 5. -/
def patchAnchorCheck : Check Unit :=
  if candidate.edits.any fun edit => edit.sourceAnchorIds.isEmpty && edit.op ≠ .noOp then
    fail 5 "NO_PATCH_ANCHOR" "mutation has no source anchor" .unpatchable
  else .ok ()

/-- Whether the candidate has an effect on a violation. -/
def heuristicEntry (entry : String × List LayoutObject) : Except PyError (String × Bool) :=
  match violations.byId.lookup entry.1 with
  | some violation => do return (entry.1, ← heuristicEffect D candidate violation entry.2)
  | none => .error .keyError

/-- `heuristic` -/
def heuristicIds (related : List (String × List LayoutObject)) : Except PyError (List String) := do
  let effects ← related.mapM (heuristicEntry D candidate violations)
  return (effects.filter (·.2)).map (·.1)

/-- The evidence of the heuristic and of the proof engine. -/
def benefitEvidence (related : List (String × List LayoutObject)) :
    Except PyError BenefitEvidence := do
  let heuristic ← heuristicIds D candidate violations related
  let records ← ext.prove candidate violations.byId related
  return {
    proofCodes := sortedSet (records.map (·.proofCode))
    ruleProofs := records
    heuristicRemovedViolationIds := heuristic.insertionSort (· ≤ ·)
    heuristicDrcBenefitEst := heuristic.length }

/-- The candidate with its status and its issues. -/
def RepairCandidate.conclude (candidate : RepairCandidate) (levels : List ℕ)
    (status : CandidateValidationStatus) (issues : List ValidationIssue) : Validation where
  report := ⟨candidate.candidateId, status, issues, levels⟩
  candidate := { candidate with validationStatus := status, validationIssues := issues }

/-- A check and what follows it. -/
def stage {α : Type} (candidate : RepairCandidate) (levels : List ℕ) (check : Check α)
    (rest : α → Except PyError Validation) : Except PyError Validation :=
  match check with
  | .ok a => rest a
  | .error (.refused issue status) => .ok (candidate.conclude levels status [issue])
  | .error (.raised e) => .error e

/-- The levels from the resources on. -/
def resourceLevels (candidate : RepairCandidate) (design : DesignState) :
    Except PyError Validation :=
  stage candidate [0, 1, 2, 3] (resourceCheck candidate design) fun _ =>
  stage candidate [0, 1, 2, 3, 4] (patchAnchorCheck candidate) fun _ =>
    let status := if candidate.benefitEvidence.provenDrcBenefitLb = 0 ∨
        candidate.predictedSideEffects.any (·.kind = "CONNECTIVITY_ARTICULATION_RISK") then
      CandidateValidationStatus.validRequiresSandbox else .valid
    .ok (candidate.conclude [0, 1, 2, 3, 4, 5] status [])

/-- The benefit, and the levels after it. -/
def benefitLevels (related : List (String × List LayoutObject)) : Except PyError Validation := do
  let evidence ← benefitEvidence D ext candidate violations related
  resourceLevels { candidate with benefitEvidence := evidence } design

/-- The levels from the geometry on. -/
def geometryLevels (related : List (String × List LayoutObject)) : Except PyError Validation :=
  stage candidate [0, 1, 2] (geometryCheck candidate design) fun _ =>
  stage candidate [0, 1, 2] (issueCheck (semanticConsistencyIssue ext candidate design)) fun _ =>
  stage candidate [0, 1, 2] (issueCheck
    (localityIssue ext candidate design region violations.byId)) fun _ =>
  benefitLevels D ext candidate design violations related

/-- The levels from the sources on. -/
def sourceLevels (related : List (String × List LayoutObject)) : Except PyError Validation :=
  stage candidate [0] (sourceCheck candidate design) fun _ =>
  stage candidate [0, 1] (editabilityCheck ext candidate design) fun _ =>
  geometryLevels D ext candidate region design violations related

/-- **`CandidateChecker.validate`** -/
def validate : Except PyError Validation :=
  stage candidate [] (identityCheck candidate region allowedActionFamilies) fun _ =>
  if candidate.isNoop then
    .ok ⟨⟨candidate.candidateId, .valid, [], [0, 1, 2, 3, 4, 5]⟩,
      { candidate with validationStatus := .valid }⟩
  else
  stage candidate [] (routingCheck candidate) fun _ =>
  stage candidate [] (targetCheck candidate region design violations) fun _ =>
  stage candidate [] (relationsCheck ext candidate design violations)
    (sourceLevels D ext candidate region design violations)

end Levels

end DRCAgent.Candidates
