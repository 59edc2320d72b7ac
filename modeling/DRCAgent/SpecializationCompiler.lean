/-
# Compiling instance specializations

`compile_instance_layer_specializations` of
`repair_kernel_closure/edit_authority/compiler_support.py`. The layer replacements are
grouped by the occurrence they are for. Each group becomes one specialization of the
source cell, with the complete polygons of every layer, and the polygons that change are
collected in the global frame: those of before, and those of after.

What the two lists report is the subject of `SpecializationDiff`.
-/
import DRCAgent.OccurrenceTranslation
import DRCAgent.RegionBuilder

namespace DRCAgent.EditAuthority

open List

/-! ## Groups -/

/-- The occurrence a replacement is for. -/
structure GroupKey where
  instanceAnchorId : String
  parentCell : String
  sourceCell : String
  transform : OccurrenceTransform
  deriving DecidableEq

/-- The key as the tuple that is compared. -/
def GroupKey.tuple (key : GroupKey) :
    String ×ₗ String ×ₗ String ×ₗ Fin 4 ×ₗ Bool ×ₗ ℤ ×ₗ ℤ :=
  toLex (key.instanceAnchorId, toLex (key.parentCell, toLex (key.sourceCell,
    toLex (key.transform.rotation, toLex (key.transform.mirror,
      toLex (key.transform.dx, key.transform.dy))))))

theorem GroupKey.tuple_injective : Function.Injective GroupKey.tuple := by
  rintro ⟨a, b, c, r, m, x, y⟩ ⟨a', b', c', r', m', x', y'⟩ h
  simpa [tuple] using h

instance : LinearOrder GroupKey := LinearOrder.lift' _ GroupKey.tuple_injective

def InstanceLayerReplacement.groupKey (r : InstanceLayerReplacement) : GroupKey where
  instanceAnchorId := r.instanceAnchorId
  parentCell := r.parentCell
  sourceCell := r.sourceCell
  transform := r.transform

/-! ## The compiler -/

/-- What `error_factory` makes, and the other exceptions that end a compilation. -/
structure CompileError where
  code : String
  message : String
  deriving DecidableEq

/-- The region and the design as far as they are read, and the functions that are
passed or called. A validation returns or raises. -/
structure CompileContext where
  objects : List ShapedObject
  legalLayers : List String
  manufacturingGridDbu : ℤ
  dieBoundary : Option Regions.Box
  editHaloDbu : Regions.Box
  stableHash : List Point → String
  validatePolygon : List Point → Except CompileError Unit
  /-- `stable_hash(identity)[:16]` -/
  identityDigest : GroupKey → List (String × List (List Point)) → Bool → String

structure InstanceGeometrySpecialization where
  instanceAnchorId : String
  parentCell : String
  sourceCell : String
  specializedCellName : String
  layer : String
  transform : OccurrenceTransform
  originalPolygonsLocalDbu : List (List Point)
  replacementPolygonsLocalDbu : List (List Point)
  originalPolygonsByLayerLocalDbu : List (String × List (List Point))
  completePolygonsByLayerLocalDbu : List (String × List (List Point))
  replacedLayers : List String
  occurrenceLocalFragment : Bool
  deriving DecidableEq

/-- `specialized_cell_name`, with the digest of the identity. -/
def specializedCellName (sourceCell digest : String) : String :=
  (if sourceCell.startsWith "cell_" then
    String.ofList (sourceCell.toList.drop "cell_".length) else sourceCell) ++
    "_drc_agent_spec_" ++ digest

/-- The variables of the loop over the polygons of one replacement. -/
structure PolygonState where
  before : List (List Point)
  after : List (List Point)
  /-- `unchanged_hashes`: the hashes, each as often as it is counted. -/
  unchanged : List String
  localAfter : List (List Point) := []

/-- The variables of the loop over the replacements of a group. -/
structure GroupState where
  before : List (List Point)
  after : List (List Point)
  suppliedByLayer : List (String × List (List Point)) := []
  changedLayers : List (String × List (List Point)) := []
  completeByLayer : List (String × List (List Point))

/-- The variables of the loop over the groups. -/
structure CompileState where
  compiled : List InstanceGeometrySpecialization := []
  before : List (List Point) := []
  after : List (List Point) := []
  deriving DecidableEq

def inside (box : Regions.Box) (p : Point) : Bool :=
  box.x1 ≤ p.x && p.x ≤ box.x2 && box.y1 ≤ p.y && p.y ≤ box.y2

namespace CompileContext

variable (ctx : CompileContext)

/-- `sorted(polygons, key=stable_hash)` -/
def byHash (polygons : List (List Point)) : List (List Point) :=
  polygons.insertionSort fun a b => ctx.stableHash a ≤ ctx.stableHash b

/-- The polygons of a layer of the source cell, in canonical form. -/
def sourcePolygons (sourceCell layer : String) : List (List Point) :=
  (ctx.objects.filter fun obj => obj.sourceCell = some sourceCell && obj.layer = layer).filterMap
    fun obj => obj.geometry?.map canonicalPolygon

/-- `complete_by_layer` before the replacements. -/
def legalPolygons (sourceCell : String) : List (String × List (List Point)) :=
  Dicts.collect ((ctx.objects.filter fun obj =>
    obj.sourceCell = some sourceCell && obj.layer ∈ ctx.legalLayers).filterMap
      fun obj => obj.geometry?.map fun geometry => (obj.layer, canonicalPolygon geometry))

/-- `original_at_index`, where it is `changed_at_index`. -/
def changedOriginal (r : InstanceLayerReplacement) (canonical : List Point) (index : ℕ) :
    Option (List Point) :=
  ((r.originalPolygonsLocalDbu[index]?).map canonicalPolygon).filter fun original =>
    ctx.stableHash original ≠ ctx.stableHash canonical

/-- The checks of a changed polygon of a local fragment. -/
def checkFragment (t : OccurrenceTransform) (original canonical : List Point) :
    Except CompileError Unit :=
  let globalPolygon := canonical.map t.transform
  let changedPoints := (((original.map t.transform).zip globalPolygon).filter
    fun pair => pair.1 ≠ pair.2).flatMap fun pair => [pair.1, pair.2]
  if original.length ≠ canonical.length then
    .error ⟨"INVALID_LOCAL_FRAGMENT_SPECIALIZATION",
      "local-fragment COW must preserve polygon vertex cardinality"⟩
  else if changedPoints = [] ∨ changedPoints.any fun p => !inside ctx.editHaloDbu p then
    .error ⟨"OUTSIDE_LOCALITY", "local-fragment boundary change exceeds region edit halo"⟩
  else if ctx.dieBoundary.any fun die => globalPolygon.any fun p => !inside die p then
    .error ⟨"OUTSIDE_DIE", "specialized local polygon exceeds die boundary"⟩
  else .ok ()

/-- The checks of one polygon. -/
def checkPolygon (localFragment : Bool) (t : OccurrenceTransform) (canonical : List Point)
    (changed : Option (List Point)) : Except CompileError Unit :=
  if localFragment then
    match changed with
    | some original => ctx.checkFragment t original canonical
    | none => .ok ()
  else ctx.validatePolygon (canonical.map t.transform)

/-- One polygon of a replacement. -/
def polygonStep (r : InstanceLayerReplacement) (localFragment : Bool) (state : PolygonState)
    (entry : List Point × ℕ) : Except CompileError PolygonState :=
  let canonical := canonicalPolygon entry.1
  let globalPolygon := canonical.map r.transform.transform
  let changed := ctx.changedOriginal r canonical entry.2
  let polygonHash := ctx.stableHash canonical
  let after := if polygonHash ∈ state.unchanged then state.after
    else state.after ++ [globalPolygon]
  if canonical.length < 4 ∨ canonical.any fun p =>
      p.x % ctx.manufacturingGridDbu ≠ 0 || p.y % ctx.manufacturingGridDbu ≠ 0 then
    .error ⟨"INVALID_SPECIALIZATION_GEOMETRY",
      "specialized local polygons must be nondegenerate and on grid"⟩
  else do
    ctx.checkPolygon localFragment r.transform canonical changed
    return {
      before := state.before ++ (changed.map (·.map r.transform.transform)).toList
      after := if changed.isSome ∧ globalPolygon ∉ after then after ++ [globalPolygon] else after
      unchanged := state.unchanged.erase polygonHash
      localAfter := state.localAfter ++ [canonical] }

/-- One replacement of a group. -/
def layerStep (localFragment : Bool) (state : GroupState) (r : InstanceLayerReplacement) :
    Except CompileError GroupState :=
  let known := ctx.byHash (ctx.sourcePolygons r.sourceCell r.layer)
  let supplied := ctx.byHash (r.originalPolygonsLocalDbu.map canonicalPolygon)
  if r.layer ∈ state.changedLayers.map (·.1) then
    .error ⟨"DUPLICATE_INSTANCE_LAYER_REPLACEMENT",
      "one occurrence specialization may replace each layer once"⟩
  else if known.map ctx.stableHash ≠ supplied.map ctx.stableHash then
    .error ⟨"INCOMPLETE_INSTANCE_LAYER_REPLACEMENT",
      "specialization must replace the complete known cell layer"⟩
  else do
    let polygons ← r.replacementPolygonsLocalDbu.zipIdx.foldlM (ctx.polygonStep r localFragment)
      { before := state.before, after := state.after, unchanged := supplied.map ctx.stableHash }
    return {
      before := polygons.before
      after := polygons.after
      suppliedByLayer := Dicts.insert r.layer supplied state.suppliedByLayer
      changedLayers := Dicts.insert r.layer polygons.localAfter state.changedLayers
      completeByLayer := Dicts.insert r.layer polygons.localAfter state.completeByLayer }

/-- The layer of a dictionary, where it is there. -/
def layerOf (layer : String) (polygons : List (String × List (List Point))) : List (List Point) :=
  (polygons.lookup layer).getD []

/-- A local fragment replaces exactly one polygon. -/
def checkCardinality (supplied changed : List (List Point)) : Except CompileError Unit :=
  let before := supplied.map ctx.stableHash
  let after := changed.map ctx.stableHash
  if (before.diff after).length ≠ 1 ∨ (after.diff before).length ≠ 1 ∨
      supplied.length ≠ changed.length then
    .error ⟨"INVALID_LOCAL_FRAGMENT_SPECIALIZATION", "occurrence-local COW must replace " ++
      "exactly one source polygon while preserving layer cardinality"⟩
  else .ok ()

/-- The specialization of a group; its schema admits four replaced layers. -/
def specialization (key : GroupKey) (representative : InstanceLayerReplacement)
    (state : GroupState) : Except CompileError InstanceGeometrySpecialization :=
  let complete := (state.completeByLayer.insertionSort fun a b => a.1 ≤ b.1).map
    fun entry => (entry.1, ctx.byHash entry.2)
  let replacedLayers := (state.changedLayers.map (·.1)).insertionSort (· ≤ ·)
  if 4 < replacedLayers.length then .error ⟨"ValidationError", "replaced_layers"⟩
  else .ok {
    instanceAnchorId := representative.instanceAnchorId
    parentCell := representative.parentCell
    sourceCell := representative.sourceCell
    specializedCellName := specializedCellName representative.sourceCell
      (ctx.identityDigest key complete representative.occurrenceLocalFragment)
    layer := representative.layer
    transform := representative.transform
    originalPolygonsLocalDbu := layerOf representative.layer state.suppliedByLayer
    replacementPolygonsLocalDbu := layerOf representative.layer state.changedLayers
    originalPolygonsByLayerLocalDbu := state.suppliedByLayer
    completePolygonsByLayerLocalDbu := complete
    replacedLayers := replacedLayers
    occurrenceLocalFragment := representative.occurrenceLocalFragment }

/-- One group. `representative` is the first of those with the least layer. -/
def groupStep (state : CompileState) (entry : GroupKey × List InstanceLayerReplacement) :
    Except CompileError CompileState :=
  let group := entry.2.insertionSort fun a b => a.layer ≤ b.layer
  match group with
  | [] => .ok state
  | representative :: _ =>
    let localFragment := representative.occurrenceLocalFragment
    if group.any fun r => r.occurrenceLocalFragment ≠ localFragment then
      .error ⟨"MIXED_INSTANCE_SPECIALIZATION_SCOPE", "one occurrence specialization cannot mix " ++
        "whole-carrier and local-fragment replacements"⟩
    else if localFragment ∧ group.length ≠ 1 then
      .error ⟨"UNBOUNDED_LOCAL_FRAGMENT_SPECIALIZATION", "an occurrence-local fragment " ++
        "specialization must replace exactly one complete source layer"⟩
    else do
      let layers ← group.foldlM (ctx.layerStep localFragment)
        { before := state.before
          after := state.after
          completeByLayer := ctx.legalPolygons representative.sourceCell }
      if localFragment then
        ctx.checkCardinality (layerOf representative.layer layers.suppliedByLayer)
          (layerOf representative.layer layers.changedLayers)
      let compiled ← ctx.specialization entry.1 representative layers
      return {
        compiled := state.compiled ++ [compiled]
        before := layers.before
        after := layers.after }

/-- `sorted(groups.items(), key=lambda item: item[0])` -/
def sortedGroups (replacements : List InstanceLayerReplacement) :
    List (GroupKey × List InstanceLayerReplacement) :=
  (Dicts.collect (replacements.map fun r => (r.groupKey, r))).insertionSort fun a b => a.1 ≤ b.1

/-- **`compile_instance_layer_specializations`**: the specializations, and the polygons of
before and of after in the global frame. -/
def compileInstanceLayerSpecializations (replacements : List InstanceLayerReplacement) :
    Except CompileError CompileState :=
  (sortedGroups replacements).foldlM ctx.groupStep {}

end CompileContext

end DRCAgent.EditAuthority
