/-
# Translating one occurrence of a cell

`repair_kernel_closure/edit_authority/proposals.py`: to move one occurrence of a cell in
the global frame, every polygon of the cell is taken through the occurrence transform,
displaced, and pulled back, each time in canonical form.

Main result:

* `translation_exact_iff`: mapped back, the replacements are the original geometry moved
  by the displacement, polygon by polygon, exactly when no polygon is one repeated point;
  and `_inverse` undoes `_transform`.
-/
import DRCAgent.ExecutionEnv
import DRCAgent.Polygon
import DRCAgent.ActiveWindow

namespace DRCAgent.EditAuthority

open List

/-! ## Occurrence transforms -/

/-- A quarter-turn rotation after an optional mirror, and a translation. -/
structure OccurrenceTransform where
  rotation : Fin 4
  mirror : Bool
  dx : ℤ
  dy : ℤ
  deriving DecidableEq

/-- An occurrence that is where its cell is. -/
def OccurrenceTransform.identity : OccurrenceTransform := ⟨0, false, 0, 0⟩

/-- Mirror at the x axis. -/
def flip (mirror : Bool) (p : Point) : Point := if mirror then ⟨p.x, -p.y⟩ else p

/-- The rotation of `_transform`. -/
def turn (rotation : Fin 4) (p : Point) : Point :=
  match rotation with
  | 0 => p
  | 1 => ⟨-p.y, p.x⟩
  | 2 => ⟨-p.x, -p.y⟩
  | 3 => ⟨p.y, -p.x⟩

/-- The rotation of `_inverse`. -/
def turnBack (rotation : Fin 4) (p : Point) : Point :=
  match rotation with
  | 0 => p
  | 1 => ⟨p.y, -p.x⟩
  | 2 => ⟨-p.x, -p.y⟩
  | 3 => ⟨-p.y, p.x⟩

/-- `Point(x=point.x + dx, y=point.y + dy)` -/
def shift (dx dy : ℤ) (p : Point) : Point := ⟨p.x + dx, p.y + dy⟩

namespace OccurrenceTransform

variable (t : OccurrenceTransform)

/-- `_transform` -/
def transform (p : Point) : Point := shift t.dx t.dy (turn t.rotation (flip t.mirror p))

/-- `_inverse` -/
def inverse (p : Point) : Point := flip t.mirror (turnBack t.rotation (shift (-t.dx) (-t.dy) p))

end OccurrenceTransform

theorem flip_flip (mirror : Bool) (p : Point) : flip mirror (flip mirror p) = p := by
  cases mirror with
  | false => rfl
  | true => simp [flip]

theorem turnBack_turn (rotation : Fin 4) (p : Point) : turnBack rotation (turn rotation p) = p := by
  match rotation with
  | 0 => rfl
  | 1 => simp [turn, turnBack]
  | 2 => simp [turn, turnBack]
  | 3 => simp [turn, turnBack]

theorem turn_turnBack (rotation : Fin 4) (p : Point) : turn rotation (turnBack rotation p) = p := by
  match rotation with
  | 0 => rfl
  | 1 => simp [turn, turnBack]
  | 2 => simp [turn, turnBack]
  | 3 => simp [turn, turnBack]

theorem shift_shift (dx dy dx' dy' : ℤ) (p : Point) :
    shift dx dy (shift dx' dy' p) = shift (dx' + dx) (dy' + dy) p := by
  simp [shift, add_assoc]

theorem shift_zero (p : Point) : shift 0 0 p = p := by simp [shift]

namespace OccurrenceTransform

variable {t : OccurrenceTransform}

/-- The inverse undoes a transform. -/
theorem inverse_transform (p : Point) : t.inverse (t.transform p) = p := by
  rw [inverse, transform, shift_shift, add_neg_cancel, add_neg_cancel, shift_zero, turnBack_turn,
    flip_flip]

theorem transform_inverse (p : Point) : t.transform (t.inverse p) = p := by
  rw [inverse, transform, flip_flip, turn_turnBack, shift_shift, neg_add_cancel, neg_add_cancel,
    shift_zero]

end OccurrenceTransform

/-! ## The transforms are rigid -/

theorem rigid_shift (dx dy : ℤ) : Rigid (shift dx dy) where
  injective := by
    refine Function.LeftInverse.injective (g := shift (-dx) (-dy)) fun p => ?_
    rw [shift_shift, add_neg_cancel, add_neg_cancel, shift_zero]
  area := by
    refine ⟨1, .inl rfl, fun s => ?_⟩
    refine area2_map (g := fun p => p.x * dy - dx * p.y) (fun p q => ?_) s
    simp only [cross, shift]
    ring

theorem rigid_flip (mirror : Bool) : Rigid (flip mirror) where
  injective := Function.LeftInverse.injective (flip_flip mirror)
  area := by
    refine ⟨if mirror then -1 else 1, by cases mirror <;> simp, fun s => ?_⟩
    refine area2_map (g := fun _ => 0) (fun p q => ?_) s
    cases mirror with
    | false => simp [cross, flip]
    | true =>
      simp only [cross, flip, if_true]
      ring

theorem rigid_turn (rotation : Fin 4) : Rigid (turn rotation) where
  injective := Function.LeftInverse.injective (turnBack_turn rotation)
  area := by
    refine ⟨1, .inl rfl, fun s => ?_⟩
    refine area2_map (g := fun _ => 0) (fun p q => ?_) s
    match rotation with
    | 0 => simp [turn]
    | 1 => simp only [cross, turn]; ring
    | 2 => simp only [cross, turn]; ring
    | 3 => simp only [cross, turn]; ring

theorem rigid_turnBack (rotation : Fin 4) : Rigid (turnBack rotation) where
  injective := Function.LeftInverse.injective (turn_turnBack rotation)
  area := by
    refine ⟨1, .inl rfl, fun s => ?_⟩
    refine area2_map (g := fun _ => 0) (fun p q => ?_) s
    match rotation with
    | 0 => simp [turnBack]
    | 1 => simp only [cross, turnBack]; ring
    | 2 => simp only [cross, turnBack]; ring
    | 3 => simp only [cross, turnBack]; ring

/-- A transform is rigid. -/
theorem OccurrenceTransform.rigid_transform (t : OccurrenceTransform) : Rigid t.transform :=
  (rigid_shift t.dx t.dy).comp ((rigid_turn t.rotation).comp (rigid_flip t.mirror))

theorem OccurrenceTransform.rigid_inverse (t : OccurrenceTransform) : Rigid t.inverse :=
  (rigid_flip t.mirror).comp ((rigid_turnBack t.rotation).comp (rigid_shift (-t.dx) (-t.dy)))

/-! ## One polygon -/

/-- The local polygon that displaces `polygon` by `(globalDx, globalDy)` in the global frame. -/
def displaced (t : OccurrenceTransform) (globalDx globalDy : ℤ) (polygon : List Point) :
    List Point :=
  canonicalPolygon (polygon.map fun p => t.inverse (shift globalDx globalDy (t.transform p)))

section Polygon

variable {t : OccurrenceTransform} {globalDx globalDy : ℤ} {g : List Point}

/-- One repeated point loses a vertex with each canonical form. -/
theorem canonicalPolygon_displaced_ne (h : OnePoint g) :
    canonicalPolygon ((displaced t globalDx globalDy (canonicalPolygon g)).map t.transform) ≠
      canonicalPolygon (g.map fun p => shift globalDx globalDy (t.transform p)) := by
  obtain ⟨n, a, rfl⟩ := h.eq_replicate
  rw [displaced, canonicalPolygon_replicate, map_replicate, map_replicate,
    canonicalPolygon_replicate, canonicalPolygon_replicate, map_replicate]
  intro heq
  have hlength := congrArg List.length heq
  rw [length_replicate] at hlength
  cases n with
  | zero => cases hlength
  | succ n =>
    rw [canonicalPolygon_replicate, length_replicate] at hlength
    omega

/-- Any other polygon is displaced exactly. -/
theorem canonicalPolygon_displaced (h : ¬ OnePoint g) :
    canonicalPolygon ((displaced t globalDx globalDy (canonicalPolygon g)).map t.transform) =
      canonicalPolygon (g.map fun p => shift globalDx globalDy (t.transform p)) := by
  have hglobal : Rigid fun p => shift globalDx globalDy (t.transform p) :=
    (rigid_shift globalDx globalDy).comp t.rigid_transform
  have hlocal : Rigid fun p => t.inverse (shift globalDx globalDy (t.transform p)) :=
    t.rigid_inverse.comp hglobal
  have himage : ¬ OnePoint (g.map fun p =>
      t.inverse (shift globalDx globalDy (t.transform p))) := by
    rintro ⟨hlength, hall⟩
    refine h ⟨by rwa [length_map] at hlength, fun p hp q hq => hlocal.injective ?_⟩
    exact hall _ (mem_map_of_mem hp) _ (mem_map_of_mem hq)
  rw [displaced, canonicalPolygon_map_canonicalPolygon hlocal h,
    canonicalPolygon_map_canonicalPolygon t.rigid_transform himage, map_map]
  congr 1
  refine map_congr_left fun p _ => ?_
  exact OccurrenceTransform.transform_inverse _

end Polygon

/-! ## The replacements of a cell -/

/-- A layout object with its local polygon. -/
structure ShapedObject extends DRCAgent.LayoutObject where
  geometryDbu : Option (List Point) := none

/-- `item.geometry_dbu`, where it has a point. -/
def ShapedObject.geometry? (obj : ShapedObject) : Option (List Point) :=
  obj.geometryDbu.filter (· ≠ [])

/-- `FlattenedPhysicalGeometry`: the occurrence a translation is for. -/
structure FlattenedPhysicalGeometry where
  sourceObjectId : String
  sourceCell : Option String
  instanceAnchorId : String

structure InstanceLayerReplacement where
  instanceAnchorId : String
  parentCell : String
  sourceCell : String
  layer : String
  transform : OccurrenceTransform
  originalPolygonsLocalDbu : List (List Point)
  replacementPolygonsLocalDbu : List (List Point)
  occurrenceLocalFragment : Bool := false
  deriving DecidableEq

section Cell

variable (objects : List ShapedObject) (sourceCell : Option String)

/-- `layers`: the layers the cell has a polygon on, among the selected ones. -/
def cellLayers (selectedLayers : Option (List String)) : List String :=
  sortedSet ((objects.filter fun obj => obj.sourceCell = sourceCell && obj.geometry?.isSome &&
    selectedLayers.all (obj.layer ∈ ·)).map (·.layer))

/-- `layer_objects` -/
def layerObjects (layer : String) : List ShapedObject :=
  (objects.filter fun obj => obj.sourceCell = sourceCell && obj.layer = layer &&
    obj.geometry?.isSome).insertionSort fun a b => a.objectId ≤ b.objectId

/-- The polygons of `layer_objects`. -/
def layerGeometries (layer : String) : List (List Point) :=
  (layerObjects objects sourceCell layer).filterMap ShapedObject.geometry?

end Cell

/-- The replacement of one layer. -/
def translatedLayer (representative : FlattenedPhysicalGeometry) (objects : List ShapedObject)
    (caseId : String) (t : OccurrenceTransform) (globalDx globalDy : ℤ) (layer : String) :
    InstanceLayerReplacement :=
  let originalLocal := (layerGeometries objects representative.sourceCell layer).map
    canonicalPolygon
  { instanceAnchorId := representative.instanceAnchorId
    parentCell := "cell_" ++ caseId
    sourceCell := representative.sourceCell.getD "None"
    layer := layer
    transform := t
    originalPolygonsLocalDbu := originalLocal
    replacementPolygonsLocalDbu := originalLocal.map (displaced t globalDx globalDy) }

/-- **`_translated_occurrence_replacements`.**  `occurrenceTransform` stands for
`_occurrence_transform`, which compares the source polygon with the flattened one. -/
def translatedOccurrenceReplacements
    (occurrenceTransform : List Point → FlattenedPhysicalGeometry → Option OccurrenceTransform)
    (representative : FlattenedPhysicalGeometry) (objects : List ShapedObject)
    (objectById : String → Option ShapedObject) (caseId : String) (globalDx globalDy : ℤ)
    (selectedLayers : Option (List String)) : Option (List InstanceLayerReplacement) := do
  let source ← objectById representative.sourceObjectId
  let geometry ← source.geometry?
  let t ← occurrenceTransform geometry representative
  let layers := cellLayers objects representative.sourceCell selectedLayers
  if layers = [] ∨ 4 < layers.length then none
  else some (layers.map (translatedLayer representative objects caseId t globalDx globalDy))

/-- The replacement polygons of a layer, mapped back, are the polygons of the layer moved
by the displacement, in number and order. -/
def MovesExactly (objects : List ShapedObject) (sourceCell : Option String) (globalDx globalDy : ℤ)
    (r : InstanceLayerReplacement) : Prop :=
  List.Forall₂ (fun replacement g => canonicalPolygon (replacement.map r.transform.transform) =
      canonicalPolygon (g.map fun p => shift globalDx globalDy (r.transform.transform p)))
    r.replacementPolygonsLocalDbu (layerGeometries objects sourceCell r.layer)

section Exact

variable {representative : FlattenedPhysicalGeometry} {objects : List ShapedObject}
  {caseId : String} {t : OccurrenceTransform} {globalDx globalDy : ℤ}

/-- A layer moves exactly unless one of its polygons is a point. -/
theorem movesExactly_translatedLayer (layer : String) :
    MovesExactly objects representative.sourceCell globalDx globalDy
        (translatedLayer representative objects caseId t globalDx globalDy layer) ↔
      ∀ g ∈ layerGeometries objects representative.sourceCell layer, ¬ OnePoint g := by
  rw [MovesExactly, translatedLayer]
  dsimp only
  rw [map_map, forall₂_map_left_iff, forall₂_same]
  refine forall₂_congr fun g _ => ⟨fun h hone => ?_, fun h => canonicalPolygon_displaced h⟩
  exact canonicalPolygon_displaced_ne hone h

/-- What the function returns. -/
theorem translatedOccurrenceReplacements_some
    {occurrenceTransform : List Point → FlattenedPhysicalGeometry → Option OccurrenceTransform}
    {objectById : String → Option ShapedObject} {selectedLayers : Option (List String)}
    {replacements : List InstanceLayerReplacement}
    (h : translatedOccurrenceReplacements occurrenceTransform representative objects objectById
      caseId globalDx globalDy selectedLayers = some replacements) :
    ∃ t, replacements = (cellLayers objects representative.sourceCell selectedLayers).map
      (translatedLayer representative objects caseId t globalDx globalDy) := by
  rw [translatedOccurrenceReplacements] at h
  obtain ⟨source, -, h⟩ := Option.bind_eq_some_iff.1 h
  obtain ⟨geometry, -, h⟩ := Option.bind_eq_some_iff.1 h
  obtain ⟨t, -, h⟩ := Option.bind_eq_some_iff.1 h
  dsimp only at h
  split_ifs at h
  exact ⟨t, (Option.some.inj h).symm⟩

end Exact

/-- **Translations of an occurrence.** -/
theorem translation_exact_iff
    (occurrenceTransform : List Point → FlattenedPhysicalGeometry → Option OccurrenceTransform)
    (representative : FlattenedPhysicalGeometry) (objects : List ShapedObject)
    (objectById : String → Option ShapedObject) (caseId : String) (globalDx globalDy : ℤ)
    (selectedLayers : Option (List String)) (replacements : List InstanceLayerReplacement)
    (h : translatedOccurrenceReplacements occurrenceTransform representative objects objectById
      caseId globalDx globalDy selectedLayers = some replacements) :
    ((∀ r ∈ replacements, MovesExactly objects representative.sourceCell globalDx globalDy r) ↔
      ∀ r ∈ replacements, ∀ g ∈ layerGeometries objects representative.sourceCell r.layer,
        ¬ OnePoint g) ∧
      ∀ (t : OccurrenceTransform) (p : Point), t.inverse (t.transform p) = p := by
  refine ⟨?_, fun t p => OccurrenceTransform.inverse_transform p⟩
  obtain ⟨t, rfl⟩ := translatedOccurrenceReplacements_some h
  simp only [forall_mem_map]
  exact forall₂_congr fun layer _ => movesExactly_translatedLayer layer

/-- A cell with a triangle on one layer. -/
def triangleCell (geometry : List Point) : List ShapedObject :=
  [{ objectId := "o1", sourceAnchorId := none, sourceVariable := none, sourceCell := some "c"
     layer := "M1", geometryHash := "h", geometryDbu := some geometry }]

/-- The occurrence of the cell. -/
def triangleOccurrence : FlattenedPhysicalGeometry := ⟨"o1", some "c", "i1"⟩

/-- The occurrence is rotated by a quarter turn, mirrored and moved. -/
def triangleTransform : OccurrenceTransform := ⟨1, true, 10, 20⟩

/-- The replacements of the cell when the occurrence moves by `(3, 4)`. -/
def triangleReplacements (geometry : List Point) : Option (List InstanceLayerReplacement) :=
  translatedOccurrenceReplacements (fun _ _ => some triangleTransform) triangleOccurrence
    (triangleCell geometry) (fun id => (triangleCell geometry).find? (·.objectId = id)) "1" 3 4 none

/-- A polygon of four vertices at the origin comes back with one vertex. -/
theorem repeated_point_shrinks :
    ∃ r, triangleReplacements (replicate 4 ⟨0, 0⟩) = some [r] ∧
      r.originalPolygonsLocalDbu = [replicate 3 ⟨0, 0⟩] ∧
      r.replacementPolygonsLocalDbu.map (fun g =>
        canonicalPolygon (g.map r.transform.transform)) = [[⟨13, 24⟩]] ∧
      canonicalPolygon ((replicate 4 ⟨0, 0⟩).map fun p =>
        shift 3 4 (r.transform.transform p)) = replicate 3 ⟨13, 24⟩ ∧
      ¬ MovesExactly (triangleCell (replicate 4 ⟨0, 0⟩)) (some "c") 3 4 r := by
  refine ⟨translatedLayer triangleOccurrence (triangleCell (replicate 4 ⟨0, 0⟩)) "1"
    triangleTransform 3 4 "M1", by decide +kernel, by decide +kernel, by decide +kernel,
    by decide +kernel, ?_⟩
  intro hmoves
  have hlayer : layerGeometries (triangleCell (replicate 4 ⟨0, 0⟩)) (some "c") "M1" =
      [replicate 4 ⟨0, 0⟩] := by decide +kernel
  have hnone : ∀ g ∈ layerGeometries (triangleCell (replicate 4 ⟨0, 0⟩))
      triangleOccurrence.sourceCell "M1", ¬ OnePoint g :=
    (movesExactly_translatedLayer "M1").1 hmoves
  exact hnone (replicate 4 ⟨0, 0⟩) (hlayer ▸ mem_singleton_self _) (by decide)

theorem translation_exact_iff_triangle :
    ∃ replacements, triangleReplacements [⟨0, 0⟩, ⟨4, 0⟩, ⟨0, 2⟩] = some replacements ∧
      ((∀ r ∈ replacements, MovesExactly (triangleCell [⟨0, 0⟩, ⟨4, 0⟩, ⟨0, 2⟩])
          triangleOccurrence.sourceCell 3 4 r) ↔
        ∀ r ∈ replacements, ∀ g ∈ layerGeometries (triangleCell [⟨0, 0⟩, ⟨4, 0⟩, ⟨0, 2⟩])
          triangleOccurrence.sourceCell r.layer, ¬ OnePoint g) := by
  refine ⟨[translatedLayer triangleOccurrence (triangleCell [⟨0, 0⟩, ⟨4, 0⟩, ⟨0, 2⟩]) "1"
    triangleTransform 3 4 "M1"], by decide +kernel, ?_⟩
  exact (translation_exact_iff (fun _ _ => some triangleTransform) triangleOccurrence
    (triangleCell [⟨0, 0⟩, ⟨4, 0⟩, ⟨0, 2⟩]) (fun id => (triangleCell [⟨0, 0⟩, ⟨4, 0⟩,
      ⟨0, 2⟩]).find? (·.objectId = id)) "1" 3 4 none _ (by decide +kernel)).1

end DRCAgent.EditAuthority
