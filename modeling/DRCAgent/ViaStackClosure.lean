/-
# Keeping a via inside its landings

`_via_stack_containment_replacements` (edit_authority/proposals.py): when a via of one occurrence
of a cell is resized, the smallest landing on each other metal layer that contained the via has to
contain it again. Where no other geometry covers the via already, the source polygon of the
landing is replaced by a larger rectangle, pulled back through the occurrence transform.

Main result:

* `via_stack_closed`: on each layer with a landing the resized via is inside the smallest one or
  inside a covering geometry, and each replacement enlarges one rectangle and keeps the others.
-/
import DRCAgent.CandidateChecker

namespace DRCAgent.EditAuthority

open List Regions Candidates

/-! ## The source -/

/-- `FlattenedPhysicalGeometry`, as far as the proposals read it. -/
structure PhysicalGeometry where
  geometryId : String
  sourceObjectId : Option String
  sourceCell : Option String
  instanceAnchorId : Option String
  layer : String
  polygonDbu : List Point
  bboxDbu : Box
  deriving DecidableEq

/-- `_contains_box` -/
def containsBox (outer inner : Box) : Bool :=
  outer.x1 ≤ inner.x1 && inner.x1 ≤ inner.x2 && inner.x2 ≤ outer.x2 &&
    (outer.y1 ≤ inner.y1 && inner.y1 ≤ inner.y2 && inner.y2 ≤ outer.y2)

/-- The lower side of the closed landing. -/
def stretchLow (landing changed margin : ℤ) : ℤ :=
  min landing (if changed < landing then changed - margin else changed)

/-- The upper side of the closed landing. -/
def stretchHigh (landing changed margin : ℤ) : ℤ :=
  max landing (if landing < changed then changed + margin else changed)

/-- The landing grown to the changed via, with the margins of an extent. -/
def grownLanding (landing extent changedVia : Box) : Box where
  x1 := stretchLow landing.x1 changedVia.x1 (max 0 (extent.x1 - landing.x1))
  y1 := stretchLow landing.y1 changedVia.y1 (max 0 (extent.y1 - landing.y1))
  x2 := stretchHigh landing.x2 changedVia.x2 (max 0 (landing.x2 - extent.x2))
  y2 := stretchHigh landing.y2 changedVia.y2 (max 0 (landing.y2 - extent.y2))
  ordered :=
    ⟨(min_le_left _ _).trans (landing.ordered.1.trans (le_max_left _ _)),
      (min_le_left _ _).trans (landing.ordered.2.trans (le_max_left _ _))⟩

/-- **`_closed_containing_box`** -/
def closedContainingBox (originalLanding originalVia changedVia : Box)
    (currentComponent originalViaComponent : List Box) : Option Box :=
  if !containsBox originalLanding originalVia then none
  else if currentComponent.any (containsBox · changedVia) then some originalLanding
  else
    let originalExtent := originalViaComponent.foldl Box.union originalVia
    some (grownLanding originalLanding originalExtent changedVia)

/-- The number of a via layer, in ASCII digits; the source takes those of any script. -/
def viaIndex (layer : String) : Option ℕ :=
  match layer.toList with
  | 'V' :: digits =>
    if digits ≠ [] ∧ digits.all Char.isDigit then
      some (digits.foldl (fun index digit => 10 * index + (digit.toNat - '0'.toNat)) 0)
    else none
  | _ => none

/-- `adjacent_layers` -/
def adjacentLayers (layer : String) : Option (List String) :=
  (viaIndex layer).map fun index => ["M" ++ toString index, "M" ++ toString (index + 1)]

/-- A metal layer next to the via, other than the one of the relation. -/
def otherMetal (viaLayer relationMetalLayer layer : String) : Bool :=
  layer.toList.head? = some 'M' && (adjacentLayers viaLayer).all (layer ∈ ·) &&
    layer ≠ relationMetalLayer

/-- The box of the points of a polygon. -/
def boundingBox : List Point → Option Box
  | [] => none
  | p :: points => some (hull p points)

/-- `canonical_polygon(list(item.geometry_dbu or []))` -/
def localPolygon (item : ShapedObject) : List Point :=
  canonicalPolygon (item.geometryDbu.getD [])

/-- `(item.bbox_dbu.width * item.bbox_dbu.height, item.geometry_id)` -/
def sizeKey (item : PhysicalGeometry) : ℤ ×ₗ String :=
  toLex (item.bboxDbu.width * item.bboxDbu.height, item.geometryId)

/-- `min(candidates, key=...)` -/
def smallest : List PhysicalGeometry → Option PhysicalGeometry
  | [] => none
  | item :: rest =>
    some (rest.foldl (fun best other => if sizeKey other < sizeKey best then other else best)
      item)

/-- A resized via of an occurrence, and what the closure is computed from. `rectanglePoints` is
the imported `rectangle_points`, `projectionId` the id of a projected source. -/
structure ViaChange where
  rectanglePoints : Box → List Point
  projectionId : Option String → String → List Point → String
  representative : PhysicalGeometry
  changedVia : Box
  relationMetalLayer : String
  objects : List ShapedObject
  physical : List PhysicalGeometry
  transform : OccurrenceTransform
  caseId : String

namespace ViaChange

variable (change : ViaChange)

/-- A geometry of the occurrence. -/
def ofOccurrence (item : PhysicalGeometry) : Bool :=
  item.instanceAnchorId = change.representative.instanceAnchorId &&
    item.sourceCell = change.representative.sourceCell

/-- A layer the closure is about. -/
def closes (layer : String) : Bool :=
  otherMetal change.representative.layer change.relationMetalLayer layer

/-- The landings among the flattened geometries. -/
def flattenedLandings : List PhysicalGeometry :=
  change.physical.filter fun item =>
    change.ofOccurrence item && change.closes item.layer && item.sourceObjectId.isSome &&
      containsBox item.bboxDbu change.representative.bboxDbu

/-- A source polygon of the cell, seen in the occurrence. -/
def project (source : ShapedObject) : Option PhysicalGeometry := do
  let geometry ← source.geometry?
  let polygon := canonicalPolygon (geometry.map change.transform.transform)
  let bbox ← boundingBox polygon
  some { geometryId := change.projectionId change.representative.instanceAnchorId
           source.objectId polygon
         sourceObjectId := source.objectId
         sourceCell := change.representative.sourceCell
         instanceAnchorId := change.representative.instanceAnchorId
         layer := source.layer
         polygonDbu := polygon
         bboxDbu := bbox }

/-- The landings that only the sources of the cell show. -/
def projectedLandings : List PhysicalGeometry :=
  let projectedSources :=
    change.flattenedLandings.map fun item => (item.layer, item.sourceObjectId.getD "None")
  ((change.objects.filter fun source =>
      source.sourceCell = change.representative.sourceCell && change.closes source.layer &&
        (source.layer, source.objectId) ∉ projectedSources).filterMap change.project).filter
    fun item => containsBox item.bboxDbu change.representative.bboxDbu

/-- `candidates` of a layer. -/
def landings (layer : String) : List PhysicalGeometry :=
  (change.flattenedLandings ++ change.projectedLandings).filter (·.layer = layer)

/-- `exact_rectangle` -/
def exactRectangle (item : PhysicalGeometry) : Bool :=
  canonicalPolygon item.polygonDbu = canonicalPolygon (change.rectanglePoints item.bboxDbu)

/-- The geometry covers the changed via and overlaps the landing. -/
def isCover (landing item : PhysicalGeometry) : Bool :=
  item.layer = landing.layer && change.exactRectangle item &&
    0 < item.bboxDbu.intersectionArea landing.bboxDbu &&
      containsBox item.bboxDbu change.changedVia

/-- `closed` -/
def closedBox (landing : PhysicalGeometry) : Option Box :=
  closedContainingBox landing.bboxDbu change.representative.bboxDbu change.changedVia
    ((change.physical.filter (change.isCover landing)).map (·.bboxDbu))
    ((change.physical.filter fun item =>
      item.layer = change.representative.layer && change.ofOccurrence item).map (·.bboxDbu))

/-- The replacement of a landing by a larger rectangle. -/
def grow (layer : String) (targetIndex : ℕ) (closed : Box) : InstanceLayerReplacement :=
  let originalLocal :=
    (layerObjects change.objects change.representative.sourceCell layer).map localPolygon
  { instanceAnchorId := change.representative.instanceAnchorId.getD "None"
    parentCell := "cell_" ++ change.caseId
    sourceCell := change.representative.sourceCell.getD "None"
    layer := layer
    transform := change.transform
    originalPolygonsLocalDbu := originalLocal
    replacementPolygonsLocalDbu := originalLocal.set targetIndex (canonicalPolygon
      ((change.rectanglePoints closed).map change.transform.inverse)) }

/-- The index of the source of a landing among the polygons of its layer. -/
def targetIndex (landing : PhysicalGeometry) : Option ℕ :=
  (layerObjects change.objects change.representative.sourceCell landing.layer).findIdx?
    fun item => some item.objectId = landing.sourceObjectId

/-- The turn of one layer: the function gives up, or there may be a replacement. -/
def closeLayer (layer : String) : Option (Option InstanceLayerReplacement) := do
  let landing ← smallest (change.landings layer)
  if !change.exactRectangle landing || !change.exactRectangle change.representative then none
  else if containsBox landing.bboxDbu change.changedVia then some none
  else
    let closed ← change.closedBox landing
    if !containsBox closed landing.bboxDbu then none
    else if closed = landing.bboxDbu then some none
    else
      let index ← change.targetIndex landing
      some (some (change.grow layer index closed))

/-- **`_via_stack_containment_replacements`** -/
def viaStackContainmentReplacements : Option (List InstanceLayerReplacement) :=
  if change.representative.instanceAnchorId.isNone || change.representative.sourceCell.isNone then
    none
  else
    let byLayer :=
      sortedSet ((change.flattenedLandings ++ change.projectedLandings).map (·.layer))
    (byLayer.mapM change.closeLayer).map reduceOption

/-! ## What the closure is for -/

/-- The transform takes each source polygon of the cell to the flattened polygon of the occurrence,
which is known by its layer and its source. -/
structure Flattens (flattened : String → String → List Point) : Prop where
  sources : ∀ source ∈ change.objects, source.sourceCell = change.representative.sourceCell →
    ∀ geometry, source.geometry? = some geometry →
      canonicalPolygon (geometry.map change.transform.transform) =
        canonicalPolygon (flattened source.layer source.objectId)
  items : ∀ item ∈ change.physical, change.ofOccurrence item = true →
    ∀ sourceId, item.sourceObjectId = some sourceId →
      canonicalPolygon item.polygonDbu = canonicalPolygon (flattened item.layer sourceId)

/-- A landing of the occurrence contains the old via on the layer: a flattened geometry with a
source, or a source of the cell seen in the occurrence. -/
def HasLanding (layer : String) : Prop :=
  change.closes layer = true ∧
    ((∃ item ∈ change.physical, change.ofOccurrence item = true ∧ item.layer = layer ∧
        item.sourceObjectId.isSome = true ∧
          containsBox item.bboxDbu change.representative.bboxDbu = true) ∨
      ∃ source ∈ change.objects, source.sourceCell = change.representative.sourceCell ∧
        source.layer = layer ∧ ∃ projected, change.project source = some projected ∧
          containsBox projected.bboxDbu change.representative.bboxDbu = true)

/-- No landing of the layer is smaller. -/
def IsSmallest (layer : String) (landing : PhysicalGeometry) : Prop :=
  landing ∈ change.landings layer ∧
    ∀ other ∈ change.landings layer, landing.bboxDbu.area ≤ other.bboxDbu.area

/-- The box of a landing once the replacements are applied. -/
def boxAfter (replacements : List InstanceLayerReplacement) (landing : PhysicalGeometry) : Box :=
  match replacements.find? (·.layer = landing.layer), change.targetIndex landing with
  | some r, some index =>
    (boundingBox ((r.replacementPolygonsLocalDbu.getD index []).map
      change.transform.transform)).getD landing.bboxDbu
  | _, _ => landing.bboxDbu

/-- One rectangle of a layer is replaced by another that contains it. -/
structure EnlargesAt (r : InstanceLayerReplacement) (index : ℕ) (polygon polygon' : List Point)
    (box box' : Box) : Prop where
  original : r.originalPolygonsLocalDbu =
    (layerObjects change.objects change.representative.sourceCell r.layer).map localPolygon
  before : r.originalPolygonsLocalDbu[index]? = some polygon
  after : r.replacementPolygonsLocalDbu = r.originalPolygonsLocalDbu.set index polygon'
  changes : polygon' ≠ polygon
  oldRectangle : ∀ p, p ∈ polygon.map change.transform.transform ↔ p ∈ change.rectanglePoints box
  newRectangle : canonicalPolygon (polygon'.map change.transform.transform) =
    canonicalPolygon (change.rectanglePoints box')
  larger : containsBox box' box = true

end ViaChange

/-! ## Boxes -/

section Boxes

variable {outer inner middle : Box}

theorem containsBox_iff : containsBox outer inner = true ↔
    (outer.x1 ≤ inner.x1 ∧ inner.x2 ≤ outer.x2) ∧ outer.y1 ≤ inner.y1 ∧ inner.y2 ≤ outer.y2 := by
  have hordered := inner.ordered
  simp only [containsBox, Bool.and_eq_true, decide_eq_true_eq]
  omega

theorem containsBox_antisymm (h : containsBox outer inner = true)
    (h' : containsBox inner outer = true) : outer = inner := by
  rw [containsBox_iff] at h h'
  cases outer
  cases inner
  simp only [Box.mk.injEq] at h h' ⊢
  omega

theorem stretchLow_le (landing changed : ℤ) {margin : ℤ} (h : 0 ≤ margin) :
    stretchLow landing changed margin ≤ landing ∧ stretchLow landing changed margin ≤ changed := by
  rw [stretchLow]
  split_ifs <;> omega

theorem le_stretchHigh (landing changed : ℤ) {margin : ℤ} (h : 0 ≤ margin) :
    landing ≤ stretchHigh landing changed margin ∧
      changed ≤ stretchHigh landing changed margin := by
  rw [stretchHigh]
  split_ifs <;> omega

/-- The grown landing contains the landing and the changed via. -/
theorem containsBox_grownLanding (landing extent changedVia : Box) :
    containsBox (grownLanding landing extent changedVia) landing = true ∧
      containsBox (grownLanding landing extent changedVia) changedVia = true := by
  have hleft := stretchLow_le landing.x1 changedVia.x1 (le_max_left 0 (extent.x1 - landing.x1))
  have hbottom := stretchLow_le landing.y1 changedVia.y1 (le_max_left 0 (extent.y1 - landing.y1))
  have hright := le_stretchHigh landing.x2 changedVia.x2 (le_max_left 0 (landing.x2 - extent.x2))
  have htop := le_stretchHigh landing.y2 changedVia.y2 (le_max_left 0 (landing.y2 - extent.y2))
  rw [containsBox_iff, containsBox_iff]
  exact ⟨⟨⟨hleft.1, hright.1⟩, hbottom.1, htop.1⟩, ⟨hleft.2, hright.2⟩, hbottom.2, htop.2⟩

/-- **The closed landing** contains the changed via, or something else does. -/
theorem closedContainingBox_cases {landing via changedVia closed : Box}
    {component viaComponent : List Box}
    (h : closedContainingBox landing via changedVia component viaComponent = some closed) :
    (closed = landing ∧ ∃ item ∈ component, containsBox item changedVia = true) ∨
      (containsBox closed landing = true ∧ containsBox closed changedVia = true) := by
  rw [closedContainingBox] at h
  split_ifs at h with hvia hcover
  · obtain ⟨item, hmem, hitem⟩ := any_eq_true.1 hcover
    exact .inl ⟨(Option.some.inj h).symm, item, hmem, hitem⟩
  · obtain rfl := Option.some.inj h
    exact .inr (containsBox_grownLanding _ _ _)

/-- The sides of a box that some points reach without leaving it. -/
structure Bounds (box : Box) (points : List Point) : Prop where
  inside : ∀ p ∈ points, (box.x1 ≤ p.x ∧ p.x ≤ box.x2) ∧ box.y1 ≤ p.y ∧ p.y ≤ box.y2
  left : ∃ p ∈ points, p.x = box.x1
  right : ∃ p ∈ points, p.x = box.x2
  bottom : ∃ p ∈ points, p.y = box.y1
  top : ∃ p ∈ points, p.y = box.y2

variable {points points' : List Point} {box box' : Box}

theorem Bounds.congr (h : Bounds box points) (hmem : ∀ p, p ∈ points ↔ p ∈ points') :
    Bounds box points' := by
  have hexists : ∀ {P : Point → Prop}, (∃ p ∈ points, P p) → ∃ p ∈ points', P p :=
    fun ⟨p, hp, hP⟩ => ⟨p, (hmem p).1 hp, hP⟩
  exact ⟨fun p hp => h.inside p ((hmem p).2 hp), hexists h.left, hexists h.right,
    hexists h.bottom, hexists h.top⟩

/-- There is one such box. -/
theorem Bounds.eq (h : Bounds box points) (h' : Bounds box' points) : box = box' := by
  have hle : ∀ {b b' : Box}, Bounds b points → Bounds b' points → containsBox b b' = true := by
    intro b b' hb hb'
    obtain ⟨p, hp, hleft⟩ := hb'.left
    obtain ⟨q, hq, hright⟩ := hb'.right
    obtain ⟨r, hr, hbottom⟩ := hb'.bottom
    obtain ⟨s, hs, htop⟩ := hb'.top
    rw [containsBox_iff, ← hleft, ← hright, ← hbottom, ← htop]
    exact ⟨⟨(hb.inside p hp).1.1, (hb.inside q hq).1.2⟩, (hb.inside r hr).2.1, (hb.inside s hs).2.2⟩
  exact containsBox_antisymm (hle h h') (hle h' h)

theorem bounds_hull (p : Point) (rest : List Point) : Bounds (hull p rest) (p :: rest) := by
  induction rest using reverseRecOn with
  | nil =>
    have hmem := mem_singleton_self p
    refine ⟨fun q hq => ?_, ⟨p, hmem, rfl⟩, ⟨p, hmem, rfl⟩, ⟨p, hmem, rfl⟩, ⟨p, hmem, rfl⟩⟩
    rw [mem_singleton.1 hq]
    exact ⟨⟨le_rfl, le_rfl⟩, le_rfl, le_rfl⟩
  | append_singleton rest q ih =>
    have hhull : hull p (rest ++ [q]) = (hull p rest).union (pointBox q) := by
      rw [hull, foldl_append]
      rfl
    have hold : ∀ {r : Point}, r ∈ p :: rest → r ∈ p :: (rest ++ [q]) := by
      intro r hr
      rw [← cons_append]
      exact mem_append_left _ hr
    have hnew : q ∈ p :: (rest ++ [q]) := by simp
    have hside : ∀ {m : ℤ} {a : Point → ℤ} {c : ℤ}, (∃ r ∈ p :: rest, a r = c) →
        (m = c ∨ m = a q) → ∃ r ∈ p :: (rest ++ [q]), a r = m := by
      rintro m a c ⟨r, hr, hc⟩ (rfl | rfl)
      · exact ⟨r, hold hr, hc⟩
      · exact ⟨q, hnew, rfl⟩
    rw [hhull]
    refine ⟨fun r hr => ?_, hside ih.left (min_choice _ _), hside ih.right (max_choice _ _),
      hside ih.bottom (min_choice _ _), hside ih.top (max_choice _ _)⟩
    have hcases : r ∈ p :: rest ∨ r = q := by simpa [or_assoc] using hr
    rw [Box.union, pointBox]
    dsimp only
    rcases hcases with hr | rfl
    · have hinside := ih.inside r hr
      omega
    · omega

theorem boundingBox_eq_some_iff : boundingBox points = some box ↔ Bounds box points := by
  cases points with
  | nil =>
    rw [boundingBox]
    exact ⟨fun h => absurd h (by simp), fun h => absurd h.left (by simp)⟩
  | cons p rest =>
    rw [boundingBox, Option.some.injEq]
    constructor
    · rintro rfl
      exact bounds_hull p rest
    · exact fun h => (bounds_hull p rest).eq h

/-- The points of a rectangle are the corners of its box. -/
def Corners (rectanglePoints : Box → List Point) : Prop :=
  ∀ box p, p ∈ rectanglePoints box ↔ (p.x = box.x1 ∨ p.x = box.x2) ∧ (p.y = box.y1 ∨ p.y = box.y2)

theorem Corners.bounds {rectanglePoints : Box → List Point} (h : Corners rectanglePoints)
    (box : Box) : Bounds box (rectanglePoints box) := by
  have hordered := box.ordered
  refine ⟨fun p hp => ?_, ⟨⟨box.x1, box.y1⟩, (h _ _).2 ⟨.inl rfl, .inl rfl⟩, rfl⟩,
    ⟨⟨box.x2, box.y1⟩, (h _ _).2 ⟨.inr rfl, .inl rfl⟩, rfl⟩,
    ⟨⟨box.x1, box.y1⟩, (h _ _).2 ⟨.inl rfl, .inl rfl⟩, rfl⟩,
    ⟨⟨box.x1, box.y2⟩, (h _ _).2 ⟨.inl rfl, .inr rfl⟩, rfl⟩⟩
  have hcorner := (h box p).1 hp
  omega

end Boxes

/-! ## The least landing -/

section Smallest

variable {candidates : List PhysicalGeometry} {landing : PhysicalGeometry}

/-- The running minimum is one of the candidates, and none is smaller. -/
theorem smallest_spec (h : smallest candidates = some landing) :
    landing ∈ candidates ∧ ∀ other ∈ candidates, sizeKey landing ≤ sizeKey other := by
  cases candidates with
  | nil => exact absurd h (by simp [smallest])
  | cons item rest =>
    rw [smallest, Option.some.injEq] at h
    subst h
    induction rest using reverseRecOn with
    | nil => exact ⟨mem_singleton_self item, fun other hother => by
        rw [mem_singleton.1 hother]
        exact le_rfl⟩
    | append_singleton rest last ih =>
      obtain ⟨hmem, hleast⟩ := ih
      rw [foldl_append, foldl_cons, foldl_nil, ← cons_append]
      split_ifs with hsmaller
      · refine ⟨mem_append_right _ (mem_singleton_self _), fun other hother => ?_⟩
        rcases mem_append.1 hother with hother | hother
        · exact hsmaller.le.trans (hleast other hother)
        · rw [mem_singleton.1 hother]
      · refine ⟨mem_append_left _ hmem, fun other hother => ?_⟩
        rcases mem_append.1 hother with hother | hother
        · exact hleast other hother
        · rw [mem_singleton.1 hother]
          exact not_lt.1 hsmaller

theorem area_le_of_sizeKey_le {a b : PhysicalGeometry} (h : sizeKey a ≤ sizeKey b) :
    a.bboxDbu.area ≤ b.bboxDbu.area := by
  rcases Prod.Lex.le_iff.1 h with hlt | heq
  · exact hlt.le
  · exact heq.1.le

end Smallest

/-! ## The turns of the layers -/

section Turns

variable {α : Type} {β : Type} {f : α → Option (Option β)} {xs : List α}

/-- What a loop returns that may give up, and may add a value in each turn. -/
theorem mapM_reduceOption {values : List (Option β)} (h : xs.mapM f = some values) :
    (∀ x ∈ xs, (f x).isSome = true) ∧ values.reduceOption = xs.filterMap fun x => (f x).join := by
  induction xs generalizing values with
  | nil =>
    obtain rfl : values = [] := by simpa using h.symm
    exact ⟨by simp, rfl⟩
  | cons x xs ih =>
    rw [mapM_cons] at h
    obtain ⟨value, hx, h⟩ := Option.bind_eq_some_iff.1 h
    obtain ⟨rest, hrest, h⟩ := Option.bind_eq_some_iff.1 h
    obtain rfl := Option.some.inj h
    obtain ⟨hsome, hvalues⟩ := ih hrest
    refine ⟨forall_mem_cons.2 ⟨by rw [hx]; rfl, hsome⟩, ?_⟩
    cases value with
    | none => rw [reduceOption_cons_of_none, filterMap_cons, hx, hvalues]; rfl
    | some b => rw [reduceOption_cons_of_some, filterMap_cons, hx, hvalues]; rfl

/-- The value of a turn is found by what it was made for. -/
theorem find?_filterMap_key {γ : Type} [DecidableEq γ] {xs : List γ} {g : γ → Option β}
    {key : β → γ} (hkey : ∀ x b, g x = some b → key b = x) {x : γ} (hx : x ∈ xs) :
    (xs.filterMap g).find? (fun b => key b = x) = g x := by
  induction xs with
  | nil => exact absurd hx not_mem_nil
  | cons y ys ih =>
    by_cases hyx : y = x
    · subst hyx
      cases hy : g y with
      | some b =>
        rw [filterMap_cons_some hy, find?_cons_of_pos (by simp [hkey y b hy])]
      | none =>
        rw [filterMap_cons_none hy, find?_eq_none]
        intro b hb
        obtain ⟨z, -, hz⟩ := mem_filterMap.1 hb
        have hzb := hkey z b hz
        simp only [decide_eq_true_eq]
        rintro rfl
        rw [← hzb, hy] at hz
        exact absurd hz (by simp)
    · have hmem : x ∈ ys := (mem_cons.1 hx).resolve_left (Ne.symm hyx)
      cases hy : g y with
      | some b =>
        have hne : ¬ key b = x := by
          rw [hkey y b hy]
          exact hyx
        rw [filterMap_cons_some hy, find?_cons_of_neg (by simpa using hne), ih hmem]
      | none => rw [filterMap_cons_none hy, ih hmem]

end Turns

/-! ## Landings and their sources -/

section Landings

variable {change : ViaChange} {layer : String} {landing : PhysicalGeometry}

theorem mem_layerObjects {objects : List ShapedObject} {sourceCell : Option String}
    {item : ShapedObject} : item ∈ layerObjects objects sourceCell layer ↔
      item ∈ objects ∧ (item.sourceCell = sourceCell ∧ item.layer = layer) ∧
        item.geometry?.isSome = true := by
  rw [layerObjects, mem_insertionSort, mem_filter, Bool.and_eq_true, Bool.and_eq_true,
    decide_eq_true_eq, decide_eq_true_eq]

/-- Points with one canonical form are the same points. -/
theorem mem_of_canonicalPolygon_eq {s s' : List Point}
    (h : canonicalPolygon s = canonicalPolygon s') (p : Point) : p ∈ s ↔ p ∈ s' := by
  rw [← mem_canonicalPolygon, h, mem_canonicalPolygon]

/-- Where a landing comes from. -/
theorem mem_landings (h : landing ∈ change.landings layer) :
    landing.layer = layer ∧ ((landing ∈ change.physical ∧ change.ofOccurrence landing = true ∧
        landing.sourceObjectId.isSome = true) ∨
      ∃ source ∈ change.objects, source.sourceCell = change.representative.sourceCell ∧
        change.project source = some landing) := by
  rw [ViaChange.landings, mem_filter, decide_eq_true_eq] at h
  refine ⟨h.2, ?_⟩
  rcases mem_append.1 h.1 with hflat | hprojected
  · simp only [ViaChange.flattenedLandings, mem_filter, Bool.and_eq_true] at hflat
    exact .inl ⟨hflat.1, hflat.2.1.1.1, hflat.2.1.2⟩
  · rw [ViaChange.projectedLandings, mem_filter, mem_filterMap] at hprojected
    obtain ⟨⟨source, hsource, hproject⟩, -⟩ := hprojected
    simp only [mem_filter, Bool.and_eq_true, decide_eq_true_eq] at hsource
    exact .inr ⟨source, hsource.1, hsource.2.1.1, hproject⟩

/-- What a projected source is. -/
theorem project_eq_some {source : ShapedObject} (h : change.project source = some landing) :
    ∃ geometry, source.geometry? = some geometry ∧
      landing.polygonDbu = canonicalPolygon (geometry.map change.transform.transform) ∧
        landing.layer = source.layer ∧ landing.sourceObjectId = some source.objectId := by
  rw [ViaChange.project] at h
  obtain ⟨geometry, hgeometry, h⟩ := Option.bind_eq_some_iff.1 h
  obtain ⟨bbox, -, h⟩ := Option.bind_eq_some_iff.1 h
  obtain rfl := Option.some.inj h
  exact ⟨geometry, hgeometry, rfl, rfl, rfl⟩

/-- A layer with a landing has a candidate. -/
theorem landings_ne_nil (h : change.HasLanding layer) : change.landings layer ≠ [] := by
  obtain ⟨hcloses, ⟨item, hitem, hoccurrence, rfl, hsource, hcontains⟩ |
    ⟨source, hsource, hcell, rfl, projected, hproject, hcontains⟩⟩ := h
  · refine ne_nil_of_mem (a := item) ?_
    simp [ViaChange.landings, ViaChange.flattenedLandings, hitem, hoccurrence, hcloses, hsource,
      hcontains]
  · obtain ⟨geometry, -, -, hlayer, -⟩ := project_eq_some hproject
    by_cases hprojected : (source.layer, source.objectId) ∈ change.flattenedLandings.map
        fun item => (item.layer, item.sourceObjectId.getD "None")
    · -- the source has a flattened geometry already
      obtain ⟨item, hitem, heq⟩ := mem_map.1 hprojected
      refine ne_nil_of_mem (a := item) ?_
      rw [ViaChange.landings, mem_filter, decide_eq_true_eq]
      exact ⟨mem_append_left _ hitem, (Prod.mk.inj heq).1⟩
    · refine ne_nil_of_mem (a := projected) ?_
      rw [ViaChange.landings, mem_filter, decide_eq_true_eq]
      refine ⟨mem_append_right _ ?_, hlayer⟩
      rw [ViaChange.projectedLandings, mem_filter, mem_filterMap]
      refine ⟨⟨source, ?_, hproject⟩, hcontains⟩
      rw [mem_filter, Bool.and_eq_true, Bool.and_eq_true, decide_eq_true_eq, decide_eq_true_eq]
      exact ⟨hsource, ⟨hcell, hcloses⟩, hprojected⟩

section Flattened

variable {flattened : String → String → List Point} (hflattens : change.Flattens flattened)

include hflattens

/-- A landing has the points of the flattened polygon of its source. -/
theorem mem_landing_polygon (h : landing ∈ change.landings layer) {sourceId : String}
    (hsource : landing.sourceObjectId = some sourceId) (p : Point) :
    p ∈ landing.polygonDbu ↔ p ∈ flattened layer sourceId := by
  obtain ⟨rfl, ⟨hmem, hoccurrence, -⟩ | ⟨source, hmem, hcell, hproject⟩⟩ := mem_landings h
  · exact mem_of_canonicalPolygon_eq (hflattens.items landing hmem hoccurrence sourceId hsource) p
  · obtain ⟨geometry, hgeometry, hpolygon, hlayer, hid⟩ := project_eq_some hproject
    obtain rfl : source.objectId = sourceId := Option.some.inj (hid.symm.trans hsource)
    rw [hpolygon, mem_canonicalPolygon, hlayer]
    exact mem_of_canonicalPolygon_eq (hflattens.sources source hmem hcell geometry hgeometry) p

/-- A source polygon of the cell, taken through the transform, has the same points. -/
theorem mem_source_polygon {source : ShapedObject}
    (h : source ∈ layerObjects change.objects change.representative.sourceCell layer) (p : Point) :
    p ∈ (localPolygon source).map change.transform.transform ↔
      p ∈ flattened layer source.objectId := by
  obtain ⟨hmem, ⟨hcell, rfl⟩, hsome⟩ := mem_layerObjects.1 h
  obtain ⟨geometry, hgeometry⟩ := Option.isSome_iff_exists.1 hsome
  have hdbu : source.geometryDbu = some geometry :=
    (Option.filter_eq_some_iff.1 hgeometry).1
  rw [← mem_of_canonicalPolygon_eq (hflattens.sources source hmem hcell geometry hgeometry) p,
    localPolygon, hdbu, Option.getD_some, mem_map, mem_map]
  exact exists_congr fun q => and_congr_left fun _ => mem_canonicalPolygon

end Flattened

end Landings

/-! ## The closure -/

section Closure

variable {change : ViaChange} {layer : String}

/-- What the turn of a layer comes to. -/
theorem closeLayer_cases {result : Option InstanceLayerReplacement}
    (h : change.closeLayer layer = some result) :
    ∃ landing, smallest (change.landings layer) = some landing ∧
      change.exactRectangle landing = true ∧
        ((result = none ∧ (containsBox landing.bboxDbu change.changedVia = true ∨
            change.closedBox landing = some landing.bboxDbu)) ∨
          ∃ closed index, result = some (change.grow layer index closed) ∧
            change.closedBox landing = some closed ∧ closed ≠ landing.bboxDbu ∧
              change.targetIndex landing = some index) := by
  rw [ViaChange.closeLayer] at h
  obtain ⟨landing, hsmallest, h⟩ := Option.bind_eq_some_iff.1 h
  refine ⟨landing, hsmallest, ?_⟩
  split_ifs at h with hexact hcontains
  · rw [Bool.or_eq_true, not_or, Bool.not_eq_true', Bool.not_eq_false] at hexact
    exact ⟨hexact.1, .inl ⟨(Option.some.inj h).symm, .inl hcontains⟩⟩
  · rw [Bool.or_eq_true, not_or, Bool.not_eq_true', Bool.not_eq_false] at hexact
    refine ⟨hexact.1, ?_⟩
    obtain ⟨closed, hclosed, h⟩ := Option.bind_eq_some_iff.1 h
    split_ifs at h with hlarger hsame
    · rw [hsame] at hclosed
      exact .inl ⟨(Option.some.inj h).symm, .inr hclosed⟩
    · obtain ⟨index, hindex, h⟩ := Option.bind_eq_some_iff.1 h
      exact .inr ⟨closed, index, (Option.some.inj h).symm, hclosed, hsame, hindex⟩

/-- A box that is one point contains only itself. -/
theorem not_onePoint_corners (hcorners : Corners change.rectanglePoints) {closed box : Box}
    (hlarger : containsBox closed box = true) (hne : closed ≠ box) :
    ¬ OnePoint ((change.rectanglePoints closed).map change.transform.inverse) := by
  rintro ⟨-, hall⟩
  have hinjective : ∀ p ∈ change.rectanglePoints closed, ∀ q ∈ change.rectanglePoints closed,
      p = q := by
    intro p hp q hq
    exact change.transform.rigid_inverse.injective
      (hall _ (mem_map_of_mem hp) _ (mem_map_of_mem hq))
  have heq := hinjective ⟨closed.x1, closed.y1⟩ ((hcorners _ _).2 ⟨.inl rfl, .inl rfl⟩)
    ⟨closed.x2, closed.y2⟩ ((hcorners _ _).2 ⟨.inr rfl, .inr rfl⟩)
  rw [Point.mk.injEq] at heq
  refine hne (containsBox_antisymm hlarger ?_)
  rw [containsBox_iff] at hlarger ⊢
  have hordered := box.ordered
  omega

theorem map_transform_inverse (t : OccurrenceTransform) (points : List Point) :
    (points.map t.inverse).map t.transform = points := by
  rw [map_map]
  refine (map_congr_left fun p _ => ?_).trans (map_id points)
  exact OccurrenceTransform.transform_inverse p

/-- The points of the new polygon, taken through the transform, are the corners. -/
theorem mem_grown (box : Box) (p : Point) :
    p ∈ (canonicalPolygon ((change.rectanglePoints box).map change.transform.inverse)).map
        change.transform.transform ↔ p ∈ change.rectanglePoints box := by
  have hback := map_transform_inverse change.transform (change.rectanglePoints box)
  have hmem : p ∈ ((change.rectanglePoints box).map change.transform.inverse).map
      change.transform.transform ↔ p ∈ change.rectanglePoints box := by rw [hback]
  rw [← hmem, mem_map, mem_map]
  exact exists_congr fun q => and_congr_left fun _ => mem_canonicalPolygon

variable {flattened : String → String → List Point}

/-- **A replacement enlarges one rectangle.** -/
theorem enlargesAt_grow (hcorners : Corners change.rectanglePoints)
    (hflattens : change.Flattens flattened) {landing : PhysicalGeometry} {closed : Box} {index : ℕ}
    (hlanding : landing ∈ change.landings layer) (hexact : change.exactRectangle landing = true)
    (hlarger : containsBox closed landing.bboxDbu = true) (hne : closed ≠ landing.bboxDbu)
    (hindex : change.targetIndex landing = some index) :
    ∃ polygon polygon', change.EnlargesAt (change.grow layer index closed) index polygon polygon'
      landing.bboxDbu closed := by
  obtain ⟨hlayer, -⟩ := mem_landings hlanding
  rw [ViaChange.targetIndex, hlayer, findIdx?_eq_some_iff_getElem] at hindex
  obtain ⟨hlt, hsource, -⟩ := hindex
  rw [decide_eq_true_eq] at hsource
  have hold : ∀ p, p ∈ (localPolygon (layerObjects change.objects
      change.representative.sourceCell layer)[index]).map change.transform.transform ↔
        p ∈ change.rectanglePoints landing.bboxDbu := by
    intro p
    rw [ViaChange.exactRectangle, decide_eq_true_eq] at hexact
    rw [mem_source_polygon hflattens (getElem_mem hlt),
      ← mem_landing_polygon hflattens hlanding hsource.symm]
    exact mem_of_canonicalPolygon_eq hexact p
  refine ⟨_, _, rfl, ?_, rfl, ?_, hold, ?_, hlarger⟩
  · rw [ViaChange.grow, getElem?_map, getElem?_eq_getElem hlt]
    rfl
  · -- the boxes differ
    intro heq
    refine hne (((hcorners.bounds closed).congr fun p => ?_).eq (hcorners.bounds landing.bboxDbu))
    rw [← mem_grown, heq, hold]
  · rw [canonicalPolygon_map_canonicalPolygon change.transform.rigid_transform
      (not_onePoint_corners hcorners hlarger hne), map_transform_inverse]

/-- The replacements are those of the layers with a landing, one each at most. -/
theorem replacements_eq {replacements : List InstanceLayerReplacement}
    (h : change.viaStackContainmentReplacements = some replacements) :
    ∃ byLayer : List String, byLayer.Nodup ∧
      (∀ layer, change.landings layer ≠ [] → layer ∈ byLayer) ∧
        (∀ layer ∈ byLayer, (change.closeLayer layer).isSome = true) ∧
          replacements = byLayer.filterMap fun layer => (change.closeLayer layer).join := by
  rw [ViaChange.viaStackContainmentReplacements] at h
  split_ifs at h
  dsimp only at h
  obtain ⟨values, hvalues, rfl⟩ := Option.map_eq_some_iff.1 h
  obtain ⟨hsome, heq⟩ := mapM_reduceOption hvalues
  refine ⟨_, nodup_sortedSet _, fun layer hlayer => ?_, hsome, heq⟩
  obtain ⟨landing, hlanding⟩ := exists_mem_of_ne_nil _ hlayer
  rw [ViaChange.landings, mem_filter, decide_eq_true_eq] at hlanding
  exact mem_sortedSet.2 (mem_map.2 ⟨landing, hlanding⟩)

theorem layer_of_closeLayer {r : InstanceLayerReplacement}
    (h : (change.closeLayer layer).join = some r) : r.layer = layer := by
  obtain ⟨landing, -, -, ⟨hnone, -⟩ | ⟨closed, index, hsome, -⟩⟩ :=
    closeLayer_cases (Option.join_eq_some_iff.1 h)
  · exact absurd hnone (by simp)
  · rw [Option.some.inj hsome]
    rfl

theorem isSmallest_of_smallest {landing : PhysicalGeometry}
    (h : smallest (change.landings layer) = some landing) : change.IsSmallest layer landing := by
  obtain ⟨hmem, hleast⟩ := smallest_spec h
  exact ⟨hmem, fun other hother => area_le_of_sizeKey_le (hleast other hother)⟩

/-- The box of a landing whose layer is left as it is. -/
theorem boxAfter_of_find?_none {replacements : List InstanceLayerReplacement}
    {landing : PhysicalGeometry} (h : replacements.find? (·.layer = landing.layer) = none) :
    change.boxAfter replacements landing = landing.bboxDbu := by
  rw [ViaChange.boxAfter, h]

/-- The box of a landing that is replaced. -/
theorem boxAfter_of_find?_some (hcorners : Corners change.rectanglePoints)
    {replacements : List InstanceLayerReplacement} {landing : PhysicalGeometry} {closed : Box}
    {index : ℕ} (hindex : change.targetIndex landing = some index)
    (h : replacements.find? (·.layer = landing.layer) =
      some (change.grow landing.layer index closed)) :
    change.boxAfter replacements landing = closed := by
  have hlt : index < (layerObjects change.objects change.representative.sourceCell
      landing.layer).length := by
    rw [ViaChange.targetIndex, findIdx?_eq_some_iff_getElem] at hindex
    exact hindex.1
  have hpolygon : (change.grow landing.layer index closed).replacementPolygonsLocalDbu.getD index
      [] = canonicalPolygon ((change.rectanglePoints closed).map change.transform.inverse) := by
    rw [ViaChange.grow, getD_eq_getElem?_getD, getElem?_set_self (by simpa using hlt)]
    rfl
  have hbox : boundingBox ((canonicalPolygon ((change.rectanglePoints closed).map
      change.transform.inverse)).map change.transform.transform) = some closed :=
    boundingBox_eq_some_iff.2 ((hcorners.bounds closed).congr fun p => (mem_grown closed p).symm)
  rw [ViaChange.boxAfter, h, hindex]
  dsimp only
  rw [hpolygon, hbox, Option.getD_some]

/-- **Via stacks stay closed.**  On each other metal layer with a landing that contained the old
via, the smallest landing contains the changed via once the replacements are applied, or the layer
is left as it is and a geometry that overlaps the landing covers the via; and each replacement
puts a larger rectangle in the place of one polygon. -/
theorem via_stack_closed (change : ViaChange) (hcorners : Corners change.rectanglePoints)
    (flattened : String → String → List Point) (hflattens : change.Flattens flattened)
    (replacements : List InstanceLayerReplacement)
    (h : change.viaStackContainmentReplacements = some replacements) :
    (∀ layer, change.HasLanding layer → ∃ landing, change.IsSmallest layer landing ∧
      (containsBox (change.boxAfter replacements landing) change.changedVia = true ∨
        (∀ r ∈ replacements, r.layer ≠ layer) ∧
          ∃ cover ∈ change.physical, change.isCover landing cover = true)) ∧
      (replacements.map (·.layer)).Nodup ∧
        ∀ r ∈ replacements, ∃ landing index polygon polygon' box,
          change.IsSmallest r.layer landing ∧
            change.EnlargesAt r index polygon polygon' landing.bboxDbu box := by
  obtain ⟨byLayer, hnodup, hcomplete, hsome, rfl⟩ := replacements_eq h
  have hkey : ∀ layer r, (change.closeLayer layer).join = some r → r.layer = layer :=
    fun _ _ => layer_of_closeLayer
  refine ⟨fun layer hlayer => ?_, ?_, fun r hr => ?_⟩
  · have hmem := hcomplete layer (landings_ne_nil hlayer)
    obtain ⟨result, hresult⟩ := Option.isSome_iff_exists.1 (hsome layer hmem)
    have hfind := find?_filterMap_key hkey hmem
    rw [hresult] at hfind
    obtain ⟨landing, hsmallest, -, hcases⟩ := closeLayer_cases hresult
    have hleast := isSmallest_of_smallest hsmallest
    obtain ⟨rfl, -⟩ := mem_landings hleast.1
    refine ⟨landing, hleast, ?_⟩
    rcases hcases with ⟨rfl, hcontains | hclosed⟩ | ⟨closed, index, rfl, hclosed, hne, hindex⟩
    · rw [boxAfter_of_find?_none hfind]
      exact .inl hcontains
    · rcases closedContainingBox_cases hclosed with ⟨-, box, hbox, -⟩ | ⟨-, hvia⟩
      · obtain ⟨cover, hcover, -⟩ := mem_map.1 hbox
        rw [mem_filter] at hcover
        refine .inr ⟨fun r hr => ?_, cover, hcover⟩
        have hother := find?_eq_none.1 hfind r hr
        simpa using hother
      · rw [boxAfter_of_find?_none hfind]
        exact .inl hvia
    · rw [boxAfter_of_find?_some hcorners hindex hfind]
      rcases closedContainingBox_cases hclosed with ⟨heq, -⟩ | ⟨-, hvia⟩
      · exact absurd heq hne
      · exact .inl hvia
  · rw [map_filterMap]
    refine hnodup.filterMap fun layer layer' name hname hname' => ?_
    obtain ⟨r, hr, rfl⟩ := Option.map_eq_some_iff.1 hname
    obtain ⟨r', hr', heq⟩ := Option.map_eq_some_iff.1 hname'
    rw [← hkey layer r hr, ← hkey layer' r' hr', heq]
  · obtain ⟨layer, -, hr⟩ := mem_filterMap.1 hr
    obtain rfl := layer_of_closeLayer hr
    obtain ⟨landing, hsmallest, hexact, hcases⟩ := closeLayer_cases (Option.join_eq_some_iff.1 hr)
    rcases hcases with ⟨hnone, -⟩ | ⟨closed, index, hgrow, hclosed, hne, hindex⟩
    · exact absurd hnone (by simp)
    · have hleast := isSmallest_of_smallest hsmallest
      rcases closedContainingBox_cases hclosed with ⟨heq, -⟩ | ⟨hlarger, -⟩
      · exact absurd heq hne
      · obtain ⟨polygon, polygon', henlarges⟩ :=
          enlargesAt_grow hcorners hflattens hleast.1 hexact hlarger hne hindex
        rw [← Option.some.inj hgrow] at henlarges
        exact ⟨landing, index, polygon, polygon', closed, hleast, henlarges⟩

/-- The corners of a box, counterclockwise. -/
def cornersOf (box : Box) : List Point :=
  [⟨box.x1, box.y1⟩, ⟨box.x2, box.y1⟩, ⟨box.x2, box.y2⟩, ⟨box.x1, box.y2⟩]

theorem corners_cornersOf : Corners cornersOf := by
  rintro box ⟨x, y⟩
  simp only [cornersOf, mem_cons, Point.mk.injEq, not_mem_nil, or_false]
  omega

/-- A box by its lower left corner and its size. -/
def boxAt (x y : ℤ) (width height : ℕ) : Box where
  x1 := x
  y1 := y
  x2 := x + width
  y2 := y + height
  ordered := ⟨le_add_of_nonneg_right (Int.natCast_nonneg width),
    le_add_of_nonneg_right (Int.natCast_nonneg height)⟩

/-- A via of a mirrored and turned occurrence, widened over the edge of its upper landing. -/
def widenedVia : ViaChange where
  rectanglePoints := cornersOf
  projectionId := fun _ sourceId _ => "source_projection_" ++ sourceId
  representative :=
    { geometryId := "g1", sourceObjectId := some "via", sourceCell := some "stack"
      instanceAnchorId := some "u1", layer := "V1"
      polygonDbu := [⟨102, 203⟩, ⟨104, 203⟩, ⟨104, 206⟩, ⟨102, 206⟩]
      bboxDbu := boxAt 102 203 2 3 }
  changedVia := boxAt 98 203 6 3
  relationMetalLayer := "M1"
  objects :=
    [{ objectId := "upper", sourceAnchorId := none, sourceVariable := none
       sourceCell := some "stack", layer := "M2", geometryHash := ""
       geometryDbu := some [⟨0, 0⟩, ⟨10, 0⟩, ⟨10, 6⟩, ⟨0, 6⟩] }]
  physical := []
  transform := ⟨Fin.last 3, true, 106, 210⟩
  caseId := "c"

theorem via_stack_closed_widened : ∃ landing, widenedVia.IsSmallest "M2" landing ∧
    containsBox (widenedVia.boxAfter [widenedVia.grow "M2" 0 (boxAt 96 200 10 10)] landing)
      widenedVia.changedVia = true := by
  have hflattens : widenedVia.Flattens fun _ _ =>
      [⟨100, 200⟩, ⟨106, 200⟩, ⟨106, 210⟩, ⟨100, 210⟩] := by
    refine ⟨fun source hsource _ geometry hgeometry => ?_, fun item hitem => ?_⟩
    · obtain rfl := mem_singleton.1 hsource
      obtain rfl := Option.some.inj hgeometry
      decide +kernel
    · exact absurd hitem not_mem_nil
  have hreturns : widenedVia.viaStackContainmentReplacements =
      some [widenedVia.grow "M2" 0 (boxAt 96 200 10 10)] := by decide +kernel
  have hlanding : widenedVia.HasLanding "M2" := by
    refine ⟨by decide +kernel, .inr ⟨_, mem_singleton_self _, rfl, rfl, _, rfl, ?_⟩⟩
    decide +kernel
  obtain ⟨landing, hleast, hcontains | ⟨-, cover, hcover, -⟩⟩ :=
    (via_stack_closed widenedVia corners_cornersOf _ hflattens _ hreturns).1 "M2" hlanding
  · exact ⟨landing, hleast, hcontains⟩
  · exact absurd hcover not_mem_nil

end Closure

end DRCAgent.EditAuthority
