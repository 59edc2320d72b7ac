/-
# Grounding a spacing marker in two edges

`ground_current_m1_s2` of `repair_kernel_multistep_repair/reviewed_spacing.py`: the two edges
of a marker are matched with edges of two polygons near it, within a grid; of all pairs the
one of least score is taken, and it has to be a tip against a side.

The scores end with the id of the polygon and the index of the edge, so with distinct ids the
least pair is unique: the result does not depend on the order of the polygons, and the
relation is there exactly when the least pair is tip to side (`ground_least_pair`).
-/
import DRCAgent.LeastItem
import DRCAgent.Polygon
import DRCAgent.RegionBuilder

namespace DRCAgent

open List Option

namespace SpacingGrounding

open Regions (Box)
open LeastItem (least least_eq_some exists_least)

/-! ## Edges -/

structure Edge where
  start : Point
  stop : Point

inductive Orientation
  | vertical
  | horizontal
  deriving DecidableEq

/-- `_orientation` -/
def Edge.orientation (edge : Edge) : Option Orientation :=
  if edge.start.x = edge.stop.x ∧ edge.start.y ≠ edge.stop.y then some .vertical
  else if edge.start.y = edge.stop.y ∧ edge.start.x ≠ edge.stop.x then some .horizontal
  else none

/-- `_length` -/
def Edge.length (edge : Edge) : ℤ :=
  |edge.stop.x - edge.start.x| + |edge.stop.y - edge.start.y|

/-- `_interval`: an edge that is not vertical is seen along x. -/
def Edge.interval (edge : Edge) : ℤ × ℤ :=
  if edge.orientation = some .vertical then
    (min edge.start.y edge.stop.y, max edge.start.y edge.stop.y)
  else (min edge.start.x edge.stop.x, max edge.start.x edge.stop.x)

/-- `_interval_gap` -/
def intervalGap (first second : Edge) : ℤ :=
  max (max (first.interval.1 - second.interval.2) (second.interval.1 - first.interval.2)) 0

/-- `_coordinate` -/
def Edge.coordinate (edge : Edge) : ℤ :=
  if edge.orientation = some .vertical then edge.start.x else edge.start.y

/-! ## Records -/

structure PhysicalGeometry where
  geometryId : String
  sourceObjectId : Option String
  sourceAnchorId : Option String
  sourceCell : Option String
  instanceAnchorId : Option String
  layer : String
  bboxDbu : Box
  physicalEdges : List Edge

inductive MarkerItem
  | edge (edge : Edge)
  | point (point : Point)

structure ViolationRecord where
  violationId : String
  ruleId : String
  markerGeometryDbu : List MarkerItem
  markerBboxDbu : Box

structure CurrentSemanticContext where
  snapshotId : String
  violations : List ViolationRecord
  physicalGeometries : List PhysicalGeometry
  manufacturingGridDbu : ℤ
  -- `rule_predicates`, each with the digest of its deck
  rulePredicates : List (String × String)

structure CurrentDebtBinding where
  bindingId : String
  representativeViolationId : String

inductive EdgeClass
  | tip
  | side
  deriving DecidableEq

structure ReviewedSpacingParticipant where
  physicalGeometryId : String
  sourceObjectId : String
  sourceAnchorId : String
  sourceCell : String
  instanceAnchorId : Option String
  edgeIndex : ℕ
  edgeCoordinateDbu : ℤ
  edgeLengthDbu : ℤ
  edgeClass : EdgeClass

structure ReviewedSpacingRelation where
  relationId : String
  ruleId : String
  participantIds : List String
  participants : List ReviewedSpacingParticipant
  separationAxis : String
  currentMeasurementDbu : ℤ
  requiredMeasurementDbu : ℤ
  deficitDbu : ℤ
  deckSha256 : String
  fidelity : String
  reasonCodes : List String

/-- `M1_S2_REQUIRED_DBU` -/
def requiredDbu : ℤ := 100

/-! ## The search -/

/-- A text that counts as true. -/
def truthy (text : Option String) : Bool := text.any (· ≠ "")

/-- `violation.marker_bbox_dbu.expand(400)` -/
def reach (box : Box) : Box where
  x1 := box.x1 - 400
  y1 := box.y1 - 400
  x2 := box.x2 + 400
  y2 := box.y2 + 400
  ordered := by
    have h := box.ordered
    omega

/-- `candidates` -/
def isCandidate (violation : ViolationRecord) (item : PhysicalGeometry) : Bool :=
  item.layer == "M1" && truthy item.sourceObjectId && truthy item.sourceAnchorId &&
    truthy item.sourceCell && item.bboxDbu.intersects (reach violation.markerBboxDbu)

/-- An edge of a polygon that a marker edge is matched with. -/
structure EdgeChoice where
  geometry : PhysicalGeometry
  index : ℕ
  edge : Edge

/-- An edge fits a marker edge within the grid. -/
def fits (grid : ℤ) (marker edge : Edge) : Bool :=
  edge.orientation = marker.orientation && |edge.coordinate - marker.coordinate| ≤ grid &&
    intervalGap edge marker ≤ grid

/-- The score of a match: distance, gap, difference of lengths; then id and index. -/
abbrev Score := ℤ ×ₗ ℤ ×ₗ ℤ ×ₗ String ×ₗ ℕ

def score (marker : Edge) (choice : EdgeChoice) : Score :=
  toLex (|choice.edge.coordinate - marker.coordinate|, toLex (intervalGap choice.edge marker,
      toLex (|choice.edge.length - marker.length|,
        toLex (choice.geometry.geometryId, choice.index))))

/-- `edge_values` -/
def edgeValues (grid : ℤ) (marker : Edge) (geometry : PhysicalGeometry) : List EdgeChoice :=
  (geometry.physicalEdges.zipIdx.filter fun (edge, _) => fits grid marker edge).map
    fun (edge, index) => ⟨geometry, index, edge⟩

/-- `min(edge_values, key=lambda item: item[0])` -/
def selected (grid : ℤ) (marker : Edge) (geometry : PhysicalGeometry) : Option EdgeChoice :=
  least (score marker) (edgeValues grid marker geometry)

/-- `permutations(items, 2)` -/
def permutations2 {α : Type} (items : List α) : List (α × α) :=
  items.zipIdx.flatMap fun (first, i) => (items.eraseIdx i).map fun second => (first, second)

/-- The matches of the two marker edges with two polygons. -/
def assign (grid : ℤ) (first second : Edge) (pair : PhysicalGeometry × PhysicalGeometry) :
    Option (EdgeChoice × EdgeChoice) :=
  if pair.1.geometryId = pair.2.geometryId then none
  else
    match selected grid first pair.1, selected grid second pair.2 with
    | some a, some b => some (a, b)
    | _, _ => none

def pairScore (first second : Edge) (pair : EdgeChoice × EdgeChoice) : Score ×ₗ Score :=
  toLex (score first pair.1, score second pair.2)

/-- `min(assignments, key=lambda item: item[0])` -/
def bestPair (grid : ℤ) (first second : Edge) (candidates : List PhysicalGeometry) :
    Option (EdgeChoice × EdgeChoice) :=
  least (pairScore first second)
    ((permutations2 candidates).filterMap (assign grid first second))

/-- The violation and the two edges of its marker. -/
def markerOf (context : CurrentSemanticContext) (binding : CurrentDebtBinding) :
    Option (ViolationRecord × Edge × Edge) := do
  let violation ← context.violations.find? fun item =>
    item.violationId = binding.representativeViolationId
  if violation.ruleId ≠ "M1.S.2" then none
  else
    match violation.markerGeometryDbu.filterMap fun
        | .edge edge => some edge
        | .point _ => none with
    | [first, second] => some (violation, first, second)
    | _ => none

section

-- `M1_S2_TIP_THRESHOLD_DBU`, and the first twenty characters of `stable_hash`
variable (tipThreshold : ℤ)
  (relationDigest : String → String → List ReviewedSpacingParticipant → ℤ → String → String)

def edgeClass (choice : EdgeChoice) : EdgeClass :=
  if choice.edge.length ≤ tipThreshold then .tip else .side

def participantOf (choice : EdgeChoice) : ReviewedSpacingParticipant where
  physicalGeometryId := choice.geometry.geometryId
  sourceObjectId := choice.geometry.sourceObjectId.getD "None"
  sourceAnchorId := choice.geometry.sourceAnchorId.getD "None"
  sourceCell := choice.geometry.sourceCell.getD "None"
  instanceAnchorId := choice.geometry.instanceAnchorId
  edgeIndex := choice.index
  edgeCoordinateDbu := choice.edge.coordinate
  edgeLengthDbu := choice.edge.length
  edgeClass := edgeClass tipThreshold choice

/-- The relation of a pair. -/
def relationOf (context : CurrentSemanticContext) (binding : CurrentDebtBinding)
    (first second : Edge) (deckSha256 : String) (pair : EdgeChoice × EdgeChoice) :
    ReviewedSpacingRelation :=
  let current := |first.coordinate - second.coordinate|
  let participants := [participantOf tipThreshold pair.1, participantOf tipThreshold pair.2]
  { relationId := "reviewed_m1_relation_" ++
      relationDigest context.snapshotId binding.bindingId participants current deckSha256
    ruleId := "M1.S.2"
    participantIds := participants.map (·.physicalGeometryId)
    participants
    separationAxis := if first.orientation = some .vertical then "X" else "Y"
    currentMeasurementDbu := current
    requiredMeasurementDbu := requiredDbu
    deficitDbu := max 0 (requiredDbu - current)
    deckSha256
    fidelity := "REVIEWED"
    reasonCodes := ["CURRENT_MARKER_EDGE_LOCKED", "CURRENT_PHYSICAL_EDGE_REBOUND",
      "REVIEWED_M1_S2_TIP_TO_SIDE", "SOURCE_INSTANCE_IDENTITY_PRESERVED"] }

/-- `ground_current_m1_s2` -/
def groundCurrentM1S2 (context : CurrentSemanticContext) (binding : CurrentDebtBinding) :
    Option ReviewedSpacingRelation := do
  let (violation, first, second) ← markerOf context binding
  let pair ← bestPair context.manufacturingGridDbu first second
    (context.physicalGeometries.filter (isCandidate violation))
  if edgeClass tipThreshold pair.1 = edgeClass tipThreshold pair.2 then none
  else if first.orientation ≠ second.orientation then none
  else
    let deckSha256 ← context.rulePredicates.lookup "M1.S.2"
    return relationOf tipThreshold relationDigest context binding first second deckSha256 pair

end

/-! ## The least pair -/

/-- A marker edge is matched with an edge of a candidate. -/
structure IsMatch (grid : ℤ) (candidates : List PhysicalGeometry) (marker : Edge)
    (choice : EdgeChoice) : Prop where
  candidate : choice.geometry ∈ candidates
  edge : choice.geometry.physicalEdges[choice.index]? = some choice.edge
  fits : fits grid marker choice.edge = true

/-- Two polygons, each with an edge that fits its marker edge. -/
structure IsPair (grid : ℤ) (candidates : List PhysicalGeometry) (first second : Edge)
    (pair : EdgeChoice × EdgeChoice) : Prop where
  first : IsMatch grid candidates first pair.1
  second : IsMatch grid candidates second pair.2
  distinct : pair.1.geometry.geometryId ≠ pair.2.geometry.geometryId

/-- No pair has a smaller score. -/
structure IsLeastPair (grid : ℤ) (candidates : List PhysicalGeometry) (first second : Edge)
    (pair : EdgeChoice × EdgeChoice) : Prop where
  isPair : IsPair grid candidates first second pair
  least : ∀ other, IsPair grid candidates first second other →
    pairScore first second pair ≤ pairScore first second other

variable {grid : ℤ} {candidates : List PhysicalGeometry} {marker first second : Edge}

theorem mem_edgeValues {geometry : PhysicalGeometry} {choice : EdgeChoice} :
    choice ∈ edgeValues grid marker geometry ↔ choice.geometry = geometry ∧
      geometry.physicalEdges[choice.index]? = some choice.edge ∧
      fits grid marker choice.edge = true := by
  constructor
  · intro h
    obtain ⟨⟨edge, index⟩, hmem, rfl⟩ := mem_map.1 h
    obtain ⟨hzip, hfits⟩ := mem_filter.1 hmem
    exact ⟨rfl, mem_zipIdx_iff_getElem?.1 hzip, hfits⟩
  · rintro ⟨rfl, hedge, hfits⟩
    refine mem_map.2 ⟨(choice.edge, choice.index), mem_filter.2 ⟨?_, hfits⟩, rfl⟩
    exact mem_zipIdx_iff_getElem?.2 hedge

theorem mem_permutations2 {α : Type} {items : List α} {a b : α} :
    (a, b) ∈ permutations2 items ↔ ∃ i j : ℕ, i ≠ j ∧ items[i]? = some a ∧ items[j]? = some b := by
  constructor
  · intro h
    obtain ⟨⟨first, i⟩, hfirst, hmem⟩ := mem_flatMap.1 h
    obtain ⟨second, hsecond, heq⟩ := mem_map.1 hmem
    cases heq
    obtain ⟨j, hne, hj⟩ := mem_eraseIdx_iff_getElem?.1 hsecond
    exact ⟨i, j, Ne.symm hne, mem_zipIdx_iff_getElem?.1 hfirst, hj⟩
  · rintro ⟨i, j, hne, hi, hj⟩
    refine mem_flatMap.2 ⟨(a, i), mem_zipIdx_iff_getElem?.2 hi, ?_⟩
    exact mem_map.2 ⟨b, mem_eraseIdx_iff_getElem?.2 ⟨j, Ne.symm hne, hj⟩, rfl⟩

/-- Different items of a list are a permutation of two. -/
theorem mem_permutations2_of_ne {α : Type} {items : List α} {a b : α} (ha : a ∈ items)
    (hb : b ∈ items) (hne : a ≠ b) : (a, b) ∈ permutations2 items := by
  obtain ⟨i, hi⟩ := mem_iff_getElem?.1 ha
  obtain ⟨j, hj⟩ := mem_iff_getElem?.1 hb
  refine mem_permutations2.2 ⟨i, j, ?_, hi, hj⟩
  rintro rfl
  exact hne (some.inj (hi.symm.trans hj))

/-- What the search over two polygons finds. -/
theorem assign_eq_some {pair : PhysicalGeometry × PhysicalGeometry}
    {found : EdgeChoice × EdgeChoice} :
    assign grid first second pair = some found ↔ pair.1.geometryId ≠ pair.2.geometryId ∧
      selected grid first pair.1 = some found.1 ∧ selected grid second pair.2 = some found.2 := by
  rw [assign]
  by_cases hids : pair.1.geometryId = pair.2.geometryId
  · rw [if_pos hids]
    exact ⟨nofun, fun h => absurd hids h.1⟩
  · rw [if_neg hids]
    cases selected grid first pair.1 with
    | none => exact ⟨nofun, fun h => absurd h.2.1 nofun⟩
    | some a =>
      cases selected grid second pair.2 with
      | none => exact ⟨nofun, fun h => absurd h.2.2 nofun⟩
      | some b =>
        obtain ⟨x, y⟩ := found
        simp only [some.injEq, Prod.mk.injEq]
        exact ⟨fun h => ⟨hids, h⟩, fun h => h.2⟩

theorem pairScore_le {pair other : EdgeChoice × EdgeChoice}
    (h₁ : score first pair.1 ≤ score first other.1)
    (h₂ : score second pair.2 ≤ score second other.2) :
    pairScore first second pair ≤ pairScore first second other := by
  refine Prod.Lex.le_iff.2 ?_
  obtain hless | heq := lt_or_eq_of_le h₁
  · exact Or.inl hless
  · exact Or.inr ⟨heq, h₂⟩

theorem isPair_of_assign {pair : PhysicalGeometry × PhysicalGeometry}
    {found : EdgeChoice × EdgeChoice} (hpair : pair ∈ permutations2 candidates)
    (h : assign grid first second pair = some found) :
    IsPair grid candidates first second found := by
  obtain ⟨hids, hfirst, hsecond⟩ := assign_eq_some.1 h
  obtain ⟨hgeometry, hedge, hfits⟩ := mem_edgeValues.1 (least_eq_some hfirst).1
  obtain ⟨hgeometry', hedge', hfits'⟩ := mem_edgeValues.1 (least_eq_some hsecond).1
  obtain ⟨i, j, -, hi, hj⟩ := mem_permutations2.1 hpair
  refine ⟨⟨hgeometry ▸ mem_of_getElem? hi, hgeometry ▸ hedge, hfits⟩,
    ⟨hgeometry' ▸ mem_of_getElem? hj, hgeometry' ▸ hedge', hfits'⟩, ?_⟩
  rw [hgeometry, hgeometry']
  exact hids

/-- Every pair has an assignment with a score that is no larger. -/
theorem exists_assign_le {pair : EdgeChoice × EdgeChoice}
    (h : IsPair grid candidates first second pair) :
    ∃ found ∈ (permutations2 candidates).filterMap (assign grid first second),
      pairScore first second found ≤ pairScore first second pair := by
  have hfirst : pair.1 ∈ edgeValues grid first pair.1.geometry :=
    mem_edgeValues.2 ⟨rfl, h.first.edge, h.first.fits⟩
  have hsecond : pair.2 ∈ edgeValues grid second pair.2.geometry :=
    mem_edgeValues.2 ⟨rfl, h.second.edge, h.second.fits⟩
  have hleast : ∃ a, selected grid first pair.1.geometry = some a := exists_least hfirst
  have hleast' : ∃ b, selected grid second pair.2.geometry = some b := exists_least hsecond
  obtain ⟨a, ha⟩ := hleast
  obtain ⟨b, hb⟩ := hleast'
  have hne : pair.1.geometry ≠ pair.2.geometry := fun heq => h.distinct (heq ▸ rfl)
  refine ⟨(a, b), mem_filterMap.2 ⟨(pair.1.geometry, pair.2.geometry),
    mem_permutations2_of_ne h.first.candidate h.second.candidate hne,
    assign_eq_some.2 ⟨h.distinct, ha, hb⟩⟩, ?_⟩
  exact pairScore_le ((least_eq_some ha).2 _ hfirst) ((least_eq_some hb).2 _ hsecond)

theorem isLeastPair_of_bestPair {pair : EdgeChoice × EdgeChoice}
    (h : bestPair grid first second candidates = some pair) :
    IsLeastPair grid candidates first second pair := by
  obtain ⟨hmem, hle⟩ := least_eq_some h
  obtain ⟨source, hsource, hassign⟩ := mem_filterMap.1 hmem
  refine ⟨isPair_of_assign hsource hassign, fun other hother => ?_⟩
  obtain ⟨found, hfound, hscore⟩ := exists_assign_le hother
  exact (hle found hfound).trans hscore

theorem exists_bestPair {pair : EdgeChoice × EdgeChoice}
    (h : IsPair grid candidates first second pair) :
    ∃ found, bestPair grid first second candidates = some found := by
  obtain ⟨found, hfound, -⟩ := exists_assign_le h
  exact exists_least hfound

/-- With distinct ids a score tells the edge. -/
theorem choice_eq_of_score (hids : (candidates.map (·.geometryId)).Nodup) {a b : EdgeChoice}
    (ha : IsMatch grid candidates marker a) (hb : IsMatch grid candidates marker b)
    (h : score marker a = score marker b) : a = b := by
  simp only [score, toLex_inj, Prod.mk.injEq] at h
  obtain ⟨-, -, -, hid, hindex⟩ := h
  have hgeometry := inj_on_of_nodup_map hids ha.candidate hb.candidate hid
  have hedge := ha.edge
  rw [hgeometry, hindex, hb.edge] at hedge
  obtain ⟨geometry, index, edge⟩ := a
  obtain ⟨geometry', index', edge'⟩ := b
  cases hgeometry
  cases hindex
  cases hedge
  rfl

/-- **The search finds the least pair.** -/
theorem bestPair_eq_some_iff (hids : (candidates.map (·.geometryId)).Nodup)
    {pair : EdgeChoice × EdgeChoice} :
    bestPair grid first second candidates = some pair ↔
      IsLeastPair grid candidates first second pair := by
  refine ⟨isLeastPair_of_bestPair, fun h => ?_⟩
  obtain ⟨found, hfound⟩ := exists_bestPair h.isPair
  have hleast := isLeastPair_of_bestPair hfound
  have hscore : pairScore first second found = pairScore first second pair :=
    le_antisymm (hleast.least pair h.isPair) (h.least found hleast.isPair)
  simp only [pairScore, toLex_inj, Prod.mk.injEq] at hscore
  have h₁ := choice_eq_of_score hids hleast.isPair.first h.isPair.first hscore.1
  have h₂ := choice_eq_of_score hids hleast.isPair.second h.isPair.second hscore.2
  rw [hfound, Prod.ext h₁ h₂]

/-! ## The relation -/

section

variable {tipThreshold : ℤ}
  {relationDigest : String → String → List ReviewedSpacingParticipant → ℤ → String → String}
  {context : CurrentSemanticContext} {binding : CurrentDebtBinding}
  {relation : ReviewedSpacingRelation}

/-- The polygons that a marker can be matched with. -/
def candidatesOf (context : CurrentSemanticContext) (violation : ViolationRecord) :
    List PhysicalGeometry :=
  context.physicalGeometries.filter (isCandidate violation)

/-- A relation is built from the pair that the search finds. -/
theorem groundCurrentM1S2_eq_some :
    groundCurrentM1S2 tipThreshold relationDigest context binding = some relation ↔
      ∃ violation first second pair deckSha256,
        markerOf context binding = some (violation, first, second) ∧
        bestPair context.manufacturingGridDbu first second (candidatesOf context violation) =
          some pair ∧
        edgeClass tipThreshold pair.1 ≠ edgeClass tipThreshold pair.2 ∧
        first.orientation = second.orientation ∧
        context.rulePredicates.lookup "M1.S.2" = some deckSha256 ∧
        relation =
          relationOf tipThreshold relationDigest context binding first second deckSha256 pair := by
  constructor
  · intro h
    obtain ⟨⟨violation, first, second⟩, hmarker, h⟩ := bind_eq_some_iff.1 h
    obtain ⟨pair, hpair, h⟩ := bind_eq_some_iff.1 h
    split_ifs at h with hclass horientation
    obtain ⟨deckSha256, hdeck, h⟩ := bind_eq_some_iff.1 h
    exact ⟨violation, first, second, pair, deckSha256, hmarker, hpair, hclass,
      not_not.1 horientation, hdeck, (some.inj h).symm⟩
  · rintro ⟨violation, first, second, pair, deckSha256, hmarker, hpair, hclass, horientation,
      hdeck, rfl⟩
    refine bind_eq_some_iff.2 ⟨(violation, first, second), hmarker, ?_⟩
    refine bind_eq_some_iff.2 ⟨pair, hpair, ?_⟩
    rw [if_neg hclass, if_neg (not_not.2 horientation)]
    exact bind_eq_some_iff.2 ⟨deckSha256, hdeck, rfl⟩

theorem nodup_candidatesOf (hids : (context.physicalGeometries.map (·.geometryId)).Nodup)
    (violation : ViolationRecord) :
    ((candidatesOf context violation).map (·.geometryId)).Nodup :=
  hids.sublist (filter_sublist.map _)

theorem IsMatch.of_perm {candidates' : List PhysicalGeometry}
    (hperm : candidates.Perm candidates') {choice : EdgeChoice}
    (h : IsMatch grid candidates marker choice) : IsMatch grid candidates' marker choice :=
  ⟨hperm.mem_iff.1 h.candidate, h.edge, h.fits⟩

theorem isLeastPair_of_perm {candidates' : List PhysicalGeometry}
    (hperm : candidates.Perm candidates') {pair : EdgeChoice × EdgeChoice}
    (h : IsLeastPair grid candidates first second pair) :
    IsLeastPair grid candidates' first second pair := by
  refine ⟨⟨h.isPair.first.of_perm hperm, h.isPair.second.of_perm hperm, h.isPair.distinct⟩, ?_⟩
  intro other hother
  exact h.least other ⟨hother.first.of_perm hperm.symm, hother.second.of_perm hperm.symm,
    hother.distinct⟩

/-- **The order of the polygons is not seen.** -/
theorem bestPair_of_perm {candidates' : List PhysicalGeometry}
    (hids : (candidates.map (·.geometryId)).Nodup) (hperm : candidates.Perm candidates') :
    bestPair grid first second candidates' = bestPair grid first second candidates := by
  have hids' : (candidates'.map (·.geometryId)).Nodup := (hperm.map _).nodup_iff.1 hids
  ext pair
  rw [bestPair_eq_some_iff hids', bestPair_eq_some_iff hids]
  exact ⟨isLeastPair_of_perm hperm.symm, isLeastPair_of_perm hperm⟩

theorem groundCurrentM1S2_of_perm
    (hids : (context.physicalGeometries.map (·.geometryId)).Nodup)
    {geometries : List PhysicalGeometry} (hperm : context.physicalGeometries.Perm geometries) :
    groundCurrentM1S2 tipThreshold relationDigest
        { context with physicalGeometries := geometries } binding =
      groundCurrentM1S2 tipThreshold relationDigest context binding := by
  have hbest : ∀ violation first second,
      bestPair context.manufacturingGridDbu first second
          (geometries.filter (isCandidate violation)) =
        bestPair context.manufacturingGridDbu first second (candidatesOf context violation) :=
    fun violation first second =>
      bestPair_of_perm (nodup_candidatesOf hids violation) (hperm.filter _)
  ext relation
  rw [groundCurrentM1S2_eq_some, groundCurrentM1S2_eq_some]
  simp only [candidatesOf] at hbest ⊢
  simp only [hbest]
  exact Iff.rfl

/-- An edge that fits lies within the grid of its marker edge. -/
theorem coordinate_of_fits {edge : Edge} (h : fits grid marker edge = true) :
    |edge.coordinate - marker.coordinate| ≤ grid := by
  rw [fits, Bool.and_eq_true, Bool.and_eq_true] at h
  exact of_decide_eq_true h.1.2

/-- The distance of the matched edges is the measured one up to two grid steps. -/
theorem measurement_of_isPair {pair : EdgeChoice × EdgeChoice}
    (h : IsPair grid candidates first second pair) :
    |(|pair.1.edge.coordinate - pair.2.edge.coordinate| -
      |first.coordinate - second.coordinate|)| ≤ 2 * grid := by
  have h₁ := coordinate_of_fits h.first.fits
  have h₂ := coordinate_of_fits h.second.fits
  calc |(|pair.1.edge.coordinate - pair.2.edge.coordinate| -
          |first.coordinate - second.coordinate|)|
      ≤ |pair.1.edge.coordinate - pair.2.edge.coordinate -
          (first.coordinate - second.coordinate)| := abs_abs_sub_abs_le _ _
    _ = |pair.1.edge.coordinate - first.coordinate -
          (pair.2.edge.coordinate - second.coordinate)| := by
        congr 1
        ring
    _ ≤ |pair.1.edge.coordinate - first.coordinate| +
          |pair.2.edge.coordinate - second.coordinate| := abs_sub _ _
    _ ≤ 2 * grid := by omega

/-- The participants of a relation: two polygons, a tip and a side, at the measured distance up
to two grid steps. -/
structure IsTipToSide (grid : ℤ) (relation : ReviewedSpacingRelation)
    (one two : ReviewedSpacingParticipant) : Prop where
  participants : relation.participants = [one, two]
  distinct : one.physicalGeometryId ≠ two.physicalGeometryId
  classes : one.edgeClass ≠ two.edgeClass
  measured : |(|one.edgeCoordinateDbu - two.edgeCoordinateDbu| -
    relation.currentMeasurementDbu)| ≤ 2 * grid

/-- **Grounding a spacing marker.** With distinct ids of the polygons there is a relation
exactly when the two marker edges have one orientation, the least of all pairs of edges that
fit them is a tip against a side, and the rule has a predicate; the relation is then that
pair's. Its
two polygons differ and lie at the measured distance up to two grid steps, and the order in
which the polygons are listed changes nothing. -/
theorem ground_least_pair (context : CurrentSemanticContext) (binding : CurrentDebtBinding)
    (hids : (context.physicalGeometries.map (·.geometryId)).Nodup) :
    (∀ relation, groundCurrentM1S2 tipThreshold relationDigest context binding = some relation ↔
      ∃ violation first second pair deckSha256,
        markerOf context binding = some (violation, first, second) ∧
        IsLeastPair context.manufacturingGridDbu (candidatesOf context violation) first second
          pair ∧
        edgeClass tipThreshold pair.1 ≠ edgeClass tipThreshold pair.2 ∧
        first.orientation = second.orientation ∧
        context.rulePredicates.lookup "M1.S.2" = some deckSha256 ∧
        relation =
          relationOf tipThreshold relationDigest context binding first second deckSha256 pair) ∧
    (∀ relation, groundCurrentM1S2 tipThreshold relationDigest context binding = some relation →
      ∃ one two, IsTipToSide context.manufacturingGridDbu relation one two) ∧
    ∀ geometries, context.physicalGeometries.Perm geometries →
      groundCurrentM1S2 tipThreshold relationDigest
          { context with physicalGeometries := geometries } binding =
        groundCurrentM1S2 tipThreshold relationDigest context binding := by
  refine ⟨fun relation => ?_, fun relation h => ?_, fun geometries hperm => ?_⟩
  · rw [groundCurrentM1S2_eq_some]
    have hleast : ∀ violation first second pair,
        bestPair context.manufacturingGridDbu first second (candidatesOf context violation) =
            some pair ↔
          IsLeastPair context.manufacturingGridDbu (candidatesOf context violation) first second
            pair :=
      fun violation _ _ _ => bestPair_eq_some_iff (nodup_candidatesOf hids violation)
    simp only [hleast]
  · obtain ⟨violation, first, second, pair, deckSha256, -, hbest, hclass, -, -, rfl⟩ :=
      groundCurrentM1S2_eq_some.1 h
    have hpair := (isLeastPair_of_bestPair hbest).isPair
    exact ⟨_, _, rfl, hpair.distinct, hclass, measurement_of_isPair hpair⟩
  · exact groundCurrentM1S2_of_perm hids hperm

/-- A short edge against a long one, ninety apart, in two wires. -/
def sampleContext : CurrentSemanticContext where
  snapshotId := "snapshot"
  violations := [⟨"v", "M1.S.2", [.edge ⟨⟨0, 0⟩, ⟨0, 50⟩⟩, .edge ⟨⟨90, 0⟩, ⟨90, 50⟩⟩],
    ⟨0, 0, 90, 50, by decide⟩⟩]
  physicalGeometries :=
    [⟨"wire", some "o1", some "a1", some "top", none, "M1", ⟨90, -500, 190, 500, by decide⟩,
      [⟨⟨90, -500⟩, ⟨90, 500⟩⟩, ⟨⟨190, 500⟩, ⟨190, -500⟩⟩]⟩,
     ⟨"stub", some "o2", some "a2", some "top", none, "M1", ⟨-400, 0, 0, 50, by decide⟩,
      [⟨⟨-400, 0⟩, ⟨-400, 50⟩⟩, ⟨⟨0, 50⟩, ⟨0, 0⟩⟩]⟩]
  manufacturingGridDbu := 5
  rulePredicates := [("M1.S.2", "deck")]

theorem ground_least_pair_sample : ∃ relation one two,
    groundCurrentM1S2 60 (fun _ _ _ _ _ => "digest") sampleContext ⟨"binding", "v"⟩ =
      some relation ∧
    relation.participantIds = ["stub", "wire"] ∧ relation.deficitDbu = 10 ∧
    IsTipToSide 5 relation one two := by
  have h : groundCurrentM1S2 60 (fun _ _ _ _ _ => "digest") sampleContext ⟨"binding", "v"⟩ =
      some _ := rfl
  obtain ⟨one, two, hparticipants⟩ :=
    (ground_least_pair sampleContext ⟨"binding", "v"⟩ (by decide)).2.1 _ h
  exact ⟨_, one, two, h, rfl, rfl, hparticipants⟩

end

end SpacingGrounding

end DRCAgent
