/-
# Building regions from violations

`RegionBuilder` (src/drc_agent/regions/builder.py). A violation is associated with
objects near its marker; violations that share an editable object are linked, then the
best soft edges are merged while the caps allow it; a group that exceeds the caps is
split along its longer axis, unless two of its violations share an object.

The floating-point numbers are those of a type `D` with the operations the source uses
(`Doubles`); nothing is assumed about their rounding.
-/
import Mathlib
import DRCAgent.ActiveWindow
import DRCAgent.UnionFind

namespace DRCAgent.Regions

open Disjoint

/-! ## Numbers and boxes -/

/-- The operations on `float` that the source uses. There is no NaN among them. -/
class Doubles (D : Type) extends LinearOrder D where
  /-- A literal. -/
  lit : ℚ → D
  ofInt : ℤ → D
  /-- `int / int` -/
  trueDiv : ℤ → ℤ → D
  neg : D → D
  sub : D → D → D
  mul : D → D → D
  div : D → D → D
  /-- `int ** 0.5` -/
  root : ℤ → D
  exp : D → D
  /-- `int(float)` -/
  trunc : D → ℤ
  /-- The comparison of a float with an integer. -/
  compareInt : D → ℤ → Ordering

/-- A box with ordered coordinates. -/
structure Box where
  x1 : ℤ
  y1 : ℤ
  x2 : ℤ
  y2 : ℤ
  ordered : x1 ≤ x2 ∧ y1 ≤ y2
deriving DecidableEq

namespace Box

/-- A box is validated when it is made. -/
def make (x1 y1 x2 y2 : ℤ) : Except String Box :=
  if h : x1 ≤ x2 ∧ y1 ≤ y2 then .ok ⟨x1, y1, x2, y2, h⟩
  else .error "box coordinates must be ordered"

def width (b : Box) : ℤ := b.x2 - b.x1

def height (b : Box) : ℤ := b.y2 - b.y1

def area (b : Box) : ℤ := b.width * b.height

/-- `max(box.width, box.height)` -/
def extent (b : Box) : ℤ := max b.width b.height

def expand (b : Box) (amount : ℤ) : Except String Box :=
  make (b.x1 - amount) (b.y1 - amount) (b.x2 + amount) (b.y2 + amount)

def intersects (b other : Box) : Bool :=
  !(b.x2 < other.x1 || other.x2 < b.x1 || b.y2 < other.y1 || other.y2 < b.y1)

def intersectionArea (b other : Box) : ℤ :=
  max 0 (min b.x2 other.x2 - max b.x1 other.x1) * max 0 (min b.y2 other.y2 - max b.y1 other.y1)

def gap {D : Type} [Doubles D] (b other : Box) : D :=
  let dx := max (max (b.x1 - other.x2) (other.x1 - b.x2)) 0
  let dy := max (max (b.y1 - other.y2) (other.y1 - b.y2)) 0
  Doubles.root (dx * dx + dy * dy)

/-- The union of boxes passes the validation. -/
def union (b other : Box) : Box where
  x1 := min b.x1 other.x1
  y1 := min b.y1 other.y1
  x2 := max b.x2 other.x2
  y2 := max b.y2 other.y2
  ordered :=
    ⟨(min_le_left _ _).trans (b.ordered.1.trans (le_max_left _ _)),
      (min_le_left _ _).trans (b.ordered.2.trans (le_max_left _ _))⟩

end Box

inductive Axis
  | x | y
deriving DecidableEq

/-- `box.centroid[axis]` -/
def Box.centroid {D : Type} [Doubles D] (b : Box) : Axis → D
  | .x => Doubles.trueDiv (b.x1 + b.x2) 2
  | .y => Doubles.trueDiv (b.y1 + b.y2) 2

/-! ## The records -/

inductive RuleFamily
  | spacing | width | enclosure | area | alignment | short | via | unknown
deriving DecidableEq

inductive EditabilityClass
  | A | B | C | D
deriving DecidableEq

inductive AssociationQuality
  | exact | geometric | unknown
deriving DecidableEq

inductive NetMappingQuality
  | exact | connectivityComponent | partly | unavailable
deriving DecidableEq

inductive ObjectKind
  | polygon | path | viaStack | cellInstance | pin | unknown
deriving DecidableEq

structure ViolationRecord where
  violationId : String
  reportIteration : ℤ
  ruleId : String
  ruleFamily : RuleFamily
  markerBboxDbu : Box
  layers : List String := []
  associatedObjectIds : List String := []
  associationQuality : AssociationQuality := .unknown
deriving DecidableEq

structure LayoutObject where
  objectId : String
  sourceAnchorId : Option String := none
  kind : ObjectKind
  layer : String
  bboxDbu : Box
  netId : Option String := none
  netMappingQuality : NetMappingQuality := .unavailable
  routingType : Option String := none
  editability : EditabilityClass
deriving DecidableEq

structure RuleSpec (D : Type) where
  minInfluenceNm : Option ℤ := none
  haloMultiplier : D

structure RuleCatalog (D : Type) where
  rules : List (String × RuleSpec D) := []
  fallback : RuleSpec D

/-- The rule, and whether it is known. -/
def RuleCatalog.lookup {D : Type} (catalog : RuleCatalog D) (ruleId : String) :
    RuleSpec D × Bool :=
  match catalog.rules.lookup ruleId with
  | some rule => (rule, true)
  | none => (catalog.fallback, false)

structure RegionConfig (D : Type) where
  seedWindowUm : D
  dbuPerUm : ℤ := 4000
  haloMinDbu : ℤ := 72
  haloMaxDbu : ℤ := 4000
  affinityMaxGapDbu : ℤ := 400
  maxRegionMarkers : ℤ := 12
  maxRegionObjects : ℤ := 128
  maxRegionSpanUm : D
  maxContextTokens : ℤ := 6000

/-- `_Seed` -/
structure Seed where
  violation : ViolationRecord
  objects : List LayoutObject
  seed : Box
  halo : Box
  unknownRule : Bool
deriving DecidableEq

structure AffinityEvidence (D : Type) where
  haloOverlapRatio : D
  normalizedGapScore : D
  sameRule : Bool
  sameRuleFamily : Bool
  layerRelation : D
  sharedObjectContext : D

structure AffinityEdge (D : Type) where
  u : String
  v : String
  hard : Bool
  merge : Bool
  evidence : AffinityEvidence D

inductive RegionStatus
  | active | oversized
deriving DecidableEq

structure ResourceContext (D : Type) where
  source : String
  occupiedTrackBins : List String
  localDensity : D
  confidence : D

/-- What the content hash of a region covers. -/
structure RegionContent where
  violations : List String
  objects : List String
  bbox : Box
  halo : Box

/-- A value handed to `stable_hash`. -/
inductive RegionHashPart
  | ids (violationIds : List String)
  | content (content : RegionContent)

structure RegionState (D : Type) where
  regionId : String
  lineageId : String
  status : RegionStatus
  iteration : ℤ
  bboxDbu : Box
  editHaloDbu : Box
  layers : List String
  violationIds : List String
  ruleIds : List String
  objectIds : List String
  editableObjectIds : List String
  frozenObjectIds : List String
  segmentIds : List String
  viaIds : List String
  cellInstanceIds : List String
  netIds : List String
  netMappingQuality : NetMappingQuality
  resourceContext : ResourceContext D
  markerCount : ℕ
  objectCount : ℕ
  tokenEstimate : ℕ
  qualityFlags : Finset String
  contentHash : String

structure RegionBuildResult (D : Type) where
  violations : List ViolationRecord
  regions : List (RegionState D)
  affinityEdges : List (AffinityEdge D)
  violationToRegion : List (String × String)

/-! ## Seeds -/

section Builder

variable {D : Type} [Doubles D] (cfg : RegionConfig D)

/-- The objects near a marker on a layer of the violation. The marker is expanded for
each object that is tested. -/
def nearbyObjects (violation : ViolationRecord) (objects : List LayoutObject) :
    Except String (List LayoutObject) :=
  let layerCompatible := objects.filter fun obj =>
    violation.layers.isEmpty || violation.layers.contains obj.layer
  if layerCompatible.isEmpty then .ok []
  else do
    let reach ← violation.markerBboxDbu.expand cfg.affinityMaxGapDbu
    return layerCompatible.filter fun obj => reach.intersects obj.bboxDbu

/-- `exact` of `_associate` -/
def exactObjects (violation : ViolationRecord) (nearby : List LayoutObject) : List LayoutObject :=
  nearby.filter fun obj => violation.markerBboxDbu.intersects obj.bboxDbu

/-- `exact or nearby[:16]` -/
def selectObjects (violation : ViolationRecord) (nearby : List LayoutObject) : List LayoutObject :=
  if (exactObjects violation nearby).isEmpty then nearby.take 16
  else exactObjects violation nearby

/-- `sorted(objects, key=lambda obj: obj.object_id)` -/
def sortObjects (objects : List LayoutObject) : List LayoutObject :=
  objects.insertionSort fun a b => a.objectId ≤ b.objectId

/-- The violation with its associated objects. -/
def associated (violation : ViolationRecord) (selected : List LayoutObject) : ViolationRecord :=
  { violation with
    associatedObjectIds := (selected.map (·.objectId)).insertionSort (· ≤ ·)
    associationQuality := if selected.isEmpty then .unknown else .geometric }

/-- `_associate` -/
def associate (violation : ViolationRecord) (objects : List LayoutObject) :
    Except String (ViolationRecord × List LayoutObject) := do
  let nearby ← nearbyObjects cfg violation objects
  let selected := selectObjects violation nearby
  return (associated violation selected, sortObjects selected)

/-- What the seed takes of an object: a long object is cut to one micron around the
marker. -/
def localBox (violation : ViolationRecord) (obj : LayoutObject) : Except String Box :=
  let marker := violation.markerBboxDbu
  if Doubles.compareInt (Doubles.mul (Doubles.ofInt cfg.dbuPerUm) cfg.seedWindowUm)
      obj.bboxDbu.extent = .lt then
    Box.make (max obj.bboxDbu.x1 (marker.x1 - cfg.dbuPerUm))
      (max obj.bboxDbu.y1 (marker.y1 - cfg.dbuPerUm))
      (min obj.bboxDbu.x2 (marker.x2 + cfg.dbuPerUm))
      (min obj.bboxDbu.y2 (marker.y2 + cfg.dbuPerUm))
  else .ok obj.bboxDbu

/-- `_seed` -/
def makeSeed (catalog : RuleCatalog D) (violation : ViolationRecord)
    (objects : List LayoutObject) : Except String Seed := do
  let seed ← objects.foldlM
    (fun seed obj => do
      let window ← localBox cfg violation obj
      return seed.union window)
    violation.markerBboxDbu
  let (rule, known) := catalog.lookup violation.ruleId
  let ruleDbu := Doubles.trunc (Doubles.mul
    (Doubles.trueDiv (rule.minInfluenceNm.getD 0 * cfg.dbuPerUm) 1000) rule.haloMultiplier)
  let halo := min (max (max ruleDbu (violation.markerBboxDbu.extent / 2)) cfg.haloMinDbu)
    cfg.haloMaxDbu
  let expanded ← seed.expand halo
  return ⟨violation, objects, seed, expanded, !known⟩

/-- The seed of a violation. -/
def seedOf (catalog : RuleCatalog D) (objects : List LayoutObject) (violation : ViolationRecord) :
    Except String Seed := do
  let (violation, selected) ← associate cfg violation objects
  makeSeed cfg catalog violation selected

/-! ## Linking -/

/-- The editable objects of a seed. -/
def Seed.editable (s : Seed) : List String :=
  (s.objects.filter fun obj => obj.editability == .A || obj.editability == .B).map (·.objectId)

/-- `_evidence`: whether the link is hard, whether the pair may be merged, and why. -/
def affinity (a b : Seed) (maxGap : ℤ) : Bool × Bool × AffinityEvidence D :=
  let sharedContext := a.violation.associatedObjectIds.any b.violation.associatedObjectIds.contains
  let sharedEditable := a.editable.any b.editable.contains
  let minArea := min a.halo.area b.halo.area
  let overlap : D :=
    if minArea ≠ 0 then Doubles.trueDiv (a.halo.intersectionArea b.halo) minArea
    else Doubles.lit 0
  let gap : D := a.halo.gap b.halo
  let gapScore := Doubles.exp (Doubles.div (Doubles.neg gap) (Doubles.ofInt (max maxGap 1)))
  let sameFamily := a.violation.ruleFamily == b.violation.ruleFamily
  let layerRelation := a.violation.layers.any b.violation.layers.contains
  let evidence : AffinityEvidence D := {
    haloOverlapRatio := overlap
    normalizedGapScore := gapScore
    sameRule := a.violation.ruleId == b.violation.ruleId
    sameRuleFamily := sameFamily
    layerRelation := Doubles.lit (if layerRelation then 1 else 0)
    sharedObjectContext := Doubles.lit (if sharedContext then 1 else 0) }
  let locality := a.halo.intersects b.halo || Doubles.compareInt gap maxGap != .gt
  let semanticCount := (sameFamily && layerRelation).toNat + sharedEditable.toNat
  let merge := locality &&
    ((decide (Doubles.lit (1 / 10) ≤ overlap) && decide (1 ≤ semanticCount)) ||
      (decide (2 ≤ semanticCount) && decide (Doubles.lit (6 / 10) ≤ gapScore)))
  (sharedEditable, merge, evidence)

/-- The union of the seeds' boxes. -/
def seedsBox (first : Seed) (rest : List Seed) : Box :=
  rest.foldl (fun bbox s => bbox.union s.seed) first.seed

/-- The objects of the seeds, each once. -/
def seedsObjectIds (seeds : List Seed) : List String :=
  (seeds.flatMap fun s => s.objects.map (·.objectId)).dedup

/-- `int(self.cfg.max_region_span_um * self.cfg.dbu_per_um)` -/
def maxSpan : ℤ := Doubles.trunc (Doubles.mul cfg.maxRegionSpanUm (Doubles.ofInt cfg.dbuPerUm))

/-- The caps, on the number of markers and objects of a region and its box. -/
def withinCaps (markers objects : ℕ) (bbox : Box) : Bool :=
  decide ((markers : ℤ) ≤ cfg.maxRegionMarkers) && decide ((objects : ℤ) ≤ cfg.maxRegionObjects) &&
    decide (bbox.extent ≤ maxSpan cfg) &&
      decide ((markers : ℤ) * 180 + (objects : ℤ) * 80 ≤ cfg.maxContextTokens)

/-- `_cap_ok`; no caller has an empty list of seeds. -/
def capOk : List Seed → Bool
  | [] => false
  | first :: rest =>
    withinCaps cfg (first :: rest).length (seedsObjectIds (first :: rest)).length
      (seedsBox first (first :: rest))

/-! ## Splitting -/

/-- `any(count > 1 for count in hard_objects.values())` -/
def sharesObject (seeds : List Seed) : Bool :=
  let ids := seeds.flatMap fun s => s.objects.map (·.objectId)
  ids.any fun id => decide (1 < ids.count id)

/-- `0 if bbox.width >= bbox.height else 1` -/
def splitAxis : List Seed → Axis
  | [] => .x
  | first :: rest =>
    if (seedsBox first rest).height ≤ (seedsBox first rest).width then .x else .y

/-- The seeds along the axis. -/
def orderAlong (axis : Axis) (seeds : List Seed) : List Seed :=
  seeds.insertionSort fun a b =>
    toLex ((a.seed.centroid axis : D), a.violation.violationId) ≤
      toLex (b.seed.centroid axis, b.violation.violationId)

/-- `imbalance * 1.0 - cut_gap * 0.001` -/
def cutScore (axis : Axis) (ordered : List Seed) (cut : ℕ) : D :=
  let left := ordered.take cut
  let right := ordered.drop cut
  let imbalance : ℤ := ((left.length : ℤ) - right.length).natAbs
  let cutGap : D :=
    match right.head?, left.getLast? with
    | some r, some l => Doubles.sub (r.seed.centroid axis) (l.seed.centroid axis)
    | _, _ => Doubles.lit 0
  Doubles.sub (Doubles.mul (Doubles.ofInt imbalance) (Doubles.lit 1))
    (Doubles.mul cutGap (Doubles.lit (1 / 1000)))

/-- The cut with the least score, the first of equals. -/
def bestCut (axis : Axis) (ordered : List Seed) : ℕ :=
  let candidates := (List.range' 1 (ordered.length - 1)).map fun cut =>
    toLex ((cutScore axis ordered cut : D), cut)
  match candidates.min? with
  | some best => (ofLex best).2
  | none => 0

/-- The two sides of the best cut. -/
def bisect (seeds : List Seed) : List Seed × List Seed :=
  let ordered := orderAlong (D := D) (splitAxis seeds) seeds
  let cut := bestCut (D := D) (splitAxis seeds) ordered
  (ordered.take cut, ordered.drop cut)

/-- `_split`, to a depth of calls. -/
def splitTo : ℕ → List Seed → Option (List (List Seed))
  | 0, _ => none
  | depth + 1, seeds =>
    if capOk cfg seeds || seeds.length ≤ 1 then some [seeds]
    else if sharesObject seeds then some [seeds]
    else do
      let left ← splitTo depth (bisect (D := D) seeds).1
      let right ← splitTo depth (bisect (D := D) seeds).2
      return left ++ right

/-- `_split` -/
def split (seeds : List Seed) : List (List Seed) := (splitTo cfg seeds.length seeds).getD []

/-! ## The regions -/

/-- A region of the previous iteration. -/
structure PreviousRegion where
  lineageId : String
  violationIds : List String

/-- The number of violations two lists have in common. -/
def overlapCount (a b : List String) : ℕ := (a.toFinset ∩ b.toFinset).card

/-- `max(previous, key=..., default=None)`: the first with the greatest overlap. -/
def bestPrevious (previous : List PreviousRegion) (violationIds : List String) :
    Option PreviousRegion :=
  previous.foldl
    (fun best region =>
      match best with
      | none => some region
      | some b =>
        if overlapCount b.violationIds violationIds < overlapCount region.violationIds violationIds
        then some region else some b)
    none

/-- `range(first, last)` -/
def intRange (first last : ℤ) : List ℤ :=
  (List.range (last - first).toNat).map fun k => first + (k : ℤ)

/-- The bins of one object in the geometry proxy. -/
def proxyBins (binSize : ℤ) (obj : LayoutObject) : List String :=
  let b := obj.bboxDbu
  (intRange (b.x1 / binSize) (max (b.x2 - 1) b.x1 / binSize + 1)).flatMap fun x =>
    (intRange (b.y1 / binSize) (max (b.y2 - 1) b.y1 / binSize + 1)).map fun y =>
      "proxy:" ++ toString binSize ++ ":" ++ obj.layer ++ ":" ++ toString x ++ ":" ++ toString y

/-- A string that Python counts as true. -/
def truthy (value : Option String) : Bool := value.any (· != "")

/-- The ids of the objects with a property, sorted. -/
def idsWith (p : LayoutObject → Bool) (objects : List LayoutObject) : List String :=
  ((objects.filter p).map (·.objectId)).insertionSort (· ≤ ·)

/-- The quality of the net mapping of a region's objects. -/
def netQuality (objects : List LayoutObject) : NetMappingQuality :=
  let mapped := objects.filter fun obj => truthy obj.netId
  match (mapped.map (·.netMappingQuality)).dedup, decide (mapped.length = objects.length) with
  | [], _ => .unavailable
  | [quality], true => quality
  | _, _ => .partly

/-- `_finalize`; no caller has an empty list of seeds. -/
def finalize (stableHash : RegionHashPart → String) (previous : List PreviousRegion)
    (first : Seed) (rest : List Seed) : RegionState D :=
  let seeds := first :: rest
  let violations := (seeds.map (·.violation)).insertionSort fun a b => a.violationId ≤ b.violationId
  let violationIds := violations.map (·.violationId)
  let objects := (Dicts.ofList (seeds.flatMap fun s => s.objects.map fun obj => (obj.objectId, obj))).map
    (·.2)
  let objectIds := (objects.map (·.objectId)).insertionSort (· ≤ ·)
  let bbox := seedsBox first rest
  let halo := rest.foldl (fun halo s => halo.union s.halo) first.halo
  let identity := stableHash (.ids violationIds)
  let identity16 := String.ofList (identity.toList.take 16)
  let old := bestPrevious previous violationIds
  let lineageId :=
    match old with
    | some region =>
      let common := overlapCount region.violationIds violationIds
      let all := (region.violationIds.toFinset ∪ violationIds.toFinset).card
      if (Doubles.lit (35 / 100) : D) ≤ Doubles.trueDiv common (max all 1 : ℕ) then region.lineageId
      else "lineage_" ++ identity16
    | none => "lineage_" ++ identity16
  let editable := idsWith (fun obj => truthy obj.sourceAnchorId && obj.editability != .D) objects
  let oversized := !capOk cfg seeds
  let contentHash := stableHash (.content ⟨violationIds, objectIds, bbox, halo⟩)
  let binSize := max cfg.affinityMaxGapDbu 1
  let bins := sortedSet (objects.flatMap (proxyBins binSize))
  let density : D := Doubles.trueDiv ((objects.map (·.bboxDbu.area)).sum) (max halo.area 1)
  { regionId := "region_" ++ identity16
    lineageId := lineageId
    status := if oversized then .oversized else .active
    iteration := (violations.map (·.reportIteration)).foldl max first.violation.reportIteration
    bboxDbu := bbox
    editHaloDbu := halo
    layers := sortedSet (violations.flatMap (·.layers))
    violationIds := violationIds
    ruleIds := sortedSet (violations.map (·.ruleId))
    objectIds := objectIds
    editableObjectIds := editable
    frozenObjectIds := objectIds.filter fun id => !editable.contains id
    segmentIds := idsWith
      (fun obj => (obj.kind == .polygon || obj.kind == .path) && obj.routingType == some "routing")
      objects
    viaIds := idsWith (fun obj => obj.kind == .viaStack) objects
    cellInstanceIds := idsWith (fun obj => obj.kind == .cellInstance) objects
    netIds := sortedSet ((objects.filter fun obj => truthy obj.netId).filterMap (·.netId))
    netMappingQuality := netQuality objects
    resourceContext := {
      source := if bins.isEmpty then "unavailable" else "geometry_proxy"
      occupiedTrackBins := bins
      localDensity := min density (Doubles.lit 1)
      confidence := if bins.isEmpty then Doubles.lit 0 else Doubles.lit (3 / 10) }
    markerCount := violations.length
    objectCount := objects.length
    tokenEstimate := violations.length * 180 + objects.length * 80
    qualityFlags := (if seeds.any (·.unknownRule) then {"UNKNOWN_RULE"} else ∅) ∪
      (if oversized then {"OVERSIZED_HARD_COMPONENT"} else ∅)
    contentHash := contentHash }

/-- The region of a group of seeds. -/
def regionOf (stableHash : RegionHashPart → String) (previous : List PreviousRegion) :
    List Seed → Option (RegionState D)
  | [] => none
  | first :: rest => some (finalize cfg stableHash previous first rest)

/-! ## Building -/

/-- The pairs of a list, in order. -/
def pairs {α : Type} : List α → List (α × α)
  | [] => []
  | a :: rest => rest.map (fun b => (a, b)) ++ pairs rest

/-- One pair of the first loop: too far apart, or an edge, which links if it is hard. -/
def linkPair (state : UnionFind String × List (AffinityEdge D)) (pair : Seed × Seed) :
    UnionFind String × List (AffinityEdge D) :=
  let (a, b) := pair
  if Doubles.compareInt (a.halo.gap b.halo : D) cfg.affinityMaxGapDbu = .gt then state
  else
    let (hard, merge, evidence) := affinity (D := D) a b cfg.affinityMaxGapDbu
    let u := a.violation.violationId
    let v := b.violation.violationId
    (if hard then state.1.union u v else state.1, state.2 ++ [⟨u, v, hard, merge, evidence⟩])

/-- The edges with the most overlap, then the least gap, first. -/
def sortEdges (edges : List (AffinityEdge D)) : List (AffinityEdge D) :=
  edges.insertionSort fun a b =>
    toLex (Doubles.neg a.evidence.haloOverlapRatio,
        toLex (Doubles.neg a.evidence.normalizedGapScore, toLex (a.u, a.v))) ≤
      toLex (Doubles.neg b.evidence.haloOverlapRatio,
        toLex (Doubles.neg b.evidence.normalizedGapScore, toLex (b.u, b.v)))

/-- The seeds in the classes of `u` and `v`. -/
def members (seeds : List (String × Seed)) (u v : String) (uf : UnionFind String) :
    UnionFind String × List Seed :=
  seeds.foldl
    (fun state entry =>
      let (root, uf) := state.1.find entry.1
      let (rootU, uf) := uf.find u
      let (rootV, uf) := uf.find v
      (uf, if root = rootU ∨ root = rootV then state.2 ++ [entry.2] else state.2))
    (uf, [])

/-- One turn of the loop of `members`. -/
def memberStep (u v : String) (state : UnionFind String × List Seed) (entry : String × Seed) :
    UnionFind String × List Seed :=
  let (root, uf) := state.1.find entry.1
  let (rootU, uf) := uf.find u
  let (rootV, uf) := uf.find v
  (uf, if root = rootU ∨ root = rootV then state.2 ++ [entry.2] else state.2)

theorem members_eq (seeds : List (String × Seed)) (u v : String) (uf : UnionFind String) :
    members seeds u v uf = seeds.foldl (memberStep u v) (uf, []) := rfl

/-- One edge of the second loop: the classes are merged if the caps allow it. -/
def mergeEdge (seeds : List (String × Seed)) (uf : UnionFind String) (edge : AffinityEdge D) :
    UnionFind String :=
  if !edge.merge then uf
  else
    let (rootU, uf) := uf.find edge.u
    let (rootV, uf) := uf.find edge.v
    if rootU = rootV then uf
    else
      let (uf, group) := members seeds edge.u edge.v uf
      if capOk cfg group then uf.union edge.u edge.v else uf

/-- The violations in one class after the linking, for each class. -/
def linkGroups (seeds : List (String × Seed)) :
    List (List String) × List (AffinityEdge D) :=
  let start : UnionFind String := .ofIds (seeds.map (·.1))
  let (uf, edges) := (pairs (seeds.map (·.2))).foldl (linkPair cfg) (start, [])
  let uf := (sortEdges edges).foldl (mergeEdge cfg seeds) uf
  (uf.groups, edges)

/-- The regions of the seeds, and which region has which violation. -/
def buildRegions (stableHash : RegionHashPart → String) (previous : List PreviousRegion)
    (seeds : List (String × Seed)) (groups : List (List String)) : List (RegionState D) :=
  let parts := groups.flatMap fun ids => split cfg (ids.filterMap fun id => seeds.lookup id)
  (parts.filterMap (regionOf cfg stableHash previous)).insertionSort fun a b =>
    a.regionId ≤ b.regionId

/-- `violation_to_region` -/
def ownership (regions : List (RegionState D)) : List (String × String) :=
  Dicts.ofList (regions.flatMap fun region =>
    region.violationIds.map fun id => (id, region.regionId))

/-- The seeds by their violations, in the order of the ids. -/
def buildSeeds (catalog : RuleCatalog D) (violations : List ViolationRecord)
    (objects : List LayoutObject) : Except String (List (String × Seed)) := do
  let entries ← (violations.insertionSort fun a b => a.violationId ≤ b.violationId).mapM fun v => do
    let seed ← seedOf cfg catalog objects v
    return (v.violationId, seed)
  return Dicts.ofList entries

/-- The violations with the associated objects that the build has set. -/
def associateAll (violations : List ViolationRecord) (objects : List LayoutObject) :
    Except String (List ViolationRecord) :=
  violations.mapM fun v => do
    let (v, _) ← associate cfg v objects
    return v

/-- `build` -/
def build (stableHash : RegionHashPart → String) (catalog : RuleCatalog D)
    (violations : List ViolationRecord) (objects : List LayoutObject)
    (previous : List PreviousRegion) : Except String (RegionBuildResult D) := do
  let seeds ← buildSeeds cfg catalog violations objects
  let (groups, edges) := linkGroups cfg seeds
  let regions := buildRegions cfg stableHash previous seeds groups
  let owned := ownership regions
  if (owned.map (·.1)).toFinset ≠ (violations.map (·.violationId)).toFinset then
    throw "violation coverage invariant failed"
  let updated ← associateAll cfg violations objects
  return ⟨updated, regions, edges, owned⟩

end Builder

end DRCAgent.Regions
