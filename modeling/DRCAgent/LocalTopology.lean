/-
# The local routing topology

`LocalTopologyBuilder.build` (src/drc_agent/regions/topology.py). Around every violation
the routing objects are clipped to a window: what is left of one is a fragment, with two
endpoints unless the object is a square. A violation on a via layer has landings, the vias
at its marker or else the marker itself. Fragments of different objects on one layer are
adjacent where they are near, and so are landings and the fragments on the metals of the
via.

The ids are shortened hashes of what they name, and the records are kept in dictionaries
under them, so two records with one id would be one. The functions `str.isdigit` and
`int`, which read the number of a via layer, are parameters; `int` and `str` may raise.
-/
import DRCAgent.CandidateChecker
import DRCAgent.SortedItems

namespace DRCAgent.Topology

open Connectivity (PyError)
open Dicts (sortedItems)
open Regions (Box ViolationRecord ObjectKind truthy pairs)

/-! ## Records -/

/-- `LayoutObject` with the fields that the topology reads. -/
structure LayoutObject extends toMapped : Connectivity.LayoutObject where
  sourceSpan : Option Candidates.SourceSpan := none

inductive Orientation
  | horizontal | vertical | square
  deriving DecidableEq

inductive EndpointEnd
  | start | finish
  deriving DecidableEq

inductive BoundaryKind
  | parentEndpoint | windowBoundary
  deriving DecidableEq

/-- The evidence for a fragment, an endpoint or an adjacency. -/
inductive EvidenceLevel
  | sourceExact | geometric
  deriving DecidableEq

inductive LandingEvidence
  | sourceExact | markerGeometric
  deriving DecidableEq

inductive Relation
  | overlaps | nearby
  deriving DecidableEq

structure RouteEndpoint where
  endpointId : String
  fragmentId : String
  parentObjectId : String
  pointDbu : Point
  endKind : EndpointEnd
  boundaryKind : BoundaryKind
  connectivityComponentId : Option String
  evidenceLevel : EvidenceLevel

structure RouteFragment where
  fragmentId : String
  parentObjectId : String
  parentSourceAnchorId : String
  violationIds : List String
  layer : String
  bboxDbu : Box
  geometryDbu : List Point
  orientation : Orientation
  endpointIds : List String
  connectivityComponentId : Option String
  evidenceLevel : EvidenceLevel
  deriving DecidableEq

structure ViaLanding where
  landingId : String
  violationId : String
  layer : String
  bboxDbu : Box
  parentObjectId : Option String := none
  parentSourceAnchorId : Option String := none
  connectivityComponentId : Option String := none
  evidenceLevel : LandingEvidence

structure ViaMetalAdjacency where
  adjacencyId : String
  viaLandingId : String
  routeFragmentId : String
  relation : Relation
  overlapAreaDbu2 : ℤ
  gapDbu : ℤ
  connectivityComponentId : Option String
  evidenceLevel : EvidenceLevel

structure SameLayerAdjacency where
  adjacencyId : String
  aFragmentId : String
  bFragmentId : String
  layer : String
  gapDbu : ℤ
  evidenceLevel : EvidenceLevel

structure Coverage where
  sourceRoutingObjectCount : ℕ
  fragmentedParentCount : ℕ
  longRouteParentCount : ℕ
  fragmentedLongRouteParentCount : ℕ
  connectivityComponentObjectCount : ℕ
  viaLandingCount : ℕ
  viaMetalAdjacencyCount : ℕ
  sameLayerAdjacencyCount : ℕ
  parentMappingCoverageMilli : ℕ
  longRouteMappingCoverageMilli : ℕ

inductive TopologyEvidence
  | sourcePlusConnectivity | sourceGeometric
  deriving DecidableEq

structure LocalRoutingTopology where
  fragments : List (String × RouteFragment)
  endpoints : List (String × RouteEndpoint)
  viaLandings : List (String × ViaLanding)
  viaMetalAdjacencies : List ViaMetalAdjacency
  sameLayerAdjacencies : List SameLayerAdjacency
  parentToFragmentIds : List (String × List String)
  sourceAnchorToFragmentIds : List (String × List String)
  coverage : Coverage
  evidenceLevel : TopologyEvidence

/-- A value handed to `stable_hash`, by its JSON form. -/
inductive HashInput
  | texts (first second : String)
  | boxed (first second : String) (box : Box)
  | pointed (id : String) (index : ℕ) (point : Point)
  deriving DecidableEq

/-- `LocalTopologyBuilder` -/
structure Builder where
  dbuPerUm : ℤ
  minimumWindowDbu : ℤ := 256

/-- The functions on texts that are not in the source. -/
structure TextFunctions where
  /-- `str.isdigit` -/
  isDigit : String → Bool
  /-- `int` of a string; there is no number where it raises. -/
  intOf : String → Option ℤ

/-! ## Boxes -/

inductive Rounding
  | nearest | outward | inward
  deriving DecidableEq

/-- `nm_to_dbu` -/
def nmToDbu (nm dbuPerUm : ℤ) (rounding : Rounding := .nearest) : Except String ℤ :=
  if nm < 0 ∨ dbuPerUm ≤ 0 then .error "nm and dbu_per_um must be non-negative/positive"
  else
    let numerator := nm * dbuPerUm
    -- the divisor is positive, so `/` is the quotient rounded down
    match rounding with
    | .outward => .ok ((numerator + 999) / 1000)
    | .inward => .ok (numerator / 1000)
    | .nearest => .ok ((numerator + 500) / 1000)

/-- `_polygon` -/
def polygon (box : Box) : List Point :=
  [⟨box.x1, box.y1⟩, ⟨box.x1, box.y2⟩, ⟨box.x2, box.y2⟩, ⟨box.x2, box.y1⟩]

/-- `dx * dx + dy * dy` -/
def gapSquared (a b : Box) : ℤ :=
  let dx := max (max (a.x1 - b.x2) (b.x1 - a.x2)) 0
  let dy := max (max (a.y1 - b.y2) (b.y1 - a.y2)) 0
  dx * dx + dy * dy

/-- `outward_box_gap_dbu` -/
def outwardBoxGapDbu (a b : Box) : ℤ :=
  let squared := gapSquared a b
  -- isqrt rounds down
  let root : ℤ := Nat.sqrt squared.toNat
  if root * root = squared then root else root + 1

/-- `_intersection` -/
def intersection (a b : Box) : Option Box :=
  if h : max a.x1 b.x1 < min a.x2 b.x2 ∧ max a.y1 b.y1 < min a.y2 b.y2 then
    some ⟨max a.x1 b.x1, max a.y1 b.y1, min a.x2 b.x2, min a.y2 b.y2, h.1.le, h.2.le⟩
  -- boxes that only touch do not count
  else none

/-- `_orientation` -/
def orientation (box : Box) : Orientation :=
  if box.width > box.height then .horizontal
  else if box.height > box.width then .vertical
  else .square

/-- `max(self.minimum_window_dbu, marker.width, marker.height)` -/
def influence (builder : Builder) (marker : Box) : ℤ :=
  max (max builder.minimumWindowDbu marker.width) marker.height

theorem influence_nonneg (builder : Builder) (marker : Box) : 0 ≤ influence builder marker := by
  have hwidth : 0 ≤ marker.width := sub_nonneg.2 marker.ordered.1
  exact le_max_of_le_left (le_max_of_le_right hwidth)

/-- `marker.expand(influence)`, which passes the validation: the influence is not
negative. -/
def influenceWindow (builder : Builder) (marker : Box) : Box where
  x1 := marker.x1 - influence builder marker
  y1 := marker.y1 - influence builder marker
  x2 := marker.x2 + influence builder marker
  y2 := marker.y2 + influence builder marker
  ordered := by
    have hinfluence := influence_nonneg builder marker
    obtain ⟨hx, hy⟩ := marker.ordered
    omega

/-! ## Via layers -/

/-- `layer.startswith("V")` -/
def isViaLayer (layer : String) : Bool := layer.toList.head? = some 'V'

/-- `_via_adjacent_metals` -/
def viaAdjacentMetals (text : TextFunctions) (layer : String) : Except PyError (List String) :=
  let number := String.ofList layer.toList.tail
  if !isViaLayer layer || !text.isDigit number then .ok []
  else
    match text.intOf number with
    | some lower => do
      let lowerText ← Candidates.intText lower
      let upperText ← Candidates.intText (lower + 1)
      return ["M" ++ lowerText, "M" ++ upperText]
    -- isdigit accepts some digits that int does not read
    | none => .error .valueError

/-! ## Fragments and landings -/

section Build

variable (stableHash : HashInput → String) (builder : Builder)

/-- The first digits of a hash, after the kind of record. -/
def shortId (kind : String) (value : HashInput) : String :=
  kind ++ String.ofList ((stableHash value).toList.take 20)

/-- `"SOURCE_EXACT" if obj.source_span else "GEOMETRIC"` -/
def objectEvidence (obj : LayoutObject) : EvidenceLevel :=
  if obj.sourceSpan.isSome then .sourceExact else .geometric

/-- The ends of a fragment: the point, where the fragment ends and where the object does. -/
def ends (obj : LayoutObject) (clipped : Box) : List (Point × ℤ × ℤ) :=
  -- the orientation is that of the object, not of what is left of it
  match orientation obj.bboxDbu with
  | .square => []
  | .horizontal =>
    let y := (clipped.y1 + clipped.y2) / 2
    [(⟨clipped.x1, y⟩, clipped.x1, obj.bboxDbu.x1), (⟨clipped.x2, y⟩, clipped.x2, obj.bboxDbu.x2)]
  | .vertical =>
    let x := (clipped.x1 + clipped.x2) / 2
    [(⟨x, clipped.y1⟩, clipped.y1, obj.bboxDbu.y1), (⟨x, clipped.y2⟩, clipped.y2, obj.bboxDbu.y2)]

/-- One endpoint of a fragment. -/
def endpointOf (fragmentId : String) (obj : LayoutObject) (entry : (Point × ℤ × ℤ) × ℕ) :
    RouteEndpoint where
  endpointId := shortId stableHash "endpoint_" (.pointed fragmentId entry.2 entry.1.1)
  fragmentId := fragmentId
  parentObjectId := obj.objectId
  pointDbu := entry.1.1
  endKind := if entry.2 = 0 then .start else .finish
  boundaryKind := if entry.1.2.1 = entry.1.2.2 then .parentEndpoint else .windowBoundary
  connectivityComponentId := obj.connectivityComponentId
  evidenceLevel := objectEvidence obj

/-- The endpoints of a fragment. -/
def endpointsOf (fragmentId : String) (obj : LayoutObject) (clipped : Box) : List RouteEndpoint :=
  (ends obj clipped).zipIdx.map (endpointOf stableHash fragmentId obj)

/-- What is hashed to the id of a fragment. -/
def fragmentValue (violation : ViolationRecord) (obj : LayoutObject) (clipped : Box) : HashInput :=
  .boxed obj.objectId violation.violationId clipped

/-- The fragment of an object, clipped to the window of a violation. -/
def fragmentAt (violation : ViolationRecord) (obj : LayoutObject) (clipped : Box) :
    RouteFragment :=
  let fragmentId := shortId stableHash "fragment_" (fragmentValue violation obj clipped)
  { fragmentId := fragmentId
    parentObjectId := obj.objectId
    parentSourceAnchorId := obj.sourceAnchorId.getD ""
    violationIds := [violation.violationId]
    layer := obj.layer
    bboxDbu := clipped
    geometryDbu := polygon clipped
    orientation := orientation obj.bboxDbu
    endpointIds := (endpointsOf stableHash fragmentId obj clipped).map (·.endpointId)
    connectivityComponentId := obj.connectivityComponentId
    evidenceLevel := objectEvidence obj }

/-- The objects of the source that are routing. -/
def isSource (obj : LayoutObject) : Bool :=
  truthy obj.sourceAnchorId && obj.geometryDbu.any (fun points => !points.isEmpty) &&
    obj.routingType == some "routing"

/-- The dictionaries of the loop over the violations. -/
structure BuildState where
  fragments : List (String × RouteFragment) := []
  endpoints : List (String × RouteEndpoint) := []
  landings : List (String × ViaLanding) := []
  byParent : List (String × List String) := []
  byAnchor : List (String × List String) := []

/-- One object in the window of a violation. -/
def addFragment (violation : ViolationRecord) (state : BuildState) (obj : LayoutObject) :
    BuildState :=
  if !(obj.kind == .polygon || obj.kind == .path) then state
  -- a violation without layers takes the objects of every layer
  else if !violation.layers.isEmpty && !violation.layers.contains obj.layer then state
  else
    match intersection obj.bboxDbu (influenceWindow builder violation.markerBboxDbu) with
    | none => state
    | some clipped =>
      let fragment := fragmentAt stableHash violation obj clipped
      { state with
        endpoints := (endpointsOf stableHash fragment.fragmentId obj clipped).foldl
          (fun dict endpoint => Dicts.insert endpoint.endpointId endpoint dict) state.endpoints
        fragments := Dicts.insert fragment.fragmentId fragment state.fragments
        byParent := Dicts.append obj.objectId fragment.fragmentId state.byParent
        byAnchor := Dicts.append (obj.sourceAnchorId.getD "") fragment.fragmentId state.byAnchor }

/-- The landing of a via at the marker. -/
def objectLanding (violation : ViolationRecord) (layer : String) (obj : LayoutObject) :
    ViaLanding where
  landingId := shortId stableHash "landing_" (.texts violation.violationId obj.objectId)
  violationId := violation.violationId
  layer := layer
  bboxDbu := obj.bboxDbu
  parentObjectId := some obj.objectId
  parentSourceAnchorId := obj.sourceAnchorId
  connectivityComponentId := obj.connectivityComponentId
  evidenceLevel := .sourceExact

/-- The landing that is the marker. -/
def markerLanding (violation : ViolationRecord) (layer : String) : ViaLanding where
  landingId := shortId stableHash "landing_"
    (.boxed violation.violationId layer violation.markerBboxDbu)
  violationId := violation.violationId
  layer := layer
  bboxDbu := violation.markerBboxDbu
  evidenceLevel := .markerGeometric

/-- The landings of a violation on one of its layers. -/
def landingsOf (source : List LayoutObject) (violation : ViolationRecord) (layer : String) :
    List ViaLanding :=
  if !isViaLayer layer then []
  else
    let found := source.filter fun obj =>
      obj.layer == layer && obj.bboxDbu.intersects violation.markerBboxDbu
    -- where no via is at the marker, the marker stands in for it
    if found.isEmpty then [markerLanding stableHash violation layer]
    else found.map (objectLanding stableHash violation layer)

/-- One layer of a violation. -/
def addLandings (source : List LayoutObject) (violation : ViolationRecord) (state : BuildState)
    (layer : String) : BuildState :=
  { state with
    landings := (landingsOf stableHash source violation layer).foldl
      (fun dict landing => Dicts.insert landing.landingId landing dict) state.landings }

/-- One violation. -/
def addViolation (source : List LayoutObject) (state : BuildState) (violation : ViolationRecord) :
    BuildState :=
  violation.layers.foldl (addLandings stableHash source violation)
    (source.foldl (addFragment stableHash builder violation) state)

/-- The violations in the order of their ids. -/
def sortViolations (violations : List ViolationRecord) : List ViolationRecord :=
  violations.insertionSort fun a b => a.violationId ≤ b.violationId

/-- The dictionaries after the loop. -/
def collected (violations : List ViolationRecord) (objects : List LayoutObject) : BuildState :=
  (sortViolations violations).foldl (addViolation stableHash builder (objects.filter isSource)) {}

/-! ## Adjacencies -/

/-- The adjacency of two fragments, if they are adjacent. -/
def sameLayerAdjacency (pair : RouteFragment × RouteFragment) : Option SameLayerAdjacency :=
  let a := pair.1
  let b := pair.2
  if a.layer ≠ b.layer ∨ a.parentObjectId = b.parentObjectId then none
  else
    let gap := outwardBoxGapDbu a.bboxDbu b.bboxDbu
    if gap > builder.minimumWindowDbu then none
    else some {
      adjacencyId := shortId stableHash "same_layer_" (.texts a.fragmentId b.fragmentId)
      aFragmentId := a.fragmentId
      bFragmentId := b.fragmentId
      layer := a.layer
      gapDbu := gap
      evidenceLevel :=
        if a.evidenceLevel = b.evidenceLevel ∧ b.evidenceLevel = .sourceExact then .sourceExact
        else .geometric }

/-- The loop over the pairs of fragments. -/
def sameLayerAdjacencies (fragments : List RouteFragment) : List SameLayerAdjacency :=
  (pairs (fragments.insertionSort fun a b => a.fragmentId ≤ b.fragmentId)).filterMap
    (sameLayerAdjacency stableHash builder)

/-- The adjacency of a landing and a fragment, if they are adjacent. -/
def viaMetalAdjacency (landing : ViaLanding) (legalMetals : List String)
    (fragment : RouteFragment) : Option ViaMetalAdjacency :=
  if !legalMetals.contains fragment.layer then none
  else if !fragment.violationIds.contains landing.violationId then none
  else
    let overlap := landing.bboxDbu.intersectionArea fragment.bboxDbu
    let gap := outwardBoxGapDbu landing.bboxDbu fragment.bboxDbu
    if overlap = 0 ∧ gap > builder.minimumWindowDbu then none
    else some {
      adjacencyId := shortId stableHash "via_metal_" (.texts landing.landingId fragment.fragmentId)
      viaLandingId := landing.landingId
      routeFragmentId := fragment.fragmentId
      relation := if overlap = 0 then .nearby else .overlaps
      overlapAreaDbu2 := overlap
      gapDbu := gap
      connectivityComponentId :=
        if landing.connectivityComponentId = fragment.connectivityComponentId then
          landing.connectivityComponentId
        else none
      evidenceLevel :=
        if landing.evidenceLevel = .sourceExact ∧ fragment.evidenceLevel = .sourceExact then
          .sourceExact
        else .geometric }

/-- The adjacencies of one landing. -/
def landingAdjacencies (text : TextFunctions) (fragments : List RouteFragment)
    (landing : ViaLanding) : Except PyError (List ViaMetalAdjacency) := do
  let legalMetals ← viaAdjacentMetals text landing.layer
  return fragments.filterMap (viaMetalAdjacency stableHash builder landing legalMetals)

/-! ## The topology -/

/-- The objects with a long side. -/
def longEligible (source : List LayoutObject) : List String :=
  ((source.filter fun obj => decide (2 * builder.dbuPerUm ≤ obj.bboxDbu.extent)).map
    (·.objectId)).dedup

/-- The objects of a connectivity component. -/
def componentObjects (source : List LayoutObject) : List String :=
  ((source.filter fun obj => truthy obj.connectivityComponentId).map (·.objectId)).dedup

/-- An index, with its ids sorted and each once. -/
def sortedIndex (index : List (String × List String)) : List (String × List String) :=
  (sortedItems index).map fun entry => (entry.1, sortedSet entry.2)

/-- `build` -/
def build (text : TextFunctions) (violations : List ViolationRecord)
    (objects : List LayoutObject) : Except PyError LocalRoutingTopology := do
  let source := objects.filter isSource
  let state := collected stableHash builder violations objects
  let fragments := state.fragments.map (·.2)
  let landings := state.landings.map (·.2)
  let sameLayer := sameLayerAdjacencies stableHash builder fragments
  let perLanding ← landings.mapM (landingAdjacencies stableHash builder text fragments)
  let viaMetal := perLanding.flatten
  let long := longEligible builder source
  let components := componentObjects source
  -- the keys of the index are the objects with a fragment
  let fragmentedLong := long.filter fun id => (state.byParent.map (·.1)).contains id
  return {
    fragments := sortedItems state.fragments
    endpoints := sortedItems state.endpoints
    viaLandings := sortedItems state.landings
    viaMetalAdjacencies := viaMetal.insertionSort fun a b => a.adjacencyId ≤ b.adjacencyId
    sameLayerAdjacencies := sameLayer.insertionSort fun a b => a.adjacencyId ≤ b.adjacencyId
    parentToFragmentIds := sortedIndex state.byParent
    sourceAnchorToFragmentIds := sortedIndex state.byAnchor
    coverage := {
      sourceRoutingObjectCount := source.length
      fragmentedParentCount := state.byParent.length
      longRouteParentCount := long.length
      fragmentedLongRouteParentCount := fragmentedLong.length
      connectivityComponentObjectCount := components.length
      viaLandingCount := landings.length
      viaMetalAdjacencyCount := viaMetal.length
      sameLayerAdjacencyCount := sameLayer.length
      parentMappingCoverageMilli := 1000 * state.byParent.length / max source.length 1
      longRouteMappingCoverageMilli := 1000 * fragmentedLong.length / max long.length 1 }
    evidenceLevel := if components.isEmpty then .sourceGeometric else .sourcePlusConnectivity }

end Build

end DRCAgent.Topology
