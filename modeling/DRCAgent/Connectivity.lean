/-
# Connectivity components from golden paths

`map_connectivity_components` of `regions/connectivity.py`. A golden path has two
endpoints, each a layer with a vertex list. An endpoint that matches exactly one
routing object of the design binds to it; the paths whose two endpoints are bound join
their objects, and each class of objects gets a component id.

An endpoint is read from JSON. The code treats one it cannot read as unmatched, but it
catches `KeyError`, `TypeError` and `ValueError` only: a point with fewer than two
entries is an `IndexError` and an infinite number an `OverflowError`, and then there is
no mapping at all.

The purpose of the mapping is `MapsComponents`, and `EndpointEscapes` describes the
endpoints that escape.
-/
import DRCAgent.Polygon
import DRCAgent.RegionBuilder
import DRCAgent.UnionFindClasses

namespace DRCAgent.Connectivity

open Disjoint List

/-! ## JSON values -/

/-- What `json.loads` returns; a finite number by its value. -/
inductive Json
  | null
  | bool (value : Bool)
  | number (value : ℚ)
  | infinity (negative : Bool)
  | nan
  | string (text : String)
  | array (items : List Json)
  | object (entries : List (String × Json))

/-- The exceptions that reading a value may raise. -/
inductive PyError
  | keyError | typeError | valueError | indexError | overflowError | attributeError
  | zeroDivisionError
  deriving DecidableEq

/-- `except (KeyError, TypeError, ValueError)` -/
def PyError.caught : PyError → Bool
  | keyError | typeError | valueError => true
  | indexError | overflowError | attributeError | zeroDivisionError => false

namespace Json

/-- `bool(value)` -/
def truthy : Json → Bool
  | null => false
  | bool value => value
  | number value => value ≠ 0
  | infinity _ => true
  | nan => true
  | string text => text ≠ ""
  | array items => !items.isEmpty
  | object entries => !entries.isEmpty

/-- The text of a value, if it is one. -/
def textOf : Json → Option String
  | string text => some text
  | _ => none

/-- `value or {}` -/
def orEmpty (value : Json) : Json := if value.truthy then value else object []

/-- `value[key]` for a string. -/
def field : Json → String → Except PyError Json
  | object entries, key =>
    match entries.lookup key with
    | some value => .ok value
    | none => .error .keyError
  | _, _ => .error .typeError

/-- The characters of a string, as strings. -/
def characters (text : String) : List Json := text.toList.map fun c => string (String.singleton c)

/-- `value[index]` for an integer; the keys of an object are strings. -/
def item : Json → ℕ → Except PyError Json
  | array items, index =>
    match items[index]? with
    | some value => .ok value
    | none => .error .indexError
  | string text, index =>
    match (characters text)[index]? with
    | some value => .ok value
    | none => .error .indexError
  | object _, _ => .error .keyError
  | _, _ => .error .typeError

/-- The values of `for item in value`. -/
def items : Json → Except PyError (List Json)
  | array items => .ok items
  | string text => .ok (characters text)
  | object entries => .ok (entries.map fun entry => string entry.1)
  | _ => .error .typeError

/-- `int(value)`, where `intOfText` is `int` of a string. -/
def toInt (intOfText : String → Option ℤ) : Json → Except PyError ℤ
  | bool value => .ok (if value then 1 else 0)
  | number value => .ok (value.num.tdiv value.den)
  | infinity _ => .error .overflowError
  | nan => .error .valueError
  | string text =>
    match intOfText text with
    | some value => .ok value
    | none => .error .valueError
  | _ => .error .typeError

end Json

/-! ## Rings of vertices -/

/-- `_canonical_polygon` of the vertices: the least of the rotations of the list and of
its reversal. -/
def canonicalRing (values : List Point) : List Point :=
  min (Necklace.least values) (Necklace.least values.reverse)

/-- Equal up to rotation and reversal. -/
def SameRing (left right : List Point) : Prop := left ~r right ∨ left.reverse ~r right

/-! ## Objects and paths -/

/-- `LayoutObject` with the fields that the mapping reads and writes. -/
structure LayoutObject extends Regions.LayoutObject where
  geometryDbu : Option (List Point) := none
  connectivityComponentId : Option String := none
  layerNumber : Option ℤ := none

/-- A path of the golden connectivity, from `start` to `end`; a missing endpoint is `null`. -/
structure GoldenPath where
  start : Json := .null
  finish : Json := .null

structure ConnectivityMappingReport where
  evidenceLevel : String := "CONNECTIVITY_COMPONENT_EXACT_GEOMETRY"
  namedNetAvailable : Bool := false
  sourceFormat : String := "DAC26_GOLDEN_PATH_ENDPOINTS"
  objectCount : ℕ
  endpointCount : ℕ
  uniquelyMatchedEndpointCount : ℕ
  ambiguousEndpointCount : ℕ
  mappedObjectCount : ℕ
  unavailableObjectCount : ℤ
  componentCount : ℕ
  mappedObjectIds : List String

/-- A key of the index: a layer number and a canonical ring. -/
structure EndpointKey where
  layer : ℤ
  ring : List Point
  deriving DecidableEq

/-- The key of an object in the index; `none` for an object that is not indexed. -/
def routingKey (item : LayoutObject) : Option EndpointKey :=
  if item.routingType = some "routing" then
    match item.layerNumber, item.geometryDbu with
    | some layer, some (first :: rest) => some ⟨layer, canonicalRing (first :: rest)⟩
    | _, _ => none
  else none

/-- `index` -/
def endpointIndex (objects : List LayoutObject) : List (EndpointKey × List String) :=
  Dicts.collect (objects.filterMap fun item => (routingKey item).map fun key => (key, item.objectId))

section Mapping

variable (intOfText : String → Option ℤ) (stableHash : List String → String)

/-- `(int(point[0]), int(point[1]))` -/
def readPoint (point : Json) : Except PyError Point := do
  let x ← (← point.item 0).toInt intOfText
  let y ← (← point.item 1).toInt intOfText
  return ⟨x, y⟩

/-- The layer and the vertices of an endpoint. -/
def endpointShape (endpoint : Json) : Except PyError (ℤ × List Point) := do
  let layer ← (← endpoint.field "layer").toInt intOfText
  let values ← (← (← endpoint.field "points").items).mapM (readPoint intOfText)
  return (layer, values)

/-- `key` of an endpoint. -/
def endpointKey (endpoint : Json) : Except PyError EndpointKey := do
  let shape ← endpointShape intOfText endpoint
  return ⟨shape.1, canonicalRing shape.2⟩

/-- The variables of the loop over the paths. -/
structure MatchState where
  matchedPaths : List (Option String × Option String) := []
  matchedIds : List String := []
  ambiguous : ℕ := 0
  endpointCount : ℕ := 0
  uniqueEndpointCount : ℕ := 0

/-- The matches of an endpoint that was read: the state, and what is appended to
`endpoints`. -/
def recordMatches (state : MatchState) : List String → MatchState × Option String
  | [objectId] =>
    ({ state with
      matchedIds := state.matchedIds ++ [objectId]
      uniqueEndpointCount := state.uniqueEndpointCount + 1 }, some objectId)
  | matched =>
    ({ state with
      ambiguous := state.ambiguous + if 1 < matched.length then 1 else 0 }, none)

/-- One endpoint. -/
def matchEndpoint (index : List (EndpointKey × List String)) (state : MatchState)
    (endpoint : Json) : Except PyError (MatchState × Option String) :=
  let state := { state with endpointCount := state.endpointCount + 1 }
  match endpointKey intOfText endpoint with
  | .error e => if e.caught then .ok (state, none) else .error e
  | .ok key => .ok (recordMatches state ((index.lookup key).getD []))

/-- One path. -/
def matchPath (index : List (EndpointKey × List String)) (state : MatchState)
    (path : GoldenPath) : Except PyError MatchState := do
  let (state, start) ← matchEndpoint intOfText index state path.start.orEmpty
  let (state, finish) ← matchEndpoint intOfText index state path.finish.orEmpty
  return { state with matchedPaths := state.matchedPaths ++ [(start, finish)] }

/-- The two objects of a path both of whose endpoints are bound. -/
def boundPair (ends : Option String × Option String) : Option (String × String) :=
  match ends with
  | (some left, some right) => some (left, right)
  | _ => none

/-- `union` after its loop. -/
def componentForest (matchedIds : List String)
    (matchedPaths : List (Option String × Option String)) : UnionFind String :=
  (UnionFind.ofIds (sortedSet matchedIds)).unions (matchedPaths.filterMap boundPair)

/-- `"cc_" + stable_hash(sorted(values))[:20]` -/
def componentId (values : List String) : String :=
  "cc_" ++ String.ofList ((stableHash (values.insertionSort (· ≤ ·))).toList.take 20)

/-- `component_by_object` -/
def componentByObject (groups : List (List String)) : List (String × String) :=
  Dicts.ofList (groups.flatMap fun values =>
    values.map fun objectId => (objectId, componentId stableHash values))

/-- The update of an object that has a component. -/
def receive (component : Option String) (item : LayoutObject) : LayoutObject :=
  match component with
  | none => item
  | some id =>
    { item with
      netId := some id
      netMappingQuality := .connectivityComponent
      connectivityComponentId := some id }

def mapConnectivityComponents (objects : List LayoutObject) (paths : List GoldenPath) :
    Except PyError (List LayoutObject × ConnectivityMappingReport) := do
  let state ← paths.foldlM (matchPath intOfText (endpointIndex objects)) {}
  let components := componentByObject stableHash
    (componentForest state.matchedIds state.matchedPaths).groups
  let mapped := objects.map fun item => receive (components.lookup item.objectId) item
  return (mapped,
    { objectCount := objects.length
      endpointCount := state.endpointCount
      uniquelyMatchedEndpointCount := state.uniqueEndpointCount
      ambiguousEndpointCount := state.ambiguous
      mappedObjectCount := components.length
      unavailableObjectCount := (objects.length : ℤ) - components.length
      componentCount := (components.map (·.2)).dedup.length
      mappedObjectIds := sortedSet (components.map (·.1)) })

end Mapping

/-! ## What the mapping is for -/

section Purpose

variable (intOfText : String → Option ℤ)

/-- The endpoints of the paths. -/
def endpoints (paths : List GoldenPath) : List Json :=
  paths.flatMap fun path => [path.start.orEmpty, path.finish.orEmpty]

/-- The endpoint has the layer number and the vertex list of a routing object, up to
rotation and reversal. -/
def EndpointMatches (endpoint : Json) (item : LayoutObject) : Prop :=
  ∃ layer values geometry, endpointShape intOfText endpoint = .ok (layer, values) ∧
    item.routingType = some "routing" ∧ item.layerNumber = some layer ∧
    item.geometryDbu = some geometry ∧ geometry ≠ [] ∧ SameRing values geometry

/-- The endpoint matches the object and no other. -/
def UniquelyMatches (objects : List LayoutObject) (endpoint : Json) (item : LayoutObject) : Prop :=
  item ∈ objects ∧ EndpointMatches intOfText endpoint item ∧
    ∀ other ∈ objects, EndpointMatches intOfText endpoint other → other = item

/-- A path both of whose endpoints are uniquely matched, by the ids of the objects. -/
def PathLinks (objects : List LayoutObject) (paths : List GoldenPath) (left right : String) :
    Prop :=
  ∃ path ∈ paths, ∃ a b, UniquelyMatches intOfText objects path.start.orEmpty a ∧
    UniquelyMatches intOfText objects path.finish.orEmpty b ∧ a.objectId = left ∧ b.objectId = right

/-- Equal, or linked by a chain of such paths in either direction. -/
def Linked (objects : List LayoutObject) (paths : List GoldenPath) : String → String → Prop :=
  Relation.EqvGen (PathLinks intOfText objects paths)

/-- The objects and the report that the paths describe. -/
structure MapsComponents (objects : List LayoutObject) (paths : List GoldenPath)
    (component : String → Option String) (mapped : List LayoutObject)
    (report : ConnectivityMappingReport) : Prop where
  mapped_eq : mapped = objects.map fun item => receive (component item.objectId) item
  receives_iff : ∀ item ∈ objects, (component item.objectId).isSome ↔
    ∃ endpoint ∈ endpoints paths, UniquelyMatches intOfText objects endpoint item
  same_component_iff : ∀ a ∈ objects, ∀ b ∈ objects, (component a.objectId).isSome →
    (component b.objectId).isSome → (component a.objectId = component b.objectId ↔
      Linked intOfText objects paths a.objectId b.objectId)
  objectCount : report.objectCount = objects.length
  endpointCount : report.endpointCount = 2 * paths.length
  endpoints_le : report.uniquelyMatchedEndpointCount + report.ambiguousEndpointCount ≤
    report.endpointCount
  mappedObjectCount : report.mappedObjectCount =
    (objects.filter fun item => (component item.objectId).isSome).length
  unavailableObjectCount : report.unavailableObjectCount =
    (objects.filter fun item => (component item.objectId).isNone).length
  componentCount : report.componentCount =
    (objects.filterMap fun item => component item.objectId).dedup.length
  mappedObjectIds : report.mappedObjectIds = sortedSet
    ((objects.filter fun item => (component item.objectId).isSome).map (·.objectId))

def GoldenPath.flip (path : GoldenPath) : GoldenPath := ⟨path.finish, path.start⟩

/-- The paths in another order, some of them the other way around. -/
def Rearranged (paths paths' : List GoldenPath) : Prop :=
  ∃ turned, List.Forall₂ (fun path path' => path' = path ∨ path' = path.flip) paths turned ∧
    turned.Perm paths'

/-! ### The endpoints that escape -/

/-- A coordinate or a layer that `int` reads. -/
def Readable (value : Json) : Prop := ∃ n, value.toInt intOfText = .ok n

/-- An infinite number. -/
def Json.Infinite : Json → Prop
  | .infinity _ => True
  | _ => False

/-- The entries of a point that is indexed by position. -/
def Json.entries? : Json → Option (List Json)
  | .array items => some items
  | .string text => some (Json.characters text)
  | _ => none

/-- The point has too few entries, or an infinite coordinate, and no coordinate before
that is unreadable. -/
def PointEscapes (point : Json) : Prop :=
  match point.entries? with
  | none => False
  | some [] => True
  | some [x] => x.Infinite ∨ Readable intOfText x
  | some (x :: y :: _) => x.Infinite ∨ Readable intOfText x ∧ y.Infinite

/-- The layer of the endpoint is infinite, or a point escapes after a layer and points
that can be read. -/
def EndpointEscapes (endpoint : Json) : Prop :=
  ∃ layer, endpoint.field "layer" = .ok layer ∧ (layer.Infinite ∨ Readable intOfText layer ∧
    ∃ points before point after, endpoint.field "points" = .ok points ∧
      points.items = .ok (before ++ point :: after) ∧
      (∀ p ∈ before, ∃ value, readPoint intOfText p = .ok value) ∧ PointEscapes intOfText point)

end Purpose

end DRCAgent.Connectivity
