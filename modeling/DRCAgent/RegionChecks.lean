/-
# What a region build may raise

`RegionBuilder.build` (src/drc_agent/regions/builder.py) once more, with everything in it
that raises: the validation of a box (`Box` in schemas/common.py), the operations on
numbers that are too large for a float, and the conversion of a number with more than 4300
digits to text. `RegionConfig` (config/loader.py) bounds none of its numbers, and the
schemas bound no coordinate, so all of these can happen.

Each definition has the name it has in `RegionBuilder.lean` and runs that one after its
checks, in the order of the source.
-/
import DRCAgent.CandidateChecker
import DRCAgent.KeptGroups

namespace DRCAgent.Regions

open Disjoint

/-! ## Exceptions -/

/-- The exceptions of the builder: of a box that is inverted, of a number that is too large
for a float, of one that is too long for a text, and of the check at the end. -/
inductive BuilderError
  | validationError | overflowError | valueError | assertionError
deriving DecidableEq

/-- The operations on `float` of the builder that raise. -/
class BuilderDoubles (D : Type) extends Candidates.CheckedDoubles D where
  /-- An `int` is too large to be a `float`. -/
  ofIntRaises : ℤ → Bool
  /-- What `int(float)` raises where the float is not finite. -/
  truncError : D → Option BuilderError

open Candidates.CheckedDoubles BuilderDoubles

/-- An operation on numbers that are too large. -/
def overflow (raises : Bool) : Except BuilderError Unit :=
  if raises then .error .overflowError else .ok ()

/-- An exception, or none. -/
def raising : Option BuilderError → Except BuilderError Unit
  | some e => .error e
  | none => .ok ()

/-- `str` of an integer has a limit of 4300 digits. -/
def longText (value : ℤ) : Bool := decide (10 ^ 4300 ≤ value.natAbs)

/-- The texts of some numbers. -/
def texts (values : List ℤ) : Except BuilderError Unit :=
  if values.any longText then .error .valueError else .ok ()

/-- A box that is validated when it is made. -/
def validated {α : Type} (x : Except String α) : Except BuilderError α :=
  x.mapError fun _ => .validationError

/-! ## Windows -/

/-- The coordinates of a box, before they are validated. -/
@[ext]
structure Window where
  x1 : ℤ
  y1 : ℤ
  x2 : ℤ
  y2 : ℤ

namespace Window

/-- The window is not inverted. -/
def Ordered (w : Window) : Prop := w.x1 ≤ w.x2 ∧ w.y1 ≤ w.y2

instance (w : Window) : Decidable w.Ordered := inferInstanceAs (Decidable (_ ∧ _))

def grow (w : Window) (amount : ℤ) : Window :=
  ⟨w.x1 - amount, w.y1 - amount, w.x2 + amount, w.y2 + amount⟩

def union (w other : Window) : Window :=
  ⟨min w.x1 other.x1, min w.y1 other.y1, max w.x2 other.x2, max w.y2 other.y2⟩

/-- `dx * dx + dy * dy` -/
def gapSquare (w other : Window) : ℤ :=
  let dx := max (max (w.x1 - other.x2) (other.x1 - w.x2)) 0
  let dy := max (max (w.y1 - other.y2) (other.y1 - w.y2)) 0
  dx * dx + dy * dy

end Window

def Box.window (b : Box) : Window := ⟨b.x1, b.y1, b.x2, b.y2⟩

theorem Box.window_ordered (b : Box) : b.window.Ordered := b.ordered

theorem Box.gap_eq {D : Type} [Doubles D] (b other : Box) :
    (b.gap other : D) = Doubles.root (b.window.gapSquare other.window) := rfl

theorem Box.union_window (b other : Box) : (b.union other).window = b.window.union other.window :=
  rfl

/-! ## Seeds -/

namespace Checked

section Builder

variable {D : Type} [BuilderDoubles D] (cfg : RegionConfig D)

/-- What the seed takes of an object. -/
def localBox (violation : ViolationRecord) (obj : LayoutObject) : Except BuilderError Box := do
  overflow (ofIntRaises D cfg.dbuPerUm)
  validated (Regions.localBox cfg violation obj)

/-- `(rule.min_influence_nm or 0) * self.cfg.dbu_per_um` -/
def influence (rule : RuleSpec D) : ℤ := rule.minInfluenceNm.getD 0 * cfg.dbuPerUm

/-- The halo that the rule asks for, as a float. -/
def ruleHalo (rule : RuleSpec D) : D :=
  Doubles.mul (Doubles.trueDiv (influence cfg rule) 1000) rule.haloMultiplier

/-- The halo of a violation. -/
def haloOf (rule : RuleSpec D) (violation : ViolationRecord) : ℤ :=
  min (max (max (Doubles.trunc (ruleHalo cfg rule)) (violation.markerBboxDbu.extent / 2))
    cfg.haloMinDbu) cfg.haloMaxDbu

/-- `_seed` -/
def makeSeed (catalog : RuleCatalog D) (violation : ViolationRecord)
    (objects : List LayoutObject) : Except BuilderError Seed := do
  let seed ← objects.foldlM
    (fun seed obj => do
      let window ← localBox cfg violation obj
      return seed.union window)
    violation.markerBboxDbu
  let (rule, known) := catalog.lookup violation.ruleId
  overflow (trueDivRaises D (influence cfg rule) 1000)
  raising (truncError (ruleHalo cfg rule))
  let expanded ← validated (seed.expand (haloOf cfg rule violation))
  return ⟨violation, objects, seed, expanded, !known⟩

/-- The seed of a violation. -/
def seedOf (catalog : RuleCatalog D) (objects : List LayoutObject) (violation : ViolationRecord) :
    Except BuilderError Seed := do
  let (violation, selected) ← validated (associate cfg violation objects)
  makeSeed cfg catalog violation selected

/-- The seeds by their violations, in the order of the ids. -/
def buildSeeds (catalog : RuleCatalog D) (violations : List ViolationRecord)
    (objects : List LayoutObject) : Except BuilderError (List (String × Seed)) := do
  let entries ← (violations.insertionSort fun a b => a.violationId ≤ b.violationId).mapM fun v => do
    let seed ← seedOf cfg catalog objects v
    return (v.violationId, seed)
  return Dicts.ofList entries

/-! ## Linking -/

/-- The ratio of the overlap of two halos is too large. -/
def overlapRaises (a b : Box) : Bool :=
  decide (min a.area b.area ≠ 0) && trueDivRaises D (a.intersectionArea b) (min a.area b.area)

/-- One pair of the first loop. -/
def linkPair (state : UnionFind String × List (AffinityEdge D)) (pair : Seed × Seed) :
    Except BuilderError (UnionFind String × List (AffinityEdge D)) := do
  let (a, b) := pair
  overflow (rootRaises D (a.halo.window.gapSquare b.halo.window))
  if Doubles.compareInt (a.halo.gap b.halo : D) cfg.affinityMaxGapDbu = .gt then return state
  else do
    overflow (overlapRaises (D := D) a.halo b.halo)
    -- the gap is divided by an integer
    overflow (ofIntRaises D (max cfg.affinityMaxGapDbu 1))
    return Regions.linkPair cfg state (a, b)

/-- `int(self.cfg.max_region_span_um * self.cfg.dbu_per_um)` -/
def span : Except BuilderError Unit := do
  overflow (ofIntRaises D cfg.dbuPerUm)
  raising (truncError (Doubles.mul cfg.maxRegionSpanUm (Doubles.ofInt cfg.dbuPerUm)))

/-- `_cap_ok` -/
def capOk (seeds : List Seed) : Except BuilderError Bool := do
  span cfg
  return Regions.capOk cfg seeds

/-- One edge of the second loop. -/
def mergeEdge (seeds : List (String × Seed)) (uf : UnionFind String) (edge : AffinityEdge D) :
    Except BuilderError (UnionFind String) :=
  if !edge.merge then return uf
  else
    let (rootU, uf) := uf.find edge.u
    let (rootV, uf) := uf.find edge.v
    if rootU = rootV then return uf
    else do
      let (uf, group) := members seeds edge.u edge.v uf
      let ok ← capOk cfg group
      return if ok then uf.union edge.u edge.v else uf

/-- The violations in one class after the linking, for each class. -/
def linkGroups (seeds : List (String × Seed)) :
    Except BuilderError (List (List String) × List (AffinityEdge D)) := do
  let (uf, edges) ← (pairs (seeds.map (·.2))).foldlM (linkPair cfg) (startState seeds)
  let uf ← (sortEdges edges).foldlM (mergeEdge cfg seeds) uf
  return (uf.groups, edges)

/-! ## Splitting -/

/-- The centroids or the imbalance of the sides of a cut are too large. -/
def bisectRaises (seeds : List Seed) : Bool :=
  (seeds.any fun s => trueDivRaises D (s.seed.x1 + s.seed.x2) 2 ||
      trueDivRaises D (s.seed.y1 + s.seed.y2) 2) ||
    (List.range' 1 (seeds.length - 1)).any fun cut =>
      ofIntRaises D (((cut : ℤ) - (seeds.length - cut : ℕ)).natAbs)

/-- `_split`, to a depth of calls. -/
def splitTo : ℕ → List Seed → Except BuilderError (Option (List (List Seed)))
  | 0, _ => return none
  | depth + 1, seeds => do
    let ok ← capOk cfg seeds
    if ok || seeds.length ≤ 1 then return some [seeds]
    else if sharesObject seeds then return some [seeds]
    else do
      overflow (bisectRaises (D := D) seeds)
      let left ← splitTo depth (bisect (D := D) seeds).1
      let right ← splitTo depth (bisect (D := D) seeds).2
      return left.bind fun l => right.map fun r => l ++ r

/-- `_split` -/
def split (seeds : List Seed) : Except BuilderError (List (List Seed)) := do
  let groups ← splitTo cfg seeds.length seeds
  return groups.getD []

/-! ## The regions -/

/-- The objects of a region. -/
def regionObjects (seeds : List Seed) : List LayoutObject := (objectsById seeds).map (·.2)

/-- The halo of a region. -/
def regionHalo (first : Seed) (rest : List Seed) : Box :=
  rest.foldl (fun halo s => halo.union s.halo) first.halo

/-- The share of the violations of the lineage is too large. -/
def lineageRaises (previous : List PreviousRegion) (violationIds : List String) : Bool :=
  match bestPrevious previous violationIds with
  | some region => trueDivRaises D (overlapCount region.violationIds violationIds)
      (max (region.violationIds.toFinset ∪ violationIds.toFinset).card 1 : ℕ)
  | none => false

/-- The numbers in the names of the bins of an object. -/
def binNumbers (binSize : ℤ) (obj : LayoutObject) : List ℤ :=
  let b := obj.bboxDbu
  (intRange (b.x1 / binSize) (max (b.x2 - 1) b.x1 / binSize + 1)).flatMap fun x =>
    (intRange (b.y1 / binSize) (max (b.y2 - 1) b.y1 / binSize + 1)).flatMap fun y => [binSize, x, y]

/-- The numbers in the names of the bins of a region. -/
def regionBins (seeds : List Seed) : List ℤ :=
  (regionObjects seeds).flatMap (binNumbers (max cfg.affinityMaxGapDbu 1))

/-- The density of a region is too large. -/
def densityRaises (first : Seed) (rest : List Seed) : Bool :=
  trueDivRaises D (((regionObjects (first :: rest)).map (·.bboxDbu.area)).sum)
    (max (regionHalo first rest).area 1)

def Window.numbers (w : Window) : List ℤ := [w.x1, w.y1, w.x2, w.y2]

/-- The numbers in the content that is hashed. -/
def contentNumbers (first : Seed) (rest : List Seed) : List ℤ :=
  Window.numbers (seedsBox first rest).window ++ Window.numbers (regionHalo first rest).window

/-- `_finalize` -/
def finalize (stableHash : RegionHashPart → String) (previous : List PreviousRegion)
    (first : Seed) (rest : List Seed) : Except BuilderError (RegionState D) := do
  let region := Regions.finalize cfg stableHash previous first rest
  overflow (lineageRaises (D := D) previous region.violationIds)
  span cfg
  texts (regionBins cfg (first :: rest))
  overflow (densityRaises (D := D) first rest)
  texts (contentNumbers first rest)
  return region

/-- The region of a group of seeds. -/
def regionOf (stableHash : RegionHashPart → String) (previous : List PreviousRegion) :
    List Seed → Except BuilderError (Option (RegionState D))
  | [] => return none
  | first :: rest => do
    let region ← finalize cfg stableHash previous first rest
    return some region

/-! ## Building -/

/-- The regions of the groups. -/
def buildRegions (stableHash : RegionHashPart → String) (previous : List PreviousRegion)
    (seeds : List (String × Seed)) (groups : List (List String)) :
    Except BuilderError (List (RegionState D)) := do
  let parts ← groups.mapM fun ids => split cfg (ids.filterMap fun id => seeds.lookup id)
  let regions ← parts.flatten.mapM (regionOf cfg stableHash previous)
  return regions.reduceOption.insertionSort fun a b => a.regionId ≤ b.regionId

/-- `build` -/
def build (stableHash : RegionHashPart → String) (catalog : RuleCatalog D)
    (violations : List ViolationRecord) (objects : List LayoutObject)
    (previous : List PreviousRegion) : Except BuilderError (RegionBuildResult D) := do
  let seeds ← buildSeeds cfg catalog violations objects
  let (groups, edges) ← linkGroups cfg seeds
  let regions ← buildRegions cfg stableHash previous seeds groups
  let owned := ownership regions
  if (owned.map (·.1)).toFinset ≠ (violations.map (·.violationId)).toFinset then
    throw .assertionError
  let updated ← validated (associateAll cfg violations objects)
  return ⟨updated, regions, edges, owned⟩

end Builder

end Checked

end DRCAgent.Regions
