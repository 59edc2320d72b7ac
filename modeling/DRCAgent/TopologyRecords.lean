/-
# What the topology records

The dictionaries of `LocalTopologyBuilder.build` after its loop. A violation and an object
give a piece, a fragment with its endpoints, exactly when the object may have one and its
box meets the window in a positive area (`isSome_pieceOf`); the dictionaries are those of
all pieces and of all landings (`collected_records`). The gap that the adjacencies compare
is the Euclidean distance, rounded up (`outwardBoxGapDbu_le_iff`).
-/
import DRCAgent.Failures
import DRCAgent.LocalTopology
import DRCAgent.SharedObjects

namespace DRCAgent.Topology

open List Option
open Connectivity (PyError)
open Regions (Box ViolationRecord pairs)

/-! ## Boxes -/

section Boxes

variable {a b c : Box}

/-- The area of an intersection is positive where the sides overlap. -/
theorem intersectionArea_pos :
    0 < a.intersectionArea b ↔ max a.x1 b.x1 < min a.x2 b.x2 ∧ max a.y1 b.y1 < min a.y2 b.y2 := by
  rw [Box.intersectionArea, ← sub_pos (b := max a.x1 b.x1), ← sub_pos (b := max a.y1 b.y1)]
  generalize min a.x2 b.x2 - max a.x1 b.x1 = s
  generalize min a.y2 b.y2 - max a.y1 b.y1 = t
  constructor
  · intro h
    have hs : max 0 s ≠ 0 := left_ne_zero_of_mul h.ne'
    have ht : max 0 t ≠ 0 := right_ne_zero_of_mul h.ne'
    omega
  · rintro ⟨hs, ht⟩
    exact mul_pos (lt_max_of_lt_right hs) (lt_max_of_lt_right ht)

theorem intersectionArea_nonneg : 0 ≤ a.intersectionArea b :=
  mul_nonneg (le_max_left _ _) (le_max_left _ _)

theorem isSome_intersection : (intersection a b).isSome ↔ 0 < a.intersectionArea b := by
  rw [intersection, intersectionArea_pos]
  split_ifs with h
  · exact iff_of_true rfl h
  · exact iff_of_false Bool.false_ne_true h

/-- The intersection lies within both boxes. -/
theorem within_of_intersection (h : intersection a b = some c) : c.Within a ∧ c.Within b := by
  rw [intersection] at h
  split_ifs at h with hlt
  rw [← some.inj h]
  exact ⟨⟨le_max_left _ _, le_max_left _ _, min_le_left _ _, min_le_left _ _⟩,
    ⟨le_max_right _ _, le_max_right _ _, min_le_right _ _, min_le_right _ _⟩⟩

/-- The boxes are at most so far apart, in the Euclidean distance. -/
def Near (w : ℤ) (a b : Box) : Prop := 0 ≤ w ∧ gapSquared a b ≤ w * w

instance (w : ℤ) (a b : Box) : Decidable (Near w a b) :=
  inferInstanceAs (Decidable (0 ≤ w ∧ gapSquared a b ≤ w * w))

theorem gapSquared_nonneg : 0 ≤ gapSquared a b := add_nonneg (mul_self_nonneg _) (mul_self_nonneg _)

theorem gapSquared_comm : gapSquared a b = gapSquared b a := by
  rw [gapSquared, gapSquared, max_comm (a.x1 - b.x2), max_comm (a.y1 - b.y2)]

/-- **The gap is the distance, rounded up.** -/
theorem outwardBoxGapDbu_le_iff {w : ℤ} : outwardBoxGapDbu a b ≤ w ↔ Near w a b := by
  have hnonneg : 0 ≤ gapSquared a b := gapSquared_nonneg
  rw [outwardBoxGapDbu, Near]
  generalize gapSquared a b = squared at hnonneg
  obtain ⟨n, rfl⟩ := Int.eq_ofNat_of_zero_le hnonneg
  show (if ((Nat.sqrt n : ℤ)) * Nat.sqrt n = n then (Nat.sqrt n : ℤ) else Nat.sqrt n + 1) ≤ w ↔ _
  have hlow : ((Nat.sqrt n : ℤ)) * Nat.sqrt n ≤ n := by exact_mod_cast Nat.sqrt_le n
  have hhigh : (n : ℤ) < ((Nat.sqrt n : ℤ) + 1) * (Nat.sqrt n + 1) := by
    exact_mod_cast Nat.lt_succ_sqrt n
  have hroot : (0 : ℤ) ≤ Nat.sqrt n := Int.natCast_nonneg _
  generalize (Nat.sqrt n : ℤ) = root at hlow hhigh hroot
  split_ifs with hexact
  -- a square has its root; any other distance is above its root, so up to the next number
  · rw [← hexact]
    exact ⟨fun h => ⟨hroot.trans h, mul_self_le_mul_self hroot h⟩,
      fun h => le_of_not_gt fun hlt => absurd h.2 (not_le.2 (mul_self_lt_mul_self h.1 hlt))⟩
  · constructor
    · exact fun h => ⟨by linarith, hhigh.le.trans (mul_self_le_mul_self (by linarith) h)⟩
    · rintro ⟨hw, h⟩
      by_contra hlt
      have hle : w ≤ root := by linarith [Int.lt_add_one_iff.1 (not_le.1 hlt)]
      exact hexact (le_antisymm hlow (h.trans (mul_self_le_mul_self hw hle)))

end Boxes

/-! ## Pieces -/

/-- What an object leaves in the window of a violation. -/
structure Piece where
  violation : ViolationRecord
  obj : LayoutObject
  box : Box

section Pieces

variable (stableHash : HashInput → String) (builder : Builder)

/-- The fragment of a piece. -/
def Piece.fragment (piece : Piece) : RouteFragment :=
  fragmentAt stableHash piece.violation piece.obj piece.box

/-- The endpoints of a piece. -/
def Piece.endpoints (piece : Piece) : List RouteEndpoint :=
  endpointsOf stableHash (piece.fragment stableHash).fragmentId piece.obj piece.box

/-- The box of an object in the window of a violation, as the loop finds it. -/
def clippedOf (violation : ViolationRecord) (obj : LayoutObject) : Option Box :=
  if !(obj.kind == .polygon || obj.kind == .path) then none
  else if !violation.layers.isEmpty && !violation.layers.contains obj.layer then none
  else intersection obj.bboxDbu (influenceWindow builder violation.markerBboxDbu)

/-- The piece of a violation and an object, if there is one. -/
def pieceOf (pair : ViolationRecord × LayoutObject) : Option Piece :=
  (clippedOf builder pair.1 pair.2).map (Piece.mk pair.1 pair.2)

/-- The pieces of violations and objects. -/
def pieces (violations : List ViolationRecord) (source : List LayoutObject) : List Piece :=
  (violations ×ˢ source).filterMap (pieceOf builder)

/-- The object is routing that may have a fragment around the violation. -/
def Eligible (violation : ViolationRecord) (obj : LayoutObject) : Prop :=
  isSource obj ∧ (obj.kind = .polygon ∨ obj.kind = .path) ∧
    (violation.layers = [] ∨ obj.layer ∈ violation.layers)

instance (violation : ViolationRecord) (obj : LayoutObject) :
    Decidable (Eligible violation obj) :=
  inferInstanceAs (Decidable (_ ∧ _ ∧ _))

/-- The box of the object and the influence window intersect in a positive area. -/
def MeetsWindow (violation : ViolationRecord) (obj : LayoutObject) : Prop :=
  0 < obj.bboxDbu.intersectionArea (influenceWindow builder violation.markerBboxDbu)

instance (violation : ViolationRecord) (obj : LayoutObject) :
    Decidable (MeetsWindow builder violation obj) :=
  inferInstanceAs (Decidable (0 < _))

variable {builder} {violation : ViolationRecord} {obj : LayoutObject} {box : Box}

/-- An object of the source has a box in the window exactly when it is eligible and meets the
window, and the box is the intersection. -/
theorem clippedOf_eq_some (hsource : isSource obj) :
    clippedOf builder violation obj = some box ↔ Eligible violation obj ∧
      intersection obj.bboxDbu (influenceWindow builder violation.markerBboxDbu) = some box := by
  have hkind : (obj.kind == .polygon || obj.kind == .path) = true ↔
      obj.kind = .polygon ∨ obj.kind = .path := by simp
  have hlayers : (!violation.layers.isEmpty && !violation.layers.contains obj.layer) = true ↔
      ¬ (violation.layers = [] ∨ obj.layer ∈ violation.layers) := by simp
  rw [clippedOf, Eligible]
  by_cases hk : obj.kind = .polygon ∨ obj.kind = .path
  · rw [hkind.2 hk, Bool.not_true, if_neg Bool.false_ne_true]
    by_cases hl : violation.layers = [] ∨ obj.layer ∈ violation.layers
    · rw [if_neg fun h => hlayers.1 h hl]
      exact ⟨fun h => ⟨⟨hsource, hk, hl⟩, h⟩, fun h => h.2⟩
    · rw [if_pos (hlayers.2 hl)]
      exact ⟨fun h => (nomatch h), fun h => absurd h.1.2.2 hl⟩
  · rw [Bool.eq_false_iff.2 fun h => hk (hkind.1 h), Bool.not_false, if_pos rfl]
    exact ⟨fun h => (nomatch h), fun h => absurd h.1.2.1 hk⟩

/-- **A pair has a piece** exactly when it is eligible and meets the window. -/
theorem isSome_pieceOf (hsource : isSource obj) :
    (pieceOf builder (violation, obj)).isSome ↔
      Eligible violation obj ∧ MeetsWindow builder violation obj := by
  rw [pieceOf, isSome_map, MeetsWindow, ← isSome_intersection]
  constructor
  · intro h
    obtain ⟨box, hbox⟩ := isSome_iff_exists.1 h
    obtain ⟨heligible, hbox⟩ := (clippedOf_eq_some hsource).1 hbox
    exact ⟨heligible, isSome_iff_exists.2 ⟨box, hbox⟩⟩
  · rintro ⟨heligible, h⟩
    obtain ⟨box, hbox⟩ := isSome_iff_exists.1 h
    exact isSome_iff_exists.2 ⟨box, (clippedOf_eq_some hsource).2 ⟨heligible, hbox⟩⟩

theorem eq_of_pieceOf {pair : ViolationRecord × LayoutObject} {piece : Piece}
    (h : pieceOf builder pair = some piece) : (piece.violation, piece.obj) = pair := by
  obtain ⟨box, -, rfl⟩ := map_eq_some_iff.1 h
  rfl

end Pieces

/-! ## The dictionaries of the loop -/

section Loop

variable (stableHash : HashInput → String)

/-- The dictionaries are those of the pieces and the landings. -/
structure BuildState.Records (state : BuildState) (done : List Piece)
    (landings : List ViaLanding) : Prop where
  fragments : state.fragments = Dicts.ofList (done.map fun piece =>
    ((piece.fragment stableHash).fragmentId, piece.fragment stableHash))
  endpoints : state.endpoints = Dicts.ofList ((done.flatMap (·.endpoints stableHash)).map
    fun endpoint => (endpoint.endpointId, endpoint))
  byParent : state.byParent = Dicts.collect (done.map fun piece =>
    (piece.obj.objectId, (piece.fragment stableHash).fragmentId))
  byAnchor : state.byAnchor = Dicts.collect (done.map fun piece =>
    (piece.obj.sourceAnchorId.getD "", (piece.fragment stableHash).fragmentId))
  landings : state.landings = Dicts.ofList (landings.map fun landing =>
    (landing.landingId, landing))

variable {stableHash} {builder : Builder} {state : BuildState} {done : List Piece}
  {landings : List ViaLanding}

theorem addFragment_eq (violation : ViolationRecord) (obj : LayoutObject) :
    addFragment stableHash builder violation state obj =
      match clippedOf builder violation obj with
      | none => state
      | some box =>
        let piece : Piece := ⟨violation, obj, box⟩
        { state with
          endpoints := (piece.endpoints stableHash).foldl
            (fun dict endpoint => Dicts.insert endpoint.endpointId endpoint dict) state.endpoints
          fragments := Dicts.insert (piece.fragment stableHash).fragmentId
            (piece.fragment stableHash) state.fragments
          byParent := Dicts.append obj.objectId (piece.fragment stableHash).fragmentId
            state.byParent
          byAnchor := Dicts.append (obj.sourceAnchorId.getD "")
            (piece.fragment stableHash).fragmentId state.byAnchor } := by
  rw [addFragment, clippedOf]
  split_ifs
  · rfl
  · rfl
  · cases intersection obj.bboxDbu (influenceWindow builder violation.markerBboxDbu) with
    | none => rfl
    | some box => rfl

/-- One object records its piece. -/
theorem BuildState.Records.addFragment (h : state.Records stableHash done landings)
    (builder : Builder) (violation : ViolationRecord) (obj : LayoutObject) :
    (Topology.addFragment stableHash builder violation state obj).Records stableHash
      (done ++ (pieceOf builder (violation, obj)).toList) landings := by
  rw [addFragment_eq, pieceOf]
  -- an object without a piece leaves the records alone
  cases clippedOf builder violation obj with
  | none =>
    show state.Records stableHash (done ++ []) landings
    rwa [append_nil]
  | some box =>
    constructor
    · show Dicts.insert _ _ state.fragments = Dicts.ofList ((done ++ [_]).map _)
      rw [map_append, Dicts.ofList, foldl_append, h.fragments]
      rfl
    · show List.foldl _ state.endpoints _ = Dicts.ofList (((done ++ [_]).flatMap _).map _)
      rw [flatMap_append, map_append, Dicts.ofList, foldl_append, h.endpoints,
        flatMap_singleton, foldl_map]
      rfl
    · show Dicts.append _ _ state.byParent = Dicts.collect ((done ++ [_]).map _)
      rw [map_append, Dicts.collect, foldl_append, h.byParent]
      rfl
    · show Dicts.append _ _ state.byAnchor = Dicts.collect ((done ++ [_]).map _)
      rw [map_append, Dicts.collect, foldl_append, h.byAnchor]
      rfl
    · exact h.landings

/-- One layer records its landings. -/
theorem BuildState.Records.addLandings (h : state.Records stableHash done landings)
    (source : List LayoutObject) (violation : ViolationRecord) (layer : String) :
    (Topology.addLandings stableHash source violation state layer).Records stableHash done
      (landings ++ landingsOf stableHash source violation layer) where
  fragments := h.fragments
  endpoints := h.endpoints
  byParent := h.byParent
  byAnchor := h.byAnchor
  landings := by
    show List.foldl _ state.landings _ = _
    rw [map_append, Dicts.ofList, foldl_append, h.landings, foldl_map]
    rfl

/-- The landings of a violation. -/
def landingsAround (stableHash : HashInput → String) (source : List LayoutObject)
    (violation : ViolationRecord) : List ViaLanding :=
  violation.layers.flatMap (landingsOf stableHash source violation)

/-- One violation records its pieces and its landings. -/
theorem BuildState.Records.addViolation (h : state.Records stableHash done landings)
    (builder : Builder) (source : List LayoutObject) (violation : ViolationRecord) :
    (Topology.addViolation stableHash builder source state violation).Records stableHash
      (done ++ source.filterMap fun obj => pieceOf builder (violation, obj))
      (landings ++ landingsAround stableHash source violation) := by
  -- first the objects, with the pieces that are done, then the layers, with the landings
  have hobjects : ∀ (objects : List LayoutObject) {state : BuildState} {done : List Piece},
      state.Records stableHash done landings →
        (objects.foldl (Topology.addFragment stableHash builder violation) state).Records stableHash
          (done ++ objects.filterMap fun obj => pieceOf builder (violation, obj)) landings := by
    intro objects
    induction objects with
    | nil =>
      intro state done h
      rwa [filterMap_nil, append_nil]
    | cons obj rest ih =>
      intro state done h
      have hfirst := ih (h.addFragment builder violation obj)
      rw [append_assoc] at hfirst
      rw [foldl_cons, filterMap_cons]
      cases hpiece : pieceOf builder (violation, obj) with
      | none => rwa [hpiece] at hfirst
      | some piece => rwa [hpiece] at hfirst
  have hlayers : ∀ (layers : List String) {state : BuildState} {landings : List ViaLanding},
      state.Records stableHash
          (done ++ source.filterMap fun obj => pieceOf builder (violation, obj)) landings →
        (layers.foldl (Topology.addLandings stableHash source violation) state).Records stableHash
          (done ++ source.filterMap fun obj => pieceOf builder (violation, obj))
          (landings ++ layers.flatMap (landingsOf stableHash source violation)) := by
    intro layers
    induction layers with
    | nil =>
      intro state landings h
      rwa [flatMap_nil, append_nil]
    | cons layer rest ih =>
      intro state landings h
      have hfirst := ih (h.addLandings source violation layer)
      rwa [append_assoc] at hfirst
  exact hlayers violation.layers (hobjects source h)

/-- **The dictionaries after the loop** are those of all pieces and all landings. -/
theorem collected_records (violations : List ViolationRecord) (objects : List LayoutObject) :
    (collected stableHash builder violations objects).Records stableHash
      (pieces builder (sortViolations violations) (objects.filter isSource))
      ((sortViolations violations).flatMap
        (landingsAround stableHash (objects.filter isSource))) := by
  have hpieces : ∀ vs : List ViolationRecord, pieces builder vs (objects.filter isSource) =
      vs.flatMap fun violation => (objects.filter isSource).filterMap fun obj =>
        pieceOf builder (violation, obj) := by
    intro vs
    show ((vs.flatMap fun violation => (objects.filter isSource).map (Prod.mk violation)).filterMap
      (pieceOf builder)) = _
    rw [filterMap_flatMap]
    simp only [filterMap_map]
    rfl
  -- the loop over the violations, from any records
  have hloop : ∀ (vs : List ViolationRecord) {state : BuildState} {done : List Piece}
      {landings : List ViaLanding}, state.Records stableHash done landings →
        BuildState.Records stableHash
          (vs.foldl (Topology.addViolation stableHash builder (objects.filter isSource)) state)
          (done ++ vs.flatMap fun violation => (objects.filter isSource).filterMap fun obj =>
            pieceOf builder (violation, obj))
          (landings ++ vs.flatMap (landingsAround stableHash (objects.filter isSource))) := by
    intro vs
    induction vs with
    | nil =>
      intro state done landings h
      rwa [flatMap_nil, flatMap_nil, append_nil, append_nil]
    | cons violation rest ih =>
      intro state done landings h
      have hfirst := ih (h.addViolation builder (objects.filter isSource) violation)
      rwa [append_assoc, append_assoc] at hfirst
  have hstart : (({} : BuildState).Records stableHash [] []) := ⟨rfl, rfl, rfl, rfl, rfl⟩
  rw [hpieces]
  exact hloop (sortViolations violations) hstart

end Loop

end DRCAgent.Topology
