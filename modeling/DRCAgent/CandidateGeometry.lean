/-
# The polygons that a candidate may add

`_polygon_is_simple` of `actions/candidates.py` with the functions it calls, and the test
of an after polygon at the geometry level of `CandidateChecker.validate`.

Main result:

* `polygonAccepted_iff`: the test accepts exactly the simple polygons of nonzero area.
-/
import Mathlib
import DRCAgent.PlaneSegments
import DRCAgent.Polygon

namespace DRCAgent.Candidates

open List PlaneSegments

/-! ## The tests of the source -/

/-- `_polygon_area2` -/
def polygonArea2 (points : List Point) : ℤ := |area2 points|

/-- `_orientation` -/
def orientation (a b c : Point) : ℤ :=
  let value := (b.y - a.y) * (c.x - b.x) - (b.x - a.x) * (c.y - b.y)
  if value = 0 then 0 else if 0 < value then 1 else -1

/-- `_on_segment` -/
def onSegment (a b c : Point) : Bool :=
  (min a.x c.x ≤ b.x && b.x ≤ max a.x c.x) && (min a.y c.y ≤ b.y && b.y ≤ max a.y c.y)

/-- `_segments_intersect` -/
def segmentsIntersect (a b c d : Point) : Bool :=
  let o1 := orientation a b c
  let o2 := orientation a b d
  let o3 := orientation c d a
  let o4 := orientation c d b
  if o1 ≠ o2 ∧ o3 ≠ o4 then true
  else o1 = 0 && onSegment a c b || o2 = 0 && onSegment a d b ||
    o3 = 0 && onSegment c a d || o4 = 0 && onSegment c b d

/-- `points[index % len(points)]` -/
def pointAt (points : List Point) (index : ℕ) : Point := points.getD (index % points.length) ⟨0, 0⟩

/-- The pair of edges is passed over. -/
def skipsPair (count left right : ℕ) : Bool :=
  right = left || right = (left + 1) % count || (left = 0 && right = count - 1)

/-- `_polygon_is_simple` -/
def polygonIsSimple (points : List Point) : Bool :=
  let count := points.length
  if points.dedup.length ≠ count then false
  else (range count).all fun left => (range' (left + 1) (count - (left + 1))).all fun right =>
    skipsPair count left right || !segmentsIntersect (pointAt points left)
      (pointAt points (left + 1)) (pointAt points right) (pointAt points (right + 1))

/-- The tests of an after polygon, except those of the grid and of the die. -/
def polygonAccepted (polygon : List Point) : Bool :=
  !(polygon.length < 3 || polygonArea2 polygon = 0 || !polygonIsSimple polygon)

/-! ## Segments between integer points -/

section Segments

variable {a b c d : Point}

/-- A vertex as a point of the plane. -/
noncomputable def toPlane (p : Point) : ℝ × ℝ := (p.x, p.y)

theorem toPlane_injective : Function.Injective toPlane := by
  rintro ⟨x, y⟩ ⟨x', y'⟩ h
  obtain ⟨hx, hy⟩ := Prod.mk.inj h
  obtain rfl : x = x' := Int.cast_injective hx
  obtain rfl : y = y' := Int.cast_injective hy
  rfl

theorem orientation_eq_sign : orientation a b c =
    SignType.sign ((b.y - a.y) * (c.x - b.x) - (b.x - a.x) * (c.y - b.y)) := by
  rw [orientation]
  rcases lt_trichotomy ((b.y - a.y) * (c.x - b.x) - (b.x - a.x) * (c.y - b.y)) 0 with h | h | h
  · rw [sign_neg h, if_neg h.ne, if_neg h.not_gt, SignType.coe_neg_one]
  · rw [h, sign_zero, if_pos rfl, SignType.coe_zero]
  · rw [sign_pos h, if_neg h.ne', if_pos h, SignType.coe_one]

/-- The value of `_orientation` is the sign of the doubled area, the other way round. -/
theorem orientation_eq : orientation a b c =
    (-SignType.sign (det (toPlane a) (toPlane b) (toPlane c)) : SignType) := by
  have hdet : det (toPlane a) (toPlane b) (toPlane c) =
      ((-((b.y - a.y) * (c.x - b.x) - (b.x - a.x) * (c.y - b.y)) : ℤ) : ℝ) := by
    rw [det, toPlane, toPlane, toPlane]
    push_cast
    ring
  rw [hdet, sign_intCast, Left.sign_neg, neg_neg, orientation_eq_sign]

theorem coe_signType_inj {s t : SignType} : (s : ℤ) = t ↔ s = t := by
  revert s t
  decide

theorem onSegment_iff :
    onSegment a b c = true ↔ InBox (toPlane a) (toPlane c) (toPlane b) := by
  rw [onSegment, InBox, toPlane, toPlane, toPlane]
  simp only [Bool.and_eq_true, decide_eq_true_eq]
  norm_cast

/-- A vertex that is collinear with a segment and in its box is on it. -/
theorem orientation_onSegment_iff : (orientation a b c = 0 ∧ onSegment a c b = true) ↔
    toPlane c ∈ segment ℝ (toPlane a) (toPlane b) := by
  rw [mem_segment_iff_box, onSegment_iff, orientation_eq, ← SignType.coe_zero, coe_signType_inj,
    SignType.neg_eq_zero_iff, sign_eq_zero_iff]

/-- **`_segments_intersect` is exact** for segments whose ends differ. -/
theorem segmentsIntersect_iff (hab : a ≠ b) (hcd : c ≠ d) :
    segmentsIntersect a b c d = true ↔
      ∃ x, x ∈ segment ℝ (toPlane a) (toPlane b) ∧ x ∈ segment ℝ (toPlane c) (toPlane d) := by
  have hsep : ∀ {a b c d : Point}, orientation a b c ≠ orientation a b d ↔
      Separates (toPlane a) (toPlane b) (toPlane c) (toPlane d) := by
    intro a b c d
    rw [orientation_eq, orientation_eq, ne_eq, coe_signType_inj, neg_inj, Separates]
  rw [segments_meet_iff (toPlane_injective.ne hab) (toPlane_injective.ne hcd), Touch, ← hsep,
    ← hsep, ← orientation_onSegment_iff, ← orientation_onSegment_iff,
    ← orientation_onSegment_iff, ← orientation_onSegment_iff, segmentsIntersect]
  split_ifs with h
  · exact ⟨fun _ => .inl h, fun _ => rfl⟩
  · simp only [Bool.or_eq_true, Bool.and_eq_true, decide_eq_true_eq, or_assoc]
    exact ⟨.inr, fun hor => hor.resolve_left h⟩

end Segments

/-! ## Closed polygons -/

section Polygons

variable {points : List Point}

/-- The vertices of a polygon, in the plane. -/
noncomputable def planeVertex (points : List Point) (i : Fin points.length) : ℝ × ℝ :=
  toPlane (points.get i)

/-- The index after the last is the first. -/
def nextIndex {n : ℕ} (i : Fin n) : Fin n := ⟨(i + 1) % n, Nat.mod_lt _ i.pos⟩

/-- **A simple polygon**: no two of its edges meet, except consecutive edges at the vertex
they share. -/
def SimplePolygon (points : List Point) : Prop := Simple (planeVertex points) nextIndex

theorem val_nextIndex {n : ℕ} (i : Fin n) :
    (nextIndex i : ℕ) = if (i : ℕ) + 1 = n then 0 else (i : ℕ) + 1 := by
  rw [nextIndex]
  split_ifs with h
  · exact (congrArg (· % n) h).trans (Nat.mod_self n)
  · exact Nat.mod_eq_of_lt (by omega)

theorem fourOrMore_nextIndex {n : ℕ} (hn : 4 ≤ n) : FourOrMore (nextIndex (n := n)) := by
  refine ⟨fun j => ?_, fun i heq => ?_, fun i heq => ?_, fun i heq => ?_⟩
  · by_cases hj : (j : ℕ) = 0
    · refine ⟨⟨n - 1, by omega⟩, Fin.ext ?_⟩
      rw [val_nextIndex]
      simp only
      split_ifs <;> omega
    · refine ⟨⟨j - 1, by omega⟩, Fin.ext ?_⟩
      rw [val_nextIndex]
      simp only
      split_ifs <;> omega
  · have hval := congrArg Fin.val heq
    simp only [val_nextIndex] at hval
    split_ifs at hval <;> omega
  · have hval := congrArg Fin.val heq
    simp only [val_nextIndex] at hval
    split_ifs at hval <;> omega
  · have hval := congrArg Fin.val heq
    simp only [val_nextIndex] at hval
    split_ifs at hval <;> omega

theorem pointAt_val (i : Fin points.length) : pointAt points i = points.get i := by
  rw [pointAt, Nat.mod_eq_of_lt i.isLt, getD_eq_getElem?_getD, getElem?_eq_getElem i.isLt]
  rfl

theorem pointAt_next (i : Fin points.length) : pointAt points (i + 1) = points.get (nextIndex i) := by
  rw [← pointAt_val, pointAt, pointAt, nextIndex]
  simp only [Nat.mod_mod]

/-- Two vertices one of which follows the other. -/
theorem skipsPair_iff {n : ℕ} {i j : Fin n} (hij : i < j) :
    skipsPair n i j = true ↔ j = nextIndex i ∨ i = nextIndex j := by
  rw [skipsPair, Fin.ext_iff, Fin.ext_iff, val_nextIndex j]
  have hlt : (i : ℕ) < j := hij
  have hj := j.isLt
  simp only [Bool.or_eq_true, Bool.and_eq_true, decide_eq_true_eq]
  have hnext : (nextIndex i : ℕ) = ((i : ℕ) + 1) % n := rfl
  rw [hnext]
  split_ifs with hlast <;> omega

/-- The test of one pair of edges. -/
theorem pairTest_iff (hnodup : points.Nodup) {i j : Fin points.length} (hij : i < j) :
    (skipsPair points.length i j || !segmentsIntersect (pointAt points i) (pointAt points (i + 1))
        (pointAt points j) (pointAt points (j + 1))) = true ↔
      (j ≠ nextIndex i → i ≠ nextIndex j → ∀ x ∈ edge (planeVertex points) nextIndex i,
        x ∉ edge (planeVertex points) nextIndex j) := by
  have hends : ∀ k : Fin points.length, points.get k ≠ points.get (nextIndex k) := by
    intro k heq
    have hval := congrArg Fin.val (nodup_iff_injective_get.1 hnodup heq)
    rw [val_nextIndex] at hval
    have hlt : (i : ℕ) < j := hij
    have hj := j.isLt
    split_ifs at hval <;> omega
  rw [Bool.or_eq_true, skipsPair_iff hij, Bool.not_eq_true', ← Bool.not_eq_true, pointAt_val,
    pointAt_val, pointAt_next, pointAt_next, segmentsIntersect_iff (hends i) (hends j)]
  constructor
  · rintro (hskip | hnone) hj hi x hx hx'
    · exact (hskip.elim hj hi).elim
    · exact hnone ⟨x, hx, hx'⟩
  · intro h
    by_cases hskip : j = nextIndex i ∨ i = nextIndex j
    · exact .inl hskip
    · rw [not_or] at hskip
      exact .inr fun ⟨x, hx, hx'⟩ => h hskip.1 hskip.2 x hx hx'

/-- What `_polygon_is_simple` checks. -/
theorem polygonIsSimple_iff : polygonIsSimple points = true ↔
    points.Nodup ∧ ApartDisjoint (planeVertex points) nextIndex := by
  rw [polygonIsSimple]
  by_cases hnodup : points.Nodup
  · have hdedup : points.dedup.length = points.length := by rw [hnodup.dedup]
    rw [if_neg (not_not.2 hdedup), all_eq_true, apartDisjoint_iff_lt]
    constructor
    · intro h
      refine ⟨hnodup, fun i j hij => (pairTest_iff hnodup hij).1 ?_⟩
      refine all_eq_true.1 (h i (mem_range.2 i.isLt)) j ?_
      have hlt : (i : ℕ) < j := hij
      rw [mem_range'_1]
      omega
    · intro h left hleft
      rw [mem_range] at hleft
      refine all_eq_true.2 fun right hright => ?_
      rw [mem_range'_1] at hright
      have hlt : (⟨left, hleft⟩ : Fin points.length) < ⟨right, by omega⟩ := by
        rw [Fin.mk_lt_mk]
        omega
      exact (pairTest_iff hnodup hlt).2 (h.2 _ _ hlt)
  · have hdedup : points.dedup.length ≠ points.length := by
      intro hlength
      have heq := (dedup_sublist points).eq_of_length hlength
      exact hnodup (dedup_eq_self.1 heq)
    rw [if_pos hdedup]
    exact ⟨fun h => absurd h Bool.false_ne_true, fun h => absurd h.1 hnodup⟩

/-- A polygon of fewer than three vertices has no area. -/
theorem area2_of_length_lt (h : points.length < 3) : area2 points = 0 := by
  match points, h with
  | [], _ => rfl
  | [a], _ =>
    simp only [area2, cross, rotate_cons_succ, rotate_zero, nil_append,
      zipWith_cons_cons, zipWith_nil_left, sum_cons, sum_nil]
    ring
  | [a, b], _ =>
    simp only [area2, cross, rotate_cons_succ, rotate_zero, cons_append,
      nil_append, zipWith_cons_cons, zipWith_nil_left, sum_cons, sum_nil]
    ring

theorem area2_triangle (a b c : Point) : area2 [a, b, c] = cross a b + (cross b c + cross c a) := by
  simp [area2, rotate_cons_succ]

/-- A triangle of nonzero area is simple. -/
theorem simplePolygon_of_triangle (hlength : points.length = 3) (harea : area2 points ≠ 0) :
    SimplePolygon points ∧ points.Nodup := by
  match points, hlength with
  | [a, b, c], _ =>
    have hnodup : [a, b, c].Nodup := by
      simp only [nodup_cons, mem_cons, not_mem_nil, or_false, not_or,
        not_false_eq_true, nodup_nil, and_true]
      refine ⟨⟨?_, ?_⟩, ?_⟩ <;> rintro rfl <;> refine harea ?_ <;>
        rw [area2_triangle, cross, cross, cross] <;> ring
    refine ⟨simple_of_triangle (fun i j hij => ?_) fun i => ?_, hnodup⟩
    · have hi := i.isLt
      have hj := j.isLt
      have hval : (i : ℕ) ≠ j := fun heq => hij (Fin.ext heq)
      simp only [length_cons, length_nil] at hi hj
      rw [Fin.ext_iff, Fin.ext_iff, val_nextIndex, val_nextIndex]
      simp only [length_cons, length_nil]
      split_ifs <;> omega
    · have hdet : det (planeVertex [a, b, c] i) (planeVertex [a, b, c] (nextIndex i))
          (planeVertex [a, b, c] (nextIndex (nextIndex i))) = ((area2 [a, b, c] : ℤ) : ℝ) := by
        rw [area2_triangle]
        rw [cross, cross, cross]
        fin_cases i <;> simp [det, planeVertex, nextIndex, toPlane] <;> ring
      rw [hdet]
      exact Int.cast_ne_zero.2 harea

/-- **The test of the geometry level accepts exactly the simple polygons of nonzero area.** -/
theorem polygonAccepted_iff (polygon : List Point) :
    polygonAccepted polygon = true ↔ SimplePolygon polygon ∧ area2 polygon ≠ 0 := by
  rw [polygonAccepted, Bool.not_eq_true', Bool.or_eq_false_iff, Bool.or_eq_false_iff,
    Bool.not_eq_false', decide_eq_false_iff_not, decide_eq_false_iff_not, polygonArea2,
    abs_eq_zero, polygonIsSimple_iff]
  rcases Nat.lt_or_ge polygon.length 3 with hshort | hlong
  · exact ⟨fun h => absurd hshort h.1.1, fun h => absurd (area2_of_length_lt hshort) h.2⟩
  · rcases Nat.eq_or_lt_of_le hlong with hthree | hfour
    · constructor
      · exact fun h => ⟨(simplePolygon_of_triangle hthree.symm h.1.2).1, h.1.2⟩
      · rintro ⟨-, harea⟩
        obtain ⟨hsimple, hnodup⟩ := simplePolygon_of_triangle hthree.symm harea
        exact ⟨⟨not_lt.2 hlong, harea⟩, hnodup, hsimple.apartDisjoint⟩
    · have hdiffer : Function.Injective (planeVertex polygon) ↔ polygon.Nodup :=
        (toPlane_injective.of_comp_iff polygon.get).trans nodup_iff_injective_get.symm
      rw [SimplePolygon, simple_iff_of_four (fourOrMore_nextIndex hfour), hdiffer]
      constructor
      · exact fun h => ⟨h.2, h.1.2⟩
      · exact fun h => ⟨⟨not_lt.2 hlong, h.2⟩, h.1⟩

/-- A vertex on an edge that is not next to it. -/
example : polygonAccepted [⟨0, 0⟩, ⟨4, 0⟩, ⟨4, 4⟩, ⟨2, 0⟩, ⟨0, 4⟩] = false := by decide +kernel

end Polygons

end DRCAgent.Candidates
