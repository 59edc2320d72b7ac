/-
# Moving an edge of a polygon

`_translate_containing_boundary_edge` (edit_authority/proposals.py): the one edge of a
rectilinear polygon that contains a marker edge is moved to its side.

The result is rectilinear, which is checked, but nothing else is: the edge may come to lie on
another edge, or across one, and the area may vanish.

Main result:

* `displaced_legal_iff`: the result is a simple polygon of nonzero area exactly when the
  displaced edges keep clear of the others and do not sweep the area away.
-/
import DRCAgent.CandidateGeometry
import DRCAgent.CanonicalForm
import DRCAgent.OccurrenceTranslation

namespace DRCAgent.EditAuthority

open List PlaneSegments Candidates

/-! ## The source -/

/-- `Edge`: the two ends of a marker edge. -/
structure MarkerEdge where
  start : Point
  stop : Point

/-- `contains`: the segment from a vertex to the next contains the marker edge. -/
def containsMarker (marker : MarkerEdge) (segmentStart segmentEnd : Point) : Bool :=
  if marker.start.y = marker.stop.y then
    segmentStart.y = segmentEnd.y && segmentEnd.y = marker.start.y &&
      min segmentStart.x segmentEnd.x ≤ min marker.start.x marker.stop.x &&
      max marker.start.x marker.stop.x ≤ max segmentStart.x segmentEnd.x
  else
    segmentStart.x = segmentEnd.x && segmentEnd.x = marker.start.x &&
      min segmentStart.y segmentEnd.y ≤ min marker.start.y marker.stop.y &&
      max marker.start.y marker.stop.y ≤ max segmentStart.y segmentEnd.y

/-- `matching` -/
def matching (polygon : List Point) (marker : MarkerEdge) : List ℕ :=
  (range polygon.length).filter fun index =>
    containsMarker marker (pointAt polygon index) (pointAt polygon (index + 1))

/-- The two vertices of an edge, displaced one after the other. -/
def displaceEdge (polygon : List Point) (index : ℕ) (dx dy : ℤ) : List Point :=
  [index, (index + 1) % polygon.length].foldl (fun result i => result.modify i (shift dx dy))
    polygon

/-- An edge along an axis. -/
def alongAxis (left right : Point) : Bool := left.x = right.x || left.y = right.y

/-- No edge is diagonal. -/
def rectilinear (polygon : List Point) : Bool :=
  (polygon.zip (polygon.rotate 1)).all fun edge => alongAxis edge.1 edge.2

/-- **`_translate_containing_boundary_edge`** -/
def translateContainingBoundaryEdge (polygon : List Point) (marker : MarkerEdge) (dx dy : ℤ) :
    Option (List Point) :=
  let horizontal := decide (marker.start.y = marker.stop.y)
  let vertical := decide (marker.start.x = marker.stop.x)
  if !(horizontal ^^ vertical) then none
  else if horizontal ∧ dx ≠ 0 ∨ vertical ∧ dy ≠ 0 then none
  else
    match matching polygon marker with
    | [index] =>
      let result := displaceEdge polygon index dx dy
      if !rectilinear result then none else some (canonicalPolygon result)
    | _ => none

/-! ## The condition -/

/-- The boxes of two edges meet. -/
def edgesTouch (a b c d : Point) : Bool :=
  min a.x b.x ≤ max c.x d.x && min c.x d.x ≤ max a.x b.x &&
    (min a.y b.y ≤ max c.y d.y && min c.y d.y ≤ max a.y b.y)

/-- The vertex is one of the two that are displaced. -/
def Displaced (polygon : List Point) (index i : ℕ) : Prop :=
  i = index ∨ i = (index + 1) % polygon.length

instance (polygon : List Point) (index i : ℕ) : Decidable (Displaced polygon index i) := by
  unfold Displaced
  infer_instance

/-- The doubled area between the edge and its new position, with a sign. -/
def sweptArea2 (polygon : List Point) (index : ℕ) (dx dy : ℤ) : ℤ :=
  2 * (dx * ((pointAt polygon (index + 1)).y - (pointAt polygon index).y) -
    dy * ((pointAt polygon (index + 1)).x - (pointAt polygon index).x))

/-- Where a vertex is after the displacement. -/
def vertexAfter (polygon : List Point) (index : ℕ) (dx dy : ℤ) (i : ℕ) : Point :=
  if Displaced polygon index (i % polygon.length) then shift dx dy (pointAt polygon i)
  else pointAt polygon i

/-- The vertices that count after the displacement: the last does not where it comes to lie on
the first. -/
def sizeAfter (polygon : List Point) (index : ℕ) (dx dy : ℤ) : ℕ :=
  if vertexAfter polygon index dx dy 0 = vertexAfter polygon index dx dy (polygon.length - 1) then
    polygon.length - 1
  else polygon.length

/-- The edges from two vertices touch after the displacement. -/
def touchAfter (polygon : List Point) (index : ℕ) (dx dy : ℤ) (i j : ℕ) : Bool :=
  edgesTouch (vertexAfter polygon index dx dy i) (vertexAfter polygon index dx dy (i + 1))
    (vertexAfter polygon index dx dy j) (vertexAfter polygon index dx dy (j + 1))

/-- The displaced vertices are at no other vertex, the edges that end in them touch no edge but
those next to them, and the area is not swept away. -/
structure DisplacementClear (polygon : List Point) (index : ℕ) (dx dy : ℤ) : Prop where
  vertices : ∀ i j : Fin (sizeAfter polygon index dx dy), Displaced polygon index i → i ≠ j →
    vertexAfter polygon index dx dy i ≠ vertexAfter polygon index dx dy j
  edges : ∀ i j : Fin (sizeAfter polygon index dx dy),
    Displaced polygon index i ∨ Displaced polygon index (nextIndex i) →
      i ≠ j → j ≠ nextIndex i → i ≠ nextIndex j → touchAfter polygon index dx dy i j = false
  area : area2 polygon + sweptArea2 polygon index dx dy ≠ 0

/-- A polygon that can be drawn: rectilinear, simple and of nonzero area. -/
structure LegalPolygon (polygon : List Point) : Prop where
  rectilinear : rectilinear polygon = true
  simple : SimplePolygon polygon
  area : area2 polygon ≠ 0

/-! ## Numbering the vertices -/

section Numbering

variable {polygon polygon' : List Point} {n : ℕ}

theorem rectilinear_iff : rectilinear polygon = true ↔
    ∀ i : Fin polygon.length, alongAxis (polygon.get i) (polygon.get (nextIndex i)) = true := by
  rw [rectilinear, all_eq_true, forall_mem_iff_getElem]
  have hlength : (polygon.zip (polygon.rotate 1)).length = polygon.length := by simp
  constructor
  · intro h i
    have hi := h i (by rw [hlength]; exact i.isLt)
    rw [getElem_zip, getElem_rotate] at hi
    exact hi
  · intro h i hi
    rw [getElem_zip, getElem_rotate]
    exact h ⟨i, by rwa [hlength] at hi⟩

theorem lt_of_rotate (k : Fin (polygon.rotate n).length) : (k : ℕ) < polygon.length :=
  k.isLt.trans_eq (length_rotate _ _)

/-- Where a vertex of a rotated polygon comes from. -/
def unrotate (n : ℕ) (k : Fin (polygon.rotate n).length) : Fin polygon.length :=
  ⟨(k + n) % polygon.length, Nat.mod_lt _ (Nat.zero_lt_of_lt (lt_of_rotate k))⟩

theorem get_rotate (k : Fin (polygon.rotate n).length) :
    (polygon.rotate n).get k = polygon.get (unrotate n k) := getElem_rotate _ _ _ _

theorem unrotate_injective : Function.Injective (@unrotate polygon n) := by
  intro k k' h
  have hval : (k + n) % polygon.length = (k' + n) % polygon.length := congrArg Fin.val h
  have hmod : (k : ℕ) ≡ k' [MOD polygon.length] := Nat.ModEq.add_right_cancel' n hval
  exact Fin.ext (hmod.eq_of_lt_of_lt (lt_of_rotate k) (lt_of_rotate k'))

theorem unrotate_next (k : Fin (polygon.rotate n).length) :
    unrotate n (nextIndex k) = nextIndex (unrotate n k) := by
  refine Fin.ext ?_
  simp only [unrotate, nextIndex, length_rotate, Nat.mod_add_mod]
  rw [Nat.add_right_comm]

theorem lt_of_reverse (k : Fin polygon.reverse.length) : (k : ℕ) < polygon.length :=
  k.isLt.trans_eq length_reverse

/-- Where a vertex of a reversed polygon comes from. -/
def unreverse (k : Fin polygon.reverse.length) : Fin polygon.length :=
  ⟨polygon.length - 1 - k, by
    have hk := lt_of_reverse k
    omega⟩

theorem get_reverse (k : Fin polygon.reverse.length) :
    polygon.reverse.get k = polygon.get (unreverse k) := getElem_reverse _

theorem unreverse_injective : Function.Injective (@unreverse polygon) := by
  intro k k' h
  have hval : polygon.length - 1 - k = polygon.length - 1 - k' := congrArg Fin.val h
  have hk := lt_of_reverse k
  have hk' := lt_of_reverse k'
  exact Fin.ext (by omega)

theorem next_unreverse (k : Fin polygon.reverse.length) :
    nextIndex (unreverse (nextIndex k)) = unreverse k := by
  refine Fin.ext ?_
  have hk := lt_of_reverse k
  rw [val_nextIndex]
  simp only [unreverse, val_nextIndex, length_reverse]
  split_ifs <;> omega

theorem LegalPolygon.rotate (h : LegalPolygon polygon) : LegalPolygon (polygon.rotate n) := by
  refine ⟨rectilinear_iff.2 fun k => ?_, ?_, by rw [area2_rotate]; exact h.area⟩
  · rw [get_rotate, get_rotate, unrotate_next]
    exact rectilinear_iff.1 h.rectilinear _
  · have hvertex : planeVertex (polygon.rotate n) = fun k => planeVertex polygon (unrotate n k) :=
      funext fun k => congrArg toPlane (get_rotate k)
    rw [SimplePolygon, hvertex]
    exact h.simple.renumber unrotate_injective unrotate_next

theorem alongAxis_swap (a b : Point) : alongAxis a b = alongAxis b a := by
  rw [Bool.eq_iff_iff, alongAxis, alongAxis]
  simp only [Bool.or_eq_true, decide_eq_true_eq]
  rw [eq_comm, @eq_comm ℤ a.y]

theorem LegalPolygon.reverse (h : LegalPolygon polygon) : LegalPolygon polygon.reverse := by
  refine ⟨rectilinear_iff.2 fun k => ?_, ?_, by rw [area2_reverse]; exact neg_ne_zero.2 h.area⟩
  · rw [get_reverse, get_reverse, alongAxis_swap]
    have hedge := rectilinear_iff.1 h.rectilinear (unreverse (nextIndex k))
    rwa [next_unreverse] at hedge
  · have hvertex : planeVertex polygon.reverse = fun k => planeVertex polygon (unreverse k) :=
      funext fun k => congrArg toPlane (get_reverse k)
    rw [SimplePolygon, hvertex]
    exact h.simple.backwards unreverse_injective next_unreverse

theorem legalPolygon_isRotated (h : polygon ~r polygon') :
    LegalPolygon polygon ↔ LegalPolygon polygon' := by
  constructor
  · intro hlegal
    obtain ⟨n, rfl⟩ := h
    exact hlegal.rotate
  · intro hlegal
    obtain ⟨n, rfl⟩ := h.symm
    exact hlegal.rotate

theorem legalPolygon_reverse : LegalPolygon polygon.reverse ↔ LegalPolygon polygon :=
  ⟨fun h => by simpa using h.reverse, fun h => h.reverse⟩

/-- **The canonical form of a polygon** is legal when the polygon is, without a closing
vertex. -/
theorem legalPolygon_canonicalPolygon :
    LegalPolygon (canonicalPolygon polygon) ↔ LegalPolygon (dropClosing polygon) := by
  rcases Nat.lt_or_ge (dropClosing polygon).length 3 with hshort | hlong
  · rw [canonicalPolygon_of_lt hshort]
  · rw [canonicalPolygon_of_le hlong]
    rw [← legalPolygon_isRotated (Necklace.isRotated_least _), orient]
    split_ifs
    · exact legalPolygon_reverse
    · rfl

end Numbering

/-! ## Edges along the axes -/

section Axes

variable {a b c d : Point}

/-- An edge along an axis is its box. -/
theorem mem_segment_alongAxis (h : alongAxis a b = true) {x : ℝ × ℝ} :
    x ∈ segment ℝ (toPlane a) (toPlane b) ↔
      (((min a.x b.x : ℤ) : ℝ) ≤ x.1 ∧ x.1 ≤ ((max a.x b.x : ℤ) : ℝ)) ∧
        ((min a.y b.y : ℤ) : ℝ) ≤ x.2 ∧ x.2 ≤ ((max a.y b.y : ℤ) : ℝ) := by
  rw [mem_segment_iff_box, InBox]
  push_cast
  refine ⟨fun hx => hx.2, fun hx => ⟨?_, hx⟩⟩
  rw [alongAxis, Bool.or_eq_true, decide_eq_true_eq, decide_eq_true_eq] at h
  rcases h with h | h
  · have hvertical : x.1 = a.x := by
      have hbox := hx.1
      rw [h, min_self, max_self] at hbox
      rw [h]
      exact le_antisymm hbox.2 hbox.1
    simp [det, toPlane, h, hvertical]
  · have hhorizontal : x.2 = a.y := by
      have hbox := hx.2
      rw [h, min_self, max_self] at hbox
      rw [h]
      exact le_antisymm hbox.2 hbox.1
    simp [det, toPlane, h, hhorizontal]

/-- **Two edges along the axes meet** exactly when their boxes touch. -/
theorem edgesTouch_iff (hab : alongAxis a b = true) (hcd : alongAxis c d = true) :
    edgesTouch a b c d = true ↔ ∃ x ∈ segment ℝ (toPlane a) (toPlane b),
      x ∈ segment ℝ (toPlane c) (toPlane d) := by
  simp only [mem_segment_alongAxis hab, mem_segment_alongAxis hcd, edgesTouch, Bool.and_eq_true,
    decide_eq_true_eq]
  constructor
  · rintro ⟨⟨hx, hx'⟩, hy, hy'⟩
    refine ⟨((max (min a.x b.x) (min c.x d.x) : ℤ), (max (min a.y b.y) (min c.y d.y) : ℤ)), ?_, ?_⟩
    · simp only [Int.cast_le]
      omega
    · simp only [Int.cast_le]
      omega
  · rintro ⟨x, ⟨⟨h1, h2⟩, h3, h4⟩, ⟨h5, h6⟩, h7, h8⟩
    refine ⟨⟨?_, ?_⟩, ?_, ?_⟩
    · exact Int.cast_le.1 (h1.trans h6)
    · exact Int.cast_le.1 (h5.trans h2)
    · exact Int.cast_le.1 (h3.trans h8)
    · exact Int.cast_le.1 (h7.trans h4)

end Axes

/-! ## The displaced polygon -/

section Displacement

variable {polygon : List Point} {index : ℕ} {dx dy : ℤ}

theorem length_displaceEdge : (displaceEdge polygon index dx dy).length = polygon.length := by
  simp [displaceEdge]

theorem next_ne (hindex : index < polygon.length) (htwo : 2 ≤ polygon.length) :
    (index + 1) % polygon.length ≠ index := by
  intro heq
  rcases Nat.lt_or_ge (index + 1) polygon.length with hlt | hge
  · rw [Nat.mod_eq_of_lt hlt] at heq
    omega
  · have hlast : index + 1 = polygon.length := by omega
    rw [hlast, Nat.mod_self] at heq
    omega

theorem getElem?_displaceEdge (hindex : index < polygon.length) (htwo : 2 ≤ polygon.length)
    (i : ℕ) : (displaceEdge polygon index dx dy)[i]? =
      polygon[i]?.map fun p => if Displaced polygon index i then shift dx dy p else p := by
  have hne := next_ne hindex htwo
  simp only [displaceEdge, foldl_cons, foldl_nil, getElem?_modify, Option.map_eq_map,
    Option.map_map]
  refine congrArg (fun f => Option.map f polygon[i]?) (funext fun p => ?_)
  rw [Function.comp_apply]
  by_cases hnext : (index + 1) % polygon.length = i
  · have hdisplaced : Displaced polygon index i := .inr hnext.symm
    rw [if_pos hnext, if_pos hdisplaced,
      if_neg fun hfirst : index = i => hne (hnext.trans hfirst.symm)]
  · rw [if_neg hnext]
    by_cases hfirst : index = i
    · have hdisplaced : Displaced polygon index i := .inl hfirst.symm
      rw [if_pos hfirst, if_pos hdisplaced]
    · have hdisplaced : ¬ Displaced polygon index i :=
        not_or.2 ⟨Ne.symm hfirst, Ne.symm hnext⟩
      rw [if_neg hfirst, if_neg hdisplaced]

/-- The vertices after the displacement. -/
theorem pointAt_displaceEdge (hindex : index < polygon.length) (htwo : 2 ≤ polygon.length)
    (i : ℕ) : pointAt (displaceEdge polygon index dx dy) i = vertexAfter polygon index dx dy i := by
  have hi : i % polygon.length < polygon.length := Nat.mod_lt _ (by omega)
  rw [vertexAfter, pointAt, pointAt, length_displaceEdge, getD_eq_getElem?_getD,
    getD_eq_getElem?_getD, getElem?_displaceEdge hindex htwo, getElem?_eq_getElem hi]
  rfl

end Displacement

/-! ## The closing vertex -/

section Closing

variable {points : List Point}

/-- The closing vertex is dropped, or there is none. -/
theorem dropClosing_cases : dropClosing points = points ∨
    (dropClosing points = points.dropLast ∧ 1 < points.length ∧
      pointAt points 0 = pointAt points (points.length - 1)) := by
  rw [dropClosing]
  split_ifs with hclosing
  · refine .inr ⟨rfl, hclosing.1, ?_⟩
    have hends := hclosing.2
    rw [head?_eq_getElem?, getLast?_eq_getElem?] at hends
    rw [pointAt, pointAt, Nat.mod_eq_of_lt (by omega), Nat.mod_eq_of_lt (by omega),
      getD_eq_getElem?_getD, getD_eq_getElem?_getD, hends]
  · exact .inl rfl

/-- The vertices without the closing one, and those that follow them. -/
theorem get_dropClosing (i : Fin (dropClosing points).length) :
    (i : ℕ) < points.length ∧ (dropClosing points).get i = pointAt points i ∧
      (dropClosing points).get (nextIndex i) = pointAt points (i + 1) := by
  have hget : ∀ (ring : List Point) (k : Fin ring.length),
      (ring = points ∨ (ring = points.dropLast ∧ 1 < points.length ∧
        pointAt points 0 = pointAt points (points.length - 1))) →
      (k : ℕ) < points.length ∧ ring.get k = pointAt points k ∧
        ring.get (nextIndex k) = pointAt points (k + 1) := by
    rintro ring k (heq | ⟨rfl, hlength, hclosing⟩)
    · subst heq
      exact ⟨k.isLt, (pointAt_val k).symm, (pointAt_next k).symm⟩
    · have hdrop : points.dropLast.length = points.length - 1 := length_dropLast
      have hvertex : ∀ m : Fin points.dropLast.length,
          points.dropLast.get m = pointAt points m := by
        intro m
        have hm := m.isLt.trans_eq hdrop
        rw [pointAt, Nat.mod_eq_of_lt (by omega), getD_eq_getElem?_getD,
          getElem?_eq_getElem (by omega), Option.getD_some]
        exact getElem_dropLast _
      have hk := k.isLt.trans_eq hdrop
      refine ⟨by omega, hvertex k, ?_⟩
      rw [hvertex, val_nextIndex]
      split_ifs with hlast
      · rw [hclosing, ← hdrop, hlast]
      · rfl
  exact hget _ i dropClosing_cases

/-- How many vertices there are without a closing one. -/
theorem length_dropClosing (hlength : 1 < points.length) : (dropClosing points).length =
    if pointAt points 0 = pointAt points (points.length - 1) then points.length - 1
    else points.length := by
  have hends : points.head? = points.getLast? ↔
      pointAt points 0 = pointAt points (points.length - 1) := by
    rw [head?_eq_getElem?, getLast?_eq_getElem?, pointAt, pointAt,
      Nat.mod_eq_of_lt (by omega), Nat.mod_eq_of_lt (by omega), getD_eq_getElem?_getD,
      getD_eq_getElem?_getD, getElem?_eq_getElem (by omega),
      getElem?_eq_getElem (by omega), Option.some.injEq, Option.getD_some, Option.getD_some]
  rw [dropClosing]
  by_cases hclosing : pointAt points 0 = pointAt points (points.length - 1)
  · rw [if_pos ⟨hlength, hends.2 hclosing⟩, if_pos hclosing, length_dropLast]
  · rw [if_neg fun h => hclosing (hends.1 h.2), if_neg hclosing]

/-- The doubled area, vertex by vertex. -/
theorem area2_eq_sum : area2 points =
    ∑ i ∈ Finset.range points.length, cross (pointAt points i) (pointAt points (i + 1)) := by
  have hlist : zipWith cross points (points.rotate 1) =
      (range points.length).map fun i => cross (pointAt points i) (pointAt points (i + 1)) := by
    refine ext_getElem (by simp) fun i hi hi' => ?_
    rw [getElem_zipWith, getElem_map, getElem_range, getElem_rotate]
    rw [length_zipWith, length_rotate, min_self] at hi
    have hnext := pointAt_next ⟨i, hi⟩
    have hval := pointAt_val ⟨i, hi⟩
    rw [hnext, hval]
    rfl
  rw [area2, hlist]
  rfl

end Closing

/-! ## The swept area -/

section Area

variable {polygon : List Point} {index : ℕ} {dx dy : ℤ}

theorem pointAt_mod (i : ℕ) : pointAt polygon (i % polygon.length) = pointAt polygon i := by
  rw [pointAt, pointAt, Nat.mod_mod]

theorem pointAt_congr {i j : ℕ} (h : i % polygon.length = j % polygon.length) :
    pointAt polygon i = pointAt polygon j := by
  rw [pointAt, pointAt, h]

/-- An index at most once around the polygon. -/
theorem mod_of_lt_double {a n : ℕ} (h : a < 2 * n) : a % n = if a < n then a else a - n := by
  split_ifs with hlt
  · exact Nat.mod_eq_of_lt hlt
  · rw [Nat.mod_eq_sub_mod (by omega), Nat.mod_eq_of_lt (by omega)]

/-- The edges of a rectilinear polygon, by the vertices that follow one another. -/
theorem alongAxis_pointAt (h : rectilinear polygon = true) (hpos : 0 < polygon.length) (i : ℕ) :
    alongAxis (pointAt polygon i) (pointAt polygon (i + 1)) = true := by
  have hedge := rectilinear_iff.1 h ⟨i % polygon.length, Nat.mod_lt _ hpos⟩
  rw [← pointAt_val, ← pointAt_next, pointAt_mod] at hedge
  rwa [pointAt_congr (i := i % polygon.length + 1) (j := i + 1) (Nat.mod_add_mod _ _ _)] at hedge

/-- 1 at a displaced vertex, 0 at any other. -/
def weight (polygon : List Point) (index i : ℕ) : ℤ :=
  if Displaced polygon index (i % polygon.length) then 1 else 0

/-- What a displaced vertex adds to the area of the edge to a neighbour. -/
def lever (dx dy : ℤ) (p : Point) : ℤ := dx * p.y - dy * p.x

theorem cross_vertexAfter (i : ℕ) :
    cross (vertexAfter polygon index dx dy i) (vertexAfter polygon index dx dy (i + 1)) =
      cross (pointAt polygon i) (pointAt polygon (i + 1)) +
        (weight polygon index i * lever dx dy (pointAt polygon (i + 1)) -
          weight polygon index (i + 1) * lever dx dy (pointAt polygon i)) := by
  have hafter : ∀ j, vertexAfter polygon index dx dy j =
      shift (weight polygon index j * dx) (weight polygon index j * dy) (pointAt polygon j) := by
    intro j
    rw [vertexAfter, weight]
    split_ifs
    · rw [one_mul, one_mul]
    · simp [shift]
  rw [hafter, hafter, cross, cross, lever, lever, shift, shift]
  ring

/-- A sum around the polygon may start at the next vertex. -/
theorem sum_succ_of_periodic {f : ℕ → ℤ} {n : ℕ} (h : f n = f 0) :
    ∑ i ∈ Finset.range n, f (i + 1) = ∑ i ∈ Finset.range n, f i := by
  have hfirst := Finset.sum_range_succ' f n
  rw [Finset.sum_range_succ, h] at hfirst
  exact (add_right_cancel hfirst).symm

/-- Two vertices are displaced. -/
theorem sum_weight (hindex : index < polygon.length) (htwo : 2 ≤ polygon.length) (f : ℕ → ℤ) :
    ∑ i ∈ Finset.range polygon.length, weight polygon index i * f i =
      f index + f ((index + 1) % polygon.length) := by
  have hne := next_ne hindex htwo
  have hterm : ∀ i ∈ Finset.range polygon.length, weight polygon index i * f i =
      (if i = index then f i else 0) + if i = (index + 1) % polygon.length then f i else 0 := by
    intro i hi
    rw [weight, Nat.mod_eq_of_lt (Finset.mem_range.1 hi)]
    by_cases hfirst : i = index
    · have hsecond : i ≠ (index + 1) % polygon.length := fun h => hne (h.symm.trans hfirst)
      rw [if_pos (.inl hfirst), if_pos hfirst, if_neg hsecond, one_mul, add_zero]
    · by_cases hsecond : i = (index + 1) % polygon.length
      · rw [if_pos (.inr hsecond), if_neg hfirst, if_pos hsecond, one_mul, zero_add]
      · have hundisplaced : ¬ Displaced polygon index i := not_or.2 ⟨hfirst, hsecond⟩
        rw [if_neg hundisplaced, if_neg hfirst, if_neg hsecond, zero_mul, add_zero]
  rw [Finset.sum_congr rfl hterm, Finset.sum_add_distrib, Finset.sum_ite_eq', Finset.sum_ite_eq',
    if_pos (Finset.mem_range.2 hindex), if_pos (Finset.mem_range.2 (Nat.mod_lt _ (by omega)))]

/-- The area after the displacement, by the neighbours of the displaced vertices. -/
theorem area2_displaceEdge_eq (hindex : index < polygon.length) (htwo : 2 ≤ polygon.length) :
    area2 (displaceEdge polygon index dx dy) = area2 polygon +
      ((lever dx dy (pointAt polygon (index + 1)) + lever dx dy (pointAt polygon (index + 2))) -
        (lever dx dy (pointAt polygon (index + (polygon.length - 1))) +
          lever dx dy (pointAt polygon index))) := by
  have hforward : ∑ i ∈ Finset.range polygon.length,
      weight polygon index i * lever dx dy (pointAt polygon (i + 1)) =
        lever dx dy (pointAt polygon (index + 1)) + lever dx dy (pointAt polygon (index + 2)) := by
    rw [sum_weight hindex htwo fun i => lever dx dy (pointAt polygon (i + 1)),
      pointAt_congr (i := (index + 1) % polygon.length + 1) (Nat.mod_add_mod _ _ _)]
  have hbackward : ∑ i ∈ Finset.range polygon.length,
      weight polygon index (i + 1) * lever dx dy (pointAt polygon i) =
        lever dx dy (pointAt polygon (index + (polygon.length - 1))) +
          lever dx dy (pointAt polygon index) := by
    have hshift : ∀ i ∈ Finset.range polygon.length,
        weight polygon index (i + 1) * lever dx dy (pointAt polygon i) =
          weight polygon index (i + 1) *
            lever dx dy (pointAt polygon (i + 1 + (polygon.length - 1))) := by
      intro i _
      rw [pointAt_congr (i := i) (j := i + 1 + (polygon.length - 1))]
      rw [show i + 1 + (polygon.length - 1) = i + polygon.length by omega, Nat.add_mod_right]
    rw [Finset.sum_congr rfl hshift, sum_succ_of_periodic
      (f := fun i => weight polygon index i *
        lever dx dy (pointAt polygon (i + (polygon.length - 1))))]
    · rw [sum_weight hindex htwo fun i => lever dx dy (pointAt polygon (i + (polygon.length - 1))),
        pointAt_congr (i := (index + 1) % polygon.length + (polygon.length - 1)) (j := index)]
      rw [Nat.mod_add_mod, show index + 1 + (polygon.length - 1) = index + polygon.length by omega,
        Nat.add_mod_right]
    · rw [weight, weight, Nat.mod_self, Nat.zero_mod, pointAt_congr (Nat.add_mod_left _ _),
        zero_add]
  rw [area2_eq_sum, area2_eq_sum, length_displaceEdge, ← hforward, ← hbackward,
    ← Finset.sum_sub_distrib, ← Finset.sum_add_distrib]
  refine Finset.sum_congr rfl fun i _ => ?_
  rw [pointAt_displaceEdge hindex htwo, pointAt_displaceEdge hindex htwo, cross_vertexAfter]

/-- An edge that stays along an axis is stretched along it. -/
theorem lever_of_stretched {a b : Point} (hd : dx = 0 ∨ dy = 0) (h : alongAxis a b = true)
    (h' : alongAxis a (shift dx dy b) = true) : lever dx dy a = lever dx dy b := by
  rw [alongAxis, Bool.or_eq_true, decide_eq_true_eq, decide_eq_true_eq] at h h'
  have hstretched : a.x = b.x + dx ∨ a.y = b.y + dy := h'
  rw [lever, lever]
  rcases hd with rfl | rfl
  · by_cases hx : a.x = b.x
    · rw [hx, zero_mul, zero_mul]
    · have hzero : dy = 0 := by omega
      rw [hzero, zero_mul, zero_mul, zero_mul, zero_mul]
  · by_cases hy : a.y = b.y
    · rw [hy, zero_mul, zero_mul]
    · have hzero : dx = 0 := by omega
      rw [hzero, zero_mul, zero_mul, zero_mul, zero_mul]

/-- The area after the displacement of an edge to its side. -/
theorem area2_displaceEdge (hindex : index < polygon.length) (hthree : 3 ≤ polygon.length)
    (hd : dx = 0 ∨ dy = 0) (h : rectilinear polygon = true)
    (h' : rectilinear (displaceEdge polygon index dx dy) = true) :
    area2 (displaceEdge polygon index dx dy) = area2 polygon + sweptArea2 polygon index dx dy := by
  have htwo : 2 ≤ polygon.length := by omega
  have hafter : ∀ i, alongAxis (vertexAfter polygon index dx dy i)
      (vertexAfter polygon index dx dy (i + 1)) = true := by
    intro i
    have hedge := alongAxis_pointAt h' (by rw [length_displaceEdge]; omega) i
    rwa [pointAt_displaceEdge hindex htwo, pointAt_displaceEdge hindex htwo] at hedge
  -- the neighbours of the edge stay where they are
  have hfirst : vertexAfter polygon index dx dy index = shift dx dy (pointAt polygon index) := by
    rw [vertexAfter, if_pos (.inl (Nat.mod_eq_of_lt hindex))]
  have hsecond : vertexAfter polygon index dx dy (index + 1) =
      shift dx dy (pointAt polygon (index + 1)) := by
    rw [vertexAfter, if_pos (.inr rfl)]
  have hnext : vertexAfter polygon index dx dy (index + 2) = pointAt polygon (index + 2) := by
    rw [vertexAfter, if_neg]
    rw [Displaced, mod_of_lt_double (by omega), mod_of_lt_double (by omega)]
    split_ifs <;> omega
  have hbefore : vertexAfter polygon index dx dy (index + (polygon.length - 1)) =
      pointAt polygon (index + (polygon.length - 1)) := by
    rw [vertexAfter, if_neg]
    rw [Displaced, mod_of_lt_double (by omega), mod_of_lt_double (by omega)]
    split_ifs <;> omega
  have hwrap : index + (polygon.length - 1) + 1 = index + polygon.length := by omega
  have hback : pointAt polygon (index + (polygon.length - 1) + 1) = pointAt polygon index := by
    rw [hwrap, pointAt_congr (Nat.add_mod_right _ _)]
  have hback' : vertexAfter polygon index dx dy (index + (polygon.length - 1) + 1) =
      shift dx dy (pointAt polygon index) := by
    rw [vertexAfter, hback, hwrap, Nat.add_mod_right, if_pos (.inl (Nat.mod_eq_of_lt hindex))]
  have hleft : lever dx dy (pointAt polygon (index + (polygon.length - 1))) =
      lever dx dy (pointAt polygon index) := by
    have hedge := alongAxis_pointAt h (by omega) (index + (polygon.length - 1))
    have hedge' := hafter (index + (polygon.length - 1))
    rw [hback] at hedge
    rw [hbefore, hback'] at hedge'
    exact lever_of_stretched hd hedge hedge'
  have hright : lever dx dy (pointAt polygon (index + 2)) =
      lever dx dy (pointAt polygon (index + 1)) := by
    have hedge := alongAxis_pointAt h (by omega) (index + 1)
    have hedge' := hafter (index + 1)
    rw [alongAxis_swap] at hedge hedge'
    rw [hnext, hsecond] at hedge'
    exact lever_of_stretched hd hedge hedge'
  rw [area2_displaceEdge_eq hindex htwo, hleft, hright, sweptArea2, lever, lever]
  ring

end Area

/-! ## Simple polygons along the axes -/

section Touching

variable {points : List Point} {m : ℕ} {vertex : ℕ → Point}

/-- The vertices of a polygon may be given by their indices. -/
theorem simplePolygon_iff_vertex (hlength : points.length = m)
    (hvertex : ∀ i : Fin points.length, points.get i = vertex i) :
    SimplePolygon points ↔ Simple (fun i : Fin m => toPlane (vertex i)) nextIndex := by
  subst hlength
  have hplane : planeVertex points = fun i : Fin points.length => toPlane (vertex i) :=
    funext fun i => congrArg toPlane (hvertex i)
  rw [SimplePolygon, hplane]

/-- **A rectilinear polygon of four vertices or more is simple** exactly when its vertices
differ and no two edges touch that are not consecutive. -/
theorem simple_iff_touch (hm : 4 ≤ m) (hnext : ∀ i : Fin m, vertex (nextIndex i) = vertex (i + 1))
    (haxis : ∀ i : Fin m, alongAxis (vertex i) (vertex (i + 1)) = true) :
    Simple (fun i : Fin m => toPlane (vertex i)) nextIndex ↔
      (∀ i j : Fin m, i ≠ j → vertex i ≠ vertex j) ∧
        ∀ i j : Fin m, i ≠ j → j ≠ nextIndex i → i ≠ nextIndex j →
          edgesTouch (vertex i) (vertex (i + 1)) (vertex j) (vertex (j + 1)) = false := by
  have hdisjoint : ∀ i j : Fin m,
      (∀ x ∈ edge (fun i : Fin m => toPlane (vertex i)) nextIndex i,
        x ∉ edge (fun i : Fin m => toPlane (vertex i)) nextIndex j) ↔
          edgesTouch (vertex i) (vertex (i + 1)) (vertex j) (vertex (j + 1)) = false := by
    intro i j
    rw [← Bool.not_eq_true, edgesTouch_iff (haxis i) (haxis j), edge, edge, hnext, hnext]
    push Not
    rfl
  rw [simple_iff_of_four (fourOrMore_nextIndex hm)]
  refine and_congr ⟨fun h i j hij heq => hij (h (congrArg toPlane heq)), fun h i j heq => ?_⟩ ?_
  · by_contra hij
    exact h i j hij (toPlane_injective heq)
  · constructor
    · exact fun h i j hij hj hi => (hdisjoint i j).1 (h i j hij hj hi)
    · exact fun h i j hij hj hi => (hdisjoint i j).2 (h i j hij hj hi)

/-- A rectilinear polygon of three vertices or fewer has no area. -/
theorem area2_of_short (hrectilinear : rectilinear points = true) (hshort : points.length ≤ 3) :
    area2 points = 0 := by
  rcases Nat.lt_or_ge points.length 3 with hlt | hge
  · exact area2_of_length_lt hlt
  · obtain ⟨a, b, c, rfl⟩ := length_eq_three.1 (le_antisymm hshort hge)
    have hedges : (a.x = b.x ∨ a.y = b.y) ∧ (b.x = c.x ∨ b.y = c.y) ∧ (c.x = a.x ∨ c.y = a.y) := by
      simpa [rectilinear, alongAxis] using hrectilinear
    have hleft : b.x - a.x = 0 ∨ c.y - a.y = 0 := by omega
    have hright : c.x - a.x = 0 ∨ b.y - a.y = 0 := by omega
    rw [area2_triangle, cross, cross, cross]
    linear_combination mul_eq_zero.2 hleft - mul_eq_zero.2 hright

/-- The vertices of a polygon, where it is given by them. -/
theorem simplePolygon_iff_touch (hfour : 4 ≤ points.length) (h : rectilinear points = true) :
    SimplePolygon points ↔
      (∀ i j : Fin points.length, i ≠ j → pointAt points i ≠ pointAt points j) ∧
        ∀ i j : Fin points.length, i ≠ j → j ≠ nextIndex i → i ≠ nextIndex j →
          edgesTouch (pointAt points i) (pointAt points (i + 1)) (pointAt points j)
            (pointAt points (j + 1)) = false := by
  rw [simplePolygon_iff_vertex rfl fun i => (pointAt_val i).symm]
  refine simple_iff_touch hfour (fun i => ?_) fun i => alongAxis_pointAt h (by omega) i
  rw [pointAt_next, pointAt_val]

end Touching

/-! ## When the displaced polygon is legal -/

section Legal

variable {polygon : List Point} {index : ℕ} {dx dy : ℤ}

theorem sizeAfter_le : sizeAfter polygon index dx dy ≤ polygon.length := by
  rw [sizeAfter]
  split_ifs
  · exact Nat.sub_le _ _
  · exact le_rfl

theorem vertexAfter_mod (i : ℕ) :
    vertexAfter polygon index dx dy (i % polygon.length) = vertexAfter polygon index dx dy i := by
  rw [vertexAfter, vertexAfter, Nat.mod_mod, pointAt_mod]

/-- The edge from the last vertex that counts ends in the first. -/
theorem vertexAfter_next (i : Fin (sizeAfter polygon index dx dy)) :
    vertexAfter polygon index dx dy (nextIndex i) = vertexAfter polygon index dx dy (i + 1) := by
  rw [val_nextIndex]
  by_cases hlast : (i : ℕ) + 1 = sizeAfter polygon index dx dy
  · rw [if_pos hlast, hlast, sizeAfter]
    split_ifs with hclosing
    · exact hclosing
    · rw [← vertexAfter_mod polygon.length, Nat.mod_self]
  · rw [if_neg hlast]

theorem length_ring (hindex : index < polygon.length) (htwo : 2 ≤ polygon.length) :
    (dropClosing (displaceEdge polygon index dx dy)).length = sizeAfter polygon index dx dy := by
  rw [length_dropClosing (by rw [length_displaceEdge]; omega), pointAt_displaceEdge hindex htwo,
    pointAt_displaceEdge hindex htwo, length_displaceEdge, sizeAfter]

theorem get_ring (hindex : index < polygon.length) (htwo : 2 ≤ polygon.length)
    (i : Fin (dropClosing (displaceEdge polygon index dx dy)).length) :
    (dropClosing (displaceEdge polygon index dx dy)).get i =
      vertexAfter polygon index dx dy i := by
  rw [(get_dropClosing i).2.1, pointAt_displaceEdge hindex htwo]

/-- The vertices of the displaced polygon form a rectilinear one. -/
theorem rectilinear_ring (h : rectilinear (displaceEdge polygon index dx dy) = true) :
    rectilinear (dropClosing (displaceEdge polygon index dx dy)) = true := by
  refine rectilinear_iff.2 fun i => ?_
  obtain ⟨hi, hget, hnext⟩ := get_dropClosing i
  rw [hget, hnext]
  exact alongAxis_pointAt h (by omega) i

/-- An edge whose ends are not displaced is where it was. -/
theorem unmoved_edge (hdiffer : ∀ i j : Fin polygon.length, i ≠ j →
      pointAt polygon i ≠ pointAt polygon j)
    (hindex : index < polygon.length) (htwo : 2 ≤ polygon.length)
    (i : Fin (sizeAfter polygon index dx dy)) (h : ¬ Displaced polygon index i)
    (h' : ¬ Displaced polygon index (nextIndex i)) :
    vertexAfter polygon index dx dy i = pointAt polygon i ∧
      vertexAfter polygon index dx dy (i + 1) = pointAt polygon (i + 1) ∧
        nextIndex (i.castLE sizeAfter_le) = (nextIndex i).castLE sizeAfter_le := by
  have hi : (i : ℕ) < polygon.length := i.isLt.trans_le sizeAfter_le
  have hfirst : vertexAfter polygon index dx dy i = pointAt polygon i := by
    rw [vertexAfter, Nat.mod_eq_of_lt hi, if_neg h]
  have hunmoved : (nextIndex i : ℕ) = ((i : ℕ) + 1) % polygon.length →
      vertexAfter polygon index dx dy (i + 1) = pointAt polygon (i + 1) ∧
        nextIndex (i.castLE sizeAfter_le) = (nextIndex i).castLE sizeAfter_le := by
    intro hnext
    refine ⟨?_, Fin.ext hnext.symm⟩
    rw [hnext] at h'
    rw [vertexAfter, if_neg h']
  refine ⟨hfirst, hunmoved ?_⟩
  rw [val_nextIndex] at h' ⊢
  split_ifs at h' ⊢ with hlast
  · by_cases hclosing : vertexAfter polygon index dx dy 0 =
        vertexAfter polygon index dx dy (polygon.length - 1)
    · -- the last vertex came to lie on the first, so it was displaced and the edge with it
      exfalso
      have hsize : sizeAfter polygon index dx dy = polygon.length - 1 := if_pos hclosing
      have hzero : vertexAfter polygon index dx dy 0 = pointAt polygon 0 := by
        rw [vertexAfter, Nat.zero_mod, if_neg h']
      have hlastVertex : Displaced polygon index (polygon.length - 1) := by
        by_contra hundisplaced
        rw [hzero, vertexAfter, Nat.mod_eq_of_lt (by omega), if_neg hundisplaced] at hclosing
        refine hdiffer ⟨0, by omega⟩ ⟨polygon.length - 1, by omega⟩ ?_ hclosing
        rw [Ne, Fin.mk.injEq]
        omega
      rw [Displaced, mod_of_lt_double (by omega)] at h h' hlastVertex
      split_ifs at h h' hlastVertex <;> omega
    · have hsize : sizeAfter polygon index dx dy = polygon.length := if_neg hclosing
      rw [hlast, hsize, Nat.mod_self]
  · have hbound := @sizeAfter_le polygon index dx dy
    exact (Nat.mod_eq_of_lt (by omega)).symm

/-- Vertices that differed differ after the displacement where the displaced ones do. -/
theorem vertices_differ (hdiffer : ∀ i j : Fin polygon.length, i ≠ j →
      pointAt polygon i ≠ pointAt polygon j)
    (h : ∀ i j : Fin (sizeAfter polygon index dx dy), Displaced polygon index i → i ≠ j →
      vertexAfter polygon index dx dy i ≠ vertexAfter polygon index dx dy j)
    (i j : Fin (sizeAfter polygon index dx dy)) (hij : i ≠ j) :
    vertexAfter polygon index dx dy i ≠ vertexAfter polygon index dx dy j := by
  by_cases hi : Displaced polygon index i
  · exact h i j hi hij
  · by_cases hj : Displaced polygon index j
    · exact (h j i hj hij.symm).symm
    · have hunmoved : ∀ k : Fin (sizeAfter polygon index dx dy), ¬ Displaced polygon index k →
          vertexAfter polygon index dx dy k = pointAt polygon k := by
        intro k hk
        rw [vertexAfter, Nat.mod_eq_of_lt (k.isLt.trans_le sizeAfter_le), if_neg hk]
      rw [hunmoved i hi, hunmoved j hj]
      exact hdiffer (i.castLE sizeAfter_le) (j.castLE sizeAfter_le)
        fun heq => hij (Fin.castLE_injective sizeAfter_le heq)

theorem edgesTouch_comm (a b c d : Point) : edgesTouch a b c d = edgesTouch c d a b := by
  rw [edgesTouch, edgesTouch, Bool.and_comm (decide (min a.x b.x ≤ _)),
    Bool.and_comm (decide (min a.y b.y ≤ _))]

/-- Edges that did not touch do not touch after the displacement where the displaced ones do
not. -/
theorem edges_apart (hdiffer : ∀ i j : Fin polygon.length, i ≠ j →
      pointAt polygon i ≠ pointAt polygon j)
    (hapart : ∀ i j : Fin polygon.length, i ≠ j → j ≠ nextIndex i → i ≠ nextIndex j →
      edgesTouch (pointAt polygon i) (pointAt polygon (i + 1)) (pointAt polygon j)
        (pointAt polygon (j + 1)) = false)
    (hindex : index < polygon.length) (htwo : 2 ≤ polygon.length)
    (h : ∀ i j : Fin (sizeAfter polygon index dx dy),
      Displaced polygon index i ∨ Displaced polygon index (nextIndex i) →
        i ≠ j → j ≠ nextIndex i → i ≠ nextIndex j → touchAfter polygon index dx dy i j = false)
    (i j : Fin (sizeAfter polygon index dx dy)) (hij : i ≠ j) (hj : j ≠ nextIndex i)
    (hi : i ≠ nextIndex j) : touchAfter polygon index dx dy i j = false := by
  by_cases hmoved : Displaced polygon index i ∨ Displaced polygon index (nextIndex i)
  · exact h i j hmoved hij hj hi
  · by_cases hmoved' : Displaced polygon index j ∨ Displaced polygon index (nextIndex j)
    · rw [touchAfter, edgesTouch_comm]
      exact h j i hmoved' hij.symm hi hj
    · rw [not_or] at hmoved hmoved'
      obtain ⟨hstart, hstop, hnext⟩ := unmoved_edge hdiffer hindex htwo i hmoved.1 hmoved.2
      obtain ⟨hstart', hstop', hnext'⟩ := unmoved_edge hdiffer hindex htwo j hmoved'.1 hmoved'.2
      have hinjective := Fin.castLE_injective (@sizeAfter_le polygon index dx dy)
      rw [touchAfter, hstart, hstop, hstart', hstop']
      refine hapart (i.castLE sizeAfter_le) (j.castLE sizeAfter_le) (hinjective.ne hij) ?_ ?_
      · rw [hnext]
        exact hinjective.ne hj
      · rw [hnext']
        exact hinjective.ne hi

/-- The displaced polygon, closing vertex apart, is legal exactly when the displacement is
clear. -/
theorem legal_ring_iff (hindex : index < polygon.length) (hthree : 3 ≤ polygon.length)
    (hd : dx = 0 ∨ dy = 0) (hrectilinear : rectilinear polygon = true)
    (hsimple : SimplePolygon polygon)
    (hdisplaced : rectilinear (displaceEdge polygon index dx dy) = true) :
    LegalPolygon (dropClosing (displaceEdge polygon index dx dy)) ↔
      DisplacementClear polygon index dx dy := by
  have htwo : 2 ≤ polygon.length := by omega
  have harea : area2 (dropClosing (displaceEdge polygon index dx dy)) =
      area2 polygon + sweptArea2 polygon index dx dy := by
    rw [area2_dropClosing, area2_displaceEdge hindex hthree hd hrectilinear hdisplaced]
  have hring := rectilinear_ring hdisplaced
  rcases Nat.lt_or_ge (sizeAfter polygon index dx dy) 4 with hshort | hlong
  · -- without four vertices there is no area left
    have hzero := area2_of_short hring (by rw [length_ring hindex htwo]; omega)
    exact ⟨fun h => absurd hzero h.area, fun h => absurd (harea.symm.trans hzero) h.area⟩
  · have haxis : ∀ i : Fin (sizeAfter polygon index dx dy),
        alongAxis (vertexAfter polygon index dx dy i) (vertexAfter polygon index dx dy (i + 1)) =
          true := by
      intro i
      have hedge := alongAxis_pointAt hdisplaced (by rw [length_displaceEdge]; omega) i
      rwa [pointAt_displaceEdge hindex htwo, pointAt_displaceEdge hindex htwo] at hedge
    have hafter := simplePolygon_iff_vertex (length_ring hindex htwo)
      (@get_ring polygon index dx dy hindex htwo)
    rw [simple_iff_touch hlong vertexAfter_next haxis] at hafter
    obtain ⟨hdiffer, hapart⟩ :=
      (simplePolygon_iff_touch (hlong.trans sizeAfter_le) hrectilinear).1 hsimple
    constructor
    · intro hlegal
      obtain ⟨hvertices, hedges⟩ := hafter.1 hlegal.simple
      exact ⟨fun i j _ => hvertices i j, fun i j _ => hedges i j, harea ▸ hlegal.area⟩
    · intro hclear
      refine ⟨hring, hafter.2 ⟨?_, ?_⟩, harea ▸ hclear.area⟩
      · exact vertices_differ hdiffer hclear.vertices
      · exact edges_apart hdiffer hapart hindex htwo hclear.edges

end Legal

/-! ## The result -/

section Result

variable {polygon result : List Point} {marker : MarkerEdge} {dx dy : ℤ}

theorem containsMarker_swap (a b : Point) :
    containsMarker marker a b = containsMarker marker b a := by
  rw [Bool.eq_iff_iff, containsMarker, containsMarker]
  split_ifs
  · simp only [Bool.and_eq_true, decide_eq_true_eq]
    omega
  · simp only [Bool.and_eq_true, decide_eq_true_eq]
    omega

theorem eq_of_coordinates {p q : Point} (hx : p.x = q.x) (hy : p.y = q.y) : p = q := by
  cases p
  cases q
  exact congrArg₂ Point.mk hx hy

/-- The polygon of a marker that one edge only contains has three edges or more. -/
theorem matching_singleton {index : ℕ} (hmarker : marker.start ≠ marker.stop)
    (h : matching polygon marker = [index]) : index < polygon.length ∧ 3 ≤ polygon.length := by
  have hmem : index ∈ matching polygon marker := by
    rw [h]
    exact mem_singleton_self index
  rw [matching, mem_filter, mem_range] at hmem
  obtain ⟨hindex, hcontains⟩ := hmem
  refine ⟨hindex, ?_⟩
  by_contra hshort
  obtain hone | htwo : polygon.length = 1 ∨ polygon.length = 2 := by omega
  · -- the only edge is a point
    obtain ⟨p, rfl⟩ := length_eq_one_iff.1 hone
    have hpoint : ∀ i, pointAt [p] i = p := by
      intro i
      rw [pointAt, length_singleton, Nat.mod_one]
      rfl
    rw [hpoint, hpoint, containsMarker] at hcontains
    refine hmarker ?_
    split_ifs at hcontains with hhorizontal
    · simp only [Bool.and_eq_true, decide_eq_true_eq, min_self, max_self] at hcontains
      exact eq_of_coordinates (by omega) hhorizontal
    · simp only [Bool.and_eq_true, decide_eq_true_eq, min_self, max_self] at hcontains
      exact eq_of_coordinates (by omega) (by omega)
  · -- both edges are the same segment
    obtain ⟨a, b, rfl⟩ := length_eq_two.1 htwo
    have hboth : matching [a, b] marker = if containsMarker marker a b then [0, 1] else [] := by
      have hrange : range [a, b].length = [0, 1] := rfl
      rw [matching, hrange]
      simp only [filter_cons, filter_nil]
      have hfirst : pointAt [a, b] 0 = a := rfl
      have hsecond : pointAt [a, b] (0 + 1) = b := rfl
      have hthird : pointAt [a, b] (1 + 1) = a := by simp [pointAt]
      rw [hfirst, hsecond, hthird, containsMarker_swap b a]
      split_ifs
      · rfl
      · rfl
    rw [hboth] at h
    split_ifs at h
    exact absurd (congrArg List.length h) (by simp)

/-- What is known of an edge that is moved. -/
theorem translate_eq_some
    (h : translateContainingBoundaryEdge polygon marker dx dy = some result) :
    ∃ index, matching polygon marker = [index] ∧ index < polygon.length ∧ 3 ≤ polygon.length ∧
      (dx = 0 ∨ dy = 0) ∧ rectilinear (displaceEdge polygon index dx dy) = true ∧
        canonicalPolygon (displaceEdge polygon index dx dy) = result := by
  rw [translateContainingBoundaryEdge] at h
  split_ifs at h with hmarker hside
  split at h
  · rename_i index hmatching
    dsimp only at h
    split_ifs at h with hrectilinear
    rw [Bool.not_eq_true', Bool.not_eq_false] at hmarker hrectilinear
    have hdiffer : marker.start ≠ marker.stop := by
      intro heq
      rw [heq] at hmarker
      simp at hmarker
    obtain ⟨hindex, hthree⟩ := matching_singleton hdiffer hmatching
    refine ⟨index, hmatching, hindex, hthree, ?_, hrectilinear, Option.some.inj h⟩
    simp only [decide_eq_true_eq] at hside
    by_cases hhorizontal : marker.start.y = marker.stop.y
    · exact .inl (by omega)
    · refine .inr ?_
      rw [decide_eq_false hhorizontal, Bool.false_xor, decide_eq_true_eq] at hmarker
      omega
  · exact absurd h (by simp)

/-- **The result is a legal polygon** exactly when the displaced vertices are at no other
vertex, the edges that end in them touch no edge but those next to them and the area is not
swept away. -/
theorem displaced_legal_iff (hrectilinear : rectilinear polygon = true)
    (hsimple : SimplePolygon polygon)
    (h : translateContainingBoundaryEdge polygon marker dx dy = some result) :
    LegalPolygon result ↔ ∀ index ∈ matching polygon marker,
      DisplacementClear polygon index dx dy := by
  obtain ⟨index, hmatching, hindex, hthree, hd, hdisplaced, rfl⟩ := translate_eq_some h
  rw [legalPolygon_canonicalPolygon,
    legal_ring_iff hindex hthree hd hrectilinear hsimple hdisplaced, hmatching,
    forall_mem_singleton]

/-- The inner edge of an L is moved outwards. -/
theorem displaced_legal_iff_notch :
    LegalPolygon (canonicalPolygon [⟨0, 0⟩, ⟨8, 0⟩, ⟨8, 4⟩, ⟨6, 4⟩, ⟨6, 8⟩, ⟨0, 8⟩]) := by
  have hsimple : SimplePolygon [⟨0, 0⟩, ⟨8, 0⟩, ⟨8, 4⟩, ⟨4, 4⟩, ⟨4, 8⟩, ⟨0, 8⟩] :=
    (simplePolygon_iff_touch (by decide) (by decide +kernel)).2 (by decide +kernel)
  have hmatching : matching [⟨0, 0⟩, ⟨8, 0⟩, ⟨8, 4⟩, ⟨4, 4⟩, ⟨4, 8⟩, ⟨0, 8⟩]
      ⟨⟨4, 5⟩, ⟨4, 7⟩⟩ = [3] := by decide +kernel
  have hmoved : translateContainingBoundaryEdge
      [⟨0, 0⟩, ⟨8, 0⟩, ⟨8, 4⟩, ⟨4, 4⟩, ⟨4, 8⟩, ⟨0, 8⟩] ⟨⟨4, 5⟩, ⟨4, 7⟩⟩ 2 0 =
        some (canonicalPolygon [⟨0, 0⟩, ⟨8, 0⟩, ⟨8, 4⟩, ⟨6, 4⟩, ⟨6, 8⟩, ⟨0, 8⟩]) := by
    decide +kernel
  refine (displaced_legal_iff (by decide +kernel) hsimple hmoved).2 ?_
  rw [hmatching, forall_mem_singleton]
  exact ⟨by decide +kernel, by decide +kernel, by decide +kernel⟩

/-- The right edge of a square is moved onto its left edge. -/
theorem square_collapses : ¬ ∀ (polygon result : List Point) (marker : MarkerEdge) (dx dy : ℤ),
    rectilinear polygon = true → SimplePolygon polygon →
      translateContainingBoundaryEdge polygon marker dx dy = some result → LegalPolygon result := by
  intro h
  have hsimple : SimplePolygon [⟨0, 0⟩, ⟨4, 0⟩, ⟨4, 4⟩, ⟨0, 4⟩] :=
    (simplePolygon_iff_touch (by decide) (by decide +kernel)).2 (by decide +kernel)
  have hlegal := h _ (canonicalPolygon [⟨0, 0⟩, ⟨0, 0⟩, ⟨0, 4⟩, ⟨0, 4⟩]) ⟨⟨4, 1⟩, ⟨4, 3⟩⟩ (-4) 0
    (by decide +kernel) hsimple (by decide +kernel)
  exact hlegal.area (by decide +kernel)

end Result

end DRCAgent.EditAuthority
