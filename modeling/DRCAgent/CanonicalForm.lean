/-
# canonical_polygon is a canonical form

`canonical_polygon` of `schemas/common.py` chooses one vertex list among all that draw the
same boundary. Two vertex lists draw the same boundary when, without a repeated closing
vertex, they are the same cycle in one direction or the other. A polygon with an area has
exactly one counterclockwise direction, and the least rotation settles where to start.

Main result:
* `canonicalPolygon_canonical`: equal results exactly for the same boundary, in
  counterclockwise order, and the same again for a result
-/
import DRCAgent.Polygon
import Mathlib.Data.Finset.Card

namespace DRCAgent

open List Necklace

/-- Three different vertices and an area. -/
structure Nondegenerate (points : List Point) : Prop where
  vertices : 3 ≤ points.toFinset.card
  area : area2 points ≠ 0

instance (points : List Point) : Decidable (Nondegenerate points) :=
  decidable_of_iff (3 ≤ points.toFinset.card ∧ area2 points ≠ 0)
    ⟨fun h => ⟨h.1, h.2⟩, fun h => ⟨h.vertices, h.area⟩⟩

/-- The vertex lists draw the same boundary. -/
def SameBoundary (s s' : List Point) : Prop := SameCycle (dropClosing s) (dropClosing s')

/-! ## The closing vertex -/

theorem cross_self (a : Point) : cross a a = 0 := by
  rw [cross]
  ring

/-- One more pair at the end of two lists. -/
theorem sum_zipWith_cross_concat {s t : List Point} (h : s.length = t.length) (a b : Point) :
    (zipWith cross (s ++ [a]) (t ++ [b])).sum = (zipWith cross s t).sum + cross a b := by
  rw [zipWith_append h, sum_append]
  simp

/-- A repeated closing vertex adds nothing to the area. -/
theorem area2_concat_head (a : Point) (s : List Point) :
    area2 (a :: s ++ [a]) = area2 (a :: s) := by
  rw [area2, area2, cons_append, rotate_cons_succ, rotate_cons_succ,
    rotate_zero, rotate_zero, ← cons_append]
  rw [sum_zipWith_cross_concat (by simp), cross_self, add_zero]

/-- A closing vertex adds no area. -/
theorem area2_dropClosing (s : List Point) : area2 (dropClosing s) = area2 s := by
  rw [dropClosing]
  split_ifs with hclosed
  · obtain ⟨hlength, hends⟩ := hclosed
    obtain ⟨init, last, rfl⟩ : ∃ init last, s = init ++ [last] := by
      rcases eq_nil_or_concat' s with rfl | h
      · exact absurd hlength (by simp)
      · exact h
    rw [dropLast_concat]
    cases init with
    | nil => exact absurd hlength (by simp)
    | cons a init =>
      rw [getLast?_concat, cons_append, head?_cons] at hends
      rw [← Option.some.inj hends]
      exact (area2_concat_head a init).symm
  · rfl

theorem Nondegenerate.three_le {s : List Point} (h : Nondegenerate s) :
    3 ≤ (dropClosing s).length := by
  have hsame : (dropClosing s).toFinset = s.toFinset := by
    ext p
    rw [mem_toFinset, mem_toFinset]
    exact ⟨dropClosing_subset p, mem_of_mem_dropClosing⟩
  have hle := toFinset_card_le (dropClosing s)
  rw [hsame] at hle
  exact h.vertices.trans hle

theorem Nondegenerate.not_onePoint {s : List Point} (h : Nondegenerate s) : ¬ OnePoint s := by
  rintro ⟨-, hall⟩
  have hcard : s.toFinset.card ≤ 1 := by
    rw [Finset.card_le_one]
    intro a ha b hb
    exact hall a (mem_toFinset.1 ha) b (mem_toFinset.1 hb)
  have := h.vertices
  omega

/-! ## The direction -/

/-- A polygon with an area has one counterclockwise direction. -/
theorem area2_orient_pos {s : List Point} (h : area2 s ≠ 0) : 0 < area2 (orient s) := by
  rw [orient]
  split_ifs with hneg
  · rw [area2_reverse]
    omega
  · omega

theorem orient_reverse {s : List Point} (h : area2 s ≠ 0) : orient s.reverse = orient s := by
  rw [orient, orient, area2_reverse, reverse_reverse]
  by_cases hneg : area2 s < 0
  · rw [if_pos hneg, if_neg (by omega)]
  · rw [if_neg hneg, if_pos (by omega)]

theorem sameCycle_orient (s : List Point) : SameCycle s (orient s) := by
  rw [orient]
  split_ifs
  · refine .inr ?_
    rw [reverse_reverse]
  · exact SameCycle.refl s

/-- Among polygons with an area, the counterclockwise directions of the same cycle are
rotations of each other. -/
theorem orient_isRotated_iff {s s' : List Point} (h' : area2 s' ≠ 0) :
    orient s ~r orient s' ↔ SameCycle s s' := by
  constructor
  · intro h
    exact ((sameCycle_orient s).trans (.inl h)).trans (sameCycle_orient s').symm
  · intro h
    rcases h with h | h
    · exact orient_isRotated h
    · rw [← orient_reverse h']
      exact orient_isRotated h

/-! ## The canonical form -/

theorem Nondegenerate.canonicalPolygon_eq {s : List Point} (h : Nondegenerate s) :
    canonicalPolygon s = least (orient (dropClosing s)) :=
  canonicalPolygon_of_le h.three_le

/-- The canonical form keeps the area up to its sign. -/
theorem natAbs_area2_canonicalPolygon (s : List Point) :
    (area2 (canonicalPolygon s)).natAbs = (area2 s).natAbs := by
  rcases Nat.lt_or_ge (dropClosing s).length 3 with hshort | hlong
  · rw [canonicalPolygon_of_lt hshort, area2_dropClosing]
  · rw [canonicalPolygon_of_le hlong, ← area2_isRotated (isRotated_least _), orient]
    split_ifs
    · rw [area2_reverse, Int.natAbs_neg, area2_dropClosing]
    · rw [area2_dropClosing]

/-- The canonical form has an area exactly when the polygon has one. -/
theorem area2_canonicalPolygon_ne_zero {s : List Point} :
    area2 (canonicalPolygon s) ≠ 0 ↔ area2 s ≠ 0 := by
  rw [← Int.natAbs_ne_zero, natAbs_area2_canonicalPolygon, Int.natAbs_ne_zero]

/-- **`canonical_polygon` is a canonical form.**  Equal results mean the same boundary; the
result is counterclockwise, and it is its own canonical form. -/
theorem canonicalPolygon_canonical {s s' : List Point} (h : Nondegenerate s)
    (h' : Nondegenerate s') :
    (canonicalPolygon s = canonicalPolygon s' ↔ SameBoundary s s') ∧
      0 < area2 (canonicalPolygon s) ∧
      canonicalPolygon (canonicalPolygon s) = canonicalPolygon s := by
  refine ⟨?_, ?_, ?_⟩
  · rw [h.canonicalPolygon_eq, h'.canonicalPolygon_eq, least_eq_iff]
    exact orient_isRotated_iff (by rw [area2_dropClosing]; exact h'.area)
  · rw [h.canonicalPolygon_eq, ← area2_isRotated (isRotated_least _)]
    exact area2_orient_pos (by rw [area2_dropClosing]; exact h.area)
  · have hid : Rigid id :=
      ⟨Function.injective_id, 1, .inl rfl, fun s => by rw [map_id, one_mul]⟩
    have h := canonicalPolygon_map_canonicalPolygon hid h.not_onePoint
    rwa [map_id, map_id] at h

/-- A square, and the same one clockwise, from another vertex and closed. -/
theorem canonicalPolygon_canonical_square :
    canonicalPolygon [⟨0, 0⟩, ⟨4, 0⟩, ⟨4, 4⟩, ⟨0, 4⟩] =
        canonicalPolygon [⟨4, 4⟩, ⟨4, 0⟩, ⟨0, 0⟩, ⟨0, 4⟩, ⟨4, 4⟩] ∧
      0 < area2 (canonicalPolygon [⟨0, 0⟩, ⟨4, 0⟩, ⟨4, 4⟩, ⟨0, 4⟩]) := by
  have hsquare : Nondegenerate [⟨0, 0⟩, ⟨4, 0⟩, ⟨4, 4⟩, ⟨0, 4⟩] := by decide
  have hclosed : Nondegenerate [⟨4, 4⟩, ⟨4, 0⟩, ⟨0, 0⟩, ⟨0, 4⟩, ⟨4, 4⟩] := by decide
  have h := canonicalPolygon_canonical hsquare hclosed
  refine ⟨h.1.2 (.inr ⟨3, ?_⟩), h.2.1⟩
  decide

end DRCAgent
