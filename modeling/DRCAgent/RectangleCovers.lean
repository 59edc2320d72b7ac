/-
# Rectangles covered by rectangles

A small library: closed rectangles with integer corners, and when some of them cover another
one. The points of the plane are those of any ordered field with a floor. It is enough to
look at the points whose coordinates are whole or half numbers, so that a cover can be
computed.

Main result:

* `fills_iff`: the computed check finds the covers.
-/
import Mathlib.Algebra.Order.Floor.Ring
import Mathlib.Data.List.Range

namespace RectangleCovers

/-- A rectangle by its corners. -/
structure Rectangle where
  x1 : ℤ
  y1 : ℤ
  x2 : ℤ
  y2 : ℤ

variable {K : Type*} [Field K] [LinearOrder K] [IsStrictOrderedRing K] [FloorRing K]

/-- The points of a closed rectangle. -/
def Rectangle.Contains (r : Rectangle) (p : K × K) : Prop :=
  ((r.x1 : K) ≤ p.1 ∧ p.1 ≤ (r.x2 : K)) ∧ (r.y1 : K) ≤ p.2 ∧ p.2 ≤ (r.y2 : K)

/-- The points with whole or half coordinates, by twice the coordinates. -/
def Rectangle.hasHalf (r : Rectangle) (p : ℤ × ℤ) : Bool :=
  (2 * r.x1 ≤ p.1 && p.1 ≤ 2 * r.x2) && (2 * r.y1 ≤ p.2 && p.2 ≤ 2 * r.y2)

theorem Rectangle.hasHalf_iff {r : Rectangle} {p : ℤ × ℤ} : r.hasHalf p = true ↔
    (2 * r.x1 ≤ p.1 ∧ p.1 ≤ 2 * r.x2) ∧ 2 * r.y1 ≤ p.2 ∧ p.2 ≤ 2 * r.y2 := by
  simp only [hasHalf, Bool.and_eq_true, decide_eq_true_eq]

/-- The pieces cover the rectangle: every point of it is in one of them. -/
def Covers (K : Type*) [Field K] [LinearOrder K] (pieces : List Rectangle) (r : Rectangle) :
    Prop :=
  ∀ p : K × K, r.Contains p → ∃ piece ∈ pieces, piece.Contains p

/-! ## Whole and half points -/

/-- Twice the middle of the unit interval around a coordinate, or of the coordinate alone. -/
def middle (x : K) : ℤ := ⌊x⌋ + ⌈x⌉

theorem le_middle_iff {a : ℤ} {x : K} : 2 * a ≤ middle x ↔ (a : K) ≤ x := by
  rw [← Int.le_floor, middle]
  have hle := Int.floor_le_ceil x
  have hceil := Int.ceil_le_floor_add_one x
  omega

theorem middle_le_iff {a : ℤ} {x : K} : middle x ≤ 2 * a ↔ x ≤ (a : K) := by
  rw [← Int.ceil_le, middle]
  have hle := Int.floor_le_ceil x
  have hceil := Int.ceil_le_floor_add_one x
  omega

/-- A rectangle has a point where it has the middle of its cell. -/
theorem Rectangle.contains_iff {r : Rectangle} {p : K × K} :
    r.Contains p ↔ r.hasHalf (middle p.1, middle p.2) = true := by
  rw [hasHalf_iff, le_middle_iff, middle_le_iff, le_middle_iff, middle_le_iff]
  rfl

theorem middle_half (n : ℤ) : middle ((n : K) / 2) = n := by
  have htwo : (0 : K) < 2 := two_pos
  refine le_antisymm ?_ ?_
  · obtain ⟨k, hk | hk⟩ := Int.even_or_odd' n
    · rw [hk, middle_le_iff]
      push_cast
      linarith
    · -- an odd number lies between two even ones
      have hupper : middle ((n : K) / 2) ≤ 2 * (k + 1) := by
        rw [middle_le_iff, hk]
        push_cast
        linarith
      have hlower : ¬ 2 * (k + 1) ≤ middle ((n : K) / 2) := by
        rw [le_middle_iff, hk]
        push_cast
        intro h
        linarith
      omega
  · obtain ⟨k, hk | hk⟩ := Int.even_or_odd' n
    · rw [hk, le_middle_iff]
      push_cast
      linarith
    · have hlower : ¬ middle ((n : K) / 2) ≤ 2 * k := by
        rw [middle_le_iff, hk]
        push_cast
        intro h
        linarith
      omega

/-! ## The check -/

/-- Whether every point of the rectangle with whole or half coordinates is in a piece. -/
def fills (pieces : List Rectangle) (r : Rectangle) : Bool :=
  (List.range (2 * (r.x2 - r.x1) + 1).toNat).all fun i =>
    (List.range (2 * (r.y2 - r.y1) + 1).toNat).all fun j =>
      pieces.any fun piece => piece.hasHalf (2 * r.x1 + i, 2 * r.y1 + j)

theorem fills_iff_hasHalf {pieces : List Rectangle} {r : Rectangle} :
    fills pieces r = true ↔
      ∀ p : ℤ × ℤ, r.hasHalf p = true → ∃ piece ∈ pieces, piece.hasHalf p = true := by
  simp only [fills, List.all_eq_true, List.mem_range, List.any_eq_true]
  constructor
  · rintro h ⟨x, y⟩ hp
    obtain ⟨⟨hx, hx'⟩, hy, hy'⟩ := Rectangle.hasHalf_iff.1 hp
    obtain ⟨i, hi⟩ := Int.eq_ofNat_of_zero_le (Int.sub_nonneg_of_le hx)
    obtain ⟨j, hj⟩ := Int.eq_ofNat_of_zero_le (Int.sub_nonneg_of_le hy)
    have hpoint := h i (by omega) j (by omega)
    rwa [← hi, ← hj, show 2 * r.x1 + (x - 2 * r.x1) = x by omega,
      show 2 * r.y1 + (y - 2 * r.y1) = y by omega] at hpoint
  · intro h i hi j hj
    exact h _ (Rectangle.hasHalf_iff.2 ⟨⟨by omega, by omega⟩, by omega, by omega⟩)

/-- **The check finds the covers.** -/
theorem fills_iff {pieces : List Rectangle} {r : Rectangle} :
    fills pieces r = true ↔ Covers K pieces r := by
  rw [fills_iff_hasHalf]
  constructor
  · intro h p hp
    obtain ⟨piece, hpiece, hhalf⟩ := h _ (Rectangle.contains_iff.1 hp)
    exact ⟨piece, hpiece, Rectangle.contains_iff.2 hhalf⟩
  · intro h p hp
    have hpoint : ∀ r : Rectangle,
        r.Contains ((p.1 : K) / 2, (p.2 : K) / 2) ↔ r.hasHalf p = true := by
      intro r
      rw [Rectangle.contains_iff, middle_half, middle_half]
    obtain ⟨piece, hpiece, hcontains⟩ := h _ ((hpoint r).2 hp)
    exact ⟨piece, hpiece, (hpoint piece).1 hcontains⟩

end RectangleCovers
