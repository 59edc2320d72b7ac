/-
# Distances and units, rounded

`outward_box_gap_dbu` is the Euclidean distance between the closed boxes, rounded up
(`outwardBoxGapDbu_eq_ceil`), and `nm_to_dbu` is the exact quotient in one of three roundings
(`nmToDbu_eq`): down, up, or to the nearest integer, and up from a half.

Main result:

* `gap_and_units_rounded`: the gap of two boxes and the three conversions of a length.
-/
import DRCAgent.EuclideanBoxes
import DRCAgent.TopologyRecords

namespace DRCAgent.Topology

open EuclideanBoxes (Corners separation)
open Regions (Box)

/-! ## The gap of two boxes -/

section Gap

variable {a b : Box}

/-- The points of a box in the plane, those of its border with them. -/
def closedBox (b : Box) : Set (EuclideanSpace ℝ (Fin 2)) :=
  {p | (b.x1 ≤ p 0 ∧ p 0 ≤ b.x2) ∧ b.y1 ≤ p 1 ∧ p 1 ≤ b.y2}

def corners (b : Box) : Corners (Fin 2) where
  lo := ![b.x1, b.y1]
  hi := ![b.x2, b.y2]
  le := Fin.forall_fin_two.2 ⟨Int.cast_le.2 b.ordered.1, Int.cast_le.2 b.ordered.2⟩

theorem points_corners (b : Box) : (corners b).points = closedBox b := by
  ext p
  exact Fin.forall_fin_two

theorem cast_gapSquared (a b : Box) :
    (gapSquared a b : ℝ) = ∑ i, (corners a).gap (corners b) i ^ 2 := by
  rw [Fin.sum_univ_two, gapSquared, sq, sq]
  simp [corners, Corners.gap, EuclideanBoxes.gapBetween, max_assoc]

theorem separation_closedBox (a b : Box) :
    separation (closedBox a) (closedBox b) = √(gapSquared a b) := by
  rw [← points_corners, ← points_corners, EuclideanBoxes.separation_eq, cast_gapSquared]

/-- **The gap is the distance of the closed boxes, rounded up.** -/
theorem outwardBoxGapDbu_eq_ceil (a b : Box) :
    outwardBoxGapDbu a b = ⌈separation (closedBox a) (closedBox b)⌉ := by
  rw [separation_closedBox]
  refine eq_of_forall_ge_iff fun w => ?_
  rw [outwardBoxGapDbu_le_iff, Near, Int.ceil_le, Real.sqrt_le_iff, Int.cast_nonneg_iff, sq,
    ← Int.cast_mul, Int.cast_le]

theorem outwardBoxGapDbu_comm (a b : Box) : outwardBoxGapDbu a b = outwardBoxGapDbu b a := by
  rw [outwardBoxGapDbu_eq_ceil, outwardBoxGapDbu_eq_ceil, EuclideanBoxes.separation_comm]

/-- **The gap is zero** exactly where the boxes have a point in common. -/
theorem outwardBoxGapDbu_eq_zero_iff :
    outwardBoxGapDbu a b = 0 ↔ (closedBox a ∩ closedBox b).Nonempty := by
  have hzero : outwardBoxGapDbu a b = 0 ↔ separation (closedBox a) (closedBox b) = 0 := by
    have hnonneg : 0 ≤ separation (closedBox a) (closedBox b) := by
      rw [separation_closedBox]
      exact Real.sqrt_nonneg _
    rw [outwardBoxGapDbu_eq_ceil]
    constructor
    · intro h
      exact le_antisymm (by exact_mod_cast Int.ceil_le.1 h.le) hnonneg
    · intro h
      rw [h, Int.ceil_zero]
  rw [hzero, ← points_corners, ← points_corners, EuclideanBoxes.separation_eq_zero_iff]

/-- `Box.intersects` counts boxes that only touch. -/
theorem intersects_iff : a.intersects b = true ↔ (closedBox a ∩ closedBox b).Nonempty := by
  rw [Box.intersects]
  simp only [Bool.not_eq_true', Bool.or_eq_false_iff, decide_eq_false_iff_not, not_lt]
  constructor
  · rintro ⟨⟨⟨hx, hx'⟩, hy⟩, hy'⟩
    -- the corner that is the greater one along both axes
    refine ⟨!₂[((max a.x1 b.x1 : ℤ) : ℝ), ((max a.y1 b.y1 : ℤ) : ℝ)], ?_, ?_⟩
    · exact ⟨⟨Int.cast_le.2 (le_max_left _ _), Int.cast_le.2 (max_le a.ordered.1 hx)⟩,
        Int.cast_le.2 (le_max_left _ _), Int.cast_le.2 (max_le a.ordered.2 hy)⟩
    · exact ⟨⟨Int.cast_le.2 (le_max_right _ _), Int.cast_le.2 (max_le hx' b.ordered.1)⟩,
        Int.cast_le.2 (le_max_right _ _), Int.cast_le.2 (max_le hy' b.ordered.2)⟩
  · rintro ⟨p, ⟨⟨hx1, hx2⟩, hy1, hy2⟩, ⟨hx1', hx2'⟩, hy1', hy2'⟩
    exact ⟨⟨⟨Int.cast_le.1 (hx1'.trans hx2), Int.cast_le.1 (hx1.trans hx2')⟩,
      Int.cast_le.1 (hy1'.trans hy2)⟩, Int.cast_le.1 (hy1.trans hy2')⟩

end Gap

/-! ## Units -/

section Units

variable {nm dbuPerUm d : ℤ} {rounding : Rounding}

/-- The exact quotient. -/
def exactDbu (nm dbuPerUm : ℤ) : ℚ := nm * dbuPerUm / 1000

/-- The integer that a quotient is rounded to. -/
def Rounding.toInt : Rounding → ℚ → ℤ
  | .nearest, q => round q
  | .outward, q => ⌈q⌉
  | .inward, q => ⌊q⌋

theorem exactDbu_eq (nm dbuPerUm : ℤ) :
    exactDbu nm dbuPerUm = ((nm * dbuPerUm : ℤ) : ℚ) / (1000 : ℕ) := by
  rw [exactDbu, Int.cast_mul, Nat.cast_ofNat]

/-- **A conversion is the exact quotient, rounded.** -/
theorem nmToDbu_eq (hnm : 0 ≤ nm) (hdbu : 0 < dbuPerUm) :
    nmToDbu nm dbuPerUm rounding = .ok (rounding.toInt (exactDbu nm dbuPerUm)) := by
  rw [nmToDbu, if_neg (by omega), exactDbu_eq]
  generalize nm * dbuPerUm = numerator
  cases rounding with
  | inward =>
    rw [Rounding.toInt, Rat.floor_intCast_div_natCast]
    rfl
  | outward =>
    have hceil : (numerator + 999) / 1000 = -(-numerator / (1000 : ℕ)) := by omega
    rw [Rounding.toInt, Rat.ceil_intCast_div_natCast, ← hceil]
  | nearest =>
    -- half of the divisor goes into the numerator
    have hhalf : ((numerator : ℚ) / (1000 : ℕ) + 1 / 2) =
        ((numerator + 500 : ℤ) : ℚ) / (1000 : ℕ) := by
      push_cast
      ring
    rw [Rounding.toInt, round_eq, hhalf, Rat.floor_intCast_div_natCast]
    rfl

/-- A negative length and a scale that is not positive are refused. -/
theorem nmToDbu_eq_error (h : ¬ (0 ≤ nm ∧ 0 < dbuPerUm)) :
    nmToDbu nm dbuPerUm rounding =
      .error "nm and dbu_per_um must be non-negative/positive" := by
  rw [nmToDbu, if_pos (by omega)]

theorem exists_nmToDbu_iff :
    (∃ d, nmToDbu nm dbuPerUm rounding = .ok d) ↔ 0 ≤ nm ∧ 0 < dbuPerUm := by
  by_cases h : 0 ≤ nm ∧ 0 < dbuPerUm
  · exact iff_of_true ⟨_, nmToDbu_eq h.1 h.2⟩ h
  · refine iff_of_false ?_ h
    rintro ⟨d, hd⟩
    rw [nmToDbu_eq_error h] at hd
    cases hd

/-- What is returned is the rounded quotient. -/
theorem toInt_of_nmToDbu (h : nmToDbu nm dbuPerUm rounding = .ok d) :
    d = rounding.toInt (exactDbu nm dbuPerUm) := by
  obtain ⟨hnm, hdbu⟩ := exists_nmToDbu_iff.1 ⟨d, h⟩
  rw [nmToDbu_eq hnm hdbu] at h
  exact (Except.ok.inj h).symm

end Units

/-! ## The main result -/

/-- **The gap and the units, rounded.**  The gap of two boxes is the distance of the closed boxes,
rounded up; it is symmetric, and zero exactly where the boxes intersect or touch. A length is
converted where it is not negative and the scale is positive: inward to at most the exact
quotient, outward to at least that, and to the nearest integer within a half of it. -/
theorem gap_and_units_rounded :
    (∀ a b : Box, outwardBoxGapDbu a b = ⌈separation (closedBox a) (closedBox b)⌉ ∧
      outwardBoxGapDbu a b = outwardBoxGapDbu b a ∧
      (outwardBoxGapDbu a b = 0 ↔ (closedBox a ∩ closedBox b).Nonempty) ∧
      (outwardBoxGapDbu a b = 0 ↔ a.intersects b = true)) ∧
    ∀ nm dbuPerUm : ℤ,
      (∀ rounding, (∃ d, nmToDbu nm dbuPerUm rounding = .ok d) ↔ 0 ≤ nm ∧ 0 < dbuPerUm) ∧
      (∀ d, nmToDbu nm dbuPerUm .inward = .ok d → d ≤ exactDbu nm dbuPerUm) ∧
      (∀ d, nmToDbu nm dbuPerUm .outward = .ok d → exactDbu nm dbuPerUm ≤ d) ∧
      ∀ d, nmToDbu nm dbuPerUm .nearest = .ok d → |d - exactDbu nm dbuPerUm| ≤ 1 / 2 := by
  constructor
  · intro a b
    exact ⟨outwardBoxGapDbu_eq_ceil a b, outwardBoxGapDbu_comm a b, outwardBoxGapDbu_eq_zero_iff,
      outwardBoxGapDbu_eq_zero_iff.trans intersects_iff.symm⟩
  · intro nm dbuPerUm
    refine ⟨fun _ => exists_nmToDbu_iff, ?_, ?_, ?_⟩
    · intro d hd
      rw [toInt_of_nmToDbu hd]
      exact Int.floor_le _
    · intro d hd
      rw [toInt_of_nmToDbu hd]
      exact Int.le_ceil _
    · intro d hd
      rw [toInt_of_nmToDbu hd, abs_sub_comm]
      exact abs_sub_round _

/-- A perfect square is exact, and one more is rounded up; a half goes up. -/
example : outwardBoxGapDbu ⟨0, 0, 1, 1, by decide⟩ ⟨4, 5, 6, 6, by decide⟩ = 5 ∧
    outwardBoxGapDbu ⟨0, 0, 1, 1, by decide⟩ ⟨2, 2, 3, 3, by decide⟩ = 2 ∧
    nmToDbu 5 100 = .ok 1 := by
  decide +kernel

end DRCAgent.Topology
