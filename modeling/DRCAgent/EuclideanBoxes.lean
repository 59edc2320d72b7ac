/-
# Closed boxes in a Euclidean space

A small library: boxes with sides along the axes, in any finite dimension, and how far apart
two of them are.

* `isLeast_dist`: the least distance between points of two boxes is the length of the vector of
  their gaps along the axes.
* `separation_eq_zero_iff`: it is zero exactly when the boxes meet.
-/
import Mathlib.Analysis.InnerProductSpace.PiL2

namespace EuclideanBoxes

universe u

/-- How far apart two sets are. -/
noncomputable def separation {X : Type u} [PseudoMetricSpace X] (s t : Set X) : ℝ :=
  sInf (Set.image2 dist s t)

theorem separation_comm {X : Type u} [PseudoMetricSpace X] (s t : Set X) :
    separation s t = separation t s := by
  rw [separation, separation, Set.image2_swap]
  congr 2
  funext x y
  exact dist_comm y x

/-! ## Along one axis -/

/-- The gap between two intervals. -/
def gapBetween (lo hi lo' hi' : ℝ) : ℝ := max (max (lo - hi') (lo' - hi)) 0

section Axis

variable {lo hi lo' hi' : ℝ}

theorem gapBetween_le {x y : ℝ} (hx : x ∈ Set.Icc lo hi) (hy : y ∈ Set.Icc lo' hi') :
    gapBetween lo hi lo' hi' ≤ |x - y| := by
  obtain ⟨hlo, hhi⟩ := hx
  obtain ⟨hlo', hhi'⟩ := hy
  refine max_le (max_le ?_ ?_) (abs_nonneg _)
  · exact le_trans (by linarith) (le_abs_self _)
  · exact le_trans (by linarith) (neg_le_abs _)

/-- Two points of the intervals are as near as their gap. -/
theorem exists_gapBetween (hle : lo ≤ hi) (hle' : lo' ≤ hi') :
    ∃ x ∈ Set.Icc lo hi, ∃ y ∈ Set.Icc lo' hi', |x - y| = gapBetween lo hi lo' hi' := by
  rcases lt_or_ge hi' lo with hleft | hleft
  · -- the second interval is below the first one
    refine ⟨lo, Set.left_mem_Icc.2 hle, hi', Set.right_mem_Icc.2 hle', ?_⟩
    rw [gapBetween, max_eq_left (by linarith : lo' - hi ≤ lo - hi'), max_eq_left (by linarith),
      abs_of_pos (by linarith)]
  · rcases lt_or_ge hi lo' with hright | hright
    · refine ⟨hi, Set.right_mem_Icc.2 hle, lo', Set.left_mem_Icc.2 hle', ?_⟩
      rw [gapBetween, max_eq_right (by linarith : lo - hi' ≤ lo' - hi), max_eq_left (by linarith),
        abs_of_neg (by linarith)]
      ring
    · -- a common point
      refine ⟨max lo lo', ⟨le_max_left _ _, max_le hle hright⟩, max lo lo',
        ⟨le_max_right _ _, max_le hleft hle'⟩, ?_⟩
      rw [gapBetween, max_eq_right (max_le (by linarith) (by linarith)), sub_self, abs_zero]

end Axis

/-! ## Boxes -/

variable {ι : Type u} [Fintype ι]

/-- A box by its least and its greatest corner. -/
structure Corners (ι : Type u) where
  lo : ι → ℝ
  hi : ι → ℝ
  le : ∀ i, lo i ≤ hi i

/-- The points of a box, those of its border with them. -/
def Corners.points (b : Corners ι) : Set (EuclideanSpace ℝ ι) :=
  {p | ∀ i, p i ∈ Set.Icc (b.lo i) (b.hi i)}

/-- The gap of two boxes along an axis. -/
def Corners.gap (b c : Corners ι) (i : ι) : ℝ := gapBetween (b.lo i) (b.hi i) (c.lo i) (c.hi i)

theorem dist_eq_sqrt_abs (p q : EuclideanSpace ℝ ι) :
    dist p q = √(∑ i, |p i - q i| ^ 2) := EuclideanSpace.dist_eq p q

/-- **The least distance** between points of two boxes. -/
theorem isLeast_dist (b c : Corners ι) :
    IsLeast (Set.image2 dist b.points c.points) √(∑ i, b.gap c i ^ 2) := by
  constructor
  · -- points that are nearest along every axis
    choose x hx y hy hxy using fun i => exists_gapBetween (b.le i) (c.le i)
    refine ⟨WithLp.toLp 2 x, hx, WithLp.toLp 2 y, hy, ?_⟩
    rw [dist_eq_sqrt_abs]
    congr 1
    exact Finset.sum_congr rfl fun i _ => congrArg (· ^ 2) (hxy i)
  · rintro _ ⟨p, hp, q, hq, rfl⟩
    rw [dist_eq_sqrt_abs]
    refine Real.sqrt_le_sqrt (Finset.sum_le_sum fun i _ => ?_)
    exact pow_le_pow_left₀ (le_max_right _ _) (gapBetween_le (hp i) (hq i)) 2

theorem separation_eq (b c : Corners ι) :
    separation b.points c.points = √(∑ i, b.gap c i ^ 2) := (isLeast_dist b c).csInf_eq

/-- **Boxes that meet** are those that are not apart. -/
theorem separation_eq_zero_iff (b c : Corners ι) :
    separation b.points c.points = 0 ↔ (b.points ∩ c.points).Nonempty := by
  have hleast := isLeast_dist b c
  rw [← separation_eq] at hleast
  constructor
  · intro hzero
    obtain ⟨p, hp, q, hq, hdist⟩ := hleast.1
    rw [hzero, dist_eq_zero] at hdist
    exact ⟨p, hp, hdist ▸ hq⟩
  · rintro ⟨p, hp, hp'⟩
    apply le_antisymm
    · exact hleast.2 ⟨p, hp, p, hp', dist_self p⟩
    · rw [separation_eq]
      exact Real.sqrt_nonneg _

end EuclideanBoxes
