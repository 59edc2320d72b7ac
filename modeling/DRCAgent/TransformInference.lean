/-
# Inferring the transform of an occurrence

`_infer_transform` of `repair_kernel_closure/edit_authority/proposals.py`: every starting
vertex and both directions of the flattened polygon are tried against the eight
orientations; the translation is read off the first vertex.

A map of the integer plane that keeps distances is one of the eight orientations followed
by a translation, so the search misses no rigid map.

Main results:
* `exists_transform_of_isometry`: the rigid maps of the lattice are the occurrence transforms
* `inferTransform_sound_complete`: the search finds a transform exactly when there is one
-/
import DRCAgent.OccurrenceTranslation
import Mathlib.Tactic.IntervalCases
import Mathlib.Tactic.Linarith

namespace DRCAgent.EditAuthority

open List Necklace

/-! ## The search -/

/-- The flattened polygon from every starting vertex, in both directions. -/
def targetOrders (flattened : List Point) : List (List Point) :=
  rotations flattened ++ rotations flattened.reverse

/-- `for mirror in (False, True): for rotation in range(4)` -/
def orientations : List (Bool × Fin 4) :=
  [false, true].flatMap fun mirror => (finRange 4).map fun rotation => (mirror, rotation)

/-- The orientation with the translation that takes `first` to `origin`. -/
def placing (first origin : Point) (orientation : Bool × Fin 4) : OccurrenceTransform :=
  let image := OccurrenceTransform.transform ⟨orientation.2, orientation.1, 0, 0⟩ first
  ⟨orientation.2, orientation.1, origin.x - image.x, origin.y - image.y⟩

/-- The first orientation that maps the source onto one target order. -/
def matchOrder (source target : List Point) : Option OccurrenceTransform :=
  match source, target with
  | first :: _, origin :: _ =>
    (orientations.map (placing first origin)).find? fun t => source.map t.transform = target
  | _, _ => none

/-- **`_infer_transform`.** -/
def inferTransform (source flattened : List Point) : Option OccurrenceTransform :=
  if source.length ≠ flattened.length ∨ source = [] then none
  else (targetOrders flattened).findSome? (matchOrder source)

/-! ## Rigid maps of the lattice -/

/-- The squared distance. -/
def sqDist (p q : Point) : ℤ := (p.x - q.x) * (p.x - q.x) + (p.y - q.y) * (p.y - q.y)

/-- A map that keeps distances. -/
def LatticeIsometry (f : Point → Point) : Prop := ∀ p q, sqDist (f p) (f q) = sqDist p q

theorem sqDist_flip (mirror : Bool) (p q : Point) :
    sqDist (flip mirror p) (flip mirror q) = sqDist p q := by
  cases mirror with
  | false => rfl
  | true =>
    simp only [sqDist, flip, if_true]
    ring

theorem sqDist_turn (rotation : Fin 4) (p q : Point) :
    sqDist (turn rotation p) (turn rotation q) = sqDist p q := by
  match rotation with
  | 0 => rfl
  | 1 => simp only [sqDist, turn]; ring
  | 2 => simp only [sqDist, turn]; ring
  | 3 => simp only [sqDist, turn]; ring

theorem sqDist_shift (dx dy : ℤ) (p q : Point) :
    sqDist (shift dx dy p) (shift dx dy q) = sqDist p q := by
  simp only [sqDist, shift]
  ring

theorem latticeIsometry_transform (t : OccurrenceTransform) : LatticeIsometry t.transform := by
  intro p q
  rw [OccurrenceTransform.transform, OccurrenceTransform.transform, sqDist_shift, sqDist_turn,
    sqDist_flip]

/-- The unit vectors of the lattice. -/
theorem unit_cases {a b : ℤ} (h : a * a + b * b = 1) :
    a = 1 ∧ b = 0 ∨ a = -1 ∧ b = 0 ∨ a = 0 ∧ b = 1 ∨ a = 0 ∧ b = -1 := by
  have ha : -1 ≤ a ∧ a ≤ 1 := by constructor <;> nlinarith [mul_self_nonneg b]
  have hb : -1 ≤ b ∧ b ≤ 1 := by constructor <;> nlinarith [mul_self_nonneg a]
  obtain ⟨ha, ha'⟩ := ha
  obtain ⟨hb, hb'⟩ := hb
  interval_cases a <;> interval_cases b <;> simp_all

/-- A unit vector at a right angle to another one is one of its two quarter turns. -/
theorem unit_orthogonal {a b c d : ℤ} (h : a * a + b * b = 1) (h' : c * c + d * d = 1)
    (hab : a * c + b * d = 0) : c = -b ∧ d = a ∨ c = b ∧ d = -a := by
  rcases unit_cases h with ⟨rfl, rfl⟩ | ⟨rfl, rfl⟩ | ⟨rfl, rfl⟩ | ⟨rfl, rfl⟩
  all_goals
    rcases unit_cases h' with ⟨rfl, rfl⟩ | ⟨rfl, rfl⟩ | ⟨rfl, rfl⟩ | ⟨rfl, rfl⟩
  all_goals omega

/-- What an isometry does to the point `p`, seen from the image of the origin: its
products with the images of the two unit vectors are the coordinates of `p`. -/
theorem LatticeIsometry.products {f : Point → Point} (hf : LatticeIsometry f) (p : Point) :
    ((f p).x - (f ⟨0, 0⟩).x) * ((f ⟨1, 0⟩).x - (f ⟨0, 0⟩).x) +
        ((f p).y - (f ⟨0, 0⟩).y) * ((f ⟨1, 0⟩).y - (f ⟨0, 0⟩).y) = p.x ∧
      ((f p).x - (f ⟨0, 0⟩).x) * ((f ⟨0, 1⟩).x - (f ⟨0, 0⟩).x) +
        ((f p).y - (f ⟨0, 0⟩).y) * ((f ⟨0, 1⟩).y - (f ⟨0, 0⟩).y) = p.y := by
  have hp := hf p ⟨0, 0⟩
  have hx := hf p ⟨1, 0⟩
  have hy := hf p ⟨0, 1⟩
  have hu := hf ⟨1, 0⟩ ⟨0, 0⟩
  have hv := hf ⟨0, 1⟩ ⟨0, 0⟩
  simp only [sqDist] at hp hx hy hu hv
  constructor
  · linarith
  · linarith

/-- The linear part of an isometry, from the images of the two unit vectors. -/
theorem LatticeIsometry.linear {f : Point → Point} (hf : LatticeIsometry f) :
    ∃ (rotation : Fin 4) (mirror : Bool), ∀ p,
      (f p).x - (f ⟨0, 0⟩).x = (turn rotation (flip mirror p)).x ∧
        (f p).y - (f ⟨0, 0⟩).y = (turn rotation (flip mirror p)).y := by
  have hproducts := hf.products
  have hu := hf ⟨1, 0⟩ ⟨0, 0⟩
  have hv := hf ⟨0, 1⟩ ⟨0, 0⟩
  have huv := (hf.products ⟨1, 0⟩).2
  simp only [sqDist] at hu hv
  generalize (f ⟨1, 0⟩).x - (f ⟨0, 0⟩).x = ux at hu huv hproducts
  generalize (f ⟨1, 0⟩).y - (f ⟨0, 0⟩).y = uy at hu huv hproducts
  generalize (f ⟨0, 1⟩).x - (f ⟨0, 0⟩).x = vx at hv huv hproducts
  generalize (f ⟨0, 1⟩).y - (f ⟨0, 0⟩).y = vy at hv huv hproducts
  -- the image of the first unit vector is the rotation, that of the second one the mirror
  have hturned := unit_orthogonal (by simpa using hu) (by simpa using hv) huv
  rcases unit_cases (by simpa using hu) with ⟨rfl, rfl⟩ | ⟨rfl, rfl⟩ | ⟨rfl, rfl⟩ | ⟨rfl, rfl⟩
  · rcases hturned with ⟨rfl, rfl⟩ | ⟨rfl, rfl⟩
    · exact ⟨0, false, fun p => by have := hproducts p; simp [turn, flip]; omega⟩
    · exact ⟨0, true, fun p => by have := hproducts p; simp [turn, flip]; omega⟩
  · rcases hturned with ⟨rfl, rfl⟩ | ⟨rfl, rfl⟩
    · exact ⟨2, false, fun p => by have := hproducts p; simp [turn, flip]; omega⟩
    · exact ⟨2, true, fun p => by have := hproducts p; simp [turn, flip]; omega⟩
  · rcases hturned with ⟨rfl, rfl⟩ | ⟨rfl, rfl⟩
    · exact ⟨1, false, fun p => by have := hproducts p; simp [turn, flip]; omega⟩
    · exact ⟨1, true, fun p => by have := hproducts p; simp [turn, flip]; omega⟩
  · rcases hturned with ⟨rfl, rfl⟩ | ⟨rfl, rfl⟩
    · exact ⟨3, false, fun p => by have := hproducts p; simp [turn, flip]; omega⟩
    · exact ⟨3, true, fun p => by have := hproducts p; simp [turn, flip]; omega⟩

/-- The rigid maps of the lattice are the occurrence transforms. -/
theorem exists_transform_of_isometry {f : Point → Point} (hf : LatticeIsometry f) :
    ∃ t : OccurrenceTransform, ∀ p, f p = t.transform p := by
  obtain ⟨rotation, mirror, hlinear⟩ := hf.linear
  refine ⟨⟨rotation, mirror, (f ⟨0, 0⟩).x, (f ⟨0, 0⟩).y⟩, fun p => ?_⟩
  obtain ⟨hx, hy⟩ := hlinear p
  rw [OccurrenceTransform.transform, shift, ← hx, ← hy, sub_add_cancel, sub_add_cancel]

/-! ## What the search finds -/

theorem mem_orientations (orientation : Bool × Fin 4) : orientation ∈ orientations := by
  obtain ⟨mirror, rotation⟩ := orientation
  refine mem_flatMap.2 ⟨mirror, by cases mirror <;> decide, ?_⟩
  exact mem_map.2 ⟨rotation, mem_finRange rotation, rfl⟩

/-- The translation is read off the first vertex. -/
theorem placing_transform (t : OccurrenceTransform) (first : Point) :
    placing first (t.transform first) (t.mirror, t.rotation) = t := by
  obtain ⟨rotation, mirror, dx, dy⟩ := t
  simp [placing, OccurrenceTransform.transform, shift]

variable {source flattened : List Point}

theorem matchOrder_eq_some {target : List Point} {t : OccurrenceTransform}
    (h : matchOrder source target = some t) : source.map t.transform = target := by
  unfold matchOrder at h
  split at h
  · simpa using find?_some h
  · cases h

theorem matchOrder_isSome (hsource : source ≠ []) (t : OccurrenceTransform) :
    (matchOrder source (source.map t.transform)).isSome := by
  cases source with
  | nil => exact absurd rfl hsource
  | cons first rest =>
    rw [map_cons, matchOrder, find?_isSome, ← map_cons]
    refine ⟨t, ?_, by simp⟩
    exact mem_map.2 ⟨(t.mirror, t.rotation), mem_orientations _, placing_transform t first⟩

/-- A transform that is found maps the source onto the target. -/
theorem inferTransform_sound {t : OccurrenceTransform}
    (h : inferTransform source flattened = some t) :
    source ≠ [] ∧ SameCycle (source.map t.transform) flattened := by
  rw [inferTransform] at h
  split at h
  · cases h
  · rename_i hguard
    rw [not_or, not_not] at hguard
    obtain ⟨target, htarget, hmatch⟩ := exists_of_findSome?_eq_some h
    have hne : flattened ≠ [] :=
      ne_nil_of_length_pos (hguard.1 ▸ length_pos_iff.2 hguard.2)
    rw [matchOrder_eq_some hmatch]
    exact ⟨hguard.2, ((mem_rotations_append hne).1 htarget).symm⟩

/-- A transform that maps the source onto the target is not missed. -/
theorem inferTransform_complete (hsource : source ≠ []) {t : OccurrenceTransform}
    (h : SameCycle (source.map t.transform) flattened) :
    (inferTransform source flattened).isSome := by
  have hlength : source.length = flattened.length := by
    rw [← h.length_eq, length_map]
  have hne : flattened ≠ [] :=
    ne_nil_of_length_pos (hlength ▸ length_pos_iff.2 hsource)
  rw [inferTransform, if_neg (by rw [not_or, not_not]; exact ⟨hlength, hsource⟩),
    findSome?_isSome_iff]
  exact ⟨_, (mem_rotations_append hne).2 h.symm, matchOrder_isSome hsource t⟩

/-- **Transform inference.**  A transform that is returned maps the source onto the target
polygon, up to the starting vertex and the direction; one is returned for every polygon
that a rigid map of the lattice takes onto the target. -/
theorem inferTransform_sound_complete (source flattened : List Point) :
    (∀ t, inferTransform source flattened = some t → SameCycle (source.map t.transform) flattened) ∧
    ((∃ t, inferTransform source flattened = some t) ↔
      source ≠ [] ∧ ∃ f, LatticeIsometry f ∧ SameCycle (source.map f) flattened) := by
  refine ⟨fun t h => (inferTransform_sound h).2, ?_, ?_⟩
  · rintro ⟨t, h⟩
    obtain ⟨hsource, hcycle⟩ := inferTransform_sound h
    exact ⟨hsource, t.transform, latticeIsometry_transform t, hcycle⟩
  · rintro ⟨hsource, f, hf, hcycle⟩
    obtain ⟨t, ht⟩ := exists_transform_of_isometry hf
    rw [map_congr_left fun p _ => ht p] at hcycle
    exact Option.isSome_iff_exists.1 (inferTransform_complete hsource hcycle)

end DRCAgent.EditAuthority
