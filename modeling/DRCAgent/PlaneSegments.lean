/-
# Segments in the plane

The intersection of two segments over an ordered field, decided by signs of doubled
areas and by boxes, and closed polygons given by their vertices and a successor.

Main results:

* `segments_meet_iff`: two segments with ends that differ meet exactly when each line
  separates the ends of the other segment, or an end of one is on the other.
* `simple_iff_of_four`: a polygon of four vertices or more is simple exactly when its
  vertices differ and no two edges meet that are not consecutive.
-/
import Mathlib.Analysis.Convex.Segment
import Mathlib.Data.Sign.Basic
import Mathlib.Tactic.FieldSimp
import Mathlib.Tactic.Linarith
import Mathlib.Tactic.Positivity

namespace PlaneSegments

open AffineMap Set

universe u v

variable {K : Type u} [Field K] [LinearOrder K] [IsStrictOrderedRing K]

/-! ## Doubled areas -/

/-- The doubled signed area of a triangle. -/
def det (a b c : K × K) : K := (b.1 - a.1) * (c.2 - a.2) - (b.2 - a.2) * (c.1 - a.1)

omit [LinearOrder K] [IsStrictOrderedRing K] in
/-- The doubled area is affine in the last point. -/
theorem det_lineMap (a b c d : K × K) (t : K) :
    det a b (lineMap c d t) = (1 - t) * det a b c + t * det a b d := by
  rw [det, det, det, lineMap_apply_module]
  simp only [Prod.fst_add, Prod.snd_add, Prod.smul_fst, Prod.smul_snd, smul_eq_mul]
  ring

omit [LinearOrder K] [IsStrictOrderedRing K] in
theorem det_left (a b : K × K) : det a b a = 0 := by
  rw [det]
  ring

omit [LinearOrder K] [IsStrictOrderedRing K] in
theorem det_right (a b : K × K) : det a b b = 0 := by
  rw [det]
  ring

omit [LinearOrder K] [IsStrictOrderedRing K] in
/-- A point is on the line through two others where the doubled area vanishes. -/
theorem exists_lineMap {a b c : K × K} (hab : a ≠ b) (h : det a b c = 0) :
    ∃ t : K, c = lineMap a b t := by
  rw [det] at h
  by_cases hx : b.1 - a.1 = 0
  · have hy : b.2 - a.2 ≠ 0 := by
      intro hy
      exact hab (Prod.ext (sub_eq_zero.1 hx).symm (sub_eq_zero.1 hy).symm)
    refine ⟨(c.2 - a.2) / (b.2 - a.2), Prod.ext ?_ ?_⟩
    · rw [hx, zero_mul, zero_sub, neg_eq_zero, mul_eq_zero] at h
      rw [lineMap_apply_module', Prod.fst_add, Prod.smul_fst, Prod.fst_sub, hx, smul_zero, zero_add]
      exact sub_eq_zero.1 (h.resolve_left hy)
    · rw [lineMap_apply_module', Prod.snd_add, Prod.smul_snd, Prod.snd_sub, smul_eq_mul,
        div_mul_cancel₀ _ hy]
      ring
  · refine ⟨(c.1 - a.1) / (b.1 - a.1), Prod.ext ?_ ?_⟩
    · rw [lineMap_apply_module', Prod.fst_add, Prod.smul_fst, Prod.fst_sub, smul_eq_mul,
        div_mul_cancel₀ _ hx]
      ring
    · rw [lineMap_apply_module', Prod.snd_add, Prod.smul_snd, Prod.snd_sub, smul_eq_mul]
      field_simp
      linear_combination h

/-! ## The box of a segment -/

/-- The point is in the box of which two points are opposite corners. -/
def InBox (a b c : K × K) : Prop :=
  (min a.1 b.1 ≤ c.1 ∧ c.1 ≤ max a.1 b.1) ∧ min a.2 b.2 ≤ c.2 ∧ c.2 ≤ max a.2 b.2

/-- A number between two others, by the parameter on the way. -/
theorem lineMap_mem_box {a b t : K} (ht : 0 ≤ t ∧ t ≤ 1) :
    min a b ≤ lineMap a b t ∧ lineMap a b t ≤ max a b := by
  have hmem : lineMap a b t ∈ segment K a b := by
    rw [segment_eq_image_lineMap]
    exact ⟨t, ht, rfl⟩
  rw [segment_eq_uIcc] at hmem
  exact hmem

/-- The parameter of a number between two others that differ. -/
theorem param_of_box {a b t : K} (hab : a ≠ b)
    (h : min a b ≤ lineMap a b t ∧ lineMap a b t ≤ max a b) : 0 ≤ t ∧ t ≤ 1 := by
  have hmem : lineMap a b t ∈ segment K a b := by
    rw [segment_eq_uIcc]
    exact h
  rw [segment_eq_image_lineMap] at hmem
  obtain ⟨s, hs, heq⟩ := hmem
  rw [← lineMap_injective K hab heq]
  exact hs

/-- **A point is on a segment** exactly when the doubled area vanishes and it is in the
box of the segment. -/
theorem mem_segment_iff_box {a b c : K × K} :
    c ∈ segment K a b ↔ det a b c = 0 ∧ InBox a b c := by
  constructor
  · intro h
    rw [segment_eq_image_lineMap] at h
    obtain ⟨t, ht, rfl⟩ := h
    refine ⟨?_, ?_, ?_⟩
    · rw [det_lineMap, det_left, det_right]
      ring
    · rw [fst_lineMap]
      exact lineMap_mem_box ht
    · rw [snd_lineMap]
      exact lineMap_mem_box ht
  · rintro ⟨hdet, hx, hy⟩
    by_cases hab : a = b
    · subst hab
      rw [min_self, max_self] at hx hy
      have heq : c = a := Prod.ext (le_antisymm hx.2 hx.1) (le_antisymm hy.2 hy.1)
      rw [heq]
      exact left_mem_segment K a a
    · obtain ⟨t, rfl⟩ := exists_lineMap hab hdet
      rw [segment_eq_image_lineMap]
      refine ⟨t, ?_, rfl⟩
      by_cases hab' : a.1 = b.1
      · refine param_of_box (fun hab'' => hab (Prod.ext hab' hab'')) ?_
        rwa [snd_lineMap] at hy
      · refine param_of_box hab' ?_
        rwa [fst_lineMap] at hx

/-! ## Two segments -/

/-- The signs of two numbers differ. -/
theorem zero_between {x y : K} (h : SignType.sign x ≠ SignType.sign y) :
    x ≠ y ∧ 0 ≤ x / (x - y) ∧ x / (x - y) ≤ 1 := by
  have hne : x ≠ y := fun heq => h (congrArg _ heq)
  refine ⟨hne, ?_⟩
  rcases lt_or_gt_of_ne hne with hlt | hgt
  · -- the first is not positive, the second is not negative
    have hx : x ≤ 0 := by
      by_contra hx
      rw [not_le] at hx
      exact h (by rw [sign_pos hx, sign_pos (hx.trans hlt)])
    have hy : 0 ≤ y := by
      by_contra hy
      rw [not_le] at hy
      exact h (by rw [sign_neg hy, sign_neg (hlt.trans hy)])
    have hsub : x - y < 0 := sub_neg.2 hlt
    refine ⟨div_nonneg_of_nonpos hx hsub.le, ?_⟩
    rw [div_le_one_of_neg hsub]
    linarith
  · have hx : 0 ≤ x := by
      by_contra hx
      rw [not_le] at hx
      exact h (by rw [sign_neg hx, sign_neg (hgt.trans hx)])
    have hy : y ≤ 0 := by
      by_contra hy
      rw [not_le] at hy
      exact h (by rw [sign_pos hy, sign_pos (hy.trans hgt)])
    have hsub : 0 < x - y := sub_pos.2 hgt
    refine ⟨div_nonneg hx hsub.le, ?_⟩
    rw [div_le_one hsub]
    linarith

/-- A parameter at which a value between two numbers of different signs vanishes. -/
theorem param_of_zero {x y t : K} (h : SignType.sign x ≠ SignType.sign y)
    (hzero : (1 - t) * x + t * y = 0) : 0 ≤ t ∧ t ≤ 1 := by
  obtain ⟨hne, hbetween⟩ := zero_between h
  have ht : t = x / (x - y) := by
    rw [eq_div_iff (sub_ne_zero.2 hne)]
    linear_combination -hzero
  rw [ht]
  exact hbetween

/-- Two numbers of one sign vanish where a value between them does. -/
theorem zero_of_param {x y t : K} (h : SignType.sign x = SignType.sign y)
    (ht : 0 ≤ t ∧ t ≤ 1) (hzero : (1 - t) * x + t * y = 0) : x = 0 ∧ y = 0 := by
  rcases lt_trichotomy x 0 with hx | rfl | hx
  · rw [sign_neg hx] at h
    have hy : y < 0 := sign_eq_neg_one_iff.1 h.symm
    exfalso
    nlinarith [mul_nonneg (sub_nonneg.2 ht.2) (neg_pos.2 hx).le, mul_nonneg ht.1 (neg_pos.2 hy).le]
  · rw [sign_zero] at h
    exact ⟨rfl, sign_eq_zero_iff.1 h.symm⟩
  · rw [sign_pos hx] at h
    have hy : 0 < y := sign_eq_one_iff.1 h.symm
    exfalso
    nlinarith [mul_nonneg (sub_nonneg.2 ht.2) hx.le, mul_nonneg ht.1 hy.le]

/-- The line through the first two points separates the others. -/
def Separates (a b c d : K × K) : Prop := SignType.sign (det a b c) ≠ SignType.sign (det a b d)

/-- An end of one of the segments is on the other. -/
def Touch (a b c d : K × K) : Prop :=
  c ∈ segment K a b ∨ d ∈ segment K a b ∨ a ∈ segment K c d ∨ b ∈ segment K c d

/-- Segments whose lines separate each other meet. -/
theorem meet_of_separates {a b c d : K × K} (hab : a ≠ b) (h : Separates a b c d)
    (h' : Separates c d a b) : ∃ x, x ∈ segment K a b ∧ x ∈ segment K c d := by
  obtain ⟨hne, ht⟩ := zero_between h
  have hzero : det a b (lineMap c d (det a b c / (det a b c - det a b d))) = 0 := by
    rw [det_lineMap]
    have hsub := sub_ne_zero.2 hne
    field_simp
    ring
  obtain ⟨s, hs⟩ := exists_lineMap hab hzero
  have hcd : lineMap c d (det a b c / (det a b c - det a b d)) ∈ segment K c d := by
    rw [segment_eq_image_lineMap]
    exact ⟨_, ht, rfl⟩
  refine ⟨_, ?_, hcd⟩
  rw [hs] at hcd ⊢
  rw [segment_eq_image_lineMap]
  refine ⟨s, param_of_zero h' ?_, rfl⟩
  rw [← det_lineMap]
  exact (mem_segment_iff_box.1 hcd).1

omit [IsStrictOrderedRing K] in
/-- Two intervals that meet, the first of them from 0 to 1. -/
theorem unit_interval_touches {s t r : K} (hr : 0 ≤ r ∧ r ≤ 1) (h : r ∈ uIcc s t) :
    (0 ≤ s ∧ s ≤ 1) ∨ (0 ≤ t ∧ t ≤ 1) ∨ (0 : K) ∈ uIcc s t := by
  rw [mem_uIcc] at h ⊢
  rcases h with ⟨hs, ht⟩ | ⟨ht, hs⟩
  · rcases le_or_gt 0 s with h0 | h0
    · exact .inl ⟨h0, hs.trans hr.2⟩
    · exact .inr (.inr (.inl ⟨h0.le, hr.1.trans ht⟩))
  · rcases le_or_gt 0 t with h0 | h0
    · exact .inr (.inl ⟨h0, ht.trans hr.2⟩)
    · exact .inr (.inr (.inr ⟨h0.le, hr.1.trans hs⟩))

/-- Segments that meet touch, where the line of one does not separate the ends of the other. -/
theorem touch_of_not_separates {a b c d x : K × K} (hab : a ≠ b) (h : ¬ Separates a b c d)
    (hx : x ∈ segment K a b) (hx' : x ∈ segment K c d) :
    c ∈ segment K a b ∨ d ∈ segment K a b ∨ a ∈ segment K c d := by
  -- all four points are on the line of the first segment
  have hcd : det a b c = 0 ∧ det a b d = 0 := by
    have hzero := (mem_segment_iff_box.1 hx).1
    rw [segment_eq_image_lineMap] at hx'
    obtain ⟨t, ht, rfl⟩ := hx'
    rw [det_lineMap] at hzero
    exact zero_of_param (not_not.1 h) ht hzero
  obtain ⟨s, rfl⟩ := exists_lineMap hab hcd.1
  obtain ⟨t, rfl⟩ := exists_lineMap hab hcd.2
  rw [← image_segment, segment_eq_uIcc] at hx' ⊢
  rw [segment_eq_image_lineMap] at hx ⊢
  obtain ⟨r, hr, rfl⟩ := hx
  rw [(lineMap_injective K hab).mem_set_image] at hx' ⊢
  rw [(lineMap_injective K hab).mem_set_image]
  rcases unit_interval_touches hr hx' with hs | ht | h0
  · exact .inl hs
  · exact .inr (.inl ht)
  · exact .inr (.inr ⟨0, h0, lineMap_apply_zero a b⟩)

/-- **Two segments meet** exactly when each line separates the ends of the other segment, or
an end of one is on the other. -/
theorem segments_meet_iff {a b c d : K × K} (hab : a ≠ b) (hcd : c ≠ d) :
    (∃ x, x ∈ segment K a b ∧ x ∈ segment K c d) ↔
      Separates a b c d ∧ Separates c d a b ∨ Touch a b c d := by
  constructor
  · rintro ⟨x, hx, hx'⟩
    by_cases h : Separates a b c d
    · by_cases h' : Separates c d a b
      · exact .inl ⟨h, h'⟩
      · rcases touch_of_not_separates hcd h' hx' hx with ha | hb | hc
        · exact .inr (.inr (.inr (.inl ha)))
        · exact .inr (.inr (.inr (.inr hb)))
        · exact .inr (.inl hc)
    · rcases touch_of_not_separates hab h hx hx' with hc | hd | ha
      · exact .inr (.inl hc)
      · exact .inr (.inr (.inl hd))
      · exact .inr (.inr (.inr (.inl ha)))
  · rintro (⟨h, h'⟩ | hc | hd | ha | hb)
    · exact meet_of_separates hab h h'
    · exact ⟨c, hc, left_mem_segment K c d⟩
    · exact ⟨d, hd, right_mem_segment K c d⟩
    · exact ⟨a, left_mem_segment K a b, ha⟩
    · exact ⟨b, right_mem_segment K a b, hb⟩

/-- Segments from one point that meet elsewhere: the shorter is on the longer. -/
theorem end_of_overlap {a b c x : K × K} (hx : x ∈ segment K b a) (hx' : x ∈ segment K b c)
    (hne : x ≠ b) : a ∈ segment K b c ∨ c ∈ segment K b a := by
  rw [segment_eq_image_lineMap] at hx hx'
  obtain ⟨s, hs, rfl⟩ := hx
  obtain ⟨t, ht, heq⟩ := hx'
  rw [lineMap_apply, lineMap_apply, vadd_right_cancel_iff] at heq
  have hs0 : s ≠ 0 := by
    rintro rfl
    exact hne (lineMap_apply_zero b a)
  have ht0 : t ≠ 0 := by
    rintro rfl
    rw [zero_smul] at heq
    refine hne ?_
    rw [lineMap_apply, ← heq, zero_vadd]
  have hspos : 0 < s := lt_of_le_of_ne hs.1 hs0.symm
  have htpos : 0 < t := lt_of_le_of_ne ht.1 ht0.symm
  rcases le_total t s with hle | hle
  · refine .inl ?_
    rw [segment_eq_image_lineMap]
    refine ⟨t / s, ⟨div_nonneg ht.1 hs.1, (div_le_one hspos).2 hle⟩, ?_⟩
    rw [lineMap_apply, div_eq_inv_mul, mul_smul, heq, inv_smul_smul₀ hs0, vsub_vadd]
  · refine .inr ?_
    rw [segment_eq_image_lineMap]
    refine ⟨s / t, ⟨div_nonneg hs.1 ht.1, (div_le_one htpos).2 hle⟩, ?_⟩
    rw [lineMap_apply, div_eq_inv_mul, mul_smul, ← heq, inv_smul_smul₀ ht0, vsub_vadd]

/-! ## Closed polygons -/

section Polygons

variable {ι : Type v} (vertex : ι → K × K) (next : ι → ι)

/-- The edge from a vertex to its successor. -/
def edge (i : ι) : Set (K × K) := segment K (vertex i) (vertex (next i))

/-- No two edges meet, except consecutive edges at the vertex they share. -/
def Simple : Prop :=
  ∀ i j, i ≠ j → ∀ x ∈ edge vertex next i, x ∈ edge vertex next j →
    (j = next i ∧ x = vertex j) ∨ (i = next j ∧ x = vertex i)

/-- No two edges meet that are not consecutive. -/
def ApartDisjoint : Prop :=
  ∀ i j, i ≠ j → j ≠ next i → i ≠ next j →
    ∀ x ∈ edge vertex next i, x ∉ edge vertex next j

/-- No edge turns back into the one before. -/
def NoSpike : Prop :=
  ∀ i, vertex i ∉ edge vertex next (next i) ∧ vertex (next (next i)) ∉ edge vertex next i

variable {vertex next}

theorem vertex_mem_edge (i : ι) : vertex i ∈ edge vertex next i := left_mem_segment K _ _

theorem next_mem_edge (i : ι) : vertex (next i) ∈ edge vertex next i := right_mem_segment K _ _

/-- Consecutive edges without a spike meet at their vertex only. -/
theorem NoSpike.eq_vertex (h : NoSpike vertex next) {i : ι} {x : K × K}
    (hx : x ∈ edge vertex next i) (hx' : x ∈ edge vertex next (next i)) : x = vertex (next i) := by
  by_contra hne
  rw [edge, segment_symm] at hx
  rcases end_of_overlap hx hx' hne with hstart | hend
  · exact (h i).1 hstart
  · rw [segment_symm] at hend
    exact (h i).2 hend

theorem simple_of_noSpike (h : NoSpike vertex next) (hapart : ApartDisjoint vertex next) :
    Simple vertex next := by
  intro i j hij x hx hx'
  by_cases hj : j = next i
  · subst hj
    exact .inl ⟨rfl, h.eq_vertex hx hx'⟩
  · by_cases hi : i = next j
    · subst hi
      exact .inr ⟨rfl, h.eq_vertex hx' hx⟩
    · exact absurd hx' (hapart i j hij hj hi x hx)

omit [IsStrictOrderedRing K] in
theorem Simple.apartDisjoint (h : Simple vertex next) : ApartDisjoint vertex next := by
  intro i j hij hj hi x hx hx'
  rcases h i j hij x hx hx' with ⟨heq, -⟩ | ⟨heq, -⟩
  · exact hj heq
  · exact hi heq

omit [IsStrictOrderedRing K] in
/-- Each pair of edges needs to be looked at in one order only. -/
theorem apartDisjoint_iff_lt [LinearOrder ι] : ApartDisjoint vertex next ↔
    ∀ i j, i < j → j ≠ next i → i ≠ next j →
      ∀ x ∈ edge vertex next i, x ∉ edge vertex next j := by
  constructor
  · exact fun h i j hij => h i j hij.ne
  · intro h i j hij hj hi x hx hx'
    rcases lt_or_gt_of_ne hij with hlt | hgt
    · exact h i j hlt hj hi x hx hx'
    · exact h j i hgt hi hj x hx' hx

/-- Three steps from a vertex do not come back to it, nor do fewer. -/
structure FourOrMore (next : ι → ι) : Prop where
  surjective : Function.Surjective next
  one : ∀ i, next i ≠ i
  two : ∀ i, next (next i) ≠ i
  three : ∀ i, next (next (next i)) ≠ i

/-- The ends of a spike are on edges that are not consecutive. -/
theorem noSpike_of_four (hnext : FourOrMore next) (hapart : ApartDisjoint vertex next) :
    NoSpike vertex next := by
  intro i
  constructor
  · obtain ⟨k, rfl⟩ := hnext.surjective i
    exact hapart k (next (next k)) (hnext.two k).symm (hnext.one (next k)) (hnext.three k).symm
      (vertex (next k)) (next_mem_edge k)
  · intro hmem
    exact hapart i (next (next i)) (hnext.two i).symm (hnext.one (next i)) (hnext.three i).symm
      (vertex (next (next i))) hmem (vertex_mem_edge _)

/-- The vertices of a simple polygon of four vertices or more differ. -/
theorem Simple.injective (h : Simple vertex next) (hnext : FourOrMore next) :
    Function.Injective vertex := by
  -- a vertex does not come back at its successor, as the edge before would meet the edge after
  have hsucc : ∀ i, vertex i ≠ vertex (next i) := by
    intro i heq
    obtain ⟨k, rfl⟩ := hnext.surjective i
    refine h.apartDisjoint k (next (next k)) (hnext.two k).symm (hnext.one (next k))
      (hnext.three k).symm (vertex (next k)) (next_mem_edge k) ?_
    rw [heq]
    exact vertex_mem_edge _
  intro i j heq
  by_contra hij
  have hmem : vertex i ∈ edge vertex next j := by
    rw [heq]
    exact vertex_mem_edge j
  rcases h i j hij _ (vertex_mem_edge i) hmem with ⟨rfl, -⟩ | ⟨rfl, -⟩
  · exact hsucc i heq
  · exact hsucc j heq.symm

/-- **A polygon of four vertices or more is simple** exactly when its vertices differ and no
two edges meet that are not consecutive. -/
theorem simple_iff_of_four (hnext : FourOrMore next) :
    Simple vertex next ↔ Function.Injective vertex ∧ ApartDisjoint vertex next :=
  ⟨fun h => ⟨h.injective hnext, h.apartDisjoint⟩,
    fun h => simple_of_noSpike (noSpike_of_four hnext h.2) h.2⟩

/-- **A triangle is simple** where its doubled area does not vanish. -/
theorem simple_of_triangle (hnext : ∀ i j, i ≠ j → j = next i ∨ i = next j)
    (harea : ∀ i, det (vertex i) (vertex (next i)) (vertex (next (next i))) ≠ 0) :
    Simple vertex next := by
  refine simple_of_noSpike (fun i => ⟨fun hmem => ?_, fun hmem => ?_⟩) ?_
  · refine harea i ?_
    have hdet := (mem_segment_iff_box.1 hmem).1
    rw [det] at hdet ⊢
    linear_combination hdet
  · exact harea i (mem_segment_iff_box.1 hmem).1
  · intro i j hij hj hi
    exact ((hnext i j hij).elim hj hi).elim

omit [IsStrictOrderedRing K] in
/-- A simple polygon stays simple when its vertices are numbered another way round. -/
theorem Simple.renumber {κ : Type*} {next' : κ → κ} {e : κ → ι} (h : Simple vertex next)
    (he : Function.Injective e) (hnext : ∀ k, e (next' k) = next (e k)) :
    Simple (fun k => vertex (e k)) next' := by
  have hedge : ∀ k, edge (fun k => vertex (e k)) next' k = edge vertex next (e k) := by
    intro k
    rw [edge, edge, hnext]
  intro i j hij x hx hx'
  rw [hedge] at hx hx'
  rcases h (e i) (e j) (he.ne hij) x hx hx' with ⟨hj, rfl⟩ | ⟨hi, rfl⟩
  · exact .inl ⟨he (hj.trans (hnext i).symm), rfl⟩
  · exact .inr ⟨he (hi.trans (hnext j).symm), rfl⟩

omit [IsStrictOrderedRing K] in
/-- A simple polygon stays simple in the other direction. -/
theorem Simple.backwards {κ : Type*} {next' : κ → κ} {e : κ → ι} (h : Simple vertex next)
    (he : Function.Injective e) (hnext : ∀ k, next (e (next' k)) = e k) :
    Simple (fun k => vertex (e k)) next' := by
  have hedge : ∀ k, edge (fun k => vertex (e k)) next' k = edge vertex next (e (next' k)) := by
    intro k
    rw [edge, edge, hnext, segment_symm]
  intro i j hij x hx hx'
  rw [hedge] at hx hx'
  have hne : e (next' i) ≠ e (next' j) := by
    intro heq
    have hback := hnext i
    rw [heq, hnext] at hback
    exact hij (he hback.symm)
  rcases h _ _ hne x hx hx' with ⟨hj, rfl⟩ | ⟨hi, rfl⟩
  · rw [hnext] at hj
    exact .inr ⟨(he hj).symm, by rw [hj]⟩
  · rw [hnext] at hi
    exact .inl ⟨(he hi).symm, by rw [hi]⟩

end Polygons

end PlaneSegments
