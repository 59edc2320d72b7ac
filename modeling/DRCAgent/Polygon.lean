/-
# Canonical polygons

`canonical_polygon` of `schemas/common.py`: the closing vertex is dropped, the vertices
are put into counterclockwise order, and the least rotation is taken. A rigid map of
the plane keeps the doubled area up to its sign, so it commutes with the canonical
form, except on polygons that are one repeated point: dropping the closing vertex
twice is not the same there as dropping it once.

Main result:

* `canonicalPolygon_map_canonicalPolygon`: the canonical form of the image of a canonical
  form.
-/
import DRCAgent.LeastRotation
import Mathlib.Algebra.BigOperators.Group.List.Lemmas
import Mathlib.Data.Prod.Lex
import Mathlib.Tactic.LinearCombination
import Mathlib.Tactic.Ring

namespace DRCAgent

open List

/-! ## Points -/

/-- `Point`, compared as the tuple of its coordinates. -/
structure Point where
  x : ℤ
  y : ℤ
  deriving DecidableEq

/-- The lexicographic order tells points apart. -/
theorem Point.toLex_injective : Function.Injective fun p : Point => toLex (p.x, p.y) := by
  rintro ⟨x, y⟩ ⟨x', y'⟩ h
  obtain ⟨rfl, rfl⟩ := Prod.mk.inj (toLex.injective h)
  rfl

instance : LinearOrder Point := LinearOrder.lift' _ Point.toLex_injective

/-- `a.x * b.y - b.x * a.y` -/
def cross (a b : Point) : ℤ := a.x * b.y - b.x * a.y

/-- The sum of `cross(raw[i], raw[(i + 1) % len(raw)])`. -/
def area2 (raw : List Point) : ℤ := (zipWith cross raw (raw.rotate 1)).sum

/-! ## The canonical form -/

/-- `raw.pop()`, where the list ends with its first vertex. -/
def dropClosing (raw : List Point) : List Point :=
  if 1 < raw.length ∧ raw.head? = raw.getLast? then raw.dropLast else raw

/-- The vertices counterclockwise. -/
def orient (raw : List Point) : List Point := if area2 raw < 0 then raw.reverse else raw

/-- **`canonical_polygon`.** -/
def canonicalPolygon (points : List Point) : List Point :=
  let raw := dropClosing points
  if raw.length < 3 then raw else Necklace.least (orient raw)

/-- Three or more vertices at one point. -/
def OnePoint (points : List Point) : Prop := 3 ≤ points.length ∧ ∀ p ∈ points, ∀ q ∈ points, p = q

instance (points : List Point) : Decidable (OnePoint points) := by
  unfold OnePoint
  infer_instance

/-! ## The doubled area -/

section Area

variable {s s' : List Point}

theorem area2_rotate (s : List Point) (n : ℕ) : area2 (s.rotate n) = area2 s := by
  have hrotate : (s.rotate n).rotate 1 = (s.rotate 1).rotate n := by
    rw [rotate_rotate, rotate_rotate, Nat.add_comm]
  rw [area2, area2, hrotate, ← zipWith_rotate_distrib cross s (s.rotate 1) n (by simp)]
  exact (rotate_perm _ n).sum_eq

/-- A rotation keeps the area. -/
theorem area2_isRotated (h : s ~r s') : area2 s = area2 s' := by
  obtain ⟨n, rfl⟩ := h
  exact (area2_rotate s n).symm

theorem cross_swap (a b : Point) : cross a b = -cross b a := by
  rw [cross, cross]
  ring

theorem sum_zipWith_cross_swap : ∀ s t : List Point,
    (zipWith cross s t).sum = -(zipWith cross t s).sum
  | [], t => by simp
  | a :: s, [] => by simp
  | a :: s, b :: t => by
      rw [zipWith_cons_cons, zipWith_cons_cons, sum_cons, sum_cons, cross_swap a b,
        sum_zipWith_cross_swap s t]
      ring

/-- The other direction has the other sign. -/
theorem area2_reverse (s : List Point) : area2 s.reverse = -area2 s := by
  set t := s.rotate (s.length - 1 % s.length) with ht
  have hback : t.rotate 1 = s := by
    rw [ht, rotate_rotate]
    rcases Nat.lt_or_ge s.length 2 with hlt | hge
    · match s with
      | [] => rfl
      | [a] => exact rotate_singleton a _
    · rw [Nat.mod_eq_of_lt (by omega), Nat.sub_add_cancel (by omega), rotate_length]
  have hlength : s.length = t.length := by rw [ht, length_rotate]
  rw [area2, rotate_reverse, ← ht, ← reverse_zipWith hlength, sum_reverse, sum_zipWith_cross_swap]
  have harea : (zipWith cross t s).sum = area2 t := by rw [area2, hback]
  rw [harea, ht, area2_rotate]

/-- A map that changes the cross product by a factor and a difference of two values
scales the area. -/
theorem area2_map {f : Point → Point} {σ : ℤ} {g : Point → ℤ}
    (hf : ∀ p q, cross (f p) (f q) = σ * cross p q + (g p - g q)) (s : List Point) :
    area2 (s.map f) = σ * area2 s := by
  have hsum : ∀ s t : List Point, s.length = t.length →
      (zipWith cross (s.map f) (t.map f)).sum =
        σ * (zipWith cross s t).sum + ((s.map g).sum - (t.map g).sum) := by
    intro s
    induction s with
    | nil =>
      intro t ht
      rw [eq_nil_of_length_eq_zero ht.symm]
      simp
    | cons a s ih =>
      intro t ht
      cases t with
      | nil => cases ht
      | cons b t =>
        simp only [map_cons, zipWith_cons_cons, sum_cons, hf]
        rw [ih t (Nat.succ.inj ht)]
        ring
  have hrotate : ((s.rotate 1).map g).sum = (s.map g).sum :=
    ((rotate_perm s 1).map g).sum_eq
  rw [area2, ← map_rotate, hsum s (s.rotate 1) (by simp), hrotate, sub_self, add_zero, area2]

end Area

/-! ## Rigid maps -/

/-- A map of the plane that keeps points apart and keeps the doubled area up to a sign. -/
structure Rigid (f : Point → Point) : Prop where
  injective : Function.Injective f
  area : ∃ σ : ℤ, (σ = 1 ∨ σ = -1) ∧ ∀ s, area2 (s.map f) = σ * area2 s

theorem Rigid.comp {f g : Point → Point} (hf : Rigid f) (hg : Rigid g) : Rigid (f ∘ g) := by
  obtain ⟨σ, hσ, harea⟩ := hf.area
  obtain ⟨τ, hτ, harea'⟩ := hg.area
  refine ⟨hf.injective.comp hg.injective, σ * τ, ?_, fun s => ?_⟩
  · rcases hσ with rfl | rfl <;> rcases hτ with rfl | rfl <;> simp
  · rw [← map_map, harea, harea', mul_assoc]

section Canonical

variable {f : Point → Point} {s s' : List Point}

/-- Orientation respects rotations. -/
theorem orient_isRotated (h : s ~r s') : orient s ~r orient s' := by
  rw [orient, orient, area2_isRotated h]
  split_ifs
  · exact h.reverse
  · exact h

/-- Orienting before a rigid map makes no difference after it. -/
theorem orient_map_orient (hf : Rigid f) (s : List Point) :
    orient ((orient s).map f) = orient (s.map f) := by
  obtain ⟨σ, hσ, harea⟩ := hf.area
  by_cases hneg : area2 s < 0
  · have horient : orient s = s.reverse := if_pos hneg
    rw [horient, map_reverse, orient, orient, area2_reverse, harea]
    rcases hσ with rfl | rfl
    · rw [if_neg (by omega), if_pos (by omega)]
    · rw [if_pos (by omega), if_neg (by omega), reverse_reverse]
  · have horient : orient s = s := if_neg hneg
    rw [horient]

/-- A rigid map keeps the closing point. -/
theorem dropClosing_map (hf : Rigid f) (s : List Point) :
    dropClosing (s.map f) = (dropClosing s).map f := by
  have hclosed : (s.map f).head? = (s.map f).getLast? ↔ s.head? = s.getLast? := by
    rw [head?_map, getLast?_map]
    exact (Option.map_injective hf.injective).eq_iff
  by_cases hends : 1 < s.length ∧ s.head? = s.getLast?
  · have hends' : 1 < (s.map f).length ∧ (s.map f).head? = (s.map f).getLast? :=
      ⟨by rw [length_map]; exact hends.1, hclosed.2 hends.2⟩
    rw [dropClosing, dropClosing, if_pos hends, if_pos hends', map_dropLast]
  · have hends' : ¬ (1 < (s.map f).length ∧ (s.map f).head? = (s.map f).getLast?) := by
      rw [length_map, hclosed]
      exact hends
    rw [dropClosing, dropClosing, if_neg hends, if_neg hends']

theorem dropClosing_subset : ∀ p ∈ dropClosing s, p ∈ s := by
  intro p hp
  rw [dropClosing] at hp
  split_ifs at hp
  · exact dropLast_subset s hp
  · exact hp

/-- A closing vertex is the first one again. -/
theorem mem_of_mem_dropClosing {p : Point} (hp : p ∈ s) : p ∈ dropClosing s := by
  rw [dropClosing]
  split_ifs with hclosed
  · obtain ⟨hlength, hends⟩ := hclosed
    match s, hlength with
    | a :: b :: t, _ =>
      rw [dropLast_cons_cons]
      rcases eq_nil_or_concat' (b :: t) with hnil | ⟨init, last, hconcat⟩
      · cases hnil
      · rw [hconcat] at hp hends ⊢
        rw [dropLast_concat]
        have hlast : a = last := by
          rw [← cons_append, getLast?_concat] at hends
          exact Option.some.inj hends
        rcases mem_cons.1 hp with rfl | hp
        · exact mem_cons_self
        · rcases mem_append.1 hp with hp | hp
          · exact mem_cons_of_mem _ hp
          · rw [mem_singleton.1 hp, ← hlast]
            exact mem_cons_self
  · exact hp

theorem length_dropClosing_le : (dropClosing s).length ≤ s.length := by
  rw [dropClosing]
  split_ifs
  · rw [length_dropLast]
    omega
  · exact le_rfl

theorem canonicalPolygon_of_lt (h : (dropClosing s).length < 3) :
    canonicalPolygon s = dropClosing s := if_pos h

theorem canonicalPolygon_of_le (h : 3 ≤ (dropClosing s).length) :
    canonicalPolygon s = Necklace.least (orient (dropClosing s)) := if_neg (not_lt.2 h)

/-- Orientation keeps the points. -/
theorem mem_orient {p : Point} : p ∈ orient s ↔ p ∈ s := by
  rw [orient]
  split_ifs
  · exact mem_reverse
  · rfl

theorem length_orient (s : List Point) : (orient s).length = s.length := by
  rw [orient]
  split_ifs
  · exact length_reverse
  · rfl

/-- The canonical form has the same vertices. -/
theorem mem_canonicalPolygon {p : Point} : p ∈ canonicalPolygon s ↔ p ∈ s := by
  have hdrop : p ∈ dropClosing s ↔ p ∈ s := ⟨dropClosing_subset p, mem_of_mem_dropClosing⟩
  rcases Nat.lt_or_ge (dropClosing s).length 3 with hshort | hlong
  · rw [canonicalPolygon_of_lt hshort, hdrop]
  · rw [canonicalPolygon_of_le hlong, Necklace.mem_least, mem_orient, hdrop]

theorem dropClosing_replicate (n : ℕ) (a : Point) :
    dropClosing (replicate (n + 2) a) = replicate (n + 1) a := by
  have hclosed : 1 < (replicate (n + 2) a).length ∧
      (replicate (n + 2) a).head? = (replicate (n + 2) a).getLast? := by
    refine ⟨by simp, ?_⟩
    rw [getLast?_replicate, head?_replicate]
  rw [dropClosing, if_pos hclosed, dropLast_replicate]
  rfl

/-- A canonical form has no closing vertex, unless it is one repeated point. -/
theorem dropClosing_canonicalPolygon (h : ¬ OnePoint s) :
    dropClosing (canonicalPolygon s) = canonicalPolygon s := by
  have hapart : ∀ t : List Point, (∀ p, p ∈ t ↔ p ∈ s) → 3 ≤ s.length →
      ¬ ∀ p ∈ t, ∀ q ∈ t, p = q := fun t ht hlength hall =>
    h ⟨hlength, fun p hp q hq => hall p ((ht p).2 hp) q ((ht q).2 hq)⟩
  have hmem : ∀ p, p ∈ dropClosing s ↔ p ∈ s :=
    fun p => ⟨dropClosing_subset p, mem_of_mem_dropClosing⟩
  by_cases hshort : (dropClosing s).length < 3
  · rw [canonicalPolygon_of_lt hshort]
    rw [dropClosing]
    split_ifs with hclosed
    · exfalso
      obtain ⟨hlength, hends⟩ := hclosed
      obtain ⟨a, b, hab⟩ : ∃ a b, dropClosing s = [a, b] := by
        match hs : dropClosing s, hlength, hshort with
        | [a, b], _, _ => exact ⟨a, b, rfl⟩
      rw [hab] at hends
      have hsame : a = b := by simpa using hends
      have hall : ∀ p ∈ s, p = a := by
        intro p hp
        have hp' := (hmem p).2 hp
        rw [hab, ← hsame] at hp'
        simpa using hp'
      rcases Nat.lt_or_ge s.length 3 with hlt | hge
      · -- two copies of a point leave one, and not two
        have htwo : s.length = 2 := by
          have hle := length_dropClosing_le (s := s)
          rw [hab] at hle
          simp only [length_cons, length_nil] at hle
          omega
        have hdropped : dropClosing s = [a] := by
          rw [eq_replicate_iff.2 ⟨htwo, hall⟩]
          exact dropClosing_replicate 0 a
        rw [hdropped] at hab
        cases hab
      · exact h ⟨hge, fun p hp q hq => (hall p hp).trans (hall q hq).symm⟩
    · rfl
  · have hlong : 3 ≤ (dropClosing s).length := not_lt.1 hshort
    rw [canonicalPolygon_of_le hlong, dropClosing]
    refine if_neg ?_
    rintro ⟨-, hends⟩
    have hsame := Necklace.forall_eq_of_head_eq_getLast hends (by rw [length_orient]; omega)
    refine hapart (orient (dropClosing s)) (fun p => mem_orient.trans (hmem p)) ?_ hsame
    exact hlong.trans length_dropClosing_le

/-- **Rigid maps and canonical forms.** -/
theorem canonicalPolygon_map_canonicalPolygon (hf : Rigid f) (h : ¬ OnePoint s) :
    canonicalPolygon ((canonicalPolygon s).map f) = canonicalPolygon (s.map f) := by
  have hdrop : dropClosing ((canonicalPolygon s).map f) = (canonicalPolygon s).map f := by
    rw [dropClosing_map hf, dropClosing_canonicalPolygon h]
  by_cases hshort : (dropClosing s).length < 3
  · have hform := canonicalPolygon_of_lt hshort
    rw [canonicalPolygon_of_lt (by rwa [hdrop, hform, length_map]), hdrop, hform,
      canonicalPolygon_of_lt (by rwa [dropClosing_map hf, length_map]), dropClosing_map hf]
  · have hlong : 3 ≤ (dropClosing s).length := not_lt.1 hshort
    have hform := canonicalPolygon_of_le hlong
    have hlength : (canonicalPolygon s).length = (dropClosing s).length := by
      rw [hform, Necklace.length_least, length_orient]
    rw [canonicalPolygon_of_le (by rwa [hdrop, length_map, hlength]), hdrop, hform,
      canonicalPolygon_of_le (by rwa [dropClosing_map hf, length_map]), dropClosing_map hf,
      Necklace.least_eq_iff, ← orient_map_orient hf (dropClosing s)]
    exact orient_isRotated ((Necklace.isRotated_least _).symm.map f)

end Canonical

/-! ## One repeated point -/

section OnePoint

variable {a : Point}

/-- The canonical form of one repeated point is one vertex shorter. -/
theorem canonicalPolygon_replicate (n : ℕ) (a : Point) :
    canonicalPolygon (replicate (n + 2) a) = replicate (n + 1) a := by
  rcases Nat.lt_or_ge (n + 1) 3 with hlt | hge
  · rw [canonicalPolygon_of_lt (by rwa [dropClosing_replicate, length_replicate]),
      dropClosing_replicate]
  · rw [canonicalPolygon_of_le (by rwa [dropClosing_replicate, length_replicate]),
      dropClosing_replicate]
    refine eq_replicate_iff.2 ⟨?_, fun p hp => ?_⟩
    · rw [Necklace.length_least, length_orient, length_replicate]
    · rw [Necklace.mem_least, mem_orient] at hp
      exact eq_of_mem_replicate hp

/-- A polygon of one point repeats it. -/
theorem OnePoint.eq_replicate {s : List Point} (h : OnePoint s) :
    ∃ n a, s = replicate (n + 3) a := by
  obtain ⟨hlength, hall⟩ := h
  obtain ⟨a, ha⟩ := exists_mem_of_length_pos (show 0 < s.length by omega)
  refine ⟨s.length - 3, a, eq_replicate_iff.2 ⟨by omega, fun p hp => hall p hp a ha⟩⟩

end OnePoint

end DRCAgent
