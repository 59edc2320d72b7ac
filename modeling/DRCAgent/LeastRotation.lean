/-
# The least rotation of a list

A small library: a cyclic list is represented by its lexicographically least
rotation.

* `least_eq_iff`: two lists have the same representative exactly when they are
  rotations of each other.
* `SameCycle`: cyclic lists up to their direction.
* `forall_eq_of_head_eq_getLast`: a representative of two or more elements begins
  and ends with the same element only if all its elements are the same.
-/
import Mathlib.Data.List.Lex
import Mathlib.Data.List.MinMax
import Mathlib.Data.List.Rotate

namespace Necklace

open List

universe u

variable {α : Type u} [LinearOrder α]

/-- `[raw[i:] + raw[:i] for i in range(len(raw))]` -/
def rotations (l : List α) : List (List α) :=
  (List.range l.length).map fun i => l.drop i ++ l.take i

/-- `min(rotations)`, and the empty list for an empty one. -/
def least (l : List α) : List α := (rotations l).foldl min l

variable {l l' : List α} {a : α}

omit [LinearOrder α] in
theorem mem_rotations (hl : l ≠ []) : l' ∈ rotations l ↔ l ~r l' := by
  rw [rotations, mem_map]
  constructor
  · rintro ⟨i, hi, rfl⟩
    refine ⟨i, ?_⟩
    rw [rotate_eq_drop_append_take (mem_range.1 hi).le]
  · rintro ⟨n, rfl⟩
    have hlt : n % l.length < l.length := Nat.mod_lt _ (length_pos_iff.2 hl)
    refine ⟨n % l.length, mem_range.2 hlt, ?_⟩
    rw [← rotate_eq_drop_append_take hlt.le, rotate_mod]

theorem least_nil : least ([] : List α) = [] := rfl

/-- A running minimum is one of its arguments and bounds all of them. -/
theorem foldl_min_spec {β : Type u} [LinearOrder β] (xs : List β) (x : β) :
    (xs.foldl min x = x ∨ xs.foldl min x ∈ xs) ∧ xs.foldl min x ≤ x ∧
      ∀ y ∈ xs, xs.foldl min x ≤ y := by
  induction xs generalizing x with
  | nil => exact ⟨.inl rfl, le_rfl, fun y hy => absurd hy not_mem_nil⟩
  | cons z xs ih =>
    obtain ⟨hmem, hle, hall⟩ := ih (min x z)
    rw [foldl_cons]
    refine ⟨?_, hle.trans (min_le_left _ _), fun y hy => ?_⟩
    · rcases hmem with heq | hmem
      · rcases min_choice x z with hx | hz
        · exact .inl (heq.trans hx)
        · refine .inr ?_
          rw [heq, hz]
          exact mem_cons_self
      · exact .inr (mem_cons_of_mem _ hmem)
    · rcases mem_cons.1 hy with rfl | hy
      · exact hle.trans (min_le_right _ _)
      · exact hall y hy

theorem isRotated_least (l : List α) : l ~r least l := by
  rcases eq_or_ne l [] with rfl | hl
  · exact IsRotated.refl _
  · rcases (foldl_min_spec (rotations l) l).1 with heq | hmem
    · rw [least, heq]
    · exact (mem_rotations hl).1 hmem

theorem least_le (h : l ~r l') : least l ≤ l' := by
  rcases eq_or_ne l [] with rfl | hl
  · rw [isRotated_nil_iff'] at h
    rw [← h, least_nil]
  · exact (foldl_min_spec (rotations l) l).2.2 l' ((mem_rotations hl).2 h)

/-- **The representative of a cyclic list.** -/
theorem least_eq_iff : least l = least l' ↔ l ~r l' := by
  constructor
  · intro h
    exact (isRotated_least l).trans (h ▸ (isRotated_least l').symm)
  · intro h
    refine le_antisymm (least_le (h.trans (isRotated_least l'))) ?_
    exact least_le (h.symm.trans (isRotated_least l))

theorem length_least (l : List α) : (least l).length = l.length :=
  (isRotated_least l).perm.length_eq.symm

theorem mem_least : a ∈ least l ↔ a ∈ l := (isRotated_least l).mem_iff.symm

/-! ## Cyclic lists without a direction -/

section SameCycle

variable {β : Type u} {s t r : List β}

/-- Rotations of each other, in one direction or the other. -/
def SameCycle (s t : List β) : Prop := s ~r t ∨ s ~r t.reverse

theorem SameCycle.refl (s : List β) : SameCycle s s := .inl (IsRotated.refl s)

theorem SameCycle.symm (h : SameCycle s t) : SameCycle t s := by
  rcases h with h | h
  · exact .inl h.symm
  · exact .inr (isRotated_reverse_comm_iff.1 h.symm)

theorem SameCycle.trans (h : SameCycle s t) (h' : SameCycle t r) : SameCycle s r := by
  rcases h with h | h
  · rcases h' with h' | h'
    · exact .inl (h.trans h')
    · exact .inr (h.trans h')
  · rcases h' with h' | h'
    · exact .inr (h.trans h'.reverse)
    · exact .inl (h.trans (isRotated_reverse_comm_iff.2 h'))

theorem SameCycle.length_eq (h : SameCycle s t) : s.length = t.length := by
  rcases h with h | h
  · exact h.perm.length_eq
  · rw [h.perm.length_eq, length_reverse]

/-- The members are the rotations of both directions. -/
theorem mem_rotations_append (hs : s ≠ []) :
    t ∈ rotations s ++ rotations s.reverse ↔ SameCycle s t := by
  rw [mem_append, mem_rotations hs, mem_rotations (reverse_ne_nil_iff.2 hs),
    isRotated_reverse_comm_iff, SameCycle]

end SameCycle

/-! ## Representatives that begin and end alike -/

theorem cons_le_cons {b : α} (h : a :: l ≤ b :: l') : a < b ∨ a = b ∧ l ≤ l' := by
  rcases h.lt_or_eq with hlt | heq
  · cases (hlt : List.Lex (· < ·) (a :: l) (b :: l')) with
    | rel hab => exact .inl hab
    | cons hrest => exact .inr ⟨rfl, le_of_lt (show l < l' from hrest)⟩
  · obtain ⟨hab, hrest⟩ := cons.inj heq
    exact .inr ⟨hab, hrest.le⟩

/-- The representative begins with its least element. -/
theorem head_least_le (h : least l = a :: l') : ∀ x ∈ l, a ≤ x := by
  intro x hx
  obtain ⟨left, right, rfl⟩ := append_of_mem hx
  have hle : least (left ++ x :: right) ≤ x :: right ++ left := least_le isRotated_append
  rw [h, cons_append] at hle
  rcases cons_le_cons hle with hlt | ⟨heq, -⟩
  · exact hlt.le
  · exact heq.le

/-- A list that is at most its own shift by a lower bound is constant. -/
theorem forall_eq_of_le_shift {t : List α} (hlower : ∀ x ∈ t, a ≤ x)
    (hle : t ≤ a :: t.dropLast) : ∀ x ∈ t, x = a := by
  induction t with
  | nil => exact fun x hx => absurd hx not_mem_nil
  | cons y t ih =>
    have hy : y = a ∧ t ≤ (y :: t).dropLast := by
      rcases cons_le_cons hle with hlt | heq
      · exact absurd (hlower y mem_cons_self) (not_le.2 hlt)
      · exact heq
    obtain ⟨rfl, hrest⟩ := hy
    have ht : ∀ x ∈ t, x = y := by
      cases t with
      | nil => exact fun x hx => absurd hx not_mem_nil
      | cons z t => exact ih (fun x hx => hlower x (mem_cons_of_mem _ hx)) hrest
    intro x hx
    rcases mem_cons.1 hx with rfl | hx
    · rfl
    · exact ht x hx

/-- **A representative that begins and ends alike.** -/
theorem forall_eq_of_head_eq_getLast (hclosed : (least l).head? = (least l).getLast?)
    (hlength : 2 ≤ l.length) : ∀ x ∈ l, ∀ y ∈ l, x = y := by
  have hlength' : 2 ≤ (least l).length := by rwa [length_least]
  obtain ⟨a, t, ht⟩ : ∃ a t, least l = a :: t := by
    cases hleast : least l with
    | nil => rw [hleast] at hlength'; cases hlength'
    | cons a t => exact ⟨a, t, rfl⟩
  have hlower : ∀ x ∈ l, a ≤ x := head_least_le ht
  have htne : t ≠ [] := by
    rintro rfl
    rw [ht] at hlength'
    simp at hlength'
  have hlast : t.getLast htne = a := by
    rw [ht, head?_cons, getLast?_cons, getLast?_eq_some_getLast htne] at hclosed
    exact (Option.some.inj hclosed).symm
  -- the rotation that brings the last element to the front
  have hrotated : l ~r a :: a :: t.dropLast := by
    refine (isRotated_least l).trans ?_
    have hsplit : a :: t = (a :: t.dropLast) ++ [a] := by
      rw [cons_append, ← hlast, dropLast_concat_getLast htne]
    rw [ht]
    nth_rewrite 1 [hsplit]
    exact isRotated_concat a (a :: t.dropLast)
  have hle := least_le hrotated
  rw [ht] at hle
  have hshift : t ≤ a :: t.dropLast := by
    rcases cons_le_cons hle with hlt | ⟨-, hrest⟩
    · exact absurd hlt (lt_irrefl a)
    · exact hrest
  have hall : ∀ x ∈ l, x = a := by
    intro x hx
    rw [← mem_least, ht] at hx
    rcases mem_cons.1 hx with rfl | hx
    · rfl
    · refine forall_eq_of_le_shift (fun z hz => hlower z ?_) hshift x hx
      rw [← mem_least, ht]
      exact mem_cons_of_mem _ hz
  intro x hx y hy
  rw [hall x hx, hall y hy]

end Necklace
