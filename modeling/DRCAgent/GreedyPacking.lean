/-
# Greedy packing with one open group

Items arrive in order. An item that is too large on its own closes the open group
and is left out; any other item joins the open group when it fits there, and
otherwise closes it and opens a new one. A last flush closes what is still open.

Main results:
* `flatten_pack`: the groups hold exactly the items that are not too large, in order
* `pack_forall`: a property of single items that a fitting item keeps holds of every group
-/
import Mathlib.Data.List.Basic

namespace DRCAgent.GreedyPacking

variable {α : Type*}

/-- The groups closed so far and the open one. -/
structure State (α : Type*) where
  closed : List (List α) := []
  current : List α := []

/-- Close the open group, unless it is empty. -/
def State.flush (s : State α) : State α :=
  if s.current = [] then s else { closed := s.closed ++ [s.current] }

section Pack

variable (tooLarge : α → Prop) [DecidablePred tooLarge]
  (fits : List α → α → Prop) [DecidableRel fits]

/-- One item. -/
def State.add (s : State α) (x : α) : State α :=
  if tooLarge x then s.flush
  else
    let s := if fits s.current x then s else s.flush
    { s with current := s.current ++ [x] }

/-- The groups of a list of items. -/
def pack (l : List α) : List (List α) :=
  ((l.foldl (State.add tooLarge fits) {}).flush).closed

end Pack

/-! ## What the groups hold -/

/-- All items placed so far. -/
def State.contents (s : State α) : List α := s.closed.flatten ++ s.current

/-- Closing a group loses nothing. -/
theorem State.contents_flush (s : State α) : s.flush.contents = s.contents := by
  rw [flush]
  split
  · rfl
  · simp [contents]

theorem State.current_flush (s : State α) : s.flush.current = [] := by
  rw [flush]
  split
  · assumption
  · rfl

variable {tooLarge : α → Prop} [DecidablePred tooLarge]
  {fits : List α → α → Prop} [DecidableRel fits]

/-- An item is kept unless it is too large. -/
theorem State.contents_add (s : State α) (x : α) :
    (s.add tooLarge fits x).contents = s.contents ++ if tooLarge x then [] else [x] := by
  rw [add]
  by_cases hlarge : tooLarge x
  · rw [if_pos hlarge, if_pos hlarge, contents_flush, List.append_nil]
  · rw [if_neg hlarge, if_neg hlarge]
    by_cases hfits : fits s.current x
    · simp [contents, hfits]
    · rw [if_neg hfits, ← contents_flush s]
      simp [contents]

/-- So are the items of a list. -/
theorem State.contents_foldl (l : List α) (s : State α) :
    (l.foldl (State.add tooLarge fits) s).contents =
      s.contents ++ l.filter (fun x => ¬ tooLarge x) := by
  induction l generalizing s with
  | nil => simp
  | cons x l ih =>
    rw [List.foldl_cons, ih, contents_add, List.filter_cons]
    by_cases hlarge : tooLarge x
    · simp [hlarge]
    · simp [hlarge]

/-- The groups hold exactly the items that are not too large, in order. -/
theorem flatten_pack (l : List α) :
    (pack tooLarge fits l).flatten = l.filter (fun x => ¬ tooLarge x) := by
  have hcontents : (l.foldl (State.add tooLarge fits) {}).contents = _ :=
    State.contents_foldl l {}
  rw [← State.contents_flush, State.contents, State.current_flush, List.append_nil] at hcontents
  rw [pack, hcontents]
  simp [State.contents]

/-! ## What every group satisfies -/

/-- Every group, closed or open and not empty, has the property. -/
structure State.Holds (P : List α → Prop) (s : State α) : Prop where
  closed : ∀ group ∈ s.closed, group ≠ [] ∧ P group
  current : s.current ≠ [] → P s.current

/-- Closing a group keeps what holds of groups. -/
theorem State.Holds.flush {P : List α → Prop} {s : State α} (hs : s.Holds P) :
    s.flush.Holds P := by
  rw [State.flush]
  split
  · exact hs
  · rename_i hcurrent
    refine ⟨fun group hgroup => ?_, fun h => absurd rfl h⟩
    rcases List.mem_append.mp hgroup with hgroup | hgroup
    · exact hs.closed group hgroup
    · rw [List.mem_singleton.mp hgroup]
      exact ⟨hcurrent, hs.current hcurrent⟩

variable {P : List α → Prop} (hsingle : ∀ x, ¬ tooLarge x → P [x])
  (hfits : ∀ group x, ¬ tooLarge x → fits group x → P group → P (group ++ [x]))

include hsingle hfits

/-- So does an item. -/
theorem State.Holds.add {s : State α} (hs : s.Holds P) (x : α) :
    (s.add tooLarge fits x).Holds P := by
  rw [State.add]
  by_cases hlarge : tooLarge x
  · rw [if_pos hlarge]
    exact hs.flush
  rw [if_neg hlarge]
  by_cases hfit : fits s.current x
  · simp only [if_pos hfit]
    refine ⟨hs.closed, fun _ => ?_⟩
    -- an empty open group promises nothing, so the item starts it on its own
    by_cases hcurrent : s.current = []
    · show P (s.current ++ [x])
      rw [hcurrent]
      exact hsingle x hlarge
    · exact hfits _ _ hlarge hfit (hs.current hcurrent)
  · simp only [if_neg hfit]
    refine ⟨hs.flush.closed, fun _ => ?_⟩
    show P (s.flush.current ++ [x])
    rw [State.current_flush]
    exact hsingle x hlarge

/-- So does a list. -/
theorem State.Holds.foldl (l : List α) {s : State α} (hs : s.Holds P) :
    (l.foldl (State.add tooLarge fits) s).Holds P := by
  induction l generalizing s with
  | nil => exact hs
  | cons x l ih => exact ih (hs.add hsingle hfits x)

/-- A property of the single items that a fitting item keeps holds of every group. -/
theorem pack_forall (l : List α) :
    ∀ group ∈ pack tooLarge fits l, group ≠ [] ∧ P group := by
  have hempty : State.Holds P ({} : State α) :=
    ⟨fun _ h => absurd h List.not_mem_nil, fun h => absurd rfl h⟩
  exact ((hempty.foldl hsingle hfits l).flush).closed

end DRCAgent.GreedyPacking
