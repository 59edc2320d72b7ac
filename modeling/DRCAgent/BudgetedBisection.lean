/-
# Bisection under a replay budget

A list of suspects is halved as long as a replay of one half fails again: the failing
half becomes the list to halve. A replay costs one unit of a budget, the first half is
replayed before the second, and an empty half is not replayed. The replayed program is
told what was replayed before it, so its answers may depend on the history.

Main results:
* `bisect_budget`: no more replays than the budget
* `bisect_sound`: what is left is the whole list or a contiguous part whose replay failed
* `bisect_single`: a single culprit is isolated by two replays for each halving
-/
import Mathlib.Data.List.Infix
import Mathlib.Data.Nat.Log

namespace DRCAgent.BudgetedBisection

open List

variable {α : Type*}

/-- The list being halved, and the replays so far with their answers. -/
structure State (α : Type*) where
  current : List α
  replays : List (List α × Bool) := []

/-- One replay more. -/
def State.asked (s : State α) (half : List α) (failed : Bool) : State α :=
  { s with replays := s.replays ++ [(half, failed)] }

@[simp] theorem State.length_asked (s : State α) (half : List α) (failed : Bool) :
    (s.asked half failed).replays.length = s.replays.length + 1 := by
  simp [asked]

theorem State.prefix_asked (s : State α) (half : List α) (failed : Bool) :
    s.replays <+: (s.asked half failed).replays :=
  prefix_append _ _

theorem State.mem_asked (s : State α) (half : List α) (failed : Bool) :
    (half, failed) ∈ (s.asked half failed).replays := by
  simp [asked]

/-- The two halves of a list, the first one rounded down. -/
def halves (l : List α) : List (List α) :=
  [l.take (l.length / 2), l.drop (l.length / 2)]

section Bisect

variable (replay : List (List α × Bool) → List α → Bool) (budget : ℕ)

/-- The first of some lists whose replay fails, with the state after the replays. -/
def firstFailing : List (List α) → State α → Option (List α) × State α
  | [], s => (none, s)
  | half :: rest, s =>
    if half.isEmpty then firstFailing rest s
    else
      let failed := replay s.replays half
      let s := s.asked half failed
      if failed then (some half, s)
      else if budget ≤ s.replays.length then (none, s)
      else firstFailing rest s

variable {replay budget} in
/-- An empty half is skipped. -/
theorem firstFailing_empty {half : List α} (hempty : half.isEmpty = true)
    (rest : List (List α)) (s : State α) :
    firstFailing replay budget (half :: rest) s = firstFailing replay budget rest s := by
  rw [firstFailing, if_pos hempty]

variable {replay budget} in
/-- A half whose replay fails ends the round. -/
theorem firstFailing_hit {half : List α} {s : State α} (hempty : ¬ half.isEmpty = true)
    (hfailed : replay s.replays half = true) (rest : List (List α)) :
    firstFailing replay budget (half :: rest) s = (some half, s.asked half true) := by
  rw [firstFailing, if_neg hempty]
  simp only [hfailed, if_true]

variable {replay budget} in
/-- After a half whose replay passes, the budget decides. -/
theorem firstFailing_miss {half : List α} {s : State α} (hempty : ¬ half.isEmpty = true)
    (hfailed : replay s.replays half = false) (rest : List (List α)) :
    firstFailing replay budget (half :: rest) s =
      if budget ≤ s.replays.length + 1 then (none, s.asked half false)
      else firstFailing replay budget rest (s.asked half false) := by
  rw [firstFailing, if_neg hempty]
  simp only [hfailed, Bool.false_eq_true, if_false, State.length_asked]

/-- What the replays of one round leave. -/
structure RoundSpec (l : List (List α)) (s : State α) (r : Option (List α) × State α) :
    Prop where
  current : r.2.current = s.current
  found : ∀ found, r.1 = some found → found ∈ l ∧ (found, true) ∈ r.2.replays
  replays : s.replays <+: r.2.replays
  budget : s.replays.length < budget → r.2.replays.length ≤ budget

theorem firstFailing_spec (l : List (List α)) (s : State α) :
    RoundSpec budget l s (firstFailing replay budget l s) := by
  induction l generalizing s with
  | nil =>
    exact ⟨rfl, fun _ h => absurd h (by simp [firstFailing]), prefix_rfl, Nat.le_of_lt⟩
  | cons half rest ih =>
    by_cases hempty : half.isEmpty = true
    -- an empty half costs no replay
    · rw [firstFailing_empty hempty]
      have h := ih s
      exact ⟨h.current, fun found hf => ⟨mem_cons_of_mem _ (h.found found hf).1,
        (h.found found hf).2⟩, h.replays, h.budget⟩
    cases hfailed : replay s.replays half with
    | true =>
      rw [firstFailing_hit hempty hfailed]
      refine ⟨rfl, fun found hf => ?_, s.prefix_asked _ _, fun h => ?_⟩
      · cases hf
        exact ⟨mem_cons_self, s.mem_asked _ _⟩
      · rw [State.length_asked]
        omega
    | false =>
      rw [firstFailing_miss hempty hfailed]
      -- the replay may have been the last one
      by_cases hbudget : budget ≤ s.replays.length + 1
      · rw [if_pos hbudget]
        refine ⟨rfl, fun _ h => absurd h (by simp), s.prefix_asked _ _, fun h => ?_⟩
        rw [State.length_asked]
        omega
      · rw [if_neg hbudget]
        have h := ih (s.asked half false)
        refine ⟨h.current, fun found hf => ⟨mem_cons_of_mem _ (h.found found hf).1,
          (h.found found hf).2⟩, (s.prefix_asked _ _).trans h.replays, fun _ => h.budget ?_⟩
        rw [State.length_asked]
        omega

theorem mem_halves {l half : List α} (h : half ∈ halves l) (hl : 1 < l.length) :
    half <:+: l ∧ half.length < l.length := by
  rcases mem_cons.mp h with rfl | h
  · refine ⟨(List.take_prefix _ _).isInfix, ?_⟩
    rw [length_take]
    omega
  · rw [mem_singleton.mp h]
    refine ⟨(drop_suffix _ _).isInfix, ?_⟩
    rw [length_drop]
    omega

/-- Halve the current list while a half fails and the budget lasts. -/
def bisect (s : State α) : State α :=
  if _hmore : 1 < s.current.length ∧ s.replays.length < budget then
    match _hround : firstFailing replay budget (halves s.current) s with
    | (none, s') => s'
    | (some found, s') => bisect { s' with current := found }
  else s
termination_by s.current.length
decreasing_by
  have h := (firstFailing_spec replay budget (halves s.current) s).found found (by rw [_hround])
  exact (mem_halves h.1 _hmore.1).2

/-- No more replays than the budget. -/
theorem bisect_budget (s : State α) (h : s.replays.length ≤ budget) :
    (bisect replay budget s).replays.length ≤ budget := by
  fun_induction bisect replay budget s with
  | case1 s hmore s' hround =>
    have hspec := firstFailing_spec replay budget (halves s.current) s
    rw [hround] at hspec
    exact hspec.budget hmore.2
  | case2 s hmore found s' hround ih =>
    have hspec := firstFailing_spec replay budget (halves s.current) s
    rw [hround] at hspec
    exact ih (hspec.budget hmore.2)
  | case3 s hmore => exact h

/-- A state reached from a list: still that list, or a contiguous part of it whose
replay failed. -/
def Narrowed (l : List α) (s : State α) : Prop :=
  s.current = l ∨
    s.current <:+: l ∧ s.current.length < l.length ∧ (s.current, true) ∈ s.replays

/-- What is left is the whole list or a contiguous part whose replay failed. -/
theorem bisect_sound (l : List α) (s : State α) (h : Narrowed l s) :
    Narrowed l (bisect replay budget s) := by
  fun_induction bisect replay budget s with
  | case1 s hmore s' hround =>
    have hspec := firstFailing_spec replay budget (halves s.current) s
    rw [hround] at hspec
    rcases h with h | ⟨hpart, hlength, hreplay⟩
    · exact Or.inl (hspec.current.trans h)
    · refine Or.inr ?_
      rw [hspec.current]
      exact ⟨hpart, hlength, hspec.replays.subset hreplay⟩
  | case2 s hmore found s' hround ih =>
    have hspec := firstFailing_spec replay budget (halves s.current) s
    rw [hround] at hspec
    obtain ⟨hhalf, hreplay⟩ := hspec.found found rfl
    obtain ⟨hpart, hlength⟩ := mem_halves hhalf hmore.1
    refine ih (Or.inr ?_)
    rcases h with h | ⟨hpart', hlength', -⟩
    · rw [h] at hpart hlength
      exact ⟨hpart, hlength, hreplay⟩
    · exact ⟨hpart.trans hpart', hlength.trans hlength', hreplay⟩
  | case3 s hmore => exact h

/-- Every recorded answer is what the replay answered after the replays before it. -/
def Recorded (replays : List (List α × Bool)) : Prop :=
  ∀ before half failed after, replays = before ++ (half, failed) :: after →
    replay before half = failed

theorem recorded_nil : Recorded replay [] :=
  fun before _ _ _ h => absurd h (by simp)

variable {replay budget}

theorem Recorded.asked {s : State α} (hs : Recorded replay s.replays) (half : List α) :
    Recorded replay (s.asked half (replay s.replays half)).replays := by
  intro before half' failed after h
  rcases eq_nil_or_concat after with rfl | ⟨after', x, rfl⟩
  · obtain ⟨rfl, hlast⟩ := append_inj' h rfl
    cases hlast
    rfl
  · refine hs before half' failed after' ?_
    have h' : s.replays ++ [(half, replay s.replays half)] =
        (before ++ (half', failed) :: after') ++ [x] := by
      rw [append_assoc, cons_append]
      rw [concat_eq_append] at h
      exact h
    exact (append_inj' h' rfl).1

theorem Recorded.firstFailing {s : State α} (hs : Recorded replay s.replays)
    (l : List (List α)) : Recorded replay (firstFailing replay budget l s).2.replays := by
  induction l generalizing s with
  | nil => exact hs
  | cons half rest ih =>
    by_cases hempty : half.isEmpty = true
    · rw [firstFailing_empty hempty]
      exact ih hs
    have hasked := hs.asked half
    cases hfailed : replay s.replays half with
    | true =>
      rw [firstFailing_hit hempty hfailed]
      rwa [hfailed] at hasked
    | false =>
      rw [firstFailing_miss hempty hfailed]
      rw [hfailed] at hasked
      split
      · exact hasked
      · exact ih hasked

/-- The answers of a bisection are recorded as they were given. -/
theorem Recorded.bisect {s : State α} (hs : Recorded replay s.replays) :
    Recorded replay (bisect replay budget s).replays := by
  fun_induction BudgetedBisection.bisect replay budget s with
  | case1 s hmore s' hround =>
    have h : Recorded replay (BudgetedBisection.firstFailing replay budget _ s).2.replays :=
      hs.firstFailing (halves s.current)
    rwa [hround] at h
  | case2 s hmore found s' hround ih =>
    have h : Recorded replay (BudgetedBisection.firstFailing replay budget _ s).2.replays :=
      hs.firstFailing (halves s.current)
    rw [hround] at h
    exact ih h
  | case3 s hmore => exact hs

end Bisect

/-! ## A single culprit -/

/-- The replay of a sublist fails exactly when the culprit is in it. -/
def Culprit (replay : List (List α × Bool) → List α → Bool) (suspects : List α)
    (culprit : α) : Prop :=
  ∀ history l, l.Sublist suspects → (replay history l = true ↔ culprit ∈ l)

variable {replay : List (List α × Bool) → List α → Bool} {budget : ℕ} {suspects : List α}
  {culprit : α}

/-- One round over both halves finds the half with the culprit. -/
theorem firstFailing_culprit (hreplay : Culprit replay suspects culprit) {s : State α}
    (hsub : s.current.Sublist suspects) (hculprit : culprit ∈ s.current)
    (hbudget : s.replays.length + 2 ≤ budget) :
    ∃ found s', firstFailing replay budget (halves s.current) s = (some found, s') ∧
      culprit ∈ found ∧ found.length ≤ (s.current.length + 1) / 2 ∧
      s'.replays.length ≤ s.replays.length + 2 := by
  have hsplit : culprit ∈ s.current.take (s.current.length / 2) ∨
      culprit ∈ s.current.drop (s.current.length / 2) := by
    rw [← mem_append, take_append_drop]
    exact hculprit
  have hnonempty : ∀ l : List α, culprit ∈ l → ¬ l.isEmpty = true :=
    fun l hl h => ne_nil_of_mem hl (isEmpty_iff.mp h)
  have hfirst : (s.current.take (s.current.length / 2)).length ≤ (s.current.length + 1) / 2 := by
    rw [length_take]
    omega
  have hsecond : (s.current.drop (s.current.length / 2)).length ≤ (s.current.length + 1) / 2 := by
    rw [length_drop]
    omega
  have htakes := (take_sublist (s.current.length / 2) s.current).trans hsub
  have hdrops := (drop_sublist (s.current.length / 2) s.current).trans hsub
  rw [halves]
  by_cases htake : culprit ∈ s.current.take (s.current.length / 2)
  · rw [firstFailing_hit (hnonempty _ htake) ((hreplay _ _ htakes).mpr htake)]
    refine ⟨_, _, rfl, htake, hfirst, ?_⟩
    rw [State.length_asked]
    omega
  · have hdrop := hsplit.resolve_left htake
    -- an empty first half costs nothing
    by_cases hempty : (s.current.take (s.current.length / 2)).isEmpty = true
    · rw [firstFailing_empty hempty,
        firstFailing_hit (hnonempty _ hdrop) ((hreplay _ _ hdrops).mpr hdrop)]
      refine ⟨_, _, rfl, hdrop, hsecond, ?_⟩
      rw [State.length_asked]
      omega
    · have hpasses : replay s.replays (s.current.take (s.current.length / 2)) = false := by
        rw [Bool.eq_false_iff]
        exact fun h => htake ((hreplay _ _ htakes).mp h)
      rw [firstFailing_miss hempty hpasses, if_neg (by omega),
        firstFailing_hit (hnonempty _ hdrop) ((hreplay _ _ hdrops).mpr hdrop)]
      refine ⟨_, _, rfl, hdrop, hsecond, ?_⟩
      rw [State.length_asked, State.length_asked]

/-- A single culprit is isolated by two replays for each halving. -/
theorem bisect_single (hreplay : Culprit replay suspects culprit) (s : State α)
    (hsub : s.current.Sublist suspects) (hculprit : culprit ∈ s.current)
    (hbudget : s.replays.length + 2 * Nat.clog 2 s.current.length ≤ budget) :
    (bisect replay budget s).current = [culprit] := by
  fun_induction bisect replay budget s with
  | case1 s hmore s' hround =>
    have hpos : 0 < Nat.clog 2 s.current.length := Nat.clog_pos (by omega) hmore.1
    have hround' : s.replays.length + 2 ≤ budget := by omega
    obtain ⟨found, s'', hfound, -⟩ := firstFailing_culprit hreplay hsub hculprit hround'
    rw [hround] at hfound
    cases hfound
  | case2 s hmore found s' hround ih =>
    have hhalf : Nat.clog 2 s.current.length =
        Nat.clog 2 ((s.current.length + 1) / 2) + 1 :=
      Nat.clog_of_two_le (by omega) hmore.1
    have hround' : s.replays.length + 2 ≤ budget := by omega
    obtain ⟨found', s'', hfound, hmem, hlength, hcount⟩ :=
      firstFailing_culprit hreplay hsub hculprit hround'
    rw [hround] at hfound
    cases hfound
    have hmono : Nat.clog 2 found.length ≤ Nat.clog 2 ((s.current.length + 1) / 2) :=
      Nat.clog_mono_right 2 hlength
    have hfoundsub : found.Sublist suspects := by
      have hspec := firstFailing_spec replay budget (halves s.current) s
      rw [hround] at hspec
      exact (mem_halves (hspec.found found rfl).1 hmore.1).1.sublist.trans hsub
    exact ih hfoundsub hmem (by show s'.replays.length + 2 * Nat.clog 2 found.length ≤ budget; omega)
  | case3 s hmore =>
    -- the budget covers a list of two, so the list has one member left
    have hone : s.current.length ≤ 1 := by
      by_contra hlength
      have hpos : 0 < Nat.clog 2 s.current.length := Nat.clog_pos (by omega) (by omega)
      exact hmore ⟨by omega, by omega⟩
    obtain ⟨x, hx⟩ := length_eq_one_iff.mp
      (Nat.le_antisymm hone (length_pos_of_mem hculprit))
    rw [hx] at hculprit ⊢
    rw [mem_singleton.mp hculprit]

end DRCAgent.BudgetedBisection
