/-
# Saturating a set under rules

A rule adds its effect to every set that meets its trigger. A pass applies some rules, all
at once or one after the other; a loop repeats the pass until it changes nothing.

What a pass has to do with its rules is three facts (`Pass`): it only adds elements, it
stays within every closed set, and a set it does not change is closed. They are all the
loop needs to end with the least closed set, and passes in sequence have them together.

Main results:
* `Pass.comp`, `Pass.foldl`, `pass_fire`, `pass_of_mem`: how passes are put together
* `saturate_spec`: the loop ends with the least closed set that holds the start
-/
import Mathlib.Data.Finset.Card

namespace DRCAgent.RuleClosure

variable {α : Type*} [DecidableEq α]

/-- A rule. -/
structure Rule (α : Type*) where
  trigger : Finset α
  effect : Finset α

/-- The set holds the effect of every rule whose trigger it meets. -/
def Closed (rules : List (Rule α)) (S : Finset α) : Prop :=
  ∀ rule ∈ rules, (S ∩ rule.trigger).Nonempty → rule.effect ⊆ S

theorem closed_append {rules rules' : List (Rule α)} {S : Finset α} :
    Closed (rules ++ rules') S ↔ Closed rules S ∧ Closed rules' S :=
  List.forall_mem_append

theorem closed_nil (S : Finset α) : Closed [] S := fun _ h => absurd h List.not_mem_nil

/-! ## Passes -/

/-- The function applies the rules. -/
structure Pass (rules : List (Rule α)) (pass : Finset α → Finset α) : Prop where
  subset : ∀ S, S ⊆ pass S
  within : ∀ S T, Closed rules T → S ⊆ T → pass S ⊆ T
  fixed : ∀ S, pass S = S → Closed rules S

theorem pass_id : Pass ([] : List (Rule α)) id where
  subset _ := Finset.Subset.refl _
  within _ _ _ h := h
  fixed S _ := closed_nil S

/-- Two passes in sequence. -/
theorem Pass.comp {rules rules' : List (Rule α)} {f g : Finset α → Finset α}
    (hf : Pass rules f) (hg : Pass rules' g) : Pass (rules ++ rules') (fun S => g (f S)) where
  subset S := (hf.subset S).trans (hg.subset (f S))
  within S T hT h :=
    hg.within _ _ (closed_append.1 hT).2 (hf.within _ _ (closed_append.1 hT).1 h)
  fixed S h := by
    -- what the first pass adds, the second one would keep
    have hsame : f S = S := by
      refine Finset.Subset.antisymm ?_ (hf.subset S)
      calc f S ⊆ g (f S) := hg.subset (f S)
        _ = S := h
    have hsecond : g S = S := by
      rw [hsame] at h
      exact h
    exact closed_append.2 ⟨hf.fixed S hsame, hg.fixed S hsecond⟩

/-- One pass for each item of a list. -/
theorem Pass.foldl {β : Type*} {rules : β → List (Rule α)} {step : Finset α → β → Finset α}
    (h : ∀ x, Pass (rules x) fun S => step S x) (items : List β) :
    Pass (items.flatMap rules) (fun S => items.foldl step S) := by
  induction items with
  | nil => exact pass_id
  | cons x items ih => exact (h x).comp ih

/-- A function that adds the effects of the rules whose triggers are met. -/
theorem pass_of_mem {rules : List (Rule α)} {pass : Finset α → Finset α}
    (h : ∀ S x, x ∈ pass S ↔
      x ∈ S ∨ ∃ rule ∈ rules, (S ∩ rule.trigger).Nonempty ∧ x ∈ rule.effect) :
    Pass rules pass where
  subset S x hx := (h S x).2 (.inl hx)
  within S T hT hsub x hx := by
    rcases (h S x).1 hx with hx | ⟨rule, hrule, hmet, hx⟩
    · exact hsub hx
    · exact hT rule hrule (hmet.mono (Finset.inter_subset_inter_right hsub)) hx
  fixed S hS rule hrule hmet x hx := by
    rw [← hS]
    exact (h S x).2 (.inr ⟨rule, hrule, hmet, hx⟩)

/-- Where the trigger is met, several effects are added. -/
theorem pass_fire (trigger : Finset α) (effects : List (Finset α)) :
    Pass (effects.map (Rule.mk trigger)) (fun S =>
      if (S ∩ trigger).Nonempty then effects.foldl (· ∪ ·) S else S) := by
  have hmem : ∀ (effects : List (Finset α)) (S : Finset α) (x : α),
      x ∈ effects.foldl (· ∪ ·) S ↔ x ∈ S ∨ ∃ effect ∈ effects, x ∈ effect := by
    intro effects
    induction effects with
    | nil => simp
    | cons effect effects ih =>
      intro S x
      rw [List.foldl_cons, ih, Finset.mem_union, List.exists_mem_cons_iff, or_assoc]
  refine pass_of_mem fun S x => ?_
  by_cases hmet : (S ∩ trigger).Nonempty
  · rw [if_pos hmet, hmem]
    simp [hmet]
  · rw [if_neg hmet]
    simp [hmet]

/-! ## The loop -/

/-- Repeat the pass until it changes nothing, `n` times at most. -/
def saturate (pass : Finset α → Finset α) : ℕ → Finset α → Finset α
  | 0, S => S
  | n + 1, S => if pass S = S then S else saturate pass n (pass S)

variable {rules : List (Rule α)} {pass : Finset α → Finset α} {S U : Finset α}

/-- A pass that changes something leaves less of a closed set outside. -/
theorem Pass.card_lt (h : Pass rules pass) (hU : Closed rules U) (hS : S ⊆ U)
    (hchange : pass S ≠ S) : pass S ⊆ U ∧ S.card < (pass S).card := by
  refine ⟨h.within S U hU hS, Finset.card_lt_card ?_⟩
  exact Finset.ssubset_iff_subset_ne.2 ⟨h.subset S, hchange.symm⟩

/-- More passes than elements outside change nothing. -/
theorem saturate_stable (h : Pass rules pass) (hU : Closed rules U) (n : ℕ) (hS : S ⊆ U)
    (hn : U.card < S.card + n) : saturate pass n S = saturate pass (n + 1) S := by
  induction n generalizing S with
  | zero =>
    have := Finset.card_le_card hS
    omega
  | succ n ih =>
    rw [saturate, saturate]
    by_cases hchange : pass S = S
    · rw [if_pos hchange, if_pos hchange]
    · obtain ⟨hwithin, hcard⟩ := h.card_lt hU hS hchange
      rw [if_neg hchange, if_neg hchange]
      exact ih hwithin (by omega)

/-- **Saturation.**  The loop ends with the least closed set that holds the start. -/
theorem saturate_spec (h : Pass rules pass) (hU : Closed rules U) (n : ℕ) (hS : S ⊆ U)
    (hn : U.card < S.card + n) :
    S ⊆ saturate pass n S ∧ Closed rules (saturate pass n S) ∧
      ∀ T, Closed rules T → S ⊆ T → saturate pass n S ⊆ T := by
  induction n generalizing S with
  | zero =>
    have := Finset.card_le_card hS
    omega
  | succ n ih =>
    rw [saturate]
    by_cases hchange : pass S = S
    · rw [if_pos hchange]
      exact ⟨Finset.Subset.refl S, h.fixed S hchange, fun T _ hT => hT⟩
    · obtain ⟨hwithin, hcard⟩ := h.card_lt hU hS hchange
      rw [if_neg hchange]
      obtain ⟨hsub, hclosed, hleast⟩ := ih hwithin (by omega)
      exact ⟨(h.subset S).trans hsub, hclosed,
        fun T hT hST => hleast T hT (h.within S T hT hST)⟩

end DRCAgent.RuleClosure
