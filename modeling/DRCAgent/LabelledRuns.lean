/-
# Runs of a labelled transition system

A small library: runs of a step relation with their traces, and the rules that
carry a property from one step to a whole run.

* `Run.invariant`: a property kept by every step holds at the end of every run.
* `Run.history`: the same for a property of the trace and the state together,
  under an assumption on the whole trace that its prefixes inherit.
* `Run.map`: a map of the states that takes steps to steps takes runs to runs.
* `Guarded`: the runs all of whose steps meet a condition.
-/
import Mathlib.Tactic.Common

namespace Runs

universe u v

variable {S : Type u} {L : Type v}

/-- The runs of `step` from `init`: the labels in order, and the state reached. -/
inductive Run (step : S → L → S → Prop) (init : S) : List L → S → Prop
  | start : Run step init [] init
  | next {tr : List L} {s s' : S} {l : L} (prior : Run step init tr s) (last : step s l s') :
      Run step init (tr ++ [l]) s'

/-- The steps of `step` that meet the condition `guard` on the state before and
the label. -/
def Guarded (guard : S → L → Prop) (step : S → L → S → Prop) : S → L → S → Prop :=
  fun s l s' => guard s l ∧ step s l s'

variable {step : S → L → S → Prop} {guard : S → L → Prop} {init s s' : S} {tr tr' : List L} {l : L}

namespace Run

/-- One step is a run. -/
theorem single (h : step init l s) : Run step init [l] s := .next .start h

/-- Runs compose. -/
theorem trans (h : Run step init tr s) (h' : Run step s tr' s') :
    Run step init (tr ++ tr') s' := by
  induction h' with
  | start => rwa [List.append_nil]
  | next _ hstep ih =>
    rw [← List.append_assoc]
    exact .next ih hstep

/-- **The invariant rule.** -/
theorem invariant (I : S → Prop) (hinit : I init)
    (hstep : ∀ s l s', I s → step s l s' → I s') (h : Run step init tr s) : I s := by
  induction h with
  | start => exact hinit
  | next _ hlast ih => exact hstep _ _ _ ih hlast

/-- **The history rule.**  `P` is an assumption on the trace that prefixes inherit. -/
theorem history (P : List L → Prop) (I : List L → S → Prop)
    (hinherit : ∀ tr l, P (tr ++ [l]) → P tr) (hinit : I [] init)
    (hstep : ∀ tr s l s', P (tr ++ [l]) → I tr s → step s l s' → I (tr ++ [l]) s')
    (h : Run step init tr s) (hP : P tr) : I tr s := by
  induction h with
  | start => exact hinit
  | next _ hlast ih => exact hstep _ _ _ _ hP (ih (hinherit _ _ hP)) hlast

/-- A guarded run is a run. -/
theorem of_guarded (h : Run (Guarded guard step) init tr s) : Run step init tr s := by
  induction h with
  | start => exact .start
  | next _ hlast ih => exact .next ih hlast.2

/-- A run is a run of every weaker step relation. -/
theorem weaken {step' : S → L → S → Prop} (hweaker : ∀ s l s', step s l s' → step' s l s')
    (h : Run step init tr s) : Run step' init tr s := by
  induction h with
  | start => exact .start
  | next _ hlast ih => exact .next ih (hweaker _ _ _ hlast)

/-- **The simulation rule.**  The image of a run, step by step. -/
theorem map {S' : Type*} {L' : Type*} {step' : S' → L' → S' → Prop} (f : S → S') (g : L → L')
    (hstep : ∀ s l s', step s l s' → step' (f s) (g l) (f s')) (h : Run step init tr s) :
    Run step' (f init) (tr.map g) (f s) := by
  induction h with
  | start => exact .start
  | next _ hlast ih =>
    rw [List.map_append]
    exact .next ih (hstep _ _ _ hlast)

/-- The invariant rule for guarded runs. -/
theorem guarded_invariant (I : S → Prop) (hinit : I init)
    (hstep : ∀ s l s', I s → guard s l → step s l s' → I s')
    (h : Run (Guarded guard step) init tr s) : I s :=
  invariant I hinit (fun s l s' hI hlast => hstep s l s' hI hlast.1 hlast.2) h

end Run

/-! ## Playing a run -/

/-- The state that a computable step function reaches by the labels `tr`. -/
def play (next : S → L → Option S) : S → List L → Option S
  | s, [] => some s
  | s, l :: tr => (next s l).bind fun s' => play next s' tr

/-- What is played is a run. -/
theorem run_of_play {next : S → L → Option S} (hnext : ∀ s l s', next s l = some s' → step s l s')
    (h : play next init tr = some s) : Run step init tr s := by
  induction tr generalizing init with
  | nil =>
    obtain rfl := Option.some.inj h
    exact .start
  | cons l tr ih =>
    obtain ⟨s₁, hfirst, hrest⟩ := Option.bind_eq_some_iff.1 h
    exact (Run.single (hnext _ _ _ hfirst)).trans (ih hrest)

/-- The guarded step function. -/
def guardNext (guard : S → L → Prop) [∀ s l, Decidable (guard s l)] (next : S → L → Option S)
    (s : S) (l : L) : Option S :=
  if guard s l then next s l else none

/-- What is played under a guard is a guarded run. -/
theorem guarded_of_play [∀ s l, Decidable (guard s l)] {next : S → L → Option S}
    (hnext : ∀ s l s', next s l = some s' → step s l s')
    (h : play (guardNext guard next) init tr = some s) : Run (Guarded guard step) init tr s := by
  refine run_of_play (fun s l s' hs => ?_) h
  unfold guardNext at hs
  split_ifs at hs with hguard
  exact ⟨hguard, hnext _ _ _ hs⟩

end Runs
