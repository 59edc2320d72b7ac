/-
# Execution envelopes and continuation records

`schemas/continuation.py`: the limits a run is authorized to use, and the
hash-chained record of one authorization. The functions of
`workflow/continuation.py` are compiled code; those the runtime calls are fields
of `ResumeEnv` in `Resume.lean`.

Seconds are Python floats, which are only compared. Every comparison with nan is false, so
nan passes what is written as the refusal of a smaller number.
-/
import Mathlib.Algebra.Order.Field.Rat

namespace DRCAgent

/-! ## Floats -/

/-- A Python float: nan, or a number that may be infinite. -/
inductive PyFloat
  | nan
  | number (value : WithBot (WithTop ℚ))
  deriving DecidableEq

namespace PyFloat

/-- `x == y`: nan is not equal to itself. -/
def eq : PyFloat → PyFloat → Bool
  | number x, number y => x = y
  | _, _ => false

/-- `x <= y` -/
def le : PyFloat → PyFloat → Bool
  | number x, number y => x ≤ y
  | _, _ => false

/-- `x < y` -/
def lt : PyFloat → PyFloat → Bool
  | number x, number y => x < y
  | _, _ => false

/-- Equal floats are numbers. -/
theorem eq_iff {x y : PyFloat} : x.eq y = true ↔ x = y ∧ x ≠ nan := by
  cases x <;> cases y <;> simp [eq]

/-- What is smaller is at most as large, whatever the floats. -/
theorem le_of_lt {x y : PyFloat} (h : x.lt y = true) : x.le y = true := by
  cases x <;> cases y <;> simp only [lt, le, decide_eq_true_eq, reduceCtorEq] at h ⊢
  exact h.le

end PyFloat

/-- Two limits are the same, by `==` of their values. -/
def sameLimit {α : Type} (eq : α → α → Bool) : Option α → Option α → Bool
  | none, none => true
  | some x, some y => eq x y
  | _, _ => false

/-! ## Envelopes and records -/

/-- `ExecutionEnvelope`: authorization limits outside scientific identity. -/
structure ExecutionEnvelope where
  maxIterations : ℤ
  maxHttpAttemptsPerRun : Option ℤ := none
  maxEdaEvaluationsPerRun : Option ℤ := none
  wholeRunBudgetSeconds : Option PyFloat := none
  deriving DecidableEq

/-- The seconds, if they are limited, are a number. -/
def ExecutionEnvelope.Numeric (e : ExecutionEnvelope) : Prop :=
  e.wholeRunBudgetSeconds ≠ some .nan

/-- `==` of two envelopes, which do not share their floats. -/
def ExecutionEnvelope.eq (e e' : ExecutionEnvelope) : Bool :=
  e.maxIterations = e'.maxIterations && e.maxHttpAttemptsPerRun = e'.maxHttpAttemptsPerRun &&
    e.maxEdaEvaluationsPerRun = e'.maxEdaEvaluationsPerRun &&
    sameLimit PyFloat.eq e.wholeRunBudgetSeconds e'.wholeRunBudgetSeconds

theorem sameLimit_float_iff {x y : Option PyFloat} :
    sameLimit PyFloat.eq x y = true ↔ x = y ∧ x ≠ some .nan := by
  cases x <;> cases y <;> simp [sameLimit, PyFloat.eq_iff]

/-- Equal envelopes are the same, and have a number of seconds. -/
theorem ExecutionEnvelope.eq_iff {e e' : ExecutionEnvelope} :
    e.eq e' = true ↔ e = e' ∧ e.Numeric := by
  rw [eq, Bool.and_eq_true, Bool.and_eq_true, Bool.and_eq_true, sameLimit_float_iff,
    decide_eq_true_eq, decide_eq_true_eq, decide_eq_true_eq]
  constructor
  · rintro ⟨⟨⟨hiterations, hhttp⟩, heda⟩, hseconds, hnumeric⟩
    refine ⟨?_, hnumeric⟩
    cases e
    cases e'
    simp only at hiterations hhttp heda hseconds
    rw [hiterations, hhttp, heda, hseconds]
  · rintro ⟨rfl, hnumeric⟩
    exact ⟨⟨⟨rfl, rfl⟩, rfl⟩, rfl, hnumeric⟩

/-- The field constraints of `ExecutionEnvelope`. -/
def ExecutionEnvelope.validate (e : ExecutionEnvelope) : Except String ExecutionEnvelope :=
  if e.maxIterations < 1 then .error "max_iterations"
  else if e.maxHttpAttemptsPerRun.any (· < 1) then .error "max_http_attempts_per_run"
  else if e.maxEdaEvaluationsPerRun.any (· < 1) then .error "max_eda_evaluations_per_run"
  else if e.wholeRunBudgetSeconds.any (·.le (.number 0)) then .error "whole_run_budget_seconds"
  else .ok e

/-- The validator changes nothing it lets through. -/
theorem ExecutionEnvelope.eq_of_validate {e e' : ExecutionEnvelope} (h : e.validate = .ok e') :
    e' = e := by
  unfold validate at h
  split_ifs at h
  exact (Except.ok.inj h).symm

/-- `ContinuationRecord`, as far as the runtime and its validator read it. -/
structure ContinuationRecord where
  runId : String
  segmentIndex : ℕ
  nonce : String
  requesterAuthorization : String
  priorStatus : String
  completedIterations : ℕ
  nextIteration : ℕ
  scientificConfigHash : String
  initialResolvedConfigHash : String
  executableDigest : String
  identity : List (String × String)
  oldEnvelope : ExecutionEnvelope
  oldEnvelopeHash : String
  newEnvelope : ExecutionEnvelope
  newEnvelopeHash : String
  amendmentFields : List String
  newExecutionEpoch : String
  previousRecordHash : Option String := none
  recordHash : String

/-- The refusal of a budget that is `None` or below the old one, unless it is the old one. -/
def boundedIncrease {α : Type} (eq lt : α → α → Bool) (old new : Option α) : Bool :=
  sameLimit eq old new || match old, new with
    | some old, some new => !lt new old
    | _, _ => false

/-- The fields in which two envelopes differ, in the order of the source. -/
def amendedFields (old new : ExecutionEnvelope) : List String :=
  (if old.maxIterations = new.maxIterations then [] else ["max_iterations"]) ++
  (if old.maxHttpAttemptsPerRun = new.maxHttpAttemptsPerRun then []
    else ["max_http_attempts_per_run"]) ++
  (if old.maxEdaEvaluationsPerRun = new.maxEdaEvaluationsPerRun then []
    else ["max_eda_evaluations_per_run"]) ++
  if sameLimit PyFloat.eq old.wholeRunBudgetSeconds new.wholeRunBudgetSeconds then []
    else ["whole_run_budget_seconds"]

/-- All three budgets satisfy `boundedIncrease`. -/
def budgetsIncrease (old new : ExecutionEnvelope) : Bool :=
  boundedIncrease (· = ·) (· < ·) old.maxHttpAttemptsPerRun new.maxHttpAttemptsPerRun &&
  boundedIncrease (· = ·) (· < ·) old.maxEdaEvaluationsPerRun new.maxEdaEvaluationsPerRun &&
  boundedIncrease PyFloat.eq PyFloat.lt old.wholeRunBudgetSeconds new.wholeRunBudgetSeconds

/-- `validate_hashes_and_extension`. `envelopeHash` and `recordHash` stand for
the two uses of `stable_hash`. -/
def ContinuationRecord.validate (envelopeHash : ExecutionEnvelope → String)
    (recordHash : ContinuationRecord → String) (r : ContinuationRecord) :
    Except String ContinuationRecord :=
  let changed := amendedFields r.oldEnvelope r.newEnvelope
  let iterationExtended := r.oldEnvelope.maxIterations ≠ r.newEnvelope.maxIterations
  if envelopeHash r.oldEnvelope ≠ r.oldEnvelopeHash then
    .error "CONTINUATION_OLD_ENVELOPE_HASH_MISMATCH"
  else if envelopeHash r.newEnvelope ≠ r.newEnvelopeHash then
    .error "CONTINUATION_NEW_ENVELOPE_HASH_MISMATCH"
  else if r.newEnvelope.maxIterations < r.oldEnvelope.maxIterations then
    .error "CONTINUATION_ITERATION_LIMIT_DECREASED"
  else if budgetsIncrease r.oldEnvelope r.newEnvelope = false then
    .error "CONTINUATION_BUDGET_MUST_INCREASE_BOUNDEDLY"
  else if changed = [] ∨ r.amendmentFields ≠ changed then
    .error "CONTINUATION_AMENDMENT_FIELDS_MISMATCH"
  else if r.nextIteration ≠ r.completedIterations + 1 then
    .error "CONTINUATION_NEXT_ITERATION_MISMATCH"
  else if iterationExtended ∧ ((r.completedIterations : ℤ) ≠ r.oldEnvelope.maxIterations ∨
      r.priorStatus ≠ "COMPLETED_MAX_ITERATIONS") then
    .error "CONTINUATION_NOT_AT_COMPLETED_MAX_BOUNDARY"
  else if ¬ iterationExtended ∧ r.priorStatus ≠ "BUDGET_EXHAUSTED" then
    .error "BUDGET_AMENDMENT_REQUIRES_EXHAUSTED_BOUNDARY"
  else if ¬ iterationExtended ∧ r.oldEnvelope.maxIterations ≤ r.completedIterations then
    .error "BUDGET_AMENDMENT_HAS_NO_REMAINING_ITERATION"
  else if r.recordHash ≠ recordHash r then .error "CONTINUATION_RECORD_HASH_MISMATCH"
  else .ok r

/-- `manifest["continuation"]`. -/
structure ContinuationMetadata where
  protocol : String := "p5-iteration-extension-v1"
  initialResolvedConfigHash : String
  scientificConfigHash : String
  initialExecutionEnvelope : ExecutionEnvelope
  initialExecutionEnvelopeHash : String
  runIdentity : String
  runIdentityHash : String
  segmentIndex : ℤ := 0
  latestRecordHash : Option String := none
  authorizedExecutionEnvelope : ExecutionEnvelope
  authorizedExecutionEnvelopeHash : String
  deriving DecidableEq

end DRCAgent
