/-
# The verification result and the acceptance policy

`VerificationResult` with the validator every construction of it runs, and
`evaluate_acceptance` of `evaluation/policy.py`. The policy collects the
reasons against a result; a result without a reason is accepted, unless its
outcome is something other than `SUCCESS`.
-/
import DRCAgent.Schemas
import Mathlib.Data.List.Dedup

namespace DRCAgent

/-! ## The verification result -/

structure VerificationResult where
  verificationId : String
  transactionId : String
  outcome : VerificationOutcome
  scriptValid : Option Bool
  gdsSanityPass : Option Bool
  connectivityPreserved : Option Bool
  timingGatePass : Option Bool := none
  baselineResidualCount : ℤ
  residualViolationCount : Option ℤ
  newViolationCount : Option ℤ
  removedOriginalCount : Option ℤ
  removedOriginalViolationIds : List String := []
  removedOriginalMarkerFingerprints : List String := []
  newViolationIds : List String := []
  newMarkerFingerprints : List String := []
  failureCodes : List String := []
  executionProtocolVersion : String := "legacy-v1"
  attemptId : Option String := none
  terminalStatus : Option AttemptTerminalStatus := none
  scriptValidity : EvidenceValidity := .notEvaluated
  layoutValidity : EvidenceValidity := .notEvaluated
  drcValidity : EvidenceValidity := .notEvaluated
  sanityValidity : EvidenceValidity := .notEvaluated
  connectivityValidity : EvidenceValidity := .notEvaluated
  freshEvidenceValid : Bool := false
  failureDomain : Option String := none
  failureStage : Option String := none
  deriving DecidableEq

/-- `value.startswith("p3.2")`. -/
def isP32 (version : String) : Bool := "p3.2".toList.isPrefixOf version.toList

/-- All five evidence validities are `VALID`. -/
def VerificationResult.complete (v : VerificationResult) : Bool :=
  v.scriptValidity = .valid ∧ v.layoutValidity = .valid ∧ v.drcValidity = .valid ∧
    v.sanityValidity = .valid ∧ v.connectivityValidity = .valid

/-- More distinct identities are listed than the evaluator counted. -/
def exceedsCount (ids : List String) (count : Option ℤ) : Bool :=
  match count with
  | none => false
  | some n => n < ids.dedup.length

/-- `validate_marker_identity_counts`, the validator run on construction. -/
def VerificationResult.validate (v : VerificationResult) : Except String VerificationResult :=
  if exceedsCount v.removedOriginalMarkerFingerprints v.removedOriginalCount then
    .error "removed marker identity exceeds official removed count"
  else if exceedsCount v.newMarkerFingerprints v.newViolationCount then
    .error "new marker identity exceeds official new count"
  else if isP32 v.executionProtocolVersion ∧ v.freshEvidenceValid ≠ v.complete then
    .error "fresh_evidence_valid must equal complete P3.2 verification validity"
  else if isP32 v.executionProtocolVersion ∧ v.outcome = .success ∧ v.complete = false then
    .error "P3.2 SUCCESS requires complete fresh evidence"
  else .ok v

/-- The validator changes nothing it lets through. -/
theorem VerificationResult.eq_of_validate {v v' : VerificationResult} (h : v.validate = .ok v') :
    v' = v := by
  unfold validate at h
  split_ifs at h
  exact (Except.ok.inj h).symm

/-! ## The acceptance policy -/

structure AcceptanceConfig where
  requireConnectivity : Bool := true
  requireDrcProgress : Bool := true
  rejectNewViolations : Bool := true
  deriving DecidableEq

structure AcceptanceDecision where
  accepted : Bool
  reasons : List String

/-- The reason `text`, if `cond` holds. -/
def reasonIf (cond : Bool) (text : String) : List String := if cond then [text] else []

/-- The reasons `evaluate_acceptance` collects before it looks at the outcome. -/
def acceptanceReasons (result : VerificationResult) (cfg : AcceptanceConfig) : List String :=
  reasonIf (isP32 result.executionProtocolVersion && !result.freshEvidenceValid)
      "FRESH_EVIDENCE_INCOMPLETE" ++
    reasonIf (result.scriptValid != some true) "SCRIPT_INVALID" ++
    reasonIf (result.gdsSanityPass != some true) "GDS_SANITY_FAILED" ++
    reasonIf (cfg.requireConnectivity && result.connectivityPreserved != some true)
      "CONNECTIVITY_FAILED" ++
    reasonIf (result.timingGatePass == some false) "TIMING_FAILED" ++
    (if cfg.requireDrcProgress then
      match result.residualViolationCount with
      | none => ["DRC_NOT_EVALUATED"]
      | some residual =>
        reasonIf (decide (result.baselineResidualCount ≤ residual)) "NO_DRC_PROGRESS"
    else []) ++
    reasonIf (cfg.rejectNewViolations && (result.newViolationCount.getD 0 != 0))
      "NEW_DRC_INTRODUCED"

/-- `evaluate_acceptance`. -/
def evaluateAcceptance (result : VerificationResult) (cfg : AcceptanceConfig) :
    AcceptanceDecision :=
  let reasons := acceptanceReasons result cfg
  if reasons = [] ∧ result.outcome ≠ .success then
    { accepted := false, reasons := ["OUTCOME_NOT_SUCCESS"] }
  else
    { accepted := reasons.isEmpty, reasons := reasons }

@[simp] theorem reasonIf_eq_nil (cond : Bool) (text : String) :
    reasonIf cond text = [] ↔ cond = false := by
  cases cond <;> simp [reasonIf]

/-- **Acceptance**: no reason against the result, and the outcome is `SUCCESS`. -/
theorem evaluateAcceptance_accepted_iff (result : VerificationResult) (cfg : AcceptanceConfig) :
    (evaluateAcceptance result cfg).accepted = true ↔
      acceptanceReasons result cfg = [] ∧ result.outcome = .success := by
  unfold evaluateAcceptance
  by_cases hr : acceptanceReasons result cfg = []
  · by_cases ho : result.outcome = .success <;> simp [hr, ho]
  · simp [hr]

/-- An accepted result made progress: its residual is known and below the
baseline it is compared with. -/
theorem residual_lt_of_accepted {result : VerificationResult} {cfg : AcceptanceConfig}
    (hcfg : cfg.requireDrcProgress = true)
    (h : (evaluateAcceptance result cfg).accepted = true) :
    ∃ residual, result.residualViolationCount = some residual ∧
      residual < result.baselineResidualCount := by
  obtain ⟨hreasons, -⟩ := (evaluateAcceptance_accepted_iff result cfg).1 h
  simp only [acceptanceReasons, List.append_eq_nil_iff, hcfg, if_true] at hreasons
  obtain ⟨⟨-, hprogress⟩, -⟩ := hreasons
  cases hres : result.residualViolationCount with
  | none => simp [hres] at hprogress
  | some residual =>
    refine ⟨residual, rfl, ?_⟩
    simpa [hres] using hprogress

end DRCAgent
