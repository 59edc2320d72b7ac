/-
# `TransactionExecutor.execute`

The executor of `backends/transaction.py`: the only path from a patch plan to a
verified snapshot. The function is cut where the source changes its subject,
each piece under the name of the stage it sets or the record it writes; the
pieces run in the order of the source, and `executeBody` is their composition.

The cut between `evaluateAttempt` and `publishAttempt` is the first write of a
finished `transaction.json`: what runs before it has published nothing about
the outcome of the attempt, what runs after it can still raise.
-/
import DRCAgent.AttemptLedger
import Mathlib.Data.List.Sort

namespace DRCAgent

open ExcState (raise runIf)

/-! ## Arguments and results -/

/-- `PatchPlan`, with the hash of its dump; the edits themselves belong to the
patch compiler. -/
structure PatchPlan where
  sha256 : String
  expectedObjectAfterHashes : List (String × String) := []
  deriving DecidableEq

/-- The arguments of `execute`. -/
structure ExecuteInput where
  runId : String
  caseId : String
  iteration : ℕ
  baselineSnapshot : DesignSnapshotRef
  currentSnapshot : DesignSnapshotRef
  patchPlan : PatchPlan
  sourceMap : List LayoutObject := []
  bundleIds : List String := []
  artifactPrefix : Option Path := none
  legacyArtifactPrefix : Option Path := none
  traceContext : Option ExecutionTraceContext := none
  physicalEffectFingerprint : Option String := none
  retryOfAttemptId : Option String := none

/-- `TransactionExecutionResult`. -/
structure TransactionExecutionResult where
  transaction : Transaction
  verification : VerificationResult
  accepted : Bool
  decisionReasons : List String
  attemptedSnapshot : DesignSnapshotRef
  committedSnapshot : DesignSnapshotRef
  attemptedTotalDrv : Option ℤ
  committedTotalDrv : ℤ
  rollbackReason : Option String
  attemptId : Option String
  logicalEvidenceKey : Option String
  deriving DecidableEq

/-- `f"iterations/iter_{iteration:04d}"`. -/
def iterationPrefix (iteration : ℕ) : Path :=
  ["iterations", "iter_" ++ String.ofList ((toString iteration).toList.leftpad 4 '0')]

/-- `base_prefix`. -/
def ExecuteInput.basePrefix (inp : ExecuteInput) : Path :=
  inp.artifactPrefix.getD (iterationPrefix inp.iteration)

/-- `trace`. -/
def ExecuteInput.trace (inp : ExecuteInput) : ExecutionTraceContext :=
  inp.traceContext.getD {
    formalRunId := inp.runId
    executionEpoch := "epoch_legacy_call"
    formalIteration := inp.iteration
    parentSnapshotId := some inp.currentSnapshot.snapshotId
    purpose := .master }

/-- The directory of one attempt. -/
def ExecuteInput.attemptPrefix (inp : ExecuteInput) (attemptId : String) : Path :=
  inp.basePrefix ++ ["attempts", attemptId]

/-- Where the attempt's `transaction.json` lives. -/
def ExecuteInput.transactionPath (inp : ExecuteInput) (attemptId : String) : Path :=
  inp.attemptPrefix attemptId ++ ["transaction", "transaction.json"]

/-- Where `latest_attempt.json` lives. -/
def ExecuteInput.latestAttemptPath (inp : ExecuteInput) : Path :=
  inp.basePrefix ++ ["transaction", "latest_attempt.json"]

/-! ## Exceptions raised here -/

/-- An `InfrastructureFailure` of the KLayout backend. -/
def backendFailure (env : Env) (message failureCode : String) (retryable : Bool)
    (originalExceptionType : Option String) (failureStage : String) : PyExc :=
  .infrastructure {
    message := message, failureCode := failureCode, retryable := retryable
    provider := "KLayoutBackend", model := env.image
    originalExceptionType := originalExceptionType, failureStage := failureStage }

/-- `except Exception as exc: raise translate(exc) from exc`. -/
def wrapping {α : Type} (translate : PyExc → PyExc) (m : Exec α) : Exec α :=
  ExcState.tryCatch m fun exc =>
    if exc.isException then raise (translate exc) else raise exc

/-! ## Preflight and preparation -/

/-- From the image digest to the `PrepareJobRequest`; returns `before.total_drv`. -/
def preflight (env : Env) (inp : ExecuteInput) : Exec ℤ := do
  ExcState.tryCatch (call env .imageDigest) fun exc =>
    if exc.isRuntimeError then
      raise (backendFailure env exc.message "EDA_UNAVAILABLE" false (some exc.typeName)
        "EDA_PREFLIGHT")
    else raise exc
  call env .logicalEvidenceKey
  match inp.currentSnapshot.drcRef with
  | none =>
    raise
      (.builtin .otherException "AttributeError" "'NoneType' object has no attribute 'path'")
  | some drcRef => do
    call env .currentStatistics
    call env .prepareJobRequest
    pure (env.totalDrv drcRef.sha256)

/-- The part of `PrepareJobRequest` that a retry changes. -/
structure AttemptRequest where
  requestedAttemptId : String
  retryOfAttemptId : Option String

/-- The failure a `JobPreparationError` without a retry ends in. -/
def preparationFailure (env : Env) (exc : JobPreparationError) : PyExc :=
  if exc.failureCode = "STORAGE_EXHAUSTED" then
    .infrastructure {
      message := exc.message, failureCode := "STORAGE_EXHAUSTED", retryable := true
      provider := "KLayoutBackend", model := env.image
      originalExceptionType := some (exc.causeType.getD "JobPreparationError")
      failureStage := "PREPARE_JOB", pauseScope := some "SHARED_STORAGE" }
  else
    let budgetExhausted := exc.failureCode = "PHYSICAL_ATTEMPT_BUDGET_EXHAUSTED"
    backendFailure env exc.message
      (if budgetExhausted then "BUDGET_EXHAUSTED" else "WORKSPACE_OWNERSHIP") exc.retryable
      (some "JobPreparationError")
      (if budgetExhausted then "EDA_ATTEMPT_BUDGET" else "PREPARE_JOB")

/-- `except Exception` around `prepare_job`. -/
def unexpectedPreparationFailure {α : Type} (env : Env) (exc : PyExc) : Exec α := do
  call env (.storagePauseFromException "PREPARE_JOB")
  match env.storagePause exc with
  | some pause => do
    call env (.recordStorageIncident "PREPARE_JOB")
    raise (.infrastructure pause)
  | none =>
    raise (backendFailure env ("WORKSPACE_PREPARATION_FAILED: " ++ exc.message)
      "WORKSPACE_OWNERSHIP" false (some exc.typeName) "PREPARE_JOB")

/-- A turn of the preparation loop: register a fresh attempt and prepare its
job. `again` is `continue`, for a turn that may still be followed by another. -/
def prepareTurn (env : Env) (inp : ExecuteInput) (request : AttemptRequest)
    (again : Option (AttemptRequest → Exec (AttemptRequest × Job))) :
    Exec (AttemptRequest × Job) := do
  newLedger env request.requestedAttemptId inp.trace inp.patchPlan.sha256
    inp.physicalEffectFingerprint request.retryOfAttemptId
  setStage "PREPARE_JOB" "INFRASTRUCTURE"
  ExcState.tryCatch
    (do
      call env (.prepareJob request.requestedAttemptId)
      pure (request, env.job request.requestedAttemptId))
    fun exc =>
      match exc with
      | .jobPreparation failure => do
        terminal env .executionFailure {
          failureDomain := some "INFRASTRUCTURE"
          failureCode := some failure.failureCode
          failureStage := some "PREPARE_JOB"
          workspace := some failure.workspace
          retryable := some failure.retryable }
        match again, failure.retryable with
        | some next, true => next ⟨env.newAttemptId 1, some failure.attemptId⟩
        | _, _ => raise (preparationFailure env failure)
      | .infrastructure failure => raise (.infrastructure failure)
      | exc =>
        if exc.isException then unexpectedPreparationFailure env exc
        else raise exc

/-- The preparation loop; `prepare_number` allows one retry. -/
def prepareLoop (env : Env) (inp : ExecuteInput) (request : AttemptRequest) :
    Exec (AttemptRequest × Job) :=
  prepareTurn env inp request (some fun retry => prepareTurn env inp retry none)

/-- The identity check on the prepared job. -/
def checkOwnership (env : Env) (request : AttemptRequest) (job : Job) : Exec PUnit :=
  if env.isKLayoutBackend && decide (job.attemptId ≠ some request.requestedAttemptId) then
    raise (backendFailure env
      "WORKSPACE_OWNERSHIP_INVALID: backend changed attempt identity" "WORKSPACE_OWNERSHIP" false
      none "PREPARE_JOB")
  else pure ⟨⟩

/-- A prepared attempt: what the later stages read of the first ones. -/
structure Prepared where
  attemptId : String
  before : ℤ
  transaction : Transaction

/-- The `Transaction` of a fresh attempt. -/
def initialTransaction (env : Env) (inp : ExecuteInput) (attemptId : String) (job : Job) :
    Transaction where
  transactionId := "transaction_" ++
    env.stableHash [.text inp.runId, .text attemptId, .text inp.patchPlan.sha256]
  runId := inp.runId
  caseId := inp.caseId
  iteration := inp.iteration
  baseSnapshotId := inp.currentSnapshot.snapshotId
  bundleIds := inp.bundleIds.insertionSort (· ≤ ·)
  patchPlanRef := env.writeRef (inp.attemptPrefix attemptId ++ ["transaction", "patch_plan.json"])
    "prepare_transaction"
  jobDir := job.hostPath
  status := .prepared
  executionProtocolVersion := env.executionProtocolVersion
  attemptId := some attemptId
  logicalEvidenceKey := some env.evidenceKey
  executionEpoch := some inp.trace.executionEpoch
  purpose := some inp.trace.purpose

/-- `attempted_snapshot_id`. -/
def attemptedSnapshotId (env : Env) (transactionId : String) : String :=
  "snapshot_" ++ env.stableHash [.text transactionId, .text "attempted"]

/-- From the preflight to the registered, running transaction. -/
def prepareAttempt (env : Env) (inp : ExecuteInput) : Exec Prepared := do
  let before ← preflight env inp
  let (request, job) ← prepareLoop env inp ⟨env.newAttemptId 0, inp.retryOfAttemptId⟩
  checkOwnership env request job
  let attemptId := request.requestedAttemptId
  phase env attemptId "WORKSPACE_READY"
  perform env .writePatchPlan
    (·.store (inp.attemptPrefix attemptId ++ ["transaction", "patch_plan.json"]) .other)
  phase env attemptId "PATCH_REGISTERED"
  pure ⟨attemptId, before, { initialTransaction env inp attemptId job with status := .running }⟩

/-! ## Applying the patch -/

/-- `_post_patch_object_matches`. -/
def postPatchObjectMatches (original : Option LayoutObject) (patchedObjects : List LayoutObject)
    (expectedHash : String) : Bool :=
  match original with
  | none => false
  | some original =>
    let anchored := patchedObjects.filter fun item => item.sourceAnchorId = original.sourceAnchorId
    if anchored.any fun item => item.geometryHash = expectedHash then true
    else if original.sourceVariable.getD "" = "" ∨ original.sourceCell.getD "" = "" then false
    else
      match patchedObjects.filter fun item =>
          item.sourceVariable = original.sourceVariable ∧ item.sourceCell = original.sourceCell ∧
            item.layer = original.layer with
      | [item] => item.geometryHash = expectedHash
      | _ => false

/-- The first object whose geometry after the patch is not the planned one. -/
def geometryMismatch (env : Env) (inp : ExecuteInput) : Option String :=
  (inp.patchPlan.expectedObjectAfterHashes.find? fun (objectId, expectedHash) =>
    !postPatchObjectMatches (inp.sourceMap.reverse.find? (·.objectId = objectId))
      env.patchedObjects expectedHash).map (·.1)

/-- The transaction the patch-failure path persists. -/
def failedTransaction (t : Transaction) : Transaction :=
  { t with
    status := .failed
    terminalStatus := some .executionFailure
    rollbackReason := some "PATCH_APPLICATION_FAILED" }

/-- Stage `APPLY_PATCH`, with its failure path, the diff and the attempted script. -/
def applyPatch (env : Env) (inp : ExecuteInput) (p : Prepared) : Exec PUnit := do
  setStage "APPLY_PATCH" "CANDIDATE"
  ExcState.tryCatch
    (do
      call env .controlCheck
      call env .applyPatchPlan
      runIf env.hasLineage <|
        perform env .writeLineage
          (·.store (inp.attemptPrefix p.attemptId ++
            ["attempted", inp.caseId ++ ".lineage.json"]) .other)
      call env .buildMap
      match geometryMismatch env inp with
      | some objectId =>
        raise
          (.builtin .valueError "ValueError" ("POST_PATCH_GEOMETRY_HASH_MISMATCH: " ++ objectId))
      | none => pure ⟨⟩)
    fun exc =>
      if exc.isException then do
        perform env .writePatchFailure
          (·.store (inp.transactionPath p.attemptId)
            (.transaction (failedTransaction p.transaction)))
        runIf env.isKLayoutBackend (call env .markPatchFailure)
        raise
          (.builtin .valueError "ValueError" ("PATCH_APPLICATION_FAILED: " ++ exc.message))
      else raise exc
  call env .writeDiff
  call env .copyPatchedScript

/-! ## Physical evidence -/

/-- The local variables the evidence stages fill. -/
structure Evidence where
  tools : List ToolResult := []
  failure : Option (VerificationOutcome × String) := none
  failureStage : Option String := none
  scriptValidity : EvidenceValidity := .notEvaluated
  layoutValidity : EvidenceValidity := .notEvaluated
  drcValidity : EvidenceValidity := .notEvaluated
  sanityValidity : EvidenceValidity := .notEvaluated
  connectivityValidity : EvidenceValidity := .notEvaluated
  score : Option OfficialRepairScore := none
  reportRetried : Bool := false
  sanityData : EvidenceJson := .object false false
  connectivityData : EvidenceJson := .object false false

/-- All five validities are `VALID`. -/
def Evidence.complete (ev : Evidence) : Bool :=
  ev.scriptValidity = .valid ∧ ev.layoutValidity = .valid ∧ ev.drcValidity = .valid ∧
    ev.sanityValidity = .valid ∧ ev.connectivityValidity = .valid

/-- The failure of a tool that did not succeed. -/
def toolFailure (tool : ToolResult) (outcome : VerificationOutcome) (code : String) :
    VerificationOutcome × String :=
  if tool.status = .cancelled then (.cancelled, "CANCELLED") else (outcome, code)

/-- `if failure is None:`. -/
def Evidence.unlessFailed (ev : Evidence) (stage : Evidence → Exec Evidence) : Exec Evidence :=
  if ev.failure = none then stage ev else pure ev

/-- The validity a tool stage writes. -/
inductive EvidenceKind
  | script
  | layout
  | drc
  | sanity
  | connectivity
  deriving DecidableEq

/-- Assign one validity. -/
def Evidence.setValidity (ev : Evidence) (kind : EvidenceKind) (v : EvidenceValidity) : Evidence :=
  match kind with
  | .script => { ev with scriptValidity := v }
  | .layout => { ev with layoutValidity := v }
  | .drc => { ev with drcValidity := v }
  | .sanity => { ev with sanityValidity := v }
  | .connectivity => { ev with connectivityValidity := v }

/-- `tools.append(tool)`. -/
def Evidence.addTool (ev : Evidence) (tool : ToolResult) : Evidence :=
  { ev with tools := ev.tools ++ [tool] }

/-- `score = ...`. -/
def Evidence.withScore (ev : Evidence) (score : OfficialRepairScore) : Evidence :=
  { ev with score := some score }

/-- `report_path = retry_path`. -/
def Evidence.retried (ev : Evidence) : Evidence := { ev with reportRetried := true }

/-- Mark the evidence as failed: validity `ERROR`, the stage and the failure. -/
def Evidence.fail (ev : Evidence) (kind : EvidenceKind) (stage : String)
    (failure : VerificationOutcome × String) : Evidence :=
  { ev.setValidity kind .error with failure := some failure, failureStage := some stage }

/-- A tool stage: set the stage, run the tool, record its result. `onSuccess`
is the `else` branch. -/
def toolStage (env : Env) (stage : String) (site : Site) (tool : ToolResult) (kind : EvidenceKind)
    (outcome : VerificationOutcome) (code : String) (onSuccess : Evidence → Exec Evidence)
    (ev : Evidence) : Exec Evidence := do
  setStage stage
  call env site
  let ev := ev.addTool tool
  if tool.status = .success then onSuccess ev
  else pure (ev.fail kind stage (toolFailure tool outcome code))

def validateScript (env : Env) : Evidence → Exec Evidence :=
  toolStage env "VALIDATE_SCRIPT" .validateScript env.validate .script .syntaxFailure
    "SCRIPT_VALIDATION_FAILED" fun ev => pure (ev.setValidity .script .valid)

def generateLayout (env : Env) (attemptId : String) : Evidence → Exec Evidence :=
  toolStage env "GENERATE_LAYOUT" .runLayoutGeneration env.layout .layout .layoutGenerationFailure
    "LAYOUT_GENERATION_FAILED" fun ev => do
      phase env attemptId "LAYOUT_GENERATED"
      pure (ev.setValidity .layout .valid)

/-- A successful DRC run leaves the validity to the report stages. -/
def runDrc (env : Env) : Evidence → Exec Evidence :=
  toolStage env "RUN_DRC" .runDrc env.drc .drc .drcExecutionFailure "DRC_EXECUTION_FAILED" pure

/-- Stage `VALIDATE_DRC_REPORT`, with its one retry. -/
def validateDrcReport (env : Env) (ev : Evidence) : Exec Evidence := do
  setStage "VALIDATE_DRC_REPORT"
  ExcState.tryCatch (do call env (.validateLyrpt false); pure ev) fun exc =>
    if exc.isValueError then do
      call env .runDrcRetry
      let ev := ev.addTool env.drcRetry
      ExcState.tryCatch
        (do
          runIf (env.drcRetry.status ≠ .success) <|
            raise (.builtin .valueError "ValueError" "retry execution failed")
          call env (.validateLyrpt true)
          pure ev.retried)
        fun exc =>
          if exc.isValueError then
            pure (ev.fail .drc "VALIDATE_DRC_REPORT"
              (.drcExecutionFailure, "INVALID_LYRPT_XML_AFTER_RETRY"))
          else raise exc
    else raise exc

/-- `except Exception` of the conversion stage. -/
def evaluatorFailure (ev : Evidence) (exc : PyExc) : Exec Evidence :=
  if exc.isException then
    pure (ev.fail .drc "CONVERT_DRC_REPORT"
      (.drcExecutionFailure, "EVALUATOR_FAILURE_" ++ exc.typeName))
  else raise exc

/-- Stage `CONVERT_DRC_REPORT`. An exception of the last ledger row finds the
score already assigned. -/
def convertDrcReport (env : Env) (attemptId : String) (ev : Evidence) : Exec Evidence := do
  setStage "CONVERT_DRC_REPORT"
  ExcState.tryCatch
    (do
      call env .reportRef
      call env .convertLyrptToJson
      call env .scoreRepair
      let ev := ev.withScore env.score
      ExcState.tryCatch
        (do
          phase env attemptId "DRC_VERIFIED"
          pure (ev.setValidity .drc .valid))
        (evaluatorFailure ev))
    (evaluatorFailure ev)

/-- Read an evidence file; a missing or unreadable one is a failure of `kind`. -/
def readEvidence (env : Env) (isFile : Bool) (site : Site) (kind : EvidenceKind) (stage : String)
    (outcome : VerificationOutcome) (code : String) (onSuccess : Evidence → Evidence)
    (ev : Evidence) : Exec Evidence :=
  ExcState.tryCatch
    (do
      runIf (!isFile) <| raise (.builtin .osError "FileNotFoundError" stage)
      call env site
      pure (onSuccess ev))
    fun exc =>
      if exc.isOSError || exc.isValueError then
        pure (ev.fail kind stage (outcome, code ++ exc.typeName))
      else raise exc

def runSanity (env : Env) : Evidence → Exec Evidence :=
  toolStage env "SANITY" .runSanity env.sanity .sanity .gdsSanityFailure "SANITY_EXECUTION_FAILED"
    pure

def readSanity (env : Env) : Evidence → Exec Evidence :=
  readEvidence env env.sanityIsFile .readSanity .sanity "SANITY_EVIDENCE" .gdsSanityFailure
    "SANITY_EVIDENCE_INVALID_" fun ev =>
      { ev.setValidity .sanity .valid with sanityData := env.sanityJson }

def runConnectivity (env : Env) : Evidence → Exec Evidence :=
  toolStage env "CONNECTIVITY" .runConnectivity env.connectivity .connectivity .connectivityFailure
    "CONNECTIVITY_EXECUTION_FAILED" pure

def readConnectivity (env : Env) : Evidence → Exec Evidence :=
  readEvidence env env.connectivityIsFile .readConnectivity .connectivity "CONNECTIVITY_EVIDENCE"
    .connectivityFailure "CONNECTIVITY_EVIDENCE_INVALID_" fun ev =>
      { ev.setValidity .connectivity .valid with connectivityData := env.connectivityJson }

/-- All evidence stages; each but the first runs only while nothing has failed. -/
def gatherEvidence (env : Env) (attemptId : String) : Exec Evidence := do
  let ev ← validateScript env {}
  let ev ← ev.unlessFailed (generateLayout env attemptId)
  let ev ← ev.unlessFailed (runDrc env)
  let ev ← ev.unlessFailed (validateDrcReport env)
  let ev ← ev.unlessFailed (convertDrcReport env attemptId)
  let ev ← ev.unlessFailed (runSanity env)
  let ev ← ev.unlessFailed (readSanity env)
  let ev ← ev.unlessFailed (runConnectivity env)
  ev.unlessFailed (readConnectivity env)

/-! ## The verification result -/

/-- Stage `DRC_DELTA`: identities are kept only when they match the score. -/
def violationDelta (env : Env) (ev : Evidence) : Exec DeltaEvidence :=
  match ev.drcValidity, ev.score with
  | .valid, some score => do
    setStage "DRC_DELTA"
    call env .violationDelta
    pure { env.delta with
      removedViolationIds :=
        if (env.delta.removedViolationIds.length : ℤ) ≠ score.removedViolations then []
        else env.delta.removedViolationIds
      newViolationIds :=
        if (env.delta.newViolationIds.length : ℤ) ≠ score.newViolations then []
        else env.delta.newViolationIds }
  | _, _ => pure {}

/-- `terminal_status`. -/
def Evidence.terminalStatus (ev : Evidence) : AttemptTerminalStatus :=
  match ev.failure with
  | some (.cancelled, _) => .cancelled
  | _ => if ev.complete then .evaluated else .executionFailure

/-- `bool(data.get("passed", False))`. -/
def EvidenceJson.passed : EvidenceJson → Except PyExc Bool
  | object passed _ => .ok passed
  | notAnObject => .error (.builtin .otherException "AttributeError" "get")

/-- `bool(data.get("passed", False) and data.get("connectivity_preserved", False))`. -/
def EvidenceJson.connectivityPreserved : EvidenceJson → Except PyExc Bool
  | object passed preserved => .ok (passed && preserved)
  | notAnObject => .error (.builtin .otherException "AttributeError" "get")

/-- The outcome of an attempt none of whose stages failed. -/
def evaluatedOutcome (sanityPass connectivityPreserved : Bool) (score : OfficialRepairScore) :
    VerificationOutcome :=
  if !sanityPass then .gdsSanityFailure
  else if !connectivityPreserved then .connectivityFailure
  else if score.newViolations ≠ 0 then .newDrcIntroduced
  else if score.removedViolations ≤ 0 then .drcNoProgress
  else .success

/-- The fields both verification records share. -/
def verificationBase (env : Env) (p : Prepared) (ev : Evidence) (delta : DeltaEvidence)
    (verificationId : String) (outcome : VerificationOutcome) : VerificationResult where
  verificationId := verificationId
  transactionId := p.transaction.transactionId
  outcome := outcome
  scriptValid := none
  gdsSanityPass := none
  connectivityPreserved := none
  baselineResidualCount := p.before
  residualViolationCount := ev.score.map (·.finalViolations)
  newViolationCount := ev.score.map (·.newViolations)
  removedOriginalCount := ev.score.map (·.removedViolations)
  removedOriginalViolationIds := delta.removedViolationIds
  removedOriginalMarkerFingerprints := delta.removedMarkerFingerprints
  newViolationIds := delta.newViolationIds
  newMarkerFingerprints := delta.newMarkerFingerprints
  executionProtocolVersion := env.executionProtocolVersion
  attemptId := some p.attemptId
  terminalStatus := some ev.terminalStatus
  scriptValidity := ev.scriptValidity
  layoutValidity := ev.layoutValidity
  drcValidity := ev.drcValidity
  sanityValidity := ev.sanityValidity
  connectivityValidity := ev.connectivityValidity
  freshEvidenceValid := ev.complete

/-- The record of an attempt with a failed stage. -/
def failedRecord (env : Env) (p : Prepared) (ev : Evidence) (delta : DeltaEvidence)
    (outcome : VerificationOutcome) (code : String) (sanityPass preserved : Option Bool) :
    VerificationResult :=
  { verificationBase env p ev delta
      ("verification_" ++ env.stableHash [.text p.transaction.transactionId, .text code])
      outcome with
    scriptValid :=
      if ev.scriptValidity ≠ .notEvaluated then some (env.validate.status = .success) else none
    gdsSanityPass := sanityPass
    connectivityPreserved := preserved
    failureCodes := [code]
    failureDomain := some "EXECUTION"
    failureStage := ev.failureStage }

/-- The record of an attempt all of whose stages went through. -/
def evaluatedRecord (env : Env) (p : Prepared) (ev : Evidence) (delta : DeltaEvidence)
    (score : OfficialRepairScore) (sanityPass preserved : Bool) : VerificationResult :=
  let outcome := evaluatedOutcome sanityPass preserved score
  { verificationBase env p ev delta
      ("verification_" ++ env.stableHash [.text p.transaction.transactionId, .score score,
        .evidence ev.sanityData, .evidence ev.connectivityData]) outcome with
    scriptValid := some (env.validate.status = .success)
    gdsSanityPass := some sanityPass
    connectivityPreserved := some preserved
    baselineResidualCount := score.originalViolations
    failureCodes := if outcome = .success then [] else [outcome.value] }

/-- `value if validity == VALID else None`. -/
def ifValid (validity : EvidenceValidity) (value : Except PyExc Bool) :
    Except PyExc (Option Bool) :=
  if validity = .valid then value.map some else .ok none

/-- The `failure is not None` branch. -/
def failedVerification (env : Env) (p : Prepared) (ev : Evidence) (delta : DeltaEvidence)
    (outcome : VerificationOutcome) (code : String) : Except PyExc VerificationResult := do
  let sanityPass ← ifValid ev.sanityValidity ev.sanityData.passed
  let preserved ← ifValid ev.connectivityValidity ev.connectivityData.connectivityPreserved
  pure (failedRecord env p ev delta outcome code sanityPass preserved)

/-- The `else` branch. -/
def evaluatedVerification (env : Env) (p : Prepared) (ev : Evidence) (delta : DeltaEvidence) :
    Except PyExc VerificationResult := do
  let sanityPass ← ev.sanityData.passed
  let preserved ← ev.connectivityData.connectivityPreserved
  match ev.score with
  | none => .error (.builtin .otherException "AttributeError" "new_violations")
  | some score => pure (evaluatedRecord env p ev delta score sanityPass preserved)

/-- The `VerificationResult` call of either branch. -/
def verificationRecord (env : Env) (p : Prepared) (ev : Evidence) (delta : DeltaEvidence) :
    Except PyExc VerificationResult :=
  match ev.failure with
  | some (outcome, code) => failedVerification env p ev delta outcome code
  | none => evaluatedVerification env p ev delta

/-- Pydantic runs the validator and reports its text as a `ValidationError`. -/
def validated (v : VerificationResult) : Except PyExc VerificationResult :=
  match v.validate with
  | .ok v => .ok v
  | .error text => .error (.builtin .valueError "ValidationError" text)

/-- The verification record, run through its validator. -/
def buildVerification (env : Env) (p : Prepared) (ev : Evidence) (delta : DeltaEvidence) :
    Except PyExc VerificationResult :=
  verificationRecord env p ev delta >>= validated

/-- **The two records.**  A verification that could be built is the failed record
of a failed stage, or the evaluated record of a score. -/
theorem buildVerification_cases {env : Env} {p : Prepared} {ev : Evidence} {delta : DeltaEvidence}
    {v : VerificationResult} (h : buildVerification env p ev delta = .ok v) :
    (∃ outcome code sanityPass preserved, ev.failure = some (outcome, code) ∧
      v = failedRecord env p ev delta outcome code sanityPass preserved) ∨
    (∃ score sanityPass preserved, ev.failure = none ∧ ev.score = some score ∧
      v = evaluatedRecord env p ev delta score sanityPass preserved) := by
  obtain ⟨v₀, hv₀, h⟩ := except_bind_ok h
  obtain rfl : v = v₀ := by
    unfold validated at h
    cases hval : v₀.validate with
    | error text => simp [hval] at h
    | ok v' =>
      rw [hval] at h
      rw [← Except.ok.inj h]
      exact VerificationResult.eq_of_validate hval
  unfold verificationRecord at hv₀
  cases hf : ev.failure with
  | some failure =>
    rw [hf] at hv₀
    change failedVerification env p ev delta failure.1 failure.2 = .ok v at hv₀
    unfold failedVerification at hv₀
    obtain ⟨sanityPass, -, hv₀⟩ := except_bind_ok hv₀
    obtain ⟨preserved, -, hv₀⟩ := except_bind_ok hv₀
    exact Or.inl ⟨failure.1, failure.2, sanityPass, preserved, rfl, (Except.ok.inj hv₀).symm⟩
  | none =>
    rw [hf] at hv₀
    change evaluatedVerification env p ev delta = .ok v at hv₀
    unfold evaluatedVerification at hv₀
    obtain ⟨sanityPass, -, hv₀⟩ := except_bind_ok hv₀
    obtain ⟨preserved, -, hv₀⟩ := except_bind_ok hv₀
    cases hs : ev.score with
    | none => simp [hs] at hv₀
    | some score =>
      rw [hs] at hv₀
      exact Or.inr ⟨score, sanityPass, preserved, rfl, rfl, (Except.ok.inj hv₀).symm⟩

/-- The record carries the terminal status of the evidence. -/
theorem terminalStatus_of_buildVerification {env : Env} {p : Prepared} {ev : Evidence}
    {delta : DeltaEvidence} {v : VerificationResult}
    (h : buildVerification env p ev delta = .ok v) :
    v.terminalStatus = some ev.terminalStatus := by
  obtain ⟨_, _, _, _, -, rfl⟩ | ⟨_, _, _, -, -, rfl⟩ := buildVerification_cases h
  · rfl
  · rfl

/-! ## Persisting the attempt -/

/-- `store.copy` of a file of the attempt into `dir`. -/
def copyOf (env : Env) (sha256 : String) (dir : Path) (caseId suffix producer mediaType : String) :
    ArtifactRef :=
  env.copyRef sha256 (dir ++ [caseId ++ suffix]) producer mediaType

/-- The snapshot `_copy_snapshot` returns: new locations for the artifacts,
everything else as it was. -/
def snapshotCopy (env : Env) (snapshot : DesignSnapshotRef) (dir : Path) (caseId : String) :
    DesignSnapshotRef :=
  let copied := fun (ref : ArtifactRef) suffix mediaType =>
    copyOf env ref.sha256 dir caseId suffix "transaction.snapshot" mediaType
  { snapshot with
    scriptRef := copied snapshot.scriptRef ".py" "text/x-python"
    gdsRef := snapshot.gdsRef.map fun ref => copied ref ".gds" "application/gds"
    drcRef := snapshot.drcRef.map fun ref => copied ref ".drc.json" "application/json"
    lineageReceiptRef :=
      snapshot.lineageReceiptRef.map fun ref => copied ref ".lineage.json" "application/json" }

/-- `_copy_snapshot`. -/
def copySnapshot (env : Env) (snapshot : DesignSnapshotRef) (dir : Path) (caseId : String) :
    Exec DesignSnapshotRef := do
  call env (.copyCommitted ".py")
  runIf snapshot.gdsRef.isSome (call env (.copyCommitted ".gds"))
  runIf snapshot.drcRef.isSome (call env (.copyCommitted ".drc.json"))
  runIf snapshot.lineageReceiptRef.isSome (call env (.copyCommitted ".lineage.json"))
  pure (snapshotCopy env snapshot dir caseId)

/-- The total of the attempted report, when the evidence carries one. -/
def attemptedTotal (env : Env) (ev : Evidence) : Exec (Option ℤ) :=
  if ev.drcValidity = .valid ∧ env.attemptedDrcIsFile = true then do
    call env .attemptedStatistics
    pure (some (env.totalDrv env.attemptedDrcSha256))
  else pure none

/-- The score of the attempted snapshot. -/
def snapshotScore (v : VerificationResult) : Option (ℤ × ℤ × ℤ) :=
  match v.newViolationCount, v.residualViolationCount, v.connectivityPreserved with
  | some new, some residual, some preserved => some (if preserved then 1 else 0, -new, -residual)
  | _, _, _ => none

/-- `attempted_snapshot`. With a lineage it carries its parent edge. -/
def attemptedSnapshot (env : Env) (inp : ExecuteInput) (p : Prepared) (v : VerificationResult) :
    DesignSnapshotRef :=
  let dir := inp.attemptPrefix p.attemptId ++ ["attempted"]
  { snapshotId := attemptedSnapshotId env p.transaction.transactionId
    scriptRef := copyOf env env.patchedScriptSha256 dir inp.caseId ".py" "execute_transaction"
      "text/x-python"
    gdsRef :=
      if env.gdsIsFile then
        some (copyOf env env.gdsSha256 dir inp.caseId ".gds" "execute_transaction"
          "application/gds")
      else none
    lineageReceiptRef :=
      if env.hasLineage then
        some (env.writeRef (dir ++ [inp.caseId ++ ".lineage.final.json"]) "execute_transaction")
      else none
    drcRef :=
      if env.attemptedDrcIsFile then
        some (copyOf env env.attemptedDrcSha256 dir inp.caseId ".drc.json" "convert_report"
          "application/json")
      else none
    connectivityRef := none
    parentSnapshotId := if env.hasLineage then some inp.currentSnapshot.snapshotId else none
    parentScriptRef := if env.hasLineage then some inp.currentSnapshot.scriptRef else none
    provenanceRunId := if env.hasLineage then some inp.runId else none
    provenanceRelationSource :=
      if env.hasLineage then some "COMPILER_REPARSE_PARENT_CHILD" else none
    score := snapshotScore v }

/-- The copies of the attempted files, and the final lineage receipt. -/
def persistAttempted (env : Env) (inp : ExecuteInput) (p : Prepared) (ev : Evidence) :
    Exec (Option ℤ) := do
  setStage "PERSIST_ATTEMPT"
  call env (.copyAttempted ".py")
  runIf env.gdsIsFile (call env (.copyAttempted ".gds"))
  runIf env.reportIsFile <|
    call env (.copyAttempted (if ev.reportRetried then ".retry.lyrpt" else ".lyrpt"))
  runIf env.attemptedDrcIsFile (call env (.copyAttempted ".drc.json"))
  let total ← attemptedTotal env ev
  runIf env.hasLineage <|
    perform env .writeFinalLineage
      (·.store (inp.attemptPrefix p.attemptId ++
        ["attempted", inp.caseId ++ ".lineage.final.json"]) .other)
  pure total

/-- The committed snapshot and its total: the attempted one if it was accepted,
the current one otherwise. -/
def commitSnapshot (env : Env) (inp : ExecuteInput) (p : Prepared) (accepted : Bool)
    (attempted : DesignSnapshotRef) (total : Option ℤ) : Exec (DesignSnapshotRef × ℤ) := do
  let dir := inp.attemptPrefix p.attemptId ++ ["committed"]
  if accepted then do
    let committed ← copySnapshot env attempted dir inp.caseId
    match total with
    | some total => pure (committed, total)
    | none => raise (.builtin .otherException "AssertionError" "")
  else do
    let committed ← copySnapshot env inp.currentSnapshot dir inp.caseId
    pure (committed, p.before)

/-- `transaction.status`. -/
def finalStatus (terminalStatus : AttemptTerminalStatus) (accepted : Bool) : TransactionStatus :=
  if terminalStatus = .cancelled then .cancelled
  else if accepted then .committed
  else .rolledBack

/-- `rollback_reason`. -/
def rollbackReason (decision : AcceptanceDecision) (v : VerificationResult) : Option String :=
  if decision.accepted then none
  else some (",".intercalate (if decision.reasons = [] then v.failureCodes else decision.reasons))

/-- The transaction as `commit_or_rollback` writes it. -/
def finalTransaction (env : Env) (inp : ExecuteInput) (p : Prepared) (ev : Evidence)
    (v : VerificationResult) (decision : AcceptanceDecision) : Transaction :=
  { p.transaction with
    toolResults := ev.tools
    terminalStatus := some ev.terminalStatus
    status := finalStatus ev.terminalStatus decision.accepted
    verificationResultRef := some (env.writeRef
      (inp.attemptPrefix p.attemptId ++ ["verification", "verification.json"]) "verify_result")
    decisionReasons := decision.reasons
    rollbackReason := rollbackReason decision v }

/-- An evaluated attempt, about to be published. -/
structure Evaluated where
  attemptId : String
  terminalStatus : AttemptTerminalStatus
  verification : VerificationResult
  decision : AcceptanceDecision
  transaction : Transaction
  attempted : DesignSnapshotRef
  committed : DesignSnapshotRef
  attemptedTotal : Option ℤ
  committedTotal : ℤ

/-- Everything before the write of the finished `transaction.json`. -/
def evaluateAttempt (env : Env) (inp : ExecuteInput) : Exec Evaluated := do
  let p ← prepareAttempt env inp
  applyPatch env inp p
  let ev ← gatherEvidence env p.attemptId
  let delta ← violationDelta env ev
  let v ← ExcState.lift (buildVerification env p ev delta)
  setStage "ACCEPTANCE"
  let decision := evaluateAcceptance v env.acceptance
  let total ← persistAttempted env inp p ev
  let attempted := attemptedSnapshot env inp p v
  let (committed, committedTotal) ← commitSnapshot env inp p decision.accepted attempted total
  perform env .writeVerification
    (·.store (inp.attemptPrefix p.attemptId ++ ["verification", "verification.json"])
      (.verification v))
  pure {
    attemptId := p.attemptId
    terminalStatus := ev.terminalStatus
    verification := v
    decision := decision
    transaction := finalTransaction env inp p ev v decision
    attempted := attempted
    committed := committed
    attemptedTotal := total
    committedTotal := committedTotal }

/-! ## Publishing the attempt -/

/-- The files copied to the latest-transaction aliases. -/
def aliasFiles : List Path :=
  [["transaction", "patch_plan.json"], ["transaction", "transaction.json"],
    ["transaction", "combined.diff"], ["verification", "verification.json"]]

/-- The two snapshot directories, with the files listed in each. -/
def snapshotFiles (env : Env) : List Path :=
  ["attempted", "committed"].flatMap fun name =>
    ((env.listDir name).insertionSort (· ≤ ·)).map fun source => [name, source]

/-- Copy the files of the attempt, if they are there, below `target`. -/
def copyAliases (env : Env) (inp : ExecuteInput) (attemptId : String) (site : Path → Site)
    (target : Path) (relatives : List Path) : Exec PUnit :=
  ExcState.forEach
    (fun relative =>
      perform env (site relative)
        (·.copy (inp.attemptPrefix attemptId ++ relative) (target ++ relative)))
    (relatives.filter fun relative => env.isFile (inp.attemptPrefix attemptId ++ relative))

/-- The pointer to the latest attempt. -/
def latestAttempt (env : Env) (inp : ExecuteInput) (e : Evaluated) : LatestAttemptPointer where
  executionProtocolVersion := env.executionProtocolVersion
  attemptId := e.attemptId
  logicalEvidenceKey := env.evidenceKey
  terminalStatus := e.terminalStatus
  transactionRef := inp.transactionPath e.attemptId
  verificationRef := env.writeRef
    (inp.attemptPrefix e.attemptId ++ ["verification", "verification.json"]) "verify_result"

/-- `transaction.json`, the pointer and the aliases. -/
def writeArtifacts (env : Env) (inp : ExecuteInput) (e : Evaluated) : Exec PUnit := do
  perform env .writeTransaction
    (·.store (inp.transactionPath e.attemptId) (.transaction e.transaction))
  perform env .writeLatestAttempt
    (·.store inp.latestAttemptPath (.latestAttempt (latestAttempt env inp e)))
  copyAliases env inp e.attemptId .copyAlias inp.basePrefix (snapshotFiles env)
  copyAliases env inp e.attemptId .copyAlias inp.basePrefix aliasFiles
  match inp.legacyArtifactPrefix with
  | none => pure ⟨⟩
  | some legacy => copyAliases env inp e.attemptId .copyLegacyAlias legacy aliasFiles

/-- `mark_job_state` and `collect_results`. -/
def collectResults (env : Env) : Exec PUnit := do
  runIf env.isKLayoutBackend (call env .markJobState)
  setStage "COLLECT_RESULTS" "INFRASTRUCTURE"
  wrapping
    (fun exc => backendFailure env ("ARTIFACT_PUBLICATION_FAILED: " ++ exc.message)
      "ARTIFACT_PUBLICATION" exc.isOSError (some exc.typeName) "COLLECT_RESULTS")
    (call env .collectResults)

/-- The tools of the attempt after `remap_tool_results`. -/
def remappedTools (env : Env) (e : Evaluated) : List ToolResult :=
  match env.remap with
  | none => e.transaction.toolResults
  | some remap => remap e.transaction.toolResults

/-- The transaction after `remap_tool_results`. -/
def remappedTransaction (env : Env) (e : Evaluated) : Transaction :=
  { e.transaction with toolResults := remappedTools env e }

/-- `remap_tool_results`, for a backend that has it, and the second write. -/
def remapToolResults (env : Env) (inp : ExecuteInput) (e : Evaluated) : Exec PUnit :=
  match env.remap with
  | none => pure ⟨⟩
  | some _ =>
    wrapping
      (fun exc => backendFailure env ("ARTIFACT_REFERENCE_REMAP_FAILED: " ++ exc.message)
        "ARTIFACT_PUBLICATION" false (some exc.typeName) "COLLECT_RESULTS")
      (do
        call env .remapToolResults
        perform env .writeRemapped
          (·.store (inp.transactionPath e.attemptId) (.transaction (remappedTransaction env e)))
        perform env .copyRemapped
          (·.copy (inp.transactionPath e.attemptId)
            (inp.basePrefix ++ ["transaction", "transaction.json"]))
        match inp.legacyArtifactPrefix with
        | none => pure ⟨⟩
        | some legacy =>
          perform env .copyRemappedLegacy
            (·.copy (inp.transactionPath e.attemptId)
              (legacy ++ ["transaction", "transaction.json"])))

/-- The stage `CLEANUP`. -/
def cleanup (env : Env) : Exec PUnit := do
  setStage "CLEANUP" "INFRASTRUCTURE"
  wrapping
    (fun exc => backendFailure env ("WORKSPACE_CLEANUP_FAILED: " ++ exc.message)
      "WORKSPACE_OWNERSHIP" false (some exc.typeName) "CLEANUP")
    (call env .cleanup)

/-- A tool that could not be run at all. -/
def infraTool (tools : List ToolResult) : Option ToolResult :=
  tools.find? fun item =>
    item.errorCode = some "EXECUTABLE_NOT_FOUND" ∨ item.errorCode = some "INVALID_INPUT_PATH"

/-- `value or fallback` on an optional text. -/
def orText (value : Option String) (fallback : String) : String :=
  match value with
  | some "" => fallback
  | some text => text
  | none => fallback

/-- The failure of a tool that could not be run. -/
def infraToolFailure (env : Env) (tool : ToolResult) : PyExc :=
  backendFailure env
    (orText tool.errorMessage (orText tool.errorCode "EDA unavailable"))
    "EDA_UNAVAILABLE" false tool.errorCode tool.action

/-- `if infra_tool is not None: raise`. -/
def checkInfraTool (env : Env) (tools : List ToolResult) : Exec PUnit :=
  match infraTool tools with
  | none => pure ⟨⟩
  | some tool => raise (infraToolFailure env tool)

/-- The steps from the first write of `transaction.json` to the terminal row. -/
def publishAttempt (env : Env) (inp : ExecuteInput) (e : Evaluated) : Exec PUnit := do
  writeArtifacts env inp e
  collectResults env
  remapToolResults env inp e
  cleanup env
  checkInfraTool env (remappedTools env e)

/-- The details of the terminal row of a published attempt. -/
def publishedDetails (env : Env) (e : Evaluated) : TerminalDetails where
  verificationOutcome := some e.verification.outcome
  freshEvidenceValid := some e.verification.freshEvidenceValid
  drcValidity := some e.verification.drcValidity
  sanityValidity := some e.verification.sanityValidity
  connectivityValidity := some e.verification.connectivityValidity
  accepted := some e.decision.accepted
  workspaceRetained := some (env.keepFailedWorkspace && !e.decision.accepted)

/-- The result of a published attempt. -/
def resultOf (env : Env) (e : Evaluated) : TransactionExecutionResult where
  transaction := remappedTransaction env e
  verification := e.verification
  accepted := e.decision.accepted
  decisionReasons := e.decision.reasons
  attemptedSnapshot := e.attempted
  committedSnapshot := e.committed
  attemptedTotalDrv := e.attemptedTotal
  committedTotalDrv := e.committedTotal
  rollbackReason := e.transaction.rollbackReason
  attemptId := some e.attemptId
  logicalEvidenceKey := some env.evidenceKey

/-- The undecorated body of `execute`. -/
def executeBody (env : Env) (inp : ExecuteInput) : Exec TransactionExecutionResult := do
  let e ← evaluateAttempt env inp
  publishAttempt env inp e
  terminal env e.terminalStatus (publishedDetails env e)
  pure (resultOf env e)

/-- **`TransactionExecutor.execute`**, with its accounting decorator. -/
def execute (env : Env) (inp : ExecuteInput) : Exec TransactionExecutionResult :=
  accountPhysicalAttempts env (executeBody env inp)

/-! ## An execution in which nothing goes wrong -/

/-- A tool that succeeded. -/
def ToolResult.ok (action : String) : ToolResult where
  action := action
  status := .success

/-- An environment without faults: every tool succeeds, the evidence passes, and
the score removes two of three violations. -/
def sampleEnv : Env where
  fault := fun _ => none
  newAttemptId := fun n => if n = 0 then "attempt_a" else "attempt_b"
  stableHash := fun parts => String.join (parts.map fun
    | .text value => value
    | _ => "")
  evidenceKey := "key"
  reservation := fun _ => none
  storagePause := fun _ => none
  job := fun a => ⟨some a, ["jobs", a]⟩
  validate := .ok "validate_script"
  layout := .ok "run_layout_generation"
  drc := .ok "run_drc"
  drcRetry := .ok "run_drc"
  sanity := .ok "run_sanity"
  connectivity := .ok "run_connectivity"
  remap := none
  hasLineage := true
  patchedObjects := []
  score := ⟨3, 1, 2, 0⟩
  sanityJson := .object true true
  connectivityJson := .object true true
  delta := {}
  totalDrv := fun sha => if sha = "drc_0" then 3 else 1
  patchedScriptSha256 := "script_1"
  gdsSha256 := "gds_1"
  attemptedDrcSha256 := "drc_1"
  copyRef := fun sha path producer media => ⟨path, sha, media, producer, none, none⟩
  writeRef := fun path producer => ⟨path, "json", "application/json", producer, none, none⟩
  listDir := fun _ => []
  isFile := fun _ => true

/-- An artifact of the sample baseline. -/
def sampleRef (name : String) : ArtifactRef := ⟨["baseline", name], name, "text", "case", none, none⟩

/-- The baseline of the sample case. -/
def sampleBaseline : DesignSnapshotRef where
  snapshotId := "baseline"
  scriptRef := sampleRef "script_0"
  gdsRef := some (sampleRef "gds_0")
  drcRef := some (sampleRef "drc_0")

/-- A request against the sample baseline. -/
def sampleInput : ExecuteInput where
  runId := "run"
  caseId := "case"
  iteration := 1
  baselineSnapshot := sampleBaseline
  currentSnapshot := sampleBaseline
  patchPlan := { sha256 := "plan" }
  artifactPrefix := some ["artifacts"]

end DRCAgent
