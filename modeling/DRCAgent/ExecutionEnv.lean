/-
# What an execution can meet

Everything `TransactionExecutor.execute` gets from outside its own control flow:
the Python exceptions it tells apart, the call sites at which one can be raised,
and the record `Env` that says, for one execution, what each outside call
returns and where an exception is raised. A theorem over every `Env` is a
theorem over every combination of tool outcomes and every exception point.

A fault says whether the effect of the call had already landed when the
exception left it: a row can be durable although `append_jsonl` raised on the
way out. An asynchronous exception between two calls is a fault of the next
call that did not land.
-/
import DRCAgent.ExcState
import DRCAgent.Acceptance

namespace DRCAgent

/-! ## Exceptions -/

/-- The built-in exception families the handlers of the executor distinguish. -/
inductive ExcClass
  | osError
  | valueError
  | runtimeError
  | otherException
  | baseException
  deriving DecidableEq

/-- `InfrastructureFailure`; with a `pauseScope` it is an `InfrastructurePause`. -/
structure InfrastructureFailure where
  message : String
  failureCode : String
  retryable : Bool
  provider : String
  model : String
  originalExceptionType : Option String := none
  failureStage : String := "LLM_REQUEST"
  pauseScope : Option String := none
  deriving DecidableEq

/-- `JobPreparationError`, raised by `prepare_job` alone. -/
structure JobPreparationError where
  message : String
  failureCode : String
  retryable : Bool
  workspace : String
  attemptId : String
  causeType : Option String := none
  deriving DecidableEq

/-- A Python exception, as far as the handlers look at it. -/
inductive PyExc
  | builtin (cls : ExcClass) (typeName message : String)
  | infrastructure (failure : InfrastructureFailure)
  | jobPreparation (failure : JobPreparationError)
  /-- `ordinary`: the class derives from `RuntimeError`, so `except Exception` sees it. -/
  | executionCancelled (ordinary : Bool)
  | keyboardInterrupt
  deriving DecidableEq

namespace PyExc

/-- `isinstance(exc, Exception)`. -/
def isException : PyExc → Bool
  | builtin .baseException _ _ => false
  | executionCancelled ordinary => ordinary
  | keyboardInterrupt => false
  | _ => true

/-- `isinstance(exc, RuntimeError)`. -/
def isRuntimeError : PyExc → Bool
  | builtin .runtimeError _ _ => true
  | infrastructure _ => true
  | jobPreparation _ => true
  | executionCancelled ordinary => ordinary
  | _ => false

/-- `isinstance(exc, ValueError)`. -/
def isValueError : PyExc → Bool
  | builtin .valueError _ _ => true
  | _ => false

/-- `isinstance(exc, OSError)`. -/
def isOSError : PyExc → Bool
  | builtin .osError _ _ => true
  | _ => false

/-- `isinstance(exc, InfrastructureFailure)`. -/
def isInfrastructure : PyExc → Bool
  | infrastructure _ => true
  | _ => false

/-- `isinstance(exc, (ExecutionCancelled, KeyboardInterrupt))`. -/
def isCancellation : PyExc → Bool
  | executionCancelled _ => true
  | keyboardInterrupt => true
  | _ => false

/-- `type(exc).__name__`. -/
def typeName : PyExc → String
  | builtin _ name _ => name
  | infrastructure f =>
    if f.pauseScope.isSome then "InfrastructurePause" else "InfrastructureFailure"
  | jobPreparation _ => "JobPreparationError"
  | executionCancelled _ => "ExecutionCancelled"
  | keyboardInterrupt => "KeyboardInterrupt"

/-- `str(exc)`. -/
def message : PyExc → String
  | builtin _ _ text => text
  | infrastructure f => f.message
  | jobPreparation f => f.message
  | executionCancelled _ => ""
  | keyboardInterrupt => ""

end PyExc

/-! ## Call sites -/

/-- The calls of one execution that can raise. Calls made in a loop carry the
name that tells the turns of the loop apart. -/
inductive Site
  -- the attempt ledger
  | claimFromEnvironment (attemptId : String)
  | appendJsonl (attemptId event : String)
  | finishClaim (attemptId : String)
  -- the accounting wrapper and the preparation loop
  | storagePauseFromException (stage : String)
  | recordStorageIncident (stage : String)
  | imageDigest
  | logicalEvidenceKey
  | currentStatistics
  | prepareJobRequest
  | prepareJob (attemptId : String)
  -- applying the patch
  | writePatchPlan
  | controlCheck
  | applyPatchPlan
  | writeLineage
  | buildMap
  | writePatchFailure
  | markPatchFailure
  | writeDiff
  | copyPatchedScript
  -- physical evidence
  | validateScript
  | runLayoutGeneration
  | runDrc
  | validateLyrpt (retry : Bool)
  | runDrcRetry
  | reportRef
  | convertLyrptToJson
  | scoreRepair
  | runSanity
  | readSanity
  | runConnectivity
  | readConnectivity
  | violationDelta
  -- persisting the attempt
  | copyAttempted (suffix : String)
  | attemptedStatistics
  | writeFinalLineage
  | copyCommitted (suffix : String)
  | writeVerification
  | writeTransaction
  -- after `transaction.json` is there
  | writeLatestAttempt
  | copyAlias (relative : Path)
  | copyLegacyAlias (relative : Path)
  | markJobState
  | collectResults
  | remapToolResults
  | writeRemapped
  | copyRemapped
  | copyRemappedLegacy
  | cleanup
  deriving DecidableEq

/-- An exception at a call site, and whether the call's effect had landed. -/
structure Fault where
  exc : PyExc
  landed : Bool

/-! ## What the outside calls return -/

/-- `OfficialRepairScore`, its counts. -/
structure OfficialRepairScore where
  originalViolations : ℤ
  finalViolations : ℤ
  removedViolations : ℤ
  newViolations : ℤ

/-- The violation delta read off the two reports. -/
structure DeltaEvidence where
  removedViolationIds : List String := []
  newViolationIds : List String := []
  removedMarkerFingerprints : List String := []
  newMarkerFingerprints : List String := []

/-- A JSON evidence file: an object with the truth values of its two keys, or
something that has no `get`. -/
inductive EvidenceJson
  | object (passed connectivityPreserved : Bool)
  | notAnObject

/-- A value handed to `stable_hash`. -/
inductive HashPart
  | text (value : String)
  | score (value : OfficialRepairScore)
  | evidence (value : EvidenceJson)

/-- `LayoutObject`, as far as the post-patch check reads it. -/
structure LayoutObject where
  objectId : String
  sourceAnchorId : Option String
  sourceVariable : Option String
  sourceCell : Option String
  layer : String
  geometryHash : String

/-- The job `prepare_job` returns. -/
structure Job where
  attemptId : Option String
  hostPath : Path

/-- The outside world of one execution. -/
structure Env where
  /-- The exception raised at a call site, if one is. -/
  fault : Site → Option Fault
  -- configuration
  acceptance : AcceptanceConfig := {}
  isKLayoutBackend : Bool := true
  keepFailedWorkspace : Bool := false
  executionProtocolVersion : String := "p3.2-execution-v1"
  image : String := "test-backend"
  -- identities
  newAttemptId : ℕ → String
  /-- `stable_hash(parts)[:20]`. -/
  stableHash : List HashPart → String
  evidenceKey : String
  reservation : String → Option String
  -- the storage-health helpers
  storagePause : PyExc → Option InfrastructureFailure
  -- the backend
  job : String → Job
  validate : ToolResult
  layout : ToolResult
  drc : ToolResult
  drcRetry : ToolResult
  sanity : ToolResult
  connectivity : ToolResult
  remap : Option (List ToolResult → List ToolResult)
  -- patching
  hasLineage : Bool
  patchedObjects : List LayoutObject
  -- evidence files and the evaluator
  score : OfficialRepairScore
  sanityIsFile : Bool := true
  sanityJson : EvidenceJson
  connectivityIsFile : Bool := true
  connectivityJson : EvidenceJson
  delta : DeltaEvidence
  /-- `drc_statistics(report).total_drv`, by the hash of the report. -/
  totalDrv : String → ℤ
  -- what the job directory holds
  patchedScriptSha256 : String
  gdsIsFile : Bool := true
  gdsSha256 : String
  reportIsFile : Bool := true
  attemptedDrcIsFile : Bool := true
  attemptedDrcSha256 : String
  -- the artifact store
  copyRef : String → Path → String → String → ArtifactRef
  writeRef : Path → String → ArtifactRef
  listDir : String → List String
  isFile : Path → Bool

/-- The exception of a call site. -/
def Env.raises (env : Env) (site : Site) : Option PyExc := (env.fault site).map (·.exc)

/-- The effect of the call takes place: it returned, or raised too late. -/
def Env.lands (env : Env) (site : Site) : Bool :=
  match env.fault site with
  | none => true
  | some f => f.landed

end DRCAgent
