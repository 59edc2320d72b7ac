/-
# Artifacts, snapshots and transactions

The records of `schemas/` that the executor and the runtime exchange, with the
fields those two read or write. An `ArtifactRef` names a file by the hash of
its content, so two refs with one `sha256` have one content; a
`DesignSnapshotRef` is one design state together with its immediate-parent
provenance edge.

Left out, because no modelled function reads them: time stamps, byte sizes,
artifact ids, and floating-point run times.
-/
import Mathlib.Tactic.Common
import Mathlib.Data.Int.Notation

namespace DRCAgent

/-! ## Artifacts and snapshots -/

/-- A file path as its list of components. -/
abbrev Path := List String

/-- `ArtifactRef`: a path with the hash of the content found there. -/
structure ArtifactRef where
  path : Path
  sha256 : String
  mediaType : String
  producer : String
  schemaName : Option String := none
  schemaVersion : Option String := none
  deriving DecidableEq

/-- `DesignSnapshotRef`: a design state plus its immediate-parent edge. -/
structure DesignSnapshotRef where
  snapshotId : String
  scriptRef : ArtifactRef
  gdsRef : Option ArtifactRef := none
  drcRef : Option ArtifactRef := none
  connectivityRef : Option ArtifactRef := none
  lineageReceiptRef : Option ArtifactRef := none
  parentSnapshotId : Option String := none
  parentScriptRef : Option ArtifactRef := none
  provenanceRunId : Option String := none
  provenanceRelationSource : Option String := none
  score : Option (ℤ × ℤ × ℤ) := none
  deriving DecidableEq

/-- Two snapshots hold the same artifact contents, at whatever paths. -/
def DesignSnapshotRef.SameArtifacts (s t : DesignSnapshotRef) : Prop :=
  s.scriptRef.sha256 = t.scriptRef.sha256 ∧
  s.gdsRef.map (·.sha256) = t.gdsRef.map (·.sha256) ∧
  s.drcRef.map (·.sha256) = t.drcRef.map (·.sha256) ∧
  s.connectivityRef = t.connectivityRef ∧
  s.lineageReceiptRef.map (·.sha256) = t.lineageReceiptRef.map (·.sha256)

/-- Two snapshots carry the same identity and the same provenance edge. -/
def DesignSnapshotRef.SameProvenance (s t : DesignSnapshotRef) : Prop :=
  s.snapshotId = t.snapshotId ∧
  s.parentSnapshotId = t.parentSnapshotId ∧
  s.parentScriptRef = t.parentScriptRef ∧
  s.provenanceRunId = t.provenanceRunId ∧
  s.provenanceRelationSource = t.provenanceRelationSource ∧
  s.score = t.score

/-! ## Enumerations -/

/-- Whether a verification value is backed by this physical attempt. -/
inductive EvidenceValidity
  | notEvaluated
  | valid
  | error
  deriving DecidableEq

/-- How an attempt ended in the ledger. -/
inductive AttemptTerminalStatus
  | evaluated
  | executionFailure
  | cancelled
  deriving DecidableEq

/-- The stored text of a terminal status. -/
def AttemptTerminalStatus.value : AttemptTerminalStatus → String
  | evaluated => "EVALUATED"
  | executionFailure => "EXECUTION_FAILURE"
  | cancelled => "CANCELLED"

/-- What a sandbox found. -/
inductive SandboxStatus
  | notRun
  | cleanProgress
  | noProgress
  | offTargetEffect
  | regression
  | connectivityFail
  | executionFail
  | timeout
  deriving DecidableEq

/-- The stored text of a sandbox status. -/
def SandboxStatus.value : SandboxStatus → String
  | notRun => "NOT_RUN"
  | cleanProgress => "CLEAN_PROGRESS"
  | noProgress => "NO_PROGRESS"
  | offTargetEffect => "OFF_TARGET_EFFECT"
  | regression => "REGRESSION"
  | connectivityFail => "CONNECTIVITY_FAIL"
  | executionFail => "EXECUTION_FAIL"
  | timeout => "TIMEOUT"

inductive SandboxScope
  | none
  | isolatedCandidate
  | jointBundle
  deriving DecidableEq

def SandboxScope.value : SandboxScope → String
  | none => "NONE"
  | isolatedCandidate => "ISOLATED_CANDIDATE"
  | jointBundle => "JOINT_BUNDLE"

inductive TransactionStatus
  | prepared
  | running
  | verified
  | committed
  | rolledBack
  | failed
  | cancelled
  deriving DecidableEq

inductive VerificationOutcome
  | workspacePreparationFailure
  | patchApplicationFailure
  | syntaxFailure
  | layoutGenerationFailure
  | drcExecutionFailure
  | evidencePublicationFailure
  | cancelled
  | gdsSanityFailure
  | drcNoProgress
  | newDrcIntroduced
  | connectivityFailure
  | timingFailure
  | success
  deriving DecidableEq

/-- The stored text of an outcome, which doubles as its failure code. -/
def VerificationOutcome.value : VerificationOutcome → String
  | workspacePreparationFailure => "WORKSPACE_PREPARATION_FAILURE"
  | patchApplicationFailure => "PATCH_APPLICATION_FAILURE"
  | syntaxFailure => "SYNTAX_FAILURE"
  | layoutGenerationFailure => "LAYOUT_GENERATION_FAILURE"
  | drcExecutionFailure => "DRC_EXECUTION_FAILURE"
  | evidencePublicationFailure => "EVIDENCE_PUBLICATION_FAILURE"
  | cancelled => "CANCELLED"
  | gdsSanityFailure => "GDS_SANITY_FAILURE"
  | drcNoProgress => "DRC_NO_PROGRESS"
  | newDrcIntroduced => "NEW_DRC_INTRODUCED"
  | connectivityFailure => "CONNECTIVITY_FAILURE"
  | timingFailure => "TIMING_FAILURE"
  | success => "SUCCESS"

inductive ToolStatus
  | success
  | failed
  | timeout
  | unsupported
  | invalidInput
  | missingArtifact
  | cancelled
  deriving DecidableEq

inductive ExecutionPurpose
  | unknown
  | baseline
  | root
  | debt
  | condensation
  | candidate
  | joint
  | master
  deriving DecidableEq

/-! ## Tool results and transactions -/

/-- `ToolResult`, as far as the executor inspects it. -/
structure ToolResult where
  action : String
  status : ToolStatus
  errorCode : Option String := none
  errorMessage : Option String := none
  deriving DecidableEq

/-- `ExecutionTraceContext`: the logical place of an execution. -/
structure ExecutionTraceContext where
  formalRunId : String
  executionEpoch : String := "epoch_initial"
  formalIteration : ℕ := 0
  windowId : Option String := none
  windowIndex : Option ℕ := none
  parentSnapshotId : Option String := none
  targetViolationId : Option String := none
  purpose : ExecutionPurpose := .unknown

/-- `Transaction`: the record persisted as `transaction.json`. -/
structure Transaction where
  transactionId : String
  runId : String
  caseId : String
  iteration : ℕ
  baseSnapshotId : String
  bundleIds : List String
  patchPlanRef : ArtifactRef
  jobDir : Path
  status : TransactionStatus
  toolResults : List ToolResult := []
  verificationResultRef : Option ArtifactRef := none
  decisionReasons : List String := []
  rollbackReason : Option String := none
  executionProtocolVersion : String := "legacy-v1"
  attemptId : Option String := none
  logicalEvidenceKey : Option String := none
  executionEpoch : Option String := none
  purpose : Option ExecutionPurpose := none
  terminalStatus : Option AttemptTerminalStatus := none
  deriving DecidableEq

end DRCAgent
