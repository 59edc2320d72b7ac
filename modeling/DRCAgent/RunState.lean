/-
# What a run keeps in memory and on disk

The session of `workflow/runtime.py`, and the two records it writes for a later
resume: the manifest and the checkpoints. Only the fields that a modelled
function reads are here; sets of violation ids, which the source stores sorted,
are finite sets.

A `RunHistory` is not in the source. It is the history of the run as the files
of its windows tell it, kept beside the fields so that theorems can speak of all
windows of a run; no modelled function branches on it.
-/
import DRCAgent.ActiveWindow
import DRCAgent.Continuation
import DRCAgent.Transaction

namespace DRCAgent

/-! ## Windows -/

inductive FrontierState
  | pendingNotYetAdmitted
  | attemptedThisIteration
  | deferredBudget
  | unsupportedWithEvidence
  | removedByCommit
  deriving DecidableEq

inductive WindowStatus
  | commit
  | rollback
  | noSafeBundle
  | noOp
  | failed
  deriving DecidableEq

/-- `WindowResult`. -/
structure WindowResult where
  windowId : String
  iteration : ℕ
  windowIndex : ℕ
  baseSnapshotId : String
  finalSnapshotId : String
  status : WindowStatus
  claimedFrontierViolationIds : Finset String
  admittedFrontierViolationIds : Finset String := ∅
  llmStartedFrontierViolationIds : Finset String := ∅
  planValidatedFrontierViolationIds : Finset String := ∅
  kernelAttemptedFrontierViolationIds : Finset String := ∅
  physicalEvaluatedFrontierViolationIds : Finset String := ∅
  attemptedFrontierViolationIds : Finset String := ∅
  deferredFrontierViolationIds : Finset String := ∅
  unsupportedFrontierViolationIds : Finset String := ∅
  removedByCommitViolationIds : Finset String := ∅
  frontierStates : List (String × FrontierState) := []
  selectedCandidateIds : List String := []
  removedOriginal : Option ℤ := some 0
  newViolations : Option ℤ := some 0
  connectivityPreserved : Option Bool := none
  deriving DecidableEq

/-- What the planning of a window found: the two flags `aggregate_plans` computes. -/
structure WindowFlags where
  status : WindowStatus
  planningHadFailures : Bool
  exploredNonNoop : Bool
  deriving DecidableEq

/-- The history of a run: all its windows, all its published snapshots, and the
flags of the windows of the current iteration. -/
structure RunHistory where
  recorded : List WindowResult := []
  published : List DesignSnapshotRef := []
  iterationFlags : List WindowFlags := []
  deriving DecidableEq

/-! ## The two records on disk -/

/-- The hashes a checkpoint is saved and resumed under. -/
structure RunHashes where
  configHash : String
  baselineHash : String
  evaluatorHash : String
  codeCommit : String
  deriving DecidableEq

/-- `manifest.json`. -/
structure Manifest where
  runId : String
  experimentId : String
  caseId : String
  seed : ℤ
  method : String
  status : String
  failureDomain : Option String := none
  resolvedConfigHash : String
  scientificConfigHash : String
  executableDigest : String
  llmConfigHash : String
  officialInputIdentity : String
  evaluatorHash : String
  dockerImage : String
  dockerImageDigest : String
  executionEpoch : String
  executionEpochs : List String
  executionEnvelope : ExecutionEnvelope
  maxIterations : ℤ
  continuation : ContinuationMetadata
  baselineSnapshot : DesignSnapshotRef
  currentSnapshot : Option DesignSnapshotRef := none
  bestSnapshot : Option DesignSnapshotRef := none
  iterationsCompleted : Option ℕ := none
  deriving DecidableEq

/-- The boundaries a run can be resumed from. -/
inductive SafeBoundary
  | initializeCase
  | windowCommit
  | windowComplete
  | iterationComplete
  deriving DecidableEq

/-- `boundary in {"window_commit", "window_complete"}`. -/
def SafeBoundary.isWindow : SafeBoundary → Bool
  | windowCommit => true
  | windowComplete => true
  | _ => false

/-- The state saved at a safe boundary. -/
structure Checkpoint where
  boundary : SafeBoundary
  hashes : RunHashes
  iteration : ℕ
  runIdentity : String
  runIdentityHash : String
  scientificConfigHash : String
  officialInputIdentity : String
  executionEnvelopeHash : String
  experienceKnowledgeCutoff : Option ℕ := none
  repairAttemptMemory : String := ""
  baselineSnapshot : DesignSnapshotRef
  currentSnapshot : DesignSnapshotRef
  bestSnapshot : DesignSnapshotRef
  bestTotal : ℤ
  noProgress : ℕ
  inProgressIteration : Option ℕ := none
  iterationStartSnapshot : Option DesignSnapshotRef := none
  iterationStartTotalDrv : ℤ := 0
  iterationFrontier : Finset String := ∅
  processedFrontier : Finset String := ∅
  deferredFrontier : Finset String := ∅
  skippedFrontier : Finset String := ∅
  windowIndex : ℕ := 0
  windowResults : List WindowResult := []
  iterationSandboxJobsUsed : ℤ := 0
  history : RunHistory := {}
  deriving DecidableEq

/-- A row of the checkpoint store. The rows of the other boundaries hold no
state to resume. -/
inductive StoredCheckpoint
  | safe (checkpoint : Checkpoint)
  | notSafe (boundary : String)

/-- The state of a safe row. -/
def StoredCheckpoint.state : StoredCheckpoint → Option Checkpoint
  | safe checkpoint => some checkpoint
  | notSafe _ => none

/-- The latest safe checkpoint of a store, which grows at the end. -/
def latestSafe (store : List StoredCheckpoint) : Option Checkpoint :=
  (store.filterMap StoredCheckpoint.state).getLast?

@[simp] theorem latestSafe_safe (store : List StoredCheckpoint) (c : Checkpoint) :
    latestSafe (store ++ [.safe c]) = some c := by
  simp [latestSafe, StoredCheckpoint.state]

@[simp] theorem latestSafe_notSafe (store : List StoredCheckpoint) (boundary : String) :
    latestSafe (store ++ [.notSafe boundary]) = latestSafe store := by
  simp [latestSafe, StoredCheckpoint.state]

/-- The run directory, as far as a resume reads it. -/
structure RunDir where
  manifest : Option Manifest := none
  checkpoints : List StoredCheckpoint := []
  journal : List ContinuationRecord := []

/-! ## Planning -/

/-- A repair candidate, as far as the runtime inspects it. -/
structure RepairCandidate where
  candidateId : String
  isNoop : Bool
  deriving DecidableEq

/-- `PlannedSubgraph`: what `plan` returns for a subgraph. -/
structure PlannedSubgraph where
  subgraphId : String
  candidates : List RepairCandidate := []
  /-- Some region result carries failures. -/
  regionFailures : Bool := false
  admitted : Finset String := ∅
  llmStarted : Finset String := ∅
  planValidated : Finset String := ∅
  kernelAttempted : Finset String := ∅
  physicalEvaluated : Finset String := ∅
  attempted : Finset String := ∅
  unsupported : Finset String := ∅
  sandboxTrials : ℤ := 0
  deriving DecidableEq

/-- The `window_*_frontier_violation_ids` of the session. -/
structure WindowSets where
  admitted : Finset String := ∅
  llmStarted : Finset String := ∅
  planValidated : Finset String := ∅
  kernelAttempted : Finset String := ∅
  physicalEvaluated : Finset String := ∅
  attempted : Finset String := ∅
  unsupported : Finset String := ∅
  deriving DecidableEq

/-- `WindowCoordination`, as far as the runtime reads it. -/
structure WindowCoordination where
  status : String
  /-- The bundle, by its id and its selected candidates. -/
  bundle : Option (String × List String) := none
  patchPlan : Option PatchPlan := none
  masterBatchCount : ℕ := 0
  sandboxJobsUsed : ℤ := 0
  deriving DecidableEq

/-! ## The session -/

/-- `AppConfig`, as far as the runtime reads it. The two hashes are
`content_hash` and the hash of the `llm` section. -/
structure AppConfig where
  contentHash : String
  llmHash : String := ""
  experienceGraph : Bool := true
  kernelEnabled : Bool := true
  supportedRuleIds : List String := []
  engineeringTargetViolationIds : Finset String := ∅
  maxIterations : ℤ
  maxWindowsPerIteration : ℕ
  maxNoProgressIterations : ℕ
  maxParallelSubgraphs : ℤ
  maxActiveSubgraphRegions : ℤ
  topKCandidatesIncludingNoop : ℤ
  maxNonNoopActionsPerBatch : ℤ
  sandboxMaxJobsPerIteration : ℤ
  acceptance : AcceptanceConfig := {}
  deriving DecidableEq

/-- A violation of the current report. -/
structure Violation where
  violationId : String
  ruleId : String
  deriving DecidableEq

/-- `_Session`. -/
structure Session where
  config : AppConfig
  hashes : RunHashes
  executionEpoch : String
  manifest : Manifest
  baselineSnapshot : DesignSnapshotRef
  currentSnapshot : DesignSnapshotRef
  bestSnapshot : DesignSnapshotRef
  bestTotal : ℤ
  violations : List Violation := []
  plans : List PlannedSubgraph := []
  degradedCandidates : List (String × List RepairCandidate) := []
  aggregateCandidates : List RepairCandidate := []
  aggregateBundle : Option (String × List String) := none
  scheduledBatchCount : ℕ := 0
  patchPlan : Option PatchPlan := none
  transactionResult : Option TransactionExecutionResult := none
  allNoop : Bool := false
  selectedAllNoop : Bool := false
  exploredNonNoop : Bool := false
  planningHadFailures : Bool := false
  fatalFailure : Bool := false
  noProgress : ℕ := 0
  completedIteration : ℕ := 0
  resumeState : Option Checkpoint := none
  iterationStartSnapshot : Option DesignSnapshotRef := none
  iterationStartTotalDrv : ℤ := 0
  iterationFrontier : Finset String := ∅
  processedFrontier : Finset String := ∅
  deferredFrontier : Finset String := ∅
  windowSets : WindowSets := {}
  skippedFrontier : Finset String := ∅
  windowIndex : ℕ := 0
  activeWindow : Option ActiveWindow := none
  windowResults : List WindowResult := []
  iterationSandboxJobsUsed : ℤ := 0
  windowCoordination : Option WindowCoordination := none
  iterationExitReason : String := "FRONTIER_EXHAUSTED"
  repairAttemptMemory : String := ""
  experienceKnowledgeCutoff : Option ℕ := none
  history : RunHistory := {}
  deriving DecidableEq

end DRCAgent
