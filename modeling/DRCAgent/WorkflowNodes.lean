/-
# The nodes of the workflow

The node functions of `ResearchRuntime._nodes` as functions on the session, with
the checkpoint and manifest records they write. A node that writes to disk, or
that can raise between two updates of the session, is split there, so that every
point at which a run can stop is a state of its own (see `Workflow.lean`).

Planning, coordination and the transaction bring their results from outside; a
node takes them as arguments. Left out: artifacts no resume reads, progress
events, experience and metrics.
-/
import Mathlib
import DRCAgent.SnapshotProvenance

namespace DRCAgent

/-- What is fixed for one run: its identity, its inputs and the outside functions. -/
structure RunEnv where
  resume : ResumeEnv
  provenance : ProvenanceEnv
  experimentId : String
  caseId : String
  presetName : String
  seed : ℤ
  config : AppConfig
  /-- The copies of the official files below `baseline/`. -/
  scriptRef : ArtifactRef
  gdsRef : ArtifactRef
  drcRef : ArtifactRef
  connectivityRef : ArtifactRef
  /-- `official_input_identity(session.paths)`. -/
  inputIdentity : String
  dockerImage : String
  dockerImageDigest : String
  /-- `drc_statistics(path).total_drv`, by the content of the report. -/
  totalDrv : String → ℤ
  /-- `stable_hash(identity)[:20]` of a window. -/
  windowHash : WindowIdentity → String
  /-- The epoch of the first session. -/
  firstEpoch : String

namespace RunEnv

variable (env : RunEnv)

/-- `run_identity` of the session. -/
def identity : String :=
  env.resume.runIdentity env.resume.runId env.experimentId env.caseId env.presetName env.seed

/-- `drc_statistics(Path(snapshot.drc_ref.path)).total_drv`. -/
def total (snapshot : DesignSnapshotRef) : Except String ℤ :=
  match snapshot.drcRef with
  | some ref => .ok (env.totalDrv ref.sha256)
  | none => .error "AttributeError"

/-- The baseline snapshot of `_baseline`. -/
def baseline : DesignSnapshotRef where
  snapshotId := "snapshot_" ++ env.resume.stableHash (env.resume.runId ++ "baseline" ++
    env.scriptRef.sha256)
  scriptRef := env.scriptRef
  gdsRef := some env.gdsRef
  drcRef := some env.drcRef
  connectivityRef := some env.connectivityRef
  provenanceRunId := some env.resume.runId
  provenanceRelationSource := some "OFFICIAL_BASELINE_ROOT"
  score := some (1, 0, -env.totalDrv env.drcRef.sha256)

/-- `session.hashes` as `_baseline` sets it. -/
def hashes : RunHashes where
  configHash := env.resume.scientificConfigHash env.config
  baselineHash := env.scriptRef.sha256
  evaluatorHash := env.resume.evaluatorHash
  codeCommit := env.resume.executableDigest

/-- `initial_continuation_manifest`, as `_resume_p5` checks it. -/
def initialContinuation : ContinuationMetadata where
  initialResolvedConfigHash := env.config.contentHash
  scientificConfigHash := env.resume.scientificConfigHash env.config
  initialExecutionEnvelope := env.resume.executionEnvelope env.config
  initialExecutionEnvelopeHash := env.resume.envelopeHash (env.resume.executionEnvelope env.config)
  runIdentity := env.identity
  runIdentityHash := env.resume.stableHash env.identity
  authorizedExecutionEnvelope := env.resume.executionEnvelope env.config
  authorizedExecutionEnvelopeHash :=
    env.resume.envelopeHash (env.resume.executionEnvelope env.config)

/-- The manifest `initialize_case` builds for a fresh run. -/
def freshManifest : Manifest where
  runId := env.resume.runId
  experimentId := env.experimentId
  caseId := env.caseId
  seed := env.seed
  method := env.presetName
  status := "RUNNING"
  resolvedConfigHash := env.config.contentHash
  scientificConfigHash := env.resume.scientificConfigHash env.config
  executableDigest := env.resume.executableDigest
  llmConfigHash := env.config.llmHash
  officialInputIdentity := env.inputIdentity
  evaluatorHash := env.resume.evaluatorHash
  dockerImage := env.dockerImage
  dockerImageDigest := env.dockerImageDigest
  executionEpoch := env.firstEpoch
  executionEpochs := [env.firstEpoch]
  executionEnvelope := env.resume.executionEnvelope env.config
  maxIterations := env.config.maxIterations
  continuation := env.initialContinuation
  baselineSnapshot := env.baseline

/-- The session of a fresh run once `_baseline` has run. -/
def freshSession : Session where
  config := env.config
  hashes := env.hashes
  executionEpoch := env.firstEpoch
  manifest := env.freshManifest
  baselineSnapshot := env.baseline
  currentSnapshot := env.baseline
  bestSnapshot := env.baseline
  bestTotal := env.totalDrv env.drcRef.sha256
  history := { published := [env.baseline] }

end RunEnv

namespace Session

variable (env : RunEnv) (s : Session)

/-- `int(state["iteration"]) + 1`. -/
def iteration : ℕ := s.completedIteration + 1

/-! ## Manifest and checkpoints -/

/-- The manifest `initialize_case` writes. -/
def initializedManifest : Manifest :=
  if s.resumeState.isSome then
    { s.manifest with
      status := "RUNNING"
      executionEpoch := s.executionEpoch
      executionEpochs :=
        if s.executionEpoch ∈ s.manifest.executionEpochs then s.manifest.executionEpochs
        else s.manifest.executionEpochs ++ [s.executionEpoch]
      currentSnapshot := some s.currentSnapshot
      bestSnapshot := some s.bestSnapshot }
  else s.manifest

/-- The manifest written when a run stops with `status`, from `_finalize_aborted`
and from `finalize_run`. -/
def stoppedManifestOf (status : String) (failureDomain : Option String) : Manifest :=
  { s.manifest with
    status := status
    failureDomain := failureDomain
    iterationsCompleted := some s.completedIteration
    currentSnapshot := some s.currentSnapshot
    bestSnapshot := some s.bestSnapshot }

/-- What every checkpoint of a session carries. -/
def checkpointBase (boundary : SafeBoundary) : Checkpoint where
  boundary := boundary
  hashes := s.hashes
  iteration := s.completedIteration
  runIdentity := env.identity
  runIdentityHash := env.resume.stableHash env.identity
  scientificConfigHash := env.resume.scientificConfigHash s.config
  officialInputIdentity := env.inputIdentity
  executionEnvelopeHash := env.resume.envelopeHash (env.resume.executionEnvelope s.config)
  experienceKnowledgeCutoff := s.experienceKnowledgeCutoff
  repairAttemptMemory := s.repairAttemptMemory
  baselineSnapshot := s.baselineSnapshot
  currentSnapshot := s.currentSnapshot
  bestSnapshot := s.bestSnapshot
  bestTotal := s.bestTotal
  noProgress := s.noProgress
  history := s.history

/-- The checkpoint at the end of `initialize_case`. -/
def initialCheckpoint : Checkpoint :=
  { s.checkpointBase env .initializeCase with iteration := 0, noProgress := 0 }

/-- `_window_checkpoint_state`, at the boundaries of windows and iterations. -/
def windowCheckpoint (boundary : SafeBoundary) (inProgressIteration : ℕ) : Checkpoint :=
  { s.checkpointBase env boundary with
    inProgressIteration := some inProgressIteration
    iterationStartSnapshot := s.iterationStartSnapshot
    iterationStartTotalDrv := s.iterationStartTotalDrv
    iterationFrontier := s.iterationFrontier
    processedFrontier := s.processedFrontier
    deferredFrontier := s.deferredFrontier
    skippedFrontier := s.skippedFrontier
    windowIndex := s.windowIndex
    windowResults := s.windowResults
    iterationSandboxJobsUsed := s.iterationSandboxJobsUsed }

/-! ## Starting an iteration and selecting a window -/

/-- `resume_current_iteration`. -/
def resumesIteration : Bool :=
  s.resumeState.any fun c => c.boundary.isWindow && c.inProgressIteration = some s.iteration

/-- `start_iteration`, after the nodes that parse the current report. -/
def startIteration (violations : List Violation) : Except String Session := do
  let s := { s with
    violations := violations
    activeWindow := none
    allNoop := false
    iterationExitReason := "FRONTIER_EXHAUSTED" }
  if s.resumesIteration then pure s
  else do
    let total ← env.total s.currentSnapshot
    let all := (violations.map (·.violationId)).toFinset
    let requested := s.config.engineeringTargetViolationIds
    require (requested ⊆ all) "ENGINEERING_TARGET_NOT_IN_CURRENT_BASELINE"
    pure { s with
      iterationStartSnapshot := some s.currentSnapshot
      iterationStartTotalDrv := total
      iterationFrontier := if requested = ∅ then all else all ∩ requested
      processedFrontier := ∅
      deferredFrontier := ∅
      skippedFrontier := ∅
      windowIndex := 0
      windowResults := []
      iterationSandboxJobsUsed := 0
      history := { s.history with iterationFlags := [] } }

/-- `rule_by_violation.get(violation_id)`. -/
def ruleOf (violationId : String) : Option String :=
  (s.violations.reverse.find? (·.violationId = violationId)).map (·.ruleId)

/-- The frontier violations not processed yet that are in the current report. -/
def pending : Finset String :=
  (s.iterationFrontier \ s.processedFrontier) ∩ (s.violations.map (·.violationId)).toFinset

/-- `partition_supported_pending_frontier`: supported and skipped. -/
def partitionPending : Finset String × Finset String :=
  if s.config.kernelEnabled = false ∨ s.config.supportedRuleIds = [] then (s.pending, ∅)
  else
    let skipped := s.pending.filter fun id =>
      (s.ruleOf id).all (· ∉ s.config.supportedRuleIds)
    (s.pending \ skipped, skipped)

/-- The request to `select_active_window`. -/
def windowRequest (graph : AgentGraph) (subgraphs : List AgentSubgraph) : WindowRequest where
  graph := graph
  subgraphs := subgraphs
  iteration := s.iteration
  windowIndex := s.windowIndex
  baseSnapshotId := s.currentSnapshot.snapshotId
  iterationFrontierViolationIds := s.partitionPending.1
  processedFrontierViolationIds := s.processedFrontier
  deferredFrontierViolationIds := s.deferredFrontier
  currentViolationIds := (s.violations.map (·.violationId)).toFinset
  maxParallelSubgraphs := s.config.maxParallelSubgraphs
  maxActiveRegions := s.config.maxActiveSubgraphRegions
  topKCandidatesIncludingNoop := s.config.topKCandidatesIncludingNoop
  maxNonNoopActionsPerBatch := s.config.maxNonNoopActionsPerBatch

/-- No window is selected. -/
def withoutWindow : Session := { s with activeWindow := none, plans := [] }

/-- A fresh window. -/
def withWindow (w : ActiveWindow) : Session :=
  { s with
    activeWindow := some w
    plans := []
    degradedCandidates := []
    aggregateCandidates := []
    aggregateBundle := none
    patchPlan := none
    transactionResult := none
    windowSets := {}
    windowCoordination := none }

/-- `select_active_subgraphs`, for the graph and the subgraphs of the pruner. -/
def selectActiveSubgraphs (graph : AgentGraph) (subgraphs : List AgentSubgraph) :
    Except String Session :=
  if s.config.sandboxMaxJobsPerIteration - s.iterationSandboxJobsUsed < 3 then
    .ok { s.withoutWindow with iterationExitReason := "DEFERRED_BUDGET" }
  else if s.config.maxWindowsPerIteration ≤ s.windowIndex then
    .ok { s.withoutWindow with
      iterationExitReason := "MAX_WINDOWS_PER_ITERATION", degradedCandidates := [] }
  else
    let skipping := { s with skippedFrontier := s.skippedFrontier ∪ s.partitionPending.2 }
    if s.partitionPending.1 = ∅ then .ok { skipping.withoutWindow with degradedCandidates := [] }
    else do
      match ← selectActiveWindow env.windowHash (s.windowRequest graph subgraphs) with
      | none => pure { skipping.withoutWindow with degradedCandidates := [] }
      | some w => pure (skipping.withWindow w)

/-! ## Planning -/

/-- `plan_subgraph`, when the planner returns. -/
def planSubgraph (plan : PlannedSubgraph) : Session :=
  { s with
    plans := s.plans ++ [plan]
    iterationSandboxJobsUsed := s.iterationSandboxJobsUsed + max plan.sandboxTrials 0
    windowSets := {
      admitted := s.windowSets.admitted ∪ plan.admitted
      llmStarted := s.windowSets.llmStarted ∪ plan.llmStarted
      planValidated := s.windowSets.planValidated ∪ plan.planValidated
      kernelAttempted := s.windowSets.kernelAttempted ∪ plan.kernelAttempted
      physicalEvaluated := s.windowSets.physicalEvaluated ∪ plan.physicalEvaluated
      attempted := s.windowSets.attempted ∪ plan.attempted
      unsupported := s.windowSets.unsupported ∪ plan.unsupported } }

/-- `plan_subgraph`, when the planner raises: the subgraph degrades to no-ops. -/
def degradeSubgraph (subgraphId : String) (attempted : Finset String)
    (noops : List RepairCandidate) : Session :=
  { s with
    degradedCandidates := s.degradedCandidates ++ [(subgraphId, noops)]
    windowSets := { s.windowSets with attempted := s.windowSets.attempted ∪ attempted } }

/-- The candidates of the window: the plans', then the degraded subgraphs'. -/
def windowCandidates : List RepairCandidate :=
  (s.plans.insertionSort fun a b => a.subgraphId ≤ b.subgraphId).flatMap (·.candidates) ++
    (s.degradedCandidates.insertionSort fun a b => a.1 ≤ b.1).flatMap (·.2)

/-- `aggregate_plans`, for the answer of `coordinate_active_window`. -/
def aggregatePlans (coordination : WindowCoordination) : Session :=
  let candidates := s.windowCandidates
  let failures := s.degradedCandidates ≠ [] ∨ s.plans.any (·.regionFailures) = true
  let explored := candidates.any fun c => !c.isNoop
  let s := { s with
    aggregateCandidates := candidates
    planningHadFailures := failures
    exploredNonNoop := explored }
  if candidates = [] then { s with selectedAllNoop := true, allNoop := !s.planningHadFailures }
  else
    { s with
      windowCoordination := some coordination
      aggregateBundle := coordination.bundle
      patchPlan := coordination.patchPlan
      scheduledBatchCount := coordination.masterBatchCount
      iterationSandboxJobsUsed := s.iterationSandboxJobsUsed + coordination.sandboxJobsUsed
      selectedAllNoop := !((coordination.bundle.map (·.2)).getD []).any fun id =>
        candidates.any fun c => c.candidateId = id && !c.isNoop
      allNoop := coordination.status = "NO_OP" && !explored && !s.planningHadFailures }

/-! ## The transaction -/

/-- `prepare_transaction`. -/
def prepareTransaction : Session :=
  if s.aggregateBundle = none ∨ s.patchPlan = none ∨ s.scheduledBatchCount ≠ 1 then
    { s with patchPlan := none }
  else s

/-- `f"windows/window_{index:04d}"` below the iteration. -/
def windowPrefix (w : ActiveWindow) : Path :=
  iterationPrefix s.iteration ++
    ["windows", "window_" ++ String.ofList ((toString w.windowIndex).toList.leftpad 4 '0')]

/-- `master_trace`. -/
def masterTrace (w : ActiveWindow) : ExecutionTraceContext where
  formalRunId := env.resume.runId
  executionEpoch := s.executionEpoch
  formalIteration := s.iteration
  windowId := some w.windowId
  windowIndex := some w.windowIndex
  parentSnapshotId := some s.currentSnapshot.snapshotId
  purpose := .master

/-- The arguments `execute_transaction` hands to the executor. -/
def executeInput (w : ActiveWindow) (plan : PatchPlan) (sourceMap : List LayoutObject)
    (fingerprint : String) : ExecuteInput where
  runId := env.resume.runId
  caseId := env.caseId
  iteration := s.iteration
  baselineSnapshot := s.baselineSnapshot
  currentSnapshot := s.currentSnapshot
  patchPlan := plan
  sourceMap := sourceMap
  bundleIds := (s.aggregateBundle.map fun b => [b.1]).getD []
  artifactPrefix := some (s.windowPrefix w)
  legacyArtifactPrefix := if w.windowIndex = 0 then some (iterationPrefix s.iteration) else none
  traceContext := some (s.masterTrace env w)
  physicalEffectFingerprint := some fingerprint

/-- `session.fatal_failure`. -/
def isFatal (v : VerificationResult) : Bool :=
  ((v.outcome = .layoutGenerationFailure || v.outcome = .gdsSanityFailure) &&
    v.failureCodes.any fun code =>
      code = "DRC_EXECUTION_FAILED" || code = "INVALID_LYRPT_XML_AFTER_RETRY") ||
  v.failureCodes.any fun code =>
    "EVALUATOR_FAILURE_".toList.isPrefixOf code.toList ||
      "VERIFICATION_EVIDENCE_INVALID_".toList.isPrefixOf code.toList

/-- The session after the executor returned. -/
def recordTransaction (result : TransactionExecutionResult) : Session :=
  { s with transactionResult := some result, fatalFailure := isFatal result.verification }

/-! ## Committing or rolling back a window -/

/-- `commit_or_rollback` of an accepted result, up to the publication of the
child: nothing is published before its provenance is verified. -/
def publishCurrent (result : TransactionExecutionResult) : Except String Session := do
  if s.config.kernelEnabled then
    env.provenance.buildSnapshotContext result.committedSnapshot s.baselineSnapshot
      env.resume.runId
  else
    env.provenance.validateSnapshotProvenance result.committedSnapshot s.baselineSnapshot
      env.resume.runId
  pure { s with
    currentSnapshot := result.committedSnapshot
    history := { s.history with published := s.history.published ++ [result.committedSnapshot] } }

/-- The update of the best snapshot. -/
def publishBest : Except String Session := do
  let total ← env.total s.currentSnapshot
  if total < s.bestTotal then pure { s with bestTotal := total, bestSnapshot := s.currentSnapshot }
  else pure s

/-- The status of a window that publishes nothing. -/
def unpublishedStatus : WindowStatus :=
  match s.transactionResult with
  | some _ => .rollback
  | none =>
    if s.windowCoordination.any (·.status = "NO_OP") then .noOp else .noSafeBundle

/-- `claimed_frontier`. -/
def claimedFrontier (w : ActiveWindow) : Finset String :=
  (if w.claimedFrontierViolationIds = [] then w.frontierViolationIds
    else w.claimedFrontierViolationIds).toFinset

/-- `attempted_frontier`. -/
def attemptedFrontier (w : ActiveWindow) : Finset String :=
  s.windowSets.attempted ∩ claimedFrontier w

/-- `unsupported_frontier`. -/
def unsupportedFrontier (w : ActiveWindow) : Finset String :=
  s.windowSets.unsupported ∩ claimedFrontier w

/-- `deferred_frontier`. -/
def deferredOf (w : ActiveWindow) : Finset String :=
  (claimedFrontier w \ s.attemptedFrontier w) \ s.unsupportedFrontier w

/-- `removed_by_commit`. -/
def removedByCommit (status : WindowStatus) : Finset String :=
  if status = .commit then
    (s.transactionResult.map fun r =>
      r.verification.removedOriginalViolationIds.toFinset ∩ s.iterationFrontier).getD ∅
  else ∅

/-- The state of one id of the window. -/
def frontierStateOf (w : ActiveWindow) (status : WindowStatus) (id : String) : FrontierState :=
  if id ∈ s.removedByCommit status then .removedByCommit
  else if id ∈ s.unsupportedFrontier w then .unsupportedWithEvidence
  else if id ∈ s.attemptedFrontier w then .attemptedThisIteration
  else .pendingNotYetAdmitted

/-- `frontier_states`. -/
def frontierStates (w : ActiveWindow) (status : WindowStatus) : List (String × FrontierState) :=
  ((claimedFrontier w ∪ s.removedByCommit status).sort (· ≤ ·)).map fun id =>
    (id, s.frontierStateOf w status id)

/-- The result of a window. -/
def windowResult (w : ActiveWindow) (status : WindowStatus) : WindowResult where
  windowId := w.windowId
  iteration := s.iteration
  windowIndex := w.windowIndex
  baseSnapshotId := w.baseSnapshotId
  finalSnapshotId := s.currentSnapshot.snapshotId
  status := status
  claimedFrontierViolationIds := claimedFrontier w
  admittedFrontierViolationIds := s.windowSets.admitted ∩ claimedFrontier w
  llmStartedFrontierViolationIds := s.windowSets.llmStarted ∩ claimedFrontier w
  planValidatedFrontierViolationIds := s.windowSets.planValidated ∩ claimedFrontier w
  kernelAttemptedFrontierViolationIds := s.windowSets.kernelAttempted ∩ claimedFrontier w
  physicalEvaluatedFrontierViolationIds := s.windowSets.physicalEvaluated ∩ claimedFrontier w
  attemptedFrontierViolationIds := s.attemptedFrontier w
  deferredFrontierViolationIds := s.deferredOf w
  unsupportedFrontierViolationIds := s.unsupportedFrontier w
  removedByCommitViolationIds := s.removedByCommit status
  frontierStates := s.frontierStates w status
  selectedCandidateIds := (s.aggregateBundle.map (·.2)).getD []
  removedOriginal :=
    match s.transactionResult with
    | some r => r.verification.removedOriginalCount
    | none => some 0
  newViolations :=
    match s.transactionResult with
    | some r => r.verification.newViolationCount
    | none => some 0
  connectivityPreserved := s.transactionResult.bind (·.verification.connectivityPreserved)

/-- The rest of `commit_or_rollback`: the accounts of the window. -/
def accountWindow (w : ActiveWindow) (status : WindowStatus) : Session :=
  { s with
    processedFrontier := s.processedFrontier ∪ (s.attemptedFrontier w ∪ s.unsupportedFrontier w)
    deferredFrontier := (s.deferredFrontier ∪ s.deferredOf w) \ s.attemptedFrontier w
    windowResults := s.windowResults ++ [s.windowResult w status]
    windowIndex := s.windowIndex + 1
    history := { s.history with
      recorded := s.history.recorded ++ [s.windowResult w status]
      iterationFlags := s.history.iterationFlags ++
        [⟨status, s.planningHadFailures, s.exploredNonNoop⟩] } }

/-! ## Finishing an iteration -/

/-- `finish_iteration`, up to the first artifact it writes. -/
def countIteration : Except String Session := do
  let total ← env.total s.currentSnapshot
  let statuses := s.windowResults.map (·.status)
  pure { s with
    noProgress :=
      if s.iterationExitReason = "DEFERRED_BUDGET" then s.noProgress
      else if total < s.iterationStartTotalDrv then 0
      else s.noProgress + 1
    completedIteration := s.iteration
    allNoop := statuses ≠ [] ∧ (∀ status ∈ statuses, status = .noOp) ∧
      s.planningHadFailures = false ∧ s.exploredNonNoop = false }

/-- `last_committed_window`. -/
def lastCommittedWindow : Option WindowResult :=
  s.windowResults.reverse.find? (·.status = .commit)

/-- The check of the last committed window against the current snapshot. -/
def checkFinalSnapshot : Except String Unit :=
  match s.lastCommittedWindow with
  | none => .ok ⟨⟩
  | some w =>
    require (w.finalSnapshotId = s.currentSnapshot.snapshotId)
      "ITERATION_FINAL_COMMITTED_SNAPSHOT_MISMATCH"

end Session

/-! ## What a node leaves alone -/

/-- Two sessions keep the same books: they differ at most in what belongs to one
window, its planning and its transaction. -/
structure Session.SameBooks (s s' : Session) : Prop where
  config : s'.config = s.config
  hashes : s'.hashes = s.hashes
  manifest : s'.manifest = s.manifest
  baseline : s'.baselineSnapshot = s.baselineSnapshot
  current : s'.currentSnapshot = s.currentSnapshot
  best : s'.bestSnapshot = s.bestSnapshot
  bestTotal : s'.bestTotal = s.bestTotal
  completed : s'.completedIteration = s.completedIteration
  resumeState : s'.resumeState = s.resumeState
  frontier : s'.iterationFrontier = s.iterationFrontier
  processed : s'.processedFrontier = s.processedFrontier
  deferred : s'.deferredFrontier = s.deferredFrontier
  windowResults : s'.windowResults = s.windowResults
  history : s'.history = s.history

/-- The two sessions work on the same window, too. -/
structure Session.SameWindow (s s' : Session) : Prop extends s.SameBooks s' where
  activeWindow : s'.activeWindow = s.activeWindow

namespace Session

variable {env : RunEnv} {s s' : Session}

theorem SameBooks.refl (s : Session) : s.SameBooks s :=
  ⟨rfl, rfl, rfl, rfl, rfl, rfl, rfl, rfl, rfl, rfl, rfl, rfl, rfl, rfl⟩

theorem SameWindow.refl (s : Session) : s.SameWindow s := ⟨SameBooks.refl s, rfl⟩

theorem sameBooks_violations (s : Session) (violations : List Violation) :
    s.SameBooks { s with violations := violations } := by
  constructor <;> rfl

theorem sameWindow_planSubgraph (s : Session) (plan : PlannedSubgraph) :
    s.SameWindow (s.planSubgraph plan) := by
  refine ⟨?_, rfl⟩
  constructor <;> rfl

theorem sameWindow_degradeSubgraph (s : Session) (id : String) (attempted : Finset String)
    (noops : List RepairCandidate) : s.SameWindow (s.degradeSubgraph id attempted noops) := by
  refine ⟨?_, rfl⟩
  constructor <;> rfl

theorem sameWindow_aggregatePlans (s : Session) (coordination : WindowCoordination) :
    s.SameWindow (s.aggregatePlans coordination) := by
  unfold aggregatePlans
  dsimp only
  split_ifs
  · refine ⟨?_, rfl⟩
    constructor <;> rfl
  · refine ⟨?_, rfl⟩
    constructor <;> rfl

theorem sameWindow_skip (s : Session) :
    s.SameWindow { s.prepareTransaction with transactionResult := none } := by
  unfold prepareTransaction
  split_ifs
  · refine ⟨?_, rfl⟩
    constructor <;> rfl
  · refine ⟨?_, rfl⟩
    constructor <;> rfl

theorem sameWindow_recordTransaction (s : Session) (result : TransactionExecutionResult) :
    s.SameWindow (s.recordTransaction result) := by
  refine ⟨?_, rfl⟩
  constructor <;> rfl

/-- `select_active_subgraphs` closes the window, or opens one that `select_active_window`
returned. -/
theorem selectActiveSubgraphs_ok {graph : AgentGraph} {subgraphs : List AgentSubgraph}
    (h : s.selectActiveSubgraphs env graph subgraphs = .ok s') :
    (∃ reason degraded skipped, s' = { s.withoutWindow with
      iterationExitReason := reason
      degradedCandidates := degraded
      skippedFrontier := skipped }) ∨
    ∃ w, selectActiveWindow env.windowHash (s.windowRequest graph subgraphs) = .ok (some w) ∧
      s' = { s with
        skippedFrontier := s.skippedFrontier ∪ s.partitionPending.2 }.withWindow w := by
  unfold selectActiveSubgraphs at h
  split_ifs at h
  · exact Or.inl ⟨_, _, _, (Except.ok.inj h).symm⟩
  · exact Or.inl ⟨_, _, _, (Except.ok.inj h).symm⟩
  · exact Or.inl ⟨_, _, _, (Except.ok.inj h).symm⟩
  · obtain ⟨window, hwindow, h⟩ := except_bind_ok h
    cases window with
    | none => exact Or.inl ⟨_, _, _, (Except.ok.inj h).symm⟩
    | some w => exact Or.inr ⟨w, hwindow, (Except.ok.inj h).symm⟩

/-- Selecting a window changes no book. -/
theorem sameBooks_selectActiveSubgraphs {graph : AgentGraph} {subgraphs : List AgentSubgraph}
    (h : s.selectActiveSubgraphs env graph subgraphs = .ok s') : s.SameBooks s' := by
  rcases selectActiveSubgraphs_ok h with ⟨_, _, _, rfl⟩ | ⟨w, -, rfl⟩
  · constructor <;> rfl
  · constructor <;> rfl

/-- The active window is one that `select_active_window` returned. -/
theorem selected_window {graph : AgentGraph} {subgraphs : List AgentSubgraph}
    (h : s.selectActiveSubgraphs env graph subgraphs = .ok s') {w : ActiveWindow}
    (hw : s'.activeWindow = some w) :
    selectActiveWindow env.windowHash (s.windowRequest graph subgraphs) = .ok (some w) := by
  rcases selectActiveSubgraphs_ok h with ⟨_, _, _, rfl⟩ | ⟨w', hwindow, rfl⟩
  · cases hw
  · obtain rfl := Option.some.inj hw
    exact hwindow

/-- `start_iteration` goes on with the iteration it resumed, or opens a new one
on the current snapshot. -/
theorem startIteration_ok {violations : List Violation}
    (h : s.startIteration env violations = .ok s') :
    s' = { s with
      violations := violations
      activeWindow := none
      allNoop := false
      iterationExitReason := "FRONTIER_EXHAUSTED" } ∨
    ∃ total frontier, env.total s.currentSnapshot = .ok total ∧
      s' = { s with
        violations := violations
        activeWindow := none
        allNoop := false
        iterationExitReason := "FRONTIER_EXHAUSTED"
        iterationStartSnapshot := some s.currentSnapshot
        iterationStartTotalDrv := total
        iterationFrontier := frontier
        processedFrontier := ∅
        deferredFrontier := ∅
        skippedFrontier := ∅
        windowIndex := 0
        windowResults := []
        iterationSandboxJobsUsed := 0
        history := { s.history with iterationFlags := [] } } := by
  unfold startIteration at h
  dsimp only at h
  split at h
  next => exact .inl (Except.ok.inj h).symm
  next =>
    obtain ⟨total, htotal, h⟩ := except_bind_ok h
    obtain ⟨_, -, h⟩ := except_bind_ok h
    exact .inr ⟨total, _, htotal, (Except.ok.inj h).symm⟩

/-- Going on with an iteration changes no book. -/
theorem sameBooks_reopen (s : Session) (violations : List Violation) (reason : String) :
    s.SameBooks { s with
      violations := violations
      activeWindow := none
      allNoop := false
      iterationExitReason := reason } := by
  constructor <;> rfl

/-- A child is published only once its provenance is verified. -/
theorem publishCurrent_ok {result : TransactionExecutionResult}
    (h : s.publishCurrent env result = .ok s') :
    env.provenance.validateSnapshotProvenance result.committedSnapshot s.baselineSnapshot
        env.resume.runId = .ok ⟨⟩ ∧
      s' = { s with
        currentSnapshot := result.committedSnapshot
        history :=
          { s.history with published := s.history.published ++ [result.committedSnapshot] } } := by
  unfold publishCurrent at h
  split_ifs at h
  · obtain ⟨_, hcontext, h⟩ := except_bind_ok h
    exact ⟨validate_of_buildSnapshotContext hcontext, (Except.ok.inj h).symm⟩
  · obtain ⟨_, hvalid, h⟩ := except_bind_ok h
    exact ⟨hvalid, (Except.ok.inj h).symm⟩

/-- The best snapshot follows the current one when that has the smaller total. -/
theorem publishBest_ok (h : s.publishBest env = .ok s') :
    ∃ total, env.total s.currentSnapshot = .ok total ∧
      (total < s.bestTotal ∧ s' = { s with bestTotal := total, bestSnapshot := s.currentSnapshot } ∨
        s.bestTotal ≤ total ∧ s' = s) := by
  unfold publishBest at h
  obtain ⟨total, htotal, h⟩ := except_bind_ok h
  refine ⟨total, htotal, ?_⟩
  split_ifs at h with hless
  · exact .inl ⟨hless, (Except.ok.inj h).symm⟩
  · exact .inr ⟨not_lt.1 hless, (Except.ok.inj h).symm⟩

/-- What `finish_iteration` counts. -/
theorem countIteration_ok (h : s.countIteration env = .ok s') :
    ∃ noProgress, s' = { s with
      noProgress := noProgress
      completedIteration := s.iteration
      allNoop := s.windowResults.map (·.status) ≠ [] ∧
        (∀ status ∈ s.windowResults.map (·.status), status = .noOp) ∧
        s.planningHadFailures = false ∧ s.exploredNonNoop = false } := by
  unfold countIteration at h
  obtain ⟨total, -, h⟩ := except_bind_ok h
  exact ⟨_, (Except.ok.inj h).symm⟩

end Session

/-! ## Stopping -/

inductive StoppingStatus
  | continue_
  | drcClean
  | maxIterations
  | noProgress
  | allNoop
  | budgetExhausted
  | integrityFailure
  deriving DecidableEq

/-- The stored text of a stopping status. -/
def StoppingStatus.value : StoppingStatus → String
  | continue_ => "CONTINUE"
  | drcClean => "DRC_CLEAN"
  | maxIterations => "MAX_ITERATIONS"
  | noProgress => "NO_PROGRESS"
  | allNoop => "ALL_NOOP"
  | budgetExhausted => "BUDGET_EXHAUSTED"
  | integrityFailure => "INTEGRITY_FAILURE"

/-- The arguments of `stopping_condition`. -/
structure StoppingInput where
  residualCount : ℤ
  connectivityPreserved : Bool
  iteration : ℕ
  maxIterations : ℤ
  noProgress : ℕ
  maxNoProgress : ℕ
  allNoop : Bool
  budgetExhausted : Bool := false
  integrityFailure : Bool := false

/-- `stopping_condition`. -/
def stoppingCondition (i : StoppingInput) : StoppingStatus :=
  if i.integrityFailure then .integrityFailure
  else if i.residualCount = 0 ∧ i.connectivityPreserved = true then .drcClean
  else if i.allNoop then .allNoop
  else if i.maxNoProgress ≤ i.noProgress then .noProgress
  else if i.maxIterations ≤ i.iteration then .maxIterations
  else if i.budgetExhausted then .budgetExhausted
  else .continue_

/-- `check_stopping_condition`; the clock says whether the time is up. -/
def Session.checkStoppingCondition (env : RunEnv) (s : Session) (timeUp : Bool) :
    Except String StoppingStatus := do
  let residual ← env.total s.currentSnapshot
  pure (stoppingCondition {
    residualCount := residual
    connectivityPreserved := true
    iteration := s.completedIteration
    maxIterations := s.config.maxIterations
    noProgress := s.noProgress
    maxNoProgress := s.config.maxNoProgressIterations
    allNoop := s.allNoop
    budgetExhausted := timeUp
    integrityFailure := s.fatalFailure })

end DRCAgent
