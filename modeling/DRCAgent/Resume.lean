/-
# Resuming a run

`ResearchRuntime._resume_p5` and `_resume_session` of `workflow/runtime.py`:
the identity checks, the comparison of the manifest with the latest safe
checkpoint, the check of the manifest against the continuation journal, the
admission of a request, the append of an authorization and the restored session.

The functions of `workflow/continuation.py` and `workflow/checkpoints.py` are
compiled; they are fields of `ResumeEnv`, as are the other outside functions.
Of the checkpoint store one fact is built in: it hands out the last saved safe
checkpoint, or raises.
-/
import DRCAgent.Failures
import DRCAgent.RunState

namespace DRCAgent

/-! ## The outside functions -/

/-- The arguments of `make_continuation_record`. -/
structure RecordRequest where
  runId : String
  nonce : String
  requesterAuthorization : String
  priorStatus : String
  completedIterations : ℕ
  scientificHash : String
  initialResolvedHash : String
  executableIdentity : String
  identity : List (String × String)
  currentEnvelope : ExecutionEnvelope
  targetEnvelope : ExecutionEnvelope
  previous : Option ContinuationRecord

/-- What a resume calls outside `_resume_p5`, for one run and its inputs. -/
structure ResumeEnv where
  runId : String
  /-- `resolved_config.yaml` through `resolve_method`: the preset and the config. -/
  originalConfig : String → Except String (String × AppConfig)
  suppliedConfig : String → Except String AppConfig
  validateMethodIdentity : String → AppConfig → String → String → Except String Unit
  scientificConfigHash : AppConfig → String
  executableDigest : String
  executionEnvelope : AppConfig → ExecutionEnvelope
  /-- `envelope.content_hash`. -/
  envelopeHash : ExecutionEnvelope → String
  /-- `run_identity`: run, experiment, case, method, seed. -/
  runIdentity : String → String → String → String → ℤ → String
  stableHash : String → String
  officialInputIdentity : String → Except String String
  evaluatorHash : String
  imageDigest : AppConfig → Except String String
  verifySnapshot : DesignSnapshotRef → Except String Unit
  /-- `build_snapshot_context(current, baseline)`. -/
  buildSnapshotContext : DesignSnapshotRef → DesignSnapshotRef → Except String Unit
  readContinuationRecords : List ContinuationRecord → Except String (List ContinuationRecord)
  authorizedEnvelope : ExecutionEnvelope → List ContinuationRecord → ExecutionEnvelope
  verifyExperienceCutoff : Checkpoint → Except String Unit
  verifyRepairAttemptMemory : Checkpoint → Except String Unit
  verifyFrontierState : Checkpoint → Except String Unit
  cumulativeUsage : Manifest → ExecutionEnvelope → Except String Unit
  maxContinuationIterations : ℤ
  continuationNonce : Option String → ℤ → Option ExecutionEnvelope → Except String String
  verifyResumeGate : AppConfig → Manifest → Except String Unit
  makeContinuationRecord : RecordRequest → Except String ContinuationRecord
  appendContinuationRecord :
    List ContinuationRecord → ContinuationRecord → Except String (List ContinuationRecord)
  applyExecutionEnvelope : AppConfig → ExecutionEnvelope → Except String AppConfig
  /-- `"epoch_" + uuid.uuid4().hex`. -/
  newEpoch : String

/-- The arguments of `resume`. -/
structure ResumeRequest where
  extendMaxIterations : Option ℤ := none
  extendMaxHttpAttemptsPerRun : Option ℤ := none
  extendMaxEdaEvaluationsPerRun : Option ℤ := none
  extendWholeRunBudgetSeconds : Option PyFloat := none
  continuationNonceValue : Option String := none
  requesterAuthorization : String := "EXPLICIT_USER_CLI"
  verifyOnly : Bool := false

/-- `raise ValueError(text)` unless `p`. -/
def require (p : Prop) [Decidable p] (text : String) : Except String Unit :=
  if p then .ok ⟨⟩ else .error text

@[simp] theorem require_eq_ok {p : Prop} [Decidable p] {text : String} {u : Unit} :
    require p text = .ok u ↔ p := by
  unfold require
  split_ifs with h <;> simp [h]

theorem require_of {p : Prop} [Decidable p] {text : String} (h : p) :
    require p text = .ok ⟨⟩ := if_pos h

/-! ## Identity -/

/-- The locals of `_resume_p5` that the identity checks leave behind. -/
structure RunBinding where
  presetName : String
  config : AppConfig
  scientificHash : String
  initialEnvelope : ExecutionEnvelope
  runIdentity : String
  hashes : RunHashes

/-- The first comparison: `RESUME_SCIENTIFIC_IDENTITY_MISMATCH`. -/
def ScientificIdentity (env : ResumeEnv) (m : Manifest) (config : AppConfig) : Prop :=
  let identity := env.runIdentity env.runId m.experimentId m.caseId m.method m.seed
  m.runId = env.runId ∧
  m.resolvedConfigHash = config.contentHash ∧
  m.continuation.initialResolvedConfigHash = config.contentHash ∧
  m.scientificConfigHash = env.scientificConfigHash config ∧
  m.continuation.scientificConfigHash = env.scientificConfigHash config ∧
  m.executableDigest = env.executableDigest ∧
  m.continuation.initialExecutionEnvelope.eq (env.executionEnvelope config) = true ∧
  m.continuation.initialExecutionEnvelopeHash = env.envelopeHash (env.executionEnvelope config) ∧
  config.llmHash = m.llmConfigHash ∧
  m.continuation.runIdentity = identity ∧
  m.continuation.runIdentityHash = env.stableHash identity

instance (env : ResumeEnv) (m : Manifest) (config : AppConfig) :
    Decidable (ScientificIdentity env m config) := by
  unfold ScientificIdentity
  infer_instance

/-- The checks before the checkpoint is read. -/
def bindRun (env : ResumeEnv) (m : Manifest) : Except String RunBinding := do
  let (presetName, config) ← env.originalConfig m.method
  let supplied ← env.suppliedConfig m.method
  env.validateMethodIdentity presetName config env.runId m.experimentId
  require (supplied.contentHash = config.contentHash) "RESUME_SUPPLIED_CONFIG_MISMATCH"
  require (ScientificIdentity env m config) "RESUME_SCIENTIFIC_IDENTITY_MISMATCH"
  let inputs ← env.officialInputIdentity m.caseId
  require (inputs = m.officialInputIdentity) "RESUME_OFFICIAL_INPUT_IDENTITY_MISMATCH"
  require (env.evaluatorHash = m.evaluatorHash) "RESUME_EVALUATOR_IDENTITY_MISMATCH"
  let digest ← env.imageDigest config
  require (digest = m.dockerImageDigest) "RESUME_DOCKER_IMAGE_DIGEST_MISMATCH"
  pure {
    presetName := presetName
    config := config
    scientificHash := env.scientificConfigHash config
    initialEnvelope := env.executionEnvelope config
    runIdentity := env.runIdentity env.runId m.experimentId m.caseId m.method m.seed
    hashes := {
      configHash := env.scientificConfigHash config
      baselineHash := m.baselineSnapshot.scriptRef.sha256
      evaluatorHash := env.evaluatorHash
      codeCommit := env.executableDigest } }

/-- What the identity checks leave behind belongs to the configuration they read. -/
theorem bindRun_eq_ok {env : ResumeEnv} {m : Manifest} {b : RunBinding}
    (h : bindRun env m = .ok b) :
    ScientificIdentity env m b.config ∧ b.scientificHash = env.scientificConfigHash b.config ∧
      b.runIdentity = env.runIdentity env.runId m.experimentId m.caseId m.method m.seed := by
  unfold bindRun at h
  obtain ⟨⟨presetName, config⟩, -, h⟩ := except_bind_ok h
  obtain ⟨supplied, -, h⟩ := except_bind_ok h
  obtain ⟨_, -, h⟩ := except_bind_ok h
  obtain ⟨_, -, h⟩ := except_bind_ok h
  obtain ⟨_, hidentity, h⟩ := except_bind_ok h
  obtain ⟨inputs, -, h⟩ := except_bind_ok h
  obtain ⟨_, -, h⟩ := except_bind_ok h
  obtain ⟨_, -, h⟩ := except_bind_ok h
  obtain ⟨digest, -, h⟩ := except_bind_ok h
  obtain ⟨_, -, h⟩ := except_bind_ok h
  obtain rfl := Except.ok.inj h
  exact ⟨require_eq_ok.1 hidentity, rfl, rfl⟩

/-! ## The checkpoint -/

/-- `CheckpointStore.resume`. -/
def resumeCheckpoint (runId : String) (store : List StoredCheckpoint) (hashes : RunHashes) :
    Except String Checkpoint :=
  match latestSafe store with
  | none => .error ("no safe checkpoint for " ++ runId)
  | some state => do
    require (state.hashes = hashes) "resume integrity mismatch"
    pure state

/-- `manifest_completed`: a recovery without the summary field takes it from the
checkpoint. -/
def manifestCompleted (m : Manifest) (state : Checkpoint) : Option ℕ :=
  if m.iterationsCompleted = none ∧ (m.status = "RUNNING" ∨ m.status = "INTERRUPTED") then
    some state.iteration
  else m.iterationsCompleted

/-- The manifest and the checkpoint tell of the same snapshots. -/
def SnapshotsAgree (m : Manifest) (state : Checkpoint) : Prop :=
  m.baselineSnapshot = state.baselineSnapshot ∧
  m.currentSnapshot = some state.currentSnapshot ∧
  m.bestSnapshot = some state.bestSnapshot

instance (m : Manifest) (state : Checkpoint) : Decidable (SnapshotsAgree m state) := by
  unfold SnapshotsAgree
  infer_instance

/-- The manifest/checkpoint comparisons of `_resume_p5`. -/
def compareCheckpoint (env : ResumeEnv) (b : RunBinding) (m : Manifest) (state : Checkpoint) :
    Except String Unit := do
  require (manifestCompleted m state = some state.iteration) "RESUME_ITERATION_ACCOUNTING_MISMATCH"
  require (state.scientificConfigHash = b.scientificHash) "CHECKPOINT_SCIENTIFIC_CONFIG_MISMATCH"
  require (state.officialInputIdentity = m.officialInputIdentity)
    "CHECKPOINT_INPUT_IDENTITY_MISMATCH"
  require (state.runIdentity = b.runIdentity ∧
    state.runIdentityHash = env.stableHash b.runIdentity) "CHECKPOINT_RUN_IDENTITY_MISMATCH"
  require (SnapshotsAgree m state) "RESUME_SNAPSHOT_CHECKPOINT_MISMATCH"

/-- The snapshots whose semantic context is rebuilt: each id once. -/
def contextSnapshots (state : Checkpoint) : List DesignSnapshotRef :=
  if state.bestSnapshot.snapshotId = state.currentSnapshot.snapshotId then [state.currentSnapshot]
  else [state.currentSnapshot, state.bestSnapshot]

/-- The snapshots' artifacts, and their semantic contexts for a formal profile. -/
def verifySnapshots (env : ResumeEnv) (b : RunBinding) (state : Checkpoint) :
    Except String Unit := do
  env.verifySnapshot state.baselineSnapshot
  env.verifySnapshot state.currentSnapshot
  env.verifySnapshot state.bestSnapshot
  if b.config.kernelEnabled then
    (contextSnapshots state).forM fun snapshot =>
      env.buildSnapshotContext snapshot state.baselineSnapshot
  else pure ⟨⟩

/-! ## The journal -/

/-- The manifest describes the head of the journal. -/
def DescribesHead (env : ResumeEnv) (m : Manifest) (records : List ContinuationRecord)
    (current : ExecutionEnvelope) : Prop :=
  m.continuation.latestRecordHash = records.getLast?.map (·.recordHash) ∧
  m.continuation.authorizedExecutionEnvelope.eq current = true ∧
  m.continuation.authorizedExecutionEnvelopeHash = env.envelopeHash current ∧
  m.executionEnvelope.eq current = true

instance (env : ResumeEnv) (m : Manifest) (records : List ContinuationRecord)
    (current : ExecutionEnvelope) : Decidable (DescribesHead env m records current) := by
  unfold DescribesHead
  infer_instance

/-- The check of the manifest against the journal. -/
def checkManifestHead (env : ResumeEnv) (m : Manifest) (records : List ContinuationRecord)
    (current : ExecutionEnvelope) : Except String Unit := do
  require (m.continuation.segmentIndex ≤ records.length ∧ 0 ≤ m.continuation.segmentIndex)
    "CONTINUATION_MANIFEST_INDEX_MISMATCH"
  if m.continuation.segmentIndex = records.length then
    require (DescribesHead env m records current) "CONTINUATION_MANIFEST_HEAD_MISMATCH"
  else
    -- one publication ahead only if the authorization append completed before
    -- resume initialization
    require (m.continuation.segmentIndex = records.length - 1 ∧
      m.status = "COMPLETED_MAX_ITERATIONS") "CONTINUATION_MANIFEST_UNEXPECTEDLY_STALE"

/-- `identity`. -/
def recordIdentity (env : ResumeEnv) (b : RunBinding) (m : Manifest) : List (String × String) :=
  [("run_identity", b.runIdentity), ("baseline_script_sha256", b.hashes.baselineHash),
    ("official_input_identity_hash", env.stableHash m.officialInputIdentity),
    ("evaluator_hash", b.hashes.evaluatorHash),
    ("docker_image", m.dockerImage),
    ("docker_image_digest", m.dockerImageDigest),
    ("model_hash", m.llmConfigHash)]

/-! ## The request -/

namespace ResumeRequest

/-- `envelope_requested`. -/
def envelopeRequested (req : ResumeRequest) : Bool :=
  req.extendMaxIterations.isSome || req.extendMaxHttpAttemptsPerRun.isSome ||
    req.extendMaxEdaEvaluationsPerRun.isSome || req.extendWholeRunBudgetSeconds.isSome

/-- `budget_amendment_requested`. -/
def budgetAmendmentRequested (req : ResumeRequest) : Bool :=
  req.extendMaxHttpAttemptsPerRun.isSome || req.extendMaxEdaEvaluationsPerRun.isSome ||
    req.extendWholeRunBudgetSeconds.isSome

/-- `target_iterations`. -/
def targetIterations (req : ResumeRequest) (current : ExecutionEnvelope) : ℤ :=
  req.extendMaxIterations.getD current.maxIterations

/-- `target_payload`. -/
def targetPayload (req : ResumeRequest) (current : ExecutionEnvelope) : ExecutionEnvelope where
  maxIterations := req.targetIterations current
  maxHttpAttemptsPerRun := req.extendMaxHttpAttemptsPerRun.or current.maxHttpAttemptsPerRun
  maxEdaEvaluationsPerRun := req.extendMaxEdaEvaluationsPerRun.or current.maxEdaEvaluationsPerRun
  wholeRunBudgetSeconds := req.extendWholeRunBudgetSeconds.or current.wholeRunBudgetSeconds

/-- `requested_envelope` with `requested_nonce`. -/
def requested (env : ResumeEnv) (req : ResumeRequest) (current : ExecutionEnvelope) :
    Except String (ExecutionEnvelope × String) := do
  require (1 ≤ req.targetIterations current ∧
      req.targetIterations current ≤ env.maxContinuationIterations)
    ("extend-max-iterations must be between 1 and " ++ toString env.maxContinuationIterations)
  let envelope ← (req.targetPayload current).validate
  let nonce ← env.continuationNonce req.continuationNonceValue (req.targetIterations current)
    (if req.budgetAmendmentRequested then some envelope else none)
  pure (envelope, nonce)

end ResumeRequest

/-- The refusal of a limit that is `None` or at most the old one, unless it is the old one. -/
def keptOrRaised {α : Type} (eq le : α → α → Bool) (old new : Option α) : Bool :=
  sameLimit eq new old || match old, new with
    | some old, some new => !le new old
    | _, _ => false

/-- The error of a request for the envelope in force. -/
def alreadyAuthorizedText : String :=
  "continuation target is already authorized; reuse its original nonce for an idempotent request"

/-- The checks of a request that no record answers yet. -/
def admitNewEnvelope (req : ResumeRequest) (status : String) (completed : ℕ)
    (current requested : ExecutionEnvelope) : Except String Unit := do
  require (keptOrRaised (· = ·) (· ≤ ·) current.maxHttpAttemptsPerRun
        requested.maxHttpAttemptsPerRun = true ∧
      keptOrRaised (· = ·) (· ≤ ·) current.maxEdaEvaluationsPerRun
        requested.maxEdaEvaluationsPerRun = true ∧
      keptOrRaised PyFloat.eq PyFloat.le current.wholeRunBudgetSeconds
        requested.wholeRunBudgetSeconds = true)
    "budget amendments must strictly increase an existing finite cumulative ceiling"
  require (current.maxIterations ≤ requested.maxIterations)
    "continuation iteration limit cannot decrease"
  if status = "COMPLETED_MAX_ITERATIONS" then do
    require (current.maxIterations < requested.maxIterations)
      "completed-max continuation must increase the iteration ceiling"
    require ((completed : ℤ) = current.maxIterations) "CONTINUATION_COMPLETION_BOUNDARY_MISMATCH"
    require (requested.eq current = false) alreadyAuthorizedText
  else if status = "BUDGET_EXHAUSTED" then do
    require (¬ current.maxIterations < requested.maxIterations ∧
        req.budgetAmendmentRequested = true)
      "budget-exhausted resume requires only an explicit bounded budget increase"
    require ((completed : ℤ) < current.maxIterations) ("budget-exhausted resume has no remaining " ++
      "iteration under the current iteration ceiling")
    require (requested.eq current = false) alreadyAuthorizedText
  else .error "new envelope authorization requires COMPLETED_MAX_ITERATIONS or BUDGET_EXHAUSTED"

/-- `requested_nonce`, `existing_record` and `proposed_envelope`. -/
structure Proposal where
  nonce : String
  existing : Option ContinuationRecord
  envelope : ExecutionEnvelope

/-- The proposal of a request, if it requests an envelope. -/
def propose (env : ResumeEnv) (req : ResumeRequest) (status : String) (completed : ℕ)
    (records : List ContinuationRecord) (identity : List (String × String))
    (current : ExecutionEnvelope) : Except String (Option Proposal) :=
  if req.envelopeRequested then do
    let (requested, nonce) ← req.requested env current
    match records.find? (·.nonce = nonce) with
    | some record => do
      require (record.newEnvelope.eq requested = true ∧ record.identity = identity)
        "CONTINUATION_NONCE_CONFLICT"
      pure (some ⟨nonce, some record, record.newEnvelope⟩)
    | none => do
      admitNewEnvelope req status completed current requested
      pure (some ⟨nonce, none, requested⟩)
  else pure none

/-- A nonce that the journal has. -/
theorem propose_found {env : ResumeEnv} {req : ResumeRequest} {status : String} {completed : ℕ}
    {records : List ContinuationRecord} {identity : List (String × String)}
    {current requested : ExecutionEnvelope} {nonce : String} {record : ContinuationRecord}
    (hrequested : req.envelopeRequested = true)
    (hreq : req.requested env current = .ok (requested, nonce))
    (hfind : records.find? (·.nonce = nonce) = some record) :
    propose env req status completed records identity current = (do
      require (record.newEnvelope.eq requested = true ∧ record.identity = identity)
        "CONTINUATION_NONCE_CONFLICT"
      pure (some ⟨nonce, some record, record.newEnvelope⟩)) := by
  unfold propose
  rw [if_pos hrequested, hreq]
  simp only [bind, Except.bind, hfind]

/-! ## Admission -/

/-- All that is known when a resume has been admitted. -/
structure Admission where
  binding : RunBinding
  state : Checkpoint
  records : List ContinuationRecord
  currentEnvelope : ExecutionEnvelope
  identity : List (String × String)
  proposal : Option Proposal

namespace Admission

/-- `existing_record`. -/
def existing (a : Admission) : Option ContinuationRecord := a.proposal.bind (·.existing)

/-- `effective_envelope`. -/
def effectiveEnvelope (a : Admission) : ExecutionEnvelope :=
  (a.proposal.map (·.envelope)).getD a.currentEnvelope

/-- `pending_authorization`. -/
def pendingAuthorization (a : Admission) (m : Manifest) : Bool :=
  m.status = "COMPLETED_MAX_ITERATIONS" ∧
    (a.state.iteration : ℤ) < a.effectiveEnvelope.maxIterations

/-- `already_applied`. -/
def alreadyApplied (a : Admission) (m : Manifest) : Bool :=
  a.existing.isSome && !a.pendingAuthorization m

/-- `budget_amendment_pending`. -/
def budgetAmendmentPending (a : Admission) (m : Manifest) : Bool :=
  m.status = "BUDGET_EXHAUSTED" ∧ a.proposal.isSome ∧ a.existing = none ∧
    a.effectiveEnvelope.eq a.currentEnvelope = false

end Admission

/-- `resumable_interruption`. -/
def resumableInterruption (m : Manifest) : Bool :=
  m.status = "INTERRUPTED" ∨ m.status = "RUNNING" ∨
    (m.status = "FAILED" ∧ m.failureDomain = some "INFRASTRUCTURE")

/-- `status.startswith("COMPLETED")`. -/
def isCompletedStatus (status : String) : Bool := "COMPLETED".toList.isPrefixOf status.toList

/-- The status admission at the end of the checks. -/
def admitStatus (a : Admission) (m : Manifest) : Except String Unit := do
  require (m.status = "COMPLETED_DRC_CLEAN" → a.alreadyApplied m = true) ("completed runs cannot be " ++
    "resumed: naturally DRC-clean runs do not need continuation")
  require (m.status = "BUDGET_EXHAUSTED" →
      a.budgetAmendmentPending m = true ∨ a.alreadyApplied m = true)
    "budget exhaustion requires an explicit amendment"
  require (a.pendingAuthorization m = true ∨ a.budgetAmendmentPending m = true ∨
      resumableInterruption m = true ∨ a.alreadyApplied m = true ∨
      (m.status = "COMPLETED_MAX_ITERATIONS" ∧
        a.proposal.any (fun p => (a.state.iteration : ℤ) < p.envelope.maxIterations) = true))
    (if isCompletedStatus m.status then "completed runs cannot be resumed"
      else "run status is not resumable: " ++ m.status)

/-- Everything `_resume_p5` checks before it decides what to do. -/
def admitResume (env : ResumeEnv) (req : ResumeRequest) (m : Manifest)
    (checkpoints : List StoredCheckpoint) (journal : List ContinuationRecord) :
    Except String Admission := do
  let b ← bindRun env m
  let state ← resumeCheckpoint env.runId checkpoints b.hashes
  compareCheckpoint env b m state
  verifySnapshots env b state
  let records ← env.readContinuationRecords journal
  let current := env.authorizedEnvelope b.initialEnvelope records
  checkManifestHead env m records current
  require (state.executionEnvelopeHash = env.envelopeHash b.initialEnvelope ∨
      state.executionEnvelopeHash ∈ records.map (·.newEnvelopeHash))
    "CHECKPOINT_EXECUTION_ENVELOPE_MISMATCH"
  env.verifyExperienceCutoff state
  env.verifyRepairAttemptMemory state
  env.verifyFrontierState state
  env.cumulativeUsage m current
  let identity := recordIdentity env b m
  require (∀ record ∈ records, record.identity = identity) "CONTINUATION_RECORD_IDENTITY_MISMATCH"
  let proposal ← propose env req m.status state.iteration records identity current
  let a : Admission := ⟨b, state, records, current, identity, proposal⟩
  admitStatus a m
  pure a

/-! ## Authorization and launch -/

/-- The authorization an admitted request appends, if no record answers it. -/
def authorizationRequest (env : ResumeEnv) (req : ResumeRequest) (m : Manifest) (a : Admission) :
    Option RecordRequest :=
  match a.proposal with
  | some ⟨nonce, none, envelope⟩ => some {
      runId := env.runId
      nonce := nonce
      requesterAuthorization := req.requesterAuthorization
      priorStatus := m.status
      completedIterations := a.state.iteration
      scientificHash := a.binding.scientificHash
      initialResolvedHash := a.binding.config.contentHash
      executableIdentity := env.executableDigest
      identity := a.identity
      currentEnvelope := a.currentEnvelope
      targetEnvelope := envelope
      previous := a.records.getLast? }
  | _ => none

/-- The session `_resume_session` builds. -/
def resumeSession (config : AppConfig) (m : Manifest) (hashes : RunHashes) (epoch : String)
    (state : Checkpoint) : Session :=
  let window := state.boundary.isWindow
  { config := config
    hashes := hashes
    executionEpoch := epoch
    manifest := m
    baselineSnapshot := m.baselineSnapshot
    currentSnapshot := state.currentSnapshot
    bestSnapshot := state.bestSnapshot
    bestTotal := state.bestTotal
    noProgress := state.noProgress
    completedIteration := state.iteration
    resumeState := some state
    iterationStartSnapshot := if window then state.iterationStartSnapshot else none
    iterationStartTotalDrv := if window then state.iterationStartTotalDrv else 0
    iterationFrontier := if window then state.iterationFrontier else ∅
    processedFrontier := if window then state.processedFrontier else ∅
    deferredFrontier := if window then state.deferredFrontier else ∅
    skippedFrontier := if window then state.skippedFrontier else ∅
    windowIndex := if window then state.windowIndex else 0
    windowResults := if window then state.windowResults else []
    iterationSandboxJobsUsed := if window then state.iterationSandboxJobsUsed else 0
    repairAttemptMemory := state.repairAttemptMemory
    history := { state.history with
      iterationFlags := if window then state.history.iterationFlags else [] } }

/-- A resume about to execute. -/
structure Launch where
  /-- The record this call appended. -/
  appended : Option ContinuationRecord
  journal : List ContinuationRecord
  envelope : ExecutionEnvelope
  /-- The epoch an authorization reserved for this execution. -/
  reservedEpoch : Option String
  session : Session

/-- What `_resume_p5` does with a request it does not reject. -/
inductive ResumeOutcome
  | verifiedResumable
  | continuationAlreadyApplied
  | execute (launch : Launch)

/-- The manifest a resumed session starts from. -/
def resumedManifest (env : ResumeEnv) (m : Manifest) (records : List ContinuationRecord)
    (envelope : ExecutionEnvelope) : Manifest :=
  { m with
    status := "RUNNING"
    failureDomain := none
    executionEnvelope := envelope
    maxIterations := envelope.maxIterations
    continuation := { m.continuation with
      segmentIndex := records.length
      latestRecordHash := records.getLast?.map (·.recordHash)
      authorizedExecutionEnvelope := envelope
      authorizedExecutionEnvelopeHash := env.envelopeHash envelope } }

/-- The rest of a resume once the journal holds `records`. -/
def launch (env : ResumeEnv) (m : Manifest) (a : Admission) (appended : Option ContinuationRecord)
    (journal records : List ContinuationRecord) (envelope : ExecutionEnvelope)
    (reservedEpoch : Option String) : Except String ResumeOutcome := do
  let manifest := resumedManifest env m records envelope
  let config ← env.applyExecutionEnvelope a.binding.config envelope
  env.validateMethodIdentity a.binding.presetName config env.runId m.experimentId
  pure (.execute {
    appended := appended
    journal := journal
    envelope := envelope
    reservedEpoch := reservedEpoch
    session := resumeSession config manifest a.binding.hashes (reservedEpoch.getD env.newEpoch)
      a.state })

/-- `execution_epoch` of a request that a record answers: reserved once. -/
def reservedEpoch (m : Manifest) (existing : Option ContinuationRecord) : Option String :=
  (existing.map (·.newExecutionEpoch)).filter (· ∉ m.executionEpochs)

/-- `make_continuation_record` and `append_continuation_record`: the record and
the journal that holds it. -/
def appendAuthorization (env : ResumeEnv) (request : RecordRequest)
    (journal : List ContinuationRecord) :
    Except String (ContinuationRecord × List ContinuationRecord) := do
  let record ← env.makeContinuationRecord request
  let journal ← env.appendContinuationRecord journal record
  pure (record, journal)

/-- What an admitted request that is neither verified only nor applied does. -/
def authorizeAndLaunch (env : ResumeEnv) (req : ResumeRequest) (m : Manifest)
    (journal : List ContinuationRecord) (a : Admission) : Except String ResumeOutcome := do
  env.verifyResumeGate a.binding.config m
  match authorizationRequest env req m a with
  | some request => do
    let (record, journal) ← appendAuthorization env request journal
    launch env m a (some record) journal (a.records ++ [record]) record.newEnvelope
      (some record.newExecutionEpoch)
  | none =>
    launch env m a none journal a.records a.currentEnvelope (reservedEpoch m a.existing)

/-- `_resume_p5`. -/
def resumeP5 (env : ResumeEnv) (req : ResumeRequest) (m : Manifest)
    (checkpoints : List StoredCheckpoint) (journal : List ContinuationRecord) :
    Except String ResumeOutcome := do
  let a ← admitResume env req m checkpoints journal
  if req.verifyOnly then pure .verifiedResumable
  else if a.alreadyApplied m then pure .continuationAlreadyApplied
  else authorizeAndLaunch env req m journal a

/-! ## Admission, inverted -/

/-- What admission establishes, check by check. -/
structure Admitted (env : ResumeEnv) (req : ResumeRequest) (m : Manifest)
    (checkpoints : List StoredCheckpoint) (journal : List ContinuationRecord) (a : Admission) :
    Prop where
  binding : bindRun env m = .ok a.binding
  state : resumeCheckpoint env.runId checkpoints a.binding.hashes = .ok a.state
  compared : compareCheckpoint env a.binding m a.state = .ok ⟨⟩
  verified : verifySnapshots env a.binding a.state = .ok ⟨⟩
  records : env.readContinuationRecords journal = .ok a.records
  current : a.currentEnvelope = env.authorizedEnvelope a.binding.initialEnvelope a.records
  head : checkManifestHead env m a.records a.currentEnvelope = .ok ⟨⟩
  known : a.state.executionEnvelopeHash = env.envelopeHash a.binding.initialEnvelope ∨
    a.state.executionEnvelopeHash ∈ a.records.map (·.newEnvelopeHash)
  cutoff : env.verifyExperienceCutoff a.state = .ok ⟨⟩
  memory : env.verifyRepairAttemptMemory a.state = .ok ⟨⟩
  frontier : env.verifyFrontierState a.state = .ok ⟨⟩
  usage : env.cumulativeUsage m a.currentEnvelope = .ok ⟨⟩
  identity : a.identity = recordIdentity env a.binding m
  identities : ∀ record ∈ a.records, record.identity = a.identity
  proposal : propose env req m.status a.state.iteration a.records a.identity a.currentEnvelope =
    .ok a.proposal
  status : admitStatus a m = .ok ⟨⟩

variable {env : ResumeEnv} {req : ResumeRequest} {m : Manifest}
  {checkpoints : List StoredCheckpoint} {journal : List ContinuationRecord}

/-- Admission is the conjunction of its checks. -/
theorem admitResume_eq_ok {a : Admission} :
    admitResume env req m checkpoints journal = .ok a ↔
      Admitted env req m checkpoints journal a := by
  unfold admitResume
  constructor
  · intro h
    obtain ⟨b, hb, h⟩ := except_bind_ok h
    obtain ⟨state, hstate, h⟩ := except_bind_ok h
    obtain ⟨_, hcompared, h⟩ := except_bind_ok h
    obtain ⟨_, hverified, h⟩ := except_bind_ok h
    obtain ⟨records, hrecords, h⟩ := except_bind_ok h
    obtain ⟨_, hhead, h⟩ := except_bind_ok h
    obtain ⟨_, hknown, h⟩ := except_bind_ok h
    obtain ⟨_, hcutoff, h⟩ := except_bind_ok h
    obtain ⟨_, hmemory, h⟩ := except_bind_ok h
    obtain ⟨_, hfrontier, h⟩ := except_bind_ok h
    obtain ⟨_, husage, h⟩ := except_bind_ok h
    obtain ⟨_, hidentities, h⟩ := except_bind_ok h
    obtain ⟨proposal, hproposal, h⟩ := except_bind_ok h
    obtain ⟨_, hstatus, h⟩ := except_bind_ok h
    obtain rfl := Except.ok.inj h
    exact ⟨hb, hstate, hcompared, hverified, hrecords, rfl, hhead, require_eq_ok.1 hknown,
      hcutoff, hmemory, hfrontier, husage, rfl, require_eq_ok.1 hidentities, hproposal, hstatus⟩
  · intro h
    obtain ⟨b, state, records, current, identity, proposal⟩ := a
    obtain ⟨hb, hstate, hcompared, hverified, hrecords, hcurrent, hhead, hknown, hcutoff, hmemory,
      hfrontier, husage, hidentity, hidentities, hproposal, hstatus⟩ := h
    dsimp only at *
    subst hcurrent hidentity
    simp only [Failures.bind_eq_ok]
    exact ⟨b, hb, state, hstate, ⟨⟩, hcompared, ⟨⟩, hverified, records, hrecords, ⟨⟩, hhead, ⟨⟩,
      require_of hknown, ⟨⟩, hcutoff, ⟨⟩, hmemory, ⟨⟩, hfrontier, ⟨⟩, husage, ⟨⟩,
      require_of hidentities, proposal, hproposal, ⟨⟩, hstatus, rfl⟩

/-- A launch goes through when its two outside calls do. -/
theorem launch_eq_execute {a : Admission} {appended : Option ContinuationRecord}
    {records : List ContinuationRecord} {envelope : ExecutionEnvelope} {epoch : Option String}
    {l : Launch} :
    launch env m a appended journal records envelope epoch = .ok (.execute l) ↔
      ∃ config, env.applyExecutionEnvelope a.binding.config envelope = .ok config ∧
        env.validateMethodIdentity a.binding.presetName config env.runId m.experimentId =
          .ok ⟨⟩ ∧
        l = {
          appended := appended
          journal := journal
          envelope := envelope
          reservedEpoch := epoch
          session := resumeSession config (resumedManifest env m records envelope)
            a.binding.hashes (epoch.getD env.newEpoch) a.state } := by
  unfold launch
  constructor
  · intro h
    obtain ⟨config, hconfig, h⟩ := except_bind_ok h
    obtain ⟨_, hvalid, h⟩ := except_bind_ok h
    exact ⟨config, hconfig, hvalid, (ResumeOutcome.execute.inj (Except.ok.inj h)).symm⟩
  · rintro ⟨config, hconfig, hvalid, rfl⟩
    simp only [Failures.bind_eq_ok]
    exact ⟨config, hconfig, ⟨⟩, hvalid, rfl⟩

/-- The first call went as far as the durable append: it was admitted with `a`,
and the journal became `journal'` by `record`. -/
structure Appended (env : ResumeEnv) (req : ResumeRequest) (m : Manifest)
    (checkpoints : List StoredCheckpoint) (journal : List ContinuationRecord) (a : Admission)
    (record : ContinuationRecord) (journal' : List ContinuationRecord) : Prop where
  admitted : admitResume env req m checkpoints journal = .ok a
  executes : req.verifyOnly = false ∧ a.alreadyApplied m = false
  gate : env.verifyResumeGate a.binding.config m = .ok ⟨⟩
  appended : ∃ request, authorizationRequest env req m a = some request ∧
    appendAuthorization env request journal = .ok (record, journal')

/-- **What an accepted resume starts from.**  The session is restored from the
latest safe checkpoint, which agrees with the manifest. -/
theorem resumeP5_execute {l : Launch}
    (h : resumeP5 env req m checkpoints journal = .ok (.execute l)) :
    ∃ a config records epoch, Admitted env req m checkpoints journal a ∧
      latestSafe checkpoints = some a.state ∧
      env.applyExecutionEnvelope a.binding.config l.envelope = .ok config ∧
      l.session = resumeSession config (resumedManifest env m records l.envelope)
        a.binding.hashes epoch a.state := by
  unfold resumeP5 at h
  obtain ⟨a, ha, h⟩ := except_bind_ok h
  have hadm := admitResume_eq_ok.1 ha
  have hlatest : latestSafe checkpoints = some a.state := by
    have hstate := hadm.state
    unfold resumeCheckpoint at hstate
    split at hstate
    · cases hstate
    · next state hlatest =>
        obtain ⟨_, -, hstate⟩ := except_bind_ok hstate
        rw [hlatest, Except.ok.inj hstate]
  split_ifs at h
  · simp [pure, Except.pure] at h
  · simp [pure, Except.pure] at h
  unfold authorizeAndLaunch at h
  obtain ⟨_, -, h⟩ := except_bind_ok h
  split at h
  · obtain ⟨⟨record, j⟩, -, h⟩ := except_bind_ok h
    obtain ⟨config, hconfig, -, rfl⟩ := launch_eq_execute.1 h
    exact ⟨a, config, a.records ++ [record], _, hadm, hlatest, hconfig, rfl⟩
  · obtain ⟨config, hconfig, -, rfl⟩ := launch_eq_execute.1 h
    exact ⟨a, config, a.records, _, hadm, hlatest, hconfig, rfl⟩

/-! ## A sample run directory -/

/-- A configuration of two iterations. -/
def sampleConfig : AppConfig where
  contentHash := "config"
  maxIterations := 2
  maxWindowsPerIteration := 4
  maxNoProgressIterations := 2
  maxParallelSubgraphs := 2
  maxActiveSubgraphRegions := 8
  topKCandidatesIncludingNoop := 3
  maxNonNoopActionsPerBatch := 8
  sandboxMaxJobsPerIteration := 20

/-- Outside functions that accept everything and hash to fixed texts. -/
def sampleResumeEnv : ResumeEnv where
  runId := "run"
  originalConfig := fun _ => .ok ("B6", sampleConfig)
  suppliedConfig := fun _ => .ok sampleConfig
  validateMethodIdentity := fun _ _ _ _ => .ok ⟨⟩
  scientificConfigHash := fun _ => "scientific"
  executableDigest := "tree"
  executionEnvelope := fun config =>
    { maxIterations := config.maxIterations, maxHttpAttemptsPerRun := some 10 }
  envelopeHash := fun e => "envelope_" ++ toString e.maxIterations
  runIdentity := fun run _ _ _ _ => run
  stableHash := fun text => "hash_" ++ text
  officialInputIdentity := fun _ => .ok "inputs"
  evaluatorHash := "evaluator"
  imageDigest := fun _ => .ok "image"
  verifySnapshot := fun _ => .ok ⟨⟩
  buildSnapshotContext := fun _ _ => .ok ⟨⟩
  readContinuationRecords := .ok
  authorizedEnvelope := fun initial records => (records.getLast?.map (·.newEnvelope)).getD initial
  verifyExperienceCutoff := fun _ => .ok ⟨⟩
  verifyRepairAttemptMemory := fun _ => .ok ⟨⟩
  verifyFrontierState := fun _ => .ok ⟨⟩
  cumulativeUsage := fun _ _ => .ok ⟨⟩
  maxContinuationIterations := 5
  continuationNonce := fun nonce _ _ => .ok (nonce.getD "nonce")
  verifyResumeGate := fun _ _ => .ok ⟨⟩
  makeContinuationRecord := fun request => .ok {
    runId := request.runId
    segmentIndex := 1
    nonce := request.nonce
    requesterAuthorization := request.requesterAuthorization
    priorStatus := request.priorStatus
    completedIterations := request.completedIterations
    nextIteration := request.completedIterations + 1
    scientificConfigHash := request.scientificHash
    initialResolvedConfigHash := request.initialResolvedHash
    executableDigest := request.executableIdentity
    identity := request.identity
    oldEnvelope := request.currentEnvelope
    oldEnvelopeHash := ""
    newEnvelope := request.targetEnvelope
    newEnvelopeHash := ""
    amendmentFields := amendedFields request.currentEnvelope request.targetEnvelope
    newExecutionEpoch := "epoch_reserved"
    recordHash := "record" }
  appendContinuationRecord := fun journal record => .ok (journal ++ [record])
  applyExecutionEnvelope := fun config e => .ok { config with maxIterations := e.maxIterations }
  newEpoch := "epoch_new"

/-- A manifest of a run that stopped after `completed` iterations. -/
def stoppedManifest (status : String) (completed : ℕ) : Manifest where
  runId := "run"
  experimentId := "experiment"
  caseId := "case"
  seed := 0
  method := "B6"
  status := status
  resolvedConfigHash := "config"
  scientificConfigHash := "scientific"
  executableDigest := "tree"
  llmConfigHash := ""
  officialInputIdentity := "inputs"
  evaluatorHash := "evaluator"
  dockerImage := "docker"
  dockerImageDigest := "image"
  executionEpoch := "epoch_first"
  executionEpochs := ["epoch_first"]
  executionEnvelope := sampleResumeEnv.executionEnvelope sampleConfig
  maxIterations := 2
  continuation := {
    initialResolvedConfigHash := "config"
    scientificConfigHash := "scientific"
    initialExecutionEnvelope := sampleResumeEnv.executionEnvelope sampleConfig
    initialExecutionEnvelopeHash := "envelope_2"
    runIdentity := "run"
    runIdentityHash := "hash_run"
    authorizedExecutionEnvelope := sampleResumeEnv.executionEnvelope sampleConfig
    authorizedExecutionEnvelopeHash := "envelope_2" }
  baselineSnapshot := sampleBaseline
  currentSnapshot := some sampleBaseline
  bestSnapshot := some sampleBaseline
  iterationsCompleted := some completed

/-- The checkpoint of the last of `completed` iterations. -/
def stoppedCheckpoint (completed : ℕ) : Checkpoint where
  boundary := .iterationComplete
  hashes := ⟨"scientific", sampleBaseline.scriptRef.sha256, "evaluator", "tree"⟩
  iteration := completed
  runIdentity := "run"
  runIdentityHash := "hash_run"
  scientificConfigHash := "scientific"
  officialInputIdentity := "inputs"
  executionEnvelopeHash := "envelope_2"
  baselineSnapshot := sampleBaseline
  currentSnapshot := sampleBaseline
  bestSnapshot := sampleBaseline
  bestTotal := 3
  noProgress := 0

end DRCAgent
