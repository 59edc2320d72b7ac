/-
# Coordinating the candidates of a window

`coordinate_active_window` of `workflow/active_window.py`, with
`exact_isolated_evidence_matches` and `TransactionBatchScheduler.schedule` of
`coordinator/batching.py`.

One round asks the graph solver for a bundle under the cardinality cap in force,
compiles it, obtains its evidence and checks it. A bundle that fails becomes a
no-good of the graph; the next round either keeps the cardinality, when the
updated graph still has a bundle of that size, or lowers the cap.

The solver, the graph builder, the patch compiler, the two predicates on evidence
and the hashes are compiled or outside functions: they are parameters. The solver
and the sandbox are told when they are asked, so their answers may differ from one
call to the next.
-/
import DRCAgent.BoundedRounds
import DRCAgent.RunState
import Mathlib.Data.Finset.Sort

namespace DRCAgent

open Rounds

/-! ## Evidence, candidates and bundles -/

/-- `SandboxEvidence`, with what the coordination and `has_complete_physical_truth`
read of it. -/
structure SandboxEvidence where
  status : SandboxStatus := .notRun
  scope : SandboxScope := .none
  baseSnapshotId : Option String := none
  removedOriginalCount : Option ℤ := none
  newViolationCount : Option ℤ := none
  connectivityPreserved : Option Bool := none
  verificationRef : Option ArtifactRef := none
  attemptedScriptSha256 : Option String := none
  attemptedGdsSha256 : Option String := none
  attemptedDrcSha256 : Option String := none
  candidateIds : List String := []
  baseScriptSha256 : Option String := none
  physicalEffectFingerprint : Option String := none
  patchPlanSha256 : Option String := none
  ruleDeckSha256 : Option String := none
  evaluatorSha256 : Option String := none
  connectivityReferenceSha256 : Option String := none
  failureCode : Option String := none
  attemptId : Option String := none
  logicalEvidenceKey : Option String := none
  terminalStatus : Option AttemptTerminalStatus := none
  drcValidity : EvidenceValidity := .notEvaluated
  sanityValidity : EvidenceValidity := .notEvaluated
  connectivityValidity : EvidenceValidity := .notEvaluated
  freshEvidenceValid : Bool := false

/-- A `RepairCandidate` with what the coordination reads of it. -/
structure WindowCandidate extends RepairCandidate where
  targetObjectIds : List String := []
  affectedObjectIds : List String := []
  /-- `benefit_evidence.sandbox`. -/
  sandbox : Option SandboxEvidence := some {}

/-- `candidate.affected_object_ids or candidate.target_object_ids`. -/
def WindowCandidate.modifiedObjectIds (c : WindowCandidate) : List String :=
  if c.affectedObjectIds = [] then c.targetObjectIds else c.affectedObjectIds

/-- `JointRepairBundle`, without the figures of the solver. -/
structure JointRepairBundle where
  bundleId : String
  selectedCandidateIds : List String
  sandboxStatus : SandboxStatus := .notRun
  sandboxVerificationRef : Option ArtifactRef := none

/-- `CandidateGraph`; the edges and capacities are the builder's and the solver's. -/
structure CandidateGraph where
  subgraphId : String
  candidates : List WindowCandidate
  noGoodCandidateSets : List (List String) := []

/-- `sorted(item.candidate_id for item in selected)`. -/
def sortedIds (selected : List WindowCandidate) : List String :=
  (selected.map (·.candidateId)).insertionSort (· ≤ ·)

/-- The objects a list of candidates modifies. -/
def modifiedObjects (selected : List WindowCandidate) : Finset String :=
  (selected.flatMap (·.modifiedObjectIds)).toFinset

/-- `by_id[candidate_id]`: the last candidate with that id. -/
def candidateById (candidates : List WindowCandidate) (candidateId : String) :
    Option WindowCandidate :=
  candidates.reverse.find? (·.candidateId = candidateId)

/-- The candidates a bundle selects, without the no-ops. -/
def selectedOf (candidates : List WindowCandidate) (bundle : JointRepairBundle) :
    List WindowCandidate :=
  (bundle.selectedCandidateIds.filterMap (candidateById candidates)).filter (!·.isNoop)

/-! ## Master batches -/

/-- `TransactionConfig`. -/
structure TransactionConfig where
  maxNonNoopActionsPerBatch : ℤ := 5
  maxModifiedObjectsPerBatch : ℤ := 16
  replanAfterEachCommit : Bool := true

/-- `TransactionBatch`. -/
structure TransactionBatch where
  batchId : String
  bundleIds : List String
  baseSnapshotId : Option String := none
  candidateIds : List String := []
  nonNoopActionCount : ℕ := 0
  modifiedObjectCount : ℕ := 0
  requiresReplanAfterCommit : Bool := true

/-- The batches flushed so far and the batch being filled. -/
structure ScheduleState where
  batches : List TransactionBatch := []
  currentBundles : List String := []
  currentCandidates : List String := []
  currentObjects : Finset String := ∅

section Schedule

variable (batchHash : String × List String × List String → String)
  (candidates : List WindowCandidate) (snapshot : DesignSnapshotRef) (config : TransactionConfig)

/-- The batch that a flush appends. -/
def ScheduleState.batch (s : ScheduleState) : TransactionBatch where
  batchId := "batch_" ++ batchHash (snapshot.snapshotId, s.currentBundles, s.currentCandidates)
  bundleIds := s.currentBundles
  baseSnapshotId := some snapshot.snapshotId
  candidateIds := s.currentCandidates
  nonNoopActionCount := s.currentCandidates.length
  modifiedObjectCount := s.currentObjects.card
  requiresReplanAfterCommit := config.replanAfterEachCommit

/-- `flush`. -/
def ScheduleState.flush (s : ScheduleState) : ScheduleState :=
  if s.currentBundles = [] then s
  else { batches := s.batches ++ [s.batch batchHash snapshot config] }

/-- One pending bundle. An oversized one is left out, not split. -/
def ScheduleState.add (s : ScheduleState) (bundle : JointRepairBundle)
    (selected : List WindowCandidate) : ScheduleState :=
  let candidateIds := sortedIds selected
  let objects := modifiedObjects selected
  if config.maxNonNoopActionsPerBatch < candidateIds.length ∨
      config.maxModifiedObjectsPerBatch < objects.card then
    s.flush batchHash snapshot config
  else
    let s :=
      if config.maxNonNoopActionsPerBatch <
            ((s.currentCandidates.length + candidateIds.length : ℕ) : ℤ) ∨
          config.maxModifiedObjectsPerBatch < (s.currentObjects ∪ objects).card then
        s.flush batchHash snapshot config
      else s
    { s with
      currentBundles := s.currentBundles ++ [bundle.bundleId]
      currentCandidates := s.currentCandidates ++ candidateIds
      currentObjects := s.currentObjects ∪ objects }

/-- `TransactionBatchScheduler.schedule`. -/
def schedule (bundles : List JointRepairBundle) : List TransactionBatch :=
  let pending := (bundles.insertionSort fun a b => a.bundleId ≤ b.bundleId).filterMap fun bundle =>
    let selected := selectedOf candidates bundle
    if selected = [] then none else some (bundle, selected)
  ((pending.foldl (fun (s : ScheduleState) p => s.add batchHash snapshot config p.1 p.2) {}).flush
    batchHash snapshot config).batches

end Schedule

/-! ## What a coordination is given and what it returns -/

/-- The answer of the sandbox service to one call. -/
inductive SandboxAnswer
  | evidence (evidence : SandboxEvidence)
  /-- `InfrastructureFailure`, by its message. -/
  | infrastructureFailure (message : String)
  /-- Any other exception, by the name of its type. -/
  | raised (exceptionType : String)

/-- The compiled and the outside functions. -/
structure CoordinationEnv where
  /-- `CandidateGraphBuilder(...).build`. -/
  buildCandidateGraph : List WindowCandidate → String → Except String CandidateGraph
  /-- `GraphCoordinatorV2().solve`, when asked for the `n`-th time. -/
  solve : ℕ → CandidateGraph → ℤ → Except String JointRepairBundle
  /-- `PatchCompiler().compile`; an error is the name of the exception's type. -/
  compile : JointRepairBundle → List WindowCandidate → Except String PatchPlan
  hasCompletePhysicalTruth : SandboxEvidence → Bool
  /-- `build_physical_effect_fingerprint(candidate).sha256`. -/
  physicalEffect : WindowCandidate → String
  /-- The sandbox service, when asked for the `n`-th time. -/
  sandbox : ℕ → List WindowCandidate → PatchPlan → SandboxAnswer
  /-- `stable_hash(identity)[:16]` of a batch. -/
  batchHash : String × List String × List String → String

/-- The arguments of `coordinate_active_window`. -/
structure CoordinationInput where
  windowId : String
  candidates : List WindowCandidate
  snapshot : DesignSnapshotRef
  transaction : TransactionConfig := {}
  jointSandboxMaxBundleSize : ℤ := 5
  jointSandboxMaxRounds : ℕ := 5
  reuseVerifiedKernelEvidence : Bool := true
  sandboxJobsRemaining : ℤ
  ruleDeckSha256 : String
  evaluatorSha256 : String

/-- `WindowCoordination`. -/
structure CoordinationResult where
  status : String
  candidateGraph : CandidateGraph
  bundle : Option JointRepairBundle := none
  patchPlan : Option PatchPlan := none
  sandboxEvidence : Option SandboxEvidence := none
  masterBatches : List TransactionBatch := []
  rounds : ℕ
  noGoodCount : ℕ
  sandboxJobsUsed : ℕ
  evidenceReused : Bool := false
  failureCodes : List String
  selectionCardinalityCapsTried : List ℤ := []
  selectedNonNoopCounts : List ℕ := []
  backoffCount : ℕ := 0

/-- What the runtime reads of the result. -/
def CoordinationResult.toWindowCoordination (r : CoordinationResult) : WindowCoordination where
  status := r.status
  bundle := r.bundle.map fun b => (b.bundleId, b.selectedCandidateIds)
  patchPlan := r.patchPlan
  masterBatchCount := r.masterBatches.length
  sandboxJobsUsed := r.sandboxJobsUsed

/-- The result of a coordination, or the exception that ends it, with the candidate
sets it handed to the sandbox, in order, and the rounds it began. -/
structure CoordinationRun where
  result : Except String CoordinationResult
  calls : List (List String) := []
  begun : ℕ := 0

/-- The local variables of the loop. `calls` is the history of the sandbox calls. -/
structure CoordinationState where
  graph : CandidateGraph
  selectionCap : ℤ
  noGoods : ℕ := 0
  jobs : ℕ := 0
  failures : List String := []
  capsTried : List ℤ := []
  selectedCounts : List ℕ := []
  backoffCount : ℕ := 0
  sameCardinalityRetried : List ℕ := []
  calls : List (List String) := []

namespace CoordinationState

variable (s : CoordinationState)

/-- The bundle becomes a no-good of the graph. -/
def recordNoGood (selected : List WindowCandidate) : CoordinationState :=
  { s with
    graph := { s.graph with
      noGoodCandidateSets := s.graph.noGoodCandidateSets ++ [sortedIds selected] }
    noGoods := s.noGoods + 1 }

/-- `failures.append`. -/
def fail (code : String) : CoordinationState := { s with failures := s.failures ++ [code] }

/-- The result with what every return carries. -/
def result (status : String) (bundle : Option JointRepairBundle := none)
    (evidence : Option SandboxEvidence := none) : CoordinationResult where
  status := status
  candidateGraph := s.graph
  bundle := bundle
  sandboxEvidence := evidence
  rounds := s.capsTried.length
  noGoodCount := s.noGoods
  sandboxJobsUsed := s.jobs
  failureCodes := s.failures
  selectionCardinalityCapsTried := s.capsTried
  selectedNonNoopCounts := s.selectedCounts
  backoffCount := s.backoffCount

/-- The loop ends with `result`. -/
def finish (result : Except String CoordinationResult) : CoordinationRun where
  result := result
  calls := s.calls
  begun := s.capsTried.length

/-- The return after the loop. -/
def noSafeBundle : CoordinationRun := s.finish (.ok (s.result "NO_SAFE_BUNDLE"))

/-- `next_cap`: go on below the cap and below the bundle that failed. -/
def backOff (cardinality : ℕ) : Round CoordinationState CoordinationRun :=
  let nextCap := min (s.selectionCap - 1) (cardinality - 1)
  if nextCap < 1 then .done s.noSafeBundle
  else .next { s with selectionCap := nextCap, backoffCount := s.backoffCount + 1 }

end CoordinationState

/-! ## One round -/

section Coordinate

variable (env : CoordinationEnv) (input : CoordinationInput)

/-- `exact_isolated_evidence_matches`. -/
def exactIsolatedEvidenceMatches (candidate : WindowCandidate) (patchPlan : PatchPlan) : Bool :=
  candidate.sandbox.any fun evidence =>
    env.hasCompletePhysicalTruth evidence &&
    evidence.status = .cleanProgress &&
    evidence.baseSnapshotId = some input.snapshot.snapshotId &&
    evidence.scope = .isolatedCandidate &&
    evidence.candidateIds = [candidate.candidateId] &&
    evidence.baseScriptSha256 = some input.snapshot.scriptRef.sha256 &&
    evidence.physicalEffectFingerprint = some (env.physicalEffect candidate) &&
    evidence.patchPlanSha256 = some patchPlan.sha256 &&
    evidence.ruleDeckSha256 = some input.ruleDeckSha256 &&
    evidence.evaluatorSha256 = some input.evaluatorSha256 &&
    evidence.connectivityReferenceSha256 = input.snapshot.connectivityRef.map (·.sha256) &&
    evidence.removedOriginalCount.any (0 < ·) &&
    evidence.newViolationCount = some 0 &&
    evidence.connectivityPreserved = some true

/-- `expected_scope`. -/
def expectedScope (selected : List WindowCandidate) : SandboxScope :=
  if 2 ≤ selected.length then .jointBundle else .isolatedCandidate

/-- `identity_matches`: the evidence is about this bundle, on this snapshot. -/
def IdentityMatches (selected : List WindowCandidate) (patchPlan : PatchPlan)
    (evidence : SandboxEvidence) : Prop :=
  evidence.scope = expectedScope selected ∧
  evidence.baseSnapshotId = some input.snapshot.snapshotId ∧
  evidence.candidateIds = sortedIds selected ∧
  evidence.patchPlanSha256 = some patchPlan.sha256 ∧
  evidence.ruleDeckSha256 = some input.ruleDeckSha256 ∧
  evidence.evaluatorSha256 = some input.evaluatorSha256 ∧
  evidence.connectivityReferenceSha256 = input.snapshot.connectivityRef.map (·.sha256)

instance (selected : List WindowCandidate) (patchPlan : PatchPlan) (evidence : SandboxEvidence) :
    Decidable (IdentityMatches input selected patchPlan evidence) := by
  unfold IdentityMatches
  infer_instance

/-- The condition of the `SAFE` branch, for evidence whose identity matches. A
comparison with a missing count raises. -/
def acceptsEvidence (evidence : SandboxEvidence) : Except String Bool :=
  if env.hasCompletePhysicalTruth evidence = true ∧ evidence.status = .cleanProgress then
    match evidence.removedOriginalCount with
    | none => .error "TypeError"
    | some removed =>
      .ok (0 < removed && evidence.newViolationCount = some 0 &&
        evidence.connectivityPreserved = some true)
  else .ok false

/-- The bundle exceeds a cap of the transaction. -/
def exceedsTransactionCaps (selected : List WindowCandidate) : Bool :=
  input.transaction.maxNonNoopActionsPerBatch < selected.length ||
    input.transaction.maxModifiedObjectsPerBatch < (modifiedObjects selected).card

/-- `reused`. -/
def reusesEvidence (selected : List WindowCandidate) (patchPlan : PatchPlan) : Bool :=
  match selected with
  | [candidate] =>
    input.reuseVerifiedKernelEvidence && exactIsolatedEvidenceMatches env input candidate patchPlan
  | _ => false

/-- `alternate_same_cardinality`: a bundle of the same size is left, and a round
of the budget is spare. -/
def alternateSameCardinality (s : CoordinationState) (cardinality roundsRemaining : ℕ) :
    Except String Bool :=
  if 1 < cardinality ∧ cardinality ∉ s.sameCardinalityRetried ∧ cardinality ≤ roundsRemaining ∧
      s.jobs < input.sandboxJobsRemaining then do
    let alternate ← env.solve (2 * s.capsTried.length + 1) s.graph cardinality
    pure ((selectedOf input.candidates alternate).length = cardinality)
  else .ok false

/-- How the loop decides to keep the cardinality. -/
abbrev RetryRule := CoordinationState → ℕ → ℕ → Except String Bool

variable (retries : RetryRule)

/-- The bundle failed with complete evidence. -/
def afterFailure (roundsRemaining : ℕ) (s : CoordinationState) (selected : List WindowCandidate) :
    Round CoordinationState CoordinationRun :=
  let s := s.recordNoGood selected
  match retries s selected.length roundsRemaining with
  | .error e => .done (s.finish (.error e))
  | .ok true =>
    .next { s with
      sameCardinalityRetried := s.sameCardinalityRetried ++ [selected.length]
      selectionCap := selected.length }
  | .ok false => s.backOff selected.length

/-- The evidence is at hand: check whose it is, then what it says. -/
def verifyBundle (roundsRemaining : ℕ) (s : CoordinationState) (bundle : JointRepairBundle)
    (selected : List WindowCandidate) (patchPlan : PatchPlan) (reused : Bool)
    (evidence : SandboxEvidence) : Round CoordinationState CoordinationRun :=
  if env.hasCompletePhysicalTruth evidence = false then
    let s := s.fail ((evidence.failureCode.filter (· ≠ "")).getD "WINDOW_SANDBOX_INFRASTRUCTURE")
    .done (s.finish (.ok (s.result "NO_SAFE_BUNDLE" none (some evidence))))
  else if ¬ IdentityMatches input selected patchPlan evidence then
    .done (s.finish (.error "WINDOW_EVIDENCE_IDENTITY_MISMATCH"))
  else
    match acceptsEvidence env evidence with
    | .error e => .done (s.finish (.error e))
    | .ok false =>
      afterFailure retries roundsRemaining (s.fail ("WINDOW_JOINT_" ++ evidence.status.value))
        selected
    | .ok true =>
      let verified := { bundle with
        sandboxStatus := .cleanProgress, sandboxVerificationRef := evidence.verificationRef }
      let batches := schedule env.batchHash input.candidates input.snapshot input.transaction
        [verified]
      if batches.map (·.candidateIds.insertionSort (· ≤ ·)) = [sortedIds selected] then
        .done (s.finish (.ok { s.result "SAFE" (some verified) (some evidence) with
          patchPlan := some patchPlan
          masterBatches := batches
          evidenceReused := reused }))
      else afterFailure retries roundsRemaining (s.fail "WINDOW_MASTER_BATCH_CARDINALITY") selected

/-- The compiled bundle needs evidence: its own, or one more sandbox call. -/
def obtainEvidence (roundsRemaining : ℕ) (s : CoordinationState) (bundle : JointRepairBundle)
    (selected : List WindowCandidate) (patchPlan : PatchPlan) :
    Round CoordinationState CoordinationRun :=
  if reusesEvidence env input selected patchPlan then
    verifyBundle env input retries roundsRemaining s bundle selected patchPlan true
      (((selected.head?.bind (·.sandbox))).getD {})
  else if input.sandboxJobsRemaining ≤ s.jobs then
    .done (s.fail "ITERATION_SANDBOX_BUDGET_EXHAUSTED").noSafeBundle
  else
    let called := { s with calls := s.calls ++ [sortedIds selected] }
    match env.sandbox s.jobs selected patchPlan with
    | .infrastructureFailure message => .done (called.finish (.error message))
    | .raised exceptionType =>
      let called := called.fail ("WINDOW_SANDBOX_INFRASTRUCTURE:" ++ exceptionType)
      .done (called.finish (.ok (called.result "NO_SAFE_BUNDLE")))
    | .evidence evidence =>
      verifyBundle env input retries roundsRemaining { called with jobs := s.jobs + 1 } bundle
        selected patchPlan false evidence

/-- One round, followed by `roundsRemaining` rounds at most. -/
def coordinationRound (roundsRemaining : ℕ) (s : CoordinationState) :
    Round CoordinationState CoordinationRun :=
  let begun := { s with capsTried := s.capsTried ++ [s.selectionCap] }
  match env.solve (2 * s.capsTried.length) s.graph s.selectionCap with
  | .error e => .done (begun.finish (.error e))
  | .ok bundle =>
    let selected := selectedOf input.candidates bundle
    let s := { begun with selectedCounts := s.selectedCounts ++ [selected.length] }
    if selected = [] then .done (s.finish (.ok (s.result "NO_OP" (some bundle))))
    else if exceedsTransactionCaps input selected then
      ((s.recordNoGood selected).fail "WINDOW_TRANSACTION_CAP_EXCEEDED").backOff selected.length
    else
      match env.compile bundle input.candidates with
      | .error exceptionType =>
        ((s.recordNoGood selected).fail ("WINDOW_BUNDLE_COMPILE_FAIL:" ++ exceptionType)).backOff
          selected.length
      | .ok patchPlan => obtainEvidence env input retries roundsRemaining s bundle selected patchPlan

/-! ## The loop -/

/-- The first `selection_cap`. -/
def CoordinationInput.selectionCap : ℤ :=
  min input.transaction.maxNonNoopActionsPerBatch input.jointSandboxMaxBundleSize

/-- The coordination of a window under a rule for retries. -/
def coordinateWith : CoordinationRun :=
  match env.buildCandidateGraph input.candidates input.windowId with
  | .error e => { result := .error e }
  | .ok graph =>
    let s : CoordinationState := { graph := graph, selectionCap := input.selectionCap }
    if input.jointSandboxMaxRounds = 0 then
      s.finish (.ok { s.result "NO_SAFE_BUNDLE" with
        failureCodes := ["JOINT_SANDBOX_ROUNDS_EXHAUSTED"] })
    else
      loop (coordinationRound env input retries) CoordinationState.noSafeBundle
        input.jointSandboxMaxRounds s

/-- `coordinate_active_window`. -/
def coordinateActiveWindow : CoordinationRun :=
  coordinateWith env input (alternateSameCardinality env input)

end Coordinate

end DRCAgent
