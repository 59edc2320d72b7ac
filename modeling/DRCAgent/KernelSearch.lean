/-
# The search loop of the production engine

`FormalProductionTrajectoryEngine.plan`
(src/drc_agent/repair_kernel_integration/production_engine.py), from the table of the root
proposals on: the violations are visited one after the other, the proposals of one are tried
in turn, and a proposal whose search comes back with feedback is tried once more under a
revised plan.

What the engine calls (the trajectory search, the planner's revision, the condensation, the
adapter of the root proposals) is a `Backend` with a world of its own, so that an answer may
depend on all that was asked before. A call that raises answers with the exception.
-/
import Mathlib.Data.Int.Order.Basic
import Mathlib.Data.List.Basic

namespace DRCAgent.KernelSearch

/-! ## What the loop reads -/

/-- An exception, as far as the handlers tell one from another. -/
inductive Raised
  /-- `InfrastructureFailure`, and whether `_reserved_verification_stop` holds of it. -/
  | infrastructure (reservedStop : Bool) (text : String)
  /-- `LLMStructuredResponseError`, and whether it is one of the `ordinary` ones. -/
  | structuredResponse (isOrdinary : Bool) (text : String)
  /-- `KeyError`, `ValueError`, `RuntimeError` and what is derived from them. -/
  | ordinary (text : String)
  | other (text : String)

/-- `str(exc)` -/
def Raised.text : Raised → String
  | .infrastructure _ text | .structuredResponse _ text | .ordinary text | .other text => text

/-- `isinstance(exc, (KeyError, ValueError, RuntimeError))`: an `InfrastructureFailure` is a
`RuntimeError`. -/
def Raised.isOrdinary : Raised → Bool
  | .infrastructure _ _ => true
  | .structuredResponse isOrdinary _ => isOrdinary
  | .ordinary _ => true
  | .other _ => false

/-- A diagnostic of a root proposal: what is read of it. -/
structure Diagnostic where
  failureReason : Option String

/-- An entry of `failures`. -/
structure Failure where
  code : String
  violationId : Option String
  message : Option String := none
  failureStage : Option String := none
  failureReason : Option String := none
  rootDiagnostics : List Diagnostic := []

/-- An entry of `root_cache`: the proposals, the diagnostics and the error. -/
structure RootEntry (Proposal : Type) where
  proposals : List Proposal
  rootDiagnostics : List Diagnostic
  rootError : Option String

/-- The outcome of a trajectory search. -/
structure Outcome (Trajectory Feedback : Type) where
  status : String
  trajectories : List Trajectory
  deepestFailure : Option String
  executionFeedback : Option Feedback

/-- How the revision of a plan comes out: the planner raises; it gives a plan that the
validation or the binding raises on; the plan keeps what it should change; or it is bound. -/
inductive Revision (Plan BoundPlan : Type)
  | failed (exc : Raised)
  | rejected (revised : Plan) (exc : Raised)
  | declined (revised : Plan)
  | accepted (revised : Plan) (revisedBound : BoundPlan)

/-- What the loop calls. -/
structure Backend where
  World : Type
  Plan : Type
  BoundPlan : Type
  Violation : Type
  Proposal : Type
  Trajectory : Type
  Feedback : Type
  Record : Type
  Candidate : Type
  EvidenceRef : Type
  violationId : Violation → String
  trajectoryId : Trajectory → String
  feedbackKind : Feedback → String
  /-- `self.llm is not None` -/
  hasLlm : Bool
  buildRootProposals : Violation → BoundPlan → Except Raised (RootEntry Proposal)
  /-- `_proposal_evidence_dir` and `_persist_root_registration` -/
  register : BoundPlan → Violation → Proposal → ℕ → World → Except Raised Unit × World
  /-- `FormalTrajectoryEngine.search`, in the directory of the first search or of the second. -/
  search : BoundPlan → Violation → Proposal → Bool → World →
    Except Raised (Outcome Trajectory Feedback) × World
  /-- `revise_after_execution_feedback`, `validate_execution_feedback_revision` and
  `bind_kernel_plan` -/
  revise : Plan → Feedback → World → Revision Plan BoundPlan × World
  /-- `CondensationEquivalenceGate.verify` -/
  condense : BoundPlan → Violation → Proposal → Trajectory → ℕ → World →
    Except Raised Record × World
  /-- The candidate and the evidence that are made from a record. -/
  accept : Record → World → Except Raised (Candidate × EvidenceRef) × World

/-- A call of the backend: a search, the first of its turn or the second; a revision, with
the kind of the feedback; a condensation, after how many searches of its turn, and whether
it was given up with an ordinary exception. -/
inductive Call
  | searched (violationId : String) (again : Bool)
  | revised (violationId kind : String)
  | condensed (violationId : String) (again givenUp : Bool)
  deriving DecidableEq

/-- The local variables of the loop, and the calls that it has made. -/
structure State (backend : Backend) where
  world : backend.World
  plan : backend.Plan
  plans : List backend.Plan
  boundPlan : backend.BoundPlan
  rootCache : String → RootEntry backend.Proposal
  executionFeedback : List backend.Feedback
  executionRevisionCounts : String × String → ℕ
  candidates : List backend.Candidate
  trajectoryRefs : List String
  evidenceRefs : List backend.EvidenceRef
  failures : List Failure
  verificationDeferred : Bool
  calls : List Call

/-- How a turn of the inner loop ends: `continue`, `break`, or an exception that no handler
takes. -/
inductive Next
  | proceed
  | leave
  | raised (exc : Raised)

/-! ## One turn of the inner loop -/

section Turn

variable {backend : Backend}

def State.fail (s : State backend) (failure : Failure) : State backend :=
  { s with failures := s.failures ++ [failure] }

/-- `max(0, len(plans) - 1)` -/
def State.planRevision (s : State backend) : ℕ := s.plans.length - 1

/-- The handlers of a search and of a condensation: a reserved stop puts the search off, and
an ordinary exception leaves its failure. -/
def handle (s : State backend) (exc : Raised) (deferred failure : Failure) (next : Next) :
    State backend × Next :=
  match exc with
  | .infrastructure true _ => ({ s with verificationDeferred := true }.fail deferred, .leave)
  | .infrastructure false _ => (s, .raised exc)
  | _ => if exc.isOrdinary then (s.fail failure, next) else (s, .raised exc)

/-- An ordinary exception that is not an `InfrastructureFailure`. -/
def Raised.givesUp : Raised → Bool
  | .infrastructure _ _ => false
  | exc => exc.isOrdinary

/-- What follows a record: the candidate, with its evidence. -/
def accepted (s : State backend) (trajectory : backend.Trajectory) (record : backend.Record) :
    State backend × Next :=
  match backend.accept record s.world with
  | (.error exc, world) => ({ s with world }, .raised exc)
  | (.ok (candidate, evidenceRef), world) =>
    ({ s with
        world
        candidates := s.candidates ++ [candidate]
        evidenceRefs := s.evidenceRefs ++ [evidenceRef]
        trajectoryRefs := s.trajectoryRefs ++ [backend.trajectoryId trajectory] }, .leave)

/-- The condensation of a trajectory. -/
def condensation (s : State backend) (violation : backend.Violation)
    (proposal : backend.Proposal) (trajectory : backend.Trajectory) (again : Bool) :
    State backend × Next :=
  let id := backend.violationId violation
  match backend.condense s.boundPlan violation proposal trajectory s.planRevision s.world with
  | (.error exc, world) =>
    handle { s with world, calls := s.calls ++ [.condensed id again exc.givesUp] } exc
      { code := "DEFERRED_BUDGET", violationId := some id }
      { code := "TRAJECTORY_CONDENSATION_FAIL", violationId := some id, message := exc.text }
      .proceed
  | (.ok record, world) =>
    accepted { s with world, calls := s.calls ++ [.condensed id again false] } trajectory record

/-- The first trajectory of an outcome that is clean. -/
def cleanTrajectory (outcome : Outcome backend.Trajectory backend.Feedback) :
    Option backend.Trajectory :=
  if outcome.status = "FINAL_CLEAN" then outcome.trajectories.head? else none

/-- `outcome.deepest_failure or "KERNEL_NO_CANDIDATE"` -/
def notCleanCode (outcome : Outcome backend.Trajectory backend.Feedback) : String :=
  match outcome.deepestFailure with
  | none => "KERNEL_NO_CANDIDATE"
  | some code => if code = "" then "KERNEL_NO_CANDIDATE" else code

/-- The end of a turn, from its last outcome on. -/
def settle (s : State backend) (violation : backend.Violation) (proposal : backend.Proposal)
    (outcome : Outcome backend.Trajectory backend.Feedback) (again : Bool) :
    State backend × Next :=
  match cleanTrajectory outcome with
  | none =>
    (s.fail {
        code := notCleanCode outcome
        violationId := backend.violationId violation
        message := "bounded trajectory did not reach strict clean" },
      if again then .leave else .proceed)
  | some trajectory => condensation s violation proposal trajectory again

/-- The registration of a proposal, and a search from it: what ends the turn, or the
outcome. -/
def registerAndSearch (s : State backend) (violation : backend.Violation)
    (proposal : backend.Proposal) (again : Bool) :
    State backend × (Next ⊕ Outcome backend.Trajectory backend.Feedback) :=
  let id := backend.violationId violation
  match backend.register s.boundPlan violation proposal s.planRevision s.world with
  | (.error exc, world) => ({ s with world }, .inl (.raised exc))
  | (.ok _, world) =>
    match backend.search s.boundPlan violation proposal again world with
    | (.error exc, world) =>
      let handled := handle { s with world, calls := s.calls ++ [.searched id again] } exc
        { code := "DEFERRED_BUDGET"
          violationId := some id
          message := if again then none
            else "Search stopped; required verification capacity preserved." }
        { code := "FORMAL_TRAJECTORY_EXECUTION_FAIL", violationId := some id, message := exc.text }
        (if again then .leave else .proceed)
      (handled.1, .inl handled.2)
    | (.ok outcome, world) =>
      ({ s with world, calls := s.calls ++ [.searched id again] }, .inr outcome)

/-- The second search of a turn, with the first proposal of the revised plan. -/
def retry (s : State backend) (violation : backend.Violation) (proposal : backend.Proposal) :
    State backend × Next :=
  match registerAndSearch s violation proposal true with
  | (s, .inl next) => (s, next)
  | (s, .inr outcome) => settle s violation proposal outcome true

/-- What follows a bound revision: the proposals are built anew. -/
def rebuild (s : State backend) (violation : backend.Violation) (revised : backend.Plan)
    (revisedBound : backend.BoundPlan) : State backend × Next :=
  let id := backend.violationId violation
  let s := { s with plan := revised, boundPlan := revisedBound }
  match backend.buildRootProposals violation revisedBound with
  | .error exc => (s, .raised exc)
  | .ok rebuilt =>
    let s := { s with rootCache := Function.update s.rootCache id rebuilt }
    match rebuilt.rootError, rebuilt.proposals with
    | none, proposal :: _ => retry s violation proposal
    | rootError, _ =>
      (s.fail {
          code := "ROOT_PROPOSAL_UNAVAILABLE_AFTER_REVISION"
          violationId := some id
          message := rootError.getD "no revised root proposal" }, .leave)

/-- The handlers of a revision. -/
def refuse (s : State backend) (violation : backend.Violation) (exc : Raised) :
    State backend × Next :=
  let id := backend.violationId violation
  match exc with
  | .structuredResponse _ text =>
    (s.fail {
        code := "PLAN_SCHEMA_REJECTED"
        violationId := some id
        message := String.ofList (text.toList.take 500) }, .leave)
  | _ =>
    if exc.isOrdinary then
      (s.fail {
          code := "INVALID_EXECUTION_REVISION"
          violationId := some id
          message := exc.text }, .leave)
    else (s, .raised exc)

def physical : String := "PHYSICAL_CONSTRAINT_FAILURE"

/-- `revision_limit` -/
def revisionLimit (feedbackKind : String) : ℕ := if feedbackKind = physical then 2 else 1

/-- A revision that is asked for, and counted. -/
def askRevision (s : State backend) (violation : backend.Violation)
    (feedback : backend.Feedback) :
    State backend × Revision backend.Plan backend.BoundPlan :=
  let revisionKey := (backend.violationId violation, backend.feedbackKind feedback)
  let answer := backend.revise s.plan feedback s.world
  ({ s with
      world := answer.2
      executionRevisionCounts := Function.update s.executionRevisionCounts revisionKey
        (s.executionRevisionCounts revisionKey + 1)
      calls := s.calls ++ [.revised revisionKey.1 revisionKey.2] }, answer.1)

/-- The answer to the feedback of a search. -/
def replan (s : State backend) (violation : backend.Violation) (feedback : backend.Feedback) :
    State backend × Next :=
  let id := backend.violationId violation
  let kind := backend.feedbackKind feedback
  let s := { s with executionFeedback := s.executionFeedback ++ [feedback] }
  if revisionLimit kind ≤ s.executionRevisionCounts (id, kind) || !backend.hasLlm then
    (s.fail {
        code := if kind = physical then "PHYSICAL_REPLAN_LIMIT_REACHED"
          else "DEPTH_EXTENSION_APPROVAL_REQUIRED"
        violationId := some id
        message := "LLM execution revision unavailable or bounded revision limit reached" },
      .leave)
  else
    match askRevision s violation feedback with
    | (s, .failed exc) => refuse s violation exc
    | (s, .rejected revised exc) => refuse { s with plans := s.plans ++ [revised] } violation exc
    | (s, .declined revised) =>
      ({ s with plans := s.plans ++ [revised] }.fail {
          code := if kind = physical then "PHYSICAL_REPLAN_DECLINED"
            else "DEPTH_EXTENSION_DECLINED"
          violationId := some id
          message := "LLM retained the original execution semantics" }, .leave)
    | (s, .accepted revised revisedBound) =>
      rebuild { s with plans := s.plans ++ [revised] } violation revised revisedBound

/-- One turn: a proposal is searched, and once more under a revised plan. -/
def turn (s : State backend) (violation : backend.Violation) (proposal : backend.Proposal) :
    State backend × Next :=
  match registerAndSearch s violation proposal false with
  | (s, .inl next) => (s, next)
  | (s, .inr outcome) =>
    match outcome.executionFeedback with
    | none => settle s violation proposal outcome false
    | some feedback => replan s violation feedback

/-! ## The two loops -/

/-- The inner loop, and the exception that ended it. -/
def turns (s : State backend) (violation : backend.Violation) :
    List backend.Proposal → State backend × Option Raised
  | [] => (s, none)
  | proposal :: proposals =>
    match turn s violation proposal with
    | (s, .proceed) => turns s violation proposals
    | (s, .leave) => (s, none)
    | (s, .raised exc) => (s, some exc)

/-- How a visit ends: with `continue` before any search, after the inner loop, or with an
exception. -/
inductive VisitEnd
  | skipped
  | tried
  | raised (exc : Raised)

/-- The body of the outer loop, up to its last `break`. -/
def visitViolation (s : State backend) (violation : backend.Violation) :
    State backend × VisitEnd :=
  let id := backend.violationId violation
  let entry := s.rootCache id
  match entry.rootError with
  | some text =>
    (s.fail {
        code := "FORMAL_TRAJECTORY_EXECUTION_FAIL"
        violationId := some id
        message := text }, .skipped)
  | none =>
    if entry.proposals.isEmpty then
      (s.fail {
          code := "ROOT_PROPOSAL_UNAVAILABLE"
          violationId := some id
          message := "no deterministic root proposal"
          failureStage := "ROOT_PROPOSAL"
          failureReason := match entry.rootDiagnostics.getLast? with
            | none => "ROOT_NO_SCENE"
            | some diagnostic => diagnostic.failureReason
          rootDiagnostics := entry.rootDiagnostics }, .skipped)
    else
      match turns s violation entry.proposals with
      | (s, none) => (s, .tried)
      | (s, some exc) => (s, .raised exc)

/-- A visit of a violation, with the states before and after it. -/
structure Visit (backend : Backend) where
  violation : backend.Violation
  before : State backend
  after : State backend
  raised : Option Raised

/-- What the outer loop does: its visits in order, the state that it leaves, and the exception
that ended it. -/
structure SearchRun (backend : Backend) where
  visits : List (Visit backend)
  state : State backend
  raised : Option Raised

/-- The outer loop. -/
def searchLoop (maxCandidates : ℕ) (s : State backend) :
    List backend.Violation → SearchRun backend
  | [] => ⟨[], s, none⟩
  | violation :: violations =>
    match visitViolation s violation with
    | (after, .raised exc) => ⟨[⟨violation, s, after, some exc⟩], after, some exc⟩
    | (after, .skipped) =>
      let rest := searchLoop maxCandidates after violations
      { rest with visits := ⟨violation, s, after, none⟩ :: rest.visits }
    | (after, .tried) =>
      if after.verificationDeferred || maxCandidates ≤ after.candidates.length then
        ⟨[⟨violation, s, after, none⟩], after, none⟩
      else
        let rest := searchLoop maxCandidates after violations
        { rest with visits := ⟨violation, s, after, none⟩ :: rest.visits }

/-- `max(1, min(4, int(max_candidates)))` -/
def clampCandidates (maxCandidates : ℤ) : ℕ := (max 1 (min 4 maxCandidates)).toNat

/-- The state before the loop. -/
def startState (world : backend.World) (plan : backend.Plan) (plans : List backend.Plan)
    (boundPlan : backend.BoundPlan) (rootCache : String → RootEntry backend.Proposal)
    (executionFeedback : List backend.Feedback) (sceneFailures : List Failure) :
    State backend where
  world := world
  plan := plan
  plans := plans
  boundPlan := boundPlan
  rootCache := rootCache
  executionFeedback := executionFeedback
  executionRevisionCounts := fun _ => 0
  candidates := []
  trajectoryRefs := []
  evidenceRefs := []
  failures := sceneFailures
  verificationDeferred := false
  calls := []

end Turn

end DRCAgent.KernelSearch
