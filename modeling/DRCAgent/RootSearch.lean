/-
# The search of root proposals

`FormalProductionTrajectoryEngine.plan` from the bound plan on
(src/drc_agent/repair_kernel_integration/production_engine.py). The root proposals of
all violations are built up front. If the preferred degrees of freedom of a violation
turn out to be infeasible the model may revise the plan once, before the search. Then
the proposals of each violation are registered and searched in turn; the feedback of a
search may revise the plan, and the first proposal of the revised plan is tried at once.

What the tools and the model answer is not determined by the source: each proposal comes
with a set of `Answers`. The search records, for every proposal that it registers and
searches, the plan it was built from and the plan in force (`Execution`).

`KernelSearch` models the same loops over any backend; `SearchAgreement` relates the two.
-/
import DRCAgent.LabelledRuns
import DRCAgent.PlanBinding
import DRCAgent.RegionBuilder

namespace DRCAgent.Kernel

open Regions (ViolationRecord)

/-! ## The records -/

/-- What the search reads of a `FormalRootProposal`. -/
structure RootProposal where
  proposalId : String
  selectedDofIds : List String := []
  atomicOperationCount : Option ℕ := none

structure RootDiagnostic where
  failureReason : Option String := none
  compileFailureCodes : List String := []

/-- A bound plan, and the number of revisions that were accepted before it. -/
structure PlanInForce where
  revision : ℕ
  bound : BoundKernelPlan
deriving DecidableEq

/-- What `build_root_proposals` returns, and the plan it was called with. -/
structure RootEntry where
  builtFrom : PlanInForce
  proposals : List RootProposal
  diagnostics : List RootDiagnostic
  scene : Option RepairScene
  dofs : List RepairDof
  error : Option String

structure Failure where
  code : String
  violationId : Option String := none
  message : String
  failureReason : Option String := none

/-- A root proposal that was registered and searched. -/
structure Execution where
  violationId : String
  proposal : RootProposal
  builtFrom : PlanInForce
  inForce : PlanInForce
  planRevision : ℕ

structure TrajectoryOutcome where
  status : String
  trajectories : List String := []
  deepestFailure : Option String := none
  executionFeedback : Option FeedbackKind := none

/-- What a call of a tool comes to: a value, the budget reserved for verification, an
error that the search catches, or one that it does not. -/
inductive EdaAnswer (α : Type)
  | returned (value : α)
  | deferredBudget
  | failed (message : String)
  | raised

inductive LlmAnswer
  | plan (revised : KernelRepairPlan)
  | schemaRejected (message : String)
  | failed (message : String)
  | raised

/-- The answers to the calls that one proposal may make, in their order. -/
structure Answers where
  search : EdaAnswer TrajectoryOutcome
  revision : LlmAnswer := .raised
  retry : EdaAnswer TrajectoryOutcome := .raised
  /-- The candidate that the condensation gives. -/
  condensation : EdaAnswer String := .raised

/-- What one call of `plan` is made with. -/
structure Engine where
  inputs : RegionInputs
  /-- `FormalRootProposalAdapter(max_proposals=12).build`, with its diagnostics. -/
  adapter : ViolationRecord → BoundKernelPlan → RepairScene → List RepairDof →
    List RootDiagnostic × Except String (List RootProposal)
  hasLlm : Bool
  maxCandidates : ℕ

/-- The state of the search. -/
structure Search where
  plan : KernelRepairPlan
  inForce : PlanInForce
  bindingReport : PlanBindingReport
  plans : List KernelRepairPlan
  rootCache : String → Option RootEntry
  executionFeedback : List FeedbackKind := []
  executionRevisionCounts : String × FeedbackKind → ℕ := fun _ => 0
  candidates : List String := []
  trajectoryRefs : List String := []
  failures : List Failure := []
  verificationDeferred : Bool := false
  /-- Whether the feedback of a search has revised the plan. -/
  searchRevised : Bool := false
  executed : List Execution := []

namespace Search

def fail (s : Search) (code : String) (violation : Option ViolationRecord) (message : String) :
    Search :=
  { s with failures := s.failures ++ [⟨code, violation.map (·.violationId), message, none⟩] }

/-- A revision replaces the plan. -/
def replacePlan (s : Search) (plan : KernelRepairPlan) (bound : BoundKernelPlan)
    (report : PlanBindingReport) : Search :=
  { s with plan := plan, inForce := ⟨s.inForce.revision + 1, bound⟩, bindingReport := report }

/-- A proposal is registered and searched. -/
def execute (s : Search) (violation : ViolationRecord) (proposal : RootProposal)
    (builtFrom : PlanInForce) : Search :=
  { s with executed := s.executed ++
      [⟨violation.violationId, proposal, builtFrom, s.inForce, s.plans.length - 1⟩] }

end Search

/-! ## Root proposals -/

/-- `build_root_proposals` -/
def buildRootProposals (e : Engine) (target : ViolationRecord) (plan : PlanInForce) : RootEntry :=
  match e.inputs.scenes.find? (·.primaryViolationId == target.violationId) with
  | none => ⟨plan, [], [], none, [], some ""⟩
  | some scene =>
    let dofs := e.inputs.dofs.filter fun dof => dof.sceneId == scene.sceneId
    match e.adapter target plan.bound scene dofs with
    | (diagnostics, .ok values) => ⟨plan, values, diagnostics, some scene, dofs, none⟩
    | (diagnostics, .error message) => ⟨plan, [], diagnostics, none, [], some message⟩

/-- The proposals of all violations; the last of several with one id counts. -/
def buildCache (e : Engine) (violations : List ViolationRecord) (plan : PlanInForce) :
    String → Option RootEntry :=
  fun id => (violations.reverse.find? (·.violationId == id)).map fun v =>
    buildRootProposals e v plan

/-! ## Before the search -/

/-- The sets of degrees of freedom that a probe found to be feasible, with the least
operation count for each. -/
def alternativeBounds (probe : List RootProposal) (expanded : Bool) (allowed : List String)
    (maxOperations : ℕ) : List (List String × ℕ) :=
  probe.foldl
    (fun bounds proposal =>
      let option := proposal.selectedDofIds.insertionSort (· ≤ ·)
      if option.isEmpty || (!expanded && option.all allowed.contains) then bounds
      else
        let required := proposal.atomicOperationCount.getD maxOperations
        Dicts.insert option (min required ((bounds.lookup option).getD required)) bounds)
    []

/-- The probe of a violation without proposals: all of its degrees of freedom, and then
four operations where the bound on these was the reason. -/
def probeTarget (e : Engine) (s : Search) (target : ViolationRecord) (entry : RootEntry) :
    RootEntry × Bool :=
  let bound : BoundKernelPlan := {
    s.inForce.bound with
    allowedDofIds := sortedSet (entry.dofs.map (·.dofId))
    forbiddenDofIds := [] }
  let probe := buildRootProposals e target ⟨s.inForce.revision, bound⟩
  if probe.error.isNone ∧ probe.proposals = [] ∧ s.plan.maxOperationCount < 4 ∧
      (entry.diagnostics.any fun item =>
        item.compileFailureCodes.contains "EXEC_OPERATION_BOUND_EXCEEDED") = true then
    let wider := buildRootProposals e target
      ⟨s.inForce.revision, { bound with maxOperationCount := 4 }⟩
    (wider, !wider.proposals.isEmpty)
  else (probe, false)

/-- The feasible alternatives of a violation, if its preferences are what stands in the
way of a proposal. -/
def infeasibility (e : Engine) (s : Search) (target : ViolationRecord) :
    Option (List OperationBound) :=
  (s.rootCache target.violationId).bind fun entry =>
    if entry.proposals ≠ [] ∨ entry.error.isSome ∨ entry.scene.isNone then none
    else
      let (probe, expanded) := probeTarget e s target entry
      if probe.error.isSome ∨ probe.proposals = [] then none
      else
        let bounds := alternativeBounds probe.proposals expanded s.inForce.bound.allowedDofIds
          probe.builtFrom.bound.maxOperationCount
        if bounds.isEmpty then none
        else some ((bounds.insertionSort fun a b => a.1 ≤ b.1).map fun b => ⟨b.1, b.2⟩)

/-- What comes of a revision. -/
inductive Revision
  | accepted (plan : KernelRepairPlan) (bound : BoundKernelPlan) (report : PlanBindingReport)
  | declined
  | schemaRejected (message : String)
  | invalid (message : String)
  | raised

/-- The revision of a plan after feedback, and all plans that the model has given. -/
def revise (e : Engine) (answer : LlmAnswer) (s : Search) (kind : FeedbackKind)
    (bounds : List OperationBound) : Revision × List KernelRepairPlan :=
  match answer with
  | .raised => (.raised, s.plans)
  | .schemaRejected message => (.schemaRejected message, s.plans)
  | .failed message => (.invalid message, s.plans)
  | .plan revised =>
    let plans := s.plans ++ [revised]
    match validateExecutionFeedbackRevision s.plan revised kind (allowedBindingIds e.inputs)
        e.inputs.configuredMaxDepth (bounds.map (·.dofIds)) bounds with
    | .error message => (.invalid message, plans)
    | .ok .declined => (.declined, plans)
    | .ok .accepted =>
      match bindKernelPlan revised e.inputs with
      | .error report => (.invalid (String.intercalate "; " report.errors), plans)
      | .ok (bound, report) => (.accepted revised bound report, plans)

/-- What the phase before the search comes to. -/
inductive Prepared
  | ready (s : Search)
  | rejected (failure : Failure)
  | raised

/-- The phase before the search: at most one revision, after which all proposals are
built anew. -/
def prepare (e : Engine) (violations : List ViolationRecord) (answer : LlmAnswer) (s : Search) :
    Prepared :=
  if s.plan.preferredDofIds = [] ∧ s.plan.forbiddenDofIds = [] then .ready s
  else
    match violations.findSome? (infeasibility e s) with
    | none => .ready s
    | some bounds =>
      let s := { s with executionFeedback := s.executionFeedback ++ [.preferredDofInfeasible] }
      if !e.hasLlm then .ready s
      else
        match revise e answer s .preferredDofInfeasible bounds with
        | (.raised, _) => .raised
        | (.schemaRejected message, _) =>
          .rejected { code := "PLAN_SCHEMA_REJECTED", message := message }
        | (.invalid message, _) =>
          .rejected { code := "INVALID_EXECUTION_REVISION", message := message }
        | (.declined, _) =>
          .rejected {
            code := "INVALID_EXECUTION_REVISION"
            message := "EXECUTION_REVISION_PREFERRED_DOF_UNCHANGED" }
        | (.accepted plan bound report, plans) =>
          let s := ({ s with plans := plans }).replacePlan plan bound report
          .ready { s with rootCache := buildCache e violations s.inForce }

/-! ## One proposal -/

/-- How the loop over the proposals of a violation goes on. -/
inductive Flow
  | next | leave | raise
deriving DecidableEq

/-- The end of a proposal, from the outcome of its last search. -/
def conclude (answer : EdaAnswer String) (violation : ViolationRecord)
    (outcome : TrajectoryOutcome) (retried : Bool) (s : Search) : Search × Flow :=
  if s.verificationDeferred then (s, .leave)
  else
    match outcome.trajectories, decide (outcome.status = "FINAL_CLEAN") with
    | trajectory :: _, true =>
      match answer with
      | .returned candidate =>
        ({ s with
            candidates := s.candidates ++ [candidate]
            trajectoryRefs := s.trajectoryRefs ++ [trajectory] }, .leave)
      | .deferredBudget =>
        ({ s.fail "DEFERRED_BUDGET" violation "" with verificationDeferred := true }, .leave)
      | .failed message => (s.fail "TRAJECTORY_CONDENSATION_FAIL" violation message, .next)
      | .raised => (s, .raise)
    | _, _ =>
      (s.fail ((outcome.deepestFailure.filter (· ≠ "")).getD "KERNEL_NO_CANDIDATE") violation
          "bounded trajectory did not reach strict clean",
        if retried then .leave else .next)

/-- The search of the first proposal of a revised plan. -/
def retryRevised (e : Engine) (answers : Answers) (violation : ViolationRecord) (s : Search) :
    Search × Flow :=
  let entry := buildRootProposals e violation s.inForce
  let s := { s with
    rootCache := Function.update s.rootCache violation.violationId
      (some { entry with scene := none, dofs := [] }) }
  match entry.proposals, entry.error with
  | proposal :: _, none =>
    let s := s.execute violation proposal entry.builtFrom
    match answers.retry with
    | .returned outcome => conclude answers.condensation violation outcome true s
    | .deferredBudget =>
      ({ s.fail "DEFERRED_BUDGET" violation "" with verificationDeferred := true }, .leave)
    | .failed message => (s.fail "FORMAL_TRAJECTORY_EXECUTION_FAIL" violation message, .leave)
    | .raised => (s, .raise)
  | _, error =>
    (s.fail "ROOT_PROPOSAL_UNAVAILABLE_AFTER_REVISION" violation
      ((error.filter (· ≠ "")).getD "no revised root proposal"), .leave)

/-- `revision_limit` -/
def revisionLimit : FeedbackKind → ℕ
  | .physicalConstraintFailure => 2
  | _ => 1

/-- What the feedback of a search comes to. -/
def handleFeedback (e : Engine) (answers : Answers) (violation : ViolationRecord)
    (kind : FeedbackKind) (s : Search) : Search × Flow :=
  let key := (violation.violationId, kind)
  let physical := decide (kind = .physicalConstraintFailure)
  let s := { s with executionFeedback := s.executionFeedback ++ [kind] }
  if revisionLimit kind ≤ s.executionRevisionCounts key ∨ e.hasLlm = false then
    (s.fail (if physical then "PHYSICAL_REPLAN_LIMIT_REACHED"
        else "DEPTH_EXTENSION_APPROVAL_REQUIRED") violation
      "LLM execution revision unavailable or bounded revision limit reached", .leave)
  else
    let s := { s with
      executionRevisionCounts := Function.update s.executionRevisionCounts key
        (s.executionRevisionCounts key + 1) }
    match revise e answers.revision s kind [] with
    | (.raised, _) => (s, .raise)
    | (.schemaRejected message, plans) =>
      (({ s with plans := plans }).fail "PLAN_SCHEMA_REJECTED" violation message, .leave)
    | (.invalid message, plans) =>
      (({ s with plans := plans }).fail "INVALID_EXECUTION_REVISION" violation message, .leave)
    | (.declined, plans) =>
      (({ s with plans := plans }).fail
        (if physical then "PHYSICAL_REPLAN_DECLINED" else "DEPTH_EXTENSION_DECLINED") violation
        "LLM retained the original execution semantics", .leave)
    | (.accepted plan bound report, plans) =>
      retryRevised e answers violation
        { ({ s with plans := plans }).replacePlan plan bound report with searchRevised := true }

/-- The body of the loop over the proposals of a violation. -/
def attempt (e : Engine) (answers : Answers) (violation : ViolationRecord)
    (builtFrom : PlanInForce) (proposal : RootProposal) (s : Search) : Search × Flow :=
  let s := s.execute violation proposal builtFrom
  match answers.search with
  | .deferredBudget =>
    ({ s.fail "DEFERRED_BUDGET" violation
        "Search stopped; required verification capacity preserved." with
      verificationDeferred := true }, .leave)
  | .failed message => (s.fail "FORMAL_TRAJECTORY_EXECUTION_FAIL" violation message, .next)
  | .raised => (s, .raise)
  | .returned outcome =>
    match outcome.executionFeedback with
    | none => conclude answers.condensation violation outcome false s
    | some kind => handleFeedback e answers violation kind s

/-! ## The loops -/

/-- Where the search stands: before a violation, or before one of its proposals, as the
cache had them when the loop over them began. -/
inductive Point
  | violations (rest : List ViolationRecord)
  | proposals (violation : ViolationRecord) (builtFrom : PlanInForce)
      (rest : List RootProposal) (violations : List ViolationRecord)
  | done
  | aborted

structure Config where
  search : Search
  point : Point

/-- After the loop over the proposals of a violation. -/
def afterProposals (e : Engine) (s : Search) (violations : List ViolationRecord) : Config :=
  if s.verificationDeferred ∨ e.maxCandidates ≤ s.candidates.length then ⟨s, .done⟩
  else ⟨s, .violations violations⟩

/-- A violation is taken: its entry has failed, has no proposals, or is searched. -/
def takeViolation (s : Search) (violation : ViolationRecord) (rest : List ViolationRecord) :
    Config :=
  match s.rootCache violation.violationId with
  | none => ⟨s, .aborted⟩
  | some entry =>
    match entry.error with
    | some message =>
      ⟨s.fail "FORMAL_TRAJECTORY_EXECUTION_FAIL" violation message, .violations rest⟩
    | none =>
      if entry.proposals = [] then
        let failure : Failure := {
          code := "ROOT_PROPOSAL_UNAVAILABLE"
          violationId := violation.violationId
          message := "no deterministic root proposal"
          failureReason := match entry.diagnostics.getLast? with
            | some last => last.failureReason
            | none => some "ROOT_NO_SCENE" }
        ⟨{ s with failures := s.failures ++ [failure] }, .violations rest⟩
      else ⟨s, .proposals violation entry.builtFrom entry.proposals rest⟩

/-- One step of the search. -/
def next (e : Engine) (c : Config) (answers : Answers) : Option Config :=
  match c.point with
  | .violations [] => some ⟨c.search, .done⟩
  | .violations (violation :: rest) => some (takeViolation c.search violation rest)
  | .proposals _ _ [] violations => some (afterProposals e c.search violations)
  | .proposals violation builtFrom (proposal :: rest) violations =>
    match attempt e answers violation builtFrom proposal c.search with
    | (s, .next) => some ⟨s, .proposals violation builtFrom rest violations⟩
    | (s, .leave) => some (afterProposals e s violations)
    | (s, .raise) => some ⟨s, .aborted⟩
  | .done => none
  | .aborted => none

/-- The step relation of the search. -/
def Step (e : Engine) (c : Config) (answers : Answers) (c' : Config) : Prop :=
  next e c answers = some c'

/-- The search before its first step: the plan, or its first revision, is bound, the
violations are those that it selects, their proposals are built, and the phase before the
search is over. -/
inductive Starts (e : Engine) : Config → Prop
  | mk {plan : KernelRepairPlan} {plans : List KernelRepairPlan} {bound : BoundKernelPlan}
      {report : PlanBindingReport} {regionViolations violations : List ViolationRecord}
      {answer : LlmAnswer} {s : Search}
      (hbound : bindKernelPlan plan e.inputs = .ok (bound, report))
      (hplans : plans = [plan] ∨ ∃ first, plans = [first, plan])
      (hviolations : violations = regionViolations.filter fun v =>
        bound.selectedViolationIds.contains v.violationId)
      (hprepared : prepare e violations answer {
          plan := plan
          inForce := ⟨0, bound⟩
          bindingReport := report
          plans := plans
          rootCache := buildCache e violations ⟨0, bound⟩ } = .ready s) :
      Starts e ⟨s, .violations violations⟩

end DRCAgent.Kernel
