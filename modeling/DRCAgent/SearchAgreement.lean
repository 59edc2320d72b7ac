/-
# The two models of the search

`KernelSearch` has what the engine calls as a backend, which answers as it likes; `RootSearch`
has the binding and the revision of plans, and steps. The engine of `RootSearch`, with the
answers to come as its world, is a backend (`backendOf`).

Over this backend the two do the same: every run of the loops of `KernelSearch` is a run of the
steps of `RootSearch` that leaves the same plans, candidates and failures
(`searchLoop_is_run`, `search_is_run`).
-/
import DRCAgent.KernelSearch
import DRCAgent.RootSearch

namespace DRCAgent.Kernel

open KernelSearch (Backend Call Next Outcome Raised State VisitEnd askRevision cleanTrajectory
  notCleanCode physical rebuild registerAndSearch replan retry searchLoop settle turn turns
  visitViolation)
open Regions (ViolationRecord)
open Function Runs

/-! ## The engine as a backend -/

/-- `feedback.kind` -/
def FeedbackKind.value : FeedbackKind → String
  | preferredDofInfeasible => "PREFERRED_DOF_INFEASIBLE"
  | depthExtensionAvailable => "DEPTH_EXTENSION_AVAILABLE"
  | physicalConstraintFailure => physical

def EdaAnswer.except {α β : Type} (f : α → β) : EdaAnswer α → Except Raised β
  | returned value => .ok (f value)
  | deferredBudget => .error (.infrastructure true "")
  | failed message => .error (.ordinary message)
  | raised => .error (.other "")

def TrajectoryOutcome.outcome (o : TrajectoryOutcome) :
    Outcome String FeedbackKind :=
  ⟨o.status, o.trajectories, o.deepestFailure, o.executionFeedback⟩

def RootEntry.entry (entry : RootEntry) : KernelSearch.RootEntry RootProposal :=
  ⟨entry.proposals, entry.diagnostics.map fun d => ⟨d.failureReason⟩, entry.error⟩

/-- How a revision of a plan comes out. -/
def revisionOf (e : Engine) (plan : KernelRepairPlan) (kind : FeedbackKind) :
    LlmAnswer → KernelSearch.Revision KernelRepairPlan BoundKernelPlan
  | .raised => .failed (.other "")
  | .schemaRejected message => .failed (.structuredResponse true message)
  | .failed message => .failed (.ordinary message)
  | .plan revised =>
    match validateExecutionFeedbackRevision plan revised kind (allowedBindingIds e.inputs)
        e.inputs.configuredMaxDepth [] [] with
    | .error message => .rejected revised (.ordinary message)
    | .ok .declined => .declined revised
    | .ok .accepted =>
      match bindKernelPlan revised e.inputs with
      | .error report => .rejected revised (.ordinary (String.intercalate "; " report.errors))
      | .ok (bound, _) => .accepted revised bound

/-- The answers to the proposal at hand, and those to come; without any the search raises. -/
abbrev Supply := Answers × List Answers

def Supply.advance : Supply → Supply
  | (_, []) => (⟨.raised, .raised, .raised, .raised⟩, [])
  | (_, answers :: rest) => (answers, rest)

/-- The engine, as what the loops call. -/
def backendOf (e : Engine) : Backend where
  World := Supply
  Plan := KernelRepairPlan
  BoundPlan := BoundKernelPlan
  Violation := ViolationRecord
  Proposal := RootProposal
  Trajectory := String
  Feedback := FeedbackKind
  Record := String
  Candidate := String
  EvidenceRef := Unit
  violationId := (·.violationId)
  trajectoryId := id
  feedbackKind := FeedbackKind.value
  hasLlm := e.hasLlm
  buildRootProposals violation bound := .ok (buildRootProposals e violation ⟨0, bound⟩).entry
  register _ _ _ _ world := (.ok (), world)
  search _ _ _ again world :=
    if again then (world.1.retry.except TrajectoryOutcome.outcome, world)
    else (world.advance.1.search.except TrajectoryOutcome.outcome, world.advance)
  revise plan kind world := (revisionOf e plan kind world.1.revision, world)
  condense _ _ _ _ _ world := (world.1.condensation.except id, world)
  accept candidate world := (.ok (candidate, ()), world)

/-! ## The same search -/

variable {e : Engine} {s : State (backendOf e)} {t : Search} {violation : ViolationRecord}
  {answers : Answers} {ids : List String}

/-- The states agree, but for the texts of failures and what only one of them has; `ids` are
those of the violations. -/
structure Agrees (ids : List String) (s : State (backendOf e)) (t : Search) : Prop where
  plan : s.plan = t.plan
  plans : s.plans = t.plans
  boundPlan : s.boundPlan = t.inForce.bound
  executionFeedback : s.executionFeedback = t.executionFeedback
  revisionCounts : ∀ id kind, s.executionRevisionCounts (id, FeedbackKind.value kind) =
    t.executionRevisionCounts (id, kind)
  candidates : s.candidates = t.candidates
  trajectoryRefs : s.trajectoryRefs = t.trajectoryRefs
  failures : s.failures.map (fun f => (f.code, f.violationId)) =
    t.failures.map fun f => (f.code, f.violationId)
  verificationDeferred : s.verificationDeferred = t.verificationDeferred
  rootCache : ∀ id ∈ ids, ∃ entry, t.rootCache id = some entry ∧ s.rootCache id = entry.entry

/-- How the loop goes on. -/
def flowOf : Next → Flow
  | .proceed => .next
  | .leave => .leave
  | .raised _ => .raise

theorem FeedbackKind.value_injective : Injective FeedbackKind.value := by
  intro kind kind' h
  cases kind <;> cases kind' <;> first | rfl | exact absurd h (by decide)

theorem physical_iff (kind : FeedbackKind) :
    kind.value = physical ↔ kind = .physicalConstraintFailure :=
  ⟨fun h => FeedbackKind.value_injective h, fun h => h ▸ rfl⟩

theorem revisionLimit_value (kind : FeedbackKind) :
    KernelSearch.revisionLimit kind.value = revisionLimit kind := by
  cases kind <;> rfl

/-- The proposals do not depend on the number of the revision. -/
theorem entry_buildRootProposals (e : Engine) (violation : ViolationRecord) (plan : PlanInForce) :
    (buildRootProposals e violation plan).entry =
      (buildRootProposals e violation ⟨0, plan.bound⟩).entry := by
  simp only [buildRootProposals]
  cases e.inputs.scenes.find? (·.primaryViolationId == violation.violationId) with
  | none => rfl
  | some scene =>
    dsimp only
    split <;> rfl

namespace Agrees

theorem withWorld (h : Agrees ids s t) (world : Supply) (calls : List Call) :
    Agrees ids { s with world, calls } t :=
  { h with }

theorem execute (h : Agrees ids s t) (violation : ViolationRecord) (proposal : RootProposal)
    (builtFrom : PlanInForce) : Agrees ids s (t.execute violation proposal builtFrom) :=
  { h with }

/-- A failure with one code on both sides. -/
theorem failed (h : Agrees ids s t) {failure : KernelSearch.Failure} {failure' : Failure}
    (hcode : failure.code = failure'.code) (hid : failure.violationId = failure'.violationId) :
    Agrees ids (s.fail failure) { t with failures := t.failures ++ [failure'] } :=
  { h with
    failures := by
      show (s.failures ++ [failure]).map _ = (t.failures ++ [failure']).map _
      rw [List.map_append, List.map_append, h.failures, List.map_singleton, List.map_singleton,
        hcode, hid] }

theorem fail (h : Agrees ids s t) {failure : KernelSearch.Failure} {code message : String}
    (hcode : failure.code = code) (hid : failure.violationId = some violation.violationId) :
    Agrees ids (s.fail failure) (t.fail code violation message) :=
  h.failed hcode hid

theorem deferred (h : Agrees ids s t) :
    Agrees ids { s with verificationDeferred := true } { t with verificationDeferred := true } :=
  { h with verificationDeferred := rfl }

end Agrees

/-! ## One turn -/

/-- The two turns end alike: in agreeing states, with the same answers to come. -/
structure SameTurn (ids : List String) (world : Supply) (turn : State (backendOf e) × Next)
    (attempt : Search × Flow) : Prop where
  agrees : Agrees ids turn.1 attempt.1
  flow : flowOf turn.2 = attempt.2
  world : turn.1.world = world
  goesOn : attempt.2 = .next → attempt.1.verificationDeferred = false

theorem notCleanCode_outcome (o : TrajectoryOutcome) :
    @notCleanCode (backendOf e) o.outcome =
      (o.deepestFailure.filter (· ≠ "")).getD "KERNEL_NO_CANDIDATE" := by
  obtain ⟨status, trajectories, deepestFailure, feedback⟩ := o
  cases deepestFailure with
  | none => rfl
  | some code =>
    rw [Option.filter_some]
    by_cases hempty : code = ""
    · rw [hempty]
      rfl
    · rw [if_pos (decide_eq_true hempty)]
      exact if_neg hempty

/-- A trajectory that is not clean. -/
theorem sameTurn_notClean (h : Agrees ids s t) (hopen : t.verificationDeferred = false)
    (o : TrajectoryOutcome) (again : Bool) {message message' : String} :
    SameTurn ids s.world
      (s.fail {
          code := @notCleanCode (backendOf e) o.outcome
          violationId := violation.violationId
          message := message },
        if again then .leave else .proceed)
      (t.fail ((o.deepestFailure.filter (· ≠ "")).getD "KERNEL_NO_CANDIDATE") violation message',
        if again then .leave else .next) where
  agrees := h.fail (notCleanCode_outcome o) rfl
  flow := by cases again <;> rfl
  world := rfl
  goesOn _ := hopen

/-- The end of a turn. -/
theorem sameTurn_settle (h : Agrees ids s t) (hopen : t.verificationDeferred = false)
    (hworld : s.world.1 = answers) (proposal : RootProposal) (o : TrajectoryOutcome)
    (again : Bool) :
    SameTurn ids s.world (settle s violation proposal o.outcome again)
      (conclude answers.condensation violation o again t) := by
  obtain ⟨status, trajectories, deepestFailure, feedback⟩ := o
  have hnot : ¬ t.verificationDeferred = true := by simp [hopen]
  rw [conclude, if_neg hnot]
  unfold settle cleanTrajectory
  by_cases hclean : status = "FINAL_CLEAN"
  · cases trajectories with
    | nil =>
      simp only [TrajectoryOutcome.outcome, hclean, if_true]
      exact sameTurn_notClean h hopen ⟨_, [], deepestFailure, feedback⟩ again
    | cons trajectory rest =>
      simp only [TrajectoryOutcome.outcome, hclean, if_true, decide_true]
      show SameTurn ids s.world (KernelSearch.condensation s violation proposal trajectory again) _
      have hcondense : (backendOf e).condense s.boundPlan violation proposal trajectory
          s.planRevision s.world = (answers.condensation.except id, s.world) :=
        hworld ▸ rfl
      unfold KernelSearch.condensation
      rw [hcondense]
      cases answers.condensation with
      | returned candidate =>
        exact ⟨{ h with
          candidates := congrArg (· ++ [candidate]) h.candidates
          trajectoryRefs := congrArg (· ++ [trajectory]) h.trajectoryRefs }, rfl, rfl, nofun⟩
      | deferredBudget =>
        exact ⟨(h.withWorld _ _).deferred.fail rfl rfl, rfl, rfl, nofun⟩
      | failed message =>
        exact ⟨(h.withWorld _ _).fail rfl rfl, rfl, rfl, fun _ => hopen⟩
      | raised => exact ⟨h.withWorld _ _, rfl, rfl, nofun⟩
  · simp only [TrajectoryOutcome.outcome, hclean, if_false, decide_false]
    exact sameTurn_notClean h hopen ⟨status, trajectories, deepestFailure, feedback⟩ again

/-- What `attempt` and `retryRevised` make of the answer to a search. -/
def follow (answer : EdaAnswer TrajectoryOutcome) (violation : ViolationRecord)
    (message : String) (again : Bool) (t : Search) (followed : TrajectoryOutcome → Search × Flow) :
    Search × Flow :=
  match answer with
  | .returned o => followed o
  | .deferredBudget =>
    ({ t.fail "DEFERRED_BUDGET" violation message with verificationDeferred := true }, .leave)
  | .failed text =>
    (t.fail "FORMAL_TRAJECTORY_EXECUTION_FAIL" violation text, if again then .leave else .next)
  | .raised => (t, .raise)

/-- What `turn` and `retry` make of it. -/
def found (settled : State (backendOf e) →
      Outcome String FeedbackKind → State (backendOf e) × Next) :
    State (backendOf e) × (Next ⊕ Outcome String FeedbackKind) →
      State (backendOf e) × Next
  | (s, .inl next) => (s, next)
  | (s, .inr outcome) => settled s outcome

theorem retry_eq_found (s : State (backendOf e)) (violation : ViolationRecord)
    (proposal : RootProposal) :
    retry s violation proposal =
      found (settle · violation proposal · true)
        (registerAndSearch s violation proposal true) := by
  unfold retry
  generalize registerAndSearch s violation proposal true = searched
  obtain ⟨s', _ | _⟩ := searched <;> rfl

/-- What follows the registration of a proposal, by the answer to its search. -/
theorem sameTurn_searched (h : Agrees ids s t) (hopen : t.verificationDeferred = false)
    {proposal : RootProposal} {again : Bool} {answer : EdaAnswer TrajectoryOutcome}
    {world : Supply} (message : String)
    {settled : State (backendOf e) → Outcome String FeedbackKind →
      State (backendOf e) × Next}
    {followed : TrajectoryOutcome → Search × Flow}
    (hsearch : (backendOf e).search s.boundPlan violation proposal again s.world =
      (answer.except TrajectoryOutcome.outcome, world))
    (hsettled : ∀ o s', Agrees ids s' t → s'.world = world →
      SameTurn ids world (settled s' o.outcome) (followed o)) :
    SameTurn ids world (found settled (registerAndSearch s violation proposal again))
      (follow answer violation message again t followed) := by
  have hregister : (backendOf e).register s.boundPlan violation proposal s.planRevision s.world =
      (.ok (), s.world) := rfl
  unfold registerAndSearch
  simp only [hregister, hsearch]
  cases answer with
  | returned o => exact hsettled o _ (h.withWorld world _) rfl
  | deferredBudget =>
    exact ⟨(h.withWorld world _).deferred.fail rfl rfl, rfl, rfl, nofun⟩
  | failed text =>
    refine ⟨(h.withWorld world _).fail rfl rfl, ?_, rfl, fun _ => hopen⟩
    cases again <;> rfl
  | raised => exact ⟨h.withWorld world _, rfl, rfl, nofun⟩

/-- The second search of a turn. -/
theorem sameTurn_retry (h : Agrees ids s t) (hopen : t.verificationDeferred = false)
    (hworld : s.world.1 = answers) (proposal : RootProposal) :
    SameTurn ids s.world (retry s violation proposal)
      (follow answers.retry violation "" true t
        (conclude answers.condensation violation · true t)) := by
  have hsearch : (backendOf e).search s.boundPlan violation proposal true s.world =
      (answers.retry.except TrajectoryOutcome.outcome, s.world) :=
    hworld ▸ rfl
  rw [retry_eq_found]
  refine sameTurn_searched h hopen "" hsearch fun o s' h' hworld' => ?_
  exact hworld' ▸ sameTurn_settle h' hopen (hworld' ▸ hworld) proposal o true

/-- The caches agree after both take a new entry. -/
theorem entry_update {cache : String → KernelSearch.RootEntry RootProposal}
    {cache' : String → Option RootEntry}
    (h : ∀ id ∈ ids, ∃ entry, cache' id = some entry ∧ cache id = entry.entry) (id' : String)
    (entry' : RootEntry) :
    ∀ id ∈ ids, ∃ entry,
      update cache' id' (some { entry' with scene := none, dofs := [] }) id = some entry ∧
        update cache id' entry'.entry id = entry.entry := by
  intro id hid
  by_cases heq : id = id'
  · subst heq
    exact ⟨_, update_self .., update_self ..⟩
  · rw [update_of_ne heq, update_of_ne heq]
    exact h id hid

/-- A revision is accepted, and its first proposal is searched. -/
theorem sameTurn_rebuild (h : Agrees ids s t) (hopen : t.verificationDeferred = false)
    (hworld : s.world.1 = answers) (plan : KernelRepairPlan) (bound : BoundKernelPlan)
    (report : PlanBindingReport) :
    SameTurn ids s.world (rebuild s violation plan bound)
      (retryRevised e answers violation
        { t.replacePlan plan bound report with searchRevised := true }) := by
  have hentry := entry_buildRootProposals e violation ⟨t.inForce.revision + 1, bound⟩
  have hbuild : (backendOf e).buildRootProposals violation bound =
      .ok (buildRootProposals e violation ⟨t.inForce.revision + 1, bound⟩).entry :=
    congrArg Except.ok hentry.symm
  have hinForce : ({ t.replacePlan plan bound report with searchRevised := true } : Search).inForce =
      ⟨t.inForce.revision + 1, bound⟩ := rfl
  unfold rebuild retryRevised
  rw [hbuild, hinForce]
  generalize buildRootProposals e violation ⟨t.inForce.revision + 1, bound⟩ = entry
  have hagrees : Agrees ids { s with
      plan := plan
      boundPlan := bound
      rootCache := update s.rootCache violation.violationId entry.entry }
      { { t.replacePlan plan bound report with searchRevised := true } with
        rootCache := update t.rootCache violation.violationId
          (some { entry with scene := none, dofs := [] }) } :=
    { h with plan := rfl, boundPlan := rfl, rootCache := entry_update h.rootCache _ _ }
  obtain ⟨builtFrom, proposals, diagnostics, scene, dofs, error⟩ := entry
  cases error with
  | some text =>
    cases proposals <;> exact ⟨hagrees.fail rfl rfl, rfl, rfl, nofun⟩
  | none =>
    cases proposals with
    | nil => exact ⟨hagrees.fail rfl rfl, rfl, rfl, nofun⟩
    | cons proposal rest =>
      exact sameTurn_retry (hagrees.execute violation proposal builtFrom) hopen hworld proposal

namespace Agrees

/-- The kind of a feedback is noted. -/
theorem feedback (h : Agrees ids s t) (kind : FeedbackKind) :
    Agrees ids { s with
        executionFeedback := s.executionFeedback ++ ([kind] : List (backendOf e).Feedback) }
      { t with executionFeedback := t.executionFeedback ++ [kind] } :=
  { h with executionFeedback := congrArg (· ++ [kind]) h.executionFeedback }

/-- A revision is asked for. -/
theorem counted (h : Agrees ids s t) (id : String) (kind : FeedbackKind)
    (calls : List Call) :
    Agrees ids { s with
        executionRevisionCounts := update s.executionRevisionCounts (id, kind.value)
          (s.executionRevisionCounts (id, kind.value) + 1)
        calls := calls }
      { t with
        executionRevisionCounts := update t.executionRevisionCounts (id, kind)
          (t.executionRevisionCounts (id, kind) + 1) } := by
  refine { h with revisionCounts := fun id' kind' => ?_ }
  dsimp only
  rw [h.revisionCounts]
  by_cases hkey : (id', kind') = (id, kind)
  · obtain ⟨rfl, rfl⟩ := Prod.mk.inj hkey
    rw [update_self, update_self]
  · have hkey' : (id', kind'.value) ≠ (id, kind.value) := fun heq =>
      hkey (Prod.ext (Prod.mk.inj heq).1 (FeedbackKind.value_injective (Prod.mk.inj heq).2))
    rw [update_of_ne hkey, update_of_ne hkey', h.revisionCounts]

/-- The model gives a plan. -/
theorem planned (h : Agrees ids s t) (revised : KernelRepairPlan) :
    Agrees ids { s with plans := s.plans ++ ([revised] : List (backendOf e).Plan) }
      { t with plans := t.plans ++ [revised] } :=
  { h with plans := congrArg (· ++ [revised]) h.plans }

end Agrees

/-- What the model answers is read alike. -/
inductive Alike (plans : List KernelRepairPlan) :
    KernelSearch.Revision KernelRepairPlan BoundKernelPlan →
      Revision × List KernelRepairPlan → Prop
  | raised : Alike plans (.failed (.other "")) (.raised, plans)
  | schemaRejected (message : String) :
    Alike plans (.failed (.structuredResponse true message)) (.schemaRejected message, plans)
  | failed (message : String) : Alike plans (.failed (.ordinary message)) (.invalid message, plans)
  | invalid (revised : KernelRepairPlan) (message : String) :
    Alike plans (.rejected revised (.ordinary message)) (.invalid message, plans ++ [revised])
  | declined (revised : KernelRepairPlan) :
    Alike plans (.declined revised) (.declined, plans ++ [revised])
  | accepted (revised : KernelRepairPlan) (bound : BoundKernelPlan) (report : PlanBindingReport) :
    Alike plans (.accepted revised bound) (.accepted revised bound report, plans ++ [revised])

theorem revise_alike (e : Engine) (answer : LlmAnswer) (t : Search) (kind : FeedbackKind) :
    Alike t.plans (revisionOf e t.plan kind answer) (revise e answer t kind []) := by
  cases answer with
  | raised => exact .raised
  | schemaRejected message => exact .schemaRejected message
  | failed message => exact .failed message
  | plan revised =>
    unfold revisionOf revise
    dsimp only
    rw [List.map_nil]
    cases validateExecutionFeedbackRevision t.plan revised kind (allowedBindingIds e.inputs)
      e.inputs.configuredMaxDepth [] [] with
    | error message => exact .invalid revised message
    | ok verdict =>
      cases verdict with
      | declined => exact .declined revised
      | accepted =>
        dsimp only
        cases bindKernelPlan revised e.inputs with
        | error report => exact .invalid revised _
        | ok bound => exact .accepted revised bound.1 bound.2

/-- The answer to the feedback of a search. -/
theorem sameTurn_replan (h : Agrees ids s t) (hopen : t.verificationDeferred = false)
    (hworld : s.world.1 = answers) (kind : FeedbackKind) :
    SameTurn ids s.world (replan s violation kind)
      (handleFeedback e answers violation kind t) := by
  have hcount := h.revisionCounts violation.violationId kind
  have hlimit : (decide (KernelSearch.revisionLimit kind.value ≤
        s.executionRevisionCounts (violation.violationId, kind.value)) || !e.hasLlm) = true ↔
      revisionLimit kind ≤ t.executionRevisionCounts (violation.violationId, kind) ∨
        e.hasLlm = false := by
    rw [Bool.or_eq_true, decide_eq_true_eq, Bool.not_eq_true', revisionLimit_value, hcount]
  have hcode : ∀ a b : String, (if kind.value = physical then a else b) =
      if decide (kind = .physicalConstraintFailure) then a else b := fun a b => by
    simp only [physical_iff, decide_eq_true_eq]
  have hnoted := h.feedback kind
  by_cases hreached : revisionLimit kind ≤
      t.executionRevisionCounts (violation.violationId, kind) ∨ e.hasLlm = false
  · rw [show replan s violation kind = _ from if_pos (hlimit.2 hreached),
      show handleFeedback e answers violation kind t = _ from if_pos hreached]
    exact ⟨hnoted.fail (hcode _ _) rfl, rfl, rfl, nofun⟩
  · rw [show replan s violation kind = _ from if_neg (mt hlimit.1 hreached),
      show handleFeedback e answers violation kind t = _ from if_neg hreached]
    have hasked := hnoted.counted violation.violationId kind
      (s.calls ++ [.revised violation.violationId kind.value])
    have hrevise : (backendOf e).revise s.plan kind s.world =
        (revisionOf e t.plan kind answers.revision, s.world) := by
      rw [← h.plan, ← hworld]
      rfl
    unfold askRevision
    dsimp only
    rw [hrevise]
    dsimp only
    have halike := revise_alike e answers.revision { t with
      executionFeedback := t.executionFeedback ++ [kind]
      executionRevisionCounts := update t.executionRevisionCounts
        (violation.violationId, kind)
        (t.executionRevisionCounts (violation.violationId, kind) + 1) } kind
    generalize revisionOf e t.plan kind answers.revision = revision at halike ⊢
    generalize revise e answers.revision _ kind [] = revision' at halike ⊢
    cases halike with
    | raised => exact ⟨hasked, rfl, rfl, nofun⟩
    | schemaRejected message => exact ⟨hasked.fail rfl rfl, rfl, rfl, nofun⟩
    | failed message => exact ⟨hasked.fail rfl rfl, rfl, rfl, nofun⟩
    | invalid revised message => exact ⟨(hasked.planned revised).fail rfl rfl, rfl, rfl, nofun⟩
    | declined revised =>
      exact ⟨(hasked.planned revised).fail (hcode _ _) rfl, rfl, rfl, nofun⟩
    | accepted revised bound report =>
      exact sameTurn_rebuild (hasked.planned revised) hopen hworld revised bound report

/-- What follows the first search of a turn. -/
theorem sameTurn_feedback (h : Agrees ids s t) (hopen : t.verificationDeferred = false)
    (hworld : s.world.1 = answers) (proposal : RootProposal) (o : TrajectoryOutcome) :
    SameTurn ids s.world
      (match o.outcome.executionFeedback with
        | none => settle s violation proposal o.outcome false
        | some feedback => replan s violation feedback)
      (match o.executionFeedback with
        | none => conclude answers.condensation violation o false t
        | some kind => handleFeedback e answers violation kind t) := by
  obtain ⟨status, trajectories, deepestFailure, _ | kind⟩ := o
  · exact sameTurn_settle h hopen hworld proposal ⟨status, trajectories, deepestFailure, none⟩ false
  · exact sameTurn_replan h hopen hworld kind

/-- **One turn.**  Both take the next answers. -/
theorem sameTurn_turn (h : Agrees ids s t) (hopen : t.verificationDeferred = false)
    (proposal : RootProposal) (builtFrom : PlanInForce) :
    SameTurn ids s.world.advance (turn s violation proposal)
      (attempt e s.world.advance.1 violation builtFrom proposal t) := by
  have hturn : turn s violation proposal =
      found (fun s outcome =>
          match outcome.executionFeedback with
          | none => settle s violation proposal outcome false
          | some feedback => replan s violation feedback)
        (registerAndSearch s violation proposal false) := by
    unfold turn
    generalize registerAndSearch s violation proposal false = searched
    obtain ⟨s', _ | ⟨status, trajectories, deepestFailure, _ | feedback⟩⟩ := searched <;> rfl
  have hsearch : (backendOf e).search s.boundPlan violation proposal false s.world =
      (s.world.advance.1.search.except TrajectoryOutcome.outcome, s.world.advance) := rfl
  have hattempt : attempt e s.world.advance.1 violation builtFrom proposal t =
      follow s.world.advance.1.search violation
        "Search stopped; required verification capacity preserved." false
        (t.execute violation proposal builtFrom) fun o =>
          match o.executionFeedback with
          | none => conclude s.world.advance.1.condensation violation o false
              (t.execute violation proposal builtFrom)
          | some kind => handleFeedback e s.world.advance.1 violation kind
              (t.execute violation proposal builtFrom) := by
    unfold attempt follow
    cases s.world.advance.1.search <;> rfl
  rw [hturn, hattempt]
  refine sameTurn_searched (h.execute violation proposal builtFrom) hopen _ hsearch
    fun o s' h' hworld' => ?_
  exact hworld' ▸ sameTurn_feedback h' hopen rfl proposal o

/-! ## The loops -/

section Loops

variable {backend : Backend} {state state' : State backend}
  {target : backend.Violation} {proposal : backend.Proposal} {proposals : List backend.Proposal}
  {entry : KernelSearch.RootEntry backend.Proposal}

theorem turns_cons {next : Next} :
    turn state target proposal = (state', next) →
      turns state target (proposal :: proposals) =
        match next with
        | .proceed => turns state' target proposals
        | .leave => (state', none)
        | .raised exc => (state', some exc) := by
  intro h
  rw [turns, h]
  cases next <;> rfl

theorem visit_skipped (hcache : state.rootCache (backend.violationId target) = entry)
    (hskipped : entry.rootError ≠ none ∨ entry.proposals = []) :
    ∃ failure : KernelSearch.Failure,
      visitViolation state target = (state.fail failure, .skipped) ∧
        failure.code = (if entry.rootError = none then "ROOT_PROPOSAL_UNAVAILABLE"
          else "FORMAL_TRAJECTORY_EXECUTION_FAIL") ∧
        failure.violationId = some (backend.violationId target) := by
  unfold visitViolation
  dsimp only
  rw [hcache]
  cases herror : entry.rootError with
  | some text => exact ⟨_, rfl, rfl, rfl⟩
  | none =>
    have hproposals := hskipped.resolve_left (not_not_intro herror)
    dsimp only
    rw [if_pos (List.isEmpty_iff.2 hproposals)]
    exact ⟨_, rfl, rfl, rfl⟩

theorem visit_turns {ended : Option Raised}
    (hcache : state.rootCache (backend.violationId target) = entry)
    (herror : entry.rootError = none) (hproposals : entry.proposals ≠ [])
    (hturns : turns state target entry.proposals = (state', ended)) :
    visitViolation state target = (state', ended.elim .tried .raised) := by
  unfold visitViolation
  dsimp only
  rw [hcache, herror, hturns]
  dsimp only
  rw [if_neg (mt List.isEmpty_iff.1 hproposals)]
  cases ended <;> rfl

variable {maxCandidates : ℕ} {targets : List backend.Violation}

/-- The search is over: a visit raised, or was the last one. -/
theorem searchLoop_over {ended : VisitEnd}
    (hvisit : visitViolation state target = (state', ended))
    (hover : ended = .tried →
      (state'.verificationDeferred || maxCandidates ≤ state'.candidates.length) = true)
    (hskipped : ended ≠ .skipped) :
    (searchLoop maxCandidates state (target :: targets)).state = state' ∧
      ((searchLoop maxCandidates state (target :: targets)).raised.isSome = true ↔
        ended ≠ .tried) := by
  rw [searchLoop, hvisit]
  cases ended with
  | skipped => exact absurd rfl hskipped
  | tried =>
    dsimp only
    rw [if_pos (hover rfl)]
    exact ⟨rfl, iff_of_false (by simp) (not_not_intro rfl)⟩
  | raised exc => exact ⟨rfl, iff_of_true rfl nofun⟩

theorem searchLoop_goesOn {ended : VisitEnd}
    (hvisit : visitViolation state target = (state', ended))
    (hgoesOn : ended = .skipped ∨ ended = .tried ∧
      (state'.verificationDeferred || maxCandidates ≤ state'.candidates.length) = false) :
    (searchLoop maxCandidates state (target :: targets)).state =
        (searchLoop maxCandidates state' targets).state ∧
      (searchLoop maxCandidates state (target :: targets)).raised =
        (searchLoop maxCandidates state' targets).raised := by
  rw [searchLoop, hvisit]
  obtain rfl | ⟨rfl, hopen⟩ := hgoesOn
  · exact ⟨rfl, rfl⟩
  · dsimp only
    rw [if_neg (Bool.eq_false_iff.1 hopen)]
    exact ⟨rfl, rfl⟩

end Loops

theorem step_attempt {builtFrom : PlanInForce} {proposal : RootProposal} {t' : Search}
    {flow : Flow} (rest : List RootProposal) (violations : List ViolationRecord) :
    attempt e answers violation builtFrom proposal t = (t', flow) →
      Step e ⟨t, .proposals violation builtFrom (proposal :: rest) violations⟩ answers
        (match flow with
          | .next => ⟨t', .proposals violation builtFrom rest violations⟩
          | .leave => afterProposals e t' violations
          | .raise => ⟨t', .aborted⟩) := by
  intro h
  unfold Step next
  dsimp only
  rw [h]
  cases flow <;> rfl

/-- The inner loop, and the steps until it is over. -/
theorem turns_run (violation : ViolationRecord) (builtFrom : PlanInForce)
    (violations : List ViolationRecord) (proposals : List (backendOf e).Proposal)
    (h : Agrees ids s t) (hopen : t.verificationDeferred = false) :
    ∃ tr t', Agrees ids (turns s violation proposals).1 t' ∧
      Run (Step e) ⟨t, .proposals violation builtFrom proposals violations⟩ tr
        (match (turns s violation proposals).2 with
          | none => afterProposals e t' violations
          | some _ => ⟨t', .aborted⟩) := by
  induction proposals generalizing s t with
  | nil => exact ⟨_, t, h, .single (l := ⟨.raised, .raised, .raised, .raised⟩) rfl⟩
  | cons proposal proposals ih =>
    have hsame : SameTurn ids s.world.advance (turn s violation proposal) _ :=
      sameTurn_turn h hopen proposal builtFrom
    generalize hanswers : s.world.advance.1 = answers at hsame
    generalize hturn : turn s violation proposal = turn at hsame
    generalize hattempt : attempt e answers violation builtFrom proposal t = attempt at hsame
    obtain ⟨hagrees, hflow, -, hgoesOn⟩ := hsame
    obtain ⟨s', ended⟩ := turn
    obtain ⟨t', flow⟩ := attempt
    have hstep := step_attempt proposals violations hattempt
    obtain rfl : flowOf ended = flow := hflow
    rw [turns_cons hturn]
    cases ended with
    | proceed =>
      obtain ⟨tr, t'', hagrees', hrun⟩ := ih hagrees (hgoesOn rfl)
      exact ⟨_, t'', hagrees', (Run.single hstep).trans hrun⟩
    | leave => exact ⟨_, t', hagrees, .single hstep⟩
    | raised exc => exact ⟨_, t', hagrees, .single hstep⟩

/-- The visit of a violation, and the steps until the next one. -/
theorem visit_run (h : Agrees ids s t) (hopen : t.verificationDeferred = false)
    (hid : violation.violationId ∈ ids) (violations : List ViolationRecord) :
    ∃ tr t', Agrees ids (visitViolation s violation).1 t' ∧
      Run (Step e) ⟨t, .violations (violation :: violations)⟩ tr
        (match (visitViolation s violation).2 with
          | .skipped => ⟨t', .violations violations⟩
          | .tried => afterProposals e t' violations
          | .raised _ => ⟨t', .aborted⟩) ∧
      ((visitViolation s violation).2 = .skipped →
        t'.verificationDeferred = false) := by
  obtain ⟨entry, hentry, hcache⟩ := h.rootCache _ hid
  obtain ⟨builtFrom, proposals, diagnostics, scene, dofs, error⟩ := entry
  have hcached : s.rootCache ((backendOf e).violationId violation) = _ := hcache
  have hstep : Step e ⟨t, .violations (violation :: violations)⟩
      ⟨.raised, .raised, .raised, .raised⟩ (takeViolation t violation violations) := rfl
  unfold takeViolation at hstep
  rw [hentry] at hstep
  cases error with
  | some text =>
    obtain ⟨failure, hvisit, hcode, hfailure⟩ := visit_skipped hcached (.inl nofun)
    rw [hvisit]
    exact ⟨_, _, h.fail hcode hfailure, .single hstep, fun _ => hopen⟩
  | none =>
    cases proposals with
    | nil =>
      obtain ⟨failure, hvisit, hcode, hfailure⟩ := visit_skipped hcached (.inr rfl)
      rw [hvisit]
      exact ⟨_, _, h.failed hcode hfailure, .single hstep, fun _ => hopen⟩
    | cons proposal proposals =>
      obtain ⟨tr, t', hagrees, hrun⟩ :=
        turns_run violation builtFrom violations (proposal :: proposals) h hopen
      generalize hturns : turns s violation (proposal :: proposals) = ended
        at hagrees hrun
      obtain ⟨s', ended⟩ := ended
      rw [visit_turns hcached rfl (List.cons_ne_nil proposal proposals) hturns]
      cases ended <;> exact ⟨_, t', hagrees, (Run.single hstep).trans hrun, nofun⟩

/-- **The loops do what the steps do.**  Whatever the answers are, there is a run of the steps
to the end of the search that leaves the same plans, candidates and failures. -/
theorem searchLoop_is_run (h : Agrees ids s t) (hopen : t.verificationDeferred = false)
    (violations : List (backendOf e).Violation)
    (hids : ∀ v ∈ violations, (backendOf e).violationId v ∈ ids) :
    ∃ tr t', Agrees ids (searchLoop e.maxCandidates s violations).state t' ∧
      Run (Step e) ⟨t, .violations violations⟩ tr ⟨t',
        if (searchLoop e.maxCandidates s violations).raised.isSome then .aborted
        else .done⟩ := by
  induction violations generalizing s t with
  | nil => exact ⟨_, t, h, .single (l := ⟨.raised, .raised, .raised, .raised⟩) rfl⟩
  | cons violation violations ih =>
    have hrest : ∀ v ∈ violations, (backendOf e).violationId v ∈ ids := fun v hv =>
      hids v (List.mem_cons_of_mem _ hv)
    obtain ⟨tr, t', hagrees, hrun, hskipped⟩ :=
      visit_run h hopen (hids violation List.mem_cons_self) violations
    generalize hvisit : visitViolation s violation = visit at hagrees hrun hskipped
    obtain ⟨s', ended⟩ := visit
    cases ended with
    | raised exc =>
      obtain ⟨hstate, hraised⟩ := searchLoop_over hvisit nofun nofun
      rw [hstate, if_pos (hraised.2 nofun)]
      exact ⟨tr, t', hagrees, hrun⟩
    | skipped =>
      obtain ⟨tr', t'', hagrees', hrun'⟩ := ih hagrees (hskipped rfl) hrest
      obtain ⟨hstate, hraised⟩ := searchLoop_goesOn hvisit (.inl rfl)
      rw [hstate, hraised]
      exact ⟨_, t'', hagrees', hrun.trans hrun'⟩
    | tried =>
      -- the two tests after a visit agree
      have hcount : s'.candidates.length = t'.candidates.length :=
        congrArg List.length hagrees.candidates
      have htest : (s'.verificationDeferred || e.maxCandidates ≤ s'.candidates.length) = true ↔
          t'.verificationDeferred = true ∨ e.maxCandidates ≤ t'.candidates.length := by
        rw [Bool.or_eq_true, decide_eq_true_eq, hagrees.verificationDeferred, hcount]
      by_cases hover : t'.verificationDeferred = true ∨ e.maxCandidates ≤ t'.candidates.length
      · obtain ⟨hstate, hraised⟩ := searchLoop_over hvisit (fun _ => htest.2 hover) nofun
        rw [hstate, if_neg (mt hraised.1 (not_not_intro rfl))]
        rw [show afterProposals e t' violations = ⟨t', .done⟩ from if_pos hover] at hrun
        exact ⟨tr, t', hagrees, hrun⟩
      · have hopen' : t'.verificationDeferred = false :=
          Bool.eq_false_iff.2 fun h => hover (.inl h)
        obtain ⟨tr', t'', hagrees', hrun'⟩ := ih hagrees hopen' hrest
        obtain ⟨hstate, hraised⟩ := searchLoop_goesOn hvisit
          (.inr ⟨rfl, Bool.eq_false_iff.2 (mt htest.1 hover)⟩)
        rw [hstate, hraised]
        rw [show afterProposals e t' violations = ⟨t', .violations violations⟩ from
          if_neg hover] at hrun
        exact ⟨_, t'', hagrees', hrun.trans hrun'⟩

/-! ## From the start -/

/-- The loops before their first step, in place of `t`. -/
def stateAt (e : Engine) (world : Supply) (t : Search) : State (backendOf e) :=
  KernelSearch.startState world t.plan t.plans t.inForce.bound
    (fun id => (t.rootCache id).elim ⟨[], [], none⟩ RootEntry.entry) t.executionFeedback []

theorem buildCache_isSome {violations : List ViolationRecord} (plan : PlanInForce) :
    ∀ id ∈ violations.map (·.violationId), (buildCache e violations plan id).isSome := by
  intro id hid
  obtain ⟨v, hv, rfl⟩ := List.mem_map.1 hid
  rw [buildCache, Option.isSome_map, List.find?_isSome]
  exact ⟨v, List.mem_reverse.2 hv, beq_self_eq_true _⟩

theorem rootCache_stateAt (world : Supply)
    (h : ∀ id ∈ ids, (t.rootCache id).isSome) : ∀ id ∈ ids, ∃ entry,
      t.rootCache id = some entry ∧ (stateAt e world t).rootCache id = entry.entry := by
  intro id hid
  obtain ⟨entry, hentry⟩ := Option.isSome_iff_exists.1 (h id hid)
  exact ⟨entry, hentry, congrArg (Option.elim · _ RootEntry.entry) hentry⟩

/-- The phase before the search changes only what `stateAt` takes over. -/
theorem agrees_prepare {world : Supply} {violations : List ViolationRecord}
    {answer : LlmAnswer} {t' : Search} (hready : prepare e violations answer t = .ready t')
    (h : Agrees (violations.map (·.violationId)) (stateAt e world t) t) :
    Agrees (violations.map (·.violationId)) (stateAt e world t') t' := by
  unfold prepare at hready
  split at hready
  · cases hready
    exact h
  · split at hready
    · cases hready
      exact h
    · dsimp only at hready
      split at hready
      · cases hready
        exact { h with executionFeedback := rfl }
      · split at hready <;> cases hready
        exact { h with
          plan := rfl
          plans := rfl
          boundPlan := rfl
          executionFeedback := rfl
          rootCache := rootCache_stateAt world (buildCache_isSome _) }

/-- **Every search.**  From its start, the loops and the steps agree. -/
theorem search_is_run {violations : List ViolationRecord}
    (h : Starts e ⟨t, .violations violations⟩) (world : Supply) :
    ∃ tr t', Agrees (violations.map (·.violationId))
        (searchLoop e.maxCandidates (stateAt e world t) violations).state t' ∧
      Run (Step e) ⟨t, .violations violations⟩ tr ⟨t',
        if (searchLoop e.maxCandidates (stateAt e world t) violations).raised.isSome then
          .aborted
        else .done⟩ := by
  have hagrees : Agrees (violations.map (·.violationId)) (stateAt e world t) t := by
    cases h with
    | mk hbound hplans hviolations hprepared =>
      exact agrees_prepare hprepared ⟨rfl, rfl, rfl, rfl, fun _ _ => rfl, rfl, rfl, rfl, rfl,
        rootCache_stateAt world (buildCache_isSome _)⟩
  exact searchLoop_is_run hagrees hagrees.verificationDeferred.symm violations fun v hv =>
    List.mem_map_of_mem hv

end DRCAgent.Kernel
