/-
# The repair blueprint

`BlueprintBuilder.build` (src/drc_agent/experience/blueprint.py) with
`RepairBlueprint.validate_citations` and the models that they read and write
(src/drc_agent/schemas/experience.py): what a ranked list of retrieved experiences says about
a planning scope, as claims, actions, warnings and lessons that cite their evidence.
-/
import DRCAgent.ActiveWindow
import DRCAgent.Failures
import DRCAgent.FirstOccurrences
import DRCAgent.SortedItems

namespace DRCAgent.Blueprint

open FirstOccurrences

/-! ## The models -/

inductive ApplicabilityStatus
  | applicable | inapplicable | conditional
  deriving DecidableEq

inductive ExperienceKind
  | prior | trial | episode
  deriving DecidableEq

inductive PlanningScopeType
  | flatSubgraph | hierarchicalView | factorSummary
  deriving DecidableEq

inductive EvidenceClass
  | unverifiedPrior | candidateTrial | verifiedEpisode
  deriving DecidableEq

structure Predicate where
  predicateId : String
  kind : String

/-- `SymbolicLesson`: its identity, and the rules that it is about. -/
structure SymbolicLesson where
  lessonId : String
  prototypeId : String
  ruleIds : List String

structure RetrievedExperience where
  experienceId : String
  symbolicLessons : List SymbolicLesson
  kind : ExperienceKind
  outcome : Option String
  actionFamilies : List String
  transferRisks : List String
  applicabilityStatus : ApplicabilityStatus
  applicability : List Predicate
  avoidConditions : List Predicate
  expectedSecondaryRisks : List String
  attributionQuality : Option String

structure CoordinationRequirement where
  regionIds : List String
  requirement : String
  evidenceIds : List String

structure ExperienceQuery where
  subgraphId : String
  knowledgeCutoff : Option ℤ
  planningScopeId : Option String
  planningScopeType : PlanningScopeType
  viewIds : List String
  /-- `signature.rule_histogram` -/
  ruleHistogram : List (String × ℤ)
  allowedActionFamilies : List String
  currentCoordinationRequirements : List CoordinationRequirement

structure EvidencePack where
  queryHash : String
  items : List RetrievedExperience
  evidenceIds : List String

structure BlueprintClaim where
  claim : String
  evidenceIds : List String

/-- `BlueprintAction`, with what its validator checks. -/
structure BlueprintAction where
  actionFamily : String
  applicability : List Predicate
  avoidConditions : List Predicate
  expectedSecondaryRisks : List String
  evidenceIds : List String
  evidenceClass : EvidenceClass
  attributionQuality : Option String
  confidenceMilli : ℕ
  nonemptyApplicability : applicability ≠ []

structure BlueprintWarning where
  warning : String
  evidenceIds : List String

/-- The errors that are raised; all are `ValueError`. -/
inductive BlueprintError
  /-- "geometry action requires explicit applicability" -/
  | implicitApplicability
  /-- "every blueprint claim must cite evidence" -/
  | uncited
  /-- "unknown blueprint evidence ids: …", sorted -/
  | unknownEvidence (ids : List String)
  /-- "actions outside whitelist: …", sorted -/
  | outsideWhitelist (families : List String)

inductive ValidationStatus
  | valid | validWithMissingEvidence
  deriving DecidableEq

structure RepairBlueprint where
  blueprintId : String
  symbolicLessons : List SymbolicLesson := []
  knowledgeCutoff : Option ℤ := none
  subgraphId : String
  planningScopeId : String
  planningScopeType : PlanningScopeType
  viewIds : List String
  graphVersion : String
  querySignatureHash : String
  rootCauses : List BlueprintClaim
  preferredActions : List BlueprintAction
  conditionalActions : List BlueprintAction := []
  avoidConditions : List BlueprintWarning
  coordinationRequirements : List CoordinationRequirement
  /-- The names of the steps; each is required. -/
  verificationOrder : List String := ["syntax", "layout", "drc", "connectivity"]
  /-- The codes of the triggers; none cites evidence. -/
  rollbackTriggers : List String := ["tool_failure", "new_drc", "connectivity_failure"]
  supportingExperienceIds : List String
  supportingTrialIds : List String := []
  missingEvidence : List String
  confidenceMilli : ℕ
  generatedBy : String
  validationStatus : ValidationStatus

/-! ## What the experiences are -/

/-- `part in text` -/
def textContains (part text : String) : Bool :=
  text.toList.tails.any fun tail => part.toList.isPrefixOf tail

def RetrievedExperience.succeeded (item : RetrievedExperience) : Bool :=
  (item.kind = .episode && item.outcome = some "VERIFIED_SUCCESS") ||
    (item.kind = .trial && item.outcome = some "CLEAN_PROGRESS")

/-- The outcomes of failures that do not say so. -/
def failureOutcomes : List String :=
  ["REGRESSION", "CONNECTIVITY_FAIL", "EXECUTION_FAIL", "TIMEOUT", "NO_PROGRESS"]

def RetrievedExperience.failed (item : RetrievedExperience) : Bool :=
  item.outcome.any fun outcome => textContains "FAILURE" outcome || outcome ∈ failureOutcomes

def RetrievedExperience.direct (item : RetrievedExperience) : Bool :=
  item.attributionQuality.any fun quality =>
    quality ∈ ["DIRECT_CANDIDATE", "DIRECT_SMALL_BUNDLE", "DELTA_DEBUGGED"]

def RetrievedExperience.restricted (item : RetrievedExperience) : Bool :=
  "UNSUPPORTED_ACTIONS_PRESENT" ∈ item.transferRisks || "DIAGNOSTIC_ONLY" ∈ item.transferRisks

def RetrievedExperience.evidenceClass (item : RetrievedExperience) : EvidenceClass :=
  match item.kind with
  | .episode => .verifiedEpisode
  | .trial => .candidateTrial
  | .prior => .unverifiedPrior

def experienceIds (items : List RetrievedExperience) : List String :=
  items.map RetrievedExperience.experienceId

/-! ## The actions -/

/-- `action_evidence.items()`, sorted: the experiences that support each allowed action. -/
def actionEvidence (query : ExperienceQuery) (support : List RetrievedExperience) :
    List (String × List RetrievedExperience) :=
  Dicts.sortedItems (Dicts.collect (support.flatMap fun item =>
    (item.actionFamilies.filter fun action => action ∈ query.allowedActionFamilies).map
      fun action => (action, item)))

/-- `list({item.predicate_id: item for item in predicates}.values())` -/
def distinctPredicates (predicates : List Predicate) : List Predicate :=
  (Dicts.ofList (predicates.map fun predicate => (predicate.predicateId, predicate))).map (·.2)

/-- The experiences that support an action with the status, and say when it applies. -/
def supportWith (status : ApplicabilityStatus) (support : List RetrievedExperience) :
    List RetrievedExperience :=
  support.filter fun item => item.applicabilityStatus = status && item.applicability ≠ []

/-- The turn of an action: whether it is preferred, and the action. -/
def blueprintAction (action : String) (support : List RetrievedExperience) :
    Except BlueprintError (Option (Bool × BlueprintAction)) :=
  let applicable := supportWith .applicable support
  let chosen := if applicable ≠ [] then applicable else supportWith .conditional support
  match chosen with
  | [] => .ok none
  | first :: _ =>
    let applicability := distinctPredicates (chosen.flatMap RetrievedExperience.applicability)
    if h : applicability = [] then .error .implicitApplicability
    else .ok (some (applicable ≠ [],
      { actionFamily := action
        applicability
        avoidConditions :=
          distinctPredicates (chosen.flatMap RetrievedExperience.avoidConditions)
        expectedSecondaryRisks :=
          sortedSet (chosen.flatMap RetrievedExperience.expectedSecondaryRisks)
        evidenceIds := (firsts (experienceIds chosen)).take 4
        evidenceClass := first.evidenceClass
        attributionQuality := first.attributionQuality
        confidenceMilli := if applicable ≠ [] then 850 else 350
        nonemptyApplicability := h }))

/-! ## The claims and warnings -/

/-- `root_causes` -/
def rootCauses (priors successes : List RetrievedExperience) : List BlueprintClaim :=
  (if priors ≠ [] then [{
    claim := "Curated prior knowledge identifies conditional physical repair mechanisms for " ++
      "this bounded scope."
    evidenceIds := experienceIds (priors.take 4) }] else []) ++
  (if successes ≠ [] then [{
    claim := "Analogous fresh verified evidence supports a bounded edit."
    evidenceIds := experienceIds (successes.take 3) }] else [])

/-- `warnings` -/
def warnings (failures priors : List RetrievedExperience) : List BlueprintWarning :=
  let direct := failures.filter RetrievedExperience.direct
  let restricted := priors.filter RetrievedExperience.restricted
  (if failures ≠ [] then [{
    warning := if direct ≠ [] then "Direct tool evidence reports a failure in this context."
      else "Bundle-level evidence reports a failure without candidate-specific causality."
    evidenceIds := experienceIds ((if direct ≠ [] then direct else failures).take 4) }] else []) ++
  (if restricted ≠ [] then [{
    warning := "Backend-restricted prior actions are diagnostic only and must not be lowered " ++
      "on this backend."
    evidenceIds := experienceIds (restricted.take 4) }] else [])

/-- `missing` -/
def missingEvidence (successes failures : List RetrievedExperience)
    (conditional : List BlueprintAction) : List String :=
  (if successes = [] then ["verified_success"] else []) ++
    (if failures = [] then ["contrastive_failure"] else []) ++
    (if conditional ≠ [] then ["conditional_action_predicates"] else [])

/-! ## The lessons -/

/-- `set(lesson.rule_ids).intersection(query.signature.rule_histogram)` -/
def SymbolicLesson.matchesRules (query : ExperienceQuery) (lesson : SymbolicLesson) : Bool :=
  lesson.ruleIds.any fun ruleId => ruleId ∈ query.ruleHistogram.map (·.1)

/-- The lessons of an item that count, under their prototypes. -/
def lessonEntries (query : ExperienceQuery) (item : RetrievedExperience) :
    List (String × SymbolicLesson) :=
  if item.applicabilityStatus ≠ .inapplicable then
    (item.symbolicLessons.filter fun lesson => lesson.matchesRules query).map
      fun lesson => (lesson.prototypeId, lesson)
  else []

/-- `symbolic_lessons`: the first eight values of the dictionary over the reversed list. -/
def symbolicLessons (query : ExperienceQuery) (items : List RetrievedExperience) :
    List SymbolicLesson :=
  ((Dicts.ofList (items.reverse.flatMap (lessonEntries query))).map (·.2)).take 8

/-! ## The blueprint -/

/-- The evidence that the claims of a blueprint cite. -/
def RepairBlueprint.citations (blueprint : RepairBlueprint) : List (List String) :=
  blueprint.rootCauses.map BlueprintClaim.evidenceIds ++
    blueprint.preferredActions.map BlueprintAction.evidenceIds ++
    blueprint.conditionalActions.map BlueprintAction.evidenceIds ++
    blueprint.avoidConditions.map BlueprintWarning.evidenceIds ++
    blueprint.coordinationRequirements.map CoordinationRequirement.evidenceIds

/-- `validate_citations` -/
def RepairBlueprint.validateCitations (blueprint : RepairBlueprint)
    (allowedIds actionWhitelist : List String) : Except BlueprintError PUnit :=
  let unknown := blueprint.citations.flatten.filter fun id => id ∉ allowedIds
  let outside := ((blueprint.preferredActions ++ blueprint.conditionalActions).map
    BlueprintAction.actionFamily).filter fun family => family ∉ actionWhitelist
  if [] ∈ blueprint.citations then .error .uncited
  else if unknown ≠ [] then .error (.unknownEvidence (sortedSet unknown))
  else if outside ≠ [] then .error (.outsideWhitelist (sortedSet outside))
  else .ok ⟨⟩

/-- `query.planning_scope_id or query.subgraph_id` -/
def scopeId (query : ExperienceQuery) : String :=
  (query.planningScopeId.filter fun id => id ≠ "").getD query.subgraphId

/-- `RepairBlueprint.empty`, with the scope of the query. -/
def emptyBlueprint (query : ExperienceQuery) : RepairBlueprint where
  blueprintId := query.subgraphId ++ ":empty"
  subgraphId := query.subgraphId
  planningScopeId := scopeId query
  planningScopeType := query.planningScopeType
  viewIds := query.viewIds
  graphVersion := "NONE"
  querySignatureHash := String.ofList (List.replicate 64 '0')
  rootCauses := []
  preferredActions := []
  avoidConditions := []
  coordinationRequirements := []
  supportingExperienceIds := []
  missingEvidence := ["no_applicable_experience"]
  confidenceMilli := 0
  generatedBy := "EMPTY"
  validationStatus := .validWithMissingEvidence

/-- The blueprint of the actions, before its citations are validated. -/
def blueprintOf (blueprintHash : ExperienceQuery → EvidencePack → String)
    (query : ExperienceQuery) (evidence : EvidencePack) (actions : List (Bool × BlueprintAction)) :
    RepairBlueprint :=
  let successes := evidence.items.filter RetrievedExperience.succeeded
  let failures := evidence.items.filter RetrievedExperience.failed
  let priors := evidence.items.filter fun item => item.kind = .prior
  let trials := evidence.items.filter fun item => item.kind = .trial
  let conditional := ((actions.filter fun action => !action.1).map (·.2)).take 3
  let missing := missingEvidence successes failures conditional
  { blueprintId := "blueprint_" ++ blueprintHash query evidence
    knowledgeCutoff := query.knowledgeCutoff
    symbolicLessons := symbolicLessons query evidence.items
    subgraphId := query.subgraphId
    planningScopeId := scopeId query
    planningScopeType := query.planningScopeType
    viewIds := query.viewIds
    graphVersion := "v2"
    querySignatureHash := evidence.queryHash
    rootCauses := rootCauses priors successes
    preferredActions := ((actions.filter fun action => action.1).map (·.2)).take 3
    conditionalActions := conditional
    avoidConditions := warnings failures priors
    coordinationRequirements := query.currentCoordinationRequirements
    supportingExperienceIds :=
      sortedSet (experienceIds (evidence.items.filter fun item => item.kind ≠ .trial))
    supportingTrialIds := sortedSet (experienceIds trials)
    missingEvidence := missing
    confidenceMilli :=
      min 900 (100 + priors.length * 30 + successes.length * 120 + trials.length * 80)
    generatedBy := "DETERMINISTIC"
    validationStatus := if missing ≠ [] then .validWithMissingEvidence else .valid }

/-- `BlueprintBuilder.build`; `blueprintHash` stands for the first digits of the hash of the
query and the evidence. -/
def build (blueprintHash : ExperienceQuery → EvidencePack → String) (query : ExperienceQuery)
    (evidence : EvidencePack) : Except BlueprintError RepairBlueprint :=
  if evidence.items = [] ∧ query.currentCoordinationRequirements = [] then
    .ok (emptyBlueprint query)
  else do
    let priors := evidence.items.filter fun item => item.kind = .prior
    let support := evidence.items.filter RetrievedExperience.succeeded ++ priors
    let actions ← (actionEvidence query support).mapM fun entry => blueprintAction entry.1 entry.2
    let blueprint := blueprintOf blueprintHash query evidence (actions.filterMap id)
    blueprint.validateCitations evidence.evidenceIds query.allowedActionFamilies
    return blueprint

end DRCAgent.Blueprint
