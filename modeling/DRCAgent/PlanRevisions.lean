/-
# Revisions of a plan after execution feedback

`validate_execution_feedback_revision` (plan_binding.py) and the ids that
`KernelRepairPlan` gives itself (llm_planner.py).

After `PREFERRED_DOF_INFEASIBLE` a preference must be one of the proved alternatives, but
it may be forbidden at the same time. A revision that changes nothing is declined only
behind the other checks of its kind, which it may fail. And the id of a plan that comes
without one is a hash of some of its fields, and not of all that a revision may change.

Main results:

* `accepted_feasible_iff`: an accepted revision can be executed exactly when it does not
  forbid what it prefers.
* `unchanged_declined_iff`: when a revision that changes nothing is declined.
* `automatic_ids_separate_iff`: when two plans get different ids, and what becomes of a
  revision otherwise.
-/
import DRCAgent.Failures
import DRCAgent.PlanAuthority

namespace DRCAgent.Kernel

open List Failures

/-! ## The proof of a feedback -/

section Proof

variable {sets : List (List String)} {bounds : List OperationBound} {option : Finset String}

/-- `alternatives` -/
def alternativesOf (sets : List (List String)) : List (Finset String) :=
  (sets.filter fun option => !option.isEmpty).map (·.toFinset)

theorem mem_alternativesOf :
    option ∈ alternativesOf sets ↔ ∃ ids ∈ sets, ids ≠ [] ∧ ids.toFinset = option := by
  rw [alternativesOf, mem_map]
  simp only [mem_filter, Bool.not_eq_true', isEmpty_eq_false_iff, and_assoc]

/-- A bound is one of an alternative, and possible. -/
def BoundValid (alternatives : List (Finset String)) (b : OperationBound) : Prop :=
  b.dofIds.toFinset ∈ alternatives ∧ 1 ≤ b.minimumMaxOperationCount ∧
    b.minimumMaxOperationCount ≤ 4

/-- The least of the bounds of a set. -/
def leastBound (bounds : List OperationBound) (option : Finset String) : Option ℕ :=
  ((bounds.filter fun b => b.dofIds.toFinset = option).map (·.minimumMaxOperationCount)).min?

theorem leastBound_eq_some {count : ℕ} : leastBound bounds option = some count ↔
    (∃ b ∈ bounds, b.dofIds.toFinset = option ∧ b.minimumMaxOperationCount = count) ∧
      ∀ b ∈ bounds, b.dofIds.toFinset = option → count ≤ b.minimumMaxOperationCount := by
  rw [leastBound, min?_eq_some_iff]
  simp only [mem_map, mem_filter, decide_eq_true_eq, and_assoc, forall_exists_index, and_imp]
  refine and_congr_right fun _ => ⟨fun h b hb hset => h _ b hb hset rfl, ?_⟩
  rintro h count b hb hset rfl
  exact h b hb hset

theorem leastBound_eq_none :
    leastBound bounds option = none ↔ ∀ b ∈ bounds, b.dofIds.toFinset ≠ option := by
  rw [leastBound, min?_eq_none_iff, map_eq_nil_iff, filter_eq_nil_iff]
  simp only [decide_eq_true_eq, ne_eq]

theorem leastBound_concat (b : OperationBound) : leastBound (bounds ++ [b]) option =
    if option = b.dofIds.toFinset then
      some (min b.minimumMaxOperationCount
        ((leastBound bounds option).getD b.minimumMaxOperationCount))
    else leastBound bounds option := by
  by_cases hoption : option = b.dofIds.toFinset
  · subst hoption
    rw [if_pos rfl, leastBound_eq_some]
    cases hleast : leastBound bounds b.dofIds.toFinset with
    | none =>
      rw [leastBound_eq_none] at hleast
      rw [Option.getD_none, min_self]
      refine ⟨⟨b, by simp, rfl, rfl⟩, fun other hother hset => ?_⟩
      rcases mem_append.1 hother with hother | hother
      · exact absurd hset (hleast other hother)
      · rw [mem_singleton.1 hother]
    | some count =>
      obtain ⟨⟨first, hfirst, hset, hcount⟩, hle⟩ := leastBound_eq_some.1 hleast
      rw [Option.getD_some]
      constructor
      · rcases le_total b.minimumMaxOperationCount count with hmin | hmin
        · exact ⟨b, by simp, rfl, (min_eq_left hmin).symm⟩
        · exact ⟨first, mem_append_left _ hfirst, hset, hcount.trans (min_eq_right hmin).symm⟩
      · intro other hother hset'
        rcases mem_append.1 hother with hother | hother
        · exact (min_le_right _ _).trans (hle other hother hset')
        · rw [mem_singleton.1 hother]
          exact min_le_left _ _
  · rw [if_neg hoption, leastBound, leastBound, filter_append]
    have hlast : [b].filter (fun b => decide (b.dofIds.toFinset = option)) = [] := by
      simp [Ne.symm hoption]
    rw [hlast, append_nil]

/-- One turn of the loop of `operationBounds`. -/
def boundStep (alternatives : List (Finset String)) (proved : List (Finset String × ℕ))
    (b : OperationBound) : Except String (List (Finset String × ℕ)) :=
  if b.dofIds.toFinset ∉ alternatives ∨ b.minimumMaxOperationCount < 1 ∨
      4 < b.minimumMaxOperationCount then
    .error "EXECUTION_REVISION_OPERATION_BOUND_PROOF_INVALID"
  else .ok (Dicts.insert b.dofIds.toFinset (min b.minimumMaxOperationCount
    ((proved.lookup b.dofIds.toFinset).getD b.minimumMaxOperationCount)) proved)

theorem operationBounds_eq (alternatives : List (Finset String)) (bounds : List OperationBound) :
    operationBounds alternatives bounds = bounds.foldlM (boundStep alternatives) [] := rfl

/-- **The bounds by their sets**: every bound must be valid, and the least counts. -/
theorem operationBounds_eq_ok {alternatives : List (Finset String)}
    {proved : List (Finset String × ℕ)} :
    operationBounds alternatives bounds = .ok proved →
      (∀ b ∈ bounds, BoundValid alternatives b) ∧
        ∀ option, proved.lookup option = leastBound bounds option := by
  have hrun : ∀ (rest before : List OperationBound) (start : List (Finset String × ℕ)),
      (∀ option, start.lookup option = leastBound before option) →
      rest.foldlM (boundStep alternatives) start = .ok proved →
      (∀ b ∈ rest, BoundValid alternatives b) ∧
        ∀ option, proved.lookup option = leastBound (before ++ rest) option := by
    intro rest
    induction rest with
    | nil =>
      intro before start hstart h
      obtain rfl := Except.ok.inj h
      exact ⟨fun _ hb => (nomatch hb), by rwa [append_nil]⟩
    | cons b rest ih =>
      intro before start hstart h
      rw [foldlM_cons, boundStep] at h
      obtain ⟨next, hnext, h⟩ := bind_eq_ok.1 h
      split_ifs at hnext with hinvalid
      obtain rfl := Except.ok.inj hnext
      rw [not_or, not_or, not_not, not_lt, not_lt] at hinvalid
      obtain ⟨hvalid, hrest⟩ := ih (before ++ [b]) _ (fun option => by
        rw [Dicts.lookup_insert, leastBound_concat, hstart, hstart]
        by_cases hoption : option = b.dofIds.toFinset
        · rw [if_pos hoption, if_pos hoption, hoption]
        · rw [if_neg hoption, if_neg hoption]) h
      rw [append_assoc] at hrest
      refine ⟨fun other hother => ?_, hrest⟩
      rcases mem_cons.1 hother with rfl | hother
      · exact hinvalid
      · exact hvalid other hother
  intro h
  rw [operationBounds_eq] at h
  exact hrun bounds [] [] (fun option => rfl) h

/-- Valid bounds are read. -/
theorem exists_operationBounds {alternatives : List (Finset String)}
    (h : ∀ b ∈ bounds, BoundValid alternatives b) :
    ∃ proved, operationBounds alternatives bounds = .ok proved := by
  rw [operationBounds_eq]
  generalize ([] : List (Finset String × ℕ)) = start
  induction bounds generalizing start with
  | nil => exact ⟨start, rfl⟩
  | cons b rest ih =>
    obtain ⟨hmem, hone, hfour⟩ := h b mem_cons_self
    rw [foldlM_cons, boundStep, if_neg (by simp only [not_or, not_not, not_lt]; exact
      ⟨hmem, hone, hfour⟩)]
    exact ih (fun other hother => h other (mem_cons_of_mem _ hother)) _

end Proof

/-! ## The checks of an infeasible preference -/

section Preferred

variable (original revised : KernelRepairPlan) (allowed : AllowedIds) (sets : List (List String))
  (bounds : List OperationBound)

/-- `viable` -/
def viableSets : List (Finset String) :=
  if revised.preferredDofIds.toFinset = ∅ then
    (alternativesOf sets).filter fun option =>
      decide (Disjoint option revised.forbiddenDofIds.toFinset)
  else [revised.preferredDofIds.toFinset]

/-- `proved_required` -/
def provedRequired : List ℕ := (viableSets revised sets).filterMap (leastBound bounds)

/-- The fields of the kind differ. -/
def preferredChanges : Bool :=
  decide (revised.preferredDofIds ≠ original.preferredDofIds) ||
    decide (revised.forbiddenDofIds ≠ original.forbiddenDofIds) ||
      decide (revised.maxOperationCount ≠ original.maxOperationCount)

/-- What a revision after `PREFERRED_DOF_INFEASIBLE` has to pass. -/
structure PreferredChecks : Prop where
  proof : alternativesOf sets ≠ []
  boundsValid : ∀ b ∈ bounds, BoundValid (alternativesOf sets) b
  known : ∀ id ∈ revised.preferredDofIds ++ revised.forbiddenDofIds, id ∈ allowed.dofIds
  kept : ∀ id ∈ revised.forbiddenDofIds, id ∈ original.forbiddenDofIds
  unforbidden : ∀ id ∈ original.forbiddenDofIds, id ∉ revised.forbiddenDofIds →
    ∃ ids ∈ sets, id ∈ ids
  proved : revised.preferredDofIds ≠ [] →
    revised.preferredDofIds.toFinset ∈ alternativesOf sets
  viable : revised.preferredDofIds = [] → ∃ option ∈ alternativesOf sets,
    Disjoint option revised.forbiddenDofIds.toFinset
  count : operationCountError original revised (provedRequired revised sets bounds) = none

variable {original revised allowed sets bounds} {decision : RevisionDecision}

theorem alternatives_isEmpty : (alternativesOf sets).isEmpty = true ↔ alternativesOf sets = [] :=
  List.isEmpty_iff

theorem decideRevision_ok {changes : Bool} :
    decideRevision original revised changes = .ok decision ↔
    (changes = false ∧ decision = .declined) ∨
      (changes = true ∧ revised.planId ≠ original.planId ∧ decision = .accepted) := by
  rw [decideRevision]
  cases changes with
  | false => simp [eq_comm]
  | true =>
    by_cases hid : revised.planId = original.planId
    · simp [hid]
    · simp [hid, eq_comm]

/-- **When a revision of a preference is decided.** -/
theorem validatePreferred_eq_ok :
    validatePreferred original revised allowed sets bounds = .ok decision ↔
      PreferredChecks original revised allowed sets bounds ∧
        decideRevision original revised (preferredChanges original revised) = .ok decision := by
  have hpreferred : revised.preferredDofIds.toFinset = ∅ ↔ revised.preferredDofIds = [] :=
    toFinset_eq_empty_iff _
  unfold validatePreferred
  dsimp only
  rw [← alternativesOf, guard_eq_ok, alternatives_isEmpty]
  cases hbounds : operationBounds (alternativesOf sets) bounds with
  | error e =>
    refine ⟨fun h => (nomatch h.2), fun h => ?_⟩
    obtain ⟨proved, hproved⟩ := exists_operationBounds h.1.boundsValid
    rw [hbounds] at hproved
    cases hproved
  | ok proved =>
    obtain ⟨hvalid, hlookup⟩ := operationBounds_eq_ok hbounds
    have hrequired : (viableSets revised sets).filterMap (fun option => proved.lookup option) =
        provedRequired revised sets bounds :=
      filterMap_congr fun option _ => hlookup option
    have hviable : (if revised.preferredDofIds.toFinset = ∅ then
        (alternativesOf sets).filter fun option =>
          decide (Disjoint option revised.forbiddenDofIds.toFinset)
        else [revised.preferredDofIds.toFinset]) = viableSets revised sets := rfl
    dsimp only
    rw [guard_eq_ok, guard_eq_ok, guard_eq_ok, guard_eq_ok, guard_eq_ok, hviable, hrequired,
      ← preferredChanges]
    cases hcount : operationCountError original revised (provedRequired revised sets bounds) with
    | some e =>
      refine ⟨fun h => (nomatch h.2.2.2.2.2.2), fun h => ?_⟩
      rw [h.1.count] at hcount
      cases hcount
    | none =>
      simp only [Bool.not_eq_true', Bool.not_eq_false, List.isEmpty_iff,
        sortedDifference_eq_nil, not_and, not_not, ne_eq, hpreferred, filter_eq_nil_iff,
        mem_sortedDifference, any_eq_true, contains_iff_mem, decide_eq_true_eq,
        not_forall, and_imp, exists_prop]
      constructor
      · rintro ⟨hproof, hknown, hkept, hunforbidden, hin, hopen, hdecide⟩
        exact ⟨⟨hproof, hvalid, hknown, hkept, hunforbidden, hin, hopen, hcount⟩, hdecide⟩
      · rintro ⟨⟨hproof, -, hknown, hkept, hunforbidden, hin, hopen, -⟩, hdecide⟩
        exact ⟨hproof, hknown, hkept, hunforbidden, hin, hopen, hdecide⟩

/-- The lowest of the bounds admits the plan, if there is any. -/
theorem operationCountError_none {proved : List ℕ}
    (h : operationCountError original revised proved = none) :
    proved = [] ∨ ∃ count ∈ proved, count ≤ revised.maxOperationCount := by
  unfold operationCountError at h
  cases hmin : proved.min? with
  | none => exact .inl (min?_eq_none_iff.1 hmin)
  | some minimum =>
    have hmem := (min?_eq_some_iff.1 hmin).1
    rw [hmin] at h
    dsimp only at h
    refine .inr ⟨minimum, hmem, ?_⟩
    split_ifs at h with hchanged hless hequal hless
    · rw [not_not] at hequal
      exact hequal.ge
    · exact not_lt.1 hless

/-- An unchanged operation count passes when one of the bounds admits it. -/
theorem operationCountError_same {proved : List ℕ}
    (hsame : revised.maxOperationCount = original.maxOperationCount) :
    operationCountError original revised proved = none ↔
      (proved = [] ∨ ∃ count ∈ proved, count ≤ original.maxOperationCount) := by
  refine ⟨fun h => hsame ▸ operationCountError_none h, fun h => ?_⟩
  rw [operationCountError, if_neg (not_not.2 hsame)]
  cases hmin : proved.min? with
  | none => rfl
  | some minimum =>
    obtain ⟨hmem, hle⟩ := min?_eq_some_iff.1 hmin
    rcases h with rfl | ⟨count, hcount, hadmits⟩
    · cases hmem
    · exact if_neg (not_lt.2 ((hle count hcount).trans (hadmits.trans hsame.ge)))

theorem mem_viableSets {option : Finset String} : option ∈ viableSets revised sets ↔
    (revised.preferredDofIds = [] ∧ option ∈ alternativesOf sets ∧
        Disjoint option revised.forbiddenDofIds.toFinset) ∨
      (revised.preferredDofIds ≠ [] ∧ option = revised.preferredDofIds.toFinset) := by
  rw [viableSets]
  split_ifs with hpreferred
  all_goals rw [toFinset_eq_empty_iff] at hpreferred
  · simp [hpreferred]
  · simp [hpreferred]

theorem mem_provedRequired {count : ℕ} : count ∈ provedRequired revised sets bounds ↔
    ∃ option ∈ viableSets revised sets, leastBound bounds option = some count := by
  rw [provedRequired, mem_filterMap]

end Preferred

/-! ## The scope of a revision -/

section Scope

variable {original revised : KernelRepairPlan} {kind : FeedbackKind} {allowed : AllowedIds}
  {configuredMaxDepth : ℕ} {sets : List (List String)} {bounds : List OperationBound}
  {decision : RevisionDecision}

/-- The checks that each kind of feedback makes of a revision in its scope. -/
def validateKind (original revised : KernelRepairPlan) (kind : FeedbackKind)
    (allowed : AllowedIds) (configuredMaxDepth : ℕ) (sets : List (List String))
    (bounds : List OperationBound) : Except String RevisionDecision :=
  match kind with
  | .preferredDofInfeasible => validatePreferred original revised allowed sets bounds
  | .physicalConstraintFailure => validatePhysical original revised allowed
  | .depthExtensionAvailable => validateDepth original revised configuredMaxDepth

/-- A revision changes what its kind may change only. -/
structure InScope (original revised : KernelRepairPlan) (kind : FeedbackKind) : Prop where
  fields : ∀ field ∈ changedFields original revised, field ∈ mutableFields kind
  forbidden : kind ≠ .preferredDofInfeasible →
    revised.forbiddenDofIds = original.forbiddenDofIds

theorem validateExecutionFeedbackRevision_eq_ok :
    validateExecutionFeedbackRevision original revised kind allowed configuredMaxDepth sets
        bounds = .ok decision ↔
      InScope original revised kind ∧
        validateKind original revised kind allowed configuredMaxDepth sets bounds =
          .ok decision := by
  unfold validateExecutionFeedbackRevision
  dsimp only
  rw [guard_eq_ok, guard_eq_ok, Bool.not_eq_true, Bool.not_eq_false', List.isEmpty_iff,
    filter_eq_nil_iff, ← and_assoc]
  refine and_congr ⟨fun h => ⟨fun field hfield => ?_, fun hkind => ?_⟩, fun h => ?_⟩ Iff.rfl
  · have hopen := h.1 field hfield
    rwa [Bool.not_eq_true', Bool.not_eq_false, contains_iff_mem] at hopen
  · by_contra hne
    exact h.2 ⟨hkind, hne⟩
  · refine ⟨fun field hfield => ?_, fun hne => hne.2 (h.forbidden hne.1)⟩
    rw [Bool.not_eq_true', Bool.not_eq_false, contains_iff_mem]
    exact h.fields field hfield

/-! ## An infeasible preference -/

/-- The revised plan can be executed. -/
structure Feasible (original revised : KernelRepairPlan) (sets : List (List String))
    (bounds : List OperationBound) : Prop where
  scope : ∀ field ∈ changedFields original revised,
    field ∈ mutableFields .preferredDofInfeasible
  forbids : ∀ id ∈ revised.forbiddenDofIds, id ∈ original.forbiddenDofIds
  unforbids : ∀ id ∈ original.forbiddenDofIds, id ∉ revised.forbiddenDofIds →
    ∃ option ∈ alternativesOf sets, id ∈ option
  executable : ∃ option ∈ alternativesOf sets,
    (revised.preferredDofIds ≠ [] → option = revised.preferredDofIds.toFinset) ∧
      Disjoint option revised.forbiddenDofIds.toFinset ∧
      ∀ least, leastBound bounds option = some least → least ≤ revised.maxOperationCount

/-- One of the viable sets has a bound that admits the plan, or none. -/
theorem exists_admitted (hchecks : PreferredChecks original revised allowed sets bounds)
    (hviable : ∃ option, option ∈ viableSets revised sets) :
    ∃ option ∈ viableSets revised sets, ∀ least, leastBound bounds option = some least →
      least ≤ revised.maxOperationCount := by
  rcases operationCountError_none hchecks.count with hnone | ⟨count, hcount, hle⟩
  · obtain ⟨option, hoption⟩ := hviable
    refine ⟨option, hoption, fun least hleast => ?_⟩
    have hmem := mem_provedRequired.2 ⟨option, hoption, hleast⟩
    rw [hnone] at hmem
    cases hmem
  · obtain ⟨option, hoption, hbound⟩ := mem_provedRequired.1 hcount
    refine ⟨option, hoption, fun least hleast => ?_⟩
    obtain rfl := Option.some.inj (hbound.symm.trans hleast)
    exact hle

/-- **An accepted revision can be executed** exactly when it forbids nothing that it
prefers. -/
theorem accepted_feasible_iff
    (h : validateExecutionFeedbackRevision original revised .preferredDofInfeasible allowed
      configuredMaxDepth sets bounds = .ok .accepted) :
    Feasible original revised sets bounds ↔
      ∀ id ∈ revised.preferredDofIds, id ∉ revised.forbiddenDofIds := by
  obtain ⟨hscope, hkind⟩ := validateExecutionFeedbackRevision_eq_ok.1 h
  obtain ⟨hchecks, -⟩ := validatePreferred_eq_ok.1 hkind
  have hdisjoint : Disjoint revised.preferredDofIds.toFinset revised.forbiddenDofIds.toFinset ↔
      ∀ id ∈ revised.preferredDofIds, id ∉ revised.forbiddenDofIds := by
    rw [Finset.disjoint_left]
    simp only [mem_toFinset]
  constructor
  · rintro ⟨-, -, -, option, -, hoption, hopen, -⟩ id hid
    obtain rfl := hoption (ne_nil_of_mem hid)
    exact hdisjoint.1 hopen id hid
  · intro hclean
    refine ⟨hscope.fields, hchecks.kept, fun id hid hfree => ?_, ?_⟩
    · obtain ⟨ids, hids, hmem⟩ := hchecks.unforbidden id hid hfree
      exact ⟨ids.toFinset, mem_alternativesOf.2 ⟨ids, hids, ne_nil_of_mem hmem, rfl⟩,
        mem_toFinset.2 hmem⟩
    · by_cases hpreferred : revised.preferredDofIds = []
      · -- no preference: one of the open alternatives has to do
        obtain ⟨option, hoption, hopen⟩ := hchecks.viable hpreferred
        obtain ⟨option, hviable, hadmits⟩ := exists_admitted hchecks
          ⟨option, mem_viableSets.2 (.inl ⟨hpreferred, hoption, hopen⟩)⟩
        rcases mem_viableSets.1 hviable with ⟨-, hmem, hdisj⟩ | ⟨hne, -⟩
        · exact ⟨option, hmem, fun hne => absurd hpreferred hne, hdisj, hadmits⟩
        · exact absurd hpreferred hne
      · obtain ⟨option, hviable, hadmits⟩ := exists_admitted hchecks
          ⟨_, mem_viableSets.2 (.inr ⟨hpreferred, rfl⟩)⟩
        rcases mem_viableSets.1 hviable with ⟨hnil, -⟩ | ⟨-, rfl⟩
        · exact absurd hnil hpreferred
        · exact ⟨_, hchecks.proved hpreferred, fun _ => rfl, hdisjoint.2 hclean, hadmits⟩

/-! ## A revision that changes nothing -/

/-- The plans agree but for what every revision may change. -/
structure SameSemantics (original revised : KernelRepairPlan) : Prop where
  targetViolationIds : revised.targetViolationIds = original.targetViolationIds
  targetWitnessIds : revised.targetWitnessIds = original.targetWitnessIds
  targetRelation : revised.targetRelation = original.targetRelation
  preferredParticipantIds : revised.preferredParticipantIds = original.preferredParticipantIds
  preferredDofIds : revised.preferredDofIds = original.preferredDofIds
  forbiddenDofIds : revised.forbiddenDofIds = original.forbiddenDofIds
  strategy : revised.strategy = original.strategy
  fallbackStrategy : revised.fallbackStrategy = original.fallbackStrategy
  maxOperationCount : revised.maxOperationCount = original.maxOperationCount
  maxTrajectoryDepth : revised.maxTrajectoryDepth = original.maxTrajectoryDepth
  coordinationRequest : revised.coordinationRequest = original.coordinationRequest

/-- What a revision after `PHYSICAL_CONSTRAINT_FAILURE` may change. -/
def physicalFields : List String :=
  ["preferred_participant_ids", "preferred_dof_ids", "strategy", "fallback_strategy",
    "max_operation_count", "coordination_request"]

/-- The original plan passes the checks of the kind itself. -/
def StillValid (original : KernelRepairPlan) (kind : FeedbackKind) (allowed : AllowedIds)
    (configuredMaxDepth : ℕ) (sets : List (List String)) (bounds : List OperationBound) : Prop :=
  match kind with
  | .preferredDofInfeasible =>
    (∃ option ∈ viableSets original sets, option ∈ alternativesOf sets) ∧
      (∀ b ∈ bounds, BoundValid (alternativesOf sets) b) ∧
      (∀ id ∈ original.preferredDofIds ++ original.forbiddenDofIds, id ∈ allowed.dofIds) ∧
      ((∀ option ∈ viableSets original sets, leastBound bounds option = none) ∨
        ∃ option ∈ viableSets original sets, ∃ least, leastBound bounds option = some least ∧
          least ≤ original.maxOperationCount)
  | .physicalConstraintFailure =>
    (∀ id ∈ original.preferredParticipantIds, id ∈ allowed.participantIds) ∧
      ∀ id ∈ original.preferredDofIds, id ∈ allowed.dofIds
  | .depthExtensionAvailable => original.maxTrajectoryDepth ≤ configuredMaxDepth

theorem SameSemantics.eq (h : SameSemantics original revised) : revised =
    { original with
      planId := revised.planId
      rationaleEvidenceIds := revised.rationaleEvidenceIds
      confidenceMilli := revised.confidenceMilli } := by
  obtain ⟨h1, h2, h3, h4, h5, h6, h7, h8, h9, h10, h11⟩ := h
  cases revised
  cases original
  dsimp only at h1 h2 h3 h4 h5 h6 h7 h8 h9 h10 h11
  subst h1 h2 h3 h4 h5 h6 h7 h8 h9 h10 h11
  rfl

theorem SameSemantics.changed (h : SameSemantics original revised) :
    ∀ field ∈ changedFields original revised,
      field ∈ ["plan_id", "rationale_evidence_ids", "confidence_milli"] := by
  intro field hfield
  rw [h.eq] at hfield
  obtain ⟨⟨name, differs⟩, hmem, rfl⟩ := mem_map.1 hfield
  obtain ⟨hmem, hdiffers⟩ := mem_filter.1 hmem
  simp only [ne_eq, not_true_eq_false, decide_false, mem_cons, Prod.mk.injEq,
    not_mem_nil, or_false] at hmem hdiffers
  subst hdiffers
  simp only [Bool.true_eq_false, and_false, false_or] at hmem
  simp only [mem_cons, not_mem_nil, or_false]
  rcases hmem with hmem | hmem | hmem
  · exact .inl hmem.1
  · exact .inr (.inl hmem.1)
  · exact .inr (.inr hmem.1)

/-- A revision that changes nothing is in the scope of every kind. -/
theorem SameSemantics.inScope (h : SameSemantics original revised) :
    InScope original revised kind where
  fields := fun field hfield => mem_append_left _ (h.changed field hfield)
  forbidden := fun _ => h.forbiddenDofIds

theorem decideRevision_unchanged {changes : Bool} (h : changes = false) :
    decideRevision original revised changes = .ok decision ↔ decision = .declined := by
  rw [decideRevision_ok, h]
  simp

theorem preferredChecks_unchanged (h : SameSemantics original revised) :
    PreferredChecks original revised allowed sets bounds ↔
      StillValid original .preferredDofInfeasible allowed configuredMaxDepth sets bounds := by
  have hviable : viableSets revised sets = viableSets original sets := by
    rw [viableSets, h.preferredDofIds, h.forbiddenDofIds, viableSets]
  have hcount : operationCountError original revised (provedRequired revised sets bounds) = none ↔
      ((∀ option ∈ viableSets original sets, leastBound bounds option = none) ∨
        ∃ option ∈ viableSets original sets, ∃ least, leastBound bounds option = some least ∧
          least ≤ original.maxOperationCount) := by
    rw [operationCountError_same h.maxOperationCount, provedRequired, hviable, filterMap_eq_nil_iff]
    refine or_congr_right ⟨?_, ?_⟩
    · rintro ⟨count, hmem, hle⟩
      obtain ⟨option, hoption, hleast⟩ := mem_filterMap.1 hmem
      exact ⟨option, hoption, count, hleast, hle⟩
    · rintro ⟨option, hoption, count, hleast, hle⟩
      exact ⟨count, mem_filterMap.2 ⟨option, hoption, hleast⟩, hle⟩
  constructor
  · intro hchecks
    refine ⟨?_, hchecks.boundsValid, ?_, hcount.1 hchecks.count⟩
    · by_cases hpreferred : revised.preferredDofIds = []
      · obtain ⟨option, hoption, hopen⟩ := hchecks.viable hpreferred
        exact ⟨option, hviable ▸ mem_viableSets.2 (.inl ⟨hpreferred, hoption, hopen⟩), hoption⟩
      · exact ⟨_, hviable ▸ mem_viableSets.2 (.inr ⟨hpreferred, rfl⟩), hchecks.proved hpreferred⟩
    · rw [← h.preferredDofIds, ← h.forbiddenDofIds]
      exact hchecks.known
  · rintro ⟨⟨option, hoption, hproved⟩, hvalid, hknown, hbound⟩
    rw [← hviable] at hoption
    refine ⟨ne_nil_of_mem hproved, hvalid, ?_, fun id hid => h.forbiddenDofIds ▸ hid,
      fun id hid hfree => absurd (h.forbiddenDofIds ▸ hid) hfree, fun hne => ?_, fun hnil => ?_,
      hcount.2 hbound⟩
    · rw [h.preferredDofIds, h.forbiddenDofIds]
      exact hknown
    · rcases mem_viableSets.1 hoption with ⟨hnil, -⟩ | ⟨-, rfl⟩
      · exact absurd hnil hne
      · exact hproved
    · rcases mem_viableSets.1 hoption with ⟨-, hmem, hopen⟩ | ⟨hne, -⟩
      · exact ⟨option, hmem, hopen⟩
      · exact absurd hnil hne

/-- **When a revision that changes nothing is declined**: when the plan passes the checks of
the kind as it is. It is accepted in no case. -/
theorem unchanged_declined_iff (h : SameSemantics original revised) :
    (validateExecutionFeedbackRevision original revised kind allowed configuredMaxDepth sets
        bounds = .ok .declined ↔
      StillValid original kind allowed configuredMaxDepth sets bounds) ∧
    validateExecutionFeedbackRevision original revised kind allowed configuredMaxDepth sets
      bounds ≠ .ok .accepted := by
  have hiff : ∀ decision, validateExecutionFeedbackRevision original revised kind allowed
      configuredMaxDepth sets bounds = .ok decision ↔
      StillValid original kind allowed configuredMaxDepth sets bounds ∧ decision = .declined := by
    intro decision
    rw [validateExecutionFeedbackRevision_eq_ok, and_iff_right h.inScope]
    cases kind with
    | preferredDofInfeasible =>
      have hsame : preferredChanges original revised = false := by
        simp [preferredChanges, h.preferredDofIds, h.forbiddenDofIds, h.maxOperationCount]
      exact validatePreferred_eq_ok.trans
        (and_congr (preferredChecks_unchanged h) (decideRevision_unchanged hsame))
    | physicalConstraintFailure =>
      have hsame : (changedFields original revised).any
          physicalFields.contains = false := by
        rw [any_eq_false]
        intro field hfield
        have hname := h.changed field hfield
        simp only [mem_cons, not_mem_nil, or_false] at hname
        rcases hname with rfl | rfl | rfl <;> decide
      rw [validateKind, validatePhysical, ← physicalFields, guard_eq_ok,
        decideRevision_unchanged hsame, h.preferredParticipantIds,
        h.preferredDofIds, Bool.not_eq_true, Bool.not_eq_false', List.isEmpty_iff,
        append_eq_nil_iff, sortedDifference_eq_nil, sortedDifference_eq_nil, StillValid]
    | depthExtensionAvailable =>
      have hsame : decide (original.maxTrajectoryDepth < revised.maxTrajectoryDepth) = false :=
        decide_eq_false (not_lt.2 h.maxTrajectoryDepth.le)
      rw [validateKind, validateDepth, guard_eq_ok, guard_eq_ok, decideRevision_unchanged hsame,
        h.maxTrajectoryDepth, not_lt, not_lt, and_iff_right le_rfl, StillValid]
  refine ⟨(hiff .declined).trans (and_iff_left rfl), fun haccepted => ?_⟩
  exact absurd ((hiff .accepted).1 haccepted).2 (by decide)

/-! ## Automatic ids -/

/-- The fields that the id of a plan is a hash of. -/
structure PlanIdentityParts where
  targetViolationIds : List String
  targetWitnessIds : List String
  targetRelation : String
  preferredParticipantIds : List String
  preferredDofIds : List String
  strategy : String
deriving DecidableEq

def identityParts (plan : KernelRepairPlan) : PlanIdentityParts where
  targetViolationIds := plan.targetViolationIds
  targetWitnessIds := plan.targetWitnessIds
  targetRelation := plan.targetRelation
  preferredParticipantIds := plan.preferredParticipantIds
  preferredDofIds := plan.preferredDofIds
  strategy := plan.strategy

/-- `normalize_identity`: the validator of a plan as it arrives. -/
def normalizeIdentity (stableHash : PlanIdentityParts → String) (plan : KernelRepairPlan) :
    KernelRepairPlan :=
  if plan.planId = "" then
    { plan with
      planId := "kernel_plan_" ++
        String.ofList ((stableHash (identityParts plan)).toList.take 20) }
  else plan

/-- The names of the hashed fields. -/
def hashedFields : List String :=
  ["target_violation_ids", "target_witness_ids", "target_relation", "preferred_participant_ids",
    "preferred_dof_ids", "strategy"]

/-- What a revision of some kind may change, and what matters for the execution. -/
def revisableFields : List String :=
  ["preferred_dof_ids", "forbidden_dof_ids", "max_operation_count", "max_trajectory_depth",
    "preferred_participant_ids", "strategy", "fallback_strategy", "coordination_request"]

/-- The ids of two plans tell a revision from its original. -/
structure Separated (stableHash : PlanIdentityParts → String) (original revised : KernelRepairPlan) :
    Prop where
  ids : (∃ field ∈ changedFields original revised, field ∈ revisableFields) →
    (normalizeIdentity stableHash revised).planId ≠
      (normalizeIdentity stableHash original).planId
  /-- What would be accepted under a new id is not rejected for its id. -/
  revisions : ∀ kind allowed configuredMaxDepth sets bounds id,
    validateExecutionFeedbackRevision (normalizeIdentity stableHash original)
      { normalizeIdentity stableHash revised with planId := id } kind allowed configuredMaxDepth
        sets bounds = .ok .accepted →
    validateExecutionFeedbackRevision (normalizeIdentity stableHash original)
      (normalizeIdentity stableHash revised) kind allowed configuredMaxDepth sets bounds ≠
        .error "EXECUTION_REVISION_PLAN_ID_NOT_CHANGED"

theorem changed_hashed_iff :
    (∃ field ∈ changedFields original revised, field ∈ hashedFields) ↔
      identityParts original ≠ identityParts revised := by
  simp [changedFields, hashedFields, identityParts, or_and_right, exists_or]
  tauto

/-- The automatic ids are those of the hashed fields, when the hashes do not collide. -/
theorem normalizeIdentity_planId_inj {stableHash : PlanIdentityParts → String}
    (horiginal : original.planId = "") (hrevised : revised.planId = "")
    (hhash : (stableHash (identityParts original)).toList.take 20 =
      (stableHash (identityParts revised)).toList.take 20 →
        identityParts original = identityParts revised) :
    (normalizeIdentity stableHash revised).planId = (normalizeIdentity stableHash original).planId ↔
      identityParts original = identityParts revised := by
  rw [normalizeIdentity, normalizeIdentity, if_pos horiginal, if_pos hrevised,
    String.append_right_inj]
  refine ⟨fun h => hhash ?_, fun h => by rw [h]⟩
  rw [← String.toList_ofList (l := (stableHash (identityParts original)).toList.take 20), ← h,
    String.toList_ofList]

/-- The changed fields, but for the id, do not depend on the ids. -/
theorem mem_changedFields_planId {id field : String} (hfield : field ≠ "plan_id") :
    field ∈ changedFields original { revised with planId := id } ↔
      field ∈ changedFields original revised := by
  simp [changedFields, hfield]

/-- What is accepted under one new id is accepted under any other. -/
theorem accepted_of_planId {id : String}
    (h : validateExecutionFeedbackRevision original { revised with planId := id } kind allowed
      configuredMaxDepth sets bounds = .ok .accepted)
    (hid : revised.planId ≠ original.planId) :
    validateExecutionFeedbackRevision original revised kind allowed configuredMaxDepth sets
      bounds = .ok .accepted := by
  have hdecide : ∀ changes, decideRevision original { revised with planId := id } changes =
      .ok .accepted → decideRevision original revised changes = .ok .accepted := by
    intro changes hchanges
    rcases decideRevision_ok.1 hchanges with ⟨-, hdeclined⟩ | ⟨rfl, -, -⟩
    · cases hdeclined
    · exact decideRevision_ok.2 (.inr ⟨rfl, hid, rfl⟩)
  obtain ⟨hscope, hkind⟩ := validateExecutionFeedbackRevision_eq_ok.1 h
  refine validateExecutionFeedbackRevision_eq_ok.2 ⟨⟨fun field hfield => ?_, hscope.forbidden⟩, ?_⟩
  · by_cases hname : field = "plan_id"
    · subst hname
      exact mem_append_left _ (by decide)
    · exact hscope.fields field ((mem_changedFields_planId hname).2 hfield)
  · cases kind with
    | preferredDofInfeasible =>
      obtain ⟨⟨h1, h2, h3, h4, h5, h6, h7, h8⟩, hdecided⟩ := validatePreferred_eq_ok.1 hkind
      exact validatePreferred_eq_ok.2 ⟨⟨h1, h2, h3, h4, h5, h6, h7, h8⟩, hdecide _ hdecided⟩
    | physicalConstraintFailure =>
      rw [validateKind, validatePhysical, guard_eq_ok] at hkind ⊢
      refine ⟨hkind.1, ?_⟩
      have hany : (changedFields original { revised with planId := id }).any
          physicalFields.contains = (changedFields original revised).any
            physicalFields.contains := by
        rw [Bool.eq_iff_iff, any_eq_true, any_eq_true]
        refine exists_congr fun field => and_congr_left fun hmem => ?_
        refine mem_changedFields_planId fun hid => ?_
        rw [hid] at hmem
        exact absurd hmem (by decide)
      exact hany ▸ hdecide _ hkind.2
    | depthExtensionAvailable =>
      rw [validateKind, validateDepth, guard_eq_ok, guard_eq_ok] at hkind ⊢
      exact ⟨hkind.1, hkind.2.1, hdecide _ hkind.2.2⟩

/-- A revision that is accepted has changed something that a revision may change. -/
theorem revisable_of_accepted
    (h : validateExecutionFeedbackRevision original revised kind allowed configuredMaxDepth sets
      bounds = .ok .accepted) :
    ∃ field ∈ changedFields original revised, field ∈ revisableFields := by
  obtain ⟨-, hkind⟩ := validateExecutionFeedbackRevision_eq_ok.1 h
  have hchanges : ∀ changes, decideRevision original revised changes = .ok .accepted →
      changes = true := by
    intro changes hdecided
    rcases decideRevision_ok.1 hdecided with ⟨-, hdeclined⟩ | ⟨htrue, -, -⟩
    · cases hdeclined
    · exact htrue
  cases kind with
  | preferredDofInfeasible =>
    obtain ⟨-, hdecided⟩ := validatePreferred_eq_ok.1 hkind
    have hchanged := hchanges _ hdecided
    rw [preferredChanges, Bool.or_eq_true, Bool.or_eq_true, decide_eq_true_eq,
      decide_eq_true_eq, decide_eq_true_eq] at hchanged
    rcases hchanged with (hne | hne) | hne
    · exact ⟨"preferred_dof_ids", by simp [changedFields, hne.symm], by decide⟩
    · exact ⟨"forbidden_dof_ids", by simp [changedFields, hne.symm], by decide⟩
    · exact ⟨"max_operation_count", by simp [changedFields, hne.symm], by decide⟩
  | physicalConstraintFailure =>
    rw [validateKind, validatePhysical, guard_eq_ok] at hkind
    obtain ⟨field, hfield, hname⟩ := any_eq_true.1 (hchanges _ hkind.2)
    refine ⟨field, hfield, ?_⟩
    rw [contains_iff_mem] at hname
    revert hname
    simp only [revisableFields, mem_cons, not_mem_nil, or_false]
    tauto
  | depthExtensionAvailable =>
    rw [validateKind, validateDepth, guard_eq_ok, guard_eq_ok] at hkind
    have hdepth := of_decide_eq_true (hchanges _ hkind.2.2)
    exact ⟨"max_trajectory_depth", by simp [changedFields, hdepth.ne], by decide⟩

theorem normalizeIdentity_changed {stableHash : PlanIdentityParts → String} {field : String}
    (hfield : field ≠ "plan_id") :
    field ∈ changedFields (normalizeIdentity stableHash original)
        (normalizeIdentity stableHash revised) ↔
      field ∈ changedFields original revised := by
  unfold normalizeIdentity
  split_ifs <;> simp [changedFields, hfield]

/-- **When the automatic ids tell a revision from its original**: when one of the hashed fields
is among those that the revision changes. -/
theorem automatic_ids_separate_iff {stableHash : PlanIdentityParts → String}
    (horiginal : original.planId = "") (hrevised : revised.planId = "")
    (hhash : (stableHash (identityParts original)).toList.take 20 =
      (stableHash (identityParts revised)).toList.take 20 →
        identityParts original = identityParts revised) :
    Separated stableHash original revised ↔
      ((∃ field ∈ changedFields original revised, field ∈ revisableFields) →
        ∃ field ∈ changedFields original revised, field ∈ hashedFields) := by
  have hids := normalizeIdentity_planId_inj horiginal hrevised hhash
  rw [changed_hashed_iff, ne_eq, ← hids]
  refine ⟨Separated.ids, fun h => ⟨h, fun kind allowed depth sets bounds id haccepted => ?_⟩⟩
  -- the revision has changed something, so that its id is another one
  obtain ⟨field, hfield, hrevisable⟩ := revisable_of_accepted haccepted
  have hname : field ≠ "plan_id" := by
    rintro rfl
    exact absurd hrevisable (by decide)
  rw [mem_changedFields_planId hname, normalizeIdentity_changed hname] at hfield
  rw [accepted_of_planId haccepted (h ⟨field, hfield, hrevisable⟩)]
  exact fun herror => (nomatch herror)

end Scope

/-! ## Samples -/

/-- A plan that prefers what is not feasible. -/
def wantingPlan : KernelRepairPlan where
  planId := "p"
  targetViolationIds := ["v"]
  preferredDofIds := ["d1"]
  forbiddenDofIds := ["d2"]

/-- A revision of it. -/
def revisedPlan (forbidden : List String) : KernelRepairPlan :=
  { wantingPlan with planId := "q", preferredDofIds := ["d2"], forbiddenDofIds := forbidden }

def wantingIds : AllowedIds := ⟨[], ["d1", "d2"]⟩

theorem accepted_feasible_iff_unforbidden :
    Feasible wantingPlan (revisedPlan []) [["d2"]] [⟨["d2"], 2⟩] ↔
      ∀ id ∈ (revisedPlan []).preferredDofIds, id ∉ (revisedPlan []).forbiddenDofIds :=
  @accepted_feasible_iff _ _ wantingIds 4 _ _ (by decide +kernel)

/-- The revision prefers the proved alternative and forbids it as before. -/
theorem forbidden_preference_accepted :
    validateExecutionFeedbackRevision wantingPlan (revisedPlan ["d2"]) .preferredDofInfeasible
        wantingIds 4 [["d2"]] [⟨["d2"], 2⟩] = .ok .accepted ∧
      ¬ Feasible wantingPlan (revisedPlan ["d2"]) [["d2"]] [⟨["d2"], 2⟩] := by
  refine ⟨by decide +kernel, fun h => ?_⟩
  obtain ⟨option, hoption, hpreferred, hopen, -⟩ := h.executable
  rw [hpreferred (by decide)] at hopen
  exact absurd hopen (by decide)

theorem unchanged_declined_iff_depth :
    (validateExecutionFeedbackRevision wantingPlan { wantingPlan with planId := "q" }
        .depthExtensionAvailable wantingIds 4 [] [] = .ok .declined ↔
      StillValid wantingPlan .depthExtensionAvailable wantingIds 4 [] []) ∧
    validateExecutionFeedbackRevision wantingPlan { wantingPlan with planId := "q" }
      .depthExtensionAvailable wantingIds 4 [] [] ≠ .ok .accepted :=
  unchanged_declined_iff ⟨rfl, rfl, rfl, rfl, rfl, rfl, rfl, rfl, rfl, rfl, rfl⟩

/-- The plan itself, as an answer to the feedback that its preference is infeasible. -/
theorem unchanged_preference_raises :
    SameSemantics wantingPlan wantingPlan ∧
      validateExecutionFeedbackRevision wantingPlan wantingPlan .preferredDofInfeasible
        wantingIds 4 [["d2"]] [⟨["d2"], 2⟩] =
          .error "EXECUTION_REVISION_PREFERRED_SET_NOT_PROVED" :=
  ⟨⟨rfl, rfl, rfl, rfl, rfl, rfl, rfl, rfl, rfl, rfl, rfl⟩, by decide +kernel⟩

/-- A plan without an id. -/
def anonymousPlan (preferred : String) (depth : ℕ) : KernelRepairPlan where
  planId := ""
  targetViolationIds := ["v1"]
  preferredDofIds := [preferred]
  maxTrajectoryDepth := depth

/-- The hashes of its parts, for two preferences. -/
def anonymousHash (parts : PlanIdentityParts) : String :=
  if parts.preferredDofIds = ["d1"] then
    "2a77744647d70fe36880bfd853f33d2158b1198209378b14a3ff3b8d5ace5de0"
  else "9c8adbe273a8b88d12c17b2a2d74ea2022ca1a5e32783f98a43e6e46d2bb5156"

theorem automatic_ids_separate_iff_preference :
    Separated anonymousHash (anonymousPlan "d1" 2) (anonymousPlan "d2" 2) ↔
      ((∃ field ∈ changedFields (anonymousPlan "d1" 2) (anonymousPlan "d2" 2),
          field ∈ revisableFields) →
        ∃ field ∈ changedFields (anonymousPlan "d1" 2) (anonymousPlan "d2" 2),
          field ∈ hashedFields) :=
  automatic_ids_separate_iff rfl rfl (by decide +kernel)

/-- A deeper plan gets the id of the original and is rejected for it. -/
theorem deeper_plan_same_id :
    (normalizeIdentity anonymousHash (anonymousPlan "d1" 3)).planId =
        (normalizeIdentity anonymousHash (anonymousPlan "d1" 2)).planId ∧
      validateExecutionFeedbackRevision (normalizeIdentity anonymousHash (anonymousPlan "d1" 2))
        (normalizeIdentity anonymousHash (anonymousPlan "d1" 3)) .depthExtensionAvailable
          wantingIds 4 [] [] = .error "EXECUTION_REVISION_PLAN_ID_NOT_CHANGED" ∧
      ¬ Separated anonymousHash (anonymousPlan "d1" 2) (anonymousPlan "d1" 3) := by
  refine ⟨by decide +kernel, by decide +kernel, fun h => ?_⟩
  exact h.ids ⟨"max_trajectory_depth", by decide +kernel, by decide⟩ (by decide +kernel)

end DRCAgent.Kernel
