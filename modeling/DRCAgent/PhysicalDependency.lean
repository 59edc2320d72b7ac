/-
# Physical dependencies between regions

`AgentGraphBuilder._physical_dependency` of `graphs/agent.py`: five kinds of proven
identity make the dependency of two regions hard; shared broad-phase, unknown and
source-definition ids are context.

Main result:

* `physicalDependency_comm_and_context_free`: the dependency does not see the order of
  the two summaries, and its hard flag does not see the context ids.
-/
import DRCAgent.ActiveWindow
import Mathlib.Data.Finset.Sort

namespace DRCAgent

/-! ## Summaries and evidence -/

/-- `PotentialPhysicalAccessSummary`, with the ids that `_physical_dependency` reads.
Of the access evidence it reads only whether there is any. -/
structure AccessSummary extends PotentialPhysicalAccessSummary where
  writableOccurrenceIds : List String := []
  writableSourceTargetIds : List String := []
  potentialWriteGeometryIds : List String := []
  sourceDefinitionIds : List String := []
  protectedRelationWriteIds : List String := []
  protectedReadGeometryIds : List String := []
  mergedBoundaryContributorIds : List String := []
  exactAuthorizedAccessIds : List String := []
  provenPhysicalRelationIds : List String := []
  broadPhaseRelationIds : List String := []
  unknownAccessIds : List String := []
  accessEvidence : List String := []

/-- The ids two lists share. -/
def common (left right : List String) : Finset String := left.toFinset ∩ right.toFinset

theorem common_comm (left right : List String) : common left right = common right left :=
  Finset.inter_comm _ _

/-- `EdgeEvidence` of a physical dependency: the ids stand in the details under
`identitiesKey`, beside the quality. -/
structure PhysicalEvidence where
  evidenceId : String
  kind : String
  identities : List String
  evidenceQuality : String
  identitiesKey : String := "identities"

/-- The edge evidence that the window selection reads. -/
def PhysicalEvidence.toEdgeEvidence (e : PhysicalEvidence) : EdgeEvidence where
  evidenceId := e.evidenceId
  kind := e.kind

/-- `legacy` -/
def isLegacy (left right : AccessSummary) : Bool :=
  left.schemaVersion = "1.0" ∧ right.schemaVersion = "1.0" ∧
    left.accessEvidence = [] ∧ right.accessEvidence = []

namespace AccessSummary

variable (legacy : Bool) (s : AccessSummary)

/-- `left_exact` and `right_exact` -/
def exact : Finset String :=
  if legacy then
    s.writableOccurrenceIds.toFinset ∪ s.writableSourceTargetIds.toFinset ∪
      s.potentialWriteGeometryIds.toFinset
  else s.exactAuthorizedAccessIds.toFinset

/-- `left_proven` and `right_proven` -/
def proven : Finset String :=
  if legacy then
    s.protectedReadGeometryIds.toFinset ∪ s.protectedRelationIds.toFinset ∪
      s.mergedBoundaryContributorIds.toFinset
  else s.provenPhysicalRelationIds.toFinset

end AccessSummary

/-- The kinds of `predicates`, in their order. -/
inductive HardKind
  | sameWritableOccurrence
  | sameWritableSourceTarget
  | sharedMergedBoundaryContributor
  | potentialWriteProtectedRead
  | sharedProtectedLandingContact
  deriving DecidableEq

namespace HardKind

def value : HardKind → String
  | sameWritableOccurrence => "same_writable_occurrence"
  | sameWritableSourceTarget => "same_writable_source_target"
  | sharedMergedBoundaryContributor => "shared_merged_boundary_contributor"
  | potentialWriteProtectedRead => "potential_write_protected_read"
  | sharedProtectedLandingContact => "shared_protected_landing_contact"

def all : List HardKind :=
  [sameWritableOccurrence, sameWritableSourceTarget, sharedMergedBoundaryContributor,
    potentialWriteProtectedRead, sharedProtectedLandingContact]

theorem mem_all (kind : HardKind) : kind ∈ all := by
  cases kind <;> decide

/-- What `writer` may write and `reader` reads under protection. -/
def writeRead (legacy : Bool) (writer reader : AccessSummary) : Finset String :=
  writer.potentialWriteGeometryIds.toFinset ∩ writer.exact legacy ∩
    reader.protectedReadGeometryIds.toFinset ∩ reader.proven legacy

/-- The protected relations of `reader` that `writer` may write. -/
def landingWrite (legacy : Bool) (writer reader : AccessSummary) : Finset String :=
  common writer.protectedRelationWriteIds reader.protectedRelationIds ∩
    (writer.proven legacy ∩ reader.proven legacy)

/-- The identities that prove a dependency of the kind. -/
def identities (legacy : Bool) (left right : AccessSummary) : HardKind → Finset String
  | sameWritableOccurrence =>
    common left.writableOccurrenceIds right.writableOccurrenceIds ∩
      (left.exact legacy ∩ right.exact legacy)
  | sameWritableSourceTarget =>
    common left.writableSourceTargetIds right.writableSourceTargetIds ∩
      (left.exact legacy ∩ right.exact legacy)
  | sharedMergedBoundaryContributor =>
    common left.mergedBoundaryContributorIds right.mergedBoundaryContributorIds ∩
      (left.proven legacy ∩ right.proven legacy)
  | potentialWriteProtectedRead => writeRead legacy left right ∪ writeRead legacy right left
  | sharedProtectedLandingContact =>
    landingWrite legacy left right ∪ landingWrite legacy right left

end HardKind

/-! ## The dependency -/

section Dependency

variable (stableHash : List String → String)

/-- The evidence of a kind, where it has an identity. -/
def hardEvidence (left right : AccessSummary) (kind : HardKind) : Option PhysicalEvidence :=
  let legacy := isLegacy left right
  let values := (kind.identities legacy left right).sort (· ≤ ·)
  if values = [] then none
  else some {
    evidenceId := "physical:" ++ kind.value ++ ":" ++ stableHash values
    kind := kind.value
    identities := values
    evidenceQuality := if legacy then "legacy_exact" else "exact_or_proven_physical" }

/-- Evidence that is context: the ids two summaries share, where there are any. -/
def contextEvidence (idPrefix kind evidenceQuality identitiesKey : String)
    (shared : Finset String) : Option PhysicalEvidence :=
  let values := shared.sort (· ≤ ·)
  if values = [] then none
  else some {
    evidenceId := idPrefix ++ stableHash values
    kind := kind
    identities := values
    evidenceQuality := evidenceQuality
    identitiesKey := identitiesKey }

/-- `broad` -/
def broadPhase (left right : AccessSummary) : Option PhysicalEvidence :=
  contextEvidence stableHash "physical:broad-phase:" "broad_phase_physical_candidate"
    "broad_phase" "identities" (common left.broadPhaseRelationIds right.broadPhaseRelationIds)

/-- `shared_unknown` -/
def sharedUnknown (left right : AccessSummary) : Option PhysicalEvidence :=
  contextEvidence stableHash "physical:unknown-access:" "unknown_physical_access"
    "unknown" "identities" (common left.unknownAccessIds right.unknownAccessIds)

/-- `shared_definitions` -/
def sharedDefinitions (left right : AccessSummary) : Option PhysicalEvidence :=
  contextEvidence stableHash "physical:shared-definition:"
    "shared_source_definition_distinct_or_unknown_occurrence" "unknown" "source_definition_ids"
    (common left.sourceDefinitionIds right.sourceDefinitionIds)

/-- **`_physical_dependency`**: the evidence and the hard flag. `stableHash` stands for
`stable_hash(values)[:12]`. -/
def physicalDependency (left right : AccessSummary) : List PhysicalEvidence × Bool :=
  let proofs := HardKind.all.filterMap (hardEvidence stableHash left right)
  let hard := !proofs.isEmpty
  (proofs ++ (broadPhase stableHash left right).toList ++
    (sharedUnknown stableHash left right).toList ++
    if hard then [] else (sharedDefinitions stableHash left right).toList, hard)

/-! ## Symmetry -/

variable {stableHash} {left right : AccessSummary}

theorem isLegacy_comm (left right : AccessSummary) : isLegacy left right = isLegacy right left := by
  rw [isLegacy, isLegacy, Bool.eq_iff_iff, decide_eq_true_eq, decide_eq_true_eq]
  tauto

/-- Each kind combines the two sides by symmetric operations. -/
theorem HardKind.identities_comm (legacy : Bool) (left right : AccessSummary) (kind : HardKind) :
    kind.identities legacy left right = kind.identities legacy right left := by
  cases kind with
  | sameWritableOccurrence =>
    rw [identities, identities, common_comm, Finset.inter_comm (left.exact legacy)]
  | sameWritableSourceTarget =>
    rw [identities, identities, common_comm, Finset.inter_comm (left.exact legacy)]
  | sharedMergedBoundaryContributor =>
    rw [identities, identities, common_comm, Finset.inter_comm (left.proven legacy)]
  | potentialWriteProtectedRead => exact Finset.union_comm _ _
  | sharedProtectedLandingContact => exact Finset.union_comm _ _

theorem hardEvidence_comm (left right : AccessSummary) :
    hardEvidence stableHash left right = hardEvidence stableHash right left := by
  funext kind
  rw [hardEvidence, hardEvidence, isLegacy_comm, HardKind.identities_comm]

theorem physicalDependency_comm (left right : AccessSummary) :
    physicalDependency stableHash left right = physicalDependency stableHash right left := by
  rw [physicalDependency, physicalDependency, hardEvidence_comm, broadPhase, broadPhase,
    sharedUnknown, sharedUnknown, sharedDefinitions, sharedDefinitions,
    common_comm left.broadPhaseRelationIds, common_comm left.unknownAccessIds,
    common_comm left.sourceDefinitionIds]

/-! ## What makes a dependency hard -/

theorem sort_eq_nil_iff {values : Finset String} : values.sort (· ≤ ·) = [] ↔ values = ∅ := by
  rw [← List.length_eq_zero_iff, Finset.length_sort, Finset.card_eq_zero]

/-- The dependency is hard when some kind has an identity. -/
theorem hard_iff :
    (physicalDependency stableHash left right).2 = true ↔
      ∃ kind : HardKind, (kind.identities (isLegacy left right) left right).Nonempty := by
  have hsome : ∀ kind : HardKind, (hardEvidence stableHash left right kind).isSome ↔
      (kind.identities (isLegacy left right) left right).Nonempty := by
    intro kind
    rw [hardEvidence, Finset.nonempty_iff_ne_empty, ne_eq, ← sort_eq_nil_iff]
    by_cases hnil : (kind.identities (isLegacy left right) left right).sort (· ≤ ·) = []
    · rw [if_pos hnil]
      simp [hnil]
    · rw [if_neg hnil]
      simp [hnil]
  have hproofs : (physicalDependency stableHash left right).2 = true ↔
      HardKind.all.filterMap (hardEvidence stableHash left right) ≠ [] := by
    simp [physicalDependency]
  rw [hproofs, ne_eq, List.filterMap_eq_nil_iff]
  constructor
  · intro hnot
    by_contra hnone
    apply hnot
    intro kind _
    rw [← Option.not_isSome_iff_eq_none, hsome]
    exact fun hkind => hnone ⟨kind, hkind⟩
  · rintro ⟨kind, hkind⟩ hall
    have hnone := hall kind kind.mem_all
    rw [← Option.not_isSome_iff_eq_none, hsome] at hnone
    exact hnone hkind

/-- The summary with other context ids. -/
def AccessSummary.withContext (s : AccessSummary) (broad unknown definitions : List String) :
    AccessSummary :=
  { s with
    broadPhaseRelationIds := broad
    unknownAccessIds := unknown
    sourceDefinitionIds := definitions }

/-- No kind reads the context ids. -/
theorem HardKind.identities_withContext (legacy : Bool) (left right : AccessSummary)
    (broad unknown definitions broad' unknown' definitions' : List String) (kind : HardKind) :
    kind.identities legacy (left.withContext broad unknown definitions)
        (right.withContext broad' unknown' definitions') =
      kind.identities legacy left right := by
  cases kind with
  | sameWritableOccurrence => rfl
  | sameWritableSourceTarget => rfl
  | sharedMergedBoundaryContributor => rfl
  | potentialWriteProtectedRead => rfl
  | sharedProtectedLandingContact => rfl

/-- **Symmetry and soundness of physical dependencies.** -/
theorem physicalDependency_comm_and_context_free (stableHash : List String → String)
    (left right : AccessSummary) :
    physicalDependency stableHash left right = physicalDependency stableHash right left ∧
      ∀ broad unknown definitions broad' unknown' definitions' : List String,
        (physicalDependency stableHash (left.withContext broad unknown definitions)
            (right.withContext broad' unknown' definitions')).2 =
          (physicalDependency stableHash left right).2 := by
  refine ⟨physicalDependency_comm left right, ?_⟩
  intro broad unknown definitions broad' unknown' definitions'
  have hlegacy : isLegacy (left.withContext broad unknown definitions)
      (right.withContext broad' unknown' definitions') = isLegacy left right := rfl
  rw [Bool.eq_iff_iff, hard_iff, hard_iff, hlegacy]
  simp only [HardKind.identities_withContext]

/-! ## The evidence of a window's edges -/

theorem HardKind.value_mem (kind : HardKind) : kind.value ∈ hardPhysicalEvidenceKinds := by
  cases kind <;> decide

/-- Context evidence is no physical proof. -/
theorem any_isPhysicalProof_contextEvidence {idPrefix kind evidenceQuality identitiesKey : String}
    {shared : Finset String} (hkind : kind ∉ hardPhysicalEvidenceKinds) :
    ((contextEvidence stableHash idPrefix kind evidenceQuality identitiesKey
      shared).toList.any fun e => e.toEdgeEvidence.isPhysicalProof) = false := by
  rw [contextEvidence]
  split_ifs
  · rfl
  · simp [PhysicalEvidence.toEdgeEvidence, EdgeEvidence.isPhysicalProof, hkind]

/-- The evidence of a proven kind is a physical proof. -/
theorem isPhysicalProof_hardEvidence {kind : HardKind} {e : PhysicalEvidence}
    (h : hardEvidence stableHash left right kind = some e) :
    e.toEdgeEvidence.isPhysicalProof = true := by
  rw [hardEvidence] at h
  split_ifs at h
  · obtain rfl := Option.some.inj h
    simp [PhysicalEvidence.toEdgeEvidence, EdgeEvidence.isPhysicalProof, kind.value_mem]
  · obtain rfl := Option.some.inj h
    simp [PhysicalEvidence.toEdgeEvidence, EdgeEvidence.isPhysicalProof, kind.value_mem]

/-- The window selection takes the evidence of a dependency for a physical proof exactly
when the dependency is hard. -/
theorem any_isPhysicalProof_iff :
    ((physicalDependency stableHash left right).1.any fun e =>
      e.toEdgeEvidence.isPhysicalProof) = (physicalDependency stableHash left right).2 := by
  have hbroad : ((broadPhase stableHash left right).toList.any fun e =>
      e.toEdgeEvidence.isPhysicalProof) = false :=
    any_isPhysicalProof_contextEvidence (by decide)
  have hunknown : ((sharedUnknown stableHash left right).toList.any fun e =>
      e.toEdgeEvidence.isPhysicalProof) = false :=
    any_isPhysicalProof_contextEvidence (by decide)
  have hdefinitions : ((sharedDefinitions stableHash left right).toList.any fun e =>
      e.toEdgeEvidence.isPhysicalProof) = false :=
    any_isPhysicalProof_contextEvidence (by decide)
  rw [physicalDependency]
  cases hproofs : HardKind.all.filterMap (hardEvidence stableHash left right) with
  | nil =>
    rw [List.any_append, List.any_append, List.any_append, hbroad, hunknown]
    exact hdefinitions
  | cons e rest =>
    have hmem : e ∈ HardKind.all.filterMap (hardEvidence stableHash left right) := by
      rw [hproofs]
      exact List.mem_cons_self
    obtain ⟨kind, -, hkind⟩ := List.mem_filterMap.1 hmem
    rw [List.cons_append, List.cons_append, List.cons_append, List.any_cons,
      isPhysicalProof_hardEvidence hkind]
    rfl

end Dependency

end DRCAgent
