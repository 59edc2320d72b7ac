/-
# Binding formal violations to the current snapshot

`FormalCurrentSemanticAdapter.build`
(src/drc_agent/repair_kernel_integration/current_semantic_adapter.py), from the context of
the current snapshot on: the violations of the region are bound one by one, by their id or
else by the one current violation with their rule and marker.

Nothing is kept of what is bound already, an id is taken without a look at its rule, and an
id of the region without a record is passed over. When each violation of the region has one
binding, of its rule, and no two share a target, is `bindings_bijective_iff`.
-/
import DRCAgent.Failures
import Mathlib.Data.List.Perm.Basic
import Mathlib.Data.List.Sort
import Mathlib.Data.String.Basic

namespace DRCAgent.Semantic

open Failures List

/-! ## The source -/

/-- `ViolationRecord`: what is read of it, and the rest of the record, which has the
marker. -/
structure ViolationRecord where
  violationId : String
  ruleId : String
  marker : String

/-- `CurrentSemanticContext`: its violations, and the ids of its regions. -/
structure CurrentSemanticContext where
  violations : List ViolationRecord
  violationToRegion : List (String × String)
  regionIds : List String

/-- `FormalKernelExecutionContext`: the region and the records of its violations. -/
structure FormalKernelExecutionContext where
  regionId : String
  regionViolationIds : List String
  violations : List ViolationRecord

inductive BindingMode
  | exactCurrentId | normalizedMarkerFingerprint
  deriving DecidableEq

def BindingMode.value : BindingMode → String
  | .exactCurrentId => "EXACT_CURRENT_ID"
  | .normalizedMarkerFingerprint => "NORMALIZED_MARKER_FINGERPRINT"

/-- `FormalSemanticBinding` -/
structure FormalSemanticBinding where
  formalRegionId : String
  semanticRegionId : String
  formalViolationId : String
  semanticViolationId : String
  ruleId : String
  bindingMode : String
  bindingFingerprint : String

/-- `FormalCurrentSemanticResult` -/
structure FormalCurrentSemanticResult where
  context : CurrentSemanticContext
  bindings : List FormalSemanticBinding

/-- `normalized_marker_fingerprint` and `stable_hash`. -/
structure Fingerprints where
  normalizedMarker : ViolationRecord → String
  stableHash : List String → String

section Build

variable (fingerprints : Fingerprints)

/-- `_semantic_region` -/
def semanticRegion (context : CurrentSemanticContext) (violation : ViolationRecord) :
    Except String String :=
  let regionId := context.violationToRegion.lookup violation.violationId
  match context.regionIds.find? fun item => some item = regionId with
  | none => .error "FORMAL_CURRENT_REGION_UNAVAILABLE"
  | some region => .ok region

/-- The current violations with the rule and the marker of a formal one. -/
def markerMatches (context : CurrentSemanticContext) (formal : ViolationRecord) :
    List ViolationRecord :=
  context.violations.filter fun item => item.ruleId = formal.ruleId &&
    fingerprints.normalizedMarker item = fingerprints.normalizedMarker formal

/-- `direct` -/
def directMatch (context : CurrentSemanticContext) (formal : ViolationRecord) :
    Option ViolationRecord :=
  context.violations.find? fun item => item.violationId = formal.violationId

/-- `_bind_violation` -/
def bindViolation (context : CurrentSemanticContext) (formal : ViolationRecord) :
    Except String (ViolationRecord × BindingMode) :=
  match directMatch context formal with
  | some direct => .ok (direct, .exactCurrentId)
  | none =>
    match markerMatches fingerprints context formal with
    | [current] => .ok (current, .normalizedMarkerFingerprint)
    | _ => .error "FORMAL_CURRENT_VIOLATION_BINDING_AMBIGUOUS"

/-- One turn of the loop. -/
def bindOne (execution : FormalKernelExecutionContext) (context : CurrentSemanticContext)
    (formal : ViolationRecord) : Except String FormalSemanticBinding := do
  let (current, mode) ← bindViolation fingerprints context formal
  let region ← semanticRegion context current
  return {
    formalRegionId := execution.regionId
    semanticRegionId := region
    formalViolationId := formal.violationId
    semanticViolationId := current.violationId
    ruleId := formal.ruleId
    bindingMode := mode.value
    bindingFingerprint := fingerprints.stableHash [execution.regionId, region,
      formal.violationId, current.violationId, mode.value] }

/-- The records of the violations of the region, in the order of their ids. -/
def wantedRecords (execution : FormalKernelExecutionContext) : List ViolationRecord :=
  (execution.violations.filter fun item =>
    item.violationId ∈ execution.regionViolationIds).insertionSort
      fun a b => a.violationId ≤ b.violationId

/-- `build`, where the context of the current snapshot could be built. -/
def build (execution : FormalKernelExecutionContext) (context : CurrentSemanticContext) :
    Except String FormalCurrentSemanticResult := do
  let bindings ← (wantedRecords execution).mapM (bindOne fingerprints execution context)
  if bindings = [] then .error "FORMAL_CURRENT_REGION_HAS_NO_BOUND_VIOLATION"
  else return { context, bindings }

/-! ## What a binding says -/

variable {fingerprints} {execution : FormalKernelExecutionContext}
  {context : CurrentSemanticContext} {result : FormalCurrentSemanticResult}

/-- A formal violation that the current snapshot has no record of. -/
def Lost (context : CurrentSemanticContext) (formal : ViolationRecord) : Prop :=
  ∀ current ∈ context.violations, current.violationId ≠ formal.violationId

/-- A current violation with the rule and the marker of a formal one. -/
def SameMarker (fingerprints : Fingerprints) (formal current : ViolationRecord) : Prop :=
  current.ruleId = formal.ruleId ∧
    fingerprints.normalizedMarker current = fingerprints.normalizedMarker formal

theorem mem_markerMatches {formal current : ViolationRecord} :
    current ∈ markerMatches fingerprints context formal ↔
      current ∈ context.violations ∧ SameMarker fingerprints formal current := by
  rw [markerMatches, mem_filter, Bool.and_eq_true, decide_eq_true_eq, decide_eq_true_eq]
  rfl

theorem directMatch_eq_none {formal : ViolationRecord} :
    directMatch context formal = none ↔ Lost context formal := by
  rw [directMatch, find?_eq_none]
  simp only [decide_eq_true_eq]
  rfl

/-- **A bound violation** has the id of the formal one; or that is lost, and the bound one
is the only one with its rule and marker. -/
theorem bindViolation_eq_ok {formal current : ViolationRecord} {mode : BindingMode}
    (h : bindViolation fingerprints context formal = .ok (current, mode)) :
    (directMatch context formal = some current ∧ current.violationId = formal.violationId) ∨
      (Lost context formal ∧ markerMatches fingerprints context formal = [current]) := by
  rw [bindViolation] at h
  cases hdirect : directMatch context formal with
  | some direct =>
    rw [hdirect] at h
    obtain ⟨rfl, -⟩ := Prod.mk.inj (Except.ok.inj h)
    have hid : decide (direct.violationId = formal.violationId) = true := find?_some
      (p := fun item : ViolationRecord => decide (item.violationId = formal.violationId)) hdirect
    exact Or.inl ⟨rfl, of_decide_eq_true hid⟩
  | none =>
    rw [hdirect] at h
    refine Or.inr ⟨directMatch_eq_none.1 hdirect, ?_⟩
    cases hmatches : markerMatches fingerprints context formal with
    | nil =>
      rw [hmatches] at h
      cases h
    | cons found rest =>
      rw [hmatches] at h
      cases rest with
      | nil =>
        obtain ⟨rfl, -⟩ := Prod.mk.inj (Except.ok.inj h)
        rfl
      | cons _ _ => cases h

/-- The bindings of a result are those of the wanted records, in order. -/
theorem bindings_of_build (h : build fingerprints execution context = .ok result) :
    (wantedRecords execution).mapM (bindOne fingerprints execution context) =
      .ok result.bindings := by
  obtain ⟨bindings, hbindings, h⟩ := bind_eq_ok.1 h
  obtain ⟨-, hresult⟩ := guard_eq_ok.1 h
  rw [← Except.ok.inj hresult]
  exact hbindings

/-- A binding is of a formal violation and of the current one that it is bound to. -/
structure Binds (fingerprints : Fingerprints) (context : CurrentSemanticContext)
    (formal current : ViolationRecord) (binding : FormalSemanticBinding) : Prop where
  bound : ∃ mode, bindViolation fingerprints context formal = .ok (current, mode)
  formalId : binding.formalViolationId = formal.violationId
  semanticId : binding.semanticViolationId = current.violationId
  rule : binding.ruleId = formal.ruleId

theorem binds_of_bindOne {formal : ViolationRecord} {binding : FormalSemanticBinding}
    (h : bindOne fingerprints execution context formal = .ok binding) :
    ∃ current, Binds fingerprints context formal current binding := by
  obtain ⟨⟨current, mode⟩, hbound, h⟩ := bind_eq_ok.1 h
  obtain ⟨region, -, h⟩ := bind_eq_ok.1 h
  rw [← Except.ok.inj h]
  exact ⟨current, ⟨mode, hbound⟩, rfl, rfl, rfl⟩

/-- Each binding of a result binds a wanted record. -/
theorem binds_of_mem (h : build fingerprints execution context = .ok result)
    {binding : FormalSemanticBinding} (hmem : binding ∈ result.bindings) :
    ∃ formal ∈ wantedRecords execution, ∃ current,
      Binds fingerprints context formal current binding := by
  obtain ⟨formal, hformal, hone⟩ := (mem_mapM (bindings_of_build h) binding).1 hmem
  exact ⟨formal, hformal, binds_of_bindOne hone⟩

/-- Each wanted record has a binding in the result. -/
theorem exists_binds (h : build fingerprints execution context = .ok result)
    {formal : ViolationRecord} (hmem : formal ∈ wantedRecords execution) :
    ∃ binding ∈ result.bindings, ∃ current,
      Binds fingerprints context formal current binding := by
  obtain ⟨binding, hbinding, hone⟩ := exists_of_mapM (bindings_of_build h) hmem
  exact ⟨binding, hbinding, binds_of_bindOne hone⟩

/-- A wanted record is bound to one violation. -/
theorem exists_bound (h : build fingerprints execution context = .ok result)
    {formal : ViolationRecord} (hmem : formal ∈ wantedRecords execution) :
    ∃ current mode, bindViolation fingerprints context formal = .ok (current, mode) := by
  obtain ⟨_, -, current, hbinds⟩ := exists_binds h hmem
  obtain ⟨mode, hbound⟩ := hbinds.bound
  exact ⟨current, mode, hbound⟩

/-- There are as many bindings for an id as wanted records with it. -/
theorem length_filter_bindings (h : build fingerprints execution context = .ok result)
    {id : String} (hid : id ∈ execution.regionViolationIds) :
    (result.bindings.filter fun binding => binding.formalViolationId = id).length =
      (execution.violations.filter fun item => item.violationId = id).length := by
  have hids : ∀ {records : List ViolationRecord} {bindings : List FormalSemanticBinding},
      List.Forall₂ (fun formal binding =>
        bindOne fingerprints execution context formal = .ok binding) records bindings →
      (bindings.filter fun binding => binding.formalViolationId = id).length =
        (records.filter fun item => item.violationId = id).length := by
    intro records bindings hall
    induction hall with
    | nil => rfl
    | cons hone _ ih =>
      obtain ⟨_, hbinds⟩ := binds_of_bindOne hone
      rw [filter_cons, filter_cons, hbinds.formalId]
      split
      · rw [length_cons, length_cons, ih]
      · exact ih
  rw [hids (mapM_eq_ok (bindings_of_build h)), wantedRecords,
    ((perm_insertionSort _ _).filter _).length_eq, filter_filter]
  congr 1
  refine filter_congr fun item _ => ?_
  by_cases hitem : item.violationId = id
  · simp [hitem, hid]
  · simp [hitem]

/-! ## When the bindings are one to one -/

/-- The bindings are a bijection onto their image that keeps the rules: each violation id of
the region has one binding, two formal violations are not bound to one current violation,
and what a formal violation is bound to has its rule. -/
structure Bijective (fingerprints : Fingerprints) (execution : FormalKernelExecutionContext)
    (context : CurrentSemanticContext) (result : FormalCurrentSemanticResult) : Prop where
  bound : ∀ id ∈ execution.regionViolationIds,
    (result.bindings.filter fun binding => binding.formalViolationId = id).length = 1
  apart : ∀ first ∈ result.bindings, ∀ second ∈ result.bindings,
    first.formalViolationId ≠ second.formalViolationId →
      first.semanticViolationId ≠ second.semanticViolationId
  sameRule : ∀ formal ∈ wantedRecords execution, ∀ current mode,
    bindViolation fingerprints context formal = .ok (current, mode) →
      current.ruleId = formal.ruleId

/-- The condition on the two snapshots: each violation id of the region has one record; what
is found by a formal id has the formal rule; and where a formal violation is lost, the
current ones with its rule and marker have the id of no other wanted violation, nor the
rule and marker of another lost one. -/
structure BindsApart (fingerprints : Fingerprints) (execution : FormalKernelExecutionContext)
    (context : CurrentSemanticContext) : Prop where
  recorded : ∀ id ∈ execution.regionViolationIds,
    (execution.violations.filter fun item => item.violationId = id).length = 1
  sameRule : ∀ formal ∈ wantedRecords execution, ∀ current,
    directMatch context formal = some current → current.ruleId = formal.ruleId
  apart : ∀ formal ∈ wantedRecords execution, Lost context formal →
    ∀ current ∈ context.violations, SameMarker fingerprints formal current →
      ∀ other ∈ wantedRecords execution, other.violationId ≠ formal.violationId →
        current.violationId ≠ other.violationId ∧
          (Lost context other → ∀ current' ∈ context.violations,
            SameMarker fingerprints other current' →
              current'.violationId ≠ current.violationId)

/-- A bound violation is of the current snapshot. -/
theorem mem_of_bound {formal current : ViolationRecord} {mode : BindingMode}
    (h : bindViolation fingerprints context formal = .ok (current, mode)) :
    current ∈ context.violations := by
  rcases bindViolation_eq_ok h with ⟨hdirect, -⟩ | ⟨-, hmatches⟩
  · exact mem_of_find?_eq_some hdirect
  · have hmem : current ∈ markerMatches fingerprints context formal := by
      rw [hmatches]
      exact mem_singleton_self current
    exact (mem_markerMatches.1 hmem).1

/-- What a lost violation is bound to has its rule and marker. -/
theorem sameMarker_of_bound {formal current : ViolationRecord} {mode : BindingMode}
    (h : bindViolation fingerprints context formal = .ok (current, mode))
    (hlost : Lost context formal) : SameMarker fingerprints formal current := by
  rcases bindViolation_eq_ok h with ⟨-, hid⟩ | ⟨-, hmatches⟩
  · exact absurd hid (hlost current (mem_of_bound h))
  · have hmem : current ∈ markerMatches fingerprints context formal := by
      rw [hmatches]
      exact mem_singleton_self current
    exact (mem_markerMatches.1 hmem).2

/-- What a lost violation is bound to is all that has its rule and marker. -/
theorem eq_of_sameMarker {formal current other : ViolationRecord} {mode : BindingMode}
    (h : bindViolation fingerprints context formal = .ok (current, mode))
    (hlost : Lost context formal) (hmem : other ∈ context.violations)
    (hsame : SameMarker fingerprints formal other) : other = current := by
  rcases bindViolation_eq_ok h with ⟨-, hid⟩ | ⟨-, hmatches⟩
  · exact absurd hid (hlost current (mem_of_bound h))
  · have hother := mem_markerMatches.2 ⟨hmem, hsame⟩
    rw [hmatches] at hother
    exact mem_singleton.1 hother

/-- What a violation that is not lost is bound to has its id. -/
theorem id_of_bound {formal current : ViolationRecord} {mode : BindingMode}
    (h : bindViolation fingerprints context formal = .ok (current, mode))
    (hkept : ¬ Lost context formal) : current.violationId = formal.violationId := by
  rcases bindViolation_eq_ok h with ⟨-, hid⟩ | ⟨hlost, -⟩
  · exact hid
  · exact absurd hlost hkept

/-- Two formal violations with the binds of one result have different targets. -/
theorem BindsApart.target_ne (hapart : BindsApart fingerprints execution context)
    {first second current current' : ViolationRecord} {mode mode' : BindingMode}
    (hfirst : first ∈ wantedRecords execution) (hsecond : second ∈ wantedRecords execution)
    (hbound : bindViolation fingerprints context first = .ok (current, mode))
    (hbound' : bindViolation fingerprints context second = .ok (current', mode'))
    (hne : first.violationId ≠ second.violationId) :
    current.violationId ≠ current'.violationId := by
  by_cases hlost : Lost context first
  · have hclaims := hapart.apart first hfirst hlost current (mem_of_bound hbound)
      (sameMarker_of_bound hbound hlost) second hsecond (Ne.symm hne)
    by_cases hlost' : Lost context second
    · exact (hclaims.2 hlost' current' (mem_of_bound hbound')
        (sameMarker_of_bound hbound' hlost')).symm
    · rw [id_of_bound hbound' hlost']
      exact hclaims.1
  · rw [id_of_bound hbound hlost]
    by_cases hlost' : Lost context second
    · exact (hapart.apart second hsecond hlost' current' (mem_of_bound hbound')
        (sameMarker_of_bound hbound' hlost') first hfirst hne).1.symm
    · rwa [id_of_bound hbound' hlost']

theorem bijective_of_bindsApart (h : build fingerprints execution context = .ok result)
    (hapart : BindsApart fingerprints execution context) :
    Bijective fingerprints execution context result where
  bound id hid := (length_filter_bindings h hid).trans (hapart.recorded id hid)
  apart first hfirst second hsecond hne := by
    obtain ⟨formal, hformal, current, hbinds⟩ := binds_of_mem h hfirst
    obtain ⟨formal', hformal', current', hbinds'⟩ := binds_of_mem h hsecond
    obtain ⟨mode, hbound⟩ := hbinds.bound
    obtain ⟨mode', hbound'⟩ := hbinds'.bound
    rw [hbinds.formalId, hbinds'.formalId] at hne
    rw [hbinds.semanticId, hbinds'.semanticId]
    exact hapart.target_ne hformal hformal' hbound hbound' hne
  sameRule formal hformal current mode hbound := by
    rcases bindViolation_eq_ok hbound with ⟨hdirect, -⟩ | ⟨hlost, -⟩
    · exact hapart.sameRule formal hformal current hdirect
    · exact (sameMarker_of_bound hbound hlost).1

/-- Where the bindings are one to one, the targets of two violations differ. -/
theorem Bijective.target_ne (hbijective : Bijective fingerprints execution context result)
    (h : build fingerprints execution context = .ok result)
    {first second current current' : ViolationRecord} {mode mode' : BindingMode}
    (hfirst : first ∈ wantedRecords execution) (hsecond : second ∈ wantedRecords execution)
    (hbound : bindViolation fingerprints context first = .ok (current, mode))
    (hbound' : bindViolation fingerprints context second = .ok (current', mode'))
    (hne : first.violationId ≠ second.violationId) :
    current.violationId ≠ current'.violationId := by
  obtain ⟨binding, hbinding, found, hbinds⟩ := exists_binds h hfirst
  obtain ⟨binding', hbinding', found', hbinds'⟩ := exists_binds h hsecond
  have htargets := hbijective.apart binding hbinding binding' hbinding'
  rw [hbinds.formalId, hbinds'.formalId, hbinds.semanticId, hbinds'.semanticId] at htargets
  -- the binding of a violation is of the one that it is bound to
  obtain ⟨_, hfound⟩ := hbinds.bound
  obtain ⟨_, hfound'⟩ := hbinds'.bound
  rw [hbound] at hfound
  rw [hbound'] at hfound'
  rw [(Prod.mk.inj (Except.ok.inj hfound)).1, (Prod.mk.inj (Except.ok.inj hfound')).1]
  exact htargets hne

theorem bindsApart_of_bijective (h : build fingerprints execution context = .ok result)
    (hbijective : Bijective fingerprints execution context result) :
    BindsApart fingerprints execution context where
  recorded id hid := (length_filter_bindings h hid).symm.trans (hbijective.bound id hid)
  sameRule formal hformal current hdirect := by
    refine hbijective.sameRule formal hformal current .exactCurrentId ?_
    rw [bindViolation, hdirect]
  apart formal hformal hlost current hcurrent hsame other hother hne := by
    obtain ⟨found, mode, hbound⟩ := exists_bound h hformal
    obtain ⟨found', mode', hbound'⟩ := exists_bound h hother
    have htargets := hbijective.target_ne h hformal hother hbound hbound' (Ne.symm hne)
    rw [← eq_of_sameMarker hbound hlost hcurrent hsame] at htargets
    constructor
    · intro hid
      have hkept : ¬ Lost context other := fun hlost' => hlost' current hcurrent hid
      exact htargets (hid.trans (id_of_bound hbound' hkept).symm)
    · intro hlost' current' hcurrent' hsame'
      rw [eq_of_sameMarker hbound' hlost' hcurrent' hsame']
      exact htargets.symm

/-- **One to one.**  The bindings of a result are a bijection onto their image that keeps
the rules exactly when each violation of the region has one record, an id is found with its
rule, and no two violations of the region claim one current violation. -/
theorem bindings_bijective_iff (h : build fingerprints execution context = .ok result) :
    Bijective fingerprints execution context result ↔
      BindsApart fingerprints execution context :=
  ⟨bindsApart_of_bijective h, bijective_of_bindsApart h⟩

end Build

/-! ## A renamed violation, and a repaired one -/

/-- A hash that writes the parts one after the other. -/
def plainFingerprints : Fingerprints where
  normalizedMarker := ViolationRecord.marker
  stableHash := fun parts => ":".intercalate parts

/-- A violation at a marker. -/
def spacingAt (id marker : String) : ViolationRecord := ⟨id, "M1.SPACE", marker⟩

def twoViolations : FormalKernelExecutionContext where
  regionId := "R1"
  regionViolationIds := ["v1", "v2"]
  violations := [spacingAt "v1" "0 0 10 10", spacingAt "v2" "40 0 50 10"]

/-- The first violation has got another id, and the second has kept its own. -/
def renamedContext : CurrentSemanticContext where
  violations := [spacingAt "w1" "0 0 10 10", spacingAt "v2" "40 0 50 10"]
  violationToRegion := [("w1", "S1"), ("v2", "S1")]
  regionIds := ["S1"]

/-- The bindings of the two violations. -/
def renamedBindings : List FormalSemanticBinding :=
  [⟨"R1", "S1", "v1", "w1", "M1.SPACE", "NORMALIZED_MARKER_FINGERPRINT",
      "R1:S1:v1:w1:NORMALIZED_MARKER_FINGERPRINT"⟩,
    ⟨"R1", "S1", "v2", "v2", "M1.SPACE", "EXACT_CURRENT_ID", "R1:S1:v2:v2:EXACT_CURRENT_ID"⟩]

theorem build_renamed : build plainFingerprints twoViolations renamedContext =
    .ok ⟨renamedContext, renamedBindings⟩ := by
  rfl

/-- The renamed violation is lost, and what has its marker has an id of its own. -/
theorem bindings_bijective_renamed :
    BindsApart plainFingerprints twoViolations renamedContext := by
  refine (bindings_bijective_iff build_renamed).1 ⟨by decide +kernel, by decide +kernel, ?_⟩
  have hwanted : wantedRecords twoViolations = twoViolations.violations := rfl
  rw [hwanted]
  simp only [twoViolations, forall_mem_cons, not_mem_nil, IsEmpty.forall_iff,
    implies_true, and_true]
  constructor
  · intro current mode h
    obtain ⟨rfl, -⟩ := Prod.mk.inj (Except.ok.inj h)
    rfl
  · intro current mode h
    obtain ⟨rfl, -⟩ := Prod.mk.inj (Except.ok.inj h)
    rfl

/-- Two violations were reported at one marker. -/
def doubledViolations : FormalKernelExecutionContext where
  regionId := "R1"
  regionViolationIds := ["v1", "v2"]
  violations := [spacingAt "v1" "0 0 10 10", spacingAt "v2" "0 0 10 10"]

/-- One of the two is gone. -/
def repairedContext : CurrentSemanticContext where
  violations := [spacingAt "v1" "0 0 10 10"]
  violationToRegion := [("v1", "S1")]
  regionIds := ["S1"]

/-- Both are bound to the one that is left. -/
def sharedBindings : List FormalSemanticBinding :=
  [⟨"R1", "S1", "v1", "v1", "M1.SPACE", "EXACT_CURRENT_ID", "R1:S1:v1:v1:EXACT_CURRENT_ID"⟩,
    ⟨"R1", "S1", "v2", "v1", "M1.SPACE", "NORMALIZED_MARKER_FINGERPRINT",
      "R1:S1:v2:v1:NORMALIZED_MARKER_FINGERPRINT"⟩]

/-- The violation that is gone is bound to the one that is left, which has a binding of its
own. -/
theorem bindings_not_bijective :
    build plainFingerprints doubledViolations repairedContext =
        .ok ⟨repairedContext, sharedBindings⟩ ∧
      ¬ Bijective plainFingerprints doubledViolations repairedContext
        ⟨repairedContext, sharedBindings⟩ := by
  refine ⟨rfl, fun h => ?_⟩
  have htargets : ∀ first ∈ sharedBindings, ∀ second ∈ sharedBindings,
      first.formalViolationId ≠ second.formalViolationId →
        first.semanticViolationId ≠ second.semanticViolationId := h.apart
  revert htargets
  decide +kernel

end DRCAgent.Semantic
