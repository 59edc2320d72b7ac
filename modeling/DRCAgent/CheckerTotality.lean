/-
# When the checker returns a report

`CandidateChecker.validate` raises where a check that is reached reads a value that is
missing or malformed. An edit target that the design does not have is such a value: level
0 looks at the targets of the candidate, and level 2 at those of its edits. Others are
the parameters of a semantic predicate, which two of the four kinds take as given.

Main result:

* `validate_returns_iff`: `validate` returns exactly when every check that it reaches can
  read what it reads.
-/
import DRCAgent.CheckerReads
import DRCAgent.RegionPartition

namespace DRCAgent.Candidates

open Failures List Option
open Connectivity (Json PyError)
open Regions (Box RuleFamily EditabilityClass ViolationRecord Doubles)
open EditAuthority (inside)

/-! ## Checks -/

/-- The exit is an exception. -/
def Exit.IsRaised : Exit → Prop
  | .refused _ _ => False
  | .raised _ => True

section Checks

variable {α β : Type} {candidate : RepairCandidate}

theorem never_fail {level : ℕ} {code message : String} {status : CandidateValidationStatus} :
    Never Exit.IsRaised (fail level code message status : Check α) :=
  (never_error _).2 not_false

theorem fail_ne_ok {level : ℕ} {code message : String} {status : CandidateValidationStatus}
    {a : α} : fail level code message status ≠ .ok a := fun h => nomatch h

theorem never_attempt {x : Except PyError α} :
    Never Exit.IsRaised (attempt x) ↔ Never anything x := by
  cases x with
  | ok a => exact ⟨fun _ => never_ok a, fun _ => never_ok a⟩
  | error e =>
    constructor
    · exact fun h => absurd trivial ((never_error _).1 h)
    · exact fun h => absurd h not_never_error

theorem attempt_eq_ok {x : Except PyError α} {a : α} : attempt x = .ok a ↔ x = .ok a := by
  cases x with
  | ok b => exact ⟨fun h => congrArg _ (Except.ok.inj h), fun h => congrArg _ (Except.ok.inj h)⟩
  | error e => exact ⟨fun h => (nomatch h), fun h => (nomatch h)⟩

/-- A refusal that a condition guards. -/
theorem refuse_eq_ok {c : Prop} [Decidable c] {level : ℕ} {code message : String}
    {status : CandidateValidationStatus} {x : Check α} {a : α} :
    (if c then fail level code message status else x) = .ok a ↔ ¬ c ∧ x = .ok a :=
  guard_eq_ok

theorem never_refuse {c : Prop} [Decidable c] {level : ℕ} {code message : String}
    {status : CandidateValidationStatus} {x : Check α} (h : Never Exit.IsRaised x) :
    Never Exit.IsRaised (if c then fail level code message status else x) :=
  never_ite.2 ⟨fun _ => never_fail, fun _ => h⟩

/-- **A stage returns** where its check does not raise and what follows a check that passes
returns. -/
theorem stage_returns {levels : List ℕ} {check : Check α} {rest : α → Except PyError Validation} :
    (∃ v, stage candidate levels check rest = .ok v) ↔
      Never Exit.IsRaised check ∧ ∀ a, check = .ok a → ∃ v, rest a = .ok v := by
  cases check with
  | ok a =>
    constructor
    · intro h
      refine ⟨never_ok a, fun b hb => ?_⟩
      rwa [← Except.ok.inj hb]
    · exact fun h => h.2 a rfl
  | error exit =>
    cases exit with
    | refused issue status => exact ⟨fun _ => ⟨never_fail, fun _ h => (nomatch h)⟩, fun _ => ⟨_, rfl⟩⟩
    | raised e =>
      constructor
      · rintro ⟨v, h⟩
        cases h
      · exact fun h => absurd trivial ((never_error _).1 h.1)

/-- A stage whose check only passes or not. -/
theorem stage_unit_returns {levels : List ℕ} {check : Check Unit} {x : Except PyError Validation} :
    (∃ v, stage candidate levels check (fun _ => x) = .ok v) ↔
      Never Exit.IsRaised check ∧ (check = .ok () → ∃ v, x = .ok v) := by
  rw [stage_returns]
  exact and_congr_right fun _ => ⟨fun h hok => h () hok, fun h _ hok => h hok⟩

/-- What the report of an issue checks. -/
theorem never_issueCheck {x : Except PyError (Option (String × String))} :
    Never Exit.IsRaised (issueCheck x) ↔ Never anything x := by
  rw [issueCheck, never_bind, never_attempt]
  refine and_iff_left fun issue _ => ?_
  cases issue with
  | none => exact never_pure _
  | some issue => exact never_fail

theorem issueCheck_eq_ok {x : Except PyError (Option (String × String))} :
    issueCheck x = .ok () ↔ x = .ok none := by
  rw [issueCheck, bind_eq_ok]
  constructor
  · rintro ⟨issue, hx, h⟩
    rw [attempt_eq_ok] at hx
    cases issue with
    | none => exact hx
    | some issue => exact absurd h fail_ne_ok
  · exact fun h => ⟨none, attempt_eq_ok.2 h, rfl⟩

end Checks

/-! ## What lets a candidate pass -/

section Passing

variable (ext : Externals) (candidate : RepairCandidate) (region : RegionState)
  (design : DesignState) (allowedActionFamilies : List String) (violations : Violations)

/-- The candidate is one of the region, with an action that is allowed. -/
def Identified : Prop :=
  candidate.regionId = region.regionId ∧ candidate.candidateId ≠ "" ∧
    candidate.actionFamily ∈ allowedActionFamilies

/-- A routing macro replaces one polygon in one group, with vias at a change of layer. -/
def Routed : Prop :=
  candidate.isRouting = true →
    ((replacementEdits candidate).map (·.replacementGroupId)).dedup.length = 1 ∧
    (candidate.edits.map (·.op)).count .deletePolygon = 1 ∧
    (∃ edit ∈ candidate.edits, edit.op = .addPolygon ∧ edit.targetObjectIds ≠ [] ∧
      edit.afterPolygons ≠ []) ∧
    (candidate.actionFamily = ActionType.changeLayer.value →
      2 ≤ (candidate.edits.map (·.op)).count .addViaStack)

/-- The targets are known. -/
def Targeted : Prop :=
  (∀ id ∈ candidate.targetViolationIds, id ∈ region.violationIds) ∧
    (∀ id ∈ candidate.targetObjectIds, id ∈ design.objects.map (·.1)) ∧
    ∀ id ∈ candidate.targetViolationIds, id ∈ violations.byId.map (·.1)

/-- The valid objects of the ids. -/
def targetObjects (design : DesignState) (ids : List String) : List LayoutObject :=
  ids.filterMap fun id =>
    match design.objects.lookup id with
    | some (.record obj) => some obj
    | _ => none

/-- The target objects that are related to the violation. -/
def relatedTo (violation : ViolationRecord) : List LayoutObject :=
  relatedObjects (targetObjects design candidate.targetObjectIds) violation

/-- A target object is related to the violation, and it or the decomposition is near. -/
def Related (violationId : String) : Prop :=
  ∃ violation, violations.byId.lookup violationId = some violation ∧
    relatedTo candidate design violation ≠ [] ∧
    ∃ expanded, expandBox violation.markerBboxDbu (influence candidate design) = .ok expanded ∧
      (nearTarget candidate (relatedTo candidate design violation) violation expanded = true ∨
        localDecompositionTargetsViolation ext candidate design violationId = .ok true)

/-- The sources are those the candidate was made for, and the edits of an anchor go together. -/
def Sourced : Prop :=
  (∀ target ∈ candidate.sourceTargets,
    design.sourceHashes.lookup target.sourceAnchorId = some target.sourceHash) ∧
  ∀ entry ∈ editsByAnchor candidate, entry.2.length ≤ 1 ∨ validReplacement entry.2 = true ∨
    validDirectPlusSpecialization entry.2 = true

/-- The class of the object admits the edit. -/
def EditAllowed (entry : LayoutEdit × String) : Prop :=
  ∃ obj, design.objects.lookup entry.2 = some (.record obj) ∧
    match obj.editability with
    | .D => False
    | .C => entry.1.op = .adjustEndpoint ∨ provenLocalDecomposition ext candidate design = .ok true
    | .A => entry.1.op.onViaStack = true
    | .B => True

/-- The polygon is on the grid, simple and within the die. -/
def PolygonLegal (polygon : List Point) : Prop :=
  (∀ p ∈ polygon, p.x % design.manufacturingGridDbu = 0 ∧ p.y % design.manufacturingGridDbu = 0) ∧
    polygonAccepted polygon = true ∧
    ∀ die, design.dieBoundary = some die → ∀ p ∈ polygon, inside die p = true

/-- The layer that an edit names is legal, where there are legal layers. -/
def LayerLegal (edit : LayoutEdit) : Prop :=
  edit.layerAfter.getD "" ≠ "" → design.legalLayers ≠ [] →
    edit.layerAfter.getD "" ∈ design.legalLayers

/-- The after polygons and layers are legal. -/
def GeometryLegal : Prop :=
  ∀ edit ∈ candidate.edits, (∀ polygon ∈ edit.afterPolygons, PolygonLegal design polygon) ∧
    LayerLegal design edit

variable {ext candidate region design allowedActionFamilies violations}

theorem never_identityCheck :
    Never Exit.IsRaised (identityCheck candidate region allowedActionFamilies) :=
  never_refuse (never_refuse (never_ok _))

theorem identityCheck_eq_ok : identityCheck candidate region allowedActionFamilies = .ok () ↔
    Identified candidate region allowedActionFamilies := by
  rw [identityCheck, refuse_eq_ok, refuse_eq_ok, and_iff_left rfl, Identified, not_or, not_not,
    not_not, and_assoc]

theorem never_routingCheck : Never Exit.IsRaised (routingCheck candidate) :=
  never_ite.2 ⟨fun _ => never_ok _,
    fun _ => never_refuse (never_refuse (never_refuse (never_refuse (never_ok _))))⟩

theorem routingCheck_eq_ok : routingCheck candidate = .ok () ↔ Routed candidate := by
  rw [routingCheck, Routed]
  by_cases hrouting : candidate.isRouting = true
  · have hadds : (candidate.edits.any fun edit => edit.op = .addPolygon &&
        !edit.targetObjectIds.isEmpty && !edit.afterPolygons.isEmpty) = true ↔
        ∃ edit ∈ candidate.edits, edit.op = .addPolygon ∧ edit.targetObjectIds ≠ [] ∧
          edit.afterPolygons ≠ [] := by
      simp [and_assoc]
    rw [if_neg (by simp [hrouting]), refuse_eq_ok, refuse_eq_ok, refuse_eq_ok, refuse_eq_ok,
      imp_iff_right hrouting, not_not, not_not, Bool.not_eq_true', ← Bool.not_eq_true, not_not,
      hadds, not_and, Nat.not_lt, and_iff_left rfl]
  · rw [if_pos (by simp [hrouting])]
    exact ⟨fun _ h => absurd h hrouting, fun _ => rfl⟩

theorem never_targetCheck :
    Never Exit.IsRaised (targetCheck candidate region design violations) :=
  never_refuse (never_refuse (never_refuse (never_ok _)))

theorem targetCheck_eq_ok : targetCheck candidate region design violations = .ok () ↔
    Targeted candidate region design violations := by
  rw [targetCheck, refuse_eq_ok, refuse_eq_ok, refuse_eq_ok, Targeted]
  simp

/-- The valid objects are those that are read. -/
theorem mapM_record {ids : List String} (h : ∀ id ∈ ids, Readable design id) :
    ids.mapM design.record = .ok (targetObjects design ids) := by
  induction ids with
  | nil => rfl
  | cons id ids ih =>
    obtain ⟨obj, hobj⟩ := h id List.mem_cons_self
    rw [List.mapM_cons, record_eq_ok.2 hobj, ih fun other hother =>
      h other (List.mem_cons_of_mem _ hother), targetObjects, targetObjects,
      List.filterMap_cons, hobj]
    rfl

theorem relationCheck_eq_ok {violationId : String} {related : List LayoutObject} :
    relationCheck ext candidate design violations
        (targetObjects design candidate.targetObjectIds) violationId = .ok related ↔
      Related ext candidate design violations violationId ∧
        ∃ violation, violations.byId.lookup violationId = some violation ∧
          related = relatedTo candidate design violation := by
  rw [relationCheck, Related]
  cases violations.byId.lookup violationId with
  | none =>
    constructor
    · exact fun h => nomatch h
    · rintro ⟨⟨_, h, -⟩, -⟩
      cases h
  | some violation =>
    dsimp only
    rw [refuse_eq_ok, bind_eq_ok, List.isEmpty_iff]
    simp only [attempt_eq_ok]
    constructor
    · rintro ⟨hne, expanded, hexpanded, hpass⟩
      split_ifs at hpass with hnear
      · obtain rfl := Except.ok.inj hpass
        exact ⟨⟨violation, rfl, hne, expanded, hexpanded, .inl hnear⟩, violation, rfl, rfl⟩
      · obtain ⟨targets, htargets, hpass⟩ := bind_eq_ok.1 hpass
        rw [attempt_eq_ok] at htargets
        cases targets with
        | false => exact absurd hpass fail_ne_ok
        | true =>
          obtain rfl := Except.ok.inj hpass
          exact ⟨⟨violation, rfl, hne, expanded, hexpanded, .inr htargets⟩, violation, rfl, rfl⟩
    · rintro ⟨⟨other, hother, hne, expanded, hexpanded, hpass⟩, other', hother', rfl⟩
      obtain rfl := some.inj hother
      obtain rfl := some.inj hother'
      refine ⟨hne, expanded, hexpanded, ?_⟩
      split_ifs with hnear
      · rfl
      · refine bind_eq_ok.2 ⟨true, attempt_eq_ok.2 (hpass.resolve_left hnear), rfl⟩

theorem never_sourceCheck : Never Exit.IsRaised (sourceCheck candidate design) := by
  rw [sourceCheck, never_bind, never_forM]
  refine ⟨fun target _ => ?_, fun _ _ => never_forM.2 fun entry _ => ?_⟩
  · rw [sourceTargetCheck]
    split
    · exact never_fail
    · exact never_refuse (never_ok _)
  · rw [anchorCheck]
    exact never_ite.2 ⟨fun _ => never_ok _, fun _ => never_fail⟩

theorem sourceCheck_eq_ok : sourceCheck candidate design = .ok () ↔ Sourced candidate design := by
  have htarget : ∀ target : SourceTarget, sourceTargetCheck design target = .ok () ↔
      design.sourceHashes.lookup target.sourceAnchorId = some target.sourceHash := by
    intro target
    rw [sourceTargetCheck]
    cases design.sourceHashes.lookup target.sourceAnchorId with
    | none => exact ⟨fun h => absurd h fail_ne_ok, fun h => (nomatch h)⟩
    | some hash =>
      dsimp only
      rw [refuse_eq_ok, and_iff_left rfl, not_not, some_inj]
  have hanchor : ∀ entry : String × List LayoutEdit, anchorCheck entry = .ok () ↔
      entry.2.length ≤ 1 ∨ validReplacement entry.2 = true ∨
        validDirectPlusSpecialization entry.2 = true := by
    intro entry
    rw [anchorCheck]
    split_ifs with h
    · exact ⟨fun _ => h, fun _ => rfl⟩
    · exact ⟨fun hok => absurd hok fail_ne_ok, fun hok => absurd hok h⟩
  rw [sourceCheck, Sourced, bind_eq_ok]
  constructor
  · rintro ⟨_, htargets, hanchors⟩
    exact ⟨fun target hmem => (htarget target).1 (forM_eq_ok.1 htargets target hmem),
      fun entry hmem => (hanchor entry).1 (forM_eq_ok.1 hanchors entry hmem)⟩
  · rintro ⟨htargets, hanchors⟩
    exact ⟨(), forM_eq_ok.2 fun target hmem => (htarget target).2 (htargets target hmem),
      forM_eq_ok.2 fun entry hmem => (hanchor entry).2 (hanchors entry hmem)⟩

/-- An edit can be checked where its object is valid, and the decomposition can be read
where the class asks for it. -/
def EditDefined (ext : Externals) (candidate : RepairCandidate) (design : DesignState)
    (entry : LayoutEdit × String) : Prop :=
  ∃ obj, design.objects.lookup entry.2 = some (.record obj) ∧
    (obj.editability = .C → entry.1.op ≠ .adjustEndpoint →
      DecompositionDefined ext candidate design)

theorem never_editCheck {entry : LayoutEdit × String} :
    Never Exit.IsRaised (editCheck ext candidate design entry) ↔
      EditDefined ext candidate design entry := by
  rw [editCheck, EditDefined, never_bind, never_attempt, never_anything]
  simp only [attempt_eq_ok, record_eq_ok]
  constructor
  · rintro ⟨⟨obj, hobj⟩, h⟩
    refine ⟨obj, hobj, fun hclass hop => ?_⟩
    have hcheck := h obj hobj
    rw [hclass] at hcheck
    dsimp only at hcheck
    rw [if_neg hop, never_bind, never_attempt] at hcheck
    exact never_provenLocalDecomposition.1 hcheck.1
  · rintro ⟨obj, hobj, h⟩
    refine ⟨⟨obj, hobj⟩, fun other hother => ?_⟩
    obtain rfl := RawObject.record.inj (some.inj (hobj.symm.trans hother))
    cases hclass : obj.editability with
    | A => exact never_ite.2 ⟨fun _ => never_pure _, fun _ => never_fail⟩
    | B => exact never_pure _
    | C =>
      refine never_ite.2 ⟨fun _ => never_pure _, fun hop => never_bind.2 ⟨?_, fun proven _ => ?_⟩⟩
      · exact never_attempt.2 (never_provenLocalDecomposition.2 (h hclass hop))
      · exact never_ite.2 ⟨fun _ => never_pure _, fun _ => never_fail⟩
    | D => exact never_fail

theorem editCheck_eq_ok {entry : LayoutEdit × String} :
    editCheck ext candidate design entry = .ok () ↔ EditAllowed ext candidate design entry := by
  rw [editCheck, EditAllowed, bind_eq_ok]
  refine exists_congr fun obj => ?_
  rw [attempt_eq_ok, record_eq_ok]
  refine and_congr_right fun _ => ?_
  cases obj.editability with
  | A =>
    dsimp only
    split_ifs with hop
    · exact ⟨fun _ => hop, fun _ => rfl⟩
    · exact ⟨fun h => absurd h fail_ne_ok, fun h => absurd h hop⟩
  | B => exact ⟨fun _ => trivial, fun _ => rfl⟩
  | C =>
    dsimp only
    split_ifs with hop
    · exact ⟨fun _ => .inl hop, fun _ => rfl⟩
    · rw [or_iff_right hop, bind_eq_ok]
      constructor
      · rintro ⟨proven, hproven, h⟩
        cases proven with
        | false => exact absurd h fail_ne_ok
        | true => exact attempt_eq_ok.1 hproven
      · exact fun h => ⟨true, attempt_eq_ok.2 h, rfl⟩
  | D => exact ⟨fun h => absurd h fail_ne_ok, False.elim⟩

theorem never_geometryCheck : Never Exit.IsRaised (geometryCheck candidate design) := by
  rw [geometryCheck, never_forM]
  refine fun edit _ => never_bind.2 ⟨never_forM.2 fun polygon _ => ?_, fun _ _ => ?_⟩
  · exact never_refuse (never_refuse (never_refuse (never_ok _)))
  · exact never_refuse (never_ok _)

theorem geometryCheck_eq_ok :
    geometryCheck candidate design = .ok () ↔ GeometryLegal candidate design := by
  have hpolygon : ∀ polygon, polygonCheck design polygon = .ok () ↔ PolygonLegal design polygon := by
    intro polygon
    rw [polygonCheck, PolygonLegal, refuse_eq_ok, refuse_eq_ok, refuse_eq_ok, and_iff_left rfl]
    cases design.dieBoundary with
    | none => simp
    | some die => simp
  have hlayer : ∀ edit, layerCheck design edit = .ok () ↔ LayerLegal design edit := by
    intro edit
    rw [layerCheck, LayerLegal, refuse_eq_ok, and_iff_left rfl, not_and, not_and, not_not]
  rw [geometryCheck, GeometryLegal, forM_eq_ok]
  refine forall₂_congr fun edit _ => ?_
  rw [bind_eq_ok]
  constructor
  · rintro ⟨_, hpolygons, hlast⟩
    exact ⟨fun polygon hmem => (hpolygon polygon).1 (forM_eq_ok.1 hpolygons polygon hmem),
      (hlayer edit).1 hlast⟩
  · rintro ⟨hpolygons, hlast⟩
    exact ⟨(), forM_eq_ok.2 fun polygon hmem => (hpolygon polygon).2 (hpolygons polygon hmem),
      (hlayer edit).2 hlast⟩

theorem GeometryLegal.drawn (h : GeometryLegal candidate design) : PolygonsDrawn candidate := by
  rintro edit hedit polygon hpolygon rfl
  have haccepted := ((h edit hedit).1 [] hpolygon).2.1
  cases haccepted

theorem never_resourceCheck : Never Exit.IsRaised (resourceCheck candidate design) := by
  rw [resourceCheck, never_bind]
  refine ⟨never_foldlM (fun demand claim => ?_) _, fun _ _ => never_pure _⟩
  exact never_refuse (never_ok _)

theorem never_patchAnchorCheck : Never Exit.IsRaised (patchAnchorCheck candidate) :=
  never_refuse (never_ok _)

end Passing

/-! ## The whole run -/

section Run

variable (D : Type) [CheckedDoubles D] (ext : Externals) (candidate : RepairCandidate)
  (region : RegionState) (design : DesignState) (allowedActionFamilies : List String)
  (violations : Violations)

/-- The candidate is no `NO_OP`, and the checks before those of the relations pass. -/
structure PassesRequest : Prop where
  identified : Identified candidate region allowedActionFamilies
  mutates : candidate.isNoop = false
  routed : Routed candidate
  targeted : Targeted candidate region design violations

/-- Level 0 passes. -/
structure PassesLevel0 : Prop extends
    PassesRequest candidate region design allowedActionFamilies violations where
  readable : ∀ id ∈ candidate.targetObjectIds, Readable design id
  related : ∀ id ∈ candidate.targetViolationIds, Related ext candidate design violations id

/-- Level 2 passes. -/
structure PassesLevel2 : Prop extends
    PassesLevel0 ext candidate region design allowedActionFamilies violations where
  sourced : Sourced candidate design
  edits : ∀ entry ∈ editTargets candidate, EditAllowed ext candidate design entry

/-- Level 3 passes. -/
structure PassesLevel3 : Prop extends
    PassesLevel2 ext candidate region design allowedActionFamilies violations where
  geometry : GeometryLegal candidate design
  semantics : ∀ predicate ∈ candidate.semanticPostconditions,
    predicateIssue ext candidate design predicate = .ok none
  locality : localityIssue ext candidate design region violations.byId = .ok none

/-- The decomposition can be read where a violation is not near otherwise. -/
def RelationDefined (id : String) : Prop :=
  ∀ violation, violations.byId.lookup id = some violation →
    relatedTo candidate design violation ≠ [] → ∀ expanded,
      expandBox violation.markerBboxDbu (influence candidate design) = .ok expanded →
      nearTarget candidate (relatedTo candidate design violation) violation expanded = false →
        TargetsDefined ext candidate design

/-- The distances of the heuristic are not too large. -/
def EffectsDefined : Prop :=
  ∀ id ∈ candidate.targetViolationIds, ∀ violation, violations.byId.lookup id = some violation →
    HeuristicDefined D candidate violation (relatedTo candidate design violation)

/-- The relations that the levels after the first go by. -/
def RelationsOf (related : List (String × List LayoutObject)) : Prop :=
  ∀ entry, entry ∈ related ↔ entry.1 ∈ candidate.targetViolationIds ∧
    ∃ violation, violations.byId.lookup entry.1 = some violation ∧
      entry.2 = relatedTo candidate design violation

/-- **Every check that is reached can read what it reads.** -/
structure ChecksDefined : Prop where
  /-- The targets of the candidate are valid objects. -/
  targets : PassesRequest candidate region design allowedActionFamilies violations →
    ∀ id ∈ candidate.targetObjectIds, Readable design id
  /-- The target violations can be looked at. -/
  relations : PassesRequest candidate region design allowedActionFamilies violations →
    (∀ id ∈ candidate.targetObjectIds, Readable design id) →
    ∀ id, ReachedIn (Related ext candidate design violations) candidate.targetViolationIds id →
      RelationDefined ext candidate design violations id
  /-- The targets of the edits are valid objects. -/
  edits : PassesLevel0 ext candidate region design allowedActionFamilies violations →
    Sourced candidate design →
    ∀ entry, ReachedIn (EditAllowed ext candidate design) (editTargets candidate) entry →
      EditDefined ext candidate design entry
  /-- The parameters of the semantic predicates can be read. -/
  predicates : PassesLevel2 ext candidate region design allowedActionFamilies violations →
    GeometryLegal candidate design →
    ∀ predicate, ReachedIn (fun other => predicateIssue ext candidate design other = .ok none)
        candidate.semanticPostconditions predicate →
      PredicateDefined ext candidate design predicate
  /-- The decomposition can be read where the footprint misses its targets. -/
  locality : PassesLevel2 ext candidate region design allowedActionFamilies violations →
    GeometryLegal candidate design →
    (∀ predicate ∈ candidate.semanticPostconditions,
      predicateIssue ext candidate design predicate = .ok none) →
    LocalityDefined ext candidate design region violations.byId
  /-- The distances of the heuristic are not too large. -/
  effects : PassesLevel3 ext candidate region design allowedActionFamilies violations →
    EffectsDefined D candidate design violations

variable {D ext candidate region design allowedActionFamilies violations}

/-- An entry that is assigned. -/
theorem relationEntry_eq_ok {id : String} {entry : String × List LayoutObject} :
    relationEntry ext candidate design violations
        (targetObjects design candidate.targetObjectIds) id = .ok entry ↔
      Related ext candidate design violations id ∧
        ∃ violation, violations.byId.lookup id = some violation ∧
          entry = (id, relatedTo candidate design violation) := by
  rw [relationEntry, bind_eq_ok]
  simp only [relationCheck_eq_ok]
  constructor
  · rintro ⟨related, ⟨hrelated, violation, hviolation, rfl⟩, h⟩
    exact ⟨hrelated, violation, hviolation, (Except.ok.inj h).symm⟩
  · rintro ⟨hrelated, violation, hviolation, rfl⟩
    exact ⟨_, ⟨hrelated, violation, hviolation, rfl⟩, rfl⟩

theorem exists_relationEntry {id : String} :
    (∃ entry, relationEntry ext candidate design violations
      (targetObjects design candidate.targetObjectIds) id = .ok entry) ↔
        Related ext candidate design violations id := by
  simp only [relationEntry_eq_ok]
  constructor
  · rintro ⟨_, h, -⟩
    exact h
  · intro h
    obtain ⟨violation, hviolation, hrest⟩ := h
    exact ⟨_, ⟨violation, hviolation, hrest⟩, violation, hviolation, rfl⟩

/-- The checks of the relations, where the target objects are valid. -/
theorem relationsCheck_eq (hreadable : ∀ id ∈ candidate.targetObjectIds, Readable design id) :
    relationsCheck ext candidate design violations =
      candidate.targetViolationIds.mapM (relationEntry ext candidate design violations
        (targetObjects design candidate.targetObjectIds)) >>= fun related =>
          pure (Dicts.ofList related) := by
  rw [relationsCheck, mapM_record hreadable]
  rfl

theorem never_relationCheck {id : String} (hknown : id ∈ violations.byId.map (·.1)) :
    Never Exit.IsRaised (relationCheck ext candidate design violations
      (targetObjects design candidate.targetObjectIds) id) ↔
        RelationDefined ext candidate design violations id := by
  have hgrow : ∀ box : Box, Never anything (expandBox box (influence candidate design)) := by
    intro box
    refine never_expandBox.2 (grows_of_nonneg ?_)
    exact le_max_of_le_left (by have := design.grid_pos; omega)
  rw [relationCheck, RelationDefined]
  cases hlookup : violations.byId.lookup id with
  | none =>
    obtain ⟨entry, hentry, rfl⟩ := List.mem_map.1 hknown
    exact absurd (List.lookup_eq_none_iff.1 hlookup entry hentry) (by simp)
  | some violation =>
    dsimp only
    rw [never_ite, and_iff_right fun _ => never_fail, List.isEmpty_iff, never_bind, never_attempt,
      and_iff_right (hgrow _)]
    simp only [attempt_eq_ok, never_ite, never_pure, implies_true, true_and, never_bind,
      never_attempt, never_localDecompositionTargetsViolation, never_fail, Bool.not_eq_true,
      and_true]
    constructor
    · intro h other hother
      rwa [← some.inj hother]
    · exact fun h => h violation rfl

/-- **The relations do not raise** exactly when the targets are valid and the violations that
are reached can be looked at. -/
theorem never_relationsCheck
    (hknown : ∀ id ∈ candidate.targetViolationIds, id ∈ violations.byId.map (·.1)) :
    Never Exit.IsRaised (relationsCheck ext candidate design violations) ↔
      (∀ id ∈ candidate.targetObjectIds, Readable design id) ∧
      ∀ id, ReachedIn (Related ext candidate design violations) candidate.targetViolationIds id →
        RelationDefined ext candidate design violations id := by
  by_cases hreadable : ∀ id ∈ candidate.targetObjectIds, Readable design id
  · rw [and_iff_right hreadable, relationsCheck_eq hreadable, never_bind,
      and_iff_left fun _ _ => never_pure _, never_mapM]
    simp only [exists_relationEntry]
    refine forall₂_congr fun id hid => ?_
    rw [relationEntry, never_bind, and_iff_left fun _ _ => never_pure _,
      never_relationCheck (hknown id hid.mem)]
  · refine ⟨fun h => ?_, fun h => absurd h.1 hreadable⟩
    rw [relationsCheck, never_bind, never_attempt, never_anything_mapM] at h
    exact absurd (fun id hid => never_record.1 (h.1 id hid)) hreadable

/-- **The relations that the check collects.** -/
theorem relationsCheck_ok {related : List (String × List LayoutObject)}
    (h : relationsCheck ext candidate design violations = .ok related) :
    (∀ id ∈ candidate.targetObjectIds, Readable design id) ∧
      (∀ id ∈ candidate.targetViolationIds, Related ext candidate design violations id) ∧
      RelationsOf candidate design violations related := by
  have hreadable : ∀ id ∈ candidate.targetObjectIds, Readable design id := by
    obtain ⟨targets, htargets, -⟩ := bind_eq_ok.1 h
    have hnever := never_anything.2 ⟨_, attempt_eq_ok.1 htargets⟩
    rw [never_anything_mapM] at hnever
    exact fun id hid => never_record.1 (hnever id hid)
  rw [relationsCheck_eq hreadable] at h
  obtain ⟨entries, hentries, h⟩ := bind_eq_ok.1 h
  obtain rfl := Except.ok.inj h
  have hrelated : ∀ id ∈ candidate.targetViolationIds,
      Related ext candidate design violations id := by
    have hnever := never_anything.2 ⟨_, hentries⟩
    rw [never_anything_mapM] at hnever
    exact fun id hid => exists_relationEntry.1 (never_anything.1 (hnever id hid))
  have hmem : ∀ entry, entry ∈ entries ↔ entry.1 ∈ candidate.targetViolationIds ∧
      ∃ violation, violations.byId.lookup entry.1 = some violation ∧
        entry.2 = relatedTo candidate design violation := by
    intro entry
    rw [mem_mapM hentries]
    simp only [relationEntry_eq_ok]
    constructor
    · rintro ⟨id, hid, -, violation, hviolation, rfl⟩
      exact ⟨hid, violation, hviolation, rfl⟩
    · rintro ⟨hid, violation, hviolation, heq⟩
      exact ⟨entry.1, hid, hrelated entry.1 hid, violation, hviolation, Prod.ext rfl heq⟩
  refine ⟨hreadable, hrelated, fun entry => ⟨fun h => (hmem entry).1 (Dicts.mem_ofList h), ?_⟩⟩
  rintro ⟨hid, violation, hviolation, heq⟩
  -- the entry of the key has the value that the key determines
  have hkey : entry.1 ∈ (Dicts.ofList entries).map (·.1) := by
    rw [Dicts.mem_keys_ofList]
    exact List.mem_map_of_mem ((hmem entry).2 ⟨hid, violation, hviolation, heq⟩)
  obtain ⟨other, hother, hfst⟩ := List.mem_map.1 hkey
  obtain ⟨-, violation', hviolation', hsnd⟩ := (hmem other).1 (Dicts.mem_ofList hother)
  rw [hfst, hviolation] at hviolation'
  have hsame : other = entry := by
    refine Prod.ext hfst ?_
    rw [hsnd, heq, some.inj hviolation']
  rwa [← hsame]

/-- The relations are collected where the targets are valid and related. -/
theorem exists_relationsCheck (hreadable : ∀ id ∈ candidate.targetObjectIds, Readable design id)
    (hrelated : ∀ id ∈ candidate.targetViolationIds, Related ext candidate design violations id) :
    ∃ related, relationsCheck ext candidate design violations = .ok related := by
  rw [relationsCheck_eq hreadable, ← never_anything, never_anything_bind_ok fun _ => never_pure _,
    never_anything_mapM]
  exact fun id hid => never_anything.2 (exists_relationEntry.2 (hrelated id hid))

/-- The evidence can be computed exactly when the effects of the relations can, where the
proof engine returns. -/
theorem never_benefitEvidence {related : List (String × List LayoutObject)}
    (hprove : ∀ c v r, ∃ records, ext.prove c v r = .ok records)
    (hknown : ∀ entry ∈ related, ∃ violation, violations.byId.lookup entry.1 = some violation) :
    Never anything (benefitEvidence D ext candidate violations related) ↔
      ∀ entry ∈ related, ∀ violation, violations.byId.lookup entry.1 = some violation →
        HeuristicDefined D candidate violation entry.2 := by
  have hrest : ∀ heuristic : List String, Never anything (do
      let records ← ext.prove candidate violations.byId related
      return ({
        proofCodes := sortedSet (records.map (·.proofCode))
        ruleProofs := records
        heuristicRemovedViolationIds := heuristic.insertionSort (· ≤ ·)
        heuristicDrcBenefitEst := heuristic.length } : BenefitEvidence)) := fun _ =>
    (never_anything_bind_ok fun _ => never_pure _).2 (never_anything.2 (hprove _ _ _))
  rw [benefitEvidence, never_anything_bind_ok hrest, heuristicIds,
    never_anything_bind_ok fun _ => never_pure _, never_anything_mapM]
  refine forall₂_congr fun entry hentry => ?_
  obtain ⟨violation, hviolation⟩ := hknown entry hentry
  rw [heuristicEntry, hviolation]
  dsimp only
  rw [never_anything_bind_ok fun _ => never_pure _, never_heuristicEffect]
  constructor
  · intro h other hother
    rwa [← some.inj hother]
  · exact fun h => h violation rfl

theorem resourceLevels_returns {candidate : RepairCandidate} :
    ∃ v, resourceLevels candidate design = .ok v := by
  rw [resourceLevels, stage_returns, and_iff_right never_resourceCheck]
  intro _ _
  rw [stage_returns, and_iff_right never_patchAnchorCheck]
  exact fun _ _ => ⟨_, rfl⟩

/-- The edits do not raise exactly when those that are reached can be checked. -/
theorem never_editabilityCheck : Never Exit.IsRaised (editabilityCheck ext candidate design) ↔
    ∀ entry, ReachedIn (EditAllowed ext candidate design) (editTargets candidate) entry →
      EditDefined ext candidate design entry := by
  rw [editabilityCheck, never_forM]
  have hgoes : (fun entry => editCheck ext candidate design entry = .ok ⟨⟩) =
      EditAllowed ext candidate design := funext fun _ => propext editCheck_eq_ok
  rw [hgoes]
  exact forall₂_congr fun _ _ => never_editCheck

theorem editabilityCheck_eq_ok : editabilityCheck ext candidate design = .ok () ↔
    ∀ entry ∈ editTargets candidate, EditAllowed ext candidate design entry := by
  rw [editabilityCheck, forM_eq_ok]
  exact forall₂_congr fun _ _ => editCheck_eq_ok

theorem benefitLevels_returns {related : List (String × List LayoutObject)}
    (hprove : ∀ c v r, ∃ records, ext.prove c v r = .ok records)
    (hrelated : RelationsOf candidate design violations related) :
    (∃ v, benefitLevels D ext candidate design violations related = .ok v) ↔
      EffectsDefined D candidate design violations := by
  have hknown : ∀ entry ∈ related, ∃ violation,
      violations.byId.lookup entry.1 = some violation := by
    intro entry hentry
    obtain ⟨-, violation, hviolation, -⟩ := (hrelated entry).1 hentry
    exact ⟨violation, hviolation⟩
  rw [← never_anything, benefitLevels,
    never_anything_bind_ok fun _ => never_anything.2 resourceLevels_returns,
    never_benefitEvidence hprove hknown, EffectsDefined]
  constructor
  · intro h id hid violation hviolation
    exact h (id, _) ((hrelated _).2 ⟨hid, violation, hviolation, rfl⟩) violation hviolation
  · intro h entry hentry violation hviolation
    obtain ⟨hid, other, hother, heq⟩ := (hrelated entry).1 hentry
    rw [heq, some.inj (hother.symm.trans hviolation)]
    exact h entry.1 hid violation hviolation

theorem never_semanticConsistencyIssue (hdrawn : PolygonsDrawn candidate) :
    Never anything (semanticConsistencyIssue ext candidate design) ↔
      ∀ predicate, ReachedIn (fun other => predicateIssue ext candidate design other = .ok none)
          candidate.semanticPostconditions predicate →
        PredicateDefined ext candidate design predicate := by
  rw [semanticConsistencyIssue, never_findSomeM?]
  exact forall₂_congr fun _ _ => never_predicateIssue hdrawn

theorem geometryLevels_returns {related : List (String × List LayoutObject)}
    (hprove : ∀ c v r, ∃ records, ext.prove c v r = .ok records)
    (hrelated : RelationsOf candidate design violations related) :
    (∃ v, geometryLevels D ext candidate region design violations related = .ok v) ↔
      (GeometryLegal candidate design →
        (∀ predicate, ReachedIn (fun other => predicateIssue ext candidate design other = .ok none)
            candidate.semanticPostconditions predicate →
          PredicateDefined ext candidate design predicate) ∧
        ((∀ predicate ∈ candidate.semanticPostconditions,
            predicateIssue ext candidate design predicate = .ok none) →
          LocalityDefined ext candidate design region violations.byId ∧
            (localityIssue ext candidate design region violations.byId = .ok none →
              EffectsDefined D candidate design violations))) := by
  rw [geometryLevels, stage_unit_returns, and_iff_right never_geometryCheck, geometryCheck_eq_ok]
  refine forall_congr' fun hlegal => ?_
  rw [stage_unit_returns, stage_unit_returns, never_issueCheck, never_issueCheck, issueCheck_eq_ok,
    issueCheck_eq_ok, never_semanticConsistencyIssue hlegal.drawn, never_localityIssue,
    semanticConsistencyIssue, findSomeM?_eq_none, benefitLevels_returns hprove hrelated]

theorem sourceLevels_returns {related : List (String × List LayoutObject)} :
    (∃ v, sourceLevels D ext candidate region design violations related = .ok v) ↔
      (Sourced candidate design →
        (∀ entry, ReachedIn (EditAllowed ext candidate design) (editTargets candidate) entry →
          EditDefined ext candidate design entry) ∧
        ((∀ entry ∈ editTargets candidate, EditAllowed ext candidate design entry) →
          ∃ v, geometryLevels D ext candidate region design violations related = .ok v)) := by
  rw [sourceLevels, stage_unit_returns, and_iff_right never_sourceCheck, sourceCheck_eq_ok]
  refine forall_congr' fun _ => ?_
  rw [stage_unit_returns, never_editabilityCheck, editabilityCheck_eq_ok]

theorem validate_returns :
    (∃ v, validate D ext candidate region design allowedActionFamilies violations = .ok v) ↔
      (PassesRequest candidate region design allowedActionFamilies violations →
        Never Exit.IsRaised (relationsCheck ext candidate design violations) ∧
        ∀ related, relationsCheck ext candidate design violations = .ok related →
          ∃ v, sourceLevels D ext candidate region design violations related = .ok v) := by
  rw [validate, stage_unit_returns, and_iff_right never_identityCheck, identityCheck_eq_ok]
  by_cases hnoop : candidate.isNoop = true
  · rw [if_pos hnoop]
    refine ⟨fun _ hrequest => ?_, fun _ _ => ⟨_, rfl⟩⟩
    exact absurd hnoop (by rw [hrequest.mutates]; decide)
  · rw [if_neg hnoop, stage_unit_returns, and_iff_right never_routingCheck, routingCheck_eq_ok,
      stage_unit_returns, and_iff_right never_targetCheck, targetCheck_eq_ok, stage_returns]
    constructor
    · exact fun h hrequest => h hrequest.identified hrequest.routed hrequest.targeted
    · exact fun h hidentified hrouted htargeted =>
        h ⟨hidentified, Bool.not_eq_true _ ▸ hnoop, hrouted, htargeted⟩

/-- The relations of a candidate that passes level 0, and what follows them. -/
theorem PassesLevel0.returns
    (hlevel : PassesLevel0 ext candidate region design allowedActionFamilies violations)
    (h : ∃ v, validate D ext candidate region design allowedActionFamilies violations = .ok v) :
    ∃ related, RelationsOf candidate design violations related ∧
      ∃ v, sourceLevels D ext candidate region design violations related = .ok v := by
  obtain ⟨related, hrelated⟩ := exists_relationsCheck hlevel.readable hlevel.related
  obtain ⟨-, -, hof⟩ := relationsCheck_ok hrelated
  exact ⟨related, hof, (validate_returns.1 h hlevel.toPassesRequest).2 related hrelated⟩

/-- The geometry of a candidate that passes level 2, where the checker returns. -/
theorem PassesLevel2.returns
    (hlevel : PassesLevel2 ext candidate region design allowedActionFamilies violations)
    (h : ∃ v, validate D ext candidate region design allowedActionFamilies violations = .ok v) :
    ∃ related, RelationsOf candidate design violations related ∧
      ∃ v, geometryLevels D ext candidate region design violations related = .ok v := by
  obtain ⟨related, hof, hreturns⟩ := hlevel.toPassesLevel0.returns h
  exact ⟨related, hof, (sourceLevels_returns.1 hreturns hlevel.sourced).2 hlevel.edits⟩

/-- **`validate` returns a report exactly when every check that it reaches can read what it
reads**, where the proof engine returns. -/
theorem validate_returns_iff (hprove : ∀ c v r, ∃ records, ext.prove c v r = .ok records) :
    (∃ v, validate D ext candidate region design allowedActionFamilies violations = .ok v) ↔
      ChecksDefined D ext candidate region design allowedActionFamilies violations := by
  constructor
  · intro h
    have hrelations : PassesRequest candidate region design allowedActionFamilies violations → _ :=
      fun hrequest =>
        (never_relationsCheck hrequest.targeted.2.2).1 (validate_returns.1 h hrequest).1
    refine ⟨fun hrequest => (hrelations hrequest).1, fun hrequest _ => (hrelations hrequest).2,
      fun hlevel hsourced => ?_, fun hlevel hlegal => ?_, fun hlevel hlegal hpredicates => ?_,
      fun hlevel => ?_⟩
    · obtain ⟨related, -, hreturns⟩ := hlevel.returns h
      exact (sourceLevels_returns.1 hreturns hsourced).1
    · obtain ⟨related, hof, hreturns⟩ := hlevel.returns h
      exact ((geometryLevels_returns hprove hof).1 hreturns hlegal).1
    · obtain ⟨related, hof, hreturns⟩ := hlevel.returns h
      exact (((geometryLevels_returns hprove hof).1 hreturns hlegal).2 hpredicates).1
    · obtain ⟨related, hof, hreturns⟩ := hlevel.toPassesLevel2.returns h
      exact (((geometryLevels_returns hprove hof).1 hreturns hlevel.geometry).2
        hlevel.semantics).2 hlevel.locality
  · intro h
    refine validate_returns.2 fun hrequest => ?_
    have hreadable := h.targets hrequest
    refine ⟨(never_relationsCheck hrequest.targeted.2.2).2
      ⟨hreadable, h.relations hrequest hreadable⟩, fun related hrelated => ?_⟩
    obtain ⟨-, hall, hof⟩ := relationsCheck_ok hrelated
    have hlevel0 : PassesLevel0 ext candidate region design allowedActionFamilies violations :=
      ⟨hrequest, hreadable, hall⟩
    refine sourceLevels_returns.2 fun hsourced => ⟨h.edits hlevel0 hsourced, fun hedits => ?_⟩
    have hlevel2 : PassesLevel2 ext candidate region design allowedActionFamilies violations :=
      ⟨hlevel0, hsourced, hedits⟩
    refine (geometryLevels_returns hprove hof).2 fun hlegal =>
      ⟨h.predicates hlevel2 hlegal, fun hpredicates => ?_⟩
    exact ⟨h.locality hlevel2 hlegal hpredicates,
      fun hlocality => h.effects ⟨hlevel2, hlegal, hpredicates, hlocality⟩⟩

end Run

/-! ## A sample -/

section Sample

/-- Rational arithmetic, where nothing is too large. -/
@[reducible] def exactCheckedDoubles : CheckedDoubles ℚ where
  __ := Regions.exactDoubles
  rootRaises := fun _ => false
  trueDivRaises := fun _ _ => false
  squareRaises := fun _ => false
  square := fun a => a * a
  add := fun a b => a + b
  rootFloat := fun a => (Nat.sqrt a.num.toNat : ℚ) / Nat.sqrt a.den

/-- For candidates without JSON values: `None` is no box, and no rule proves a benefit. -/
def plainExternals : Externals where
  intOfText := String.toInt?
  textOf := fun _ => .ok "None"
  boxOf := fun _ => none
  prove := fun _ _ _ => .ok []

def sampleObject : LayoutObject where
  objectId := "o"
  sourceAnchorId := some "a"
  kind := .polygon
  layer := "M2"
  bboxDbu := ⟨0, 0, 4, 5, by decide, by decide⟩
  editability := .B

/-- A violation at the right edge of the object. -/
def sampleViolation : ViolationRecord where
  violationId := "v"
  reportIteration := 1
  ruleId := "M2.S.1"
  ruleFamily := .spacing
  markerBboxDbu := ⟨4, 0, 6, 5, by decide, by decide⟩

def sampleDesign : DesignState where
  objects := [("o", .record sampleObject)]
  sourceHashes := [("a", "h")]

def sampleRegion : RegionState where
  regionId := "r"
  bboxDbu := ⟨0, 0, 8, 8, by decide, by decide⟩
  editHaloDbu := ⟨0, 0, 8, 8, by decide, by decide⟩
  violationIds := ["v"]

/-- The object is the target, and the edit moves the shapes of the ids to the left. -/
def moveLeft (edited : List String) : RepairCandidate where
  candidateId := "c"
  regionId := "r"
  actionFamily := "MOVE_SHAPE"
  edits := [{
    op := .moveShape
    targetObjectIds := edited
    sourceAnchorIds := ["a"]
    geometryAfterDbu := some [[⟨-1, 0⟩, ⟨3, 0⟩, ⟨3, 5⟩, ⟨-1, 5⟩]]
    deltaDbu := some (-1, 0) }]
  targetViolationIds := ["v"]
  targetObjectIds := ["o"]
  sourceTargets := [⟨"a", "h"⟩]
  editFootprintDbu := ⟨-1, 0, 4, 5, by decide, by decide⟩
  validationStatus := .valid

/-- The check of the edit of some shapes. -/
def sampleValidation (edited : List String) : Except PyError Validation :=
  @validate ℚ exactCheckedDoubles plainExternals (moveLeft edited) sampleRegion sampleDesign
    ["MOVE_SHAPE"] (.list [sampleViolation])

/-- Every check can read what it reads where the edit is of the target. -/
theorem checksDefined_moveLeft : @ChecksDefined ℚ exactCheckedDoubles plainExternals
    (moveLeft ["o"]) sampleRegion sampleDesign ["MOVE_SHAPE"] (.list [sampleViolation]) :=
  (@validate_returns_iff ℚ exactCheckedDoubles _ _ _ _ _ _ fun _ _ _ => ⟨[], rfl⟩).1 ⟨_, rfl⟩

/-- The edit of an object that the design does not have is no refusal but an exception. -/
theorem edit_target_absent : sampleValidation ["ghost"] = .error .keyError := rfl

end Sample

end DRCAgent.Candidates
