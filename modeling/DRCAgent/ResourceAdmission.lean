/-
# Admission by resources

Level 4 of `CandidateChecker.validate` (candidates.py): the resources that a candidate
requires, against their capacities.

The demand is compared with the capacity claim by claim, as it is summed up. Amounts may be
negative, and each claim may come with a capacity of its own, so that what passes depends on
the order of the claims.

Main results:

* `admission_iff`: when what passes level 4 is within the capacities, in every order of the
  claims.
* `resourceCheck_of_nonneg`: it is where amounts are not negative and capacities agree.
-/
import DRCAgent.CheckerTotality
import DRCAgent.RunningTotals

namespace DRCAgent.Candidates

open List Failures RunningTotals
open Connectivity (Json PyError)
open Regions (Box ViolationRecord)

/-! ## Claims -/

section Claims

variable {design : DesignState} {candidate : RepairCandidate} {claims : List ResourceClaim}

/-- `capacity` -/
def capacityOf (design : DesignState) (claim : ResourceClaim) : WithTop ℤ :=
  match claim.capacity with
  | some capacity => capacity
  | none =>
    match design.resourceCapacities.lookup claim.resourceId with
    | some capacity => capacity
    | none => ⊤

/-- The claims on a resource. -/
def claimsOn (claims : List ResourceClaim) (resource : String) : List ResourceClaim :=
  claims.filter (·.resourceId = resource)

/-- The demand of a resource is within each of its capacities. -/
def Fits (design : DesignState) (claims : List ResourceClaim) : Prop :=
  ∀ claim ∈ claims, ((total ResourceClaim.amount (claimsOn claims claim.resourceId) : ℤ) :
    WithTop ℤ) ≤ capacityOf design claim

/-- Each capacity admits its claim after all that adds to the demand of the resource. -/
def AlwaysFits (design : DesignState) (claims : List ResourceClaim) : Prop :=
  ∀ claim ∈ claims, ((greatestTotal ResourceClaim.amount (claimsOn claims claim.resourceId) claim :
    ℤ) : WithTop ℤ) ≤ capacityOf design claim

/-- Some capacity does not even admit the least demand that there can be at its claim. -/
def NeverFits (design : DesignState) (claims : List ResourceClaim) : Prop :=
  ∃ claim ∈ claims, capacityOf design claim < ((leastTotal ResourceClaim.amount
    (capacityOf design) (claimsOn claims claim.resourceId) claim : ℤ) : WithTop ℤ)

theorem claimCheck_eq_ok {demand next : List (String × ℤ)} {claim : ResourceClaim} :
    claimCheck design demand claim = .ok next ↔
      (((demand.lookup claim.resourceId).getD 0 + claim.amount : ℤ) : WithTop ℤ) ≤
          capacityOf design claim ∧
        Dicts.insert claim.resourceId
          ((demand.lookup claim.resourceId).getD 0 + claim.amount) demand = next := by
  unfold claimCheck
  dsimp only
  rw [refuse_eq_ok, Except.ok.injEq]
  refine and_congr_left fun _ => ?_
  rw [capacityOf]
  cases claim.capacity with
  | some capacity => simp only [Option.any_some, decide_eq_true_eq, not_lt, WithTop.coe_le_coe]
  | none =>
    dsimp only
    cases design.resourceCapacities.lookup claim.resourceId with
    | some capacity => simp only [Option.any_some, decide_eq_true_eq, not_lt, WithTop.coe_le_coe]
    | none => simp

theorem claimCheck_error {demand : List (String × ℤ)} {claim : ResourceClaim} {e : Exit}
    (h : claimCheck design demand claim = .error e) :
    e = .refused ⟨4, "INTERNAL_RESOURCE_OVERFLOW", "candidate exceeds resource capacity"⟩
      .invalidResource := by
  unfold claimCheck at h
  dsimp only at h
  split_ifs at h
  exact (Except.error.inj h).symm

/-- The claims are summed up in their order, apart for each resource. -/
theorem foldlM_claimCheck {demand : List (String × ℤ)} :
    (∃ next, claims.foldlM (claimCheck design) demand = .ok next) ↔
      ∀ k, AdmitsFrom ResourceClaim.amount (capacityOf design) ((demand.lookup k).getD 0)
        (claimsOn claims k) := by
  induction claims generalizing demand with
  | nil => exact ⟨fun _ _ => trivial, fun _ => ⟨demand, rfl⟩⟩
  | cons claim rest ih =>
    have hclaims : ∀ k, claimsOn (claim :: rest) k =
        if claim.resourceId = k then claim :: claimsOn rest k else claimsOn rest k := by
      intro k
      rw [claimsOn, List.filter_cons]
      simp only [decide_eq_true_eq]
      rfl
    simp only [List.foldlM_cons, bind_eq_ok, claimCheck_eq_ok]
    constructor
    · rintro ⟨next, _, ⟨hfits, rfl⟩, hrest⟩ k
      have hk := ih.1 ⟨next, hrest⟩ k
      rw [Dicts.lookup_insert] at hk
      rw [hclaims]
      split_ifs with hkey
      · subst hkey
        rw [if_pos rfl, Option.getD_some] at hk
        exact ⟨hfits, hk⟩
      · rwa [if_neg (Ne.symm hkey)] at hk
    · intro h
      have hclaim := h claim.resourceId
      rw [hclaims, if_pos rfl] at hclaim
      obtain ⟨next, hnext⟩ := ih.2 fun k => by
        rw [Dicts.lookup_insert]
        have hk := h k
        rw [hclaims] at hk
        split_ifs at hk with hkey
        · subst hkey
          rw [if_pos rfl, Option.getD_some]
          exact hclaim.2
        · rwa [if_neg (Ne.symm hkey)]
      exact ⟨next, _, ⟨hclaim.1, rfl⟩, hnext⟩

/-- **When level 4 passes.** -/
theorem resourceCheck_eq_ok : resourceCheck candidate design = .ok () ↔
    ∀ k, Admits ResourceClaim.amount (capacityOf design)
      (claimsOn candidate.requiredResources k) := by
  have hrun := @foldlM_claimCheck design candidate.requiredResources []
  rw [resourceCheck, bind_eq_ok]
  refine Iff.trans ⟨?_, ?_⟩ hrun
  · rintro ⟨next, hnext, -⟩
    exact ⟨next, hnext⟩
  · rintro ⟨next, hnext⟩
    exact ⟨next, hnext, rfl⟩

theorem resourceCheck_error {e : Exit} (h : resourceCheck candidate design = .error e) :
    e = .refused ⟨4, "INTERNAL_RESOURCE_OVERFLOW", "candidate exceeds resource capacity"⟩
      .invalidResource := by
  have hrun : ∀ (claims : List ResourceClaim) (demand : List (String × ℤ)),
      (do let _ ← claims.foldlM (claimCheck design) demand : Check Unit) = .error e →
      e = .refused ⟨4, "INTERNAL_RESOURCE_OVERFLOW", "candidate exceeds resource capacity"⟩
        .invalidResource := by
    intro claims
    induction claims with
    | nil => exact fun demand h => (nomatch h)
    | cons claim rest ih =>
      intro demand h
      rw [List.foldlM_cons] at h
      cases hclaim : claimCheck design demand claim with
      | ok next =>
        rw [hclaim] at h
        exact ih next h
      | error e' =>
        rw [hclaim] at h
        exact Except.error.inj h ▸ claimCheck_error hclaim
  exact hrun _ _ h

theorem forall_perm_resourceCheck :
    (∀ claims, claims.Perm candidate.requiredResources →
        resourceCheck { candidate with requiredResources := claims } design = .ok ()) ↔
      AlwaysFits design candidate.requiredResources := by
  simp only [resourceCheck_eq_ok]
  exact forall_perm_admits_iff

theorem exists_perm_resourceCheck :
    (∃ claims, claims.Perm candidate.requiredResources ∧
        resourceCheck { candidate with requiredResources := claims } design = .ok ()) ↔
      ¬ NeverFits design candidate.requiredResources := by
  simp only [resourceCheck_eq_ok, NeverFits, not_exists, not_and, not_lt]
  exact exists_perm_admits_iff

theorem AlwaysFits.fits (h : AlwaysFits design claims) : Fits design claims := by
  intro claim hclaim
  refine le_trans (WithTop.coe_le_coe.2 (total_le_greatestTotal ?_)) (h claim hclaim)
  exact List.mem_filter.2 ⟨hclaim, by simp⟩

/-- Nonnegative amounts only add to the demand. -/
theorem greatestTotal_of_nonneg (hamount : ∀ claim ∈ claims, 0 ≤ claim.amount)
    {claim : ResourceClaim} (hclaim : claim ∈ claims) :
    greatestTotal ResourceClaim.amount (claimsOn claims claim.resourceId) claim =
      total ResourceClaim.amount (claimsOn claims claim.resourceId) := by
  rw [greatestTotal, min_eq_right (hamount claim hclaim), zero_add]
  exact congrArg List.sum (List.map_congr_left fun other hother =>
    max_eq_left (hamount other (List.mem_filter.1 hother).1))

/-- Claims of nonnegative amounts, with one capacity for each resource, fit in every order or
in none. -/
theorem fits_uniformly (hamount : ∀ claim ∈ claims, 0 ≤ claim.amount)
    (hcapacity : ∀ claim ∈ claims, ∀ other ∈ claims, other.resourceId = claim.resourceId →
      capacityOf design other = capacityOf design claim) :
    AlwaysFits design claims ∨ NeverFits design claims := by
  have hleast : ∀ claim ∈ claims, leastTotal ResourceClaim.amount (capacityOf design)
      (claimsOn claims claim.resourceId) claim =
        total ResourceClaim.amount (claimsOn claims claim.resourceId) := by
    intro claim hclaim
    rw [leastTotal, if_neg (not_lt.2 (hamount claim hclaim))]
    refine congrArg List.sum (List.map_congr_left fun other hother => if_pos (.inr ?_))
    obtain ⟨hmem, hresource⟩ := List.mem_filter.1 hother
    exact (hcapacity claim hclaim other hmem (of_decide_eq_true hresource)).le
  refine or_iff_not_imp_right.2 fun hnever claim hclaim => ?_
  rw [greatestTotal_of_nonneg hamount hclaim, ← hleast claim hclaim]
  exact not_lt.1 fun hlt => hnever ⟨claim, hclaim, hlt⟩

/-- **Where amounts are not negative** and the claims on a resource name one capacity, level 4
passes exactly when every demand is within its capacity, and the order of the claims does not
matter. -/
theorem resourceCheck_of_nonneg (hamount : ∀ claim ∈ candidate.requiredResources, 0 ≤ claim.amount)
    (hcapacity : ∀ claim ∈ candidate.requiredResources, ∀ other ∈ candidate.requiredResources,
      other.resourceId = claim.resourceId → capacityOf design other = capacityOf design claim) :
    (resourceCheck candidate design = .ok () ↔ Fits design candidate.requiredResources) ∧
      ∀ claims, claims.Perm candidate.requiredResources →
        resourceCheck { candidate with requiredResources := claims } design =
          resourceCheck candidate design := by
  have hsame : ∀ claims, claims.Perm candidate.requiredResources →
      (resourceCheck { candidate with requiredResources := claims } design = .ok () ↔
        AlwaysFits design candidate.requiredResources) := by
    intro claims hperm
    constructor
    · intro hcheck
      refine (fits_uniformly hamount hcapacity).resolve_right ?_
      exact exists_perm_resourceCheck.1 ⟨claims, hperm, hcheck⟩
    · intro hfits
      exact forall_perm_resourceCheck.2 hfits claims hperm
  have hcheck := hsame _ (List.Perm.refl _)
  refine ⟨hcheck.trans ⟨AlwaysFits.fits, fun hfits claim hclaim => ?_⟩, fun claims hperm => ?_⟩
  · rw [greatestTotal_of_nonneg hamount hclaim]
    exact hfits claim hclaim
  · have hiff := (hsame claims hperm).trans hcheck.symm
    cases hboth : resourceCheck candidate design with
    | ok => exact hiff.2 hboth
    | error e =>
      cases hother : resourceCheck { candidate with requiredResources := claims } design with
      | ok => exact absurd (hboth.symm.trans (hiff.1 hother)) nofun
      | error e' => rw [resourceCheck_error hboth, resourceCheck_error hother]

end Claims

/-! ## The run up to level 4 -/

section Stages

variable {α β : Type} {candidate other : RepairCandidate} {levels : List ℕ} {check : Check α}
  {rest rest' : α → Except PyError Validation} {v : Validation}

theorem stage_of_eq_ok {a : α} (h : check = .ok a) :
    stage candidate levels check rest = rest a := by
  rw [h]
  rfl

/-- A level that is not passed at a check is passed behind it. -/
theorem stage_level (h : stage candidate levels check rest = .ok v) {level : ℕ}
    (hlevel : level ∈ v.report.levelsPassed) (hlevels : level ∉ levels) :
    ∃ a, check = .ok a ∧ rest a = .ok v := by
  cases check with
  | ok a => exact ⟨a, rfl, h⟩
  | error e =>
    cases e with
    | refused issue status =>
      obtain rfl := Except.ok.inj h
      exact absurd hlevel hlevels
    | raised e => cases h

/-- A level that is passed at a check stays passed behind it. -/
theorem stage_keeps (h : stage candidate levels check rest = .ok v) {level : ℕ}
    (hlevels : level ∈ levels)
    (hrest : ∀ a w, rest a = .ok w → level ∈ w.report.levelsPassed) :
    level ∈ v.report.levelsPassed := by
  cases check with
  | ok a => exact hrest a v h
  | error e =>
    cases e with
    | refused issue status =>
      obtain rfl := Except.ok.inj h
      exact hlevels
    | raised e => cases h

/-- Runs that agree behind a check report the same. -/
theorem stage_report (hid : other.candidateId = candidate.candidateId)
    (h : ∀ a, check = .ok a → (rest' a).map Validation.report = (rest a).map Validation.report) :
    (stage other levels check rest').map Validation.report =
      (stage candidate levels check rest).map Validation.report := by
  cases check with
  | ok a => exact h a rfl
  | error e =>
    cases e with
    | refused issue status =>
      simp only [stage, RepairCandidate.conclude, Except.map, hid]
    | raised e => rfl

end Stages

/-! ## The whole run -/

section Run

variable {D : Type} [CheckedDoubles D] {ext : Externals} {candidate : RepairCandidate}
  {region : RegionState} {design : DesignState} {allowedActionFamilies : List String}
  {violations : Violations} {v : Validation}

/-- The report of a `NO_OP`. -/
theorem validate_noop (hidentified : Identified candidate region allowedActionFamilies)
    (hnoop : candidate.isNoop = true) :
    validate D ext candidate region design allowedActionFamilies violations =
      .ok ⟨⟨candidate.candidateId, .valid, [], [0, 1, 2, 3, 4, 5]⟩,
        { candidate with validationStatus := .valid }⟩ := by
  rw [validate, stage_of_eq_ok (identityCheck_eq_ok.2 hidentified), if_pos hnoop]

/-- The evidence proves no benefit. -/
theorem benefitEvidence_lb {related : List (String × List LayoutObject)}
    {evidence : BenefitEvidence}
    (h : benefitEvidence D ext candidate violations related = .ok evidence) :
    evidence.provenDrcBenefitLb = 0 := by
  rw [benefitEvidence, bind_eq_ok] at h
  obtain ⟨heuristic, -, h⟩ := h
  obtain ⟨records, -, h⟩ := bind_eq_ok.1 h
  rw [← Except.ok.inj h]

/-- The levels that follow the geometry, for a candidate that passes level 3. -/
theorem validate_of_passes
    (hpasses : PassesLevel3 ext candidate region design allowedActionFamilies violations) :
    ∃ related, RelationsOf candidate design violations related ∧
      validate D ext candidate region design allowedActionFamilies violations =
        benefitLevels D ext candidate design violations related := by
  obtain ⟨related, hrelated⟩ := exists_relationsCheck hpasses.readable hpasses.related
  obtain ⟨-, -, hof⟩ := relationsCheck_ok hrelated
  refine ⟨related, hof, ?_⟩
  have hnoop : ¬ candidate.isNoop = true := by
    rw [hpasses.mutates]
    decide
  have hsemantic : issueCheck (semanticConsistencyIssue ext candidate design) = .ok () := by
    rw [issueCheck_eq_ok, semanticConsistencyIssue, findSomeM?_eq_none]
    exact hpasses.semantics
  rw [validate, stage_of_eq_ok (identityCheck_eq_ok.2 hpasses.identified), if_neg hnoop,
    stage_of_eq_ok (routingCheck_eq_ok.2 hpasses.routed),
    stage_of_eq_ok (targetCheck_eq_ok.2 hpasses.targeted), stage_of_eq_ok hrelated, sourceLevels,
    stage_of_eq_ok (sourceCheck_eq_ok.2 hpasses.sourced),
    stage_of_eq_ok (editabilityCheck_eq_ok.2 hpasses.edits), geometryLevels,
    stage_of_eq_ok (geometryCheck_eq_ok.2 hpasses.geometry), stage_of_eq_ok hsemantic,
    stage_of_eq_ok (issueCheck_eq_ok.2 hpasses.locality)]

/-- The levels from the resources on, for a candidate that comes to them. -/
theorem validate_of_reaches (hprove : ∀ c v r, ∃ records, ext.prove c v r = .ok records)
    (hpasses : PassesLevel3 ext candidate region design allowedActionFamilies violations)
    (heffects : EffectsDefined D candidate design violations) :
    ∃ evidence : BenefitEvidence, evidence.provenDrcBenefitLb = 0 ∧
      validate D ext candidate region design allowedActionFamilies violations =
        resourceLevels { candidate with benefitEvidence := evidence } design := by
  obtain ⟨related, hof, heq⟩ := validate_of_passes (D := D) hpasses
  obtain ⟨v, hv⟩ := (benefitLevels_returns hprove hof).2 heffects
  rw [benefitLevels, bind_eq_ok] at hv
  obtain ⟨evidence, hevidence, -⟩ := hv
  refine ⟨evidence, benefitEvidence_lb hevidence, ?_⟩
  rw [heq, benefitLevels, hevidence]
  rfl

/-- The checks before the benefit, as they are passed one after the other. -/
theorem passesLevel3_of_checks {related : List (String × List LayoutObject)}
    (hidentity : identityCheck candidate region allowedActionFamilies = .ok ())
    (hnoop : candidate.isNoop = false) (hrouting : routingCheck candidate = .ok ())
    (htarget : targetCheck candidate region design violations = .ok ())
    (hrelations : relationsCheck ext candidate design violations = .ok related)
    (hsource : sourceCheck candidate design = .ok ())
    (hedits : editabilityCheck ext candidate design = .ok ())
    (hgeometry : geometryCheck candidate design = .ok ())
    (hsemantic : issueCheck (semanticConsistencyIssue ext candidate design) = .ok ())
    (hlocality : issueCheck (localityIssue ext candidate design region violations.byId) = .ok ()) :
    PassesLevel3 ext candidate region design allowedActionFamilies violations := by
  obtain ⟨hreadable, hrelated, -⟩ := relationsCheck_ok hrelations
  rw [issueCheck_eq_ok, semanticConsistencyIssue, findSomeM?_eq_none] at hsemantic
  exact ⟨⟨⟨⟨identityCheck_eq_ok.1 hidentity, hnoop, routingCheck_eq_ok.1 hrouting,
      targetCheck_eq_ok.1 htarget⟩, hreadable, hrelated⟩, sourceCheck_eq_ok.1 hsource,
      editabilityCheck_eq_ok.1 hedits⟩, geometryCheck_eq_ok.1 hgeometry, hsemantic,
    issueCheck_eq_ok.1 hlocality⟩

/-- **Level 4 is passed** by a `NO_OP`, or behind level 3. -/
theorem validate_level4 (hprove : ∀ c v r, ∃ records, ext.prove c v r = .ok records)
    (h : validate D ext candidate region design allowedActionFamilies violations = .ok v)
    (hlevel : 4 ∈ v.report.levelsPassed) :
    (Identified candidate region allowedActionFamilies ∧ candidate.isNoop = true) ∨
      (PassesLevel3 ext candidate region design allowedActionFamilies violations ∧
        EffectsDefined D candidate design violations) := by
  obtain ⟨⟨⟩, hidentity, h⟩ := stage_level h hlevel (by decide)
  split_ifs at h with hnoop
  · exact .inl ⟨identityCheck_eq_ok.1 hidentity, hnoop⟩
  obtain ⟨⟨⟩, hrouting, h⟩ := stage_level h hlevel (by decide)
  obtain ⟨⟨⟩, htarget, h⟩ := stage_level h hlevel (by decide)
  obtain ⟨related, hrelations, h⟩ := stage_level h hlevel (by decide)
  obtain ⟨⟨⟩, hsource, h⟩ := stage_level h hlevel (by decide)
  obtain ⟨⟨⟩, hedits, h⟩ := stage_level h hlevel (by decide)
  obtain ⟨⟨⟩, hgeometry, h⟩ := stage_level h hlevel (by decide)
  obtain ⟨⟨⟩, hsemantic, h⟩ := stage_level h hlevel (by decide)
  obtain ⟨⟨⟩, hlocality, h⟩ := stage_level h hlevel (by decide)
  obtain ⟨-, -, hof⟩ := relationsCheck_ok hrelations
  exact .inr ⟨passesLevel3_of_checks hidentity (Bool.not_eq_true _ ▸ hnoop) hrouting htarget
    hrelations hsource hedits hgeometry hsemantic hlocality,
    (benefitLevels_returns hprove hof).1 ⟨v, h⟩⟩

/-- **A run that does not come to level 4** reports the same for every list of claims. -/
theorem validate_report {claims : List ResourceClaim}
    (hprove : ∀ c v r, ∃ records, ext.prove c v r = .ok records)
    (hreaches : PassesLevel3 ext candidate region design allowedActionFamilies violations →
      ¬ EffectsDefined D candidate design violations) :
    (validate D ext { candidate with requiredResources := claims } region design
        allowedActionFamilies violations).map Validation.report =
      (validate D ext candidate region design allowedActionFamilies violations).map
        Validation.report := by
  refine stage_report rfl fun _ hidentity => ?_
  rw [show ({ candidate with requiredResources := claims } : RepairCandidate).isNoop =
    candidate.isNoop from rfl]
  split_ifs with hnoop
  · rfl
  refine stage_report rfl fun _ hrouting => stage_report rfl fun _ htarget =>
    stage_report rfl fun related hrelations => stage_report rfl fun _ hsource =>
      stage_report rfl fun _ hedits => stage_report rfl fun _ hgeometry =>
        stage_report rfl fun _ hsemantic => stage_report rfl fun _ hlocality => ?_
  obtain ⟨-, -, hof⟩ := @relationsCheck_ok ext candidate _ _ _ hrelations
  have heffects := hreaches (passesLevel3_of_checks hidentity (Bool.not_eq_true _ ▸ hnoop)
    hrouting htarget hrelations hsource hedits hgeometry hsemantic hlocality)
  cases hheuristic : heuristicIds D candidate violations related with
  | error e =>
    have hother : heuristicIds D { candidate with requiredResources := claims } violations
        related = .error e := hheuristic
    rw [benefitLevels, benefitEvidence, hother, benefitLevels, benefitEvidence, hheuristic]
    rfl
  | ok heuristic =>
    -- the heuristic and the proof engine return, so that level 4 is reached
    obtain ⟨records, hrecords⟩ := hprove candidate violations.byId related
    obtain ⟨v, hv⟩ := @resourceLevels_returns design { candidate with benefitEvidence := {
      proofCodes := sortedSet (records.map (·.proofCode))
      ruleProofs := records
      heuristicRemovedViolationIds := heuristic.insertionSort (· ≤ ·)
      heuristicDrcBenefitEst := heuristic.length } }
    refine absurd ((benefitLevels_returns hprove hof).1 ⟨v, ?_⟩) heffects
    exact bind_eq_ok.2 ⟨_, bind_eq_ok.2 ⟨_, hheuristic, bind_eq_ok.2 ⟨_, hrecords, rfl⟩⟩, hv⟩

/-! ## Level 4 -/

theorem resourceLevels_level4 (h : resourceLevels candidate design = .ok v) :
    4 ∈ v.report.levelsPassed ↔ resourceCheck candidate design = .ok () := by
  rw [resourceLevels] at h
  constructor
  · intro hlevel
    obtain ⟨⟨⟩, hcheck, -⟩ := stage_level h hlevel (by decide)
    exact hcheck
  · intro hcheck
    rw [stage_of_eq_ok hcheck] at h
    refine stage_keeps h (by decide) fun _ w hw => ?_
    rw [← Except.ok.inj hw]
    exact (by decide : 4 ∈ [0, 1, 2, 3, 4, 5])

/-- The report from level 4 on depends on the claims by the verdict on them only. -/
theorem resourceLevels_report {claims : List ResourceClaim} {evidence evidence' : BenefitEvidence}
    (hlb : evidence.provenDrcBenefitLb = 0) (hlb' : evidence'.provenDrcBenefitLb = 0)
    (hverdict : resourceCheck { candidate with requiredResources := claims } design = .ok () ↔
      resourceCheck candidate design = .ok ()) :
    (resourceLevels { candidate with
        requiredResources := claims
        benefitEvidence := evidence' } design).map Validation.report =
      (resourceLevels { candidate with benefitEvidence := evidence } design).map
        Validation.report := by
  rw [resourceLevels, resourceLevels]
  by_cases hcheck : resourceCheck candidate design = .ok ()
  · have hleft : resourceCheck { candidate with
        requiredResources := claims
        benefitEvidence := evidence' } design = .ok () := hverdict.2 hcheck
    have hright : resourceCheck { candidate with benefitEvidence := evidence } design = .ok () :=
      hcheck
    rw [stage_of_eq_ok hleft, stage_of_eq_ok hright]
    refine stage_report rfl fun _ _ => ?_
    simp only [hlb, hlb', true_or, if_true]
    rfl
  · -- both are refused, for the same reason
    have hrefused : ∀ other : RepairCandidate, ¬ resourceCheck other design = .ok () →
        resourceCheck other design = .error (.refused
          ⟨4, "INTERNAL_RESOURCE_OVERFLOW", "candidate exceeds resource capacity"⟩
          .invalidResource) := by
      intro other hother
      cases herror : resourceCheck other design with
      | ok _ => exact absurd herror hother
      | error e => rw [resourceCheck_error herror]
    have hleft := hrefused { candidate with
      requiredResources := claims
      benefitEvidence := evidence' } fun h => hcheck (hverdict.1 h)
    have hright := hrefused { candidate with benefitEvidence := evidence } hcheck
    rw [hleft, hright]
    rfl

/-- **The verdict on the claims** is the same in every order exactly when all orders fit, or none
does. -/
theorem verdict_iff :
    (∀ claims, claims.Perm candidate.requiredResources →
      (resourceCheck { candidate with requiredResources := claims } design = .ok () ↔
        resourceCheck candidate design = .ok ())) ↔
      AlwaysFits design candidate.requiredResources ∨
        NeverFits design candidate.requiredResources := by
  constructor
  · intro hverdict
    by_cases hcheck : resourceCheck candidate design = .ok ()
    · exact .inl (forall_perm_resourceCheck.1 fun claims hperm => (hverdict claims hperm).2 hcheck)
    · refine .inr (not_not.1 fun hnever => ?_)
      obtain ⟨claims, hperm, hclaims⟩ := exists_perm_resourceCheck.2 hnever
      exact hcheck ((hverdict claims hperm).1 hclaims)
  · rintro (halways | hnever) claims hperm
    · have hall := forall_perm_resourceCheck.2 halways
      exact iff_of_true (hall claims hperm) (hall _ (List.Perm.refl _))
    · have hnone := not_exists.1 fun hsome => exists_perm_resourceCheck.1 hsome hnever
      exact iff_of_false (fun hcheck => hnone claims ⟨hperm, hcheck⟩)
        (fun hcheck => hnone _ ⟨List.Perm.refl _, hcheck⟩)

/-- Behind level 3 the claims are read at level 4. -/
theorem validate_reads_claims (hprove : ∀ c v r, ∃ records, ext.prove c v r = .ok records)
    (h : PassesLevel3 ext candidate region design allowedActionFamilies violations)
    (heffects : EffectsDefined D candidate design violations) (claims : List ResourceClaim) :
    ∃ evidence : BenefitEvidence, evidence.provenDrcBenefitLb = 0 ∧
      validate D ext { candidate with requiredResources := claims } region design
        allowedActionFamilies violations =
          resourceLevels { candidate with
            requiredResources := claims
            benefitEvidence := evidence } design :=
  validate_of_reaches hprove
    ⟨⟨⟨⟨h.identified, h.mutates, h.routed, h.targeted⟩, h.readable, h.related⟩, h.sourced,
      h.edits⟩, h.geometry, h.semantics, h.locality⟩ heffects

/-- **Behind level 3** two lists of claims get the same report exactly when they get the same
verdict. -/
theorem report_iff {claims : List ResourceClaim}
    (hprove : ∀ c v r, ∃ records, ext.prove c v r = .ok records)
    (hpasses : PassesLevel3 ext candidate region design allowedActionFamilies violations)
    (heffects : EffectsDefined D candidate design violations) :
    (validate D ext { candidate with requiredResources := claims } region design
        allowedActionFamilies violations).map Validation.report =
      (validate D ext candidate region design allowedActionFamilies violations).map
        Validation.report ↔
      (resourceCheck { candidate with requiredResources := claims } design = .ok () ↔
        resourceCheck candidate design = .ok ()) := by
  obtain ⟨evidence, hlb, heq⟩ := validate_reads_claims hprove hpasses heffects claims
  obtain ⟨evidence', hlb', heq'⟩ :=
    validate_reads_claims hprove hpasses heffects candidate.requiredResources
  constructor
  · intro hreports
    obtain ⟨v, hv⟩ := @resourceLevels_returns design
      { candidate with requiredResources := claims, benefitEvidence := evidence }
    obtain ⟨v', hv'⟩ := @resourceLevels_returns design
      { candidate with benefitEvidence := evidence' }
    rw [heq.trans hv, heq'.trans hv'] at hreports
    have hlevels : 4 ∈ v.report.levelsPassed ↔ 4 ∈ v'.report.levelsPassed := by
      rw [Except.ok.inj hreports]
    rw [resourceLevels_level4 hv, resourceLevels_level4 hv'] at hlevels
    exact hlevels
  · intro hverdict
    rw [heq]
    exact (resourceLevels_report hlb' hlb hverdict).trans
      (congrArg (Except.map Validation.report) heq'.symm)

/-- **What passes level 4 is within the capacities**, whatever the order of the claims. -/
structure Admission (D : Type) [CheckedDoubles D] (ext : Externals) (candidate : RepairCandidate)
    (region : RegionState) (design : DesignState) (allowedActionFamilies : List String)
    (violations : Violations) : Prop where
  fits : ∀ v, validate D ext candidate region design allowedActionFamilies violations = .ok v →
    4 ∈ v.report.levelsPassed → Fits design candidate.requiredResources
  order : ∀ claims, claims.Perm candidate.requiredResources →
    (validate D ext { candidate with requiredResources := claims } region design
        allowedActionFamilies violations).map Validation.report =
      (validate D ext candidate region design allowedActionFamilies violations).map
        Validation.report

/-- The condition for it. -/
structure AdmissionSound (D : Type) [CheckedDoubles D] (ext : Externals)
    (candidate : RepairCandidate) (region : RegionState) (design : DesignState)
    (allowedActionFamilies : List String) (violations : Violations) : Prop where
  /-- A `NO_OP` is not checked. -/
  noop : Identified candidate region allowedActionFamilies → candidate.isNoop = true →
    Fits design candidate.requiredResources
  /-- Behind level 3 the claims fit in every order, or in none. -/
  checked : PassesLevel3 ext candidate region design allowedActionFamilies violations →
    EffectsDefined D candidate design violations →
      AlwaysFits design candidate.requiredResources ∨
        NeverFits design candidate.requiredResources

/-- **When level 4 is an admission by the capacities**, where the proof engine returns. -/
theorem admission_iff (hprove : ∀ c v r, ∃ records, ext.prove c v r = .ok records) :
    Admission D ext candidate region design allowedActionFamilies violations ↔
      AdmissionSound D ext candidate region design allowedActionFamilies violations := by
  constructor
  · intro h
    refine ⟨fun hidentified hnoop => h.fits _ (validate_noop hidentified hnoop)
        (by decide : 4 ∈ [0, 1, 2, 3, 4, 5]),
      fun hpasses heffects => verdict_iff.1 fun claims hperm => ?_⟩
    exact (report_iff hprove hpasses heffects).1 (h.order claims hperm)
  · intro h
    refine ⟨fun v hv hlevel => ?_, fun claims hperm => ?_⟩
    · rcases validate_level4 hprove hv hlevel with ⟨hidentified, hnoop⟩ | ⟨hpasses, heffects⟩
      · exact h.noop hidentified hnoop
      · obtain ⟨evidence, -, heq⟩ :=
          validate_reads_claims hprove hpasses heffects candidate.requiredResources
        have hcheck := (resourceLevels_level4 (heq.symm.trans hv)).1 hlevel
        refine ((h.checked hpasses heffects).resolve_right fun hnever => ?_).fits
        exact exists_perm_resourceCheck.1 ⟨_, List.Perm.refl _, hcheck⟩ hnever
    · by_cases hreaches : PassesLevel3 ext candidate region design allowedActionFamilies violations
          ∧ EffectsDefined D candidate design violations
      · obtain ⟨hpasses, heffects⟩ := hreaches
        exact (report_iff hprove hpasses heffects).2
          (verdict_iff.2 (h.checked hpasses heffects) claims hperm)
      · exact validate_report hprove fun hpasses heffects => hreaches ⟨hpasses, heffects⟩

end Run

/-! ## A sample -/

/-- The candidate that moves the shape, with claims on a resource. -/
def claiming (claims : List ResourceClaim) : RepairCandidate :=
  { moveLeft ["o"] with requiredResources := claims }

theorem resourceCheck_of_nonneg_claiming :
    resourceCheck (claiming [⟨"tracks", 3, some 5⟩, ⟨"tracks", 2, some 5⟩]) sampleDesign =
        .ok () ∧
      resourceCheck (claiming [⟨"tracks", 2, some 5⟩, ⟨"tracks", 3, some 5⟩]) sampleDesign =
        .ok () := by
  have hcheck : resourceCheck (claiming [⟨"tracks", 3, some 5⟩, ⟨"tracks", 2, some 5⟩])
      sampleDesign = .ok () := rfl
  have hnonneg := (@resourceCheck_of_nonneg sampleDesign
    (claiming [⟨"tracks", 3, some 5⟩, ⟨"tracks", 2, some 5⟩]) (by decide) (by decide)).2
  exact ⟨hcheck, (hnonneg _ (List.Perm.swap _ _ _)).trans hcheck⟩

theorem admission_iff_claiming : @Admission ℚ exactCheckedDoubles plainExternals
      (claiming [⟨"tracks", 2, some 5⟩, ⟨"tracks", -1, some 5⟩]) sampleRegion sampleDesign
      ["MOVE_SHAPE"] (.list [sampleViolation]) ↔
    @AdmissionSound ℚ exactCheckedDoubles plainExternals
      (claiming [⟨"tracks", 2, some 5⟩, ⟨"tracks", -1, some 5⟩]) sampleRegion sampleDesign
      ["MOVE_SHAPE"] (.list [sampleViolation]) :=
  @admission_iff ℚ exactCheckedDoubles _ _ _ _ _ _ fun _ _ _ => ⟨[], rfl⟩

/-- The check of the candidate with its claims. -/
def claimingLevels (claims : List ResourceClaim) : Except PyError (List ℕ) :=
  (@validate ℚ exactCheckedDoubles plainExternals (claiming claims) sampleRegion sampleDesign
    ["MOVE_SHAPE"] (.list [sampleViolation])).map fun v => v.report.levelsPassed

/-- Two claims of three on one resource: they pass in the order of their capacities, one of
which is five, and are refused in the other order. -/
theorem claims_pass_in_one_order :
    claimingLevels [⟨"tracks", 3, some 5⟩, ⟨"tracks", 3, some 10⟩] = .ok [0, 1, 2, 3, 4, 5] ∧
      claimingLevels [⟨"tracks", 3, some 10⟩, ⟨"tracks", 3, some 5⟩] = .ok [0, 1, 2, 3] ∧
      ¬ Fits sampleDesign [⟨"tracks", 3, some 5⟩, ⟨"tracks", 3, some 10⟩] ∧
      ¬ @Admission ℚ exactCheckedDoubles plainExternals
        (claiming [⟨"tracks", 3, some 5⟩, ⟨"tracks", 3, some 10⟩]) sampleRegion sampleDesign
        ["MOVE_SHAPE"] (.list [sampleViolation]) := by
  have hpasses : claimingLevels [⟨"tracks", 3, some 5⟩, ⟨"tracks", 3, some 10⟩] =
      .ok [0, 1, 2, 3, 4, 5] := rfl
  have hfits : ¬ Fits sampleDesign [⟨"tracks", 3, some 5⟩, ⟨"tracks", 3, some 10⟩] := fun h =>
    absurd (h ⟨"tracks", 3, some 5⟩ List.mem_cons_self) (by decide)
  refine ⟨hpasses, rfl, hfits, fun h => hfits ?_⟩
  exact @Admission.fits ℚ exactCheckedDoubles _ _ _ _ _ _ h _ rfl
    (by decide : 4 ∈ [0, 1, 2, 3, 4, 5])

end DRCAgent.Candidates
