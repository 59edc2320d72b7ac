/-
# The histories of a region

`candidate_history` and `rollback_history` of a region that `RegionBuilder` makes
(src/drc_agent/regions/builder.py). A region takes the lineage id of the previous region
that it overlaps most if the overlap reaches a share of 0.35 of their violations; the
histories are those of that previous region whether the share is reached or not.

So a region has the histories of its lineage exactly if no previous region exists, or the
one with the most overlap reaches the share, or has no history
(`histories_follow_lineage_iff`).
-/
import DRCAgent.RegionTotality

namespace DRCAgent.Regions

open Disjoint Failures List

/-! ## The records -/

structure CandidateAttemptSummary where
  candidateId : String
  semanticFingerprint : String
  outcome : String
  changedPreconditionIds : List String := []
  deriving DecidableEq

structure RollbackSummary where
  transactionId : String
  reason : String
  candidateIds : List String := []

/-- A region of the previous iteration, with its histories. -/
structure PreviousState extends PreviousRegion where
  candidateHistory : List CandidateAttemptSummary := []
  rollbackHistory : List RollbackSummary := []

/-- A region, with its histories. -/
structure RegionWithHistories (D : Type) extends RegionState D where
  candidateHistory : List CandidateAttemptSummary
  rollbackHistory : List RollbackSummary

/-! ## The previous region -/

/-- The comparison of `max`: a region replaces the best one so far if it overlaps more. -/
def moreOverlap (violationIds : List String) (best : Option PreviousState)
    (region : PreviousState) : Option PreviousState :=
  match best with
  | none => some region
  | some b =>
    if overlapCount b.violationIds violationIds < overlapCount region.violationIds violationIds
    then some region else some b

/-- `old` of `_finalize`: `max(previous, key=..., default=None)`, the first with the greatest
overlap. -/
def oldRegion (previous : List PreviousState) (violationIds : List String) :
    Option PreviousState :=
  previous.foldl (moreOverlap violationIds) none

/-- The previous region without its histories is the one that the lineage id is taken from. -/
theorem oldRegion_map (previous : List PreviousState) (violationIds : List String) :
    (oldRegion previous violationIds).map PreviousState.toPreviousRegion =
      bestPrevious (previous.map PreviousState.toPreviousRegion) violationIds := by
  -- the step of the other fold, and that the map goes through it
  obtain ⟨step, hbest, hstep⟩ : ∃ step : Option PreviousRegion → PreviousRegion →
      Option PreviousRegion,
      bestPrevious (previous.map PreviousState.toPreviousRegion) violationIds =
        (previous.map PreviousState.toPreviousRegion).foldl step none ∧
      ∀ best region, (moreOverlap violationIds best region).map PreviousState.toPreviousRegion =
        step (best.map PreviousState.toPreviousRegion) region.toPreviousRegion := by
    refine ⟨_, rfl, fun best region => ?_⟩
    cases best with
    | none => rfl
    | some b => exact apply_ite _ _ _ _
  have hfold : ∀ (l : List PreviousState) (best : Option PreviousState),
      (l.foldl (moreOverlap violationIds) best).map PreviousState.toPreviousRegion =
        (l.map PreviousState.toPreviousRegion).foldl step
          (best.map PreviousState.toPreviousRegion) := by
    intro l
    induction l with
    | nil => exact fun _ => rfl
    | cons region rest ih =>
      intro best
      rw [foldl_cons, map_cons, foldl_cons, ih, hstep]
  exact (hfold previous none).trans hbest.symm

/-- What is compared last is the best region or the new one. -/
theorem moreOverlap_eq_some {violationIds : List String} {best : Option PreviousState}
    {region p : PreviousState} (h : moreOverlap violationIds best region = some p) :
    best = some p ∨ p = region := by
  cases best with
  | none => exact Or.inr (Option.some.inj h).symm
  | some b =>
    unfold moreOverlap at h
    dsimp only at h
    split_ifs at h
    · exact Or.inr (Option.some.inj h).symm
    · exact Or.inl h

/-- The previous region that overlaps most is one of them. -/
theorem oldRegion_mem {previous : List PreviousState} {violationIds : List String}
    {p : PreviousState} (h : oldRegion previous violationIds = some p) : p ∈ previous := by
  have hfold : ∀ (l : List PreviousState) (best : Option PreviousState),
      l.foldl (moreOverlap violationIds) best = some p → best = some p ∨ p ∈ l := by
    intro l
    induction l with
    | nil => exact fun _ h => Or.inl h
    | cons region rest ih =>
      intro best h
      rw [foldl_cons] at h
      rcases ih _ h with hp | hp
      · rcases moreOverlap_eq_some hp with hp | rfl
        · exact Or.inl hp
        · exact Or.inr mem_cons_self
      · exact Or.inr (mem_cons_of_mem _ hp)
  rcases hfold previous none h with h | h
  · cases h
  · exact h

/-- It depends on the set of the violations. -/
theorem oldRegion_congr (previous : List PreviousState) {ids ids' : List String}
    (h : ids.toFinset = ids'.toFinset) : oldRegion previous ids = oldRegion previous ids' := by
  have hstep : moreOverlap ids = moreOverlap ids' := by
    funext best region
    unfold moreOverlap overlapCount
    rw [h]
  rw [oldRegion, oldRegion, hstep]

/-! ## The histories -/

section Histories

variable {D : Type} [BuilderDoubles D]

/-- The region with what `_finalize` copies from `old`. -/
def withHistories (previous : List PreviousState) (region : RegionState D) :
    RegionWithHistories D :=
  let old := oldRegion previous region.violationIds
  { toRegionState := region
    candidateHistory := match old with
      | some p => p.candidateHistory
      | none => []
    rollbackHistory := match old with
      | some p => p.rollbackHistory
      | none => [] }

/-- `_finalize` -/
def finalizeHistories (cfg : RegionConfig D) (stableHash : RegionHashPart → String)
    (previous : List PreviousState) (first : Seed) (rest : List Seed) :
    Except BuilderError (RegionWithHistories D) := do
  let region ← Checked.finalize cfg stableHash
    (previous.map PreviousState.toPreviousRegion) first rest
  return withHistories previous region

/-- The regions of `build`. -/
def buildHistories (cfg : RegionConfig D) (stableHash : RegionHashPart → String)
    (catalog : RuleCatalog D) (violations : List ViolationRecord) (objects : List LayoutObject)
    (previous : List PreviousState) : Except BuilderError (List (RegionWithHistories D)) := do
  let result ← Checked.build cfg stableHash catalog violations objects
    (previous.map PreviousState.toPreviousRegion)
  return result.regions.map (withHistories previous)

/-! ## The lineage -/

/-- The share of the violations that a lineage needs. -/
def ReachesShare (D : Type) [Doubles D] (p : PreviousState) (violationIds : List String) : Prop :=
  (Doubles.lit (35 / 100) : D) ≤ Doubles.trueDiv (overlapCount p.violationIds violationIds)
    (max (p.violationIds.toFinset ∪ violationIds.toFinset).card 1 : ℕ)

instance (p : PreviousState) (violationIds : List String) :
    Decidable (ReachesShare D p violationIds) :=
  inferInstanceAs (Decidable (_ ≤ _))

/-- The region with these violations takes the lineage of a previous one. -/
def TakesLineage (D : Type) [Doubles D] (previous : List PreviousState)
    (violationIds : List String) (p : PreviousState) : Prop :=
  oldRegion previous violationIds = some p ∧ ReachesShare D p violationIds

/-- The histories of a region are those of the previous region whose lineage id it takes; a
region with a new lineage has none. -/
structure InheritsFromLineage (previous : List PreviousState) (region : RegionWithHistories D) :
    Prop where
  taken : ∀ p, TakesLineage D previous region.violationIds p →
    p ∈ previous ∧ region.lineageId = p.lineageId ∧
      region.candidateHistory = p.candidateHistory ∧ region.rollbackHistory = p.rollbackHistory
  fresh : (∀ p, ¬ TakesLineage D previous region.violationIds p) →
    region.candidateHistory = [] ∧ region.rollbackHistory = []

/-- The previous region that overlaps most, if there is one, reaches the share or has no
history. -/
def LineageHasHistories (D : Type) [Doubles D] (previous : List PreviousState)
    (violationIds : List String) : Prop :=
  ∀ p, oldRegion previous violationIds = some p →
    ReachesShare D p violationIds ∨ (p.candidateHistory = [] ∧ p.rollbackHistory = [])

variable {cfg : RegionConfig D} {hash : RegionHashPart → String} {previous : List PreviousState}
  {first : Seed} {rest : List Seed} {region : RegionWithHistories D}

/-- What `_finalize` returns. -/
theorem finalizeHistories_eq_ok
    (h : finalizeHistories cfg hash previous first rest = .ok region) :
    region = withHistories previous
      (finalize cfg hash (previous.map PreviousState.toPreviousRegion) first rest) := by
  obtain ⟨state, hstate, h⟩ := bind_eq_ok.1 h
  unfold Checked.finalize at hstate
  obtain ⟨_, -, hstate⟩ := bind_eq_ok.1 hstate
  obtain ⟨_, -, hstate⟩ := bind_eq_ok.1 hstate
  obtain ⟨_, -, hstate⟩ := bind_eq_ok.1 hstate
  obtain ⟨_, -, hstate⟩ := bind_eq_ok.1 hstate
  obtain ⟨_, -, hstate⟩ := bind_eq_ok.1 hstate
  rw [← Except.ok.inj h, ← Except.ok.inj hstate]

/-- The lineage id, where the lineage of a previous region is taken. -/
theorem lineageId_taken {p : PreviousState}
    (h : TakesLineage D previous
      (finalize cfg hash (previous.map PreviousState.toPreviousRegion) first rest).violationIds p) :
    (finalize cfg hash (previous.map PreviousState.toPreviousRegion) first rest).lineageId =
      p.lineageId := by
  have hbest : bestPrevious (previous.map PreviousState.toPreviousRegion)
      (finalize cfg hash (previous.map PreviousState.toPreviousRegion) first rest).violationIds =
        some p.toPreviousRegion := by
    rw [← oldRegion_map, h.1]
    rfl
  simp only [finalize] at hbest ⊢
  rw [hbest]
  exact if_pos h.2

omit [BuilderDoubles D] in
/-- The histories that a region has, whatever its lineage is. -/
theorem withHistories_of_old {p : PreviousState} {state : RegionState D}
    (h : oldRegion previous state.violationIds = some p) :
    (withHistories previous state).candidateHistory = p.candidateHistory ∧
      (withHistories previous state).rollbackHistory = p.rollbackHistory := by
  unfold withHistories
  rw [h]
  exact ⟨rfl, rfl⟩

omit [BuilderDoubles D] in
theorem withHistories_of_none {state : RegionState D}
    (h : oldRegion previous state.violationIds = none) :
    (withHistories previous state).candidateHistory = [] ∧
      (withHistories previous state).rollbackHistory = [] := by
  unfold withHistories
  rw [h]
  exact ⟨rfl, rfl⟩

/-- One region. -/
theorem finalizeHistories_inherits_iff
    (h : finalizeHistories cfg hash previous first rest = .ok region) :
    InheritsFromLineage previous region ↔
      LineageHasHistories D previous ((first :: rest).map (·.violation.violationId)) := by
  obtain rfl := finalizeHistories_eq_ok h
  set state := finalize cfg hash
    (previous.map PreviousState.toPreviousRegion) first rest with hstate
  -- the violations of the region are those of the seeds
  have hids : ((first :: rest).map (·.violation.violationId)).toFinset =
      state.violationIds.toFinset :=
    (toFinset_eq_of_perm _ _ (finalize_violationIds cfg hash _ first rest)).symm
  have hold := oldRegion_congr previous hids
  have hshare : ∀ p, ReachesShare D p ((first :: rest).map (·.violation.violationId)) ↔
      ReachesShare D p state.violationIds := by
    intro p
    unfold ReachesShare overlapCount
    rw [hids]
  constructor
  · intro hinherits p hp
    rw [hold] at hp
    rw [hshare]
    by_cases hreaches : ReachesShare D p state.violationIds
    · exact Or.inl hreaches
    · right
      have hnone : ∀ q, ¬ TakesLineage D previous state.violationIds q := by
        rintro q ⟨hq, hqreaches⟩
        rw [hp] at hq
        obtain rfl := Option.some.inj hq
        exact hreaches hqreaches
      obtain ⟨hcandidate, hrollback⟩ := hinherits.fresh hnone
      obtain ⟨hcandidate', hrollback'⟩ := withHistories_of_old hp
      exact ⟨hcandidate'.symm.trans hcandidate, hrollback'.symm.trans hrollback⟩
  · intro hlineage
    constructor
    · intro p hp
      exact ⟨oldRegion_mem hp.1, lineageId_taken hp, withHistories_of_old hp.1⟩
    · intro hfresh
      cases hp : oldRegion previous state.violationIds with
      | none => exact withHistories_of_none hp
      | some p =>
        obtain ⟨hcandidate, hrollback⟩ := withHistories_of_old hp
        rcases hlineage p (hold.trans hp) with hreaches | ⟨hempty, hempty'⟩
        · exact absurd ⟨hp, (hshare p).1 hreaches⟩ (hfresh p)
        · exact ⟨hcandidate.trans hempty, hrollback.trans hempty'⟩

/-- Every region of a build is made by `_finalize` from some seeds. -/
theorem buildHistories_mem {catalog : RuleCatalog D} {violations : List ViolationRecord}
    {objects : List LayoutObject} {regions : List (RegionWithHistories D)}
    (h : buildHistories cfg hash catalog violations objects previous = .ok regions)
    (hregion : region ∈ regions) :
    ∃ first rest, finalizeHistories cfg hash previous first rest = .ok region := by
  obtain ⟨result, hresult, h⟩ := bind_eq_ok.1 h
  obtain rfl := Except.ok.inj h
  obtain ⟨state, hstate, rfl⟩ := mem_map.1 hregion
  unfold Checked.build at hresult
  obtain ⟨seeds, -, hresult⟩ := bind_eq_ok.1 hresult
  obtain ⟨linked, -, hresult⟩ := bind_eq_ok.1 hresult
  obtain ⟨states, hstates, hresult⟩ := bind_eq_ok.1 hresult
  dsimp only at hresult
  split_ifs at hresult with hcovered
  · cases hresult
  obtain ⟨updated, -, hresult⟩ := bind_eq_ok.1 hresult
  obtain rfl := Except.ok.inj hresult
  unfold Checked.buildRegions at hstates
  obtain ⟨parts, -, hstates⟩ := bind_eq_ok.1 hstates
  obtain ⟨made, hmade, hstates⟩ := bind_eq_ok.1 hstates
  obtain rfl := Except.ok.inj hstates
  have hmem : some state ∈ made := by
    rw [mem_insertionSort, reduceOption_mem_iff] at hstate
    exact hstate
  obtain ⟨part, -, hpart⟩ := (mem_mapM hmade _).1 hmem
  cases part with
  | nil => cases hpart
  | cons first rest =>
    obtain ⟨r, hr, hpart⟩ := bind_eq_ok.1 hpart
    obtain rfl := Option.some.inj (Except.ok.inj hpart)
    exact ⟨first, rest, bind_eq_ok.2 ⟨r, hr, rfl⟩⟩

/-- **When a region has the histories of its lineage only**: exactly if no previous region
exists, or the one that overlaps it most reaches the share that a lineage needs, or has no
history. The regions of a build are such regions. -/
theorem histories_follow_lineage_iff (cfg : RegionConfig D) (hash : RegionHashPart → String)
    (previous : List PreviousState) :
    (∀ first rest region, finalizeHistories cfg hash previous first rest = .ok region →
      (InheritsFromLineage previous region ↔
        LineageHasHistories D previous ((first :: rest).map (·.violation.violationId)))) ∧
    (∀ catalog violations objects regions,
      buildHistories cfg hash catalog violations objects previous = .ok regions →
        ∀ region ∈ regions, ∃ first rest,
          finalizeHistories cfg hash previous first rest = .ok region) := by
  constructor
  · intro first rest region h
    exact finalizeHistories_inherits_iff h
  · intro catalog violations objects regions h region hregion
    exact buildHistories_mem h hregion

end Histories

/-! ## A region without violations in common -/

/-- The attempt of another region. -/
def otherAttempt : CandidateAttemptSummary := {
  candidateId := "k", semanticFingerprint := "f", outcome := "FAILED" }

/-- A previous region of another violation, with an attempt. -/
def otherRegion : PreviousState := {
  lineageId := "lineage_other", violationIds := ["x"], candidateHistory := [otherAttempt] }

/-- The build of one violation after it. -/
def freshBuild : Except BuilderError (List (RegionWithHistories ℚ)) :=
  @buildHistories ℚ exactBuilderDoubles oneMarkerConfig (fun _ => "hash")
    { fallback := { haloMultiplier := 2 } } [markerAt "a" 0] [squareAt "o" 0] [otherRegion]

/-- The region takes a new lineage, with the history of a region it has nothing in common
with. -/
theorem fresh_lineage_has_history :
    ∃ region : RegionWithHistories ℚ, freshBuild = .ok [region] ∧
      region.violationIds = ["a"] ∧ region.lineageId = "lineage_hash" ∧
      region.candidateHistory = otherRegion.candidateHistory ∧
      ¬ @InheritsFromLineage ℚ exactBuilderDoubles [otherRegion] region := by
  have hreturns : (freshBuild.toOption.any fun regions => regions.length == 1 &&
      regions.all fun region => region.violationIds == ["a"] &&
        region.lineageId == "lineage_hash" &&
          region.candidateHistory == otherRegion.candidateHistory) = true := by
    decide +kernel
  obtain ⟨regions, hregions, hall⟩ := Option.any_eq_true _ _ |>.1 hreturns
  have hbuild : freshBuild = .ok regions := by
    cases hfresh : freshBuild with
    | error e =>
      rw [hfresh] at hregions
      cases hregions
    | ok value =>
      rw [hfresh] at hregions
      exact congrArg _ (Option.some.inj hregions)
  simp only [Bool.and_eq_true, beq_iff_eq, all_eq_true] at hall
  obtain ⟨hlength, hall⟩ := hall
  obtain ⟨region, rfl⟩ := length_eq_one_iff.1 hlength
  obtain ⟨⟨hids, hlineage⟩, hhistory⟩ := hall region mem_cons_self
  refine ⟨region, hbuild, hids, hlineage, hhistory, ?_⟩
  intro hinherits
  -- the share of the other region is zero
  have hnone : ∀ p, ¬ @TakesLineage ℚ exactBuilderDoubles.toDoubles [otherRegion]
      region.violationIds p := by
    rintro p ⟨hold, hreaches⟩
    rw [hids] at hold hreaches
    obtain rfl : otherRegion = p := Option.some.inj hold
    exact absurd hreaches (by decide +kernel)
  obtain ⟨hempty, -⟩ := @InheritsFromLineage.fresh ℚ exactBuilderDoubles _ _ hinherits hnone
  rw [hhistory] at hempty
  cases hempty

/-- A previous region of the same violation, and the seed of the violation. -/
def sameRegion : PreviousState := { otherRegion with violationIds := ["a"] }

def loneSeed : Seed :=
  ⟨markerAt "a" 0, [], (markerAt "a" 0).markerBboxDbu, (markerAt "a" 0).markerBboxDbu, false⟩

/-- A region that takes the lineage of the previous one, with its history. -/
theorem histories_follow_lineage_sample :
    ∃ region : RegionWithHistories ℚ,
      @finalizeHistories ℚ exactBuilderDoubles oneMarkerConfig (fun _ => "hash") [sameRegion]
        loneSeed [] = .ok region ∧
      @InheritsFromLineage ℚ exactBuilderDoubles [sameRegion] region := by
  have hreturns : raised (@finalizeHistories ℚ exactBuilderDoubles oneMarkerConfig
      (fun _ => "hash") [sameRegion] loneSeed []) = none := by
    decide +kernel
  obtain ⟨region, hregion⟩ := exists_of_not_raised hreturns
  refine ⟨region, hregion, ?_⟩
  refine ((@histories_follow_lineage_iff ℚ exactBuilderDoubles oneMarkerConfig (fun _ => "hash")
    [sameRegion]).1 _ _ region hregion).2 ?_
  intro p hp
  obtain rfl := Option.some.inj hp
  left
  decide +kernel

end DRCAgent.Regions
