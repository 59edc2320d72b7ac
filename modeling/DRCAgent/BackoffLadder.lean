/-
# A ladder of bundles that loses the fallback

The windows behind the other half of the result on same-cardinality retries. The
solver of a ladder offers two bundles of every size up to `top`: the `lower` one
first, the `upper` one once the lower one is a no-good. No bundle makes progress.
The plain backoff climbs down the lower bundles to the singleton; the loop with
retries tries both bundles of a size for as long as its budgets allow, and has no
job left for the singleton.
-/
import DRCAgent.CardinalityBackoff

namespace DRCAgent

open List Rounds

/-! ## The ladder -/

/-- The candidate on rung `i`. -/
def rung (i : ℕ) : WindowCandidate where
  candidateId := String.ofList (List.replicate (i + 1) 'c')
  isNoop := false

/-- The id of the candidate on rung `i`. -/
def rungId (i : ℕ) : String := (rung i).candidateId

theorem rungId_injective : Function.Injective rungId := by
  intro i j h
  have hlist := congrArg String.toList h
  simp only [rungId, rung, String.toList_ofList] at hlist
  have hlength := congrArg List.length hlist
  rw [length_replicate, length_replicate] at hlength
  omega

/-- The lower bundle of size `c`. -/
def lowerBundle (c : ℕ) : List ℕ := List.range c

/-- The upper bundle of size `c`. -/
def upperBundle (c : ℕ) : List ℕ := (List.range c).map (· + 1)

/-- The candidates of a bundle, by their rungs, as a set of ids. -/
def rungSet (rungs : List ℕ) : Finset String := (rungs.map rungId).toFinset

/-- The bundle the solver of a ladder picks, up to size `c`. -/
def climb (noGoods : List (List String)) : ℕ → List ℕ
  | 0 => []
  | c + 1 =>
    if rungSet (lowerBundle (c + 1)) ∉ noGoods.map toFinset then lowerBundle (c + 1)
    else if rungSet (upperBundle (c + 1)) ∉ noGoods.map toFinset then upperBundle (c + 1)
    else climb noGoods c

/-- The evidence of a bundle without progress. -/
def noProgressEvidence (selected : List WindowCandidate) (patchPlan : PatchPlan) :
    SandboxEvidence where
  status := .noProgress
  scope := expectedScope selected
  baseSnapshotId := some "snapshot"
  candidateIds := sortedIds selected
  patchPlanSha256 := some patchPlan.sha256
  ruleDeckSha256 := some "deck"
  evaluatorSha256 := some "evaluator"

/-- The outside functions of a ladder with bundles up to size `top`. -/
def ladderEnv (top : ℕ) : CoordinationEnv where
  buildCandidateGraph candidates windowId := .ok { subgraphId := windowId, candidates := candidates }
  solve _ graph cap := .ok {
    bundleId := "bundle"
    selectedCandidateIds := (climb graph.noGoodCandidateSets (min cap.toNat top)).map rungId }
  compile _ _ := .ok { sha256 := "plan" }
  hasCompletePhysicalTruth _ := true
  physicalEffect _ := "effect"
  sandbox _ selected patchPlan := .evidence (noProgressEvidence selected patchPlan)
  batchHash _ := "batch"

/-- The arguments of a ladder under given budgets. -/
def ladderInput (top rounds : ℕ) (jobs cap : ℤ) : CoordinationInput where
  windowId := "window"
  candidates := (List.range (top + 1)).map rung
  snapshot := {
    snapshotId := "snapshot"
    scriptRef := { path := ["script"], sha256 := "script", mediaType := "text", producer := "p" } }
  transaction := { maxNonNoopActionsPerBatch := cap }
  jointSandboxMaxBundleSize := cap
  jointSandboxMaxRounds := rounds
  sandboxJobsRemaining := jobs
  ruleDeckSha256 := "deck"
  evaluatorSha256 := "evaluator"

/-! ## What a ladder selects -/

section Ladder

variable {top c : ℕ} {noGoods noGoods' : List (List String)}

theorem nodup_lowerBundle (c : ℕ) : (lowerBundle c).Nodup := nodup_range

theorem nodup_upperBundle (c : ℕ) : (upperBundle c).Nodup :=
  nodup_range.map fun _ _ => Nat.succ.inj

theorem length_lowerBundle (c : ℕ) : (lowerBundle c).length = c := length_range

theorem length_upperBundle (c : ℕ) : (upperBundle c).length = c := by
  rw [upperBundle, length_map, length_range]

theorem card_rungSet {rungs : List ℕ} (h : rungs.Nodup) : (rungSet rungs).card = rungs.length := by
  rw [rungSet, toFinset_card_of_nodup (h.map rungId_injective), length_map]

theorem mem_rungSet {rungs : List ℕ} {i : ℕ} : rungId i ∈ rungSet rungs ↔ i ∈ rungs := by
  rw [rungSet, mem_toFinset, mem_map_of_injective rungId_injective]

/-- The two bundles of a size differ. -/
theorem rungSet_lower_ne_upper (c : ℕ) :
    rungSet (lowerBundle (c + 1)) ≠ rungSet (upperBundle (c + 1)) := by
  intro h
  have hzero : rungId 0 ∈ rungSet (lowerBundle (c + 1)) :=
    mem_rungSet.2 (mem_range.2 (Nat.succ_pos c))
  rw [h, mem_rungSet, upperBundle, mem_map] at hzero
  obtain ⟨i, -, hi⟩ := hzero
  exact absurd hi (Nat.succ_ne_zero i)

/-- A climbed bundle: on the ladder, without repetition, of size at most `c`, and no
no-good unless it is empty. -/
theorem climb_spec (noGoods : List (List String)) (c : ℕ) :
    (climb noGoods c).Nodup ∧ (climb noGoods c).length ≤ c ∧ (∀ i ∈ climb noGoods c, i ≤ c) ∧
      (climb noGoods c = [] ∨ rungSet (climb noGoods c) ∉ noGoods.map toFinset) := by
  induction c with
  | zero => exact ⟨nodup_nil, le_rfl, fun _ hi => absurd hi not_mem_nil, .inl rfl⟩
  | succ c ih =>
    rw [climb]
    by_cases hlower : rungSet (lowerBundle (c + 1)) ∉ noGoods.map toFinset
    · rw [if_pos hlower]
      refine ⟨nodup_lowerBundle _, (length_lowerBundle _).le, fun i hi => ?_, .inr hlower⟩
      exact (mem_range.1 hi).le
    rw [if_neg hlower]
    by_cases hupper : rungSet (upperBundle (c + 1)) ∉ noGoods.map toFinset
    · rw [if_pos hupper]
      refine ⟨nodup_upperBundle _, (length_upperBundle _).le, fun i hi => ?_, .inr hupper⟩
      obtain ⟨j, hj, rfl⟩ := mem_map.1 hi
      exact mem_range.1 hj
    · rw [if_neg hupper]
      obtain ⟨hnodup, hlength, hmem, hfresh⟩ := ih
      exact ⟨hnodup, hlength.trans (Nat.le_succ c), fun i hi => (hmem i hi).trans (Nat.le_succ c),
        hfresh⟩

/-- A climb looks at the sets up to its size only. -/
theorem climb_congr
    (h : ∀ S : Finset String, 1 ≤ S.card → S.card ≤ c →
      (S ∈ noGoods.map toFinset ↔ S ∈ noGoods'.map toFinset)) :
    climb noGoods c = climb noGoods' c := by
  induction c with
  | zero => rfl
  | succ c ih =>
    have hlower := h (rungSet (lowerBundle (c + 1)))
      (by rw [card_rungSet (nodup_lowerBundle _), length_lowerBundle]; omega)
      (by rw [card_rungSet (nodup_lowerBundle _), length_lowerBundle])
    have hupper := h (rungSet (upperBundle (c + 1)))
      (by rw [card_rungSet (nodup_upperBundle _), length_upperBundle]; omega)
      (by rw [card_rungSet (nodup_upperBundle _), length_upperBundle])
    unfold climb
    rw [ih fun S hpos hle => h S hpos (hle.trans (Nat.le_succ c))]
    simp only [hlower, hupper]

/-- A new size starts with its lower bundle. -/
theorem climb_lower (h : ∀ noGood ∈ noGoods, c + 1 < noGood.toFinset.card) :
    climb noGoods (c + 1) = lowerBundle (c + 1) := by
  unfold climb
  rw [if_pos]
  intro hmem
  obtain ⟨noGood, hnoGood, heq⟩ := mem_map.1 hmem
  have hcard := h noGood hnoGood
  rw [heq, card_rungSet (nodup_lowerBundle _), length_lowerBundle] at hcard
  omega

/-- After the lower bundle comes the upper one. -/
theorem climb_upper (h : ∀ noGood ∈ noGoods, c + 1 < noGood.toFinset.card) {ids : List String}
    (hids : ids.toFinset = rungSet (lowerBundle (c + 1))) :
    climb (noGoods ++ [ids]) (c + 1) = upperBundle (c + 1) := by
  unfold climb
  rw [if_neg, if_pos]
  · intro hmem
    obtain ⟨noGood, hnoGood, heq⟩ := mem_map.1 hmem
    rcases mem_append.1 hnoGood with hnoGood | hnoGood
    · have hcard := h noGood hnoGood
      rw [heq, card_rungSet (nodup_upperBundle _), length_upperBundle] at hcard
      omega
    · rw [mem_singleton.1 hnoGood, hids] at heq
      exact rungSet_lower_ne_upper c heq
  · rw [not_not]
    exact mem_map.2 ⟨ids, mem_append_right _ (mem_singleton_self _), hids⟩

/-! ## The candidates of a ladder -/

theorem candidateById_rung {i : ℕ} (hi : i ≤ top) :
    candidateById ((List.range (top + 1)).map rung) (rungId i) = some (rung i) := by
  unfold candidateById
  cases hfind : List.find? (fun c => decide (c.candidateId = rungId i))
      (((List.range (top + 1)).map rung).reverse) with
  | none =>
    have hmem : rung i ∈ ((List.range (top + 1)).map rung).reverse :=
      mem_reverse.2 (mem_map_of_mem (mem_range.2 (by omega)))
    have hnone := find?_eq_none.1 hfind (rung i) hmem
    exact absurd (decide_eq_true rfl) hnone
  | some found =>
    have hmem := mem_reverse.1 (mem_of_find?_eq_some hfind)
    have hid : found.candidateId = rungId i := by
      have hsome := find?_some hfind
      exact of_decide_eq_true hsome
    obtain ⟨j, -, rfl⟩ := mem_map.1 hmem
    rw [rungId_injective hid]

theorem selectedOf_rungs {rungs : List ℕ} (h : ∀ i ∈ rungs, i ≤ top) :
    selectedOf ((List.range (top + 1)).map rung)
      { bundleId := "bundle", selectedCandidateIds := rungs.map rungId } = rungs.map rung := by
  have hfilterMap : (rungs.map rungId).filterMap
      (candidateById ((List.range (top + 1)).map rung)) = rungs.map rung := by
    rw [filterMap_map]
    calc
      rungs.filterMap (candidateById ((List.range (top + 1)).map rung) ∘ rungId) =
          rungs.filterMap (some ∘ rung) :=
        filterMap_congr fun i hi => candidateById_rung (h i hi)
      _ = rungs.map rung := by rw [filterMap_eq_map]
  rw [selectedOf, hfilterMap, filter_eq_self]
  intro c hc
  obtain ⟨i, -, rfl⟩ := mem_map.1 hc
  rfl

theorem toFinset_sortedIds (rungs : List ℕ) :
    (sortedIds (rungs.map rung)).toFinset = rungSet rungs := by
  rw [sortedIds, toFinset_eq_of_perm _ _ (perm_insertionSort _ _), map_map]
  rfl

variable {rounds : ℕ} {jobs cap : ℤ}

/-- What the solver of a ladder selects. -/
theorem ladder_solve (top : ℕ) (rounds : ℕ) (jobs cap : ℤ) (n : ℕ) (graph : CandidateGraph)
    (limit : ℤ) :
    ∃ bundle, (ladderEnv top).solve n graph limit = .ok bundle ∧
      selectedOf (ladderInput top rounds jobs cap).candidates bundle =
        (climb graph.noGoodCandidateSets (min limit.toNat top)).map rung := by
  obtain ⟨-, -, hmem, -⟩ := climb_spec graph.noGoodCandidateSets (min limit.toNat top)
  exact ⟨_, rfl, selectedOf_rungs fun i hi => (hmem i hi).trans (min_le_right _ _)⟩

/-- The climb that an answer of the solver stands for. -/
theorem selectedOf_ladder {n : ℕ} {graph : CandidateGraph} {limit : ℤ} {bundle : JointRepairBundle}
    (hsolve : (ladderEnv top).solve n graph limit = .ok bundle) :
    selectedOf (ladderInput top rounds jobs cap).candidates bundle =
      (climb graph.noGoodCandidateSets (min limit.toNat top)).map rung := by
  obtain ⟨bundle', hsolve', hselected⟩ := ladder_solve top rounds jobs cap n graph limit
  rw [hsolve] at hsolve'
  obtain rfl := Except.ok.inj hsolve'
  exact hselected

/-- A small set is a no-good exactly if it is one that fits under the cap. -/
theorem mem_fittingNoGoods {limit : ℤ} {S : Finset String} (hS : (S.card : ℤ) ≤ limit) :
    S ∈ (fittingNoGoods limit noGoods).map toFinset ↔ S ∈ noGoods.map toFinset := by
  simp only [mem_map, fittingNoGoods, mem_filter, decide_eq_true_eq]
  constructor
  · rintro ⟨noGood, ⟨hnoGood, -⟩, rfl⟩
    exact ⟨noGood, hnoGood, rfl⟩
  · rintro ⟨noGood, hnoGood, rfl⟩
    exact ⟨noGood, ⟨hnoGood, hS⟩, rfl⟩

theorem ladder_exactSolver : ExactSolver (ladderEnv top) (ladderInput top rounds jobs cap) where
  total := fun n graph limit => ⟨_, rfl⟩
  withinCap := by
    intro n graph limit bundle hsolve
    obtain ⟨-, hlength, -, -⟩ := climb_spec graph.noGoodCandidateSets (min limit.toNat top)
    rw [selectedOf_ladder hsolve, length_map]
    omega
  distinct := by
    intro n graph limit bundle hsolve
    obtain ⟨hnodup, -, -, -⟩ := climb_spec graph.noGoodCandidateSets (min limit.toNat top)
    rw [selectedOf_ladder hsolve, sortedIds, (perm_insertionSort _ _).nodup_iff, map_map]
    exact hnodup.map rungId_injective
  avoids := by
    intro n graph limit bundle hsolve noGood hnoGood hsome heq
    obtain ⟨-, -, -, hfresh⟩ := climb_spec graph.noGoodCandidateSets (min limit.toNat top)
    rw [selectedOf_ladder hsolve, toFinset_sortedIds] at heq
    rcases hfresh with hempty | hfresh
    · rw [hempty] at heq
      exact hsome (toFinset_eq_empty_iff _ |>.1 heq)
    · rw [← heq] at hfresh
      exact hfresh (mem_map_of_mem hnoGood)
  fits := by
    intro n n' graph noGoods noGoods' limit hfits
    have hclimb : climb noGoods (min limit.toNat top) = climb noGoods' (min limit.toNat top) := by
      refine climb_congr fun S hpos hle => ?_
      have hS : (S.card : ℤ) ≤ limit := by omega
      rw [← mem_fittingNoGoods hS, hfits, mem_fittingNoGoods hS]
    show Except.ok _ = Except.ok _
    rw [hclimb]

theorem ladder_multiFail :
    MultiCandidateBundlesFail (ladderEnv top) (ladderInput top rounds jobs cap) :=
  fun _ selected patchPlan _ => ⟨noProgressEvidence selected patchPlan, rfl, rfl,
    ⟨rfl, rfl, rfl, rfl, rfl, rfl, rfl⟩, rfl⟩

/-- Every bundle of a ladder within the cap gets as far as the sandbox. -/
theorem ladder_sandboxable {bundle : JointRepairBundle} {rungs : List ℕ}
    (hselected : selectedOf (ladderInput top rounds jobs cap).candidates bundle = rungs.map rung)
    (hcap : (rungs.length : ℤ) ≤ cap) :
    Sandboxable (ladderEnv top) (ladderInput top rounds jobs cap) bundle := by
  refine ⟨?_, { sha256 := "plan" }, rfl, ?_⟩
  · have hobjects : modifiedObjects (rungs.map rung) = ∅ := by
      rw [modifiedObjects, toFinset_eq_empty_iff, flatMap_eq_nil_iff]
      intro c hc
      obtain ⟨i, -, rfl⟩ := mem_map.1 hc
      rfl
    rw [exceedsTransactionCaps, hselected, hobjects, Bool.or_eq_false_iff, length_map]
    exact ⟨decide_eq_false (not_lt.2 hcap), rfl⟩
  · rw [hselected, Bool.eq_false_iff, ne_eq, reusesEvidence_iff]
    rintro ⟨candidate, hcandidate, -, hexact⟩
    obtain ⟨i, -, rfl⟩ := mem_map.1
      (hcandidate ▸ mem_singleton_self candidate : candidate ∈ rungs.map rung)
    exact absurd hexact (Bool.false_ne_true)

/-! ## The two runs on a ladder -/

/-- About to try the size `c`: nothing recorded is that small. -/
structure Visits (top c : ℕ) (s : CoordinationState) : Prop where
  size : min s.selectionCap.toNat top = c
  fresh : ∀ noGood ∈ s.graph.noGoodCandidateSets, c < noGood.toFinset.card
  retried : ∀ k ∈ s.sameCardinalityRetried, c < k
  calls : NoSingleton s.calls

variable {s t : CoordinationState}

/-- A visit selects the lower bundle. -/
theorem Visits.solve (h : Visits top (c + 1) s) (hcap : ((c + 1 : ℕ) : ℤ) ≤ cap) (rounds : ℕ)
    (jobs : ℤ) (n : ℕ) :
    ∃ bundle, (ladderEnv top).solve n s.graph s.selectionCap = .ok bundle ∧
      selectedOf (ladderInput top rounds jobs cap).candidates bundle =
        (lowerBundle (c + 1)).map rung ∧
      Sandboxable (ladderEnv top) (ladderInput top rounds jobs cap) bundle := by
  obtain ⟨bundle, hsolve, hselected⟩ :=
    ladder_solve top rounds jobs cap n s.graph s.selectionCap
  rw [h.size, climb_lower h.fresh] at hselected
  refine ⟨bundle, hsolve, hselected, ladder_sandboxable hselected ?_⟩
  rw [length_lowerBundle]
  exact hcap

theorem length_rungs (rungs : List ℕ) : (rungs.map rung).length = rungs.length :=
  length_map _

/-- The sizes recorded, or retried, are at least `c`. -/
structure Leaves (top c : ℕ) (s : CoordinationState) : Prop where
  size : c ≤ top
  fresh : ∀ noGood ∈ s.graph.noGoodCandidateSets, c ≤ noGood.toFinset.card
  retried : ∀ k ∈ s.sameCardinalityRetried, c ≤ k
  calls : NoSingleton s.calls

theorem Visits.leaves (h : Visits top c s) : Leaves top c s where
  size := h.size ▸ min_le_right _ _
  fresh := fun noGood hnoGood => (h.fresh noGood hnoGood).le
  retried := fun k hk => (h.retried k hk).le
  calls := h.calls

/-- A bundle of the size failed. -/
theorem Leaves.failed (h : Leaves top (c + 2) s) {rungs : List ℕ} {spent : ℕ}
    (hnodup : rungs.Nodup) (hlength : rungs.length = c + 2)
    (hfailed : BundleFailed s t (rungs.map rung) spent) : Leaves top (c + 2) t where
  size := h.size
  fresh := by
    intro noGood hnoGood
    rw [hfailed.graph] at hnoGood
    rcases mem_append.1 hnoGood with hmem | hmem
    · exact h.fresh noGood hmem
    · rw [mem_singleton.1 hmem, toFinset_sortedIds, card_rungSet hnodup, hlength]
  retried := by
    rw [hfailed.retried]
    exact h.retried
  calls := by
    have hmulti : 2 ≤ (rungs.map rung).length := by
      rw [length_rungs, hlength]
      omega
    exact h.calls.failed hmulti hfailed

/-- Backing off from the size. -/
theorem Leaves.backOff (h : Leaves top (c + 2) t) {rungs : List ℕ} (hlength : rungs.length = c + 2)
    (backoffCount : ℕ) :
    Visits top (c + 1) { t with
      selectionCap := ((rungs.map rung).length : ℤ) - 1, backoffCount := backoffCount } where
  size := by
    have hsize := h.size
    show min (((rungs.map rung).length : ℤ) - 1).toNat top = c + 1
    rw [length_rungs, hlength]
    omega
  fresh := fun noGood hnoGood => h.fresh noGood hnoGood
  retried := fun k hk => h.retried k hk
  calls := h.calls

/-- **The plain backoff** reaches the singleton of a ladder in as many rounds, and
jobs, as the ladder has sizes. -/
theorem ladder_plain {n : ℕ} (hvisits : Visits top (c + 1) s) (hrounds : c + 1 ≤ n)
    (hjobs : ((s.jobs + (c + 1) : ℕ) : ℤ) ≤ jobs) (hcap : ((c + 1 : ℕ) : ℤ) ≤ cap) :
    (loop (coordinationRound (ladderEnv top) (ladderInput top rounds jobs cap) neverRetries)
      CoordinationState.noSafeBundle n s).SandboxesSingleton := by
  induction c generalizing n s with
  | zero =>
    obtain ⟨n, rfl⟩ : ∃ k, n = k + 1 := ⟨n - 1, by omega⟩
    obtain ⟨bundle, hsolve, hselected, hsandboxable⟩ :=
      hvisits.solve hcap rounds jobs (2 * s.capsTried.length)
    have hsingle : (selectedOf (ladderInput top rounds jobs cap).candidates bundle).length = 1 := by
      rw [hselected, length_rungs, length_lowerBundle]
    obtain ⟨run, hround, hcase⟩ := round_single (n := n) ignoresSingletons_never hsolve hsingle
    rw [loop_done hround]
    have hleft : (s.jobs : ℤ) < jobs := by omega
    rcases hcase with ⟨-, -, hcalls⟩ | ⟨hnot, -⟩
    · refine ⟨_, ?_, (length_sortedIds _).trans hsingle⟩
      rw [hcalls]
      exact mem_append_right _ (mem_singleton_self _)
    · exact absurd ⟨hsandboxable, hleft⟩ hnot
  | succ c ih =>
    obtain ⟨n, rfl⟩ : ∃ k, n = k + 1 := ⟨n - 1, by omega⟩
    obtain ⟨bundle, hsolve, hselected, hsandboxable⟩ :=
      hvisits.solve hcap rounds jobs (2 * s.capsTried.length)
    have hlength : (selectedOf (ladderInput top rounds jobs cap).candidates bundle).length =
        c + 2 := by
      rw [hselected, length_rungs, length_lowerBundle]
    have hmulti : 2 ≤ (selectedOf (ladderInput top rounds jobs cap).candidates bundle).length := by
      omega
    have hle := ladder_exactSolver.length_le hsolve (Nat.le_of_succ_le hmulti)
    rcases round_multi (n := n) neverRetries ladder_multiFail hsolve hmulti with
      ⟨hnot, -⟩ | ⟨-, hspent, -⟩ | ⟨-, -, t, hfailed, heq⟩
    · exact absurd hsandboxable hnot
    · have hleft : jobs ≤ s.jobs := hspent
      omega
    · rw [decideRetry, neverRetries] at heq
      simp only at heq
      rw [backOff_multi hmulti (by rw [hfailed.cap]; exact hle)] at heq
      rw [loop_next heq]
      rw [hselected] at hfailed ⊢
      have hleaves := hvisits.leaves.failed (nodup_lowerBundle _) (length_lowerBundle _) hfailed
      refine ih (hleaves.backOff (length_lowerBundle _) _) (by omega) ?_ (by omega)
      have htjobs := hfailed.jobs
      show ((t.jobs + (c + 1) : ℕ) : ℤ) ≤ jobs
      omega

/-- A round of a ladder, under the rule of the loop, when a job is left: the bundle
is called for, fails, and a retry is decided on. -/
theorem ladder_round {n : ℕ} {bundle : JointRepairBundle} {rungs : List ℕ}
    (hsolve : (ladderEnv top).solve (2 * s.capsTried.length) s.graph s.selectionCap = .ok bundle)
    (hselected : selectedOf (ladderInput top rounds jobs cap).candidates bundle = rungs.map rung)
    (hlength : rungs.length = c + 2) (hcap : ((c + 2 : ℕ) : ℤ) ≤ cap) (hjobs : (s.jobs : ℤ) < jobs) :
    ((c + 2 : ℕ) : ℤ) ≤ s.selectionCap ∧
    ∃ t, BundleFailed s t (rungs.map rung) 1 ∧
      coordinationRound (ladderEnv top) (ladderInput top rounds jobs cap)
          (alternateSameCardinality (ladderEnv top) (ladderInput top rounds jobs cap)) n s =
        decideRetry (alternateSameCardinality (ladderEnv top) (ladderInput top rounds jobs cap)) n t
          (rungs.map rung) := by
  have hmulti : 2 ≤ (selectedOf (ladderInput top rounds jobs cap).candidates bundle).length := by
    rw [hselected, length_rungs, hlength]
    omega
  have hle := ladder_exactSolver.length_le hsolve (Nat.le_of_succ_le hmulti)
  rw [hselected, length_rungs, hlength] at hle
  refine ⟨hle, ?_⟩
  have hround := round_multi (n := n)
    (alternateSameCardinality (ladderEnv top) (ladderInput top rounds jobs cap)) ladder_multiFail
    hsolve hmulti
  rw [hselected] at hround
  rcases hround with ⟨hnot, -⟩ | ⟨-, hspent, -⟩ | ⟨-, -, t, hfailed, heq⟩
  · refine absurd (ladder_sandboxable hselected ?_) hnot
    rw [hlength]
    exact hcap
  · exact absurd hspent (not_le.2 hjobs)
  · exact ⟨t, hfailed, heq⟩

/-- Without a retry, a ladder is left for the next smaller size. -/
theorem ladder_backOff {retries : RetryRule} {n : ℕ} {rungs : List ℕ}
    (hlength : rungs.length = c + 2) (hcap : ((c + 2 : ℕ) : ℤ) ≤ t.selectionCap)
    (hretries : retries t (c + 2) n = .ok false) :
    decideRetry retries n t (rungs.map rung) = .next { t with
      selectionCap := ((rungs.map rung).length : ℤ) - 1, backoffCount := t.backoffCount + 1 } := by
  have hrungs := (length_rungs rungs).trans hlength
  rw [decideRetry, hrungs, hretries]
  simp only
  rw [← hrungs]
  exact backOff_multi (by omega) (by rw [hrungs]; exact hcap)

/-- Once the lower bundle of a size failed, the solver gives the upper one. -/
theorem Visits.solve_upper (h : Visits top (c + 2) s)
    (hfailed : BundleFailed s t ((lowerBundle (c + 2)).map rung) 1) (rounds : ℕ) (jobs cap : ℤ)
    (i : ℕ) :
    ∃ bundle, (ladderEnv top).solve i t.graph ((c + 2 : ℕ) : ℤ) = .ok bundle ∧
      selectedOf (ladderInput top rounds jobs cap).candidates bundle =
        (upperBundle (c + 2)).map rung := by
  obtain ⟨bundle, hsolve, hselected⟩ :=
    ladder_solve top rounds jobs cap i t.graph ((c + 2 : ℕ) : ℤ)
  have hmin : min ((c + 2 : ℕ) : ℤ).toNat top = c + 2 := by
    have htop := h.leaves.size
    omega
  have hclimb : climb t.graph.noGoodCandidateSets (c + 2) = upperBundle (c + 2) := by
    rw [hfailed.graph]
    exact climb_upper h.fresh (toFinset_sortedIds _)
  rw [hmin, hclimb] at hselected
  exact ⟨bundle, hsolve, hselected⟩

/-- So the size is retried where the rule of the loop allows it. -/
theorem Visits.retries {n : ℕ} (h : Visits top (c + 2) s)
    (hfailed : BundleFailed s t ((lowerBundle (c + 2)).map rung) 1)
    (hspare : 1 < c + 2 ∧ c + 2 ∉ t.sameCardinalityRetried ∧ c + 2 ≤ n ∧ (t.jobs : ℤ) < jobs) :
    alternateSameCardinality (ladderEnv top) (ladderInput top rounds jobs cap) t (c + 2) n =
      .ok true := by
  obtain ⟨alternate, hsolve, hselected⟩ :=
    h.solve_upper hfailed rounds jobs cap (2 * t.capsTried.length + 1)
  unfold alternateSameCardinality
  refine (if_pos hspare).trans ?_
  rw [hsolve]
  show Except.ok (decide _) = _
  rw [hselected, length_rungs, length_upperBundle, decide_eq_true rfl]

/-- The retry fails as well, and the next smaller size is visited. -/
theorem Visits.retry {n : ℕ} (h : Visits top (c + 2) s)
    (hfailed : BundleFailed s t ((lowerBundle (c + 2)).map rung) 1)
    (rounds : ℕ) (hleft : (t.jobs : ℤ) < jobs) (hcap : ((c + 2 : ℕ) : ℤ) ≤ cap) :
    ∃ u, u.jobs = t.jobs + 1 ∧ Visits top (c + 1) u ∧
      coordinationRound (ladderEnv top) (ladderInput top rounds jobs cap)
        (alternateSameCardinality (ladderEnv top) (ladderInput top rounds jobs cap)) n { t with
          sameCardinalityRetried := t.sameCardinalityRetried ++ [c + 2]
          selectionCap := ((c + 2 : ℕ) : ℤ) } = .next u := by
  obtain ⟨alternate, hsolve, hselected⟩ :=
    h.solve_upper hfailed rounds jobs cap (2 * t.capsTried.length)
  obtain ⟨hsize, u, hfails, hround⟩ :=
    ladder_round (n := n) (s := { t with
      sameCardinalityRetried := t.sameCardinalityRetried ++ [c + 2]
      selectionCap := ((c + 2 : ℕ) : ℤ) }) hsolve hselected (length_upperBundle _) hcap hleft
  -- a size that was retried is not retried again
  have hretried : c + 2 ∈ u.sameCardinalityRetried := by
    rw [hfails.retried]
    exact mem_append_right _ (mem_singleton_self _)
  rw [ladder_backOff (length_upperBundle _) (hfails.cap.symm ▸ hsize)
    (alternateSameCardinality_retried hretried)] at hround
  have hlower := h.leaves.failed (nodup_lowerBundle _) (length_lowerBundle _) hfailed
  have hleaves : Leaves top (c + 2) { t with
      sameCardinalityRetried := t.sameCardinalityRetried ++ [c + 2]
      selectionCap := ((c + 2 : ℕ) : ℤ) } := by
    refine ⟨hlower.size, hlower.fresh, fun k hk => ?_, hlower.calls⟩
    rcases mem_append.1 hk with hk | hk
    · exact hlower.retried k hk
    · exact (mem_singleton.1 hk).ge
  have hupper := hleaves.failed (nodup_upperBundle _) (length_upperBundle _) hfails
  exact ⟨{ u with
    selectionCap := (((upperBundle (c + 2)).map rung).length : ℤ) - 1
    backoffCount := u.backoffCount + 1 },
    hfails.jobs, hupper.backOff (length_upperBundle _) _, hround⟩

/-- Where no job is left, a visit of a size above one sandboxes nothing more. -/
theorem Visits.spent {n : ℕ} (h : Visits top (c + 2) s) (hcap : ((c + 2 : ℕ) : ℤ) ≤ cap)
    (hspent : jobs ≤ s.jobs) :
    ∃ run, coordinationRound (ladderEnv top) (ladderInput top rounds jobs cap)
        (alternateSameCardinality (ladderEnv top) (ladderInput top rounds jobs cap)) n s =
          .done run ∧ run.calls = s.calls := by
  obtain ⟨bundle, hsolve, hselected, hsandboxable⟩ :=
    h.solve hcap rounds jobs (2 * s.capsTried.length)
  have hmulti : 2 ≤ (selectedOf (ladderInput top rounds jobs cap).candidates bundle).length := by
    rw [hselected, length_rungs, length_lowerBundle]
    omega
  rcases round_multi (n := n)
    (alternateSameCardinality (ladderEnv top) (ladderInput top rounds jobs cap))
    ladder_multiFail hsolve hmulti with ⟨hnot, -⟩ | ⟨-, -, hdone⟩ | ⟨-, hleft, -⟩
  · exact absurd hsandboxable hnot
  · exact hdone
  · exact absurd hspent (not_le.2 hleft)

/-- **The loop with retries** never reaches the singleton of a ladder, once the jobs
left are too few for two bundles of every size above one, or for one of every size. -/
theorem ladder_actual {n : ℕ} (hvisits : Visits top (c + 1) s) (hrounds : n + s.jobs = rounds)
    (hdoomed : (jobs + 1 ≤ rounds ∧ jobs ≤ ((2 * c + s.jobs : ℕ) : ℤ)) ∨
      jobs ≤ ((s.jobs + c : ℕ) : ℤ))
    (hcap : ((c + 1 : ℕ) : ℤ) ≤ cap) :
    ¬ (loop (coordinationRound (ladderEnv top) (ladderInput top rounds jobs cap)
        (alternateSameCardinality (ladderEnv top) (ladderInput top rounds jobs cap)))
      CoordinationState.noSafeBundle n s).SandboxesSingleton := by
  induction c generalizing n s with
  | zero =>
    rcases n with _ | n
    · exact hvisits.calls.not_sandboxes rfl
    obtain ⟨bundle, hsolve, hselected, -⟩ :=
      hvisits.solve hcap rounds jobs (2 * s.capsTried.length)
    have hsingle : (selectedOf (ladderInput top rounds jobs cap).candidates bundle).length = 1 := by
      rw [hselected, length_rungs, length_lowerBundle]
    obtain ⟨run, hround, hcase⟩ :=
      round_single (n := n) (ignoresSingletons_alternate _ _) hsolve hsingle
    rw [loop_done hround]
    rcases hcase with ⟨-, hleft, -⟩ | ⟨-, hcalls⟩
    · have hleft' : (s.jobs : ℤ) < jobs := hleft
      omega
    · exact hvisits.calls.not_sandboxes hcalls
  | succ c ih =>
    rcases n with _ | n
    · exact hvisits.calls.not_sandboxes rfl
    rcases lt_or_ge (s.jobs : ℤ) jobs with hjobs | hspent
    swap
    · obtain ⟨run, hround, hcalls⟩ := hvisits.spent (n := n) hcap hspent
      rw [loop_done hround]
      exact hvisits.calls.not_sandboxes hcalls
    obtain ⟨bundle, hsolve, hselected, -⟩ :=
      hvisits.solve hcap rounds jobs (2 * s.capsTried.length)
    obtain ⟨hsize, t, hfailed, hround⟩ :=
      ladder_round (n := n) hsolve hselected (length_lowerBundle _) hcap hjobs
    have htjobs := hfailed.jobs
    by_cases hspare : 1 < c + 2 ∧ c + 2 ∉ t.sameCardinalityRetried ∧ c + 2 ≤ n ∧
      (t.jobs : ℤ) < jobs
    · -- the upper bundle of the size is tried as well
      rw [decideRetry, length_rungs, length_lowerBundle, hvisits.retries hfailed hspare] at hround
      simp only at hround
      rw [loop_next hround]
      obtain ⟨m, rfl⟩ : ∃ k, n = k + 1 := ⟨n - 1, by omega⟩
      obtain ⟨u, hujobs, hnext, hretry⟩ :=
        hvisits.retry (n := m) hfailed rounds hspare.2.2.2 hcap
      rw [loop_next hretry]
      exact ih hnext (by omega) (by omega) (by omega)
    · -- no round or no job is spare: on to the next smaller size
      have hkeep : alternateSameCardinality (ladderEnv top) (ladderInput top rounds jobs cap) t
          (c + 2) n = .ok false := by
        unfold alternateSameCardinality
        exact if_neg hspare
      have hleaves := hvisits.leaves.failed (nodup_lowerBundle _) (length_lowerBundle _) hfailed
      rw [ladder_backOff (length_lowerBundle _) (hfailed.cap.symm ▸ hsize) hkeep] at hround
      rw [loop_next hround]
      refine ih (hleaves.backOff (length_lowerBundle _) _) ?_ ?_ (by omega)
      · show n + t.jobs = rounds
        omega
      · have hunretried : c + 2 ∉ t.sameCardinalityRetried := by
          intro hmem
          rw [hfailed.retried] at hmem
          exact absurd (hvisits.retried _ hmem) (lt_irrefl _)
        have hscarce : n < c + 2 ∨ jobs ≤ t.jobs := by
          by_contra hneither
          rw [not_or, not_lt, not_le] at hneither
          exact hspare ⟨by omega, hunretried, hneither.1, hneither.2⟩
        show (_ ∧ jobs ≤ ((2 * c + t.jobs : ℕ) : ℤ)) ∨ jobs ≤ ((t.jobs + c : ℕ) : ℤ)
        omega

/-! ## The condition on the budgets -/

/-- The first visit of a ladder. -/
theorem visits_start (top : ℕ) {cap : ℤ} (hcap : (top : ℤ) ≤ cap) :
    Visits top top {
      graph := { subgraphId := "window", candidates := (List.range (top + 1)).map rung }
      selectionCap := cap } where
  size := by
    show min cap.toNat top = top
    omega
  fresh := fun _ hnoGood => absurd hnoGood not_mem_nil
  retried := fun _ hk => absurd hk not_mem_nil
  calls := fun _ hcall => absurd hcall not_mem_nil

/-- A coordination of a ladder with at least one round is its loop. -/
theorem coordinateWith_ladder (top : ℕ) {rounds : ℕ} (jobs cap : ℤ) (hrounds : rounds ≠ 0)
    (retries : RetryRule) :
    coordinateWith (ladderEnv top) (ladderInput top rounds jobs cap) retries =
      loop (coordinationRound (ladderEnv top) (ladderInput top rounds jobs cap) retries)
        CoordinationState.noSafeBundle rounds {
          graph := { subgraphId := "window", candidates := (List.range (top + 1)).map rung }
          selectionCap := cap } := by
  have hcap : (ladderInput top rounds jobs cap).selectionCap = cap := min_self cap
  unfold coordinateWith
  show (if rounds = 0 then _ else _) = _
  rw [if_neg hrounds, hcap]
  rfl

/-- Budgets that do not cover the retries lose the fallback of some ladder. -/
theorem ladder_loses_fallback {rounds : ℕ} {jobs cap : ℤ}
    (hcovers : ¬ CoversRetries rounds jobs cap) :
    ∃ top, (plainBackoff (ladderEnv top) (ladderInput top rounds jobs cap)).SandboxesSingleton ∧
      ¬ (coordinateActiveWindow (ladderEnv top)
        (ladderInput top rounds jobs cap)).SandboxesSingleton := by
  rw [CoversRetries, not_or, not_or, not_le, not_le, not_le] at hcovers
  obtain ⟨hjobs, hrounds, hcap⟩ := hcovers
  -- the plain backoff can just pay for a ladder of this height
  obtain ⟨c, hc⟩ : ∃ c : ℕ, ((c + 1 : ℕ) : ℤ) = min jobs cap :=
    ⟨(min jobs cap).toNat - 1, by omega⟩
  have hle : ((c + 1 : ℕ) : ℤ) ≤ cap := by omega
  refine ⟨c + 1, ?_, ?_⟩
  · unfold plainBackoff
    rw [coordinateWith_ladder _ _ _ (by omega)]
    refine ladder_plain (visits_start (c + 1) hle) (by omega) ?_ hle
    show ((0 + (c + 1) : ℕ) : ℤ) ≤ jobs
    omega
  · unfold coordinateActiveWindow
    rw [coordinateWith_ladder _ _ _ (by omega)]
    refine ladder_actual (visits_start (c + 1) hle) (Nat.add_zero _) (.inl ⟨by omega, ?_⟩) hle
    show jobs ≤ ((2 * c + 0 : ℕ) : ℤ)
    omega

end Ladder

/-- **Same-cardinality retries and the singleton fallback.**  For given budgets, the
loop with retries sandboxes a singleton in every window in which the plain backoff
does so, exactly if the job budget covers the retries. -/
theorem singleton_fallback_iff (rounds : ℕ) (jobs cap : ℤ) :
    (∀ env input, input.jointSandboxMaxRounds = rounds → input.sandboxJobsRemaining = jobs →
      input.selectionCap = cap → ExactSolver env input → MultiCandidateBundlesFail env input →
      (plainBackoff env input).SandboxesSingleton →
      (coordinateActiveWindow env input).SandboxesSingleton) ↔ CoversRetries rounds jobs cap := by
  constructor
  · intro hpreserved
    by_contra hcovers
    obtain ⟨top, hplain, hlost⟩ := ladder_loses_fallback hcovers
    exact hlost (hpreserved _ _ rfl rfl (min_self cap) ladder_exactSolver ladder_multiFail hplain)
  · rintro hcovers env input rfl rfl rfl hsolver hfail hplain
    exact sandboxesSingleton_of_plain hsolver hfail hcovers hplain

/-- With the default rounds and caps and two jobs left, a window of three candidates
loses its singleton: both jobs go to the two bundles of two candidates. -/
theorem fallback_lost :
    ∃ env input, input.jointSandboxMaxRounds = 5 ∧ input.sandboxJobsRemaining = 2 ∧
      input.selectionCap = 5 ∧ ExactSolver env input ∧ MultiCandidateBundlesFail env input ∧
      (plainBackoff env input).SandboxesSingleton ∧
      ¬ (coordinateActiveWindow env input).SandboxesSingleton := by
  obtain ⟨top, hplain, hlost⟩ : ∃ top, _ ∧ _ :=
    ladder_loses_fallback (show ¬ CoversRetries 5 2 5 by rw [CoversRetries]; omega)
  exact ⟨ladderEnv top, ladderInput top 5 2 5, rfl, rfl, min_self 5, ladder_exactSolver,
    ladder_multiFail, hplain, hlost⟩

end DRCAgent
