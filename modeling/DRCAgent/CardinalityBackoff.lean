/-
# Same-cardinality retries and the singleton fallback

`coordinate_active_window` tries a second bundle of the same size before it lowers
the cap. `plainBackoff` is the same loop that never does so. Does the first still
sandbox a singleton whenever the second does?

The condition of a retry reserves the rounds that the backoff still needs, but only
one sandbox job. So a retry can spend the job the singleton needs. This file shows
for which budgets that cannot happen (`CoversRetries`): for them the loop simulates
the plain backoff, one round by one or two. For all others a ladder of bundles
shows the fallback lost.
-/
import DRCAgent.CoordinationSafety

namespace DRCAgent

open List Rounds

/-! ## Statement -/

/-- The coordination that never retries a cardinality. -/
def plainBackoff (env : CoordinationEnv) (input : CoordinationInput) : CoordinationRun :=
  coordinateWith env input fun _ _ _ => .ok false

/-- A bundle of one candidate was handed to the sandbox. -/
def CoordinationRun.SandboxesSingleton (run : CoordinationRun) : Prop :=
  ∃ call ∈ run.calls, call.length = 1

/-- The recorded no-good sets that fit under a cap. -/
def fittingNoGoods (cap : ℤ) (noGoods : List (List String)) : List (List String) :=
  noGoods.filter fun noGood => (noGood.toFinset.card : ℤ) ≤ cap

/-- An exact solver: it always answers, within the cap, selects a candidate at most
once, never returns a recorded no-good, and its answer depends on the no-goods that
fit under the cap only. -/
structure ExactSolver (env : CoordinationEnv) (input : CoordinationInput) : Prop where
  total : ∀ n graph cap, ∃ bundle, env.solve n graph cap = .ok bundle
  withinCap : ∀ n graph cap bundle, env.solve n graph cap = .ok bundle →
    ((selectedOf input.candidates bundle).length : ℤ) ≤ max cap 0
  distinct : ∀ n graph cap bundle, env.solve n graph cap = .ok bundle →
    (sortedIds (selectedOf input.candidates bundle)).Nodup
  avoids : AvoidsNoGoods env input
  fits : ∀ n n' (graph : CandidateGraph) noGoods noGoods' cap,
    fittingNoGoods cap noGoods = fittingNoGoods cap noGoods' →
    env.solve n { graph with noGoodCandidateSets := noGoods } cap =
      env.solve n' { graph with noGoodCandidateSets := noGoods' } cap

/-- Every bundle of several candidates fails verification with complete evidence. -/
def MultiCandidateBundlesFail (env : CoordinationEnv) (input : CoordinationInput) : Prop :=
  ∀ n selected patchPlan, 2 ≤ selected.length →
    ∃ evidence, env.sandbox n selected patchPlan = .evidence evidence ∧
      env.hasCompletePhysicalTruth evidence = true ∧
      IdentityMatches input selected patchPlan evidence ∧
      acceptsEvidence env evidence = .ok false

/-- The job budget cannot run out on a retry: it pays for every round, or for two
bundles of every size above one, or for no bundle before the singleton. -/
def CoversRetries (rounds : ℕ) (jobs cap : ℤ) : Prop :=
  jobs ≤ 1 ∨ rounds ≤ jobs ∨ 2 * cap - 1 ≤ jobs

/-! ## What a round does -/

section Round

variable {env : CoordinationEnv} {input : CoordinationInput} {n : ℕ}
  {s t : CoordinationState} {bundle : JointRepairBundle} {selected : List WindowCandidate}

/-- The bundle gets as far as the sandbox, as far as the job budget lets it. -/
def Sandboxable (env : CoordinationEnv) (input : CoordinationInput) (bundle : JointRepairBundle) :
    Prop :=
  exceedsTransactionCaps input (selectedOf input.candidates bundle) = false ∧
    ∃ patchPlan, env.compile bundle input.candidates = .ok patchPlan ∧
      reusesEvidence env input (selectedOf input.candidates bundle) patchPlan = false

/-- `t` is the state `s` after its bundle failed at the price of `spent` jobs. -/
structure BundleFailed (s t : CoordinationState) (selected : List WindowCandidate) (spent : ℕ) :
    Prop where
  cap : t.selectionCap = s.selectionCap
  graph : t.graph = { s.graph with
    noGoodCandidateSets := s.graph.noGoodCandidateSets ++ [sortedIds selected] }
  jobs : t.jobs = s.jobs + spent
  retried : t.sameCardinalityRetried = s.sameCardinalityRetried
  calls : ∀ c ∈ t.calls, c ∈ s.calls ∨ c.length = selected.length

theorem length_sortedIds (selected : List WindowCandidate) :
    (sortedIds selected).length = selected.length := by
  rw [sortedIds, length_insertionSort, length_map]

/-- A bundle of several candidates backs off to the next smaller size. -/
theorem backOff_multi (hmulti : 2 ≤ selected.length) (hcap : (selected.length : ℤ) ≤ t.selectionCap) :
    t.backOff selected.length = .next { t with
      selectionCap := selected.length - 1, backoffCount := t.backoffCount + 1 } := by
  have hmin : min (t.selectionCap - 1) ((selected.length : ℤ) - 1) = selected.length - 1 :=
    min_eq_right (by omega)
  unfold CoordinationState.backOff
  simp only [hmin]
  rw [if_neg (by omega)]

/-- A bundle of one candidate ends the loop. -/
theorem backOff_single : t.backOff 1 = .done t.noSafeBundle := by
  unfold CoordinationState.backOff
  simp only
  rw [if_pos]
  have hle : min (t.selectionCap - 1) ((1 : ℕ) - 1 : ℤ) ≤ (1 : ℕ) - 1 := min_le_right _ _
  omega

/-- One candidate never leads to a retry. -/
def IgnoresSingletons (retries : RetryRule) : Prop := ∀ s m, retries s 1 m = .ok false

theorem ignoresSingletons_alternate (env : CoordinationEnv) (input : CoordinationInput) :
    IgnoresSingletons (alternateSameCardinality env input) := fun _ _ => by
  rw [alternateSameCardinality, if_neg (by omega)]

theorem verifyBundle_single {retries : RetryRule} (hretries : IgnoresSingletons retries)
    (hsingle : selected.length = 1)
    {patchPlan : PatchPlan} {reused : Bool} {evidence : SandboxEvidence} :
    ∃ run, verifyBundle env input retries n s bundle selected patchPlan reused evidence =
      .done run ∧ run.calls = s.calls := by
  have hfailure : ∀ t : CoordinationState, ∃ run,
      afterFailure retries n t selected = .done run ∧ run.calls = t.calls := by
    intro t
    unfold afterFailure
    simp only [hsingle, hretries _ _, backOff_single]
    exact ⟨_, rfl, rfl⟩
  unfold verifyBundle
  split
  · exact ⟨_, rfl, rfl⟩
  split
  · exact ⟨_, rfl, rfl⟩
  split
  · exact ⟨_, rfl, rfl⟩
  · exact hfailure _
  · simp only
    split
    · exact ⟨_, rfl, rfl⟩
    · exact hfailure _

/-- **A round with one candidate** ends the loop; the candidate is sandboxed if it is
sandboxable and a job is left. -/
theorem round_single {retries : RetryRule} (hretries : IgnoresSingletons retries)
    (hsolve : env.solve (2 * s.capsTried.length) s.graph s.selectionCap = .ok bundle)
    (hsingle : (selectedOf input.candidates bundle).length = 1) :
    ∃ run, coordinationRound env input retries n s = .done run ∧
      ((Sandboxable env input bundle ∧ s.jobs < input.sandboxJobsRemaining ∧
          run.calls = s.calls ++ [sortedIds (selectedOf input.candidates bundle)]) ∨
        (¬ (Sandboxable env input bundle ∧ s.jobs < input.sandboxJobsRemaining) ∧
          run.calls = s.calls)) := by
  have hsome : selectedOf input.candidates bundle ≠ [] := by
    rintro hnil
    rw [hnil] at hsingle
    cases hsingle
  have hverify : ∀ (t : CoordinationState) patchPlan reused evidence, ∃ run,
      verifyBundle env input retries n t bundle (selectedOf input.candidates bundle) patchPlan
        reused evidence = .done run ∧ run.calls = t.calls :=
    fun _ _ _ _ => verifyBundle_single hretries hsingle
  unfold coordinationRound
  simp only [hsolve, if_neg hsome]
  split
  · rename_i hexceeds
    rw [hsingle, backOff_single]
    refine ⟨_, rfl, .inr ⟨?_, rfl⟩⟩
    rintro ⟨⟨hwithin, -⟩, -⟩
    rw [hwithin] at hexceeds
    cases hexceeds
  rename_i hwithin
  split
  · rename_i hcompile
    rw [hsingle, backOff_single]
    refine ⟨_, rfl, .inr ⟨?_, rfl⟩⟩
    rintro ⟨⟨-, patchPlan, hcompiled, -⟩, -⟩
    rw [hcompile] at hcompiled
    cases hcompiled
  rename_i patchPlan hcompile
  unfold obtainEvidence
  split
  · rename_i hreuse
    obtain ⟨run, hrun, hcalls⟩ := hverify _ patchPlan true _
    refine ⟨run, hrun, .inr ⟨?_, hcalls⟩⟩
    rintro ⟨⟨-, patchPlan', hcompiled, hfresh⟩, -⟩
    rw [hcompile] at hcompiled
    obtain rfl := Except.ok.inj hcompiled
    rw [hfresh] at hreuse
    cases hreuse
  rename_i hreuse
  split
  · rename_i hbudget
    exact ⟨_, rfl, .inr ⟨fun h => absurd hbudget (not_le.2 h.2), rfl⟩⟩
  rename_i hbudget
  have hsandboxable : Sandboxable env input bundle :=
    ⟨Bool.eq_false_iff.2 hwithin, patchPlan, hcompile, Bool.eq_false_iff.2 hreuse⟩
  simp only
  split
  · exact ⟨_, rfl, .inl ⟨hsandboxable, not_le.1 hbudget, rfl⟩⟩
  · exact ⟨_, rfl, .inl ⟨hsandboxable, not_le.1 hbudget, rfl⟩⟩
  · rename_i evidence _
    obtain ⟨run, hrun, hcalls⟩ := hverify _ patchPlan false evidence
    exact ⟨run, hrun, .inl ⟨hsandboxable, not_le.1 hbudget, hcalls⟩⟩

/-- The loop after a bundle failed with complete evidence, in the state that records it. -/
def decideRetry (retries : RetryRule) (n : ℕ) (t : CoordinationState)
    (selected : List WindowCandidate) : Round CoordinationState CoordinationRun :=
  match retries t selected.length n with
  | .error e => .done (t.finish (.error e))
  | .ok true =>
    .next { t with
      sameCardinalityRetried := t.sameCardinalityRetried ++ [selected.length]
      selectionCap := selected.length }
  | .ok false => t.backOff selected.length

/-- **A round with several candidates**, when every such bundle fails: it backs off
without a call, or has no job left, or calls and decides on a retry. -/
theorem round_multi (retries : RetryRule) (hfail : MultiCandidateBundlesFail env input)
    (hsolve : env.solve (2 * s.capsTried.length) s.graph s.selectionCap = .ok bundle)
    (hmulti : 2 ≤ (selectedOf input.candidates bundle).length) :
    (¬ Sandboxable env input bundle ∧ ∃ t, BundleFailed s t (selectedOf input.candidates bundle) 0 ∧
      coordinationRound env input retries n s =
        t.backOff (selectedOf input.candidates bundle).length) ∨
    (Sandboxable env input bundle ∧ input.sandboxJobsRemaining ≤ s.jobs ∧
      ∃ run, coordinationRound env input retries n s = .done run ∧ run.calls = s.calls) ∨
    (Sandboxable env input bundle ∧ s.jobs < input.sandboxJobsRemaining ∧
      ∃ t, BundleFailed s t (selectedOf input.candidates bundle) 1 ∧
        coordinationRound env input retries n s =
          decideRetry retries n t (selectedOf input.candidates bundle)) := by
  have hsome : selectedOf input.candidates bundle ≠ [] := by
    rintro hnil
    rw [hnil] at hmulti
    exact absurd hmulti (by decide)
  have hreuses : ∀ patchPlan,
      reusesEvidence env input (selectedOf input.candidates bundle) patchPlan = false := by
    intro patchPlan
    rw [Bool.eq_false_iff, ne_eq, reusesEvidence_iff]
    rintro ⟨candidate, hcandidate, -⟩
    rw [hcandidate, length_singleton] at hmulti
    omega
  unfold coordinationRound
  simp only [hsolve, if_neg hsome]
  split
  · rename_i hexceeds
    refine .inl ⟨?_, _, ?_, rfl⟩
    swap
    · exact ⟨rfl, rfl, rfl, rfl, fun c hc => .inl hc⟩
    rintro ⟨hwithin, -⟩
    rw [hwithin] at hexceeds
    cases hexceeds
  rename_i hwithin
  split
  · rename_i hcompile
    refine .inl ⟨?_, _, ?_, rfl⟩
    swap
    · exact ⟨rfl, rfl, rfl, rfl, fun c hc => .inl hc⟩
    rintro ⟨-, patchPlan, hcompiled, -⟩
    rw [hcompile] at hcompiled
    cases hcompiled
  rename_i patchPlan hcompile
  have hsandboxable : Sandboxable env input bundle :=
    ⟨Bool.eq_false_iff.2 hwithin, patchPlan, hcompile, hreuses patchPlan⟩
  unfold obtainEvidence
  rw [hreuses patchPlan, if_neg Bool.false_ne_true]
  split
  · rename_i hbudget
    exact .inr (.inl ⟨hsandboxable, hbudget, _, rfl, rfl⟩)
  rename_i hbudget
  obtain ⟨evidence, hanswer, hcomplete, hidentity, haccepts⟩ := hfail s.jobs _ patchPlan hmulti
  refine .inr (.inr ⟨hsandboxable, not_le.1 hbudget, ?_⟩)
  simp only [hanswer]
  unfold verifyBundle
  rw [hcomplete, if_neg Bool.true_eq_false.mp, if_neg (not_not.2 hidentity), haccepts]
  refine ⟨_, ?_, rfl⟩
  refine ⟨rfl, rfl, rfl, rfl, ?_⟩
  intro c hc
  rcases mem_append.1 hc with hc | hc
  · exact .inl hc
  · rw [mem_singleton.1 hc, length_sortedIds]
    exact .inr rfl

/-- A round with no candidate makes no call. -/
theorem round_empty (retries : RetryRule)
    (hsolve : env.solve (2 * s.capsTried.length) s.graph s.selectionCap = .ok bundle)
    (hempty : selectedOf input.candidates bundle = []) :
    ∃ run, coordinationRound env input retries n s = .done run ∧ run.calls = s.calls := by
  unfold coordinationRound
  simp only [hsolve, if_pos hempty]
  exact ⟨_, rfl, rfl⟩

/-- No bundle of one candidate was handed to the sandbox so far. -/
def NoSingleton (calls : List (List String)) : Prop := ∀ call ∈ calls, call.length ≠ 1

theorem NoSingleton.not_sandboxes {run : CoordinationRun} (h : NoSingleton s.calls)
    (hcalls : run.calls = s.calls) : ¬ run.SandboxesSingleton := by
  rintro ⟨call, hcall, hlength⟩
  rw [hcalls] at hcall
  exact h call hcall hlength

theorem NoSingleton.failed (h : NoSingleton s.calls) {spent : ℕ} (hmulti : 2 ≤ selected.length)
    (hfailed : BundleFailed s t selected spent) : NoSingleton t.calls := by
  intro call hcall
  rcases hfailed.calls call hcall with hcall | hlength
  · exact h call hcall
  · omega

/-! ## The graph as the solver sees it -/

/-- Under the cap, `graph` has the no-goods of `graph₀`. -/
def FitsLike (graph₀ : CandidateGraph) (cap : ℤ) (graph : CandidateGraph) : Prop :=
  graph = { graph₀ with noGoodCandidateSets := graph.noGoodCandidateSets } ∧
    fittingNoGoods cap graph.noGoodCandidateSets = fittingNoGoods cap graph₀.noGoodCandidateSets

variable {graph₀ graph graph' : CandidateGraph} {cap cap' : ℤ}

theorem FitsLike.solve (hsolver : ExactSolver env input) (h : FitsLike graph₀ cap graph)
    (h' : FitsLike graph₀ cap graph') (n n' : ℕ) : env.solve n graph cap = env.solve n' graph' cap := by
  rw [h.1, h'.1]
  exact hsolver.fits n n' graph₀ _ _ cap (h.2.trans h'.2.symm)

theorem FitsLike.refl : FitsLike graph₀ cap graph₀ := ⟨rfl, rfl⟩

theorem FitsLike.trans {graph'' : CandidateGraph} (h : FitsLike graph cap graph')
    (h' : FitsLike graph' cap graph'') : FitsLike graph cap graph'' := by
  refine ⟨?_, h'.2.trans h.2⟩
  rw [h'.1, h.1]

theorem fittingNoGoods_of_le (hle : cap' ≤ cap) (noGoods : List (List String)) :
    fittingNoGoods cap' (fittingNoGoods cap noGoods) = fittingNoGoods cap' noGoods := by
  rw [fittingNoGoods, fittingNoGoods, filter_filter, fittingNoGoods]
  refine filter_congr fun noGood _ => ?_
  rw [← Bool.decide_and, decide_eq_decide]
  exact ⟨fun h => h.1, fun h => ⟨h, h.trans hle⟩⟩

theorem FitsLike.lower (h : FitsLike graph₀ cap graph) (hle : cap' ≤ cap) :
    FitsLike graph₀ cap' graph := by
  refine ⟨h.1, ?_⟩
  rw [← fittingNoGoods_of_le hle, h.2, fittingNoGoods_of_le hle]

/-- Recording a bundle that is larger than the cap changes nothing. -/
theorem FitsLike.record (h : FitsLike graph₀ cap graph) {noGood : List String}
    (hlarge : cap < noGood.toFinset.card) :
    FitsLike graph₀ cap { graph with
      noGoodCandidateSets := graph.noGoodCandidateSets ++ [noGood] } := by
  refine ⟨?_, ?_⟩
  · show CandidateGraph.mk _ _ _ = _
    rw [h.1]
  · show fittingNoGoods cap (graph.noGoodCandidateSets ++ [noGood]) = _
    rw [← h.2, fittingNoGoods, filter_append, fittingNoGoods]
    rw [filter_cons_of_neg (by rw [decide_eq_true_eq]; omega), filter_nil, append_nil]

/-- The graph after a bundle of the solver failed, below the size of the bundle. -/
theorem FitsLike.failed (hsolver : ExactSolver env input) (h : FitsLike graph₀ s.selectionCap s.graph)
    (hsolve : env.solve n s.graph s.selectionCap = .ok bundle)
    (hcap : ((selectedOf input.candidates bundle).length : ℤ) ≤ s.selectionCap)
    {spent : ℕ} (hfailed : BundleFailed s t (selectedOf input.candidates bundle) spent) :
    FitsLike graph₀ ((selectedOf input.candidates bundle).length - 1) t.graph := by
  rw [hfailed.graph]
  refine (h.lower (by omega)).record ?_
  rw [toFinset_card_of_nodup (hsolver.distinct _ _ _ _ hsolve), length_sortedIds]
  omega

/-- A bundle with candidates is within the cap, which is therefore positive. -/
theorem ExactSolver.length_le (hsolver : ExactSolver env input)
    (hsolve : env.solve n graph cap = .ok bundle)
    (hsome : 1 ≤ (selectedOf input.candidates bundle).length) :
    ((selectedOf input.candidates bundle).length : ℤ) ≤ cap := by
  have hle := hsolver.withinCap n graph cap bundle hsolve
  omega

/-! ## The plain backoff -/

/-- The rule of `plainBackoff`. -/
def neverRetries : RetryRule := fun _ _ _ => .ok false

theorem ignoresSingletons_never : IgnoresSingletons neverRetries := fun _ _ => rfl

/-- A plain round that ends with a singleton sandboxed selected that singleton. -/
theorem plain_done (hsolver : ExactSolver env input) (hfail : MultiCandidateBundlesFail env input)
    (hcalls : NoSingleton s.calls) {run : CoordinationRun}
    (hround : coordinationRound env input neverRetries n s = .done run)
    (hrun : run.SandboxesSingleton) :
    ∃ bundle, env.solve (2 * s.capsTried.length) s.graph s.selectionCap = .ok bundle ∧
      (selectedOf input.candidates bundle).length = 1 ∧ Sandboxable env input bundle ∧
      s.jobs < input.sandboxJobsRemaining := by
  obtain ⟨bundle, hsolve⟩ := hsolver.total (2 * s.capsTried.length) s.graph s.selectionCap
  refine ⟨bundle, hsolve, ?_⟩
  have hnot : ∀ run', coordinationRound env input neverRetries n s = .done run' →
      run'.calls = s.calls → False := by
    intro run' hround' hcalls'
    rw [hround] at hround'
    obtain rfl := Round.done.inj hround'
    exact hcalls.not_sandboxes hcalls' hrun
  rcases Nat.lt_or_ge (selectedOf input.candidates bundle).length 2 with hfew | hmulti
  · rcases Nat.lt_or_ge (selectedOf input.candidates bundle).length 1 with hnone | hone
    · have hempty : selectedOf input.candidates bundle = [] :=
        length_eq_zero_iff.1 (by omega)
      obtain ⟨run', hround', hcalls'⟩ := round_empty (n := n) neverRetries hsolve hempty
      exact (hnot run' hround' hcalls').elim
    · have hsingle : (selectedOf input.candidates bundle).length = 1 := by omega
      obtain ⟨run', hround', hcase⟩ :=
        round_single (n := n) ignoresSingletons_never hsolve hsingle
      rcases hcase with ⟨hsandboxable, hjobs, -⟩ | ⟨-, hcalls'⟩
      · exact ⟨hsingle, hsandboxable, hjobs⟩
      · exact (hnot run' hround' hcalls').elim
  · have hlength := hsolver.length_le hsolve (by omega)
    rcases round_multi (n := n) neverRetries hfail hsolve hmulti with
      ⟨-, t, hfailed, heq⟩ | ⟨-, -, run', hround', hcalls'⟩ | ⟨-, -, t, hfailed, heq⟩
    · rw [hround, backOff_multi hmulti (by rw [hfailed.cap]; exact hlength)] at heq
      cases heq
    · exact (hnot run' hround' hcalls').elim
    · rw [hround, decideRetry, neverRetries] at heq
      simp only at heq
      rw [backOff_multi hmulti (by rw [hfailed.cap]; exact hlength)] at heq
      cases heq

/-- A plain round that goes on selected several candidates, and lowers the cap below
their number. -/
theorem plain_next (hsolver : ExactSolver env input) (hfail : MultiCandidateBundlesFail env input)
    (hround : coordinationRound env input neverRetries n s = .next t) :
    ∃ bundle, env.solve (2 * s.capsTried.length) s.graph s.selectionCap = .ok bundle ∧
      2 ≤ (selectedOf input.candidates bundle).length ∧
      t.selectionCap = (selectedOf input.candidates bundle).length - 1 ∧
      (NoSingleton s.calls → NoSingleton t.calls) ∧
      FitsLike s.graph t.selectionCap t.graph ∧
      ((¬ Sandboxable env input bundle ∧ t.jobs = s.jobs) ∨
        (Sandboxable env input bundle ∧ s.jobs < input.sandboxJobsRemaining ∧
          t.jobs = s.jobs + 1)) := by
  obtain ⟨bundle, hsolve⟩ := hsolver.total (2 * s.capsTried.length) s.graph s.selectionCap
  refine ⟨bundle, hsolve, ?_⟩
  rcases Nat.lt_or_ge (selectedOf input.candidates bundle).length 2 with hfew | hmulti
  · rcases Nat.lt_or_ge (selectedOf input.candidates bundle).length 1 with hnone | hone
    · have hempty : selectedOf input.candidates bundle = [] :=
        length_eq_zero_iff.1 (by omega)
      obtain ⟨run', hround', -⟩ := round_empty (n := n) neverRetries hsolve hempty
      rw [hround] at hround'
      cases hround'
    · have hsingle : (selectedOf input.candidates bundle).length = 1 := by omega
      obtain ⟨run', hround', -⟩ := round_single (n := n) ignoresSingletons_never hsolve hsingle
      rw [hround] at hround'
      cases hround'
  refine ⟨hmulti, ?_⟩
  have hlength := hsolver.length_le hsolve (by omega)
  have hfits : ∀ spent u, BundleFailed s u (selectedOf input.candidates bundle) spent →
      FitsLike s.graph ((selectedOf input.candidates bundle).length - 1) u.graph :=
    fun _ _ hfailed => FitsLike.failed hsolver FitsLike.refl hsolve hlength hfailed
  have hsingletons : ∀ spent u, BundleFailed s u (selectedOf input.candidates bundle) spent →
      NoSingleton s.calls → NoSingleton u.calls :=
    fun _ _ hfailed h => h.failed hmulti hfailed
  rcases round_multi (n := n) neverRetries hfail hsolve hmulti with
    ⟨hnot, u, hfailed, heq⟩ | ⟨-, -, run', hround', -⟩ | ⟨hsandboxable, hjobs, u, hfailed, heq⟩
  · rw [hround, backOff_multi hmulti (by rw [hfailed.cap]; exact hlength)] at heq
    obtain rfl := Round.next.inj heq
    exact ⟨rfl, hsingletons _ u hfailed, hfits _ u hfailed, .inl ⟨hnot, hfailed.jobs⟩⟩
  · rw [hround] at hround'
    cases hround'
  · rw [hround, decideRetry, neverRetries] at heq
    simp only at heq
    rw [backOff_multi hmulti (by rw [hfailed.cap]; exact hlength)] at heq
    obtain rfl := Round.next.inj heq
    exact ⟨rfl, hsingletons _ u hfailed, hfits _ u hfailed, .inr ⟨hsandboxable, hjobs, hfailed.jobs⟩⟩

/-! ## The loop with retries -/

/-- What a retry needs. -/
theorem alternateSameCardinality_cases (hsolver : ExactSolver env input) (s : CoordinationState)
    (cardinality roundsRemaining : ℕ) :
    alternateSameCardinality env input s cardinality roundsRemaining = .ok false ∨
    (alternateSameCardinality env input s cardinality roundsRemaining = .ok true ∧
      cardinality ≤ roundsRemaining ∧ s.jobs < input.sandboxJobsRemaining ∧
      ∃ alternate, env.solve (2 * s.capsTried.length + 1) s.graph cardinality = .ok alternate ∧
        (selectedOf input.candidates alternate).length = cardinality) := by
  unfold alternateSameCardinality
  split
  · rename_i hspare
    obtain ⟨alternate, hsolve⟩ := hsolver.total (2 * s.capsTried.length + 1) s.graph cardinality
    rw [hsolve]
    by_cases hlength : (selectedOf input.candidates alternate).length = cardinality
    · refine .inr ⟨?_, hspare.2.2.1, hspare.2.2.2, alternate, rfl, hlength⟩
      show Except.ok (decide _) = _
      rw [decide_eq_true hlength]
    · refine .inl ?_
      show Except.ok (decide _) = _
      rw [decide_eq_false hlength]
  · exact .inl rfl

/-- A cardinality is retried once. -/
theorem alternateSameCardinality_retried {cardinality roundsRemaining : ℕ}
    (h : cardinality ∈ s.sameCardinalityRetried) :
    alternateSameCardinality env input s cardinality roundsRemaining = .ok false := by
  rw [alternateSameCardinality, if_neg]
  exact fun hspare => hspare.2.1 h

/-- The second round of a retried cardinality lowers the cap. -/
theorem retried_round (hsolver : ExactSolver env input)
    (hfail : MultiCandidateBundlesFail env input)
    (hretried : (selectedOf input.candidates bundle).length ∈ s.sameCardinalityRetried)
    (hsolve : env.solve (2 * s.capsTried.length) s.graph s.selectionCap = .ok bundle)
    (hmulti : 2 ≤ (selectedOf input.candidates bundle).length)
    (hjobs : s.jobs < input.sandboxJobsRemaining) :
    ∃ t, coordinationRound env input (alternateSameCardinality env input) n s = .next t ∧
      t.selectionCap = (selectedOf input.candidates bundle).length - 1 ∧
      FitsLike s.graph t.selectionCap t.graph ∧ t.jobs ≤ s.jobs + 1 := by
  have hlength := hsolver.length_le hsolve (by omega)
  have hfits : ∀ spent u, BundleFailed s u (selectedOf input.candidates bundle) spent →
      FitsLike s.graph ((selectedOf input.candidates bundle).length - 1) u.graph :=
    fun _ _ hfailed => FitsLike.failed hsolver FitsLike.refl hsolve hlength hfailed
  rcases round_multi (n := n) (alternateSameCardinality env input) hfail hsolve hmulti
    with ⟨-, u, hfailed, heq⟩ | ⟨-, hspent, -⟩ | ⟨-, -, u, hfailed, heq⟩
  · rw [backOff_multi hmulti (by rw [hfailed.cap]; exact hlength)] at heq
    refine ⟨_, heq, rfl, hfits _ u hfailed, ?_⟩
    exact hfailed.jobs.le.trans (Nat.le_succ _)
  · omega
  · rw [← hfailed.retried] at hretried
    rw [decideRetry, alternateSameCardinality_retried hretried] at heq
    simp only at heq
    rw [backOff_multi hmulti (by rw [hfailed.cap]; exact hlength)] at heq
    exact ⟨_, heq, rfl, hfits _ u hfailed, hfailed.jobs.le⟩

/-- **One size of bundle**: the loop leaves it after one round, or after two rounds
that a retry's condition paid for. -/
theorem leaves_cardinality (hsolver : ExactSolver env input)
    (hfail : MultiCandidateBundlesFail env input)
    (hsolve : env.solve (2 * s.capsTried.length) s.graph s.selectionCap = .ok bundle)
    (hmulti : 2 ≤ (selectedOf input.candidates bundle).length)
    (hjobs : Sandboxable env input bundle → s.jobs < input.sandboxJobsRemaining) :
    ∃ m t, loop (coordinationRound env input (alternateSameCardinality env input))
          CoordinationState.noSafeBundle (n + 1) s =
        loop (coordinationRound env input (alternateSameCardinality env input))
          CoordinationState.noSafeBundle m t ∧
      t.selectionCap = (selectedOf input.candidates bundle).length - 1 ∧
      FitsLike s.graph t.selectionCap t.graph ∧
      ((m = n ∧ ¬ Sandboxable env input bundle ∧ t.jobs = s.jobs) ∨
        (m = n ∧ Sandboxable env input bundle ∧ t.jobs = s.jobs + 1) ∨
        (m + 1 = n ∧ (selectedOf input.candidates bundle).length ≤ n ∧
          (s.jobs + 1 : ℤ) < input.sandboxJobsRemaining ∧ t.jobs ≤ s.jobs + 2)) := by
  have hlength := hsolver.length_le hsolve (by omega)
  have hfits : ∀ spent u, BundleFailed s u (selectedOf input.candidates bundle) spent →
      FitsLike s.graph ((selectedOf input.candidates bundle).length - 1) u.graph :=
    fun _ _ hfailed => FitsLike.failed hsolver FitsLike.refl hsolve hlength hfailed
  rcases round_multi (n := n) (alternateSameCardinality env input) hfail hsolve hmulti
    with ⟨hnot, u, hfailed, heq⟩ | ⟨hsandboxable, hspent, -⟩ | ⟨hsandboxable, -, u, hfailed, heq⟩
  · rw [backOff_multi hmulti (by rw [hfailed.cap]; exact hlength)] at heq
    exact ⟨n, _, loop_next heq, rfl, hfits _ u hfailed, .inl ⟨rfl, hnot, hfailed.jobs⟩⟩
  · have hleft := hjobs hsandboxable
    omega
  rcases alternateSameCardinality_cases hsolver u (selectedOf input.candidates bundle).length n with
    hkeep | ⟨hretry, hrounds, hspare, alternate, halternate, hsame⟩
  · rw [decideRetry, hkeep] at heq
    simp only at heq
    rw [backOff_multi hmulti (by rw [hfailed.cap]; exact hlength)] at heq
    exact ⟨n, _, loop_next heq, rfl, hfits _ u hfailed, .inr (.inl ⟨rfl, hsandboxable, hfailed.jobs⟩)⟩
  · rw [decideRetry, hretry] at heq
    simp only at heq
    let v : CoordinationState := { u with
      sameCardinalityRetried :=
        u.sameCardinalityRetried ++ [(selectedOf input.candidates bundle).length]
      selectionCap := (selectedOf input.candidates bundle).length }
    -- The round after the retry selects what the preview selected.
    have hpreview : env.solve (2 * v.capsTried.length) v.graph v.selectionCap = .ok alternate := by
      rw [← halternate]
      exact FitsLike.solve hsolver FitsLike.refl FitsLike.refl _ _
    obtain ⟨m, rfl⟩ : ∃ m, n = m + 1 := ⟨n - 1, by omega⟩
    have hvjobs : v.jobs = s.jobs + 1 := hfailed.jobs
    obtain ⟨t, hsecond, htcap, htfits, htjobs⟩ := retried_round (n := m) (s := v) hsolver hfail
      (by rw [hsame]; exact mem_append_right _ (mem_singleton_self _)) hpreview
      (by omega) hspare
    refine ⟨m, t, (loop_next heq).trans (loop_next hsecond), by rw [htcap, hsame], ?_, ?_⟩
    · have hufits := hfits _ u hfailed
      rw [htcap, hsame] at htfits ⊢
      exact hufits.trans htfits
    · refine .inr (.inr ⟨rfl, hrounds, ?_, by omega⟩)
      have hujobs := hfailed.jobs
      omega

/-! ## The simulation -/

/-- The state `s` of the plain backoff with `n` rounds left, and the state `t` of the
loop with `m` rounds left, both about to leave the sizes above one cap. -/
structure Matches (input : CoordinationInput) (graph₀ : CandidateGraph) (n : ℕ)
    (s : CoordinationState) (m : ℕ) (t : CoordinationState) : Prop where
  cap : t.selectionCap = s.selectionCap
  calls : NoSingleton s.calls
  plain : FitsLike graph₀ s.selectionCap s.graph
  actual : FitsLike graph₀ s.selectionCap t.graph
  rounds : n ≤ m ∨ s.selectionCap ≤ m
  jobs : (t.jobs + m : ℤ) ≤ input.sandboxJobsRemaining ∨
    (t.jobs + 2 * s.selectionCap : ℤ) ≤ input.sandboxJobsRemaining + 1 ∨
    (input.sandboxJobsRemaining ≤ 1 ∧ t.jobs = s.jobs)

/-- Where the plain backoff has a round and a job left for a bundle, so has the loop. -/
theorem Matches.budgets {m : ℕ} (h : Matches input graph₀ (n + 1) s m t)
    (hcap : 1 ≤ s.selectionCap) :
    1 ≤ m ∧ (s.jobs < input.sandboxJobsRemaining → t.jobs < input.sandboxJobsRemaining) := by
  have hrounds : 1 ≤ m := by
    rcases h.rounds with hle | hle <;> omega
  refine ⟨hrounds, fun hjobs => ?_⟩
  rcases h.jobs with hle | hle | ⟨-, heq⟩
  · omega
  · omega
  · rwa [heq]

/-- The plain backoff and the loop select the same bundle. -/
theorem Matches.solve {m : ℕ} (hsolver : ExactSolver env input) (h : Matches input graph₀ n s m t)
    (i j : ℕ) : env.solve i t.graph t.selectionCap = env.solve j s.graph s.selectionCap := by
  rw [h.cap]
  exact FitsLike.solve hsolver h.actual h.plain i j

/-- At the start, where the budgets cover the retries. -/
theorem matches_start (hcovers : CoversRetries input.jointSandboxMaxRounds
      input.sandboxJobsRemaining input.selectionCap) :
    Matches input graph₀ input.jointSandboxMaxRounds
      { graph := graph₀, selectionCap := input.selectionCap } input.jointSandboxMaxRounds
      { graph := graph₀, selectionCap := input.selectionCap } := by
  refine ⟨rfl, fun _ hcall => absurd hcall not_mem_nil, FitsLike.refl, FitsLike.refl,
    .inl le_rfl, ?_⟩
  rcases hcovers with hle | hle | hle
  · exact .inr (.inr ⟨hle, rfl⟩)
  · refine .inl ?_
    show ((0 : ℕ) + input.jointSandboxMaxRounds : ℤ) ≤ _
    omega
  · refine .inr (.inl ?_)
    show ((0 : ℕ) + 2 * input.selectionCap : ℤ) ≤ _
    omega

/-- Where the plain backoff sandboxes its singleton in a round, so does the loop. -/
theorem Matches.done {m : ℕ} (h : Matches input graph₀ (n + 1) s m t)
    (hsolver : ExactSolver env input) (hfail : MultiCandidateBundlesFail env input)
    {run : CoordinationRun} (hround : coordinationRound env input neverRetries n s = .done run)
    (hrun : run.SandboxesSingleton) :
    (loop (coordinationRound env input (alternateSameCardinality env input))
      CoordinationState.noSafeBundle m t).SandboxesSingleton := by
  obtain ⟨bundle, hsolve, hsingle, hsandboxable, hjobs⟩ :=
    plain_done hsolver hfail h.calls hround hrun
  have hcap := hsolver.length_le hsolve hsingle.ge
  obtain ⟨hm, hleft⟩ := h.budgets (by omega)
  obtain ⟨m, rfl⟩ : ∃ k, m = k + 1 := ⟨m - 1, by omega⟩
  have hsolve' := (h.solve hsolver (2 * t.capsTried.length) _).trans hsolve
  obtain ⟨run', hround', hcase⟩ :=
    round_single (n := m) (ignoresSingletons_alternate env input) hsolve' hsingle
  rw [loop_done hround']
  rcases hcase with ⟨-, -, hcalls⟩ | ⟨hnot, -⟩
  · refine ⟨sortedIds (selectedOf input.candidates bundle), ?_, ?_⟩
    · rw [hcalls]
      exact mem_append_right _ (mem_singleton_self _)
    · rw [length_sortedIds, hsingle]
  · exact absurd ⟨hsandboxable, hleft hjobs⟩ hnot

/-- Where the plain backoff leaves a size of several candidates, the loop leaves it in one round
or two. -/
theorem Matches.next {m : ℕ} {s' : CoordinationState} (h : Matches input graph₀ (n + 1) s m t)
    (hsolver : ExactSolver env input) (hfail : MultiCandidateBundlesFail env input)
    (hround : coordinationRound env input neverRetries n s = .next s') :
    ∃ m' t', Matches input graph₀ n s' m' t' ∧
      loop (coordinationRound env input (alternateSameCardinality env input))
          CoordinationState.noSafeBundle m t =
        loop (coordinationRound env input (alternateSameCardinality env input))
          CoordinationState.noSafeBundle m' t' := by
  obtain ⟨bundle, hsolve, hmulti, hcap', hcalls', hfits', hspent⟩ :=
    plain_next hsolver hfail hround
  have hcap := hsolver.length_le hsolve (by omega)
  obtain ⟨hm, hleft⟩ := h.budgets (by omega)
  obtain ⟨m, rfl⟩ : ∃ k, m = k + 1 := ⟨m - 1, by omega⟩
  have hsolve' := (h.solve hsolver (2 * t.capsTried.length) _).trans hsolve
  have hjobs : Sandboxable env input bundle → t.jobs < input.sandboxJobsRemaining := by
    intro hsandboxable
    rcases hspent with ⟨hnot, -⟩ | ⟨-, hjobs, -⟩
    · exact absurd hsandboxable hnot
    · exact hleft hjobs
  obtain ⟨m', t', hloop, htcap, htfits, hcase⟩ :=
    leaves_cardinality (n := m) hsolver hfail hsolve' hmulti hjobs
  refine ⟨m', t', ⟨htcap.trans hcap'.symm, hcalls' h.calls, ?_, ?_, ?_, ?_⟩, hloop⟩
  · exact (h.plain.lower (by omega)).trans hfits'
  · rw [hcap', ← htcap]
    exact (h.actual.lower (by omega)).trans htfits
  · have hrounds := h.rounds
    rcases hcase with ⟨rfl, -, -⟩ | ⟨rfl, -, -⟩ | ⟨rfl, hreserved, -, -⟩ <;> omega
  · have hbudget := h.jobs
    rcases hcase with ⟨rfl, hnot, ht⟩ | ⟨rfl, hyes, ht⟩ | ⟨rfl, hreserved, hspare, ht⟩
    · rcases hspent with ⟨-, hs⟩ | ⟨hyes, -, -⟩
      · omega
      · exact absurd hyes hnot
    · rcases hspent with ⟨hnot, -⟩ | ⟨-, -, hs⟩
      · exact absurd hyes hnot
      · omega
    · omega

/-- **The fallback is preserved** where the budgets cover the retries. -/
theorem sandboxesSingleton_of_plain (hsolver : ExactSolver env input)
    (hfail : MultiCandidateBundlesFail env input)
    (hcovers : CoversRetries input.jointSandboxMaxRounds input.sandboxJobsRemaining
      input.selectionCap)
    (hplain : (plainBackoff env input).SandboxesSingleton) :
    (coordinateActiveWindow env input).SandboxesSingleton := by
  unfold plainBackoff coordinateWith at hplain
  unfold coordinateActiveWindow coordinateWith
  split at hplain
  · obtain ⟨call, hcall, -⟩ := hplain
    exact absurd hcall not_mem_nil
  rename_i graph₀ hgraph
  simp only at hplain ⊢
  split at hplain
  · obtain ⟨call, hcall, -⟩ := hplain
    exact absurd hcall not_mem_nil
  rename_i hrounds
  rw [if_neg hrounds]
  exact loop_mono (Matches input graph₀) CoordinationRun.SandboxesSingleton
    (fun s _ _ h => h.calls.not_sandboxes rfl)
    (fun n s m t run h hround hrun => h.done hsolver hfail hround hrun)
    (fun n s m t s' h hround _ => h.next hsolver hfail hround)
    (matches_start hcovers) hplain

end Round

end DRCAgent
