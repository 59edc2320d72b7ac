/-
# What a coordination may spend and what it may call safe

For every solver that never returns a recorded no-good, and every sandbox: a
coordination begins at most `joint_sandbox_max_rounds` rounds, calls the sandbox at
most `sandbox_jobs_remaining` times and never twice for one candidate set, and a
`SAFE` result is about the bundle selected in its last round.

Both parts are one invariant of the loop, `CallsKept`, and one property of its
result, `Sound`. Each function of a round has one lemma: from `CallsKept` before,
`CallsKept` or `Sound` after. The set under evaluation is pending until it is
recorded as a no-good.
-/
import Mathlib
import DRCAgent.WindowCoordination

namespace DRCAgent

open List Rounds

section Safety

variable {env : CoordinationEnv} {input : CoordinationInput}

/-- The solver never returns a bundle whose candidates, without the no-ops, are a
recorded no-good set. (No bundle without candidates is ever recorded.) -/
def AvoidsNoGoods (env : CoordinationEnv) (input : CoordinationInput) : Prop :=
  ∀ n graph cap bundle, env.solve n graph cap = .ok bundle →
    ∀ noGood ∈ graph.noGoodCandidateSets, noGood ≠ [] →
      noGood.toFinset ≠ (sortedIds (selectedOf input.candidates bundle)).toFinset

/-! ## A safe result -/

/-- The evidence at hand is the candidate's own, or the answer to the last call. -/
def Obtained (env : CoordinationEnv) (jobs : ℕ) (calls : List (List String))
    (selected : List WindowCandidate) (patchPlan : PatchPlan) (reused : Bool)
    (evidence : SandboxEvidence) : Prop :=
  (reused = true ∧ ∃ candidate, selected = [candidate] ∧ candidate.sandbox = some evidence) ∨
  (reused = false ∧ calls.getLast? = some (sortedIds selected) ∧
    env.sandbox (jobs - 1) selected patchPlan = .evidence evidence)

/-- What a `SAFE` result rests on: the bundle is the solver's answer in the last
round, the evidence is about it and shows clean progress, and it is the one master
batch. -/
def SafeResult (env : CoordinationEnv) (input : CoordinationInput) (run : CoordinationRun)
    (r : CoordinationResult) : Prop :=
  ∃ cap bundle patchPlan evidence removed batch,
    r.selectionCardinalityCapsTried.getLast? = some cap ∧
    env.solve (2 * (r.rounds - 1)) r.candidateGraph cap = .ok bundle ∧
    env.compile bundle input.candidates = .ok patchPlan ∧
    r.bundle.map (·.selectedCandidateIds) = some bundle.selectedCandidateIds ∧
    r.patchPlan = some patchPlan ∧ r.sandboxEvidence = some evidence ∧
    Obtained env r.sandboxJobsUsed run.calls (selectedOf input.candidates bundle) patchPlan
      r.evidenceReused evidence ∧
    env.hasCompletePhysicalTruth evidence = true ∧ evidence.status = .cleanProgress ∧
    evidence.newViolationCount = some 0 ∧
    evidence.removedOriginalCount = some removed ∧ 0 < removed ∧
    evidence.connectivityPreserved = some true ∧
    IdentityMatches input (selectedOf input.candidates bundle) patchPlan evidence ∧
    r.masterBatches = [batch] ∧
    batch.candidateIds.insertionSort (· ≤ ·) = sortedIds (selectedOf input.candidates bundle)

/-- A run within its two budgets, whose result is safe only as above. -/
structure CoordinationRun.Sound (env : CoordinationEnv) (input : CoordinationInput)
    (run : CoordinationRun) : Prop where
  begun : run.begun ≤ input.jointSandboxMaxRounds
  affordable : (run.calls.length : ℤ) ≤ input.sandboxJobsRemaining
  distinct : AvoidsNoGoods env input → (run.calls.map toFinset).Nodup
  reported : ∀ r, run.result = .ok r →
    r.rounds = run.begun ∧ r.sandboxJobsUsed ≤ run.calls.length
  safe : ∀ r, run.result = .ok r → r.status = "SAFE" → SafeResult env input run r

/-! ## The invariant of the loop -/

/-- Before the last `n` rounds, every set that was sandboxed is a no-good of the
graph, or pending. -/
structure CallsKept (env : CoordinationEnv) (input : CoordinationInput)
    (pending : List (List String)) (n : ℕ) (s : CoordinationState) : Prop where
  begun : s.capsTried.length + n = input.jointSandboxMaxRounds
  counted : s.calls.length = s.jobs
  affordable : (s.calls.length : ℤ) ≤ input.sandboxJobsRemaining
  recorded : ∀ c ∈ s.calls, c ∈ s.graph.noGoodCandidateSets ∨ c ∈ pending
  distinct : AvoidsNoGoods env input → (s.calls.map toFinset).Nodup

variable {pending : List (List String)} {n : ℕ} {s : CoordinationState}

theorem CallsKept.fail (h : CallsKept env input pending n s) (code : String) :
    CallsKept env input pending n (s.fail code) :=
  ⟨h.begun, h.counted, h.affordable, h.recorded, h.distinct⟩

/-- Recording the pending set closes the account. -/
theorem CallsKept.recordNoGood {selected : List WindowCandidate}
    (h : CallsKept env input [sortedIds selected] n s) :
    CallsKept env input [] n (s.recordNoGood selected) where
  begun := h.begun
  counted := h.counted
  affordable := h.affordable
  recorded := fun c hc => .inl (mem_append.2 (h.recorded c hc))
  distinct := h.distinct

/-- Nothing has to be pending. -/
theorem CallsKept.weaken (h : CallsKept env input [] n s) : CallsKept env input pending n s where
  begun := h.begun
  counted := h.counted
  affordable := h.affordable
  recorded := fun c hc => (h.recorded c hc).imp_right fun hnil => absurd hnil not_mem_nil
  distinct := h.distinct

/-- Ending the loop without a safe result. -/
theorem CallsKept.finish (h : CallsKept env input pending n s)
    {result : Except String CoordinationResult}
    (hreported : ∀ r, result = .ok r → r.rounds = s.capsTried.length ∧
      r.sandboxJobsUsed ≤ s.calls.length)
    (hstatus : ∀ r, result = .ok r → r.status ≠ "SAFE") :
    (s.finish result).Sound env input where
  begun := by
    have hbegun := h.begun
    show s.capsTried.length ≤ _
    omega
  affordable := h.affordable
  distinct := h.distinct
  reported := hreported
  safe := fun r hr hsafe => absurd hsafe (hstatus r hr)

/-- Ending the loop with an exception. -/
theorem CallsKept.raise (h : CallsKept env input pending n s) (e : String) :
    (s.finish (.error e)).Sound env input :=
  h.finish (fun _ hr => nomatch hr) (fun _ hr => nomatch hr)

/-- Ending the loop with one of the other two results. -/
theorem CallsKept.noResult (h : CallsKept env input pending n s) {status : String}
    (hstatus : status ≠ "SAFE") (bundle : Option JointRepairBundle)
    (evidence : Option SandboxEvidence) :
    (s.finish (.ok (s.result status bundle evidence))).Sound env input := by
  refine h.finish ?_ ?_
  · rintro r ⟨⟩
    exact ⟨rfl, h.counted.ge⟩
  · rintro r ⟨⟩
    exact hstatus

theorem CallsKept.noSafeBundle (h : CallsKept env input pending n s) :
    s.noSafeBundle.Sound env input :=
  h.noResult (by decide) none none

/-! ## One lemma for each function of a round -/

theorem holds_backOff (h : CallsKept env input [] n s) (cardinality : ℕ) :
    (s.backOff cardinality).Holds (CallsKept env input [] n) (·.Sound env input) := by
  unfold CoordinationState.backOff
  simp only
  split_ifs
  · exact h.noSafeBundle
  · exact ⟨h.begun, h.counted, h.affordable, h.recorded, h.distinct⟩

variable {retries : RetryRule} {bundle : JointRepairBundle} {selected : List WindowCandidate}
  {patchPlan : PatchPlan} {reused : Bool} {evidence : SandboxEvidence}

theorem holds_afterFailure (h : CallsKept env input [sortedIds selected] n s) :
    (afterFailure retries n s selected).Holds (CallsKept env input [] n) (·.Sound env input) := by
  have hrecorded := h.recordNoGood
  unfold afterFailure
  simp only
  split
  · exact hrecorded.raise _
  · exact ⟨hrecorded.begun, hrecorded.counted, hrecorded.affordable, hrecorded.recorded,
      hrecorded.distinct⟩
  · exact holds_backOff hrecorded _

/-- What accepted evidence says. -/
theorem acceptsEvidence_ok (h : acceptsEvidence env evidence = .ok true) :
    env.hasCompletePhysicalTruth evidence = true ∧ evidence.status = .cleanProgress ∧
      evidence.newViolationCount = some 0 ∧
      ∃ removed, evidence.removedOriginalCount = some removed ∧ 0 < removed ∧
        evidence.connectivityPreserved = some true := by
  unfold acceptsEvidence at h
  by_cases hclean : env.hasCompletePhysicalTruth evidence = true ∧ evidence.status = .cleanProgress
  swap
  · rw [if_neg hclean] at h
    cases h
  rw [if_pos hclean] at h
  split at h
  · cases h
  · rename_i removed hremoved
    simp only [Except.ok.injEq, Bool.and_eq_true, decide_eq_true_eq] at h
    exact ⟨hclean.1, hclean.2, h.1.2, removed, hremoved, h.1.1, h.2⟩

theorem holds_verifyBundle (h : CallsKept env input [sortedIds selected] n s)
    (hselected : selected = selectedOf input.candidates bundle)
    (hsolved : ∃ cap, s.capsTried.getLast? = some cap ∧
      env.solve (2 * (s.capsTried.length - 1)) s.graph cap = .ok bundle)
    (hcompiled : env.compile bundle input.candidates = .ok patchPlan)
    (hobtained : Obtained env s.jobs s.calls selected patchPlan reused evidence) :
    (verifyBundle env input retries n s bundle selected patchPlan reused evidence).Holds
      (CallsKept env input [] n) (·.Sound env input) := by
  unfold verifyBundle
  split
  · exact (h.fail _).noResult (by decide) none (some evidence)
  split
  · exact h.raise _
  rename_i hcomplete hidentity
  rw [not_not] at hidentity
  split
  · exact h.raise _
  · exact holds_afterFailure (h.fail _)
  rename_i haccepts
  simp only
  split
  · rename_i hbatches
    have hsound : s.noSafeBundle.Sound env input := h.noSafeBundle
    refine ⟨hsound.begun, hsound.affordable, hsound.distinct, ?_, ?_⟩
    · rintro r ⟨⟩
      exact ⟨rfl, h.counted.ge⟩
    · rintro r ⟨⟩ -
      obtain ⟨hclean, hstatus, hnew, removed, hremoved, hpos, hconnectivity⟩ :=
        acceptsEvidence_ok haccepts
      obtain ⟨batch, hbatch, hids⟩ := map_eq_singleton_iff.1 hbatches
      obtain ⟨cap, hcap, hsolve⟩ := hsolved
      subst hselected
      exact ⟨cap, bundle, patchPlan, evidence, removed, batch, hcap, hsolve, hcompiled, rfl, rfl,
        rfl, hobtained, hclean, hstatus, hnew, hremoved, hpos, hconnectivity, hidentity, hbatch,
        hids⟩
  · exact holds_afterFailure (h.fail _)

theorem reusesEvidence_iff :
    reusesEvidence env input selected patchPlan = true ↔
      ∃ candidate, selected = [candidate] ∧ input.reuseVerifiedKernelEvidence = true ∧
        exactIsolatedEvidenceMatches env input candidate patchPlan = true := by
  unfold reusesEvidence
  split
  · rename_i candidate
    rw [Bool.and_eq_true]
    constructor
    · rintro ⟨hreuse, hexact⟩
      exact ⟨candidate, rfl, hreuse, hexact⟩
    · rintro ⟨other, hother, hreuse, hexact⟩
      obtain rfl : candidate = other := singleton_inj.1 hother
      exact ⟨hreuse, hexact⟩
  · rename_i hmany
    constructor
    · exact fun hfalse => nomatch hfalse
    · rintro ⟨candidate, rfl, -⟩
      exact absurd rfl (hmany candidate)

/-- The account after one more call of the sandbox. -/
theorem CallsKept.called (h : CallsKept env input [] n s)
    (hfresh : AvoidsNoGoods env input → ∀ noGood ∈ s.graph.noGoodCandidateSets,
      noGood.toFinset ≠ (sortedIds selected).toFinset)
    (hbudget : ¬ input.sandboxJobsRemaining ≤ s.jobs) :
    CallsKept env input [sortedIds selected] n
      { s with calls := s.calls ++ [sortedIds selected], jobs := s.jobs + 1 } where
  begun := h.begun
  counted := by
    show (s.calls ++ [sortedIds selected]).length = s.jobs + 1
    rw [length_append, h.counted, length_singleton]
  affordable := by
    have hcounted := h.counted
    show ((s.calls ++ [sortedIds selected]).length : ℤ) ≤ _
    rw [length_append, length_singleton]
    omega
  recorded := by
    intro c hc
    rcases mem_append.1 hc with hc | hc
    · exact .inl ((h.recorded c hc).resolve_right not_mem_nil)
    · exact .inr hc
  distinct := by
    intro havoids
    show ((s.calls ++ [sortedIds selected]).map toFinset).Nodup
    rw [map_append, nodup_append]
    refine ⟨h.distinct havoids, nodup_singleton _, ?_⟩
    intro a ha b hb
    obtain ⟨c, hc, rfl⟩ := mem_map.1 ha
    obtain rfl := mem_singleton.1 hb
    exact hfresh havoids c ((h.recorded c hc).resolve_right not_mem_nil)

theorem holds_obtainEvidence (h : CallsKept env input [] n s)
    (hselected : selected = selectedOf input.candidates bundle)
    (hfresh : AvoidsNoGoods env input → ∀ noGood ∈ s.graph.noGoodCandidateSets,
      noGood.toFinset ≠ (sortedIds selected).toFinset)
    (hsolved : ∃ cap, s.capsTried.getLast? = some cap ∧
      env.solve (2 * (s.capsTried.length - 1)) s.graph cap = .ok bundle)
    (hcompiled : env.compile bundle input.candidates = .ok patchPlan) :
    (obtainEvidence env input retries n s bundle selected patchPlan).Holds
      (CallsKept env input [] n) (·.Sound env input) := by
  unfold obtainEvidence
  split
  · rename_i hreuse
    obtain ⟨candidate, rfl, -, hexact⟩ := reusesEvidence_iff.1 hreuse
    obtain ⟨evidence, hevidence⟩ : ∃ evidence, candidate.sandbox = some evidence := by
      rw [exactIsolatedEvidenceMatches, Option.any_eq_true] at hexact
      exact hexact.imp fun _ hsome => hsome.1
    refine holds_verifyBundle h.weaken hselected hsolved hcompiled ?_
    refine .inl ⟨rfl, candidate, rfl, ?_⟩
    simp [hevidence]
  split
  · exact (h.fail _).noSafeBundle
  rename_i hbudget
  have hcalled := h.called hfresh hbudget
  simp only
  split
  · exact hcalled.raise _
  · rename_i exceptionType _
    refine (hcalled.fail ("WINDOW_SANDBOX_INFRASTRUCTURE:" ++ exceptionType)).finish ?_ ?_
    · rintro r ⟨⟩
      exact ⟨rfl, (Nat.le_succ _).trans hcalled.counted.ge⟩
    · rintro r ⟨⟩
      show "NO_SAFE_BUNDLE" ≠ "SAFE"
      decide
  · rename_i hanswer
    refine holds_verifyBundle hcalled hselected hsolved hcompiled (.inr ⟨rfl, ?_, hanswer⟩)
    exact getLast?_concat

/-- A selected bundle is no recorded no-good, not even an empty one. -/
theorem AvoidsNoGoods.fresh (havoids : AvoidsNoGoods env input) {graph : CandidateGraph} {cap : ℤ}
    (hsolve : env.solve n graph cap = .ok bundle) (hsome : selectedOf input.candidates bundle ≠ []) :
    ∀ noGood ∈ graph.noGoodCandidateSets,
      noGood.toFinset ≠ (sortedIds (selectedOf input.candidates bundle)).toFinset := by
  intro noGood hnoGood
  by_cases hempty : noGood = []
  · rw [hempty, toFinset_nil]
    intro heq
    have hids : sortedIds (selectedOf input.candidates bundle) = [] :=
      toFinset_eq_empty_iff _ |>.1 heq.symm
    have hlength := congrArg List.length hids
    rw [sortedIds, length_insertionSort, length_map] at hlength
    exact hsome (length_eq_zero_iff.1 hlength)
  · exact havoids n graph cap bundle hsolve noGood hnoGood hempty

theorem holds_coordinationRound (h : CallsKept env input [] (n + 1) s) :
    (coordinationRound env input retries n s).Holds (CallsKept env input [] n)
      (·.Sound env input) := by
  have hbegun : CallsKept env input [] n { s with capsTried := s.capsTried ++ [s.selectionCap] } := by
    refine ⟨?_, h.counted, h.affordable, h.recorded, h.distinct⟩
    have hrounds := h.begun
    show (s.capsTried ++ [s.selectionCap]).length + n = _
    rw [length_append, length_singleton]
    omega
  unfold coordinationRound
  simp only
  split
  · exact hbegun.raise _
  rename_i bundle hsolve
  let selected := selectedOf input.candidates bundle
  have hcounts : CallsKept env input [] n { s with
      capsTried := s.capsTried ++ [s.selectionCap]
      selectedCounts := s.selectedCounts ++ [selected.length] } :=
    ⟨hbegun.begun, hbegun.counted, hbegun.affordable, hbegun.recorded, hbegun.distinct⟩
  split
  · exact hcounts.noResult (by decide) _ none
  rename_i hsome
  split
  · exact holds_backOff (hcounts.weaken.recordNoGood.fail _) _
  split
  · exact holds_backOff (hcounts.weaken.recordNoGood.fail _) _
  rename_i patchPlan hcompiled
  refine holds_obtainEvidence hcounts rfl (fun havoids => havoids.fresh hsolve hsome) ?_ hcompiled
  refine ⟨s.selectionCap, getLast?_concat, ?_⟩
  show env.solve (2 * ((s.capsTried ++ [s.selectionCap]).length - 1)) s.graph s.selectionCap = _
  rw [length_append, length_singleton, Nat.add_sub_cancel]
  exact hsolve

/-! ## The coordination -/

/-- Every rule for retries keeps the budgets. -/
theorem coordinateWith_sound (hbudget : 0 ≤ input.sandboxJobsRemaining) (retries : RetryRule) :
    (coordinateWith env input retries).Sound env input := by
  unfold coordinateWith
  split
  · exact ⟨Nat.zero_le _, hbudget, fun _ => nodup_nil, (fun _ hr => nomatch hr),
      (fun _ hr => nomatch hr)⟩
  rename_i graph hgraph
  have hstart : CallsKept env input [] input.jointSandboxMaxRounds
      { graph := graph, selectionCap := input.selectionCap } :=
    ⟨Nat.zero_add _, rfl, hbudget, fun _ hc => absurd hc not_mem_nil,
      fun _ => nodup_nil⟩
  simp only
  split
  · refine hstart.finish ?_ ?_
    · rintro r ⟨⟩
      exact ⟨rfl, le_rfl⟩
    · rintro r ⟨⟩
      show "NO_SAFE_BUNDLE" ≠ "SAFE"
      decide
  · exact loop_induct (CallsKept env input []) (CoordinationRun.Sound env input)
      (fun _ _ h => holds_coordinationRound h) (fun _ h => h.noSafeBundle) hstart

/-- **Safety of `coordinate_active_window`.** -/
theorem coordinateActiveWindow_safe (env : CoordinationEnv) (input : CoordinationInput)
    (havoids : AvoidsNoGoods env input) (hbudget : 0 ≤ input.sandboxJobsRemaining) :
    (coordinateActiveWindow env input).begun ≤ input.jointSandboxMaxRounds ∧
    ((coordinateActiveWindow env input).calls.length : ℤ) ≤ input.sandboxJobsRemaining ∧
    ((coordinateActiveWindow env input).calls.map toFinset).Nodup ∧
    ∀ r, (coordinateActiveWindow env input).result = .ok r →
      r.rounds = (coordinateActiveWindow env input).begun ∧
      (r.status = "SAFE" → SafeResult env input (coordinateActiveWindow env input) r) := by
  have hsound : (coordinateActiveWindow env input).Sound env input :=
    coordinateWith_sound hbudget (alternateSameCardinality env input)
  exact ⟨hsound.begun, hsound.affordable, hsound.distinct havoids,
    fun r hr => ⟨(hsound.reported r hr).1, hsound.safe r hr⟩⟩

/-! ## A window with a regression and a clean singleton -/

/-- A solver that prefers two candidates to one, for a sandbox in which only the
first candidate alone makes clean progress. -/
def sampleCoordinationEnv : CoordinationEnv where
  buildCandidateGraph candidates windowId := .ok { subgraphId := windowId, candidates := candidates }
  solve _ graph cap :=
    if 2 ≤ cap ∧ {"a", "b"} ∉ graph.noGoodCandidateSets.map toFinset then
      .ok { bundleId := "pair", selectedCandidateIds := ["a", "b"] }
    else if {"a"} ∉ graph.noGoodCandidateSets.map toFinset then
      .ok { bundleId := "single", selectedCandidateIds := ["a"] }
    else .error "INFEASIBLE"
  compile bundle _ := .ok { sha256 := bundle.bundleId }
  hasCompletePhysicalTruth _ := true
  physicalEffect _ := "effect"
  sandbox _ selected patchPlan := .evidence {
    status := if selected.length = 1 then .cleanProgress else .regression
    scope := expectedScope selected
    baseSnapshotId := some "snapshot"
    removedOriginalCount := some 1
    newViolationCount := some 0
    connectivityPreserved := some true
    candidateIds := sortedIds selected
    patchPlanSha256 := some patchPlan.sha256
    ruleDeckSha256 := some "deck"
    evaluatorSha256 := some "evaluator" }
  batchHash _ := "batch"

/-- Two candidates, and the default budgets. -/
def sampleCoordinationInput : CoordinationInput where
  windowId := "window"
  candidates := [{ candidateId := "a", isNoop := false }, { candidateId := "b", isNoop := false }]
  snapshot := {
    snapshotId := "snapshot"
    scriptRef := { path := ["script"], sha256 := "script", mediaType := "text", producer := "p" } }
  sandboxJobsRemaining := 3
  ruleDeckSha256 := "deck"
  evaluatorSha256 := "evaluator"

theorem sampleCoordinationEnv_avoids :
    AvoidsNoGoods sampleCoordinationEnv sampleCoordinationInput := by
  intro n graph cap bundle hsolve noGood hnoGood _ heq
  have hmem : noGood.toFinset ∈ graph.noGoodCandidateSets.map toFinset :=
    mem_map_of_mem hnoGood
  rw [heq] at hmem
  have hcases : (if 2 ≤ cap ∧ {"a", "b"} ∉ graph.noGoodCandidateSets.map toFinset then
      Except.ok { bundleId := "pair", selectedCandidateIds := ["a", "b"] }
    else if {"a"} ∉ graph.noGoodCandidateSets.map toFinset then
      .ok { bundleId := "single", selectedCandidateIds := ["a"] }
    else .error "INFEASIBLE" : Except String JointRepairBundle) = .ok bundle := hsolve
  by_cases hpair : 2 ≤ cap ∧ {"a", "b"} ∉ graph.noGoodCandidateSets.map toFinset
  · rw [if_pos hpair] at hcases
    obtain rfl := Except.ok.inj hcases
    have hset : (sortedIds (selectedOf sampleCoordinationInput.candidates
        { bundleId := "pair", selectedCandidateIds := ["a", "b"] })).toFinset = {"a", "b"} := by
      decide
    rw [hset] at hmem
    exact hpair.2 hmem
  rw [if_neg hpair] at hcases
  by_cases hsingle : {"a"} ∉ graph.noGoodCandidateSets.map toFinset
  · rw [if_pos hsingle] at hcases
    obtain rfl := Except.ok.inj hcases
    have hset : (sortedIds (selectedOf sampleCoordinationInput.candidates
        { bundleId := "single", selectedCandidateIds := ["a"] })).toFinset = {"a"} := by
      decide
    rw [hset] at hmem
    exact hsingle hmem
  · rw [if_neg hsingle] at hcases
    cases hcases

/-- The pair regresses, the singleton is safe. -/
theorem coordinateActiveWindow_safe_sample :
    ∃ r, (coordinateActiveWindow sampleCoordinationEnv sampleCoordinationInput).result = .ok r ∧
      (coordinateActiveWindow sampleCoordinationEnv sampleCoordinationInput).calls =
        [["a", "b"], ["a"]] ∧
      SafeResult sampleCoordinationEnv sampleCoordinationInput
        (coordinateActiveWindow sampleCoordinationEnv sampleCoordinationInput) r := by
  obtain ⟨r, hr, hcalls, hstatus⟩ : ∃ r,
      (coordinateActiveWindow sampleCoordinationEnv sampleCoordinationInput).result = .ok r ∧
      (coordinateActiveWindow sampleCoordinationEnv sampleCoordinationInput).calls =
        [["a", "b"], ["a"]] ∧ r.status = "SAFE" := ⟨_, by rfl, by rfl, by rfl⟩
  have hsafe := coordinateActiveWindow_safe sampleCoordinationEnv sampleCoordinationInput
    sampleCoordinationEnv_avoids (by decide)
  exact ⟨r, hr, hcalls, (hsafe.2.2.2 r hr).2 hstatus⟩

end Safety

end DRCAgent
