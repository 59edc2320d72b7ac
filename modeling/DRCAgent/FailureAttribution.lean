/-
# Attributing a failed transaction to its candidates

`FailureAttributor.attribute` of `coordinator/batching.py`.

A failure of a single candidate is that candidate's. With delta debugging on and a
replay function at hand, a longer list is bisected under the replay budget.

The hash of the attribution is a parameter. The replay function may keep a state of
its own, so it is told what was replayed before.

Main results:
* `attributeFailure_sound`: the budget, the reproduced set and the claim of causality
* `attributeFailure_isolates`: a single culprit is isolated by two replays for each halving
-/
import DRCAgent.BudgetedBisection
import DRCAgent.WindowCoordination

namespace DRCAgent

open BudgetedBisection

/-! ## The attributor -/

inductive AttributionQuality
  | directCandidate
  | directSmallBundle
  | deltaDebugged
  | bundleOnly
  | unknown
  deriving DecidableEq

structure AttributionResult where
  attributionId : String
  transactionId : String
  quality : AttributionQuality
  candidateIds : List String
  removedOriginalViolationIds : List String := []
  newViolationIds : List String := []
  reproducedCandidateIds : List String := []
  replayCount : ℕ := 0
  claimsCandidateCausality : Bool := false

/-- `AttributionConfig`. -/
structure AttributionConfig where
  enabled : Bool := true
  deltaDebugEnabled : Bool := false
  maxReplaysPerFailure : ℕ := 4

/-- A candidate with the source anchors of its edits. -/
structure AttributedCandidate extends WindowCandidate where
  /-- `edit.source_anchor_ids`, edit by edit. -/
  editAnchorIds : List (List String) := []

/-- `_source_disjoint`, after the anchors and objects seen so far. -/
def sourceDisjoint : Finset String → Finset String → List AttributedCandidate → Bool
  | _, _, [] => true
  | seenAnchors, seenObjects, candidate :: rest =>
    let anchors := candidate.editAnchorIds.flatten.toFinset
    let objects := candidate.modifiedObjectIds.toFinset
    if (seenAnchors ∩ anchors).Nonempty ∨ (seenObjects ∩ objects).Nonempty then false
    else sourceDisjoint (seenAnchors ∪ anchors) (seenObjects ∪ objects) rest

/-- What a replay of candidate ids answers after the replays so far: whether it failed. -/
abbrev ReplaySubset := List (List String × Bool) → List String → Bool

/-- What an attribution promises. -/
structure SoundAttribution (config : AttributionConfig) (replaySubset : Option ReplaySubset)
    (result : AttributionResult) : Prop where
  /-- The replays performed are within the budget, and what they reproduced failed. -/
  replays : ∃ history : List (List String × Bool),
    result.replayCount = history.length ∧ history.length ≤ config.maxReplaysPerFailure ∧
    (replaySubset = none → history = []) ∧
    (∀ replay, replaySubset = some replay → Recorded replay history) ∧
    (result.reproducedCandidateIds ≠ [] → result.reproducedCandidateIds <:+: result.candidateIds ∧
      result.reproducedCandidateIds.length < result.candidateIds.length ∧
      (result.reproducedCandidateIds, true) ∈ history)
  causality : result.claimsCandidateCausality = true →
    ∃ candidate, result.candidateIds = [candidate] ∨ result.reproducedCandidateIds = [candidate]
  /-- A single culprit is isolated when the bisection may run and the budget lasts. -/
  isolates : config.enabled = true → config.deltaDebugEnabled = true →
    ∀ replay culprit, replaySubset = some replay → culprit ∈ result.candidateIds →
    Culprit replay result.candidateIds culprit →
    2 * Nat.clog 2 result.candidateIds.length ≤ config.maxReplaysPerFailure →
    result.claimsCandidateCausality = true ∧
      (result.candidateIds = [culprit] ∨ result.reproducedCandidateIds = [culprit])

section Attribute

variable (attributionHash : String × List String × AttributionQuality → String)
  (transactionId : String) (candidates : List AttributedCandidate)
  (verification : VerificationResult) (config : AttributionConfig)
  (replaySubset : Option ReplaySubset)

/-- `sorted(candidate.candidate_id for candidate in candidates)`. -/
def attributedIds : List String :=
  (candidates.map (·.candidateId)).insertionSort (· ≤ ·)

/-- The quality before any replay. -/
def directQuality : AttributionQuality :=
  if (attributedIds candidates).length = 1 then .directCandidate
  else if attributedIds candidates ≠ [] ∧ sourceDisjoint ∅ ∅ candidates = true then
    .directSmallBundle
  else if attributedIds candidates ≠ [] then .bundleOnly
  else .unknown

/-- The end of the bisection, where there is one. -/
def replaySearch : Option (State String) :=
  match replaySubset with
  | none => none
  | some replay =>
    if config.enabled ∧ config.deltaDebugEnabled ∧ 1 < (attributedIds candidates).length then
      some (bisect replay config.maxReplaysPerFailure { current := attributedIds candidates })
    else none

/-- `current and len(current) < len(candidate_ids)`: the bisection got somewhere. -/
def narrowedIds : Option (List String) :=
  ((replaySearch candidates config replaySubset).map (·.current)).filter fun current =>
    !current.isEmpty && current.length < (attributedIds candidates).length

/-- `FailureAttributor.attribute`. -/
def attributeFailure : AttributionResult :=
  let candidateIds := attributedIds candidates
  let narrowed := narrowedIds candidates config replaySubset
  let quality := if narrowed.isSome then .deltaDebugged else directQuality candidates
  let causal : Bool := match narrowed with
    | some current => current.length = 1
    | none => candidateIds.length = 1
  { attributionId := "attribution_" ++ attributionHash (transactionId, candidateIds, quality)
    transactionId := transactionId
    quality := quality
    candidateIds := candidateIds
    removedOriginalViolationIds :=
      if causal then verification.removedOriginalViolationIds else []
    newViolationIds := if causal then verification.newViolationIds else []
    reproducedCandidateIds := narrowed.getD []
    replayCount := ((replaySearch candidates config replaySubset).map (·.replays.length)).getD 0
    claimsCandidateCausality := causal }

/-! ## The budget, the reproduced set and causality -/

variable {candidates config replaySubset}

theorem narrowedIds_eq_some {current : List String}
    (h : narrowedIds candidates config replaySubset = some current) :
    ∃ s, replaySearch candidates config replaySubset = some s ∧ s.current = current ∧
      current ≠ [] ∧ current.length < (attributedIds candidates).length := by
  obtain ⟨hmap, hguard⟩ := Option.filter_eq_some_iff.mp h
  obtain ⟨s, hs, rfl⟩ := Option.map_eq_some_iff.mp hmap
  rw [Bool.and_eq_true, Bool.not_eq_true', List.isEmpty_eq_false_iff, decide_eq_true_iff]
    at hguard
  exact ⟨s, hs, rfl, hguard.1, hguard.2⟩

theorem replaySearch_eq_some {s : State String}
    (h : replaySearch candidates config replaySubset = some s) :
    ∃ replay, replaySubset = some replay ∧
      s = bisect replay config.maxReplaysPerFailure { current := attributedIds candidates } := by
  cases replaySubset with
  | none => cases h
  | some replay =>
    rw [replaySearch] at h
    split at h
    · exact ⟨replay, rfl, (Option.some.inj h).symm⟩
    · cases h

variable (candidates config replaySubset) in
/-- The replays of an attribution: none, or those of a bisection. -/
theorem exists_history :
    ∃ history : List (List String × Bool),
      ((replaySearch candidates config replaySubset).map (·.replays.length)).getD 0 =
        history.length ∧
      history.length ≤ config.maxReplaysPerFailure ∧
      (replaySubset = none → history = []) ∧
      (∀ replay, replaySubset = some replay → Recorded replay history) ∧
      ∀ current, narrowedIds candidates config replaySubset = some current →
        current <:+: attributedIds candidates ∧ (current, true) ∈ history := by
  cases hsearch : replaySearch candidates config replaySubset with
  | none =>
    -- nothing was replayed, and nothing narrowed
    refine ⟨[], rfl, Nat.zero_le _, fun _ => rfl, fun replay _ => recorded_nil replay,
      fun current hcurrent => ?_⟩
    obtain ⟨s, hs, -⟩ := narrowedIds_eq_some hcurrent
    rw [hsearch] at hs
    cases hs
  | some s =>
    obtain ⟨replay, hreplay, hs⟩ := replaySearch_eq_some hsearch
    refine ⟨s.replays, rfl, ?_, fun hnone => ?_, fun replay' hreplay' => ?_,
      fun current hcurrent => ?_⟩
    · rw [hs]
      exact bisect_budget replay _ _ (Nat.zero_le _)
    · rw [hreplay] at hnone
      cases hnone
    · rw [hreplay] at hreplay'
      cases hreplay'
      rw [hs]
      exact (recorded_nil replay).bisect
    · obtain ⟨s', hs', rfl, -, hlength⟩ := narrowedIds_eq_some hcurrent
      rw [hsearch] at hs'
      cases hs'
      have hnarrowed := bisect_sound replay config.maxReplaysPerFailure
        (attributedIds candidates) { current := attributedIds candidates } (Or.inl rfl)
      rw [← hs] at hnarrowed
      rcases hnarrowed with hwhole | ⟨hpart, -, hmem⟩
      · -- the whole list is not shorter than itself
        rw [hwhole] at hlength
        omega
      · exact ⟨hpart, hmem⟩

/-- With delta debugging on, a single culprit among several candidates is what the
bisection is left with. -/
theorem narrowedIds_culprit {replay : ReplaySubset} {culprit : String}
    (hreplay : Culprit replay (attributedIds candidates) culprit)
    (hculprit : culprit ∈ attributedIds candidates) (henabled : config.enabled)
    (hdebug : config.deltaDebugEnabled) (hseveral : 1 < (attributedIds candidates).length)
    (hbudget : 2 * Nat.clog 2 (attributedIds candidates).length ≤ config.maxReplaysPerFailure) :
    narrowedIds candidates config (some replay) = some [culprit] := by
  have hsingle : (bisect replay config.maxReplaysPerFailure
      { current := attributedIds candidates }).current = [culprit] := by
    refine bisect_single hreplay _ (List.Sublist.refl _) hculprit ?_
    show 0 + 2 * Nat.clog 2 (attributedIds candidates).length ≤ config.maxReplaysPerFailure
    omega
  have hsearch : replaySearch candidates config (some replay) =
      some (bisect replay config.maxReplaysPerFailure { current := attributedIds candidates }) := by
    rw [replaySearch, if_pos ⟨henabled, hdebug, hseveral⟩]
  rw [narrowedIds, hsearch, Option.map_some, hsingle, Option.filter_some, if_pos]
  simpa using hseveral

variable (candidates config replaySubset)

/-- No more replays than the budget; a nonempty reproduced set is a contiguous proper part
of the candidate ids whose replay failed; causality is claimed for a single candidate only.
With delta debugging on, a single culprit is isolated by two replays for each halving. -/
theorem attributeFailure_sound :
    (attributeFailure attributionHash transactionId candidates verification config
      replaySubset).candidateIds = attributedIds candidates ∧
    SoundAttribution config replaySubset
      (attributeFailure attributionHash transactionId candidates verification config
        replaySubset) := by
  -- the replays, the claim of causality, and a single culprit
  refine ⟨rfl, ?_, fun hcausal => ?_,
    fun henabled hdebug replay culprit hreplay hmem hculprit hbudget => ?_⟩
  · obtain ⟨history, hcount, hlength, hnone, hrecorded, hnarrowed⟩ :=
      exists_history candidates config replaySubset
    refine ⟨history, hcount, hlength, hnone, hrecorded, fun hne => ?_⟩
    simp only [attributeFailure] at hne ⊢
    cases hcurrent : narrowedIds candidates config replaySubset with
    | none =>
      rw [hcurrent] at hne
      exact absurd rfl hne
    | some current =>
      obtain ⟨_, _, _, _, hshorter⟩ := narrowedIds_eq_some hcurrent
      exact ⟨(hnarrowed current hcurrent).1, hshorter, (hnarrowed current hcurrent).2⟩
  · simp only [attributeFailure] at hcausal ⊢
    cases hcurrent : narrowedIds candidates config replaySubset with
    | none =>
      rw [hcurrent] at hcausal
      obtain ⟨candidate, h⟩ := List.length_eq_one_iff.mp (of_decide_eq_true hcausal)
      exact ⟨candidate, Or.inl h⟩
    | some current =>
      rw [hcurrent] at hcausal
      obtain ⟨candidate, h⟩ := List.length_eq_one_iff.mp (of_decide_eq_true hcausal)
      exact ⟨candidate, Or.inr h⟩
  · subst hreplay
    replace hmem : culprit ∈ attributedIds candidates := hmem
    replace hculprit : Culprit replay (attributedIds candidates) culprit := hculprit
    replace hbudget : 2 * Nat.clog 2 (attributedIds candidates).length ≤
      config.maxReplaysPerFailure := hbudget
    by_cases hseveral : 1 < (attributedIds candidates).length
    · have hcurrent := narrowedIds_culprit hculprit hmem henabled hdebug hseveral hbudget
      simp only [attributeFailure, hcurrent]
      exact ⟨rfl, Or.inr rfl⟩
    · -- one candidate: its failure is its own, without a replay
      have hone : (attributedIds candidates).length = 1 := by
        have := List.length_pos_of_mem hmem
        omega
      obtain ⟨candidate, hsingle⟩ := List.length_eq_one_iff.mp hone
      have hnone : narrowedIds candidates config (some replay) = none := by
        rw [narrowedIds, replaySearch, if_neg (fun h => hseveral h.2.2)]
        rfl
      rw [hsingle] at hmem
      have hculpritOnly : attributedIds candidates = [culprit] := by
        rw [hsingle, List.mem_singleton.mp hmem]
      refine ⟨?_, Or.inl hculpritOnly⟩
      simp only [attributeFailure, hnone, hone, decide_true]

end Attribute

/-! ## Isolation needs delta debugging -/

/-- Two candidates of which the second is the culprit. -/
def suspectPair : List AttributedCandidate :=
  [{ candidateId := "a", isNoop := false }, { candidateId := "b", isNoop := false }]

/-- A replay that fails exactly with the candidate `b`. -/
def failsWithB : ReplaySubset := fun _ ids => decide ("b" ∈ ids)

/-- A verification of a failed transaction. -/
def pairVerification : VerificationResult where
  verificationId := "v"
  transactionId := "t"
  outcome := .newDrcIntroduced
  scriptValid := some true
  gdsSanityPass := some true
  connectivityPreserved := some true
  baselineResidualCount := 1
  residualViolationCount := some 1
  newViolationCount := some 1
  removedOriginalCount := some 0

theorem culprit_failsWithB : Culprit failsWithB (attributedIds suspectPair) "b" :=
  fun _ _ _ => decide_eq_true_iff

theorem attributeFailure_sound_pair :
    (attributeFailure (fun _ => "") "t" suspectPair pairVerification
        { deltaDebugEnabled := true } (some failsWithB)).claimsCandidateCausality = true := by
  have h := (attributeFailure_sound (fun _ => "") "t" suspectPair pairVerification
    { deltaDebugEnabled := true } (some failsWithB)).2.isolates rfl rfl failsWithB "b" rfl (by decide)
    culprit_failsWithB
  refine (h ?_).1
  show 2 * Nat.clog 2 2 ≤ 4
  rw [Nat.clog_eq_one le_rfl le_rfl]
  omega

/-- Delta debugging is off by default: the culprit `b` is not isolated, although the
budget covers the two replays. -/
theorem attributeFailure_default_not_isolated :
    Culprit failsWithB (attributedIds suspectPair) "b" ∧ "b" ∈ attributedIds suspectPair ∧
      2 * Nat.clog 2 (attributedIds suspectPair).length ≤
        ({} : AttributionConfig).maxReplaysPerFailure ∧
      (attributeFailure (fun _ => "") "t" suspectPair pairVerification {}
        (some failsWithB)).reproducedCandidateIds = [] ∧
      (attributeFailure (fun _ => "") "t" suspectPair pairVerification {}
        (some failsWithB)).claimsCandidateCausality = false := by
  refine ⟨culprit_failsWithB, by decide, ?_, by decide, by decide⟩
  show 2 * Nat.clog 2 2 ≤ 4
  rw [Nat.clog_eq_one le_rfl le_rfl]
  omega

end DRCAgent
