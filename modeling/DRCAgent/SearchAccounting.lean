/-
# What the search loop accounts for

Each visit of a violation leaves one candidate or a failure with the id of the violation, and
the revisions of a plan keep to their limit. A turn searches at most twice, and ends the
visit after its second search, unless the condensation that follows is given up: that is the
one way to a further proposal after a retry.

* `searchLoop_accounted`: the accounts of a run in which no such condensation is given up.
* `searchLoop_overdrawn`: a run that searches four times for two proposals.
-/
import DRCAgent.KernelSearch

namespace DRCAgent.KernelSearch

open List

variable {backend : Backend}

/-! ## What is added -/

/-- A failure of the violation is among the entries. -/
def Names (id : String) (failures : List Failure) : Prop :=
  ∃ failure ∈ failures, failure.violationId = some id

def Call.isSearch : Call → Bool
  | .searched _ _ => true
  | .revised _ _ | .condensed _ _ _ => false

/-- How many searches there are among the calls. -/
def searches (calls : List Call) : ℕ := calls.countP Call.isSearch

/-- How many revisions of a violation with a kind of feedback there are among the calls. -/
def revisions (id kind : String) (calls : List Call) : ℕ := calls.count (.revised id kind)

/-- A condensation after a retry was given up. -/
def GivesUpRetry (calls : List Call) : Prop := ∃ id, Call.condensed id true true ∈ calls

theorem searches_append (calls calls' : List Call) :
    searches (calls ++ calls') = searches calls + searches calls' :=
  countP_append

theorem revisions_append (id kind : String) (calls calls' : List Call) :
    revisions id kind (calls ++ calls') = revisions id kind calls + revisions id kind calls' :=
  count_append

theorem revisions_eq_zero {id kind : String} {calls : List Call}
    (h : ∀ call ∈ calls, ∀ id kind, call ≠ .revised id kind) : revisions id kind calls = 0 :=
  count_eq_zero.2 fun hmem => h _ hmem id kind rfl

theorem GivesUpRetry.append_left {calls : List Call} (h : GivesUpRetry calls)
    (before : List Call) : GivesUpRetry (before ++ calls) := by
  obtain ⟨id, hid⟩ := h
  exact ⟨id, mem_append_right before hid⟩

theorem GivesUpRetry.append_right {calls : List Call} (h : GivesUpRetry calls)
    (after : List Call) : GivesUpRetry (calls ++ after) := by
  obtain ⟨id, hid⟩ := h
  exact ⟨id, mem_append_left after hid⟩

/-- A state has the candidates, the failures and the calls of an earlier one and the given
ones after them; its counts are those of the revisions, and no count has passed its limit. -/
structure Adds (s s' : State backend) (newCandidates : List backend.Candidate)
    (newFailures : List Failure) (newCalls : List Call) : Prop where
  candidates : s'.candidates = s.candidates ++ newCandidates
  failures : s'.failures = s.failures ++ newFailures
  calls : s'.calls = s.calls ++ newCalls
  counted : ∀ id kind, s'.executionRevisionCounts (id, kind) =
    s.executionRevisionCounts (id, kind) + revisions id kind newCalls
  limited : ∀ id kind, s'.executionRevisionCounts (id, kind) ≤
    max (s.executionRevisionCounts (id, kind)) (revisionLimit kind)

section Adds

variable {s s' s'' : State backend} {candidates candidates' : List backend.Candidate}
  {failures failures' : List Failure} {calls calls' : List Call}

theorem Adds.trans (h : Adds s s' candidates failures calls)
    (h' : Adds s' s'' candidates' failures' calls') :
    Adds s s'' (candidates ++ candidates') (failures ++ failures') (calls ++ calls') where
  candidates := by rw [h'.candidates, h.candidates, append_assoc]
  failures := by rw [h'.failures, h.failures, append_assoc]
  calls := by rw [h'.calls, h.calls, append_assoc]
  counted id kind := by
    rw [h'.counted, h.counted, revisions_append, Nat.add_assoc]
  limited id kind := by
    have hfirst := h.limited id kind
    have hsecond := h'.limited id kind
    omega

/-- What changes no count, and revises no plan. -/
theorem Adds.of_counts_eq (hcounts : s'.executionRevisionCounts = s.executionRevisionCounts)
    (hcandidates : s'.candidates = s.candidates ++ candidates)
    (hfailures : s'.failures = s.failures ++ failures) (hcalls : s'.calls = s.calls ++ calls)
    (hnone : ∀ call ∈ calls, ∀ id kind, call ≠ .revised id kind) :
    Adds s s' candidates failures calls where
  candidates := hcandidates
  failures := hfailures
  calls := hcalls
  counted id kind := by rw [hcounts, revisions_eq_zero hnone, Nat.add_zero]
  limited id kind := by
    rw [hcounts]
    exact Nat.le_max_left _ _

/-- What changes none of the accounts. -/
theorem Adds.of_eq (hcounts : s'.executionRevisionCounts = s.executionRevisionCounts)
    (hcandidates : s'.candidates = s.candidates) (hfailures : s'.failures = s.failures)
    (hcalls : s'.calls = s.calls) : Adds s s' [] [] [] :=
  .of_counts_eq hcounts (by rw [hcandidates, append_nil])
    (by rw [hfailures, append_nil]) (by rw [hcalls, append_nil])
    fun _ hmem => absurd hmem not_mem_nil

theorem Adds.fail (s : State backend) (failure : Failure) :
    Adds s (s.fail failure) [] [failure] [] :=
  .of_counts_eq rfl (append_nil _).symm rfl (append_nil _).symm
    fun _ hmem => absurd hmem not_mem_nil

end Adds

/-! ## How a turn ends -/

/-- What is left when the turn ends: at most one candidate, none if the visit goes on; and a
candidate or a failure of the violation, unless an exception is on its way. -/
structure Leaves (id : String) (next : Next) (candidates : List backend.Candidate)
    (failures : List Failure) : Prop where
  single : candidates.length ≤ 1
  proceeds : next = .proceed → candidates = []
  trace : (∀ exc, next ≠ .raised exc) → candidates.length = 1 ∨ Names id failures

/-- The end of a turn of a violation, from a state on, with at most so many searches. Where
the search was the second, the visit goes on only if a condensation was given up. -/
def Ends (s : State backend) (id : String) (n : ℕ) (again : Bool)
    (out : State backend × Next) : Prop :=
  ∃ candidates failures calls, Adds s out.1 candidates failures calls ∧
    Leaves id out.2 candidates failures ∧ searches calls ≤ n ∧
      (out.2 = .proceed → again = true → GivesUpRetry calls)

section Ends

variable {s s' : State backend} {id : String} {n : ℕ} {again : Bool}
  {out : State backend × Next}

/-- What was added before the end. -/
theorem Ends.after {n' : ℕ} {failures : List Failure} {calls : List Call}
    (h : Ends s' id n again out) (hadds : Adds s s' [] failures calls)
    (hle : searches calls + n ≤ n') : Ends s id n' again out := by
  obtain ⟨candidates, failures', calls', hadds', hleaves, hbound, hgoes⟩ := h
  refine ⟨_, _, _, hadds.trans hadds', ⟨?_, ?_, ?_⟩, ?_, ?_⟩
  · rw [nil_append]
    exact hleaves.single
  · rw [nil_append]
    exact hleaves.proceeds
  · intro hraised
    rw [nil_append]
    refine (hleaves.trace hraised).imp_right ?_
    rintro ⟨failure, hfailure, hid⟩
    exact ⟨failure, mem_append_right _ hfailure, hid⟩
  · rw [searches_append]
    exact Nat.le_trans (Nat.add_le_add_left hbound _) hle
  · exact fun hproceed hagain => (hgoes hproceed hagain).append_left calls

/-- What was changed before the end, and is in none of the accounts. -/
theorem Ends.of_same (h : Ends s' id n again out) (hsame : Adds s s' [] [] []) :
    Ends s id n again out :=
  h.after hsame (Nat.le_of_eq (Nat.zero_add n))

/-- A failure of the violation ends a turn. -/
theorem Ends.of_fail {failure : Failure} {next : Next} (hid : failure.violationId = some id)
    (hnext : next = .proceed → again = false) :
    Ends s id n again (s.fail failure, next) := by
  refine ⟨[], [failure], [], .fail s failure, ⟨Nat.zero_le 1, fun _ => rfl, fun _ => ?_⟩,
    Nat.zero_le n, ?_⟩
  · exact Or.inr ⟨failure, mem_singleton_self failure, hid⟩
  · intro hproceed hagain
    rw [hnext hproceed] at hagain
    cases hagain

/-- A failure of the violation ends the visit. -/
theorem Ends.of_last {failure : Failure} (hid : failure.violationId = some id) :
    Ends s id n again (s.fail failure, .leave) :=
  .of_fail hid nofun

/-- An exception that no handler takes ends a turn. -/
theorem Ends.of_raised {exc : Raised} (hadds : Adds s s' [] [] []) :
    Ends s id n again (s', .raised exc) :=
  ⟨[], [], [], hadds, ⟨Nat.zero_le 1, nofun, fun h => absurd rfl (h exc)⟩, Nat.zero_le n,
    nofun⟩

/-- What was added before the end by a condensation: the visit goes on only if it was given
up. -/
theorem Ends.after_condensed {givenUp : Bool} (h : Ends s' id n false out)
    (hadds : Adds s s' [] [] [.condensed id again givenUp])
    (hgoes : out.2 = .proceed → givenUp = true) : Ends s id n again out := by
  obtain ⟨candidates, failures, calls, hadds', hleaves, hbound, -⟩ := h
  refine ⟨candidates, failures, _, hadds.trans hadds', hleaves, ?_, ?_⟩
  · have hnone : searches [Call.condensed id again givenUp] = 0 := rfl
    rwa [searches_append, hnone, Nat.zero_add]
  · intro hproceed hagain
    refine GivesUpRetry.append_right ⟨id, ?_⟩ calls
    rw [hagain, hgoes hproceed]
    exact mem_singleton_self _

end Ends

/-! ## The parts of a turn -/

section Turn

variable (s : State backend) (violation : backend.Violation) (proposal : backend.Proposal)

theorem handle_ends {id : String} {n : ℕ} {again : Bool} (exc : Raised)
    {deferred failure : Failure} {next : Next} (hdeferred : deferred.violationId = some id)
    (hfailure : failure.violationId = some id) (hnext : next = .proceed → again = false) :
    Ends s id n again (handle s exc deferred failure next) := by
  have hordinary : ∀ exc : Raised, Ends s id n again
      (if exc.isOrdinary then (s.fail failure, next) else (s, .raised exc)) := by
    intro exc
    split
    · exact .of_fail hfailure hnext
    · exact .of_raised (.of_eq rfl rfl rfl rfl)
  cases exc with
  | infrastructure reservedStop text =>
    cases reservedStop with
    | true =>
      have hleave : Ends { s with verificationDeferred := true } id n again
          ({ s with verificationDeferred := true }.fail deferred, .leave) :=
        .of_last hdeferred
      exact Ends.of_same (s := s) hleave (.of_eq rfl rfl rfl rfl)
    | false => exact .of_raised (.of_eq rfl rfl rfl rfl)
  | structuredResponse isOrdinary text => exact hordinary _
  | ordinary text => exact hordinary _
  | other text => exact hordinary _

/-- The visit goes on after an exception only where an ordinary one gives up. -/
theorem givesUp_of_handle {exc : Raised} {deferred failure : Failure} {next : Next}
    (h : (handle s exc deferred failure next).2 = .proceed) : exc.givesUp = true := by
  have hordinary : ∀ exc : Raised, (if exc.isOrdinary then (s.fail failure, next)
      else (s, Next.raised exc)).2 = .proceed → exc.isOrdinary = true := by
    intro exc h
    by_contra hnot
    rw [if_neg hnot] at h
    cases h
  cases exc with
  | infrastructure reservedStop text => cases reservedStop <;> cases h
  | structuredResponse isOrdinary text => exact hordinary _ h
  | ordinary text => exact hordinary _ h
  | other text => exact hordinary _ h

theorem accepted_ends {id : String} {n : ℕ} {again : Bool}
    (trajectory : backend.Trajectory) (record : backend.Record) :
    Ends s id n again (accepted s trajectory record) := by
  rw [accepted]
  split
  · exact .of_raised (.of_eq rfl rfl rfl rfl)
  · rename_i candidate evidenceRef world _
    refine ⟨[candidate], [], [], .of_counts_eq rfl rfl (append_nil _).symm
      (append_nil _).symm fun _ hmem => absurd hmem not_mem_nil,
      ⟨Nat.le_refl 1, nofun, fun _ => Or.inl rfl⟩, Nat.zero_le n, nofun⟩

/-- A call that revises no plan. -/
theorem Adds.call {s : State backend} (world : backend.World) {call : Call}
    (hcall : ∀ id kind, call ≠ .revised id kind) :
    Adds s { s with world, calls := s.calls ++ [call] } [] [] [call] :=
  .of_counts_eq rfl (append_nil _).symm (append_nil _).symm rfl fun _ hmem => by
    rw [mem_singleton.1 hmem]
    exact hcall

theorem condensation_ends (trajectory : backend.Trajectory) (again : Bool) :
    Ends s (backend.violationId violation) 0 again
      (condensation s violation proposal trajectory again) := by
  rw [condensation]
  split
  · exact (handle_ends _ _ rfl rfl fun _ => rfl).after_condensed
      (Adds.call _ fun _ _ h => nomatch h) (givesUp_of_handle _)
  · exact (accepted_ends (n := 0) _ trajectory _).after
      (Adds.call _ fun _ _ h => by cases h) (Nat.le_refl 0)

theorem settle_ends (outcome : Outcome backend.Trajectory backend.Feedback) (again : Bool) :
    Ends s (backend.violationId violation) 0 again
      (settle s violation proposal outcome again) := by
  rw [settle]
  split
  · refine .of_fail rfl fun hproceed => ?_
    cases again with
    | false => rfl
    | true => cases hproceed
  · exact condensation_ends s violation proposal _ again

/-- A turn that ends with the registration or the search. -/
theorem ends_of_registerAndSearch {again : Bool} {s' : State backend} {next : Next}
    (h : registerAndSearch s violation proposal again = (s', .inl next)) :
    Ends s (backend.violationId violation) 1 again (s', next) := by
  rw [registerAndSearch] at h
  split at h
  · cases h
    exact .of_raised (.of_eq rfl rfl rfl rfl)
  · split at h
    · cases h
      refine (handle_ends (n := 0) _ _ rfl rfl fun hproceed => ?_).after
        (Adds.call _ fun _ _ h => by cases h) (Nat.le_refl 1)
      cases again with
      | false => rfl
      | true => cases hproceed
    · cases h

/-- A turn that goes on from the outcome of its search. -/
theorem adds_of_registerAndSearch {again : Bool} {s' : State backend}
    {outcome : Outcome backend.Trajectory backend.Feedback}
    (h : registerAndSearch s violation proposal again = (s', .inr outcome)) :
    Adds s s' [] [] [.searched (backend.violationId violation) again] := by
  rw [registerAndSearch] at h
  split at h
  · cases h
  · split at h
    · cases h
    · cases h
      exact Adds.call _ fun _ _ h => by cases h

theorem retry_ends :
    Ends s (backend.violationId violation) 1 true (retry s violation proposal) := by
  rw [retry]
  split
  · rename_i hsearch
    exact ends_of_registerAndSearch s violation proposal hsearch
  · rename_i hsearch
    exact (settle_ends _ violation proposal _ true).after
      (adds_of_registerAndSearch s violation proposal hsearch) (Nat.le_refl 1)

theorem refuse_ends (exc : Raised) :
    Ends s (backend.violationId violation) 1 true (refuse s violation exc) := by
  have hordinary : ∀ exc : Raised, Ends s (backend.violationId violation) 1 true
      (if exc.isOrdinary then
        (s.fail {
          code := "INVALID_EXECUTION_REVISION"
          violationId := some (backend.violationId violation)
          message := exc.text }, .leave)
      else (s, .raised exc)) := by
    intro exc
    split
    · exact .of_last rfl
    · exact .of_raised (.of_eq rfl rfl rfl rfl)
  cases exc with
  | structuredResponse isOrdinary text => exact .of_last rfl
  | infrastructure reservedStop text => exact hordinary _
  | ordinary text => exact hordinary _
  | other text => exact hordinary _

theorem rebuild_ends (revised : backend.Plan) (revisedBound : backend.BoundPlan) :
    Ends s (backend.violationId violation) 1 true
      (rebuild s violation revised revisedBound) := by
  rw [rebuild]
  split
  · exact .of_raised (.of_eq rfl rfl rfl rfl)
  · -- the new plan and its proposals are in none of the accounts
    split
    · exact (retry_ends _ violation _).of_same (.of_eq rfl rfl rfl rfl)
    · exact (Ends.of_last rfl).of_same (.of_eq rfl rfl rfl rfl)

/-- A revision that is asked for is counted, and keeps to its limit. -/
theorem adds_askRevision (feedback : backend.Feedback)
    (hlimit : s.executionRevisionCounts (backend.violationId violation,
      backend.feedbackKind feedback) < revisionLimit (backend.feedbackKind feedback)) :
    Adds s (askRevision s violation feedback).1 [] []
      [.revised (backend.violationId violation) (backend.feedbackKind feedback)] where
  candidates := (append_nil _).symm
  failures := (append_nil _).symm
  calls := rfl
  counted id kind := by
    rw [revisions, count_singleton]
    by_cases hkey : (id, kind) = (backend.violationId violation, backend.feedbackKind feedback)
    · obtain ⟨rfl, rfl⟩ := Prod.mk.inj hkey
      rw [if_pos (beq_self_eq_true _)]
      exact Function.update_self ..
    · have hcall : ¬ (Call.revised (backend.violationId violation)
          (backend.feedbackKind feedback) == .revised id kind) := by
        intro hbeq
        obtain ⟨hid, hkind⟩ := Call.revised.inj (beq_iff_eq.1 hbeq)
        exact hkey (by rw [hid, hkind])
      rw [if_neg hcall, Nat.add_zero]
      exact Function.update_of_ne hkey ..
  limited id kind := by
    by_cases hkey : (id, kind) = (backend.violationId violation, backend.feedbackKind feedback)
    · obtain ⟨rfl, rfl⟩ := Prod.mk.inj hkey
      refine Nat.le_trans (Nat.le_of_eq (Function.update_self ..)) ?_
      exact Nat.le_trans hlimit (Nat.le_max_right _ _)
    · refine Nat.le_trans (Nat.le_of_eq (Function.update_of_ne hkey ..)) ?_
      exact Nat.le_max_left _ _

theorem replan_ends (feedback : backend.Feedback) :
    Ends s (backend.violationId violation) 1 true (replan s violation feedback) := by
  rw [replan]
  split
  · exact (Ends.of_last rfl).of_same (.of_eq rfl rfl rfl rfl)
  · rename_i hlimit
    rw [Bool.or_eq_true, decide_eq_true_eq, not_or, Nat.not_le] at hlimit
    have hfeedback : Adds s { s with executionFeedback := s.executionFeedback ++ [feedback] }
        [] [] [] := .of_eq rfl rfl rfl rfl
    have hrevision := hfeedback.trans (adds_askRevision _ violation feedback hlimit.1)
    -- what a revision adds to the plans is in none of the accounts
    have hplans : ∀ (s : State backend) (revised : backend.Plan),
        Adds s { s with plans := s.plans ++ [revised] } [] [] [] :=
      fun _ _ => .of_eq rfl rfl rfl rfl
    split
    · rename_i hask
      rw [hask] at hrevision
      exact (refuse_ends _ violation _).after hrevision (Nat.le_refl 1)
    · rename_i hask
      rw [hask] at hrevision
      exact (refuse_ends _ violation _).after (hrevision.trans (hplans _ _)) (Nat.le_refl 1)
    · rename_i hask
      rw [hask] at hrevision
      exact (Ends.of_last (n := 0) rfl).after (hrevision.trans (hplans _ _)) (Nat.zero_le 1)
    · rename_i hask
      rw [hask] at hrevision
      exact (rebuild_ends _ violation _ _).after (hrevision.trans (hplans _ _)) (Nat.le_refl 1)

/-- **One turn** searches at most twice, and the visit goes on after its second search only if
the condensation that followed was given up. -/
theorem turn_ends :
    ∃ candidates failures calls,
      Adds s (turn s violation proposal).1 candidates failures calls ∧
        Leaves (backend.violationId violation) (turn s violation proposal).2 candidates failures ∧
        searches calls ≤ 2 ∧
        ((turn s violation proposal).2 = .proceed → searches calls ≤ 1 ∨ GivesUpRetry calls) := by
  rw [turn]
  split
  · rename_i hsearch
    obtain ⟨candidates, failures, calls, hadds, hleaves, hbound, -⟩ :=
      ends_of_registerAndSearch s violation proposal hsearch
    exact ⟨candidates, failures, calls, hadds, hleaves, Nat.le_succ_of_le hbound,
      fun _ => Or.inl hbound⟩
  · rename_i hsearch
    have hfirst := adds_of_registerAndSearch s violation proposal hsearch
    split
    · obtain ⟨candidates, failures, calls, hadds, hleaves, hbound, -⟩ :=
        (settle_ends _ violation proposal _ false).after hfirst (Nat.le_refl 1)
      exact ⟨candidates, failures, calls, hadds, hleaves, Nat.le_succ_of_le hbound,
        fun _ => Or.inl hbound⟩
    · obtain ⟨candidates, failures, calls, hadds, hleaves, hbound, hgoes⟩ :=
        (replan_ends _ violation _).after hfirst (Nat.le_refl 2)
      exact ⟨candidates, failures, calls, hadds, hleaves, hbound,
        fun hproceed => Or.inr (hgoes hproceed rfl)⟩

end Turn

/-! ## A visit -/

section Visits

variable (s : State backend) (violation : backend.Violation)

/-- The inner loop searches at most once more than there are proposals, unless a condensation
after a retry is given up. -/
theorem turns_spec (proposals : List backend.Proposal) :
    ∃ candidates failures calls,
      Adds s (turns s violation proposals).1 candidates failures calls ∧
        candidates.length ≤ 1 ∧
        ((turns s violation proposals).2 = none → proposals ≠ [] →
          candidates.length = 1 ∨ Names (backend.violationId violation) failures) ∧
        (searches calls ≤ proposals.length + 1 ∨ GivesUpRetry calls) := by
  induction proposals generalizing s with
  | nil =>
    exact ⟨[], [], [], .of_eq rfl rfl rfl rfl, Nat.zero_le 1, fun _ h => absurd rfl h,
      Or.inl (Nat.zero_le _)⟩
  | cons proposal proposals ih =>
    obtain ⟨candidates, failures, calls, hadds, hleaves, htwo, hgoes⟩ :=
      turn_ends s violation proposal
    have hlast : searches calls ≤ (proposal :: proposals).length + 1 := by
      rw [length_cons]
      omega
    rw [turns]
    rcases hturn : turn s violation proposal with ⟨s', next⟩
    rw [hturn] at hadds hleaves hgoes
    cases next with
    | leave =>
      exact ⟨candidates, failures, calls, hadds, hleaves.single,
        fun _ _ => hleaves.trace nofun, Or.inl hlast⟩
    | raised exc =>
      exact ⟨candidates, failures, calls, hadds, hleaves.single, nofun, Or.inl hlast⟩
    | proceed =>
      obtain ⟨candidates', failures', calls', hadds', hsingle, -, hsearches⟩ := ih s'
      -- a turn that lets the visit go on has left its failure
      obtain rfl := hleaves.proceeds rfl
      obtain ⟨failure, hfailure, hid⟩ :=
        (hleaves.trace nofun).resolve_left Nat.zero_ne_one
      refine ⟨_, _, _, hadds.trans hadds', hsingle,
        fun _ _ => Or.inr ⟨failure, mem_append_left _ hfailure, hid⟩, ?_⟩
      rcases hgoes rfl with hone | hgivesUp
      · rcases hsearches with hrest | hgivesUp
        · left
          rw [searches_append, length_cons]
          omega
        · exact Or.inr (hgivesUp.append_left calls)
      · exact Or.inr (hgivesUp.append_right calls')

/-- What a visit adds. -/
theorem visitViolation_spec :
    ∃ candidates failures calls,
      Adds s (visitViolation s violation).1 candidates failures calls ∧
        candidates.length ≤ 1 ∧
        ((visitViolation s violation).2 = .skipped → candidates = []) ∧
        ((∀ exc, (visitViolation s violation).2 ≠ .raised exc) →
          candidates.length = 1 ∨ Names (backend.violationId violation) failures) ∧
        (searches calls ≤ (s.rootCache (backend.violationId violation)).proposals.length + 1 ∨
          GivesUpRetry calls) := by
  have hskipped : ∀ failure : Failure,
      failure.violationId = some (backend.violationId violation) →
        Names (backend.violationId violation) [failure] :=
    fun failure hid => ⟨failure, mem_singleton_self failure, hid⟩
  rw [visitViolation]
  -- without proposals the visit ends with a failure, before any search
  split
  · exact ⟨[], _, [], .fail s _, Nat.zero_le 1, fun _ => rfl,
      fun _ => Or.inr (hskipped _ rfl), Or.inl (Nat.zero_le _)⟩
  · split
    · exact ⟨[], _, [], .fail s _, Nat.zero_le 1, fun _ => rfl,
        fun _ => Or.inr (hskipped _ rfl), Or.inl (Nat.zero_le _)⟩
    · rename_i hproposals
      obtain ⟨candidates, failures, calls, hadds, hsingle, htrace, hsearches⟩ := turns_spec s
        violation (s.rootCache (backend.violationId violation)).proposals
      have hsome : (s.rootCache (backend.violationId violation)).proposals ≠ [] := by
        rintro h
        rw [h] at hproposals
        exact hproposals rfl
      split
      · rename_i hturns
        rw [hturns] at hadds htrace
        exact ⟨candidates, failures, calls, hadds, hsingle, nofun, fun _ => htrace rfl hsome,
          hsearches⟩
      · rename_i hturns
        rw [hturns] at hadds
        exact ⟨candidates, failures, calls, hadds, hsingle, nofun, fun h => absurd rfl (h _),
          hsearches⟩

/-- The accounts of a visit. -/
def Accounts (visit : Visit backend) : Prop :=
  ∃ candidates failures calls,
    Adds visit.before visit.after candidates failures calls ∧ candidates.length ≤ 1 ∧
      (visit.raised = none →
        candidates.length = 1 ∨ Names (backend.violationId visit.violation) failures) ∧
      (searches calls ≤
          (visit.before.rootCache (backend.violationId visit.violation)).proposals.length + 1 ∨
        GivesUpRetry calls)

/-! ## A run -/

variable (maxCandidates : ℕ) (violations : List backend.Violation)

/-- A run adds to the state that it starts from. -/
theorem searchLoop_adds : ∃ candidates failures calls,
    Adds s (searchLoop maxCandidates s violations).state candidates failures calls := by
  induction violations generalizing s with
  | nil => exact ⟨[], [], [], .of_eq rfl rfl rfl rfl⟩
  | cons violation violations ih =>
    obtain ⟨candidates, failures, calls, hadds, -⟩ := visitViolation_spec s violation
    obtain ⟨candidates', failures', calls', hrest⟩ := ih (visitViolation s violation).1
    rw [searchLoop]
    rcases hvisit : visitViolation s violation with ⟨after, _ | _ | exc⟩ <;>
      rw [hvisit] at hadds hrest
    · exact ⟨_, _, _, hadds.trans hrest⟩
    · dsimp only
      split
      · exact ⟨_, _, _, hadds⟩
      · exact ⟨_, _, _, hadds.trans hrest⟩
    · exact ⟨_, _, _, hadds⟩

/-- The visits of a run keep their accounts, and their calls are calls of the run. -/
theorem searchLoop_visits :
    ∀ visit ∈ (searchLoop maxCandidates s violations).visits, Accounts visit ∧
      visit.after.calls <+: (searchLoop maxCandidates s violations).state.calls := by
  induction violations generalizing s with
  | nil => exact fun _ hmem => absurd hmem not_mem_nil
  | cons violation violations ih =>
    obtain ⟨candidates, failures, calls, hadds, hsingle, -, htrace, hsearches⟩ :=
      visitViolation_spec s violation
    have hrest := ih (visitViolation s violation).1
    obtain ⟨_, _, calls', hlater⟩ :=
      searchLoop_adds (visitViolation s violation).1 maxCandidates violations
    have hlast : ∀ {raised : Option Raised}, (raised = none →
        ∀ exc, (visitViolation s violation).2 ≠ .raised exc) →
        Accounts ⟨violation, s, (visitViolation s violation).1, raised⟩ :=
      fun hraised => ⟨candidates, failures, calls, hadds, hsingle,
        fun hnone => htrace (hraised hnone), hsearches⟩
    have hprefix : (visitViolation s violation).1.calls <+:
        (searchLoop maxCandidates (visitViolation s violation).1 violations).state.calls :=
      ⟨calls', hlater.calls.symm⟩
    rw [searchLoop]
    -- the visit is skipped, it has its turns, or it raises
    rcases hvisit : visitViolation s violation with ⟨after, _ | _ | exc⟩ <;>
      rw [hvisit] at hlast hrest hprefix
    · exact forall_mem_cons.2 ⟨⟨hlast fun _ => nofun, hprefix⟩, hrest⟩
    · dsimp only
      split
      · exact forall_mem_cons.2 ⟨⟨hlast fun _ => nofun, prefix_rfl⟩,
          fun _ hmem => absurd hmem not_mem_nil⟩
      · exact forall_mem_cons.2 ⟨⟨hlast fun _ => nofun, hprefix⟩, hrest⟩
    · exact forall_mem_cons.2 ⟨⟨hlast nofun, prefix_rfl⟩,
        fun _ hmem => absurd hmem not_mem_nil⟩

/-- The loop stops with at most the wanted candidates. -/
theorem searchLoop_candidates (hstart : s.candidates.length < maxCandidates) :
    (searchLoop maxCandidates s violations).state.candidates.length ≤ maxCandidates := by
  induction violations generalizing s with
  | nil => exact Nat.le_of_lt hstart
  | cons violation violations ih =>
    obtain ⟨candidates, failures, calls, hadds, hsingle, hskipped, -⟩ :=
      visitViolation_spec s violation
    have hlength := congrArg List.length hadds.candidates
    rw [length_append] at hlength
    rw [searchLoop]
    rcases hvisit : visitViolation s violation with ⟨after, _ | _ | exc⟩ <;>
      rw [hvisit] at hlength hskipped
    · -- a visit that is skipped adds no candidate
      refine ih after ?_
      rw [hskipped rfl] at hlength
      rw [hlength]
      exact hstart
    · dsimp only
      replace hlength : after.candidates.length =
        s.candidates.length + candidates.length := hlength
      split
      · show after.candidates.length ≤ _
        omega
      · -- the loop goes on, so there is still room
        rename_i hgoes
        rw [Bool.or_eq_true, decide_eq_true_eq, not_or, Nat.not_le] at hgoes
        exact ih after hgoes.2
    · replace hlength : after.candidates.length =
        s.candidates.length + candidates.length := hlength
      show after.candidates.length ≤ _
      omega

end Visits

/-- **The accounts of a run.**  A visit adds at most one candidate, and one or a failure of its
violation unless an exception passes every handler; the revisions for a violation and a kind
of feedback keep to their limit; a visit searches at most once more than its violation has
proposals; and the candidates are no more than wanted. -/
structure Accounted (maxCandidates : ℕ) (run : SearchRun backend) : Prop where
  contributes : ∀ visit ∈ run.visits, ∃ candidates failures,
    visit.after.candidates = visit.before.candidates ++ candidates ∧
      visit.after.failures = visit.before.failures ++ failures ∧ candidates.length ≤ 1 ∧
      (visit.raised = none →
        candidates.length = 1 ∨ Names (backend.violationId visit.violation) failures)
  revised : ∀ id kind, revisions id kind run.state.calls ≤ revisionLimit kind
  searched : ∀ visit ∈ run.visits, searches visit.after.calls ≤
    searches visit.before.calls +
      (visit.before.rootCache (backend.violationId visit.violation)).proposals.length + 1
  bounded : run.state.candidates.length ≤ maxCandidates

/-- **The search loop.**  A run keeps its accounts, whatever the searches, the revisions and
the condensations come to, as long as no condensation after a retry is given up. -/
theorem searchLoop_accounted (world : backend.World) (plan : backend.Plan)
    (plans : List backend.Plan) (boundPlan : backend.BoundPlan)
    (rootCache : String → RootEntry backend.Proposal)
    (executionFeedback : List backend.Feedback) (sceneFailures : List Failure)
    (maxCandidates : ℤ) (violations : List backend.Violation)
    (hkept : ¬ GivesUpRetry (searchLoop (clampCandidates maxCandidates)
      (startState world plan plans boundPlan rootCache executionFeedback sceneFailures)
      violations).state.calls) :
    Accounted (clampCandidates maxCandidates) (searchLoop (clampCandidates maxCandidates)
      (startState world plan plans boundPlan rootCache executionFeedback sceneFailures)
      violations) where
  contributes visit hvisit := by
    obtain ⟨⟨candidates, failures, _, hadds, hsingle, htrace, -⟩, -⟩ :=
      searchLoop_visits _ _ _ visit hvisit
    exact ⟨candidates, failures, hadds.candidates, hadds.failures, hsingle, htrace⟩
  revised id kind := by
    obtain ⟨_, _, calls, hadds⟩ := searchLoop_adds (startState world plan plans boundPlan
      rootCache executionFeedback sceneFailures) (clampCandidates maxCandidates) violations
    have hcalls : (searchLoop _ _ violations).state.calls = calls := hadds.calls
    have hcounted := hadds.counted id kind
    have hlimited := hadds.limited id kind
    have hzero : (startState world plan plans boundPlan rootCache executionFeedback
      sceneFailures).executionRevisionCounts (id, kind) = 0 := rfl
    rw [hcalls]
    omega
  searched visit hvisit := by
    obtain ⟨⟨_, _, calls, hadds, -, -, hsearches⟩, hprefix⟩ :=
      searchLoop_visits _ _ _ visit hvisit
    rw [hadds.calls, searches_append, Nat.add_assoc]
    refine Nat.add_le_add_left (hsearches.resolve_right ?_) _
    -- what is given up in a visit is given up in the run
    rintro ⟨id, hid⟩
    refine hkept ⟨id, hprefix.subset ?_⟩
    rw [hadds.calls]
    exact mem_append_right _ hid
  bounded := by
    refine searchLoop_candidates _ _ _ ?_
    show 0 < clampCandidates maxCandidates
    rw [clampCandidates]
    omega

/-! ## Two runs -/

/-- A backend whose first searches ask for a revision, and whose second ones are clean. -/
def replanningBackend (condensed : Except Raised Unit) : Backend where
  World := Unit
  Plan := String
  BoundPlan := String
  Violation := String
  Proposal := String
  Trajectory := String
  Feedback := String
  Record := Unit
  Candidate := String
  EvidenceRef := String
  violationId := id
  trajectoryId := id
  feedbackKind := id
  hasLlm := true
  buildRootProposals := fun _ boundPlan => .ok ⟨[boundPlan], [], none⟩
  register := fun _ _ _ _ world => (.ok (), world)
  search := fun _ _ _ again world =>
    (.ok (if again then ⟨"FINAL_CLEAN", ["trajectory"], none, none⟩
      else ⟨"NOT_CLEAN", [], none, some physical⟩), world)
  revise := fun _ _ world => (.accepted "revised" "revised", world)
  condense := fun _ _ _ _ _ world => (condensed, world)
  accept := fun _ world => (.ok ("candidate", "evidence"), world)

/-- A run for one violation with two proposals. -/
def twoProposals (condensed : Except Raised Unit) : SearchRun (replanningBackend condensed) :=
  searchLoop (clampCandidates 3) (startState () "plan" ["plan"] "plan"
    (fun _ => ⟨["first", "second"], [], none⟩) [] []) ["v"]

/-- The candidate of the first proposal ends the visit. -/
theorem searchLoop_accounted_twoProposals :
    Accounted (clampCandidates 3) (twoProposals (.ok ())) := by
  refine @searchLoop_accounted (replanningBackend (.ok ())) _ _ _ _ _ _ _ _ _ ?_
  have hcalls : (twoProposals (.ok ())).state.calls =
      [.searched "v" false, .revised "v" physical, .searched "v" true,
        .condensed "v" true false] := by
    decide +kernel
  rintro ⟨id, hid⟩
  have hmem : Call.condensed id true true ∈ (twoProposals (.ok ())).state.calls := hid
  rw [hcalls] at hmem
  simp at hmem

/-- The region has no budget left for a condensation. -/
def exhausted : Except Raised Unit := .error (.ordinary "REGION_LIVE_BUDGET_EXCEEDED")

/-- Each proposal is searched, revised, searched again and given up: four searches for two
proposals. -/
theorem searchLoop_overdrawn : ¬ Accounted (clampCandidates 3) (twoProposals exhausted) := by
  intro h
  have hsearched := h.searched
  revert hsearched
  decide +kernel

end DRCAgent.KernelSearch
