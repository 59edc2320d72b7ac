/-
# Whether the searched proposals are of the plan in force

A proposal is fresh if it was built from the plan in force when it is registered and
searched. The revision before the search builds all proposals anew, and a revision in
the search searches a proposal of the new plan at once. But it builds anew for the
current violation only, and the loop over the proposals of this violation goes on with
those of the old plan. So every proposal is fresh as long as the search takes none from
the cache after it has revised the plan, and a proposal that it takes then is stale
(`roots_fresh_iff_timely`, `stale_root_searched`).
-/
import DRCAgent.RootSearch

namespace DRCAgent.Kernel

open List Option Runs
open Regions (ViolationRecord)

/-! ## Freshness -/

/-- The proposal was built from the plan in force. -/
def Execution.Fresh (x : Execution) : Prop := x.builtFrom = x.inForce

/-- All proposals that were searched were fresh. -/
def Search.AllFresh (s : Search) : Prop := ∀ x ∈ s.executed, x.Fresh

/-- The next step takes a proposal that the cache had. -/
def Point.Taking : Point → Prop
  | .proposals _ _ (_ :: _) _ => True
  | _ => False

instance : DecidablePred Point.Taking
  | .proposals _ _ (_ :: _) _ => isTrue trivial
  | .proposals _ _ [] _ => isFalse id
  | .violations _ => isFalse id
  | .done => isFalse id
  | .aborted => isFalse id

/-- A step that takes no proposal from the cache after the search has revised the plan. -/
def Timely (c : Config) (_ : Answers) : Prop :=
  c.point.Taking → c.search.searchRevised = false

instance (c : Config) (answers : Answers) : Decidable (Timely c answers) :=
  inferInstanceAs (Decidable (_ → _))

/-! ## What one proposal does -/

section Attempt

variable {e : Engine} {answers : Answers} {v : ViolationRecord} {b : PlanInForce}
  {p : RootProposal} {s s' : Search}

/-- The two searches have the same plan, cache and record of what was searched. -/
structure SamePlan (s s' : Search) : Prop where
  plan : s'.plan = s.plan
  inForce : s'.inForce = s.inForce
  rootCache : s'.rootCache = s.rootCache
  searchRevised : s'.searchRevised = s.searchRevised
  executed : s'.executed = s.executed

theorem SamePlan.refl (s : Search) : SamePlan s s := ⟨rfl, rfl, rfl, rfl, rfl⟩

/-- The end of a proposal leaves the plan alone. -/
theorem conclude_samePlan (answer : EdaAnswer String) (v : ViolationRecord)
    (outcome : TrajectoryOutcome) (retried : Bool) (s : Search) :
    SamePlan s (conclude answer v outcome retried s).1 := by
  unfold conclude
  split_ifs
  · exact SamePlan.refl s
  all_goals
    split
    · split
      all_goals exact ⟨rfl, rfl, rfl, rfl, rfl⟩
    · exact ⟨rfl, rfl, rfl, rfl, rfl⟩

theorem buildRootProposals_builtFrom (e : Engine) (v : ViolationRecord) (b : PlanInForce) :
    (buildRootProposals e v b).builtFrom = b := by
  unfold buildRootProposals
  split
  · rfl
  · dsimp only
    split
    · rfl
    · rfl

/-- What a proposal does to the search: it is searched; then the plan is kept, or revised
and the entry of its violation replaced, and then only a fresh proposal is searched. -/
inductive Attempted (e : Engine) (v : ViolationRecord) (p : RootProposal) (b : PlanInForce)
    (s s' : Search) : Prop
  | kept {n : ℕ} (plan : s'.plan = s.plan) (inForce : s'.inForce = s.inForce)
      (rootCache : s'.rootCache = s.rootCache)
      (searchRevised : s'.searchRevised = s.searchRevised)
      (executed : s'.executed = s.executed ++ [⟨v.violationId, p, b, s.inForce, n⟩])
  | revised {n : ℕ} {entry : RootEntry} {later : List Execution} (hasLlm : e.hasLlm = true)
      (accepted : ∃ kind, validateExecutionFeedbackRevision s.plan s'.plan kind
        (allowedBindingIds e.inputs) e.inputs.configuredMaxDepth [] [] = .ok .accepted)
      (bound : ∃ report, bindKernelPlan s'.plan e.inputs = .ok (s'.inForce.bound, report))
      (revision : s'.inForce.revision = s.inForce.revision + 1)
      (rootCache : s'.rootCache = Function.update s.rootCache v.violationId (some entry))
      (builtFrom : entry.builtFrom = s'.inForce)
      (searchRevised : s'.searchRevised = true)
      (executed : s'.executed = s.executed ++ [⟨v.violationId, p, b, s.inForce, n⟩] ++ later)
      (fresh : ∀ x ∈ later, x.Fresh)

/-- What the search of the first proposal of a revised plan does. -/
structure Retried (v : ViolationRecord) (s s' : Search) : Prop where
  plan : s'.plan = s.plan
  inForce : s'.inForce = s.inForce
  searchRevised : s'.searchRevised = s.searchRevised
  rootCache : ∃ entry, s'.rootCache = Function.update s.rootCache v.violationId (some entry) ∧
    entry.builtFrom = s.inForce
  executed : ∃ later, s'.executed = s.executed ++ later ∧ ∀ x ∈ later, x.Fresh

/-- Such a search, followed by something that leaves the plan alone. -/
theorem Retried.samePlan {s₁ : Search} (h : Retried v s s₁) (hsame : SamePlan s₁ s') :
    Retried v s s' where
  plan := hsame.plan.trans h.plan
  inForce := hsame.inForce.trans h.inForce
  searchRevised := hsame.searchRevised.trans h.searchRevised
  rootCache := by
    rw [hsame.rootCache]
    exact h.rootCache
  executed := by
    rw [hsame.executed]
    exact h.executed

theorem retryRevised_spec (e : Engine) (answers : Answers) (v : ViolationRecord) (s : Search) :
    Retried v s (retryRevised e answers v s).1 := by
  have hcache : ∃ entry, Function.update s.rootCache v.violationId
        (some { buildRootProposals e v s.inForce with scene := none, dofs := [] }) =
      Function.update s.rootCache v.violationId (some entry) ∧ entry.builtFrom = s.inForce :=
    ⟨_, rfl, buildRootProposals_builtFrom e v s.inForce⟩
  unfold retryRevised
  dsimp only
  split
  · rename_i proposal _ _ _
    -- the proposal is registered, whatever its search comes to
    have hsearched : Retried v s (Search.execute { s with
          rootCache := Function.update s.rootCache v.violationId
            (some { buildRootProposals e v s.inForce with scene := none, dofs := [] }) }
        v proposal (buildRootProposals e v s.inForce).builtFrom) := by
      refine ⟨rfl, rfl, rfl, hcache, _, rfl, ?_⟩
      intro x hx
      rw [mem_singleton.1 hx]
      exact buildRootProposals_builtFrom e v s.inForce
    split
    · exact hsearched.samePlan (conclude_samePlan _ _ _ _ _)
    · exact hsearched.samePlan ⟨rfl, rfl, rfl, rfl, rfl⟩
    · exact hsearched.samePlan ⟨rfl, rfl, rfl, rfl, rfl⟩
    · exact hsearched
  · refine ⟨rfl, rfl, rfl, hcache, [], (append_nil _).symm, ?_⟩
    intro x hx
    cases hx

/-- What an accepted revision is. -/
theorem revise_accepted {answer : LlmAnswer} {kind : FeedbackKind} {bounds : List OperationBound}
    {plan : KernelRepairPlan} {bound : BoundKernelPlan} {report : PlanBindingReport}
    {plans : List KernelRepairPlan}
    (h : revise e answer s kind bounds = (.accepted plan bound report, plans)) :
    validateExecutionFeedbackRevision s.plan plan kind (allowedBindingIds e.inputs)
        e.inputs.configuredMaxDepth (bounds.map (·.dofIds)) bounds = .ok .accepted ∧
      bindKernelPlan plan e.inputs = .ok (bound, report) := by
  unfold revise at h
  cases answer with
  | raised => cases h
  | schemaRejected message => cases h
  | failed message => cases h
  | plan revised =>
    dsimp only at h
    split at h
    · cases h
    · cases h
    · rename_i haccepted
      split at h
      · cases h
      · rename_i hbind
        cases h
        exact ⟨haccepted, hbind⟩

/-- A revision is accepted, and its first proposal is searched. -/
theorem Attempted.of_retried {n : ℕ} {kind : FeedbackKind} {plan : KernelRepairPlan}
    {bound : BoundKernelPlan} {report : PlanBindingReport} {t : Search} (h : Retried v t s')
    (hllm : e.hasLlm = true)
    (haccepted : validateExecutionFeedbackRevision s.plan plan kind (allowedBindingIds e.inputs)
      e.inputs.configuredMaxDepth [] [] = .ok .accepted)
    (hbound : bindKernelPlan plan e.inputs = .ok (bound, report)) (hplan : t.plan = plan)
    (hinForce : t.inForce = ⟨s.inForce.revision + 1, bound⟩)
    (hcache : t.rootCache = s.rootCache) (hrevised : t.searchRevised = true)
    (hexecuted : t.executed = s.executed ++ [⟨v.violationId, p, b, s.inForce, n⟩]) :
    Attempted e v p b s s' := by
  obtain ⟨entry, hupdate, hfrom⟩ := h.rootCache
  obtain ⟨later, hlater, hfresh⟩ := h.executed
  refine .revised (n := n) hllm ⟨kind, ?_⟩ ⟨report, ?_⟩ ?_ ?_ (hfrom.trans h.inForce.symm)
    (h.searchRevised.trans hrevised) ?_ hfresh
  · rw [h.plan, hplan]
    exact haccepted
  · rw [h.plan, h.inForce, hplan, hinForce]
    exact hbound
  · rw [h.inForce, hinForce]
  · rw [hupdate, hcache]
  · rw [hlater, hexecuted]

/-- What the feedback of the search of `p` comes to, once `p` is searched. -/
theorem handleFeedback_spec (e : Engine) (answers : Answers) (v : ViolationRecord)
    (p : RootProposal) (b : PlanInForce) (kind : FeedbackKind) (s : Search) :
    Attempted e v p b s (handleFeedback e answers v kind (s.execute v p b)).1 := by
  unfold handleFeedback
  dsimp only
  split
  · exact .kept rfl rfl rfl rfl rfl
  · rename_i hlimit
    rw [not_or, Bool.not_eq_false] at hlimit
    split
    · exact .kept rfl rfl rfl rfl rfl
    · exact .kept rfl rfl rfl rfl rfl
    · exact .kept rfl rfl rfl rfl rfl
    · exact .kept rfl rfl rfl rfl rfl
    · rename_i plan bound report plans hrevise
      obtain ⟨haccepted, hbound⟩ := revise_accepted hrevise
      exact .of_retried (retryRevised_spec e answers v _) hlimit.2 haccepted hbound rfl rfl rfl rfl
        rfl

/-- **The body of the loop** over the proposals of a violation. -/
theorem attempt_spec (e : Engine) (answers : Answers) (v : ViolationRecord) (b : PlanInForce)
    (p : RootProposal) (s : Search) :
    Attempted e v p b s (attempt e answers v b p s).1 := by
  have hkept : ∀ {s' : Search}, SamePlan (s.execute v p b) s' → Attempted e v p b s s' :=
    fun h => .kept h.plan h.inForce h.rootCache h.searchRevised h.executed
  unfold attempt
  dsimp only
  split
  · exact hkept ⟨rfl, rfl, rfl, rfl, rfl⟩
  · exact hkept ⟨rfl, rfl, rfl, rfl, rfl⟩
  · exact hkept (SamePlan.refl _)
  · split
    · exact hkept (conclude_samePlan _ _ _ _ _)
    · exact handleFeedback_spec e answers v p b _ s

end Attempt

/-! ## Before the search -/

section Prepare

variable {e : Engine} {violations : List ViolationRecord} {answer : LlmAnswer} {s s' : Search}

theorem buildCache_builtFrom {b : PlanInForce} {id : String} {entry : RootEntry}
    (h : buildCache e violations b id = some entry) : entry.builtFrom = b := by
  obtain ⟨v, -, rfl⟩ := map_eq_some_iff.1 h
  exact buildRootProposals_builtFrom e v b

/-- What holds when the search begins. -/
structure Ready (e : Engine) (s : Search) : Prop where
  cache : ∀ id entry, s.rootCache id = some entry → entry.builtFrom = s.inForce
  searchRevised : s.searchRevised = false
  executed : s.executed = []
  bound : ∃ report, bindKernelPlan s.plan e.inputs = .ok (s.inForce.bound, report)

/-- **The phase before the search** leaves no proposal of another plan in the cache. -/
theorem prepare_ready (h : prepare e violations answer s = .ready s') (hready : Ready e s) :
    Ready e s' ∧ s'.inForce.bound.selectedViolationIds = s.inForce.bound.selectedViolationIds := by
  unfold prepare at h
  split at h
  · cases h
    exact ⟨hready, rfl⟩
  · split at h
    · cases h
      exact ⟨hready, rfl⟩
    · dsimp only at h
      split at h
      · cases h
        exact ⟨⟨hready.cache, hready.searchRevised, hready.executed, hready.bound⟩, rfl⟩
      · split at h
        · cases h
        · cases h
        · cases h
        · cases h
        · rename_i plan bound report plans hrevise
          obtain ⟨haccepted, hbound⟩ := revise_accepted hrevise
          cases h
          refine ⟨⟨?_, hready.searchRevised, hready.executed, report, hbound⟩, ?_⟩
          · intro id entry hentry
            exact buildCache_builtFrom hentry
          · obtain ⟨report', hbound'⟩ := hready.bound
            exact (rebound_of_accepted haccepted hbound' hbound).2

end Prepare

/-! ## Runs -/

section Runs

variable {e : Engine} {start c c' : Config} {answers : Answers} {tr : List Answers}

/-- The violations that are still to be taken. -/
def Config.remaining (c : Config) : List ViolationRecord :=
  match c.point with
  | .violations rest => rest
  | .proposals _ _ _ rest => rest
  | _ => []

theorem remaining_of_violations {rest : List ViolationRecord}
    (hpoint : c.point = .violations rest) : c.remaining = rest := by
  rw [Config.remaining, hpoint]

theorem remaining_of_proposals {v : ViolationRecord} {b : PlanInForce} {ps : List RootProposal}
    {rest : List ViolationRecord} (hpoint : c.point = .proposals v b ps rest) :
    c.remaining = rest := by
  rw [Config.remaining, hpoint]

/-- What holds at the start. -/
theorem ready_of_starts (h : Starts e start) :
    Ready e start.search ∧ (∃ violations, start.point = .violations violations) ∧
      ∀ v ∈ start.remaining, v.violationId ∈ start.search.inForce.bound.selectedViolationIds := by
  cases h with
  | @mk plan plans bound report regionViolations violations answer s hbound _ hviolations
      hprepared =>
      obtain ⟨hready, hselected⟩ := prepare_ready hprepared
        ⟨fun id entry hentry => buildCache_builtFrom hentry, rfl, rfl, _, hbound⟩
      refine ⟨hready, ⟨_, rfl⟩, ?_⟩
      intro v hv
      have hv : v ∈ violations := hv
      rw [hviolations, mem_filter] at hv
      rw [hselected]
      exact contains_iff_mem.1 hv.2

/-- The search is not in the middle of the proposals of a violation. -/
def Point.Idle : Point → Prop
  | .proposals _ _ _ _ => False
  | _ => True

/-- **One step** of the search: from a violation to the next, or to its proposals, or from
a proposal on. -/
inductive Moved (e : Engine) (c c' : Config) : Prop
  | idle (notTaking : ¬ c.point.Taking) (same : SamePlan c.search c'.search)
      (remaining : c'.remaining <:+ c.remaining)
      (point : c'.point.Idle)
  | taken {v : ViolationRecord} {entry : RootEntry} {rest : List ViolationRecord}
      (point : c.point = .violations (v :: rest)) (same : c'.search = c.search)
      (entry_eq : c.search.rootCache v.violationId = some entry)
      (point' : c'.point = .proposals v entry.builtFrom entry.proposals rest)
  | attempted {v : ViolationRecord} {b : PlanInForce} {p : RootProposal}
      {ps : List RootProposal} {rest : List ViolationRecord}
      (point : c.point = .proposals v b (p :: ps) rest)
      (attempted : Attempted e v p b c.search c'.search)
      (remaining : c'.remaining <:+ rest)
      (point' : c'.point.Idle ∨ ∃ ps', c'.point = .proposals v b ps' rest)

theorem afterProposals_remaining (e : Engine) (s : Search) (rest : List ViolationRecord) :
    (afterProposals e s rest).remaining <:+ rest := by
  unfold afterProposals
  split_ifs
  · exact nil_suffix
  · exact suffix_refl rest

theorem afterProposals_idle (e : Engine) (s : Search) (rest : List ViolationRecord) :
    (afterProposals e s rest).point.Idle := by
  unfold afterProposals
  split_ifs
  · trivial
  · trivial

theorem afterProposals_search (e : Engine) (s : Search) (rest : List ViolationRecord) :
    (afterProposals e s rest).search = s := by
  unfold afterProposals
  split_ifs
  · rfl
  · rfl

theorem moved_takeViolation (e : Engine) (s : Search) (v : ViolationRecord)
    (rest : List ViolationRecord) :
    Moved e ⟨s, .violations (v :: rest)⟩ (takeViolation s v rest) := by
  have hskip : ∀ s' : Search, SamePlan s s' →
      Moved e ⟨s, .violations (v :: rest)⟩ ⟨s', .violations rest⟩ :=
    fun s' hsame => .idle id hsame (suffix_cons v rest) trivial
  unfold takeViolation
  cases hentry : s.rootCache v.violationId with
  | none => exact .idle id (SamePlan.refl s) nil_suffix trivial
  | some entry =>
    dsimp only
    cases entry.error with
    | some message => exact hskip _ ⟨rfl, rfl, rfl, rfl, rfl⟩
    | none =>
      dsimp only
      split_ifs
      · exact hskip _ ⟨rfl, rfl, rfl, rfl, rfl⟩
      · exact .taken rfl rfl hentry rfl

theorem moved_of_step (h : Step e c answers c') : Moved e c c' := by
  obtain ⟨s, point⟩ := c
  unfold Step next at h
  cases point with
  | violations rest =>
    cases rest with
    | nil =>
      obtain rfl := some.inj h
      exact .idle id (SamePlan.refl s) (suffix_refl []) trivial
    | cons v rest =>
      obtain rfl := some.inj h
      exact moved_takeViolation e s v rest
  | proposals v b ps rest =>
    cases ps with
    | nil =>
      obtain rfl := some.inj h
      refine .idle id ?_ (afterProposals_remaining e s rest) (afterProposals_idle e s rest)
      rw [afterProposals_search]
      exact SamePlan.refl s
    | cons p ps =>
      have hspec := attempt_spec e answers v b p s
      dsimp only at h
      split at h
      · rename_i s' hattempt
        rw [hattempt] at hspec
        obtain rfl := some.inj h
        exact .attempted rfl hspec (suffix_refl rest) (Or.inr ⟨ps, rfl⟩)
      · rename_i s' hattempt
        rw [hattempt] at hspec
        obtain rfl := some.inj h
        refine .attempted rfl ?_ (afterProposals_remaining e s' rest)
          (Or.inl (afterProposals_idle e s' rest))
        rw [afterProposals_search]
        exact hspec
      · rename_i s' hattempt
        rw [hattempt] at hspec
        obtain rfl := some.inj h
        exact .attempted rfl hspec nil_suffix (Or.inl trivial)
  | done => cases h
  | aborted => cases h

/-! ### The proposals of the plan in force -/

/-- All that was searched was fresh; and all that is in the cache or queued, as long as
the search has not revised the plan. -/
structure Current (c : Config) : Prop where
  fresh : c.search.AllFresh
  cache : c.search.searchRevised = false →
    ∀ id entry, c.search.rootCache id = some entry → entry.builtFrom = c.search.inForce
  queue : c.search.searchRevised = false →
    ∀ v b ps rest, c.point = .proposals v b ps rest → b = c.search.inForce

theorem not_idle {v : ViolationRecord} {b : PlanInForce} {ps : List RootProposal}
    {rest : List ViolationRecord} (hidle : c.point.Idle) : c.point ≠ .proposals v b ps rest := by
  intro hpoint
  rw [hpoint] at hidle
  exact hidle

/-- A timely step searches fresh proposals only. -/
theorem Current.step (h : Current c) (htimely : Timely c answers) (hmoved : Moved e c c') :
    Current c' := by
  cases hmoved with
  | idle _ same _ hidle =>
    refine ⟨?_, ?_, fun _ _ _ _ _ hpoint => absurd hpoint (not_idle hidle)⟩
    · unfold Search.AllFresh
      rw [same.executed]
      exact h.fresh
    · rw [same.searchRevised, same.rootCache, same.inForce]
      exact h.cache
  | taken hpoint same hentry hpoint' =>
    refine ⟨same ▸ h.fresh, same ▸ h.cache, ?_⟩
    rw [same]
    intro hrevised v' b' ps' rest' hqueue
    rw [hpoint'] at hqueue
    cases hqueue
    exact h.cache hrevised _ _ hentry
  | @attempted v b p ps rest hpoint hattempted _ hpoint' =>
    have hrevised : c.search.searchRevised = false := by
      apply htimely
      rw [hpoint]
      trivial
    have hb := h.queue hrevised _ _ _ _ hpoint
    cases hattempted with
    | kept _ hinForce hcache hsame hexecuted =>
      refine ⟨?_, ?_, ?_⟩
      · intro x hx
        rw [hexecuted, mem_append, mem_singleton] at hx
        rcases hx with hx | rfl
        · exact h.fresh x hx
        · exact hb
      · rw [hcache, hinForce]
        exact fun _ => h.cache hrevised
      · intro _ v' b' ps' rest' hqueue
        rcases hpoint' with hidle | ⟨ps'', hqueue'⟩
        · exact absurd hqueue (not_idle hidle)
        · rw [hqueue'] at hqueue
          cases hqueue
          rw [hinForce]
          exact hb
    | revised _ _ _ _ _ _ htrue hexecuted hlater =>
      refine ⟨?_, fun hfalse => absurd (htrue.symm.trans hfalse) nofun,
        fun hfalse => absurd (htrue.symm.trans hfalse) nofun⟩
      intro x hx
      rw [hexecuted, mem_append, mem_append, mem_singleton] at hx
      rcases hx with (hx | rfl) | hx
      · exact h.fresh x hx
      · exact hb
      · exact hlater x hx

theorem current_of_starts (h : Starts e start) : Current start := by
  obtain ⟨hready, ⟨violations, hpoint⟩, -⟩ := ready_of_starts h
  refine ⟨?_, fun _ => hready.cache, ?_⟩
  · intro x hx
    rw [hready.executed] at hx
    cases hx
  · intro _ v b ps rest hqueue
    rw [hpoint] at hqueue
    cases hqueue

/-- **Timely runs** search fresh proposals only. -/
theorem allFresh_of_timely (hstart : Starts e start)
    (hrun : Run (Guarded Timely (Step e)) start tr c) : c.search.AllFresh := by
  have hcurrent : Current c := hrun.guarded_invariant Current (current_of_starts hstart)
    fun _ _ _ h htimely hstep => h.step htimely (moved_of_step hstep)
  exact hcurrent.fresh

/-! ### The proposals of superseded plans -/

/-- Once the search has revised the plan, what is in the cache for later violations, and
what is queued, is of an earlier plan. -/
structure Behind (c : Config) : Prop where
  distinct : (c.remaining.map (·.violationId)).Nodup
  other : ∀ v b ps rest, c.point = .proposals v b ps rest →
    v.violationId ∉ rest.map (·.violationId)
  cache_le : ∀ id entry, c.search.rootCache id = some entry →
    entry.builtFrom.revision ≤ c.search.inForce.revision
  queue_le : ∀ v b ps rest, c.point = .proposals v b ps rest →
    b.revision ≤ c.search.inForce.revision
  cache_lt : c.search.searchRevised = true → ∀ v ∈ c.remaining, ∀ entry,
    c.search.rootCache v.violationId = some entry →
      entry.builtFrom.revision < c.search.inForce.revision
  queue_lt : c.search.searchRevised = true → ∀ v b ps rest, c.point = .proposals v b ps rest →
    b.revision < c.search.inForce.revision

theorem Behind.idle (h : Behind c) (same : SamePlan c.search c'.search)
    (hremaining : c'.remaining <:+ c.remaining) (hidle : c'.point.Idle) : Behind c' where
  distinct := (hremaining.sublist.map _).nodup h.distinct
  other := fun _ _ _ _ hpoint => absurd hpoint (not_idle hidle)
  cache_le := by
    rw [same.rootCache, same.inForce]
    exact h.cache_le
  queue_le := fun _ _ _ _ hpoint => absurd hpoint (not_idle hidle)
  cache_lt := by
    rw [same.searchRevised, same.rootCache, same.inForce]
    exact fun hrevised v hv => h.cache_lt hrevised v (hremaining.subset hv)
  queue_lt := fun _ _ _ _ _ hpoint => absurd hpoint (not_idle hidle)

/-- The proposals of the next violation come from the cache. -/
theorem Behind.taken (h : Behind c) {v : ViolationRecord} {entry : RootEntry}
    {rest : List ViolationRecord} (hpoint : c.point = .violations (v :: rest))
    (same : c'.search = c.search) (hentry : c.search.rootCache v.violationId = some entry)
    (hpoint' : c'.point = .proposals v entry.builtFrom entry.proposals rest) : Behind c' := by
  have hremaining := remaining_of_violations hpoint
  have hremaining' := remaining_of_proposals hpoint'
  have hdistinct := h.distinct
  rw [hremaining, map_cons, nodup_cons] at hdistinct
  refine ⟨?_, ?_, same ▸ h.cache_le, ?_, ?_, ?_⟩
  · rw [hremaining']
    exact hdistinct.2
  · intro v' b' ps' rest' hqueue
    rw [hpoint'] at hqueue
    cases hqueue
    exact hdistinct.1
  · intro v' b' ps' rest' hqueue
    rw [hpoint'] at hqueue
    cases hqueue
    rw [same]
    exact h.cache_le _ _ hentry
  · rw [same, hremaining']
    intro hrevised w hw
    refine h.cache_lt hrevised w ?_
    rw [hremaining]
    exact mem_cons_of_mem v hw
  · intro hrevised v' b' ps' rest' hqueue
    rw [hpoint'] at hqueue
    cases hqueue
    rw [same] at hrevised ⊢
    refine h.cache_lt hrevised v ?_ _ hentry
    rw [hremaining]
    exact mem_cons_self

section Attempt

variable {v v' : ViolationRecord} {b b' : PlanInForce} {p : RootProposal}
  {ps ps' : List RootProposal} {rest rest' : List ViolationRecord}

/-- What is queued after an attempt was queued before it. -/
theorem queue_of_attempted (hpoint : c.point.Idle ∨ ∃ ps', c.point = .proposals v b ps' rest)
    (hqueue : c.point = .proposals v' b' ps rest') : v' = v ∧ b' = b ∧ rest' = rest := by
  rcases hpoint with hidle | ⟨ps', hpoint⟩
  · exact absurd hqueue (not_idle hidle)
  · rw [hpoint] at hqueue
    cases hqueue
    exact ⟨rfl, rfl, rfl⟩

theorem Behind.attempted (h : Behind c) (hpoint : c.point = .proposals v b (p :: ps) rest)
    (hattempted : Attempted e v p b c.search c'.search) (hremaining : c'.remaining <:+ rest)
    (hpoint' : c'.point.Idle ∨ ∃ ps', c'.point = .proposals v b ps' rest) : Behind c' := by
  have hrest := remaining_of_proposals hpoint
  have hother := h.other _ _ _ _ hpoint
  have hb := h.queue_le _ _ _ _ hpoint
  have hdistinct : (c'.remaining.map (·.violationId)).Nodup := by
    refine (hremaining.sublist.map (·.violationId)).nodup ?_
    rw [← hrest]
    exact h.distinct
  have hother' : ∀ v' b' ps' rest', c'.point = .proposals v' b' ps' rest' →
      v'.violationId ∉ rest'.map (·.violationId) := by
    intro v' b' ps' rest' hqueue
    obtain ⟨rfl, rfl, rfl⟩ := queue_of_attempted hpoint' hqueue
    exact hother
  cases hattempted with
  | kept _ hinForce hcache hsame _ =>
    refine ⟨hdistinct, hother', ?_, ?_, ?_, ?_⟩
    · rw [hcache, hinForce]
      exact h.cache_le
    · intro v' b' ps' rest' hqueue
      obtain ⟨rfl, rfl, rfl⟩ := queue_of_attempted hpoint' hqueue
      rw [hinForce]
      exact hb
    · rw [hsame, hcache, hinForce]
      intro hrevised w hw
      refine h.cache_lt hrevised w ?_
      rw [hrest]
      exact hremaining.subset hw
    · intro hrevised v' b' ps' rest' hqueue
      obtain ⟨rfl, rfl, rfl⟩ := queue_of_attempted hpoint' hqueue
      rw [hsame] at hrevised
      rw [hinForce]
      exact h.queue_lt hrevised _ _ _ _ hpoint
  | @revised _ entry _ _ _ _ hrevision hcache hfrom _ _ _ =>
    -- only the entry of the violation itself is of the new plan
    refine ⟨hdistinct, hother', ?_, ?_, ?_, ?_⟩
    · intro id entry' hentry
      rw [hcache] at hentry
      by_cases hid : id = v.violationId
      · rw [hid, Function.update_self] at hentry
        obtain rfl := some.inj hentry
        rw [hfrom]
      · rw [Function.update_of_ne hid] at hentry
        have hle := h.cache_le _ _ hentry
        omega
    · intro v' b' ps' rest' hqueue
      obtain ⟨rfl, rfl, rfl⟩ := queue_of_attempted hpoint' hqueue
      omega
    · intro _ w hw entry' hentry
      have hne : w.violationId ≠ v.violationId := by
        intro heq
        apply hother
        rw [← heq]
        exact mem_map_of_mem (hremaining.subset hw)
      rw [hcache, Function.update_of_ne hne] at hentry
      have hle := h.cache_le _ _ hentry
      omega
    · intro _ v' b' ps' rest' hqueue
      obtain ⟨rfl, rfl, rfl⟩ := queue_of_attempted hpoint' hqueue
      omega

end Attempt

theorem Behind.step (h : Behind c) (hmoved : Moved e c c') : Behind c' := by
  cases hmoved with
  | idle _ same hremaining hidle => exact h.idle same hremaining hidle
  | taken hpoint same hentry hpoint' => exact h.taken hpoint same hentry hpoint'
  | attempted hpoint hattempted hremaining hpoint' =>
    exact h.attempted hpoint hattempted hremaining hpoint'

theorem behind_of_starts (h : Starts e start)
    (hdistinct : (start.remaining.map (·.violationId)).Nodup) : Behind start := by
  obtain ⟨hready, ⟨violations, hpoint⟩, -⟩ := ready_of_starts h
  have hqueue : ∀ v b ps rest, start.point ≠ .proposals v b ps rest := by
    intro v b ps rest hqueue
    rw [hpoint] at hqueue
    cases hqueue
  refine ⟨hdistinct, fun _ _ _ _ hp => absurd hp (hqueue _ _ _ _), ?_,
    fun _ _ _ _ hp => absurd hp (hqueue _ _ _ _), ?_,
    fun _ _ _ _ _ hp => absurd hp (hqueue _ _ _ _)⟩
  · intro id entry hentry
    rw [hready.cache id entry hentry]
  · intro hrevised
    rw [hready.searchRevised] at hrevised
    cases hrevised

/-- What was searched stays on record. -/
theorem executed_subset (hmoved : Moved e c c') : c.search.executed ⊆ c'.search.executed := by
  cases hmoved with
  | idle _ same _ _ =>
    rw [same.executed]
    exact Subset.refl _
  | taken _ same _ _ =>
    rw [same]
    exact Subset.refl _
  | attempted _ hattempted _ _ =>
    cases hattempted with
    | kept _ _ _ _ hexecuted =>
      rw [hexecuted]
      exact subset_append_left _ _
    | revised _ _ _ _ _ _ _ hexecuted _ =>
      rw [hexecuted, append_assoc]
      exact subset_append_left _ _

/-- A step that takes a proposal searches it. -/
theorem searched_of_taking (hmoved : Moved e c c') (htaking : c.point.Taking) :
    ∃ v b p ps rest n, c.point = .proposals v b (p :: ps) rest ∧
      ⟨v.violationId, p, b, c.search.inForce, n⟩ ∈ c'.search.executed := by
  cases hmoved with
  | idle hnot _ _ _ => exact absurd htaking hnot
  | taken hpoint _ _ _ =>
    rw [hpoint] at htaking
    exact absurd htaking id
  | @attempted v b p ps rest hpoint hattempted _ _ =>
    cases hattempted with
    | @kept n _ _ _ _ hexecuted =>
      refine ⟨v, b, p, ps, rest, n, hpoint, ?_⟩
      rw [hexecuted]
      simp
    | @revised n _ _ _ _ _ _ _ _ _ hexecuted _ =>
      refine ⟨v, b, p, ps, rest, n, hpoint, ?_⟩
      rw [hexecuted]
      simp

/-- A step that searches fresh proposals only is timely. -/
theorem timely_of_fresh (h : Behind c) (hmoved : Moved e c c') (hfresh : c'.search.AllFresh)
    (answers : Answers) : Timely c answers := by
  intro htaking
  by_contra hrevised
  rw [Bool.not_eq_false] at hrevised
  obtain ⟨v, b, p, ps, rest, n, hpoint, hsearched⟩ := searched_of_taking hmoved htaking
  have hlt := h.queue_lt hrevised _ _ _ _ hpoint
  have hsame : b = c.search.inForce := hfresh _ hsearched
  rw [hsame] at hlt
  exact absurd hlt (lt_irrefl _)

/-- **Runs that search fresh proposals only** are timely. -/
theorem timely_of_allFresh (hbehind : Behind start) (hrun : Run (Step e) start tr c)
    (hfresh : c.search.AllFresh) : Run (Guarded Timely (Step e)) start tr c := by
  induction hrun with
  | start => exact .start
  | @next tr s s' l prior last ih =>
    have hmoved := moved_of_step last
    have hs : Behind s := prior.invariant Behind hbehind
      fun _ _ _ h hstep => h.step (moved_of_step hstep)
    refine .next (ih fun x hx => hfresh x (executed_subset hmoved hx)) ⟨?_, last⟩
    exact timely_of_fresh hs hmoved hfresh l

/-- **Plan freshness.**  In a run whose steps take no proposal from the cache after the
search has revised the plan, every proposal that was searched was built from the plan in
force; and if the ids of the violations are distinct, only in such a run. -/
theorem roots_fresh_iff_timely (hstart : Starts e start) :
    (∀ tr c, Run (Guarded Timely (Step e)) start tr c → c.search.AllFresh) ∧
    ((start.remaining.map (·.violationId)).Nodup → ∀ tr c, Run (Step e) start tr c →
      (c.search.AllFresh ↔ Run (Guarded Timely (Step e)) start tr c)) := by
  refine ⟨fun tr c hrun => allFresh_of_timely hstart hrun, fun hdistinct tr c hrun => ⟨?_, ?_⟩⟩
  · exact timely_of_allFresh (behind_of_starts hstart hdistinct) hrun
  · exact allFresh_of_timely hstart

/-! ### Revisions -/

/-- The plan in force is the binding of the plan, and it selects the violations that are
still to be taken. -/
structure Bound (e : Engine) (c : Config) : Prop where
  bound : ∃ report, bindKernelPlan c.search.plan e.inputs = .ok (c.search.inForce.bound, report)
  selected : ∀ v ∈ c.remaining,
    v.violationId ∈ c.search.inForce.bound.selectedViolationIds

theorem Bound.step (h : Bound e c) (hmoved : Moved e c c') : Bound e c' := by
  cases hmoved with
  | idle _ same hremaining _ =>
    refine ⟨?_, ?_⟩
    · rw [same.plan, same.inForce]
      exact h.bound
    · rw [same.inForce]
      exact fun v hv => h.selected v (hremaining.subset hv)
  | @taken v entry rest hpoint same _ hpoint' =>
    refine ⟨same ▸ h.bound, ?_⟩
    intro w hw
    rw [remaining_of_proposals hpoint'] at hw
    rw [same]
    apply h.selected
    rw [remaining_of_violations hpoint]
    exact mem_cons_of_mem v hw
  | @attempted v b p ps rest hpoint hattempted hremaining _ =>
    have hselected : ∀ w ∈ c'.remaining,
        w.violationId ∈ c.search.inForce.bound.selectedViolationIds := by
      intro w hw
      apply h.selected
      rw [remaining_of_proposals hpoint]
      exact hremaining.subset hw
    cases hattempted with
    | kept hplan hinForce _ _ _ =>
      refine ⟨?_, ?_⟩
      · rw [hplan, hinForce]
        exact h.bound
      · rw [hinForce]
        exact hselected
    | revised _ haccepted hbound _ _ _ _ _ _ =>
      refine ⟨hbound, ?_⟩
      obtain ⟨kind, haccepted⟩ := haccepted
      obtain ⟨report, hbound⟩ := hbound
      obtain ⟨report', hbound'⟩ := h.bound
      rw [(rebound_of_accepted haccepted hbound' hbound).2]
      exact hselected

/-- **The plan in force** always binds the plan and selects the violations that are still
to be taken. -/
theorem bound_of_run (hstart : Starts e start) (hrun : Run (Step e) start tr c) : Bound e c := by
  obtain ⟨hready, -, hselected⟩ := ready_of_starts hstart
  exact hrun.invariant (Bound e) ⟨hready.bound, hselected⟩
    fun _ _ _ h hstep => h.step (moved_of_step hstep)

end Runs

/-! ## Two violations and one revision -/

/-- A region of two violations with a scene each; a proposal is named after the plan and
the violation that it is built for. -/
def twoTargetEngine : Engine where
  inputs := {
    origin := .fakeLlm
    supportedViolationIds := ["v1", "v2"]
    scenes := [{ sceneId := "s1", primaryViolationId := "v1", repairFamily := "WIDTH" },
      { sceneId := "s2", primaryViolationId := "v2", repairFamily := "WIDTH" }]
    dofs := [⟨"d1", "s1"⟩, ⟨"d2", "s2"⟩]
    configuredMaxDepth := 4 }
  adapter := fun v bound _ _ =>
    ([], .ok [{ proposalId := bound.planId ++ "/" ++ v.violationId }])
  hasLlm := true
  maxCandidates := 3

/-- A plan for both violations, to a depth. -/
def depthPlan (id : String) (depth : ℕ) : KernelRepairPlan := {
  planId := id, targetViolationIds := ["v1", "v2"], maxTrajectoryDepth := depth }

def targetViolation (id : String) : ViolationRecord := {
  violationId := id, reportIteration := 1, ruleId := "M2.W.1", ruleFamily := .width
  markerBboxDbu := ⟨0, 0, 4, 4, by omega, by omega⟩ }

/-- What the plan of depth two is bound to. -/
def firstBound : BoundKernelPlan where
  planId := "p0"
  origin := .fakeLlm
  selectedViolationIds := ["v1", "v2"]
  selectedWitnessIds := []
  preferredParticipantIds := []
  preferredDofIds := []
  allowedDofIds := ["d1", "d2"]
  forbiddenDofIds := []
  maxOperationCount := 4
  maxTrajectoryDepth := 2
  strategy := "AUTO"
  fallbackStrategy := none
  coordinationRequest := none
  bindingEffects := ["TARGET_VIOLATION_HARD_FILTER", "MAX_OPERATION_COUNT", "MAX_TRAJECTORY_DEPTH"]

/-- The search of both violations begins. -/
def twoTargetStart : Config where
  search := {
    plan := depthPlan "p0" 2
    inForce := ⟨0, firstBound⟩
    bindingReport := ⟨"p0", .fakeLlm, [], firstBound.bindingEffects⟩
    plans := [depthPlan "p0" 2]
    rootCache := buildCache twoTargetEngine [targetViolation "v1", targetViolation "v2"]
      ⟨0, firstBound⟩ }
  point := .violations [targetViolation "v1", targetViolation "v2"]

theorem twoTargetStart_starts : Starts twoTargetEngine twoTargetStart := by
  have hbound : bindKernelPlan (depthPlan "p0" 2) twoTargetEngine.inputs =
      .ok (firstBound, ⟨"p0", .fakeLlm, [], firstBound.bindingEffects⟩) := by
    decide +kernel
  have hviolations : [targetViolation "v1", targetViolation "v2"] =
      [targetViolation "v1", targetViolation "v2"].filter fun v =>
        firstBound.selectedViolationIds.contains v.violationId := by
    decide +kernel
  exact @Starts.mk _ _ _ _ _ _ _ .raised _ hbound (Or.inl rfl) hviolations rfl

/-- The search of the first violation asks for more depth, which the model grants; the
second search does not help. Then the second violation is searched. -/
def depthAnswers : List Answers :=
  [⟨.raised, .raised, .raised, .raised⟩,
    { search := .returned { status := "DEBT", executionFeedback := some .depthExtensionAvailable }
      revision := .plan (depthPlan "p1" 3)
      retry := .returned { status := "DEBT" } },
    ⟨.raised, .raised, .raised, .raised⟩,
    { search := .returned { status := "DEBT" } }]

theorem stale_root_searched :
    ∃ (e : Engine) (start c : Config) (tr : List Answers), Starts e start ∧
      Run (Step e) start tr c ∧ ∃ x ∈ c.search.executed, x.violationId = "v2" ∧
        x.builtFrom.bound.planId = "p0" ∧ x.inForce.bound.planId = "p1" := by
  have hplayed : ((play (next twoTargetEngine) twoTargetStart depthAnswers).any fun c =>
      c.search.executed.any fun x =>
      x.violationId = "v2" ∧ x.builtFrom.bound.planId = "p0" ∧
        x.inForce.bound.planId = "p1") = true := by
    decide +kernel
  obtain ⟨c, hc, hstale⟩ := Option.any_eq_true _ _ |>.1 hplayed
  obtain ⟨x, hx, hstale⟩ := any_eq_true.1 hstale
  exact ⟨_, _, c, _, twoTargetStart_starts, run_of_play (fun _ _ _ h => h) hc, x, hx,
    of_decide_eq_true hstale⟩

/-- The first two steps search a proposal and, after the revision, one of the new plan. -/
theorem roots_fresh_iff_timely_sample :
    (∃ c, Run (Guarded Timely (Step twoTargetEngine)) twoTargetStart (depthAnswers.take 2) c ∧
      c.search.executed.length = 2 ∧ c.search.AllFresh) ∧
    ∃ c, Run (Step twoTargetEngine) twoTargetStart depthAnswers c ∧
      ¬ Run (Guarded Timely (Step twoTargetEngine)) twoTargetStart depthAnswers c := by
  constructor
  · have hplayed : ((play (guardNext Timely (next twoTargetEngine)) twoTargetStart
        (depthAnswers.take 2)).any fun c => c.search.executed.length = 2) = true := by
      decide +kernel
    obtain ⟨c, hc, hlength⟩ := Option.any_eq_true _ _ |>.1 hplayed
    have hrun : Run (Guarded Timely (Step twoTargetEngine)) twoTargetStart
        (depthAnswers.take 2) c :=
      guarded_of_play (fun _ _ _ h => h) hc
    exact ⟨c, hrun, of_decide_eq_true hlength,
      (roots_fresh_iff_timely twoTargetStart_starts).1 _ _ hrun⟩
  · have hplayed : ((play (next twoTargetEngine) twoTargetStart depthAnswers).any fun c =>
        c.search.executed.any fun x => x.builtFrom ≠ x.inForce) = true := by
      decide +kernel
    obtain ⟨c, hc, hstale⟩ := Option.any_eq_true _ _ |>.1 hplayed
    obtain ⟨x, hx, hstale⟩ := any_eq_true.1 hstale
    have hrun : Run (Step twoTargetEngine) twoTargetStart depthAnswers c :=
      run_of_play (fun _ _ _ h => h) hc
    refine ⟨c, hrun, ?_⟩
    rw [← (roots_fresh_iff_timely twoTargetStart_starts).2 (by decide) _ _ hrun]
    intro hfresh
    exact of_decide_eq_true hstale (hfresh x hx)

/-- After the revision, the plan in force is the revised one. -/
theorem bound_of_run_revised : ∃ c, Run (Step twoTargetEngine) twoTargetStart depthAnswers c ∧
    Bound twoTargetEngine c ∧ c.search.plan.planId = "p1" := by
  have hplayed : ((play (next twoTargetEngine) twoTargetStart depthAnswers).any fun c =>
      c.search.plan.planId = "p1") = true := by
    decide +kernel
  obtain ⟨c, hc, hrevised⟩ := Option.any_eq_true _ _ |>.1 hplayed
  have hrun : Run (Step twoTargetEngine) twoTargetStart depthAnswers c :=
    run_of_play (fun _ _ _ h => h) hc
  exact ⟨c, hrun, bound_of_run twoTargetStart_starts hrun, of_decide_eq_true hrevised⟩

end DRCAgent.Kernel
