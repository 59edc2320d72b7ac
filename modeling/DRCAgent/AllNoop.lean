/-
# The verdict ALL_NOOP

`finish_iteration` reads the statuses of all windows of the iteration, but only
the two flags of the last `aggregate_plans`: whether planning had failures, and
whether it explored a candidate that is not a no-op. Each aggregation overwrites
the flags, and no checkpoint carries them.

Main result:

* `all_noop_sound`: the verdict is right in every run in which no raised flag is
  lost that way while all windows so far ended NO_OP.
-/
import DRCAgent.Workflow

namespace DRCAgent

/-! ## Raised flags -/

/-- The window explored a candidate that is not a no-op, or its planning failed. -/
def WindowFlags.raised (f : WindowFlags) : Bool := f.planningHadFailures || f.exploredNonNoop

/-- All windows so far ended NO_OP, and a flag was raised in one of them: only the
flags of the session can still prevent the verdict. -/
def FlagsOutstanding (flags : List WindowFlags) : Prop :=
  (∀ f ∈ flags, f.status = .noOp) ∧ ∃ f ∈ flags, f.raised = true

instance (flags : List WindowFlags) : Decidable (FlagsOutstanding flags) := by
  unfold FlagsOutstanding
  infer_instance

theorem not_flagsOutstanding_nil : ¬ FlagsOutstanding [] := by
  rintro ⟨-, f, hf, -⟩
  exact List.not_mem_nil hf

/-- A flag outstanding after a window was so before, or the window raised it. -/
theorem FlagsOutstanding.of_append {flags : List WindowFlags} {f : WindowFlags}
    (h : FlagsOutstanding (flags ++ [f])) : FlagsOutstanding flags ∨ f.raised = true := by
  obtain ⟨hnoop, g, hg, hraised⟩ := h
  rcases List.mem_append.1 hg with hg | hg
  · refine .inl ⟨fun f' hf' => ?_, g, hg, hraised⟩
    exact hnoop f' (List.mem_append.2 (.inl hf'))
  · rw [List.mem_singleton.1 hg] at hraised
    exact .inr hraised

namespace Session

variable (s : Session)

/-- The flags of the session, as the last aggregation left them. -/
def raised : Bool := s.planningHadFailures || s.exploredNonNoop

/-- The window that is being planned is about to raise a flag. -/
def windowRaises : Bool :=
  s.degradedCandidates ≠ [] || s.plans.any (·.regionFailures) ||
    s.windowCandidates.any fun c => !c.isNoop

/-- The aggregation leaves the flags of its own window, whatever they were. -/
theorem raised_aggregatePlans (coordination : WindowCoordination) :
    (s.aggregatePlans coordination).raised = s.windowRaises := by
  unfold aggregatePlans windowRaises raised
  dsimp only
  split_ifs
  · simp only [Bool.decide_or, Bool.decide_eq_true]
  · simp only [Bool.decide_or, Bool.decide_eq_true]

/-- A flag that is outstanding is still in the session. -/
def FlagsCovered : Prop := FlagsOutstanding s.history.iterationFlags → s.raised = true

/-- The windows of the iteration all ended NO_OP, and none raised a flag. -/
structure IterationAllNoop : Prop where
  windows : s.windowResults ≠ []
  statuses : ∀ r ∈ s.windowResults, r.status = .noOp
  flags_eq : s.history.iterationFlags.map (·.status) = s.windowResults.map (·.status)
  quiet : ∀ f ∈ s.history.iterationFlags,
    f.planningHadFailures = false ∧ f.exploredNonNoop = false

end Session

/-! ## The condition -/

/-- While a flag is outstanding, no window is aggregated that raises none. -/
def KeepsFlags (s : Session) (_ : Pc) : Event → Prop
  | .coordinate _ => FlagsOutstanding s.history.iterationFlags → s.windowRaises = true
  | _ => True

instance (s : Session) (pc : Pc) (e : Event) : Decidable (KeepsFlags s pc e) := by
  unfold KeepsFlags
  split <;> infer_instance

/-- No iteration is resumed while a flag is outstanding in it. -/
def ResumesNoFlag (c : Checkpoint) : Prop :=
  c.boundary.isWindow = true → ¬ FlagsOutstanding c.history.iterationFlags

instance : DecidablePred ResumesNoFlag := fun c => by
  unfold ResumesNoFlag
  infer_instance

/-! ## The invariant -/

/-- The iteration has been counted and the next one has not begun. -/
def Pc.judged : Pc → Bool
  | .counted => true
  | .stopping => true
  | _ => false

/-- What holds of a session at a node. -/
structure SessionFlagged (s : Session) (pc : Pc) : Prop where
  flags_eq : s.history.iterationFlags.map (·.status) = s.windowResults.map (·.status)
  covered : s.FlagsCovered
  verdict : pc.judged = true → s.allNoop = true → s.IterationAllNoop

/-- What holds of a checkpoint. -/
def CheckpointFlagged (c : Checkpoint) : Prop :=
  c.boundary.isWindow = true →
    c.history.iterationFlags.map (·.status) = c.windowResults.map (·.status)

/-- **The verdict.**  When the outstanding flags are in the session, what
`finish_iteration` computes is right. -/
theorem iterationAllNoop_of_verdict {s : Session}
    (hflags : s.history.iterationFlags.map (·.status) = s.windowResults.map (·.status))
    (hcovered : s.FlagsCovered)
    (h : s.windowResults.map (·.status) ≠ [] ∧
      (∀ status ∈ s.windowResults.map (·.status), status = .noOp) ∧
      s.planningHadFailures = false ∧ s.exploredNonNoop = false) : s.IterationAllNoop := by
  obtain ⟨hne, hnoop, hfailures, hexplored⟩ := h
  have hnotRaised : s.raised = false := by
    rw [Session.raised, hfailures, hexplored]
    rfl
  have hquiet : ∀ f ∈ s.history.iterationFlags, f.raised = false := by
    intro f hf
    by_contra hraised
    have houtstanding : FlagsOutstanding s.history.iterationFlags := by
      refine ⟨fun g hg => ?_, f, hf, by simpa using hraised⟩
      apply hnoop
      rw [← hflags]
      exact List.mem_map_of_mem hg
    rw [hcovered houtstanding] at hnotRaised
    cases hnotRaised
  refine ⟨fun hnil => hne (by rw [hnil]; rfl), fun r hr => ?_, hflags, fun f hf => ?_⟩
  · exact hnoop _ (List.mem_map_of_mem hr)
  · have := hquiet f hf
    rw [WindowFlags.raised, Bool.or_eq_false_iff] at this
    exact this

namespace SessionFlagged

variable {env : RunEnv} {s s' : Session} {pc pc' : Pc} {e : Event} {eff : Effects}

/-- Nodes that leave the books and the flags alone. -/
theorem of_sameBooks (h : SessionFlagged s pc) (hbooks : s.SameBooks s')
    (hraised : s'.raised = s.raised) (hpc : pc'.judged = false) : SessionFlagged s' pc' where
  flags_eq := by
    rw [hbooks.history, hbooks.windowResults]
    exact h.flags_eq
  covered := by
    rw [Session.FlagsCovered, hbooks.history, hraised]
    exact h.covered
  verdict := fun hjudged => absurd hjudged (by rw [hpc]; decide)

/-- Nodes that leave the session alone. -/
theorem of_pc (h : SessionFlagged s pc) (hpc : pc'.judged = true → pc.judged = true) :
    SessionFlagged s pc' :=
  ⟨h.flags_eq, h.covered, fun hjudged => h.verdict (hpc hjudged)⟩

/-- Selecting a window leaves the flags alone. -/
theorem raised_selectActiveSubgraphs {graph : AgentGraph} {subgraphs : List AgentSubgraph}
    (h : s.selectActiveSubgraphs env graph subgraphs = .ok s') : s'.raised = s.raised := by
  rcases Session.selectActiveSubgraphs_ok h with ⟨_, _, _, rfl⟩ | ⟨w, -, rfl⟩
  · rfl
  · rfl

/-- The account of a window records its flags. -/
theorem account (h : SessionFlagged s pc) (w : ActiveWindow) (status : WindowStatus) :
    SessionFlagged (s.accountWindow w status) (.accounted status) where
  flags_eq := by
    show (s.history.iterationFlags ++
        [(⟨status, s.planningHadFailures, s.exploredNonNoop⟩ : WindowFlags)]).map (·.status) =
      (s.windowResults ++ [s.windowResult w status]).map (·.status)
    rw [List.map_append, List.map_append, h.flags_eq]
    rfl
  covered := by
    intro houtstanding
    rcases FlagsOutstanding.of_append houtstanding with hold | hnew
    · exact h.covered hold
    · exact hnew
  verdict := fun hjudged => nomatch hjudged

/-- **Every node keeps the flags covered**, as long as none is lost. -/
theorem node (hguard : KeepsFlags s pc e) (h : SessionFlagged s pc)
    (hstep : NodeStep env s pc e s' pc' eff) :
    SessionFlagged s' pc' ∧ ∀ c, eff.checkpoint = some c → CheckpointFlagged c := by
  have hnone : ∀ c, (none : Option Checkpoint) = some c → CheckpointFlagged c :=
    fun c hc => nomatch hc
  cases hstep with
  | writeManifest =>
    refine ⟨⟨h.flags_eq, h.covered, fun hjudged => ?_⟩, hnone⟩
    split_ifs at hjudged <;> cases hjudged
  | saveInitial =>
    refine ⟨h.of_pc (fun hjudged => nomatch hjudged), fun c hc hwindow => ?_⟩
    obtain rfl := Option.some.inj hc
    cases hwindow
  | start hstart =>
    refine ⟨?_, hnone⟩
    rcases Session.startIteration_ok hstart with rfl | ⟨total, frontier, -, rfl⟩
    · exact h.of_sameBooks (s.sameBooks_reopen _ _) rfl rfl
    · exact ⟨rfl, fun houtstanding => absurd houtstanding not_flagsOutstanding_nil,
        fun hjudged => nomatch hjudged⟩
  | select hselect =>
    refine ⟨h.of_sameBooks (Session.sameBooks_selectActiveSubgraphs hselect)
      (raised_selectActiveSubgraphs hselect) ?_, hnone⟩
    split_ifs <;> rfl
  | plan => exact ⟨h.of_sameBooks (s.sameWindow_planSubgraph _).toSameBooks rfl rfl, hnone⟩
  | degrade =>
    exact ⟨h.of_sameBooks (s.sameWindow_degradeSubgraph _ _ _).toSameBooks rfl rfl, hnone⟩
  | @coordinate coordination =>
    have hbooks := (s.sameWindow_aggregatePlans coordination).toSameBooks
    refine ⟨⟨?_, ?_, fun hjudged => nomatch hjudged⟩, hnone⟩
    · rw [hbooks.history, hbooks.windowResults]
      exact h.flags_eq
    · rw [Session.FlagsCovered, hbooks.history, s.raised_aggregatePlans]
      exact hguard
  | skip _ =>
    refine ⟨h.of_sameBooks s.sameWindow_skip.toSameBooks ?_ rfl, hnone⟩
    unfold Session.prepareTransaction
    split_ifs <;> rfl
  | execute _ _ _ =>
    exact ⟨h.of_sameBooks (s.sameWindow_recordTransaction _).toSameBooks rfl rfl, hnone⟩
  | publish _ _ hpublish =>
    obtain ⟨-, rfl⟩ := Session.publishCurrent_ok hpublish
    exact ⟨⟨h.flags_eq, h.covered, fun hjudged => nomatch hjudged⟩, hnone⟩
  | updateBest hbest =>
    obtain ⟨total, -, ⟨-, rfl⟩ | ⟨-, rfl⟩⟩ := Session.publishBest_ok hbest
    · exact ⟨⟨h.flags_eq, h.covered, fun hjudged => nomatch hjudged⟩, hnone⟩
    · exact ⟨⟨h.flags_eq, h.covered, fun hjudged => nomatch hjudged⟩, hnone⟩
  | settle _ => exact ⟨h.of_pc (fun hjudged => nomatch hjudged), hnone⟩
  | account _ => exact ⟨h.account _ _, hnone⟩
  | saveCommit =>
    refine ⟨h.of_pc (fun hjudged => nomatch hjudged), fun c hc => ?_⟩
    obtain rfl := Option.some.inj hc
    exact fun _ => h.flags_eq
  | refreshCommitted =>
    refine ⟨h.of_sameBooks (s.sameBooks_violations _) rfl rfl, fun c hc => ?_⟩
    obtain rfl := Option.some.inj hc
    exact fun _ => h.flags_eq
  | refresh _ =>
    refine ⟨h.of_pc (fun hjudged => nomatch hjudged), fun c hc => ?_⟩
    obtain rfl := Option.some.inj hc
    exact fun _ => h.flags_eq
  | finish hcount =>
    obtain ⟨noProgress, rfl⟩ := Session.countIteration_ok hcount
    refine ⟨⟨h.flags_eq, h.covered, fun _ hall => ?_⟩, hnone⟩
    obtain ⟨hwindows, hstatuses, hflags, hquiet⟩ :=
      iterationAllNoop_of_verdict h.flags_eq h.covered (of_decide_eq_true hall)
    exact ⟨hwindows, hstatuses, hflags, hquiet⟩
  | saveIteration _ =>
    refine ⟨h.of_pc fun _ => rfl, fun c hc => ?_⟩
    obtain rfl := Option.some.inj hc
    exact fun _ => h.flags_eq
  | nextIteration _ => exact ⟨h.of_pc (fun hjudged => nomatch hjudged), hnone⟩

end SessionFlagged

/-- A resumed session starts with its flags down: nothing may be outstanding. -/
theorem CheckpointFlagged.resumeSession {c : Checkpoint} (h : CheckpointFlagged c)
    (hresumed : ResumesNoFlag c) (config : AppConfig) (m : Manifest) (hashes : RunHashes)
    (epoch : String) : SessionFlagged (resumeSession config m hashes epoch c) .initializing := by
  unfold DRCAgent.resumeSession
  cases hwindow : c.boundary.isWindow with
  | false =>
    exact ⟨rfl, fun houtstanding => absurd houtstanding not_flagsOutstanding_nil,
      fun hjudged => nomatch hjudged⟩
  | true =>
    exact ⟨h hwindow, fun houtstanding => absurd houtstanding (hresumed hwindow),
      fun hjudged => nomatch hjudged⟩

theorem flags_invariant (env : RunEnv) :
    RunInvariant env (fun _ => True) KeepsFlags ResumesNoFlag
      (fun _ => SessionFlagged) (fun _ => CheckpointFlagged) where
  inherit := fun _ _ _ => trivial
  fresh := ⟨rfl, fun houtstanding => absurd houtstanding not_flagsOutstanding_nil,
    fun hjudged => nomatch hjudged⟩
  mono := fun _ _ _ h => h
  node := fun _ hguard h hstep => h.node hguard hstep
  resumed := fun hresumed h _ => h.resumeSession hresumed _ _ _ _

/-- A run ends with ALL_NOOP only when the session says so. -/
theorem allNoop_of_checkStoppingCondition {env : RunEnv} {s : Session} {timeUp : Bool}
    (h : s.checkStoppingCondition env timeUp = .ok .allNoop) : s.allNoop = true := by
  unfold Session.checkStoppingCondition at h
  obtain ⟨residual, -, h⟩ := except_bind_ok h
  have hstatus := Except.ok.inj h
  unfold stoppingCondition at hstatus
  split_ifs at hstatus
  assumption

/-- **Soundness of ALL_NOOP over whole runs.**  When an iteration is judged
all-noop, and when the run ends for that reason, every window of the iteration
ended NO_OP, explored no-ops only and planned without a failure. -/
theorem all_noop_sound {env : RunEnv} {tr : List Event} {st : RunState} {p : Proc}
    (hrun : GuardedRun env KeepsFlags ResumesNoFlag tr st) (hp : st.proc = some p) :
    (p.pc = .counted → p.session.allNoop = true → p.session.IterationAllNoop) ∧
    (p.pc = .stopping → ∀ timeUp, p.session.checkStoppingCondition env timeUp = .ok .allNoop →
        p.session.IterationAllNoop) := by
  have h := ((flags_invariant env).run hrun trivial).1 p hp
  constructor
  · intro hpc hall
    exact h.verdict (by rw [hpc]; rfl) hall
  · intro hpc timeUp hstop
    exact h.verdict (by rw [hpc]; rfl) (allNoop_of_checkStoppingCondition hstop)

/-- A first window whose only candidate is `c`, which the coordination turns down,
and a second one with a no-op; then the frontier is exhausted. -/
def exploreThenNoop (c : RepairCandidate) : List Event :=
  Event.sampleOpening ++ [.plan { subgraphId := "A", candidates := [c] }] ++
    [.sampleCoordinate "NO_OP"] ++ Event.sampleClosing ++
    [.sampleSelect, .plan { subgraphId := "A", candidates := [⟨"c2", true⟩], attempted := {"v1"} },
      .sampleCoordinate "NO_OP"] ++ Event.sampleClosing ++ [.sampleSelect, .finish]

/-- The first window explored a candidate that is not a no-op; the verdict says
otherwise, and ends the run. -/
theorem explored_all_noop :
    ∃ st p, Runs.Run (Step sampleRunEnv) (RunState.fresh sampleRunEnv)
        (exploreThenNoop ⟨"c1", false⟩ ++ [.saveIteration]) st ∧
      st.proc = some p ∧ p.session.allNoop = true ∧
      p.session.checkStoppingCondition sampleRunEnv false = .ok .allNoop ∧
      (∃ f ∈ p.session.history.iterationFlags, f.exploredNonNoop = true) ∧
      ¬ p.session.IterationAllNoop := by
  refine ⟨_, _, run_of_play (by rfl), by rfl, by rfl, by rfl, ?_, fun h => ?_⟩
  · decide
  · exact absurd h.quiet (by decide)

theorem all_noop_sound_sample :
    ∃ st p, GuardedRun sampleRunEnv KeepsFlags ResumesNoFlag (exploreThenNoop ⟨"c1", true⟩) st ∧
      st.proc = some p ∧ p.session.allNoop = true ∧ p.session.IterationAllNoop := by
  obtain ⟨st, p, hrun, hp, hpc, hall⟩ :
      ∃ st p, GuardedRun sampleRunEnv KeepsFlags ResumesNoFlag (exploreThenNoop ⟨"c1", true⟩) st ∧
        st.proc = some p ∧ p.pc = .counted ∧ p.session.allNoop = true :=
    ⟨_, _, guardedRun_of_play (by rfl), by rfl, by rfl, by rfl⟩
  exact ⟨st, p, hrun, hp, hall, (all_noop_sound hrun hp).1 hpc hall⟩

end DRCAgent
