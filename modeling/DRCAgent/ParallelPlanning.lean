/-
# Planning the subgraphs of a window in parallel

The coroutines of `plan_subgraph` in `workflow/runtime.py`, as processes that share
the session and the trial counter of the sandbox service. A coroutine runs without
interruption up to its call of the planner, where it has read the counter and computed
the planner's limit, and again from the planner's return to its own; in between the
planners execute sandbox trials in any order.

A coroutine adds to `iteration_sandbox_jobs_used` what the shared counter gained since
it started. So a trial is counted once for every planner that was in flight and
returned, and a trial of a planner that raised is not counted for that planner. The
growth of the session's counter is the number of trials only if the two cancel.
-/
import DRCAgent.SharedCounter
import DRCAgent.Workflow

namespace DRCAgent

open Function Option Runs

/-! ## The coroutines -/

/-- A planner in flight: what its coroutine read when it started, and the trials it
has executed so far. -/
structure Coroutine where
  subgraphId : String
  sandboxTrialsBefore : ℕ
  sandboxJobLimit : ℤ
  ownTrials : ℕ := 0
  deriving DecidableEq

/-- Where the coroutine of a subgraph stands. -/
inductive CoroutinePhase
  | waiting
  | running (coroutine : Coroutine)
  | finished
  deriving DecidableEq

/-- The coroutine in flight. -/
def CoroutinePhase.coroutine? : CoroutinePhase → Option Coroutine
  | running c => some c
  | _ => none

/-- `max(sandbox_max_jobs_per_iteration - iteration_sandbox_jobs_used, 0)`: the limit
of a planner, and what is left for the coordination. -/
def Session.sandboxJobLimit (s : Session) : ℤ :=
  max (s.config.sandboxMaxJobsPerIteration - s.iterationSandboxJobsUsed) 0

/-- The session, the trial counter, and the coroutines of the window by the position
of their subgraph. -/
structure PlanningState where
  session : Session
  /-- `session.sandbox_service.metrics["trials"]`. -/
  trials : ℕ
  tasks : ℕ
  phase : ℕ → CoroutinePhase

/-- All coroutines of the window wait. -/
def PlanningState.opened (session : Session) (w : ActiveWindow) (trials : ℕ) : PlanningState where
  session := session
  trials := trials
  tasks := w.subgraphIds.length
  phase k := if k < w.subgraphIds.length then .waiting else .finished

/-- All coroutines of the window have finished. -/
def PlanningState.Finished (s : PlanningState) : Prop := ∀ k < s.tasks, s.phase k = .finished

instance (s : PlanningState) : Decidable s.Finished := by
  unfold PlanningState.Finished
  infer_instance

inductive PlanningEvent
  | start (k : ℕ)
  | trial (k : ℕ)
  /-- The planner returned. -/
  | planned (k : ℕ) (plan : PlannedSubgraph)
  /-- The planner raised an ordinary exception. -/
  | degraded (k : ℕ) (attempted : Finset String) (noops : List RepairCandidate)
  /-- The planner was cancelled, or raised `InfrastructureFailure` or `IntegrityFailure`. -/
  | raised (k : ℕ)

/-- The coroutine of `subgraphId` as it starts its planner. -/
def PlanningState.coroutine (s : PlanningState) (subgraphId : String) : Coroutine where
  subgraphId := subgraphId
  sandboxTrialsBefore := s.trials
  sandboxJobLimit := s.session.sandboxJobLimit

/-- `plan_subgraph`, in its pieces. -/
inductive PlanningStep : PlanningState → PlanningEvent → PlanningState → Prop
  | start {s : PlanningState} {k : ℕ} {w : ActiveWindow} {subgraphId : String}
      (hwindow : s.session.activeWindow = some w) (hid : w.subgraphIds[k]? = some subgraphId)
      (hphase : s.phase k = .waiting) :
      PlanningStep s (.start k) { s with
        phase := update s.phase k (.running (s.coroutine subgraphId)) }
  | trial {s : PlanningState} {k : ℕ} {c : Coroutine} (hphase : s.phase k = .running c) :
      PlanningStep s (.trial k) { s with
        trials := s.trials + 1
        phase := update s.phase k (.running { c with ownTrials := c.ownTrials + 1 }) }
  | planned {s : PlanningState} {k : ℕ} {c : Coroutine} {plan : PlannedSubgraph}
      (hphase : s.phase k = .running c) (hplan : plan.subgraphId = c.subgraphId) :
      PlanningStep s (.planned k plan) { s with
        session := s.session.planSubgraph { plan with
          sandboxTrials := (s.trials : ℤ) - c.sandboxTrialsBefore }
        phase := update s.phase k .finished }
  | degraded {s : PlanningState} {k : ℕ} {c : Coroutine} {attempted : Finset String}
      {noops : List RepairCandidate} (hphase : s.phase k = .running c) :
      PlanningStep s (.degraded k attempted noops) { s with
        session := s.session.degradeSubgraph c.subgraphId attempted noops
        phase := update s.phase k .finished }
  | raised {s : PlanningState} {k : ℕ} {c : Coroutine} (hphase : s.phase k = .running c) :
      PlanningStep s (.raised k) { s with phase := update s.phase k .finished }

/-- The steps, computed. -/
def planningNext (s : PlanningState) : PlanningEvent → Option PlanningState
  | .start k =>
    match s.phase k, s.session.activeWindow.bind (·.subgraphIds[k]?) with
    | .waiting, some subgraphId =>
      some { s with phase := update s.phase k (.running (s.coroutine subgraphId)) }
    | _, _ => none
  | .trial k => (s.phase k).coroutine?.map fun c => { s with
      trials := s.trials + 1
      phase := update s.phase k (.running { c with ownTrials := c.ownTrials + 1 }) }
  | .planned k plan => (s.phase k).coroutine?.bind fun c =>
    if plan.subgraphId = c.subgraphId then some { s with
      session := s.session.planSubgraph { plan with
        sandboxTrials := (s.trials : ℤ) - c.sandboxTrialsBefore }
      phase := update s.phase k .finished }
    else none
  | .degraded k attempted noops => (s.phase k).coroutine?.map fun c => { s with
      session := s.session.degradeSubgraph c.subgraphId attempted noops
      phase := update s.phase k .finished }
  | .raised k => (s.phase k).coroutine?.map fun _ => { s with phase := update s.phase k .finished }

section Planning

variable {s s' : PlanningState} {e : PlanningEvent} {k : ℕ} {c : Coroutine}

theorem coroutine?_eq_some {p : CoroutinePhase} : p.coroutine? = some c ↔ p = .running c := by
  cases p with
  | running c' => exact ⟨fun h => congrArg _ (some.inj h), fun h => by rw [h]; rfl⟩
  | waiting => exact ⟨(fun h => nomatch h), (fun h => nomatch h)⟩
  | finished => exact ⟨(fun h => nomatch h), (fun h => nomatch h)⟩

/-- What is computed is a step. -/
theorem planningNext_sound (h : planningNext s e = some s') : PlanningStep s e s' := by
  cases e with
  | start k =>
    rw [planningNext] at h
    split at h
    · rename_i subgraphId hphase hid
      obtain ⟨w, hwindow, hid⟩ := bind_eq_some_iff.1 hid
      obtain rfl := some.inj h
      exact .start hwindow hid hphase
    · cases h
  | trial k =>
    obtain ⟨c, hc, rfl⟩ := map_eq_some_iff.1 h
    exact .trial (coroutine?_eq_some.1 hc)
  | planned k plan =>
    obtain ⟨c, hc, h⟩ := bind_eq_some_iff.1 h
    split_ifs at h with hplan
    obtain rfl := some.inj h
    exact .planned (coroutine?_eq_some.1 hc) hplan
  | degraded k attempted noops =>
    obtain ⟨c, hc, rfl⟩ := map_eq_some_iff.1 h
    exact .degraded (coroutine?_eq_some.1 hc)
  | raised k =>
    obtain ⟨c, hc, rfl⟩ := map_eq_some_iff.1 h
    exact .raised (coroutine?_eq_some.1 hc)

/-! ## The shared counter -/

/-- The coroutines as users of a shared counter. -/
def PlanningState.meter (s : PlanningState) : SharedCounter.Meter ℕ where
  count := s.trials
  tally := s.session.iterationSandboxJobsUsed
  mark k := (s.phase k).coroutine?.map (·.sandboxTrialsBefore)

/-- What a coroutine does with the counter. -/
def PlanningEvent.onCounter : PlanningEvent → SharedCounter.Event ℕ
  | start k => .enter k
  | trial k => .tick k
  | planned k _ => .leave k
  | degraded k _ _ => .drop k
  | raised k => .drop k

theorem mark_of_running (h : s.phase k = .running c) :
    s.meter.mark k = some c.sandboxTrialsBefore := by
  show ((s.phase k).coroutine?).map (·.sandboxTrialsBefore) = _
  rw [h]
  rfl

/-- The meter after a coroutine changes its phase. -/
theorem meter_update (session : Session) (trials tasks : ℕ) (p : CoroutinePhase) :
    PlanningState.meter ⟨session, trials, tasks, update s.phase k p⟩ =
      ⟨trials, session.iterationSandboxJobsUsed,
        update s.meter.mark k (p.coroutine?.map (·.sandboxTrialsBefore))⟩ := by
  have hmark : (fun j => ((update s.phase k p j).coroutine?).map (·.sandboxTrialsBefore)) =
      update s.meter.mark k (p.coroutine?.map (·.sandboxTrialsBefore)) := by
    funext j
    by_cases hjk : j = k
    · subst hjk
      rw [update_self, update_self]
    · rw [update_of_ne hjk, update_of_ne hjk]
      rfl
  rw [← hmark]
  rfl

/-- A step of a coroutine is a step of the meter. -/
theorem PlanningStep.onCounter (h : PlanningStep s e s') :
    SharedCounter.Step s.meter e.onCounter s'.meter := by
  cases h with
  | @start k w subgraphId hwindow hid hphase =>
    have houtside : s.meter.mark k = none := by
      show ((s.phase k).coroutine?).map _ = none
      rw [hphase]
      rfl
    rw [meter_update]
    exact SharedCounter.Step.enter houtside
  | @trial k c hphase =>
    have hsame : update s.meter.mark k (some c.sandboxTrialsBefore) = s.meter.mark := by
      rw [← mark_of_running hphase, update_eq_self]
    rw [meter_update]
    show SharedCounter.Step _ _ ⟨_, _, update s.meter.mark k (some c.sandboxTrialsBefore)⟩
    rw [hsame]
    exact SharedCounter.Step.tick (mark_of_running hphase)
  | @planned k c plan hphase hplan =>
    rw [meter_update]
    exact SharedCounter.Step.leave (mark_of_running hphase)
  | @degraded k c attempted noops hphase =>
    rw [meter_update]
    exact SharedCounter.Step.drop (mark_of_running hphase)
  | @raised k c hphase =>
    rw [meter_update]
    exact SharedCounter.Step.drop (mark_of_running hphase)

/-! ## What a window's planning adds to the session's counter -/

/-- The trials counted for a planner other than the one that executed them: each trial
once for every other planner in flight that later returns its plan. -/
def doubleCountedTrials (tr : List PlanningEvent) : ℕ :=
  (SharedCounter.audit (tr.map (·.onCounter))).doubled

/-- The trials of planners that raised. -/
def raisedTrials (tr : List PlanningEvent) : ℕ :=
  (SharedCounter.audit (tr.map (·.onCounter))).lost

/-- A trial of some planner. -/
def PlanningEvent.isTrial : PlanningEvent → Bool
  | trial _ => true
  | _ => false

/-- The trials the service executed. -/
def executedTrials (tr : List PlanningEvent) : ℕ := tr.countP (·.isTrial)

theorem executedTrials_eq (tr : List PlanningEvent) :
    (tr.map (·.onCounter)).countP SharedCounter.Event.isTick = executedTrials tr := by
  rw [List.countP_map]
  refine List.countP_congr fun e _ => ?_
  cases e <;> rfl

/-- The tasks of a window do not change while it is planned, and there are no others. -/
theorem PlanningStep.tasks (h : PlanningStep s e s') : s'.tasks = s.tasks := by
  cases h <;> rfl

theorem PlanningStep.beyond (h : PlanningStep s e s')
    (hbeyond : ∀ j, s.tasks ≤ j → s.phase j = .finished) :
    ∀ j, s'.tasks ≤ j → s'.phase j = .finished := by
  intro j hj
  rw [h.tasks] at hj
  have hfinished := hbeyond j hj
  have hother : ∀ {i : ℕ} {p q : CoroutinePhase}, s.phase i = p → p ≠ .finished →
      update s.phase i q j = .finished := by
    intro i p q hp hne
    rw [update_of_ne, hfinished]
    rintro rfl
    exact hne (hp.symm.trans hfinished)
  cases h with
  | start _ _ hphase => exact hother hphase nofun
  | trial hphase => exact hother hphase nofun
  | planned hphase _ => exact hother hphase nofun
  | degraded hphase => exact hother hphase nofun
  | raised hphase => exact hother hphase nofun

theorem closed_opened (session : Session) (w : ActiveWindow) (trials : ℕ) :
    (PlanningState.opened session w trials).meter.Closed := by
  intro k
  show ((if k < w.subgraphIds.length then CoroutinePhase.waiting else .finished).coroutine?).map _ =
    none
  split_ifs <;> rfl

variable {session : Session} {w : ActiveWindow} {trials : ℕ} {tr : List PlanningEvent}

/-- Once all coroutines have finished, none is in flight. -/
theorem closed_of_finished (hrun : Run PlanningStep (PlanningState.opened session w trials) tr s)
    (hdone : s.Finished) : s.meter.Closed := by
  have hbeyond : ∀ j, s.tasks ≤ j → s.phase j = .finished := by
    refine hrun.invariant (fun s => ∀ j, s.tasks ≤ j → s.phase j = .finished) ?_
      (fun _ _ _ hbeyond hstep => hstep.beyond hbeyond)
    intro j hj
    exact if_neg (not_lt.2 hj)
  intro k
  have hphase : s.phase k = .finished := by
    rcases Nat.lt_or_ge k s.tasks with hk | hk
    · exact hdone k hk
    · exact hbeyond k hk
  show ((s.phase k).coroutine?).map _ = none
  rw [hphase]
  rfl

/-- The trial counter goes up by the trials executed. -/
theorem trials_eq (hrun : Run PlanningStep (PlanningState.opened session w trials) tr s) :
    s.trials = trials + executedTrials tr := by
  have hcount := SharedCounter.count_eq (closed_opened session w trials)
    (hrun.map PlanningState.meter PlanningEvent.onCounter fun _ _ _ => PlanningStep.onCounter)
  rwa [executedTrials_eq] at hcount

/-- **When planning is counted exactly.**  After all coroutines of a window have
finished, in any interleaving, the session's counter has gone up by the trials executed
if and only if as many trials were counted twice as were lost with planners that
raised. -/
theorem plan_subgraph_exact_iff (session : Session) (w : ActiveWindow) (trials : ℕ)
    (tr : List PlanningEvent) (s : PlanningState)
    (hrun : Run PlanningStep (PlanningState.opened session w trials) tr s) (hdone : s.Finished) :
    s.session.iterationSandboxJobsUsed = session.iterationSandboxJobsUsed + executedTrials tr ↔
      doubleCountedTrials tr = raisedTrials tr := by
  have hexact := SharedCounter.tally_exact_iff (closed_opened session w trials)
    (hrun.map PlanningState.meter PlanningEvent.onCounter fun _ _ _ => PlanningStep.onCounter)
    (closed_of_finished hrun hdone)
  have htrials := trials_eq hrun
  have hcount : s.session.iterationSandboxJobsUsed - session.iterationSandboxJobsUsed =
      (s.trials : ℤ) - trials ↔ doubleCountedTrials tr = raisedTrials tr := hexact
  rw [← hcount]
  omega

/-! ## Two planners -/

/-- A window of two subgraphs. -/
def pairWindow : ActiveWindow where
  windowId := "window"
  iteration := 1
  windowIndex := 0
  baseSnapshotId := "snapshot"
  subgraphIds := ["A", "B"]
  regionIds := ["r1", "r2"]
  frontierViolationIds := ["v1", "v2"]
  claimedFrontierViolationIds := ["v1", "v2"]
  decisionRegionIds := ["r1", "r2"]
  helperRegionIds := []
  helperAssignments := []
  contextOnlyRegionIds := []
  boundaryDependencyIds := []
  hardDependencyClosure := true

/-- A session that plans it. -/
def pairSession : Session := { sampleRunEnv.freshSession with activeWindow := some pairWindow }

/-- Two planners one after the other are counted exactly. -/
theorem plan_subgraph_exact_iff_sequential :
    ∃ tr s, Run PlanningStep (PlanningState.opened pairSession pairWindow 7) tr s ∧
      executedTrials tr = 3 ∧
      s.session.iterationSandboxJobsUsed =
        pairSession.iterationSandboxJobsUsed + executedTrials tr := by
  obtain ⟨tr, s, hrun, hdone, hexecuted, hcancel⟩ : ∃ tr s,
      Run PlanningStep (PlanningState.opened pairSession pairWindow 7) tr s ∧ s.Finished ∧
        executedTrials tr = 3 ∧ doubleCountedTrials tr = raisedTrials tr :=
    ⟨[.start 0, .trial 0, .trial 0, .planned 0 { subgraphId := "A" }, .start 1, .trial 1,
        .planned 1 { subgraphId := "B" }], _,
      Runs.run_of_play (fun _ _ _ => planningNext_sound) (by rfl), by decide, by decide, by decide⟩
  exact ⟨tr, s, hrun, hexecuted,
    (plan_subgraph_exact_iff pairSession pairWindow 7 tr s hrun hdone).2 hcancel⟩

/-- Two planners that overlap, one trial each: three jobs are counted. A planner that
raises after a trial: none is. -/
theorem plan_subgraph_inexact :
    (∃ tr s, Run PlanningStep (PlanningState.opened pairSession pairWindow 0) tr s ∧
      s.Finished ∧ executedTrials tr = 2 ∧
      s.session.iterationSandboxJobsUsed = pairSession.iterationSandboxJobsUsed + 3) ∧
    ∃ tr s, Run PlanningStep (PlanningState.opened pairSession pairWindow 0) tr s ∧
      s.Finished ∧ executedTrials tr = 1 ∧
      s.session.iterationSandboxJobsUsed = pairSession.iterationSandboxJobsUsed :=
  ⟨⟨[.start 0, .start 1, .trial 0, .planned 0 { subgraphId := "A" }, .trial 1,
        .planned 1 { subgraphId := "B" }], _,
      Runs.run_of_play (fun _ _ _ => planningNext_sound) (by rfl), by decide, by decide, by decide⟩,
    ⟨[.start 0, .trial 0, .degraded 0 ∅ [], .start 1, .planned 1 { subgraphId := "B" }], _,
      Runs.run_of_play (fun _ _ _ => planningNext_sound) (by rfl), by decide, by decide, by decide⟩⟩

end Planning

end DRCAgent
