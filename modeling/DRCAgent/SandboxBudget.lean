/-
# The sandbox budget of an iteration

The windows of one iteration, with their planners in parallel, their coordinations
and the nodes in between. Every planner, and every coordination, gets as its limit
what `iteration_sandbox_jobs_used` leaves of the budget at the time it starts.

So the budget holds as long as the counter covers, at every such start, the trials
executed and those still allowed to planners in flight: a start then reserves its
limit out of what is left (`sandbox_budget_kept`). A planner that starts where the
counter does not cover them can take the iteration over its budget
(`sandbox_budget_exceeded`).
-/
import DRCAgent.CoordinationSafety
import DRCAgent.ParallelPlanning

namespace DRCAgent

open Function Option Runs

/-! ## The iteration -/

/-- A point of an iteration: the node to run, the planners, and whether an exception
has ended the run. -/
structure IterationState where
  pc : Pc
  planning : PlanningState
  aborted : Bool := false

/-- The planners of the window a selection opens, if any. -/
def PlanningState.select (session : Session) (trials : ℕ) : PlanningState :=
  match session.activeWindow with
  | some w => .opened session w trials
  | none => { session := session, trials := trials, tasks := 0, phase := fun _ => .finished }

/-- The coordination is called for the candidates of the window, on the current
snapshot, with what is left of the budget. -/
structure Session.Coordinates (s : Session) (input : CoordinationInput) : Prop where
  window : s.activeWindow.map (·.windowId) = some input.windowId
  candidates : input.candidates.map (·.toRepairCandidate) = s.windowCandidates
  snapshot : input.snapshot = s.currentSnapshot
  actions : input.transaction.maxNonNoopActionsPerBatch = s.config.maxNonNoopActionsPerBatch
  remaining : input.sandboxJobsRemaining = s.sandboxJobLimit

instance (s : Session) (input : CoordinationInput) : Decidable (s.Coordinates input) :=
  decidable_of_iff
    (s.activeWindow.map (·.windowId) = some input.windowId ∧
      input.candidates.map (·.toRepairCandidate) = s.windowCandidates ∧
      input.snapshot = s.currentSnapshot ∧
      input.transaction.maxNonNoopActionsPerBatch = s.config.maxNonNoopActionsPerBatch ∧
      input.sandboxJobsRemaining = s.sandboxJobLimit)
    ⟨fun h => ⟨h.1, h.2.1, h.2.2.1, h.2.2.2.1, h.2.2.2.2⟩,
      fun h => ⟨h.window, h.candidates, h.snapshot, h.actions, h.remaining⟩⟩

inductive IterationEvent
  | select (graph : AgentGraph) (subgraphs : List AgentSubgraph)
  | planning (event : PlanningEvent)
  /-- The coordination of a window, and the trials the service executed for it. -/
  | coordinate (env : CoordinationEnv) (input : CoordinationInput) (executed : ℕ)
  /-- `aggregate_plans` without a candidate. -/
  | noCandidates
  | node (event : Event)

/-- The nodes from the coordination of a window to the next selection, or to the end
of the iteration. -/
def Event.afterPlanning : Event → Bool
  | skip | execute _ | publish | updateBest | settle | account | saveCommit | refresh _ | finish
  | saveIteration => true
  | _ => false

/-- The steps of an iteration. A call of the sandbox service executes one trial, or
none if it is answered from the cache. -/
inductive IterationStep (env : RunEnv) : IterationState → IterationEvent → IterationState → Prop
  | select {p : PlanningState} {pc pc' : Pc} {session' : Session} {graph : AgentGraph}
      {subgraphs : List AgentSubgraph} {eff : Effects}
      (h : NodeStep env p.session pc (.select graph subgraphs) session' pc' eff) :
      IterationStep env ⟨pc, p, false⟩ (.select graph subgraphs)
        ⟨pc', .select session' p.trials, false⟩
  | planning {p p' : PlanningState} {e : PlanningEvent} (h : PlanningStep p e p') :
      IterationStep env ⟨.planning, p, false⟩ (.planning e) ⟨.planning, p', false⟩
  | coordinate {p : PlanningState} {cenv : CoordinationEnv} {input : CoordinationInput}
      {executed : ℕ} {r : CoordinationResult} (hdone : p.Finished)
      (hsome : p.session.windowCandidates ≠ []) (hinput : p.session.Coordinates input)
      (hresult : (coordinateActiveWindow cenv input).result = .ok r)
      (hexecuted : executed ≤ (coordinateActiveWindow cenv input).calls.length) :
      IterationStep env ⟨.planning, p, false⟩ (.coordinate cenv input executed)
        ⟨.coordinated, { p with
          session := p.session.aggregatePlans r.toWindowCoordination
          trials := p.trials + executed }, false⟩
  | coordinateRaises {p : PlanningState} {cenv : CoordinationEnv} {input : CoordinationInput}
      {executed : ℕ} {e : String} (hdone : p.Finished)
      (hsome : p.session.windowCandidates ≠ []) (hinput : p.session.Coordinates input)
      (hresult : (coordinateActiveWindow cenv input).result = .error e)
      (hexecuted : executed ≤ (coordinateActiveWindow cenv input).calls.length) :
      IterationStep env ⟨.planning, p, false⟩ (.coordinate cenv input executed)
        ⟨.planning, { p with trials := p.trials + executed }, true⟩
  | noCandidates {p : PlanningState} (hdone : p.Finished)
      (hnone : p.session.windowCandidates = []) :
      IterationStep env ⟨.planning, p, false⟩ .noCandidates
        ⟨.coordinated, { p with
          session := p.session.aggregatePlans { status := "NO_CANDIDATES" } }, false⟩
  | node {p : PlanningState} {pc pc' : Pc} {session' : Session} {e : Event} {eff : Effects}
      (hafter : e.afterPlanning = true) (h : NodeStep env p.session pc e session' pc' eff) :
      IterationStep env ⟨pc, p, false⟩ (.node e) ⟨pc', { p with session := session' }, false⟩

/-! ## Reserving trials -/

/-- What a planner is still allowed. -/
def CoroutinePhase.allowance : CoroutinePhase → ℤ
  | running c => c.sandboxJobLimit - c.ownTrials
  | _ => 0

/-- What the planners in flight are still allowed. -/
def PlanningState.outstanding (p : PlanningState) : ℤ :=
  ∑ k ∈ Finset.range p.tasks, (p.phase k).allowance

/-- Every planner respects the limit it was given. -/
def RespectsLimits : IterationState → IterationEvent → Prop
  | s, .planning (.trial k) => ∀ c, s.planning.phase k = .running c → c.ownTrials < c.sandboxJobLimit
  | _, _ => True

/-- Wherever a limit is computed, it is zero or the counter has gone up, in this
iteration, by the trials executed and those still allowed to planners in flight. -/
def CounterCovers (s₀ : IterationState) : IterationState → IterationEvent → Prop
  | s, .planning (.start _) =>
    s.planning.session.sandboxJobLimit = 0 ∨
      (s.planning.trials : ℤ) - s₀.planning.trials + s.planning.outstanding ≤
        s.planning.session.iterationSandboxJobsUsed - s₀.planning.session.iterationSandboxJobsUsed
  | s, .coordinate _ _ _ =>
    s.planning.session.sandboxJobLimit = 0 ∨
      (s.planning.trials : ℤ) - s₀.planning.trials ≤
        s.planning.session.iterationSandboxJobsUsed - s₀.planning.session.iterationSandboxJobsUsed
  | _, _ => True

section Budget

variable {env : RunEnv} {s₀ s s' : IterationState} {p p' : PlanningState} {k : ℕ}

/-- The planners are those of the window, and each is within its limit. -/
structure WithinLimits (p : PlanningState) : Prop where
  beyond : ∀ j, p.tasks ≤ j → p.phase j = .finished
  within : ∀ j c, p.phase j = .running c → (c.ownTrials : ℤ) ≤ c.sandboxJobLimit

theorem WithinLimits.allowance_nonneg (h : WithinLimits p) (j : ℕ) : 0 ≤ (p.phase j).allowance := by
  cases hphase : p.phase j with
  | running c =>
    have hle := h.within j c hphase
    show 0 ≤ c.sandboxJobLimit - c.ownTrials
    omega
  | waiting => exact le_rfl
  | finished => exact le_rfl

theorem WithinLimits.outstanding_nonneg (h : WithinLimits p) : 0 ≤ p.outstanding :=
  Finset.sum_nonneg fun j _ => h.allowance_nonneg j

/-- An unfinished coroutine is one of the window's. -/
theorem WithinLimits.lt_tasks (h : WithinLimits p) (hphase : p.phase k ≠ .finished) :
    k < p.tasks := by
  by_contra hge
  exact hphase (h.beyond k (not_lt.1 hge))

/-- What is outstanding after one coroutine changes its phase. -/
theorem outstanding_update (session : Session) (trials : ℕ) (hk : k < p.tasks)
    (phase' : CoroutinePhase) :
    PlanningState.outstanding ⟨session, trials, p.tasks, update p.phase k phase'⟩ =
      p.outstanding - (p.phase k).allowance + phase'.allowance := by
  have hmem : k ∈ Finset.range p.tasks := Finset.mem_range.2 hk
  have hrest : ∑ j ∈ (Finset.range p.tasks).erase k, (update p.phase k phase' j).allowance =
      ∑ j ∈ (Finset.range p.tasks).erase k, (p.phase j).allowance := by
    refine Finset.sum_congr rfl fun j hj => ?_
    rw [update_of_ne (Finset.ne_of_mem_erase hj)]
  show ∑ j ∈ Finset.range p.tasks, (update p.phase k phase' j).allowance = _
  rw [PlanningState.outstanding, ← Finset.add_sum_erase _ _ hmem, hrest,
    ← Finset.add_sum_erase _ (fun j => (p.phase j).allowance) hmem, update_self]
  omega

theorem WithinLimits.update (h : WithinLimits p) (session : Session) (trials : ℕ)
    (hk : k < p.tasks) {phase' : CoroutinePhase}
    (hwithin : ∀ c, phase' = .running c → (c.ownTrials : ℤ) ≤ c.sandboxJobLimit) :
    WithinLimits ⟨session, trials, p.tasks, update p.phase k phase'⟩ where
  beyond := by
    intro j hj
    have hj : p.tasks ≤ j := hj
    show Function.update p.phase k phase' j = .finished
    rw [update_of_ne (by omega)]
    exact h.beyond j hj
  within := by
    intro j c hj
    have hj : Function.update p.phase k phase' j = .running c := hj
    by_cases hjk : j = k
    · subst hjk
      rw [update_self] at hj
      exact hwithin c hj
    · rw [update_of_ne hjk] at hj
      exact h.within j c hj

theorem outstanding_finished (h : p.Finished) : p.outstanding = 0 := by
  refine Finset.sum_eq_zero fun j hj => ?_
  rw [h j (Finset.mem_range.1 hj)]
  rfl

theorem withinLimits_select (session : Session) (trials : ℕ) :
    WithinLimits (.select session trials) ∧
      (PlanningState.select session trials).outstanding = 0 ∧
      (PlanningState.select session trials).trials = trials ∧
      (PlanningState.select session trials).session = session := by
  unfold PlanningState.select
  split
  · rename_i w hw
    refine ⟨⟨fun j hj => if_neg (not_lt.2 hj), fun j c hj => ?_⟩, ?_, rfl, rfl⟩
    · have hj : (if j < w.subgraphIds.length then CoroutinePhase.waiting else .finished) =
          .running c := hj
      split_ifs at hj
    · refine Finset.sum_eq_zero fun j hj => ?_
      have hj : j ∈ Finset.range w.subgraphIds.length := hj
      show CoroutinePhase.allowance (if j < w.subgraphIds.length then .waiting else .finished) = 0
      rw [if_pos (Finset.mem_range.1 hj)]
      rfl
  · exact ⟨⟨fun _ _ => rfl, fun j c hj => nomatch hj⟩, rfl, rfl, rfl⟩

/-- A node after the planning keeps the configuration. -/
theorem NodeStep.config_eq {session session' : Session} {pc pc' : Pc} {e : Event} {eff : Effects}
    (h : NodeStep env session pc e session' pc' eff) : session'.config = session.config := by
  cases h with
  | writeManifest => rfl
  | saveInitial => rfl
  | start h =>
    rcases Session.startIteration_ok h with rfl | ⟨_, _, -, rfl⟩
    · rfl
    · rfl
  | select h => exact (Session.sameBooks_selectActiveSubgraphs h).config
  | plan => rfl
  | degrade => rfl
  | coordinate => exact (Session.sameWindow_aggregatePlans _ _).config
  | skip => exact (Session.sameWindow_skip _).config
  | execute => rfl
  | publish _ _ h =>
    obtain ⟨-, rfl⟩ := Session.publishCurrent_ok h
    rfl
  | updateBest h =>
    obtain ⟨_, -, ⟨-, rfl⟩ | ⟨-, rfl⟩⟩ := Session.publishBest_ok h
    · rfl
    · rfl
  | settle => rfl
  | account => rfl
  | saveCommit => rfl
  | refreshCommitted => rfl
  | refresh => rfl
  | finish h =>
    obtain ⟨_, rfl⟩ := Session.countIteration_ok h
    rfl
  | saveIteration => rfl
  | nextIteration => rfl

/-- The configuration of an iteration is fixed. -/
theorem IterationStep.config_eq {e : IterationEvent} (h : IterationStep env s e s') :
    s'.planning.session.config = s.planning.session.config := by
  cases h with
  | @select p pc pc' session' graph subgraphs eff hnode =>
    obtain ⟨-, -, -, hsession⟩ := withinLimits_select session' p.trials
    show (PlanningState.select session' p.trials).session.config = _
    rw [hsession, hnode.config_eq]
  | planning hplanning =>
    cases hplanning with
    | start _ _ _ => rfl
    | trial _ => rfl
    | planned _ _ => rfl
    | degraded _ => rfl
    | raised _ => rfl
  | coordinate _ _ _ _ _ => exact (Session.sameWindow_aggregatePlans _ _).config
  | coordinateRaises _ _ _ _ _ => rfl
  | noCandidates _ _ => exact (Session.sameWindow_aggregatePlans _ _).config
  | node _ hnode => exact hnode.config_eq

/-- Planners that respect their limits stay within them. -/
theorem WithinLimits.planning {e : PlanningEvent} {pc : Pc} (h : WithinLimits p)
    (hlimits : RespectsLimits ⟨pc, p, false⟩ (.planning e)) (hstep : PlanningStep p e p') :
    WithinLimits p' := by
  have hlt : ∀ {j : ℕ} {phase' : CoroutinePhase}, p.phase j = phase' → phase' ≠ .finished →
      j < p.tasks := fun hphase hne => h.lt_tasks (by rw [hphase]; exact hne)
  cases hstep with
  | start _ _ hphase =>
    refine h.update _ _ (hlt hphase nofun) fun c hc => ?_
    obtain rfl := CoroutinePhase.running.inj hc
    show ((0 : ℕ) : ℤ) ≤ p.session.sandboxJobLimit
    exact le_max_right _ _
  | @trial k c hphase =>
    have hless : (c.ownTrials : ℤ) < c.sandboxJobLimit := hlimits c hphase
    refine h.update _ _ (hlt hphase nofun) fun c' hc' => ?_
    obtain rfl := CoroutinePhase.running.inj hc'
    show ((c.ownTrials + 1 : ℕ) : ℤ) ≤ c.sandboxJobLimit
    omega
  | planned hphase _ => exact h.update _ _ (hlt hphase nofun) fun _ hc => nomatch hc
  | degraded hphase => exact h.update _ _ (hlt hphase nofun) fun _ hc => nomatch hc
  | raised hphase => exact h.update _ _ (hlt hphase nofun) fun _ hc => nomatch hc

theorem WithinLimits.step {e : IterationEvent} (h : WithinLimits s.planning)
    (hlimits : RespectsLimits s e) (hstep : IterationStep env s e s') :
    WithinLimits s'.planning := by
  cases hstep with
  | select _ => exact (withinLimits_select _ _).1
  | planning hplanning => exact h.planning hlimits hplanning
  | coordinate _ _ _ _ _ => exact ⟨h.beyond, h.within⟩
  | coordinateRaises _ _ _ _ _ => exact ⟨h.beyond, h.within⟩
  | noCandidates _ _ => exact ⟨h.beyond, h.within⟩
  | node _ _ => exact ⟨h.beyond, h.within⟩

/-! ## The budget over an iteration -/

/-- The trials executed and those still allowed to planners in flight. -/
def PlanningState.committed (p : PlanningState) : ℤ := p.trials + p.outstanding

/-- What was committed since `s₀` stays within the budget. -/
def BudgetKept (s₀ s : IterationState) : Prop :=
  s₀.planning.session.iterationSandboxJobsUsed + (s.planning.committed - s₀.planning.trials) ≤
    max s₀.planning.session.config.sandboxMaxJobsPerIteration
      s₀.planning.session.iterationSandboxJobsUsed

/-- A step that commits no more than before keeps the budget. -/
theorem BudgetKept.of_le (h : BudgetKept s₀ s)
    (hle : s'.planning.committed ≤ s.planning.committed) : BudgetKept s₀ s' := by
  unfold BudgetKept at h ⊢
  omega

/-- What is committed after one coroutine changes its phase. -/
theorem committed_update (hwithin : WithinLimits p) (hphase : p.phase k ≠ .finished)
    (session : Session) (trials : ℕ) (phase' : CoroutinePhase) :
    PlanningState.committed ⟨session, trials, p.tasks, update p.phase k phase'⟩ =
      trials + (p.outstanding - (p.phase k).allowance + phase'.allowance) := by
  rw [← outstanding_update session trials (hwithin.lt_tasks hphase)]
  rfl

/-- A coroutine that ends gives up what it was still allowed. -/
theorem committed_ends_le (hwithin : WithinLimits p) {c : Coroutine}
    (hphase : p.phase k = .running c) (session : Session) :
    PlanningState.committed ⟨session, p.trials, p.tasks, update p.phase k .finished⟩ ≤
      p.committed := by
  rw [committed_update hwithin (by rw [hphase]; nofun)]
  have hnonneg := hwithin.allowance_nonneg k
  show (p.trials : ℤ) + (p.outstanding - (p.phase k).allowance + 0) ≤ p.trials + p.outstanding
  omega

/-- A limit is what the counter leaves of the budget. -/
theorem sandboxJobLimit_cases (session : Session) :
    session.sandboxJobLimit = 0 ∨ session.sandboxJobLimit =
      session.config.sandboxMaxJobsPerIteration - session.iterationSandboxJobsUsed := by
  unfold Session.sandboxJobLimit
  omega

/-- One step of a planner. -/
theorem BudgetKept.planning {e : PlanningEvent} (h : BudgetKept s₀ ⟨.planning, p, false⟩)
    (hwithin : WithinLimits p)
    (hconfig : p.session.config = s₀.planning.session.config)
    (hcovers : CounterCovers s₀ ⟨.planning, p, false⟩ (.planning e)) (hstep : PlanningStep p e p') :
    BudgetKept s₀ ⟨.planning, p', false⟩ := by
  cases hstep with
  | @start k w subgraphId hwindow hid hphase =>
    have hlimit := sandboxJobLimit_cases p.session
    rw [hconfig] at hlimit
    have hcovers : p.session.sandboxJobLimit = 0 ∨
      (p.trials : ℤ) - s₀.planning.trials + p.outstanding ≤
        p.session.iterationSandboxJobsUsed -
          s₀.planning.session.iterationSandboxJobsUsed := hcovers
    have hbudget : s₀.planning.session.iterationSandboxJobsUsed +
      (((p.trials : ℤ) + p.outstanding) - s₀.planning.trials) ≤ _ := h
    show s₀.planning.session.iterationSandboxJobsUsed +
      (PlanningState.committed ⟨p.session, p.trials, p.tasks, _⟩ - _) ≤ _
    rw [committed_update hwithin (by rw [hphase]; nofun), hphase]
    show _ + ((p.trials : ℤ) + (p.outstanding - 0 + (p.session.sandboxJobLimit - (0 : ℕ))) - _) ≤ _
    omega
  | @trial k c hphase =>
    refine h.of_le ?_
    show PlanningState.committed ⟨p.session, p.trials + 1, p.tasks, _⟩ ≤ p.committed
    rw [committed_update hwithin (by rw [hphase]; nofun), hphase]
    show ((p.trials + 1 : ℕ) : ℤ) + (p.outstanding - (c.sandboxJobLimit - c.ownTrials) +
      (c.sandboxJobLimit - (c.ownTrials + 1 : ℕ))) ≤ p.trials + p.outstanding
    omega
  | planned hphase _ => exact h.of_le (committed_ends_le hwithin hphase _)
  | degraded hphase => exact h.of_le (committed_ends_le hwithin hphase _)
  | raised hphase => exact h.of_le (committed_ends_le hwithin hphase _)

/-- The coordination stays within what it is given. -/
theorem BudgetKept.coordinate (h : BudgetKept s₀ ⟨.planning, p, false⟩)
    (hconfig : p.session.config = s₀.planning.session.config) {cenv : CoordinationEnv}
    {input : CoordinationInput} {executed : ℕ}
    (hcovers : CounterCovers s₀ ⟨.planning, p, false⟩ (.coordinate cenv input executed))
    (hdone : p.Finished) (hinput : p.session.Coordinates input)
    (hexecuted : executed ≤ (coordinateActiveWindow cenv input).calls.length) {pc : Pc}
    {session : Session} (aborted : Bool) :
    BudgetKept s₀ ⟨pc, ⟨session, p.trials + executed, p.tasks, p.phase⟩, aborted⟩ := by
  have hlimit := sandboxJobLimit_cases p.session
  rw [hconfig] at hlimit
  have hcalls : ((coordinateActiveWindow cenv input).calls.length : ℤ) ≤ p.session.sandboxJobLimit := by
    rw [← hinput.remaining]
    refine (coordinateWith_sound ?_ _).affordable
    rw [hinput.remaining]
    exact le_max_right _ _
  have hcovers : p.session.sandboxJobLimit = 0 ∨ (p.trials : ℤ) - s₀.planning.trials ≤
    p.session.iterationSandboxJobsUsed - s₀.planning.session.iterationSandboxJobsUsed := hcovers
  have hbudget : s₀.planning.session.iterationSandboxJobsUsed +
    (((p.trials : ℤ) + p.outstanding) - s₀.planning.trials) ≤ _ := h
  show s₀.planning.session.iterationSandboxJobsUsed +
    (((p.trials + executed : ℕ) : ℤ) + p.outstanding - s₀.planning.trials) ≤ _
  rw [outstanding_finished hdone] at hbudget ⊢
  omega

/-- **One step of an iteration.** -/
theorem BudgetKept.step {e : IterationEvent} (h : BudgetKept s₀ s)
    (hwithin : WithinLimits s.planning)
    (hconfig : s.planning.session.config = s₀.planning.session.config)
    (hcovers : CounterCovers s₀ s e) (hstep : IterationStep env s e s') : BudgetKept s₀ s' := by
  cases hstep with
  | @select p pc pc' session' graph subgraphs eff hnode =>
    obtain ⟨-, hnone, htrials, -⟩ := withinLimits_select session' p.trials
    have hnonneg : 0 ≤ p.outstanding := hwithin.outstanding_nonneg
    refine h.of_le ?_
    show ((PlanningState.select session' p.trials).trials : ℤ) +
      (PlanningState.select session' p.trials).outstanding ≤ p.trials + p.outstanding
    rw [hnone, htrials]
    omega
  | planning hplanning => exact h.planning hwithin hconfig hcovers hplanning
  | coordinate hdone _ hinput _ hexecuted =>
    exact h.coordinate hconfig hcovers hdone hinput hexecuted false
  | coordinateRaises hdone _ hinput _ hexecuted =>
    exact h.coordinate hconfig hcovers hdone hinput hexecuted true
  | noCandidates _ _ => exact h
  | node _ _ => exact h

/-- The start of an iteration, before its first window, or of the rest of one. -/
def IterationState.opened (session : Session) (trials : ℕ) : IterationState where
  pc := .selecting
  planning := { session := session, trials := trials, tasks := 0, phase := fun _ => .finished }

theorem withinLimits_opened (session : Session) (trials : ℕ) :
    WithinLimits (IterationState.opened session trials).planning where
  beyond := fun _ _ => rfl
  within := by
    intro j c hc
    cases hc

/-- The runs of an iteration in which every planner respects its limit. -/
abbrev IterationRun (env : RunEnv) : IterationState → List IterationEvent → IterationState → Prop :=
  Run (Guarded RespectsLimits (IterationStep env))

theorem IterationRun.within {session : Session} {trials : ℕ} {tr : List IterationEvent}
    (h : IterationRun env (.opened session trials) tr s) :
    WithinLimits s.planning ∧ s.planning.session.config = session.config := by
  refine h.guarded_invariant
    (fun s => WithinLimits s.planning ∧ s.planning.session.config = session.config)
    ⟨withinLimits_opened session trials, rfl⟩ ?_
  intro s e s' hinv hlimits hstep
  exact ⟨hinv.1.step hlimits hstep, hstep.config_eq.trans hinv.2⟩

/-- **The sandbox budget of an iteration.**  Whatever the windows of the iteration and
the order of their planners' steps: if every planner respects its limit, and the
counter covers the trials wherever a limit is computed, the trials executed never
exceed what was left of the budget. -/
theorem sandbox_budget_kept (env : RunEnv) (session : Session) (trials : ℕ)
    (tr : List IterationEvent) (s : IterationState)
    (hrun : Run
      (Guarded (fun s e => RespectsLimits s e ∧ CounterCovers (.opened session trials) s e)
        (IterationStep env)) (.opened session trials) tr s) :
    (s.planning.trials : ℤ) - trials ≤
      max (session.config.sandboxMaxJobsPerIteration - session.iterationSandboxJobsUsed) 0 := by
  have hkept : (WithinLimits s.planning ∧ s.planning.session.config = session.config) ∧
      BudgetKept (.opened session trials) s := by
    refine hrun.guarded_invariant
      (fun s => (WithinLimits s.planning ∧ s.planning.session.config = session.config) ∧
        BudgetKept (.opened session trials) s) ?_ ?_
    · refine ⟨⟨withinLimits_opened session trials, rfl⟩, ?_⟩
      show session.iterationSandboxJobsUsed + ((trials : ℤ) + 0 - trials) ≤
        max session.config.sandboxMaxJobsPerIteration session.iterationSandboxJobsUsed
      omega
    · rintro s e s' ⟨⟨hwithin, hconfig⟩, hbudget⟩ hguard hstep
      exact ⟨⟨hwithin.step hguard.1 hstep, hstep.config_eq.trans hconfig⟩,
        hbudget.step hwithin hconfig hguard.2 hstep⟩
  have hnonneg := hkept.1.1.outstanding_nonneg
  have hbudget : session.iterationSandboxJobsUsed +
    ((s.planning.trials : ℤ) + s.planning.outstanding - trials) ≤
      max session.config.sandboxMaxJobsPerIteration session.iterationSandboxJobsUsed := hkept.2
  omega

/-! ## Where the counter does not cover -/

/-- Planners in flight may use up their limits. -/
theorem exhaust (env : RunEnv) (hwithin : WithinLimits p) :
    ∃ tr p', IterationRun env ⟨.planning, p, false⟩ tr ⟨.planning, p', false⟩ ∧
      (p'.trials : ℤ) = p.trials + p.outstanding := by
  obtain ⟨n, hn⟩ : ∃ n : ℕ, p.outstanding = n :=
    ⟨p.outstanding.toNat, (Int.toNat_of_nonneg hwithin.outstanding_nonneg).symm⟩
  induction n generalizing p with
  | zero => exact ⟨[], p, .start, by rw [hn, Nat.cast_zero, add_zero]⟩
  | succ n ih =>
    have hne : p.outstanding ≠ 0 := by omega
    obtain ⟨k, -, hk⟩ := Finset.exists_ne_zero_of_sum_ne_zero hne
    obtain ⟨c, hphase⟩ : ∃ c, p.phase k = .running c := by
      cases hphase : p.phase k with
      | running c => exact ⟨c, rfl⟩
      | waiting => exact absurd (by rw [hphase]; rfl) hk
      | finished => exact absurd (by rw [hphase]; rfl) hk
    have hle := hwithin.within k c hphase
    rw [hphase] at hk
    have hk : c.sandboxJobLimit - c.ownTrials ≠ 0 := hk
    have hlimits : RespectsLimits ⟨.planning, p, false⟩ (.planning (.trial k)) := by
      intro c' hc'
      have hc' : p.phase k = .running c' := hc'
      rw [hphase] at hc'
      obtain rfl := CoroutinePhase.running.inj hc'
      omega
    have htrial := PlanningStep.trial hphase
    have hleft : PlanningState.outstanding ⟨p.session, p.trials + 1, p.tasks,
        update p.phase k (.running { c with ownTrials := c.ownTrials + 1 })⟩ = (n : ℤ) := by
      rw [outstanding_update _ _ (hwithin.lt_tasks (by rw [hphase]; nofun)), hphase]
      show p.outstanding - (c.sandboxJobLimit - c.ownTrials) +
        (c.sandboxJobLimit - (c.ownTrials + 1 : ℕ)) = n
      omega
    obtain ⟨tr, p', hrun, htrials⟩ := ih (hwithin.planning hlimits htrial) hleft
    refine ⟨.planning (.trial k) :: tr, p', (Run.single ⟨hlimits, .planning htrial⟩).trans hrun, ?_⟩
    rw [htrials, hleft]
    show ((p.trials + 1 : ℕ) : ℤ) + n = _
    omega

/-- **The converse for the planners.**  After any run, a planner that starts where the
counter does not cover the trials can take the iteration over its budget. -/
theorem sandbox_budget_exceeded (env : RunEnv) (session : Session) (trials : ℕ)
    (tr : List IterationEvent) (p p' : PlanningState) (k : ℕ)
    (hrun : IterationRun env (.opened session trials) tr ⟨.planning, p, false⟩)
    (hstart : PlanningStep p (.start k) p')
    (hover : ¬ CounterCovers (.opened session trials) ⟨.planning, p, false⟩ (.planning (.start k))) :
    ∃ tr' s, IterationRun env ⟨.planning, p, false⟩ (.planning (.start k) :: tr') s ∧
      session.config.sandboxMaxJobsPerIteration <
        session.iterationSandboxJobsUsed + ((s.planning.trials : ℤ) - trials) := by
  obtain ⟨hwithin, hconfig⟩ := hrun.within
  have hwithin : WithinLimits p := hwithin
  have hconfig : p.session.config = session.config := hconfig
  have hlimits : RespectsLimits ⟨.planning, p, false⟩ (.planning (.start k)) := trivial
  obtain ⟨tr', p'', hrun', htrials⟩ := exhaust env (hwithin.planning hlimits hstart)
  refine ⟨tr', _, (Run.single ⟨hlimits, .planning hstart⟩).trans hrun', ?_⟩
  have hlimit := sandboxJobLimit_cases p.session
  rw [hconfig] at hlimit
  have hover : ¬ (p.session.sandboxJobLimit = 0 ∨ (p.trials : ℤ) - trials + p.outstanding ≤
    p.session.iterationSandboxJobsUsed - session.iterationSandboxJobsUsed) := hover
  cases hstart with
  | start _ _ hphase =>
    have hsum : (p''.trials : ℤ) = p.trials + PlanningState.outstanding
      ⟨p.session, p.trials, p.tasks, _⟩ := htrials
    rw [outstanding_update _ _ (hwithin.lt_tasks (by rw [hphase]; nofun)), hphase] at hsum
    have hsum : (p''.trials : ℤ) =
      p.trials + (p.outstanding - 0 + (p.session.sandboxJobLimit - (0 : ℕ))) := hsum
    show _ < _ + ((p''.trials : ℤ) - trials)
    omega

/-! ## Two planners at once -/

instance (s : IterationState) (e : IterationEvent) : Decidable (RespectsLimits s e) :=
  match s, e with
  | ⟨_, p, _⟩, .planning (.trial k) =>
    decidable_of_iff
      (∀ c ∈ (p.phase k).coroutine?.toList, (c.ownTrials : ℤ) < c.sandboxJobLimit)
      ⟨fun h c hc => h c (mem_toList.2 (coroutine?_eq_some.2 hc)),
        fun h c hc => h c (coroutine?_eq_some.1 (mem_toList.1 hc))⟩
  | _, .select _ _ => .isTrue trivial
  | _, .planning (.start _) => .isTrue trivial
  | _, .planning (.planned _ _) => .isTrue trivial
  | _, .planning (.degraded _ _ _) => .isTrue trivial
  | _, .planning (.raised _) => .isTrue trivial
  | _, .coordinate _ _ _ => .isTrue trivial
  | _, .noCandidates => .isTrue trivial
  | _, .node _ => .isTrue trivial

instance (s₀ s : IterationState) (e : IterationEvent) : Decidable (CounterCovers s₀ s e) :=
  match s, e with
  | ⟨_, _, _⟩, .planning (.start _) => inferInstanceAs (Decidable (_ ∨ _))
  | ⟨_, _, _⟩, .coordinate _ _ _ => inferInstanceAs (Decidable (_ ∨ _))
  | _, .select _ _ => .isTrue trivial
  | _, .planning (.trial _) => .isTrue trivial
  | _, .planning (.planned _ _) => .isTrue trivial
  | _, .planning (.degraded _ _ _) => .isTrue trivial
  | _, .planning (.raised _) => .isTrue trivial
  | _, .noCandidates => .isTrue trivial
  | _, .node _ => .isTrue trivial

/-- The steps of the selection and of the planning, computed. -/
def windowNext (env : RunEnv) : IterationState → IterationEvent → Option IterationState
  | ⟨.selecting, p, false⟩, .select graph subgraphs =>
    match p.session.selectActiveSubgraphs env graph subgraphs with
    | .ok session' => some
        ⟨if session'.activeWindow.isSome then .planning else .finishing,
          .select session' p.trials, false⟩
    | .error _ => none
  | ⟨.planning, p, false⟩, .planning e => (planningNext p e).map (⟨.planning, ·, false⟩)
  | _, _ => none

theorem windowNext_sound {e : IterationEvent} (h : windowNext env s e = some s') :
    IterationStep env s e s' := by
  unfold windowNext at h
  split at h
  · split at h
    · rename_i hselect
      obtain rfl := some.inj h
      exact .select (.select hselect)
    · cases h
  · obtain ⟨p', hp', rfl⟩ := map_eq_some_iff.1 h
    exact .planning (planningNext_sound hp')
  · cases h

/-- An iteration with a budget of three trials, for a frontier of two violations. -/
def tightSession : Session :=
  { sampleRunEnv.freshSession with
    config := { sampleConfig with sandboxMaxJobsPerIteration := 3 }
    violations := [⟨"v1", "rule"⟩, ⟨"v2", "rule"⟩]
    iterationFrontier := {"v1", "v2"} }

/-- The selection of a window of two linked subgraphs. -/
def tightSelect : IterationEvent :=
  .select
    { edges := [{ edgeId := "e1", u := "r1", v := "r2", hard := true }]
      regions := [("r1", ["v1"]), ("r2", ["v2"])] }
    [{ subgraphId := "A", regionIds := ["r1"] }, { subgraphId := "B", regionIds := ["r2"] }]

/-- One planner after the other. -/
def sequentialPlanners : List IterationEvent :=
  [tightSelect, .planning (.start 0), .planning (.trial 0), .planning (.trial 0),
    .planning (.planned 0 { subgraphId := "A" }), .planning (.start 1), .planning (.trial 1),
    .planning (.planned 1 { subgraphId := "B" })]

/-- The second planner gets what the first left: the budget is used up and kept. -/
theorem sandbox_budget_kept_sequential :
    ∃ s, IterationRun sampleRunEnv (.opened tightSession 5) sequentialPlanners s ∧
      s.planning.trials = 8 ∧
      (s.planning.trials : ℤ) - 5 ≤ max (tightSession.config.sandboxMaxJobsPerIteration -
        tightSession.iterationSandboxJobsUsed) 0 := by
  have hplay : ∃ s, play
      (guardNext (fun s e => RespectsLimits s e ∧ CounterCovers (.opened tightSession 5) s e)
        (windowNext sampleRunEnv)) (.opened tightSession 5) sequentialPlanners = some s ∧
      decide (s.planning.trials = 8) = true := by
    rw [← Option.any_eq_true]
    decide +kernel
  obtain ⟨s, hplay, htrials⟩ := hplay
  have hrun := guarded_of_play (fun _ _ _ => windowNext_sound) hplay
  exact ⟨s, hrun.weaken fun _ _ _ h => ⟨h.1.1, h.2⟩, of_decide_eq_true htrials,
    sandbox_budget_kept sampleRunEnv tightSession 5 _ s hrun⟩

/-- Two planners that start together. -/
def overlappingPlanners : List IterationEvent :=
  [tightSelect, .planning (.start 0), .planning (.start 1), .planning (.trial 0),
    .planning (.trial 0), .planning (.trial 0), .planning (.trial 1), .planning (.trial 1),
    .planning (.trial 1), .planning (.planned 0 { subgraphId := "A" }),
    .planning (.planned 1 { subgraphId := "B" })]

/-- Each gets the whole budget of three trials, and together they execute six. -/
theorem sandbox_budget_overrun :
    tightSession.iterationSandboxJobsUsed = 0 ∧
      tightSession.config.sandboxMaxJobsPerIteration = 3 ∧
      ∃ s, IterationRun sampleRunEnv (.opened tightSession 0) overlappingPlanners s ∧
        s.planning.trials = 6 := by
  have hplay : ∃ s, play (guardNext RespectsLimits (windowNext sampleRunEnv))
      (.opened tightSession 0) overlappingPlanners = some s ∧
      decide (s.planning.trials = 6) = true := by
    rw [← Option.any_eq_true]
    decide +kernel
  obtain ⟨s, hplay, htrials⟩ := hplay
  exact ⟨rfl, rfl, s, guarded_of_play (fun _ _ _ => windowNext_sound) hplay,
    of_decide_eq_true htrials⟩

end Budget

end DRCAgent
