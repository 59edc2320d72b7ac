/-
# How long a process runs

The nodes of the workflow form three nested loops: the iterations of a run, the windows of an
iteration, the nodes of a window. A window is selected below `max_windows_per_iteration` only,
and the iterations go on below `max_iterations` only, whatever the planners, the executor and
the reports say.

So what is ahead of a process bounds what it still does (`NodeStep.paid`): from its start it
accounts for at most `max_iterations * max_windows_per_iteration` windows, and it ends after a
number of nodes in proportion (`process_bounded`).
-/
import DRCAgent.CircuitBreaker

/-! ## The potential rule -/

namespace Runs

universe u v

variable {S : Type u} {L : Type v} {step : S → L → S → Prop} {init s : S} {tr : List L}

/-- Where every step is paid from a potential, the run is. -/
theorem Run.cost_le (cost : L → ℕ) (potential : S → ℕ)
    (hstep : ∀ s l s', step s l s' → cost l + potential s' ≤ potential s)
    (h : Run step init tr s) : (tr.map cost).sum + potential s ≤ potential init := by
  induction h with
  | start => simp
  | next _ hlast ih =>
    have hpaid := hstep _ _ _ hlast
    simp only [List.map_append, List.sum_append, List.map_cons, List.map_nil, List.sum_cons,
      List.sum_nil]
    omega

end Runs

namespace DRCAgent

open Runs

/-! ## What is ahead -/

/-- The iterations that may still be opened. -/
def iterationsAhead (s : Session) : Pc → ℕ
  | .counted => (s.config.maxIterations - s.completedIteration).toNat
  | .stopping => (s.config.maxIterations - s.completedIteration).toNat
  | _ => (s.config.maxIterations - s.completedIteration).toNat - 1

/-- The windows that may still be selected in the iteration at hand. -/
def windowsOfIteration (s : Session) : Pc → ℕ
  | .initializing => s.config.maxWindowsPerIteration
  | .announced => s.config.maxWindowsPerIteration
  | .ready => s.config.maxWindowsPerIteration
  | .finishing => 0
  | .counted => 0
  | .stopping => 0
  | pc => s.config.maxWindowsPerIteration - (s.windowIndex + pc.windowOpen.toNat)

/-- The windows that may still be selected. -/
def windowsAhead (s : Session) (pc : Pc) : ℕ :=
  iterationsAhead s pc * s.config.maxWindowsPerIteration + windowsOfIteration s pc

/-- The nodes up to the next choice of a window, or to the end of the iteration. -/
def nodesOfPass : Pc → ℕ
  | .initializing => 6
  | .announced => 5
  | .ready => 4
  | .selecting => 3
  | .planning => 10
  | .coordinated => 9
  | .executed => 8
  | .publishing => 7
  | .published _ => 6
  | .accounted _ => 5
  | .committed => 4
  | .finishing => 2
  | .counted => 1
  | .stopping => 0

/-- The windows that a process may still account for. -/
def accountsAhead (s : Session) (pc : Pc) : ℕ := windowsAhead s pc + pc.windowOpen.toNat

/-- The nodes that a process may still run. -/
def nodesAhead (s : Session) (pc : Pc) : ℕ :=
  8 * windowsAhead s pc + 5 * iterationsAhead s pc + nodesOfPass pc

/-- A window is accounted for. -/
def Event.accounts : Event → ℕ
  | account => 1
  | _ => 0

/-- An event counts, unless it is the return of a planner. -/
def Event.counts : Event → ℕ
  | plan _ => 0
  | degrade _ _ _ => 0
  | _ => 1

section Potential

variable {env : RunEnv} {s s' : Session} {pc pc' : Pc} {e : Event} {eff : Effects}

/-- A window is selected below the limit only. -/
theorem Session.windowIndex_lt_of_select {graph : AgentGraph} {subgraphs : List AgentSubgraph}
    (h : s.selectActiveSubgraphs env graph subgraphs = .ok s')
    (hwindow : s'.activeWindow.isSome = true) :
    s.windowIndex < s.config.maxWindowsPerIteration := by
  unfold Session.selectActiveSubgraphs at h
  split_ifs at h with hbudget hlimit
  · obtain rfl := Except.ok.inj h
    cases hwindow
  · obtain rfl := Except.ok.inj h
    cases hwindow
  · exact not_le.1 hlimit
  · exact not_le.1 hlimit

theorem Session.windowIndex_select {graph : AgentGraph} {subgraphs : List AgentSubgraph}
    (h : s.selectActiveSubgraphs env graph subgraphs = .ok s') :
    s'.windowIndex = s.windowIndex := by
  rcases Session.selectActiveSubgraphs_ok h with ⟨_, _, _, rfl⟩ | ⟨w, -, rfl⟩ <;> rfl

/-- What a node leaves alone of what the loops count. -/
structure SameCounts (s s' : Session) : Prop where
  config : s'.config = s.config
  completed : s'.completedIteration = s.completedIteration
  windowIndex : s'.windowIndex = s.windowIndex

theorem sameCounts_aggregatePlans (s : Session) (coordination : WindowCoordination) :
    SameCounts s (s.aggregatePlans coordination) := by
  unfold Session.aggregatePlans
  dsimp only
  split_ifs <;> exact ⟨rfl, rfl, rfl⟩

theorem sameCounts_skip (s : Session) :
    SameCounts s { s.prepareTransaction with transactionResult := none } := by
  unfold Session.prepareTransaction
  split_ifs <;> exact ⟨rfl, rfl, rfl⟩

theorem sameCounts_publishBest (h : s.publishBest env = .ok s') : SameCounts s s' := by
  obtain ⟨total, -, ⟨-, rfl⟩ | ⟨-, rfl⟩⟩ := Session.publishBest_ok h <;> exact ⟨rfl, rfl, rfl⟩

/-- A node that opens no iteration is paid by what it leaves ahead in the one at hand. -/
theorem paid_of_sameIterations (hconfig : s'.config = s.config)
    (hahead : iterationsAhead s' pc' = iterationsAhead s pc)
    (hpass : e.counts + 8 * windowsOfIteration s' pc' + nodesOfPass pc' ≤
      8 * windowsOfIteration s pc + nodesOfPass pc)
    (hopen : e.accounts + windowsOfIteration s' pc' + pc'.windowOpen.toNat ≤
      windowsOfIteration s pc + pc.windowOpen.toNat) :
    e.counts + nodesAhead s' pc' ≤ nodesAhead s pc ∧
      e.accounts + accountsAhead s' pc' ≤ accountsAhead s pc := by
  simp only [nodesAhead, accountsAhead, windowsAhead, hahead, hconfig]
  omega

/-- The same where what the loops count is left alone. -/
theorem SameCounts.paid (h : SameCounts s s')
    (hahead : iterationsAhead s pc' = iterationsAhead s pc)
    (hwindows : windowsOfIteration s pc' ≤ windowsOfIteration s pc)
    (hpass : e.counts + nodesOfPass pc' ≤ nodesOfPass pc)
    (hopen : e.accounts + pc'.windowOpen.toNat ≤ pc.windowOpen.toNat) :
    e.counts + nodesAhead s' pc' ≤ nodesAhead s pc ∧
      e.accounts + accountsAhead s' pc' ≤ accountsAhead s pc := by
  have hiterations : iterationsAhead s' pc' = iterationsAhead s pc := by
    rw [← hahead]
    cases pc' <;> simp only [iterationsAhead, h.config, h.completed]
  have hwindows' : windowsOfIteration s' pc' = windowsOfIteration s pc' := by
    cases pc' <;> simp only [windowsOfIteration, h.config, h.windowIndex]
  refine paid_of_sameIterations h.config hiterations ?_ ?_
  · rw [hwindows']
    omega
  · rw [hwindows']
    omega

/-- The choice of a window, or of none. -/
theorem paid_select {graph : AgentGraph} {subgraphs : List AgentSubgraph}
    (h : s.selectActiveSubgraphs env graph subgraphs = .ok s') :
    (Event.select graph subgraphs).counts +
        nodesAhead s' (if s'.activeWindow.isSome then .planning else .finishing) ≤
        nodesAhead s .selecting ∧
      (Event.select graph subgraphs).accounts +
        accountsAhead s' (if s'.activeWindow.isSome then .planning else .finishing) ≤
        accountsAhead s .selecting := by
  have hbooks := Session.sameBooks_selectActiveSubgraphs h
  have hindex := Session.windowIndex_select h
  by_cases hwindow : s'.activeWindow.isSome = true
  · have hlt := Session.windowIndex_lt_of_select h hwindow
    rw [if_pos hwindow]
    refine paid_of_sameIterations hbooks.config ?_ ?_ ?_
    · simp only [iterationsAhead, hbooks.config, hbooks.completed]
    · simp only [windowsOfIteration, hbooks.config, hindex, Pc.windowOpen, Event.counts,
        nodesOfPass, Bool.toNat_true, Bool.toNat_false]
      omega
    · simp only [windowsOfIteration, hbooks.config, hindex, Pc.windowOpen, Event.accounts,
        Bool.toNat_true, Bool.toNat_false]
      omega
  · rw [if_neg hwindow]
    refine paid_of_sameIterations hbooks.config ?_ ?_ ?_
    · simp only [iterationsAhead, hbooks.config, hbooks.completed]
    · simp only [windowsOfIteration, Event.counts, nodesOfPass]
      omega
    · exact Nat.zero_le _

/-- The start of an iteration, or of the rest of one that was interrupted. -/
theorem paid_start {violations : List Violation} (h : s.startIteration env violations = .ok s') :
    (Event.start violations).counts + nodesAhead s' .selecting ≤ nodesAhead s .ready ∧
      (Event.start violations).accounts + accountsAhead s' .selecting ≤ accountsAhead s .ready := by
  have hstart : s'.config = s.config ∧ s'.completedIteration = s.completedIteration := by
    rcases Session.startIteration_ok h with rfl | ⟨total, frontier, -, rfl⟩
    · exact ⟨rfl, rfl⟩
    · exact ⟨rfl, rfl⟩
  refine paid_of_sameIterations hstart.1 ?_ ?_ ?_
  · simp only [iterationsAhead, hstart.1, hstart.2]
  · simp only [windowsOfIteration, hstart.1, Event.counts, nodesOfPass]
    omega
  · simp only [windowsOfIteration, hstart.1, Event.accounts, Pc.windowOpen, Bool.toNat_false]
    omega

/-- The next iteration is opened below the limit only. -/
theorem paid_nextIteration {timeUp : Bool}
    (h : s.checkStoppingCondition env timeUp = .ok .continue_) :
    (Event.nextIteration timeUp).counts + nodesAhead s .ready ≤ nodesAhead s .stopping ∧
      (Event.nextIteration timeUp).accounts + accountsAhead s .ready ≤
        accountsAhead s .stopping := by
  have hmore : (s.completedIteration : ℤ) < s.config.maxIterations := by
    obtain ⟨residual, -, hstatus⟩ := except_bind_ok h
    have hstatus := Except.ok.inj hstatus
    unfold stoppingCondition at hstatus
    split_ifs at hstatus with _ _ _ _ hlimit
    exact not_le.1 hlimit
  obtain ⟨more, hahead⟩ : ∃ more,
      (s.config.maxIterations - s.completedIteration).toNat = more + 1 :=
    Nat.exists_eq_add_one_of_ne_zero (by omega)
  simp only [nodesAhead, accountsAhead, windowsAhead, iterationsAhead, windowsOfIteration, hahead,
    Nat.add_sub_cancel, Nat.succ_mul, Event.counts, Event.accounts, nodesOfPass, Pc.windowOpen]
  omega

/-- **Every node is paid** from what is ahead of the process. -/
theorem NodeStep.paid (h : NodeStep env s pc e s' pc' eff) :
    e.counts + nodesAhead s' pc' ≤ nodesAhead s pc ∧
      e.accounts + accountsAhead s' pc' ≤ accountsAhead s pc := by
  have hsame : SameCounts s s := ⟨rfl, rfl, rfl⟩
  cases h with
  | writeManifest =>
    have hcounts : SameCounts s { s with manifest := s.initializedManifest } := ⟨rfl, rfl, rfl⟩
    split_ifs
    · exact hcounts.paid rfl le_rfl (by decide) le_rfl
    · exact hcounts.paid rfl le_rfl (by decide) le_rfl
  | saveInitial => exact hsame.paid rfl le_rfl (by decide) le_rfl
  | start hstart => exact paid_start hstart
  | select hselect => exact paid_select hselect
  | plan => exact SameCounts.paid ⟨rfl, rfl, rfl⟩ rfl le_rfl (Nat.zero_add _).le le_rfl
  | degrade => exact SameCounts.paid ⟨rfl, rfl, rfl⟩ rfl le_rfl (Nat.zero_add _).le le_rfl
  | coordinate =>
    exact (sameCounts_aggregatePlans _ _).paid rfl le_rfl (by simp [Event.counts, nodesOfPass])
      le_rfl
  | skip _ => exact (sameCounts_skip _).paid rfl le_rfl (by decide) le_rfl
  | execute _ _ _ =>
    exact SameCounts.paid ⟨rfl, rfl, rfl⟩ rfl le_rfl (by simp [Event.counts, nodesOfPass]) le_rfl
  | publish _ _ hpublish =>
    obtain ⟨-, rfl⟩ := Session.publishCurrent_ok hpublish
    exact SameCounts.paid ⟨rfl, rfl, rfl⟩ rfl le_rfl (by decide) le_rfl
  | updateBest hbest =>
    exact (sameCounts_publishBest hbest).paid rfl le_rfl (by decide) le_rfl
  | settle _ => exact hsame.paid rfl le_rfl (by simp [Event.counts, nodesOfPass]) le_rfl
  | account _ =>
    refine paid_of_sameIterations rfl rfl ?_ ?_
    · simp [windowsOfIteration, Session.accountWindow, Pc.windowOpen, Event.counts, nodesOfPass]
      omega
    · simp [windowsOfIteration, Session.accountWindow, Pc.windowOpen, Event.accounts]
      omega
  | saveCommit => exact hsame.paid rfl le_rfl (by decide) le_rfl
  | refreshCommitted =>
    exact SameCounts.paid ⟨rfl, rfl, rfl⟩ rfl le_rfl (by simp [Event.counts, nodesOfPass]) le_rfl
  | refresh _ => exact hsame.paid rfl le_rfl (by simp [Event.counts, nodesOfPass]) le_rfl
  | finish hcount =>
    obtain ⟨noProgress, rfl⟩ := Session.countIteration_ok hcount
    refine paid_of_sameIterations rfl ?_ le_rfl le_rfl
    simp only [iterationsAhead, Session.iteration]
    omega
  | saveIteration _ => exact hsame.paid rfl le_rfl (by decide) le_rfl
  | nextIteration hcontinue => exact paid_nextIteration hcontinue

end Potential

/-! ## Runs of a process -/

/-- What a process still does, in nodes and its own end. -/
def RunState.nodesAhead (st : RunState) : ℕ :=
  (st.proc.map fun p => DRCAgent.nodesAhead p.session p.pc + 1).getD 0

/-- The windows that a process may still account for. -/
def RunState.accountsAhead (st : RunState) : ℕ :=
  (st.proc.map fun p => DRCAgent.accountsAhead p.session p.pc).getD 0

/-- An event of a process counts, unless it is the return of a planner. -/
def Event.stepCount : Event → ℕ
  | authorizeAndDie _ => 0
  | e => e.counts

section Runs

variable {env : RunEnv} {st st' : RunState} {e : Event} {tr : List Event}

/-- Every step of a process is paid. -/
theorem Step.paid (hsame : SameProcess st e) (h : Step env st e st') :
    e.stepCount + st'.nodesAhead ≤ st.nodesAhead ∧
      e.accounts + st'.accountsAhead ≤ st.accountsAhead := by
  cases h with
  | node h =>
    obtain ⟨hnodes, haccounts⟩ := h.paid
    have hcount : ∀ e : Event, e.stepCount ≤ e.counts := by
      intro e
      cases e <;> simp [Event.stepCount, Event.counts]
    have hle := hcount e
    exact ⟨(Nat.add_le_add_right hle _).trans (Nat.add_le_add_right hnodes 1), haccounts⟩
  | finalize _ _ => exact ⟨Nat.le_add_left 1 _, Nat.zero_le _⟩
  | abort => exact ⟨Nat.le_add_left 1 _, Nat.zero_le _⟩
  | die => exact ⟨Nat.le_add_left 1 _, Nat.zero_le _⟩
  | resume _ _ => cases hsame
  | authorizeAndDie _ _ => exact ⟨le_rfl, le_rfl⟩

/-- **A process is bounded.**  Without another resume, a process that has just been started,
fresh or resumed, accounts for at most as many windows as its iterations have, and after a
number of events that its limits give, returns of planners apart, it has ended. -/
theorem process_bounded {dir : RunDir} {s : Session} {saved : List SafeBoundary}
    (hrun : Run (Guarded SameProcess (Step env)) ⟨dir, some ⟨s, .initializing, saved⟩⟩ tr st) :
    (tr.map Event.accounts).sum ≤
        max (s.config.maxIterations - s.completedIteration).toNat 1 *
          s.config.maxWindowsPerIteration ∧
      (tr.map Event.stepCount).sum ≤
        max (s.config.maxIterations - s.completedIteration).toNat 1 *
          (8 * s.config.maxWindowsPerIteration + 5) + 2 := by
  have haccounts := hrun.cost_le Event.accounts RunState.accountsAhead
    fun _ _ _ h => (Step.paid h.1 h.2).2
  have hnodes := hrun.cost_le Event.stepCount RunState.nodesAhead
    fun _ _ _ h => (Step.paid h.1 h.2).1
  set more := (s.config.maxIterations - s.completedIteration).toNat with hmore
  set windows := s.config.maxWindowsPerIteration with hwindows
  obtain ⟨others, hothers⟩ : ∃ others, max more 1 = others + 1 :=
    Nat.exists_eq_add_one_of_ne_zero (by omega)
  have hahead : iterationsAhead s .initializing = others := by
    simp only [iterationsAhead, ← hmore]
    omega
  have hstart : RunState.accountsAhead ⟨dir, some ⟨s, .initializing, saved⟩⟩ =
      others * windows + windows := by
    show windowsAhead s .initializing + 0 = _
    rw [windowsAhead, hahead]
    rfl
  have hstart' : RunState.nodesAhead ⟨dir, some ⟨s, .initializing, saved⟩⟩ =
      8 * (others * windows + windows) + 5 * others + 6 + 1 := by
    show DRCAgent.nodesAhead s .initializing + 1 = _
    rw [DRCAgent.nodesAhead, windowsAhead, hahead]
    rfl
  rw [hothers]
  constructor
  · rw [Nat.succ_mul]
    omega
  · have hbound : (others + 1) * (8 * windows + 5) + 2 =
        8 * (others * windows + windows) + 5 * others + 7 := by ring
    rw [hbound]
    omega

/-- The sample run commits its first window. -/
theorem process_bounded_sample : ∃ st,
    Run (Guarded SameProcess (Step sampleRunEnv)) (RunState.fresh sampleRunEnv)
      Event.sampleCommit st ∧
    (Event.sampleCommit.map Event.accounts).sum = 1 ∧
    (Event.sampleCommit.map Event.accounts).sum ≤
      max (sampleConfig.maxIterations - (0 : ℕ)).toNat 1 * sampleConfig.maxWindowsPerIteration := by
  have hplay : (play (guardNext SameProcess (RunState.next sampleRunEnv))
      (RunState.fresh sampleRunEnv) Event.sampleCommit).isSome = true := by decide +kernel
  obtain ⟨st, hplay⟩ := Option.isSome_iff_exists.1 hplay
  have hrun := guarded_of_play (fun _ _ _ => RunState.next_sound) hplay
  exact ⟨st, hrun, rfl, (process_bounded hrun).1⟩

end Runs

end DRCAgent
