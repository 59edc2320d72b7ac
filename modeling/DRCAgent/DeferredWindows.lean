/-
# The window after a deferred window

A window that ends without a commit and with all its claimed targets deferred leaves
the frontier as it was: only attempted and unsupported targets are processed, and
`select_active_window` does not read the deferred set. So the next selection on the
same graph is the same selection, under the next index.

Main results:

* `deferred_window_selected_again`: the next call selects the same subgraphs with the
  same claimed frontier.
* `deferred_windows_repeat`: so does every call after a row of such windows.
-/
import DRCAgent.Workflow

namespace DRCAgent

open Runs

/-! ## What a selection reads -/

/-- A selection under another index and another deferred set differs in its index
and its id. -/
theorem selectActiveWindow_reindexed {stableHash : WindowIdentity → String}
    {req : WindowRequest} {w : ActiveWindow} (windowIndex : ℕ) (deferred : Finset String)
    (h : selectActiveWindow stableHash req = .ok (some w)) :
    ∃ windowId, selectActiveWindow stableHash { req with
        windowIndex := windowIndex, deferredFrontierViolationIds := deferred } =
      .ok (some { w with windowId := windowId, windowIndex := windowIndex }) := by
  obtain ⟨seed, hseed, rfl⟩ := selectActiveWindow_some h
  rw [selectActiveWindow] at h
  split_ifs at h with hpending hmissing
  · cases h
  · refine ⟨(({ req with
        windowIndex := windowIndex, deferredFrontierViolationIds := deferred } :
          WindowRequest).window stableHash (req.selected seed.subgraphId)).windowId, ?_⟩
    have hpending' : ¬ ({ req with
        windowIndex := windowIndex, deferredFrontierViolationIds := deferred } :
          WindowRequest).pending = ∅ := hpending
    have hseed' : ({ req with
        windowIndex := windowIndex, deferredFrontierViolationIds := deferred } :
          WindowRequest).seed = some seed := hseed
    rw [selectActiveWindow, if_neg hpending', if_neg hmissing, hseed']
    rfl

namespace Session

/-- The two sessions ask for the same window, up to the index and the deferred set. -/
structure SameRequest (s s' : Session) : Prop where
  config : s'.config = s.config
  completed : s'.completedIteration = s.completedIteration
  current : s'.currentSnapshot = s.currentSnapshot
  frontier : s'.iterationFrontier = s.iterationFrontier
  processed : s'.processedFrontier = s.processedFrontier
  violations : s'.violations = s.violations

variable {env : RunEnv} {s s' s'' : Session} {graph : AgentGraph}
  {subgraphs : List AgentSubgraph} {w : ActiveWindow}

theorem SameRequest.refl (s : Session) : s.SameRequest s := ⟨rfl, rfl, rfl, rfl, rfl, rfl⟩

theorem SameRequest.trans (h : s.SameRequest s') (h' : s'.SameRequest s'') :
    s.SameRequest s'' :=
  ⟨h'.config.trans h.config, h'.completed.trans h.completed, h'.current.trans h.current,
    h'.frontier.trans h.frontier, h'.processed.trans h.processed,
    h'.violations.trans h.violations⟩

/-- `windowRequest` reads nothing else. -/
theorem SameRequest.windowRequest (h : s.SameRequest s') :
    s'.windowRequest graph subgraphs = { s.windowRequest graph subgraphs with
      windowIndex := s'.windowIndex, deferredFrontierViolationIds := s'.deferredFrontier } := by
  have hpending : s'.pending = s.pending := by
    rw [pending, pending, h.frontier, h.processed, h.violations]
  have hrule : s'.ruleOf = s.ruleOf := by
    funext id
    rw [ruleOf, ruleOf, h.violations]
  have hpartition : s'.partitionPending = s.partitionPending := by
    rw [partitionPending, partitionPending, h.config, hpending, hrule]
  simp only [Session.windowRequest, iteration, hpartition, h.config, h.completed, h.current,
    h.processed, h.violations]

/-! ## The life of a window -/

theorem sameRequest_selectActiveSubgraphs
    (h : s.selectActiveSubgraphs env graph subgraphs = .ok s') : s.SameRequest s' := by
  have hbooks := sameBooks_selectActiveSubgraphs h
  refine ⟨hbooks.config, hbooks.completed, hbooks.current, hbooks.frontier, hbooks.processed, ?_⟩
  rcases selectActiveSubgraphs_ok h with ⟨_, _, _, rfl⟩ | ⟨w, -, rfl⟩
  · rfl
  · rfl

/-- A step on the same window that keeps the report asks for the same window. -/
theorem SameWindow.sameRequest (h : s.SameWindow s') (hviolations : s'.violations = s.violations) :
    s.SameRequest s' :=
  ⟨h.config, h.completed, h.current, h.frontier, h.processed, hviolations⟩

theorem violations_aggregatePlans (s : Session) (coordination : WindowCoordination) :
    (s.aggregatePlans coordination).violations = s.violations := by
  unfold aggregatePlans
  dsimp only
  split_ifs
  · rfl
  · rfl

theorem violations_prepareTransaction (s : Session) :
    s.prepareTransaction.violations = s.violations := by
  unfold prepareTransaction
  split_ifs
  · rfl
  · rfl

/-- A window without an attempted or unsupported target leaves the request alone. -/
theorem sameRequest_accountWindow {status : WindowStatus} (hattempted : s.attemptedFrontier w = ∅)
    (hunsupported : s.unsupportedFrontier w = ∅) : s.SameRequest (s.accountWindow w status) := by
  refine ⟨rfl, rfl, rfl, rfl, ?_, rfl⟩
  show s.processedFrontier ∪ (s.attemptedFrontier w ∪ s.unsupportedFrontier w) = _
  rw [hattempted, hunsupported, Finset.union_empty, Finset.union_empty]

end Session

/-- The steps of the node that a process stands before. -/
def WindowStep (env : RunEnv) (st : Session × Pc) (e : Event) (st' : Session × Pc) : Prop :=
  ∃ eff, NodeStep env st.1 st.2 e st'.1 st'.2 eff

/-- The steps inside one window. -/
def InsideWindow (st : Session × Pc) (_ : Event) : Prop := st.2.windowOpen = true

/-- Up to a commit, a window that was opened in session `s` asks for what `s` asked. -/
def Uncommitted (s : Session) (w : ActiveWindow) (st : Session × Pc) : Prop :=
  match st.2 with
  | .planning | .coordinated | .executed | .published .rollback | .published .noSafeBundle
  | .published .noOp | .published .failed => s.SameRequest st.1 ∧ st.1.activeWindow = some w
  | _ => True

section Window

variable {env : RunEnv} {s s₁ s₂ : Session} {w : ActiveWindow} {tr : List Event}
  {status : WindowStatus}

theorem Uncommitted.of_published (h : Uncommitted s w (s₁, .published status))
    (hstatus : status ≠ .commit) : s.SameRequest s₁ ∧ s₁.activeWindow = some w := by
  cases status with
  | commit => exact absurd rfl hstatus
  | rollback => exact h
  | noSafeBundle => exact h
  | noOp => exact h
  | failed => exact h

theorem uncommitted_published (h : s.SameRequest s₁ ∧ s₁.activeWindow = some w) :
    Uncommitted s w (s₁, .published status) := by
  cases status with
  | commit => trivial
  | rollback => exact h
  | noSafeBundle => exact h
  | noOp => exact h
  | failed => exact h

open Session in
theorem Uncommitted.step {st st' : Session × Pc} {e : Event} (h : Uncommitted s w st)
    (hopen : InsideWindow st e) (hstep : WindowStep env st e st') : Uncommitted s w st' := by
  obtain ⟨s₁, pc⟩ := st
  obtain ⟨s₂, pc'⟩ := st'
  obtain ⟨eff, hstep⟩ := hstep
  change NodeStep env s₁ pc e s₂ pc' eff at hstep
  have hkeep : ∀ s₂ : Session, s₁.SameWindow s₂ → s₂.violations = s₁.violations →
      s.SameRequest s₁ ∧ s₁.activeWindow = some w → s.SameRequest s₂ ∧ s₂.activeWindow = some w :=
    fun s₂ hsame hviolations hprior =>
      ⟨hprior.1.trans (hsame.sameRequest hviolations), hsame.activeWindow.trans hprior.2⟩
  cases hstep with
  | plan => exact hkeep _ (sameWindow_planSubgraph _ _) rfl h
  | degrade => exact hkeep _ (sameWindow_degradeSubgraph _ _ _ _) rfl h
  | coordinate => exact hkeep _ (sameWindow_aggregatePlans _ _) (violations_aggregatePlans _ _) h
  | skip hplan => exact hkeep _ (sameWindow_skip _) (violations_prepareTransaction _) h
  | execute hwindow hplan hexecute => exact hkeep _ (sameWindow_recordTransaction _ _) rfl h
  | publish hresult haccepted hpublish => trivial
  | updateBest hbest => trivial
  | settle hresult => exact uncommitted_published h
  | account hwindow => trivial
  | writeManifest => cases hopen
  | saveInitial => cases hopen
  | start hstart => cases hopen
  | select hselect => cases hopen
  | saveCommit => cases hopen
  | refreshCommitted => cases hopen
  | refresh hstatus => cases hopen
  | finish hcount => cases hopen
  | saveIteration hcheck => cases hopen
  | nextIteration hcontinue => cases hopen

/-- What a window that ends without a commit has kept. -/
theorem sameRequest_of_window (hrun : Run (Guarded InsideWindow (WindowStep env))
      (s, .planning) tr (s₁, .published status)) (hw : s.activeWindow = some w)
    (hstatus : status ≠ .commit) : s.SameRequest s₁ ∧ s₁.activeWindow = some w := by
  have hinit : Uncommitted s w (s, .planning) := ⟨Session.SameRequest.refl s, hw⟩
  have hlast := hrun.guarded_invariant (Uncommitted s w) hinit
    fun _ _ _ hI hopen hstep => hI.step hopen hstep
  exact hlast.of_published hstatus

end Window

/-! ## Deferred windows -/

/-- A window `w` that is selected in session `s` and ends in session `s'`, before the
next selection, without a commit and with all its claimed targets deferred. -/
structure DeferredWindow (env : RunEnv) (graph : AgentGraph) (subgraphs : List AgentSubgraph)
    (w : ActiveWindow) (s s' : Session) : Prop where
  life : ∃ opened tr closed status,
    s.selectActiveSubgraphs env graph subgraphs = .ok opened ∧ opened.activeWindow = some w ∧
      Run (Guarded InsideWindow (WindowStep env)) (opened, .planning) tr
        (closed, .published status) ∧
      status ≠ .commit ∧ closed.attemptedFrontier w = ∅ ∧ closed.unsupportedFrontier w = ∅ ∧
      s' = closed.accountWindow w status

section Deferred

variable {env : RunEnv} {graph : AgentGraph} {subgraphs : List AgentSubgraph}
  {w : ActiveWindow} {s s' : Session}

theorem DeferredWindow.selected (h : DeferredWindow env graph subgraphs w s s') :
    selectActiveWindow env.windowHash (s.windowRequest graph subgraphs) = .ok (some w) := by
  obtain ⟨opened, -, -, -, hselect, hw, -⟩ := h.life
  exact Session.selected_window hselect hw

theorem DeferredWindow.sameRequest (h : DeferredWindow env graph subgraphs w s s') :
    s.SameRequest s' := by
  obtain ⟨opened, tr, closed, status, hselect, hw, hrun, hstatus, hattempted, hunsupported, rfl⟩ :=
    h.life
  have hopened := Session.sameRequest_selectActiveSubgraphs hselect
  have hclosed := (sameRequest_of_window hrun hw hstatus).1
  exact (hopened.trans hclosed).trans (Session.sameRequest_accountWindow hattempted hunsupported)

/-- The same window under another index and id. -/
def ActiveWindow.SameSelection (w w' : ActiveWindow) : Prop :=
  w'.subgraphIds = w.subgraphIds ∧
    w'.claimedFrontierViolationIds = w.claimedFrontierViolationIds ∧
    w'.regionIds = w.regionIds

/-- A session that asks for the same window gets the same selection. -/
theorem Session.SameRequest.selection (h : s.SameRequest s')
    (hw : selectActiveWindow env.windowHash (s.windowRequest graph subgraphs) = .ok (some w)) :
    ∃ w', selectActiveWindow env.windowHash (s'.windowRequest graph subgraphs) = .ok (some w') ∧
      w'.windowIndex = s'.windowIndex ∧ w.SameSelection w' := by
  obtain ⟨windowId, hw'⟩ := selectActiveWindow_reindexed s'.windowIndex s'.deferredFrontier hw
  rw [h.windowRequest]
  exact ⟨_, hw', rfl, rfl, rfl, rfl⟩

/-- **A deferred window is selected again.** -/
theorem deferred_window_selected_again (env : RunEnv) (graph : AgentGraph)
    (subgraphs : List AgentSubgraph) (w : ActiveWindow) (s s' : Session)
    (h : DeferredWindow env graph subgraphs w s s') :
    ∃ w', selectActiveWindow env.windowHash (s'.windowRequest graph subgraphs) = .ok (some w') ∧
      w'.windowIndex = s'.windowIndex ∧ w.SameSelection w' :=
  h.sameRequest.selection h.selected

/-- **A row of deferred windows.**  The selection after it is the selection before it. -/
theorem deferred_windows_repeat
    (hw : selectActiveWindow env.windowHash (s.windowRequest graph subgraphs) = .ok (some w))
    (h : Relation.ReflTransGen (fun s s' => ∃ w, DeferredWindow env graph subgraphs w s s') s s') :
    ∃ w', selectActiveWindow env.windowHash (s'.windowRequest graph subgraphs) = .ok (some w') ∧
      w'.windowIndex = s'.windowIndex ∧ w.SameSelection w' := by
  have hsame : s.SameRequest s' := by
    induction h with
    | refl => exact Session.SameRequest.refl s
    | tail _ hlast ih =>
      obtain ⟨w', hdeferred⟩ := hlast
      exact ih.trans hdeferred.sameRequest
  exact hsame.selection hw

end Deferred

/-! ## A blocked window -/

/-- The steps inside a window, computed. -/
def insideNext (env : RunEnv) (st : Session × Pc) (e : Event) : Option (Session × Pc) :=
  if st.2.windowOpen then (nodeStep env st.1 st.2 e).map fun r => (r.1, r.2.1) else none

theorem insideNext_sound {env : RunEnv} {st st' : Session × Pc} {e : Event}
    (h : insideNext env st e = some st') : Guarded InsideWindow (WindowStep env) st e st' := by
  rw [insideNext] at h
  split_ifs at h with hopen
  obtain ⟨⟨s', pc', eff⟩, hstep, rfl⟩ := Option.map_eq_some_iff.1 h
  exact ⟨hopen, eff, nodeStep_sound hstep⟩

/-- Two regions without an edge, each with one violation. -/
def twoIslands : AgentGraph where
  edges := []
  regions := [("r1", ["v1"]), ("r2", ["v2"])]

/-- A subgraph for each region. -/
def islandScopes : List AgentSubgraph :=
  [{ subgraphId := "A", regionIds := ["r1"] }, { subgraphId := "B", regionIds := ["r2"] }]

/-- An iteration that has both violations before it. -/
def islandSession : Session :=
  { sampleRunEnv.freshSession with
    violations := [⟨"v1", "rule"⟩, ⟨"v2", "rule"⟩]
    iterationFrontier := {"v1", "v2"} }

/-- The window of the first violation. -/
def islandWindow : ActiveWindow :=
  (islandSession.windowRequest twoIslands islandScopes).window sampleRunEnv.windowHash ["A"]

/-- The session before the accounts of a window whose planner attempts nothing. -/
def islandClosed : Option (Session × Pc) :=
  Runs.play (insideNext sampleRunEnv) (islandSession.withWindow islandWindow, .planning)
    [.plan { subgraphId := "A" }, Event.sampleCoordinate "NO_OP", .skip, .settle]

theorem islandWindow_deferred :
    ∃ closed, islandClosed = some (closed, .published .noSafeBundle) ∧
      DeferredWindow sampleRunEnv twoIslands islandScopes islandWindow islandSession
        (closed.accountWindow islandWindow .noSafeBundle) := by
  have hplay : islandClosed.map (fun st => (st.2, decide (st.1.attemptedFrontier islandWindow = ∅ ∧
        st.1.unsupportedFrontier islandWindow = ∅))) = some (.published .noSafeBundle, true) := by
    decide +kernel
  obtain ⟨⟨closed, pc⟩, hclosed, hend⟩ := Option.map_eq_some_iff.1 hplay
  obtain ⟨rfl, hdeferred⟩ := Prod.mk.inj hend
  obtain ⟨hattempted, hunsupported⟩ := of_decide_eq_true hdeferred
  refine ⟨closed, hclosed, ⟨islandSession.withWindow islandWindow, _, closed, .noSafeBundle, ?_, rfl,
    Runs.run_of_play (fun _ _ _ => insideNext_sound) hclosed, by decide, hattempted, hunsupported, rfl⟩⟩
  decide +kernel

/-- The second violation stays pending outside the window, and the first one is
selected again. -/
theorem deferred_window_starves :
    ∃ s' w', DeferredWindow sampleRunEnv twoIslands islandScopes islandWindow islandSession s' ∧
      "B" ∉ islandWindow.subgraphIds ∧
      (s'.windowRequest twoIslands islandScopes).claims "B" = ["v2"] ∧
      selectActiveWindow sampleRunEnv.windowHash (s'.windowRequest twoIslands islandScopes) =
        .ok (some w') ∧
      w'.subgraphIds = islandWindow.subgraphIds ∧
      w'.claimedFrontierViolationIds = islandWindow.claimedFrontierViolationIds := by
  obtain ⟨closed, hclosed, hdeferred⟩ := islandWindow_deferred
  have hsame := hdeferred.sameRequest
  obtain ⟨w', hselected, -, hids, hclaims, -⟩ := hsame.selection hdeferred.selected
  refine ⟨_, w', hdeferred, by decide +kernel, ?_, hselected, hids, hclaims⟩
  rw [hsame.windowRequest]
  show (islandSession.windowRequest twoIslands islandScopes).claims "B" = ["v2"]
  decide +kernel

theorem deferred_window_selected_again_island :
    ∃ (s' : Session) (w' : ActiveWindow), selectActiveWindow sampleRunEnv.windowHash
        (s'.windowRequest twoIslands islandScopes) = .ok (some w') ∧
      w'.windowIndex = s'.windowIndex ∧ islandWindow.SameSelection w' := by
  obtain ⟨closed, -, hdeferred⟩ := islandWindow_deferred
  exact ⟨_, deferred_window_selected_again sampleRunEnv twoIslands islandScopes islandWindow
    islandSession _ hdeferred⟩

theorem deferred_windows_repeat_island :
    ∃ (s' : Session) (w' : ActiveWindow), selectActiveWindow sampleRunEnv.windowHash
        (s'.windowRequest twoIslands islandScopes) = .ok (some w') ∧
      w'.windowIndex = s'.windowIndex ∧ islandWindow.SameSelection w' := by
  obtain ⟨closed, -, hdeferred⟩ := islandWindow_deferred
  exact ⟨_, deferred_windows_repeat hdeferred.selected (.single ⟨islandWindow, hdeferred⟩)⟩

end DRCAgent
