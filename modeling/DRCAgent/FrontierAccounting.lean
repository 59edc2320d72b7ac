/-
# The accounts of the frontier

Every window partitions what it claimed into attempted, unsupported and deferred
ids, and gives one state to each id it claimed or removed. Over an iteration the
processed ids stay inside the frontier. They stay apart from the deferred ones
as long as no window finds unsupported what an earlier window deferred: the
update of the deferred set drops the attempted ids only.

Main result:

* `frontier_accounts`: the invariants over whole runs, under that condition.
-/
import DRCAgent.Workflow

namespace DRCAgent

open Finset

/-! ## One window -/

/-- The accounts of a recorded window. -/
structure WindowAccounted (r : WindowResult) : Prop where
  claimed_eq : r.claimedFrontierViolationIds = r.attemptedFrontierViolationIds ∪
    (r.unsupportedFrontierViolationIds \ r.attemptedFrontierViolationIds) ∪
      r.deferredFrontierViolationIds
  attempted_deferred : Disjoint r.attemptedFrontierViolationIds r.deferredFrontierViolationIds
  unsupported_deferred : Disjoint r.unsupportedFrontierViolationIds r.deferredFrontierViolationIds
  states_nodup : (r.frontierStates.map Prod.fst).Nodup
  mem_states_iff : ∀ id, id ∈ r.frontierStates.map Prod.fst ↔
    id ∈ r.claimedFrontierViolationIds ∨ id ∈ r.removedByCommitViolationIds

namespace Session

variable (s : Session) (w : ActiveWindow) (status : WindowStatus)

theorem map_fst_frontierStates :
    (s.frontierStates w status).map Prod.fst =
      (claimedFrontier w ∪ s.removedByCommit status).sort (· ≤ ·) := by
  rw [frontierStates, List.map_map]
  exact List.map_id _

/-- Every window is accounted for, whatever was claimed, attempted, unsupported
and removed. -/
theorem windowAccounted_windowResult : WindowAccounted (s.windowResult w status) where
  claimed_eq := by
    show claimedFrontier w = s.attemptedFrontier w ∪
      (s.unsupportedFrontier w \ s.attemptedFrontier w) ∪ s.deferredOf w
    ext id
    simp only [attemptedFrontier, unsupportedFrontier, deferredOf, mem_union, mem_inter, mem_sdiff]
    tauto
  attempted_deferred := by
    show Disjoint (s.attemptedFrontier w) (s.deferredOf w)
    rw [disjoint_left]
    intro id hid hdeferred
    rw [deferredOf, mem_sdiff, mem_sdiff] at hdeferred
    exact hdeferred.1.2 hid
  unsupported_deferred := by
    show Disjoint (s.unsupportedFrontier w) (s.deferredOf w)
    exact disjoint_sdiff
  states_nodup := by
    show ((s.frontierStates w status).map Prod.fst).Nodup
    rw [map_fst_frontierStates]
    exact sort_nodup _ _
  mem_states_iff := by
    intro id
    show id ∈ (s.frontierStates w status).map Prod.fst ↔
      id ∈ claimedFrontier w ∨ id ∈ s.removedByCommit status
    rw [map_fst_frontierStates, mem_sort, mem_union]

end Session

/-! ## What a selected window claims -/

/-- A selected window claims pending ids only. -/
theorem claims_subset_pending {windowHash : WindowIdentity → String} {req : WindowRequest}
    {w : ActiveWindow} (h : selectActiveWindow windowHash req = .ok (some w)) :
    Session.claimedFrontier w ⊆ req.pending := by
  obtain ⟨seed, -, rfl⟩ := selectActiveWindow_some h
  have hclaims : ∀ id, ∀ v ∈ req.claims id, v ∈ req.pending := by
    intro id v hv
    unfold WindowRequest.claims at hv
    cases hby : byId req.subgraphs id with
    | none => simp [hby] at hv
    | some s =>
      rw [hby] at hv
      change v ∈ sortedSet _ at hv
      rw [mem_sortedSet, List.mem_filter] at hv
      exact of_decide_eq_true hv.2
  intro v hv
  have hfrontier : v ∈ req.windowFrontier (req.selected seed.subgraphId) := by
    unfold Session.claimedFrontier at hv
    split_ifs at hv <;> exact List.mem_toFinset.1 hv
  rw [WindowRequest.windowFrontier, mem_sortedSet, List.mem_flatMap] at hfrontier
  obtain ⟨id, -, hv⟩ := hfrontier
  exact hclaims id v hv

/-- The window that `select_active_subgraphs` opens claims unprocessed frontier
ids. -/
theorem Session.claims_of_selectActiveSubgraphs {env : RunEnv} {s s' : Session}
    {graph : AgentGraph} {subgraphs : List AgentSubgraph}
    (h : s.selectActiveSubgraphs env graph subgraphs = .ok s') {w : ActiveWindow}
    (hw : s'.activeWindow = some w) :
    claimedFrontier w ⊆ s.iterationFrontier \ s.processedFrontier := by
  intro v hv
  have hpending := claims_subset_pending (selected_window h hw) hv
  rw [WindowRequest.pending, mem_inter, mem_sdiff] at hpending
  have hsupported : v ∈ s.partitionPending.1 := hpending.1.1
  have hfrontier : v ∈ s.pending := by
    unfold partitionPending at hsupported
    split_ifs at hsupported
    · exact hsupported
    · exact (mem_sdiff.1 hsupported).1
  exact (mem_inter.1 hfrontier).1

/-! ## The frontier sets over an iteration -/

/-- The frontier sets of a session or a checkpoint. -/
structure FrontierApart (frontier processed deferred : Finset String) : Prop where
  subset : processed ⊆ frontier
  disjoint : Disjoint processed deferred

theorem FrontierApart.empty (frontier : Finset String) : FrontierApart frontier ∅ ∅ :=
  ⟨empty_subset _, disjoint_empty_left _⟩

/-- What an earlier window deferred and this one finds unsupported, it attempts. -/
def Session.AttemptsDeferred (s : Session) (w : ActiveWindow) : Prop :=
  ∀ id ∈ claimedFrontier w, id ∈ s.deferredFrontier → id ∈ s.windowSets.unsupported →
    id ∈ s.windowSets.attempted

instance (s : Session) (w : ActiveWindow) : Decidable (s.AttemptsDeferred w) := by
  unfold Session.AttemptsDeferred
  infer_instance

/-- **One window.**  It keeps the sets apart exactly if it attempts what it finds
unsupported of the ids deferred before. -/
theorem FrontierApart.accountWindow_iff {s : Session} {w : ActiveWindow} (status : WindowStatus)
    (h : FrontierApart s.iterationFrontier s.processedFrontier s.deferredFrontier)
    (hclaims : Session.claimedFrontier w ⊆ s.iterationFrontier \ s.processedFrontier) :
    FrontierApart (s.accountWindow w status).iterationFrontier
        (s.accountWindow w status).processedFrontier (s.accountWindow w status).deferredFrontier ↔
      s.AttemptsDeferred w := by
  have hclaimed : ∀ id ∈ Session.claimedFrontier w,
      id ∈ s.iterationFrontier ∧ id ∉ s.processedFrontier :=
    fun id hid => mem_sdiff.1 (hclaims hid)
  have hprocessed : ∀ id, id ∈ (s.accountWindow w status).processedFrontier ↔
      id ∈ s.processedFrontier ∨ id ∈ s.attemptedFrontier w ∨ id ∈ s.unsupportedFrontier w := by
    intro id
    show id ∈ s.processedFrontier ∪ (s.attemptedFrontier w ∪ s.unsupportedFrontier w) ↔ _
    rw [mem_union, mem_union]
  have hdeferred : ∀ id, id ∈ (s.accountWindow w status).deferredFrontier ↔
      (id ∈ s.deferredFrontier ∨ id ∈ s.deferredOf w) ∧ id ∉ s.attemptedFrontier w := by
    intro id
    show id ∈ (s.deferredFrontier ∪ s.deferredOf w) \ s.attemptedFrontier w ↔ _
    rw [mem_sdiff, mem_union]
  constructor
  · intro hapart id hid hold hunsupported
    by_contra hnot
    have hnotAttempted : id ∉ s.attemptedFrontier w :=
      fun hattempted => hnot (mem_inter.1 hattempted).1
    have hmem : id ∈ s.unsupportedFrontier w := mem_inter.2 ⟨hunsupported, hid⟩
    exact disjoint_left.1 hapart.disjoint ((hprocessed id).2 (.inr (.inr hmem)))
      ((hdeferred id).2 ⟨.inl hold, hnotAttempted⟩)
  · intro hattempts
    constructor
    · intro id hid
      rcases (hprocessed id).1 hid with hid | hid | hid
      · exact h.subset hid
      · exact (hclaimed id (mem_inter.1 hid).2).1
      · exact (hclaimed id (mem_inter.1 hid).2).1
    · rw [disjoint_left]
      intro id hid hdef
      obtain ⟨hdef, hnot⟩ := (hdeferred id).1 hdef
      rcases (hprocessed id).1 hid with hid | hid | hid
      · rcases hdef with hold | hnew
        · exact disjoint_left.1 h.disjoint hid hold
        · exact (hclaimed id (mem_sdiff.1 (mem_sdiff.1 hnew).1).1).2 hid
      · exact hnot hid
      · obtain ⟨hunsupported, hclaim⟩ := mem_inter.1 hid
        rcases hdef with hold | hnew
        · exact hnot (mem_inter.2 ⟨hattempts id hclaim hold hunsupported, hclaim⟩)
        · exact (mem_sdiff.1 hnew).2 hid

/-! ## The invariant -/

/-- What holds of a session at a node. -/
structure SessionAccounted (s : Session) (pc : Pc) : Prop where
  apart : FrontierApart s.iterationFrontier s.processedFrontier s.deferredFrontier
  windows : ∀ r ∈ s.windowResults, WindowAccounted r
  claims : pc.windowOpen = true → ∀ w, s.activeWindow = some w →
    Session.claimedFrontier w ⊆ s.iterationFrontier \ s.processedFrontier

/-- What holds of a checkpoint. -/
structure CheckpointAccounted (c : Checkpoint) : Prop where
  apart : FrontierApart c.iterationFrontier c.processedFrontier c.deferredFrontier
  windows : ∀ r ∈ c.windowResults, WindowAccounted r

/-- No window finds unsupported, without attempting it, what an earlier window of
the iteration deferred. -/
def KeepsDeferredSupported (s : Session) (_ : Pc) : Event → Prop
  | .account => ∀ w, s.activeWindow = some w → s.AttemptsDeferred w
  | _ => True

instance (s : Session) (pc : Pc) (e : Event) : Decidable (KeepsDeferredSupported s pc e) := by
  unfold KeepsDeferredSupported
  split <;> infer_instance

namespace SessionAccounted

variable {env : RunEnv} {s s' : Session} {pc pc' : Pc} {e : Event} {eff : Effects}

theorem of_sameBooks (h : SessionAccounted s pc) (hbooks : s.SameBooks s')
    (hclaims : pc'.windowOpen = true → ∀ w, s'.activeWindow = some w →
      Session.claimedFrontier w ⊆ s.iterationFrontier \ s.processedFrontier) :
    SessionAccounted s' pc' where
  apart := by
    rw [hbooks.frontier, hbooks.processed, hbooks.deferred]
    exact h.apart
  windows := by
    rw [hbooks.windowResults]
    exact h.windows
  claims := by
    rw [hbooks.frontier, hbooks.processed]
    exact hclaims

/-- Between the nodes of one window. -/
theorem of_sameWindow (h : SessionAccounted s pc) (hopen : pc.windowOpen = true)
    (hsame : s.SameWindow s') : SessionAccounted s' pc' := by
  refine h.of_sameBooks hsame.toSameBooks fun _ w hw => ?_
  rw [hsame.activeWindow] at hw
  exact h.claims hopen w hw

/-- Outside of a window. -/
theorem of_closed (h : SessionAccounted s pc) (hclosed : pc'.windowOpen = false)
    (hbooks : s.SameBooks s') : SessionAccounted s' pc' :=
  h.of_sameBooks hbooks fun hopen => absurd hopen (by rw [hclosed]; decide)

/-- The checkpoints at the boundaries of windows and iterations. -/
theorem windowCheckpoint (h : SessionAccounted s pc) (boundary : SafeBoundary) (n : ℕ) :
    CheckpointAccounted (s.windowCheckpoint env boundary n) := ⟨h.apart, h.windows⟩

/-- **Every node keeps the accounts**, and saves them. -/
theorem node (hguard : KeepsDeferredSupported s pc e) (h : SessionAccounted s pc)
    (hstep : NodeStep env s pc e s' pc' eff) :
    SessionAccounted s' pc' ∧ ∀ c, eff.checkpoint = some c → CheckpointAccounted c := by
  have hnone : ∀ c, (none : Option Checkpoint) = some c → CheckpointAccounted c :=
    fun c hc => nomatch hc
  cases hstep with
  | writeManifest =>
    refine ⟨⟨h.apart, h.windows, fun hopen => ?_⟩, hnone⟩
    split_ifs at hopen <;> cases hopen
  | saveInitial =>
    refine ⟨h.of_closed rfl (.refl s), fun c hc => ?_⟩
    obtain rfl := Option.some.inj hc
    exact ⟨.empty _, fun _ hr => nomatch hr⟩
  | start hstart =>
    refine ⟨?_, hnone⟩
    rcases Session.startIteration_ok hstart with rfl | ⟨total, frontier, -, rfl⟩
    · exact h.of_closed rfl (s.sameBooks_reopen _ _)
    · exact ⟨.empty _, (fun _ hr => nomatch hr), (fun hopen => nomatch hopen)⟩
  | select hselect =>
    refine ⟨h.of_sameBooks (Session.sameBooks_selectActiveSubgraphs hselect) ?_, hnone⟩
    exact fun _ w hw => Session.claims_of_selectActiveSubgraphs hselect hw
  | plan => exact ⟨h.of_sameWindow rfl (s.sameWindow_planSubgraph _), hnone⟩
  | degrade => exact ⟨h.of_sameWindow rfl (s.sameWindow_degradeSubgraph _ _ _), hnone⟩
  | coordinate => exact ⟨h.of_sameWindow rfl (s.sameWindow_aggregatePlans _), hnone⟩
  | skip _ => exact ⟨h.of_sameWindow rfl s.sameWindow_skip, hnone⟩
  | execute _ _ _ => exact ⟨h.of_sameWindow rfl (s.sameWindow_recordTransaction _), hnone⟩
  | publish _ _ hpublish =>
    obtain ⟨-, rfl⟩ := Session.publishCurrent_ok hpublish
    exact ⟨⟨h.apart, h.windows, fun _ => h.claims rfl⟩, hnone⟩
  | updateBest hbest =>
    obtain ⟨total, -, ⟨-, rfl⟩ | ⟨-, rfl⟩⟩ := Session.publishBest_ok hbest
    · exact ⟨⟨h.apart, h.windows, fun _ => h.claims rfl⟩, hnone⟩
    · exact ⟨⟨h.apart, h.windows, fun _ => h.claims rfl⟩, hnone⟩
  | settle _ => exact ⟨h.of_sameWindow rfl (.refl s), hnone⟩
  | account hwindow =>
    refine ⟨⟨?_, ?_, fun hopen => nomatch hopen⟩, hnone⟩
    · exact (h.apart.accountWindow_iff _ (h.claims rfl _ hwindow)).2 (hguard _ hwindow)
    · intro r hr
      rcases List.mem_append.1 hr with hr | hr
      · exact h.windows r hr
      · obtain rfl := List.mem_singleton.1 hr
        exact s.windowAccounted_windowResult _ _
  | saveCommit =>
    refine ⟨h.of_closed rfl (.refl s), fun c hc => ?_⟩
    exact Option.some.inj hc ▸ h.windowCheckpoint _ _
  | @refreshCommitted violations =>
    have hsession : SessionAccounted { s with violations := violations } .selecting :=
      h.of_closed rfl (s.sameBooks_violations _)
    refine ⟨hsession, fun c hc => ?_⟩
    exact Option.some.inj hc ▸ hsession.windowCheckpoint _ _
  | refresh _ =>
    refine ⟨h.of_closed rfl (.refl s), fun c hc => ?_⟩
    exact Option.some.inj hc ▸ h.windowCheckpoint _ _
  | finish hcount =>
    obtain ⟨noProgress, rfl⟩ := Session.countIteration_ok hcount
    exact ⟨⟨h.apart, h.windows, fun hopen => nomatch hopen⟩, hnone⟩
  | saveIteration _ =>
    refine ⟨h.of_closed rfl (.refl s), fun c hc => ?_⟩
    exact Option.some.inj hc ▸ h.windowCheckpoint _ _
  | nextIteration _ => exact ⟨h.of_closed rfl (.refl s), hnone⟩

end SessionAccounted

/-- A resume restores sets that are apart: those of the checkpoint, or none. -/
theorem CheckpointAccounted.resumeSession {c : Checkpoint} (h : CheckpointAccounted c)
    (config : AppConfig) (m : Manifest) (hashes : RunHashes) (epoch : String) :
    SessionAccounted (resumeSession config m hashes epoch c) .initializing := by
  unfold DRCAgent.resumeSession
  cases c.boundary.isWindow
  · exact ⟨.empty _, (fun _ hr => nomatch hr), (fun hopen => nomatch hopen)⟩
  · exact ⟨h.apart, h.windows, fun hopen => nomatch hopen⟩

theorem accounts_invariant (env : RunEnv) :
    RunInvariant env (fun _ => True) KeepsDeferredSupported (fun _ => True)
      (fun _ => SessionAccounted) (fun _ => CheckpointAccounted) where
  inherit := fun _ _ _ => trivial
  fresh := ⟨.empty _, (fun _ hr => nomatch hr), (fun hopen => nomatch hopen)⟩
  mono := fun _ _ _ h => h
  node := fun _ hguard h hstep => h.node hguard hstep
  resumed := fun _ h _ => h.resumeSession _ _ _ _

/-- **Frontier accounting over whole runs.**  As long as the windows attempt what
they find unsupported of the ids deferred before, every session and every saved
checkpoint keeps the processed ids inside the frontier and apart from the
deferred ones, and accounts for every window of its iteration. -/
theorem frontier_accounts {env : RunEnv} {tr : List Event} {st : RunState}
    (hrun : GuardedRun env KeepsDeferredSupported (fun _ => True) tr st) :
    (∀ p, st.proc = some p → FrontierApart p.session.iterationFrontier p.session.processedFrontier
        p.session.deferredFrontier ∧
      ∀ r ∈ p.session.windowResults, WindowAccounted r) ∧
    ∀ c, .safe c ∈ st.dir.checkpoints →
      FrontierApart c.iterationFrontier c.processedFrontier c.deferredFrontier ∧
      ∀ r ∈ c.windowResults, WindowAccounted r := by
  obtain ⟨hproc, hstore⟩ := (accounts_invariant env).run hrun trivial
  exact ⟨fun p hp => ⟨(hproc p hp).apart, (hproc p hp).windows⟩,
    fun c hc => ⟨(hstore c hc).apart, (hstore c hc).windows⟩⟩

/-- A first window that claims the violation and defers it, and a second one that
plans it by `plan`. -/
def deferThenPlan (plan : PlannedSubgraph) : List Event :=
  Event.sampleOpening ++ [.sampleCoordinate "NO_OP"] ++ Event.sampleClosing ++
    [.sampleSelect, .plan plan, .sampleCoordinate "NO_OP", .skip, .settle, .account]

/-- The second window finds the violation unsupported: it is processed, and still
deferred. -/
theorem deferred_and_processed :
    ∃ st p, Runs.Run (Step sampleRunEnv) (RunState.fresh sampleRunEnv)
        (deferThenPlan { subgraphId := "A", unsupported := {"v1"} }) st ∧
      st.proc = some p ∧ p.session.processedFrontier = {"v1"} ∧
      p.session.deferredFrontier = {"v1"} ∧
      ¬ Disjoint p.session.processedFrontier p.session.deferredFrontier := by
  refine ⟨_, _, run_of_play (by rfl), by rfl, ?_⟩
  decide

theorem frontier_accounts_sample :
    ∃ st p, GuardedRun sampleRunEnv KeepsDeferredSupported (fun _ => True)
        (deferThenPlan { subgraphId := "A", attempted := {"v1"} }) st ∧
      st.proc = some p ∧ p.session.processedFrontier = {"v1"} ∧
      Disjoint p.session.processedFrontier p.session.deferredFrontier := by
  obtain ⟨st, p, hrun, hp, hprocessed⟩ :
      ∃ st p, GuardedRun sampleRunEnv KeepsDeferredSupported (fun _ => True)
          (deferThenPlan { subgraphId := "A", attempted := {"v1"} }) st ∧
        st.proc = some p ∧ p.session.processedFrontier = {"v1"} :=
    ⟨_, _, guardedRun_of_play (by rfl), by rfl, by rfl⟩
  exact ⟨st, p, hrun, hp, hprocessed, ((frontier_accounts hrun).1 p hp).1.disjoint⟩

end DRCAgent
