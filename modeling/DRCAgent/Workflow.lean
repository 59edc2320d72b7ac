/-
# Runs of the workflow

A run is a labelled transition system over the run directory and the process, if
one is alive. The process walks through the nodes of `WorkflowNodes.lean`; it
may die at every point, or leave through `_finalize_aborted`; a resume starts
the next process from what is on disk.

`RunInvariant` packages the induction over runs: what holds of the session at a
node and of every checkpoint, through deaths and resumes.
-/
import DRCAgent.LabelledRuns
import DRCAgent.WorkflowNodes

namespace DRCAgent

open Option

/-! ## States and events -/

/-- Where a process stands: before the node or the part of a node that is named. -/
inductive Pc
  /-- The write of the manifest. -/
  | initializing
  /-- The first checkpoint of a fresh run. -/
  | announced
  /-- The nodes that parse the report, and `start_iteration`. -/
  | ready
  | selecting
  | planning
  /-- `prepare_transaction` and `execute_transaction`. -/
  | coordinated
  /-- `commit_or_rollback`. -/
  | executed
  /-- The current snapshot is published, the best one is not updated yet. -/
  | publishing
  /-- The accounts of a window of this status. -/
  | published (status : WindowStatus)
  /-- The window is recorded; its checkpoint, if it commits, is not saved yet. -/
  | accounted (status : WindowStatus)
  /-- `refresh_after_window` of a committed window. -/
  | committed
  | finishing
  /-- The iteration is counted; its checkpoint is not saved yet. -/
  | counted
  /-- `check_stopping_condition`. -/
  | stopping
  deriving DecidableEq

/-- A window is open: it has been selected and is not accounted for yet. -/
def Pc.windowOpen : Pc → Bool
  | .planning => true
  | .coordinated => true
  | .executed => true
  | .publishing => true
  | .published _ => true
  | _ => false

/-- A process. `saved` lists the boundaries it has saved. -/
structure Proc where
  session : Session
  pc : Pc
  saved : List SafeBoundary := []

structure RunState where
  dir : RunDir
  proc : Option Proc

/-- One execution of the master transaction, with what it returned. -/
structure Execution where
  env : Env
  world : World
  sourceMap : List LayoutObject := []
  fingerprint : String := ""
  result : TransactionExecutionResult

/-- The executor's environment in a session: its acceptance policy is the
session's, and it counts violations the way the runtime does. -/
def Execution.envIn (x : Execution) (env : RunEnv) (config : AppConfig) : Env :=
  { x.env with acceptance := config.acceptance, totalDrv := env.totalDrv }

inductive Event
  | writeManifest
  | saveInitial
  | start (violations : List Violation)
  | select (graph : AgentGraph) (subgraphs : List AgentSubgraph)
  | plan (plan : PlannedSubgraph)
  | degrade (subgraphId : String) (attempted : Finset String) (noops : List RepairCandidate)
  | coordinate (coordination : WindowCoordination)
  | skip
  | execute (execution : Execution)
  | publish
  | updateBest
  | settle
  | account
  | saveCommit
  | refresh (violations : List Violation)
  | finish
  | saveIteration
  | nextIteration (timeUp : Bool)
  | finalize (timeUp : Bool)
  | abort (status : String) (failureDomain : Option String) (written : Bool)
  | die
  | resume (request : ResumeRequest)
  | authorizeAndDie (request : ResumeRequest)

/-! ## Steps -/

/-- What a node writes. -/
structure Effects where
  manifest : Option Manifest := none
  checkpoint : Option Checkpoint := none

/-- The run directory after a node. -/
def RunDir.apply (dir : RunDir) (eff : Effects) : RunDir :=
  { dir with
    manifest := eff.manifest.or dir.manifest
    checkpoints := dir.checkpoints ++ (eff.checkpoint.map .safe).toList }

open Session in
/-- The steps of a live process. -/
inductive NodeStep (env : RunEnv) : Session → Pc → Event → Session → Pc → Effects → Prop
  | writeManifest {s : Session} :
      NodeStep env s .initializing .writeManifest { s with manifest := s.initializedManifest }
        (if s.resumeState.isSome then .ready else .announced)
        { manifest := some s.initializedManifest }
  | saveInitial {s : Session} :
      NodeStep env s .announced .saveInitial s .ready
        { checkpoint := some (s.initialCheckpoint env) }
  | start {s s' : Session} {violations : List Violation}
      (h : s.startIteration env violations = .ok s') :
      NodeStep env s .ready (.start violations) s' .selecting {}
  | select {s s' : Session} {graph : AgentGraph} {subgraphs : List AgentSubgraph}
      (h : s.selectActiveSubgraphs env graph subgraphs = .ok s') :
      NodeStep env s .selecting (.select graph subgraphs) s'
        (if s'.activeWindow.isSome then .planning else .finishing) {}
  | plan {s : Session} {plan : PlannedSubgraph} :
      NodeStep env s .planning (.plan plan) (s.planSubgraph plan) .planning {}
  | degrade {s : Session} {id : String} {attempted : Finset String}
      {noops : List RepairCandidate} :
      NodeStep env s .planning (.degrade id attempted noops)
        (s.degradeSubgraph id attempted noops) .planning {}
  | coordinate {s : Session} {coordination : WindowCoordination} :
      NodeStep env s .planning (.coordinate coordination) (s.aggregatePlans coordination)
        .coordinated {}
  | skip {s : Session} (h : s.prepareTransaction.patchPlan = none) :
      NodeStep env s .coordinated .skip { s.prepareTransaction with transactionResult := none }
        .executed {}
  | execute {s : Session} {x : Execution} {w : ActiveWindow} {plan : PatchPlan} {world' : World}
      (hwindow : s.activeWindow = some w) (hplan : s.prepareTransaction.patchPlan = some plan)
      (h : DRCAgent.execute (x.envIn env s.config)
          (s.executeInput env w plan x.sourceMap x.fingerprint) x.world = (.ok x.result, world')) :
      NodeStep env s .coordinated (.execute x) (s.recordTransaction x.result) .executed {}
  | publish {s s' : Session} {r : TransactionExecutionResult}
      (hresult : s.transactionResult = some r) (haccepted : r.accepted = true)
      (h : s.publishCurrent env r = .ok s') : NodeStep env s .executed .publish s' .publishing {}
  | updateBest {s s' : Session} (h : s.publishBest env = .ok s') :
      NodeStep env s .publishing .updateBest s' (.published .commit) {}
  | settle {s : Session} (h : s.transactionResult.all (fun r => r.accepted = false)) :
      NodeStep env s .executed .settle s (.published s.unpublishedStatus) {}
  | account {s : Session} {w : ActiveWindow} {status : WindowStatus}
      (hwindow : s.activeWindow = some w) :
      NodeStep env s (.published status) .account (s.accountWindow w status) (.accounted status) {}
  | saveCommit {s : Session} :
      NodeStep env s (.accounted .commit) .saveCommit s .committed
        { checkpoint := some (s.windowCheckpoint env .windowCommit s.iteration) }
  | refreshCommitted {s : Session} {violations : List Violation} :
      NodeStep env s .committed (.refresh violations) { s with violations := violations } .selecting
        { checkpoint := some <|
            windowCheckpoint env { s with violations := violations } .windowComplete s.iteration }
  | refresh {s : Session} {violations : List Violation} {status : WindowStatus}
      (hstatus : status ≠ .commit) :
      NodeStep env s (.accounted status) (.refresh violations) s .selecting
        { checkpoint := some (s.windowCheckpoint env .windowComplete s.iteration) }
  | finish {s s' : Session} (h : s.countIteration env = .ok s') :
      NodeStep env s .finishing .finish s' .counted {}
  | saveIteration {s : Session} (h : s.checkFinalSnapshot = .ok ⟨⟩) :
      NodeStep env s .counted .saveIteration s .stopping
        { checkpoint := some (s.windowCheckpoint env .iterationComplete s.completedIteration) }
  | nextIteration {s : Session} {timeUp : Bool}
      (h : s.checkStoppingCondition env timeUp = .ok .continue_) :
      NodeStep env s .stopping (.nextIteration timeUp) s .ready {}

/-- The steps of a run. -/
inductive Step (env : RunEnv) : RunState → Event → RunState → Prop
  | node {dir : RunDir} {s s' : Session} {pc pc' : Pc} {saved : List SafeBoundary} {e : Event}
      {eff : Effects} (h : NodeStep env s pc e s' pc' eff) :
      Step env ⟨dir, some ⟨s, pc, saved⟩⟩ e
        ⟨dir.apply eff, some ⟨s', pc', saved ++ (eff.checkpoint.map (·.boundary)).toList⟩⟩
  | finalize {dir : RunDir} {s : Session} {saved : List SafeBoundary} {timeUp : Bool}
      {status : StoppingStatus} (h : s.checkStoppingCondition env timeUp = .ok status)
      (hstop : status ≠ .continue_) :
      Step env ⟨dir, some ⟨s, .stopping, saved⟩⟩ (.finalize timeUp)
        ⟨{ dir with
            manifest := some
              (s.stoppedManifestOf ("COMPLETED_" ++ status.value) s.manifest.failureDomain)
            checkpoints := dir.checkpoints ++ [.notSafe "finalize_run"] }, none⟩
  | abort {dir : RunDir} {p : Proc} {status : String} {failureDomain : Option String}
      {written : Bool} :
      Step env ⟨dir, some p⟩ (.abort status failureDomain written)
        ⟨{ dir with
            manifest :=
              if written then some (p.session.stoppedManifestOf status failureDomain)
              else dir.manifest
            checkpoints := dir.checkpoints ++ [.notSafe status.toLower] }, none⟩
  | die {dir : RunDir} {p : Proc} : Step env ⟨dir, some p⟩ .die ⟨dir, none⟩
  | resume {dir : RunDir} {m : Manifest} {req : ResumeRequest} {l : Launch}
      (hmanifest : dir.manifest = some m)
      (h : resumeP5 env.resume req m dir.checkpoints dir.journal = .ok (.execute l)) :
      Step env ⟨dir, none⟩ (.resume req)
        ⟨{ dir with journal := l.journal }, some ⟨l.session, .initializing, []⟩⟩
  | authorizeAndDie {dir : RunDir} {m : Manifest} {req : ResumeRequest} {a : Admission}
      {record : ContinuationRecord} {journal' : List ContinuationRecord}
      (hmanifest : dir.manifest = some m)
      (h : Appended env.resume req m dir.checkpoints dir.journal a record journal') :
      Step env ⟨dir, none⟩ (.authorizeAndDie req) ⟨{ dir with journal := journal' }, none⟩

/-- A fresh run. -/
def RunState.fresh (env : RunEnv) : RunState := ⟨{}, some ⟨env.freshSession, .initializing, []⟩⟩

/-! ## Playing a run -/

open Session in
/-- The steps of a live process, computed. -/
def nodeStep (env : RunEnv) (s : Session) (pc : Pc) (e : Event) :
    Option (Session × Pc × Effects) :=
  match pc, e with
  | .initializing, .writeManifest =>
    some ({ s with manifest := s.initializedManifest },
      if s.resumeState.isSome then .ready else .announced,
      { manifest := some s.initializedManifest })
  | .announced, .saveInitial => some (s, .ready, { checkpoint := some (s.initialCheckpoint env) })
  | .ready, .start violations =>
    (s.startIteration env violations).toOption.map fun s' => (s', .selecting, {})
  | .selecting, .select graph subgraphs =>
    (s.selectActiveSubgraphs env graph subgraphs).toOption.map fun s' =>
      (s', if s'.activeWindow.isSome then .planning else .finishing, {})
  | .planning, .plan plan => some (s.planSubgraph plan, .planning, {})
  | .planning, .degrade id attempted noops =>
    some (s.degradeSubgraph id attempted noops, .planning, {})
  | .planning, .coordinate coordination => some (s.aggregatePlans coordination, .coordinated, {})
  | .coordinated, .skip =>
    if s.prepareTransaction.patchPlan = none then
      some ({ s.prepareTransaction with transactionResult := none }, .executed, {})
    else none
  | .coordinated, .execute x =>
    match s.activeWindow, s.prepareTransaction.patchPlan with
    | some w, some plan =>
      if (DRCAgent.execute (x.envIn env s.config)
          (s.executeInput env w plan x.sourceMap x.fingerprint) x.world).1.toOption =
            some x.result then
        some (s.recordTransaction x.result, .executed, {})
      else none
    | _, _ => none
  | .executed, .publish =>
    match s.transactionResult with
    | some r =>
      if r.accepted then
        (s.publishCurrent env r).toOption.map fun s' => (s', .publishing, {})
      else none
    | none => none
  | .publishing, .updateBest =>
    (s.publishBest env).toOption.map fun s' => (s', .published .commit, {})
  | .executed, .settle =>
    if s.transactionResult.all (fun r => r.accepted = false) then
      some (s, .published s.unpublishedStatus, {})
    else none
  | .published status, .account =>
    s.activeWindow.map fun w => (s.accountWindow w status, .accounted status, {})
  | .accounted .commit, .saveCommit =>
    some (s, .committed, { checkpoint := some (s.windowCheckpoint env .windowCommit s.iteration) })
  | .committed, .refresh violations =>
    some ({ s with violations := violations }, .selecting, {
      checkpoint := some <|
        windowCheckpoint env { s with violations := violations } .windowComplete s.iteration })
  | .accounted status, .refresh _ =>
    if status = .commit then none
    else some (s, .selecting,
      { checkpoint := some (s.windowCheckpoint env .windowComplete s.iteration) })
  | .finishing, .finish => (s.countIteration env).toOption.map fun s' => (s', .counted, {})
  | .counted, .saveIteration =>
    s.checkFinalSnapshot.toOption.map fun _ => (s, .stopping,
      { checkpoint := some (s.windowCheckpoint env .iterationComplete s.completedIteration) })
  | .stopping, .nextIteration timeUp =>
    if (s.checkStoppingCondition env timeUp).toOption = some .continue_ then some (s, .ready, {})
    else none
  | _, _ => none

theorem except_of_toOption {ε α : Type} {x : Except ε α} {a : α} (h : x.toOption = some a) :
    x = .ok a := by
  cases x with
  | error _ => cases h
  | ok b => rw [some.inj h]

/-- What is computed is a step. -/
theorem nodeStep_sound {env : RunEnv} {s s' : Session} {pc pc' : Pc} {e : Event} {eff : Effects}
    (h : nodeStep env s pc e = some (s', pc', eff)) : NodeStep env s pc e s' pc' eff := by
  unfold nodeStep at h
  split at h
  · obtain ⟨rfl, rfl, rfl⟩ := h
    exact .writeManifest
  · obtain ⟨rfl, rfl, rfl⟩ := h
    exact .saveInitial
  · obtain ⟨s₁, hs, h⟩ := map_eq_some_iff.1 h
    obtain ⟨rfl, rfl, rfl⟩ := h
    exact .start (except_of_toOption hs)
  · obtain ⟨s₁, hs, h⟩ := map_eq_some_iff.1 h
    obtain ⟨rfl, rfl, rfl⟩ := h
    exact .select (except_of_toOption hs)
  · obtain ⟨rfl, rfl, rfl⟩ := h
    exact .plan
  · obtain ⟨rfl, rfl, rfl⟩ := h
    exact .degrade
  · obtain ⟨rfl, rfl, rfl⟩ := h
    exact .coordinate
  · split_ifs at h with hplan
    obtain ⟨rfl, rfl, rfl⟩ := h
    exact .skip hplan
  · split at h
    · next hwindow hplan =>
      split_ifs at h with hresult
      obtain ⟨rfl, rfl, rfl⟩ := h
      exact .execute hwindow hplan (Prod.ext (except_of_toOption hresult) rfl)
    · cases h
  · split at h
    · next hresult =>
      split_ifs at h with haccepted
      obtain ⟨s₁, hs, h⟩ := map_eq_some_iff.1 h
      obtain ⟨rfl, rfl, rfl⟩ := h
      exact .publish hresult haccepted (except_of_toOption hs)
    · cases h
  · obtain ⟨s₁, hs, h⟩ := map_eq_some_iff.1 h
    obtain ⟨rfl, rfl, rfl⟩ := h
    exact .updateBest (except_of_toOption hs)
  · split_ifs at h with hresult
    obtain ⟨rfl, rfl, rfl⟩ := h
    exact .settle hresult
  · obtain ⟨w, hw, h⟩ := map_eq_some_iff.1 h
    obtain ⟨rfl, rfl, rfl⟩ := h
    exact .account hw
  · obtain ⟨rfl, rfl, rfl⟩ := h
    exact .saveCommit
  · obtain ⟨rfl, rfl, rfl⟩ := h
    exact .refreshCommitted
  · split_ifs at h with hstatus
    obtain ⟨rfl, rfl, rfl⟩ := h
    exact .refresh hstatus
  · obtain ⟨s₁, hs, h⟩ := map_eq_some_iff.1 h
    obtain ⟨rfl, rfl, rfl⟩ := h
    exact .finish (except_of_toOption hs)
  · obtain ⟨_, hs, h⟩ := map_eq_some_iff.1 h
    obtain ⟨rfl, rfl, rfl⟩ := h
    exact .saveIteration (except_of_toOption hs)
  · split_ifs at h with hcontinue
    obtain ⟨rfl, rfl, rfl⟩ := h
    exact .nextIteration (except_of_toOption hcontinue)
  · cases h

/-- The steps of a run whose process `p` is alive, computed. -/
def liveNext (env : RunEnv) (dir : RunDir) (p : Proc) (e : Event) : Option RunState :=
  match e with
  | .finalize timeUp =>
    if p.pc = .stopping then
      (p.session.checkStoppingCondition env timeUp).toOption.bind fun status =>
        if status = .continue_ then none
        else some ⟨{ dir with
          manifest := some (p.session.stoppedManifestOf ("COMPLETED_" ++ status.value)
            p.session.manifest.failureDomain)
          checkpoints := dir.checkpoints ++ [.notSafe "finalize_run"] }, none⟩
    else none
  | .abort status failureDomain written =>
    some ⟨{ dir with
      manifest :=
        if written then some (p.session.stoppedManifestOf status failureDomain)
        else dir.manifest
      checkpoints := dir.checkpoints ++ [.notSafe status.toLower] }, none⟩
  | .die => some ⟨dir, none⟩
  | e =>
    (nodeStep env p.session p.pc e).map fun (s', pc', eff) =>
      ⟨dir.apply eff, some ⟨s', pc', p.saved ++ (eff.checkpoint.map (·.boundary)).toList⟩⟩

/-- A resume of a run whose process is gone, computed. -/
def resumeNext (env : RunEnv) (dir : RunDir) (req : ResumeRequest) : Option RunState :=
  dir.manifest.bind fun m =>
    match resumeP5 env.resume req m dir.checkpoints dir.journal with
    | .ok (.execute l) =>
      some ⟨{ dir with journal := l.journal }, some ⟨l.session, .initializing, []⟩⟩
    | _ => none

/-- The steps of a run, computed (without `authorizeAndDie`). -/
def RunState.next (env : RunEnv) (st : RunState) (e : Event) : Option RunState :=
  match st.proc with
  | some p => liveNext env st.dir p e
  | none =>
    match e with
    | .resume req => resumeNext env st.dir req
    | _ => none

theorem liveNext_sound {env : RunEnv} {dir : RunDir} {p : Proc} {e : Event} {st' : RunState}
    (h : liveNext env dir p e = some st') : Step env ⟨dir, some p⟩ e st' := by
  obtain ⟨s, pc, saved⟩ := p
  unfold liveNext at h
  dsimp only at h
  split at h
  · split_ifs at h with hpc
    obtain ⟨status, hstatus, h⟩ := bind_eq_some_iff.1 h
    split_ifs at h with hcontinue
    obtain rfl : pc = .stopping := hpc
    obtain rfl := some.inj h
    exact .finalize (except_of_toOption hstatus) hcontinue
  · obtain rfl := some.inj h
    exact .abort
  · obtain rfl := some.inj h
    exact .die
  · obtain ⟨⟨s', pc', eff⟩, hnode, h⟩ := map_eq_some_iff.1 h
    subst h
    exact .node (nodeStep_sound hnode)

theorem resumeNext_sound {env : RunEnv} {dir : RunDir} {req : ResumeRequest} {st' : RunState}
    (h : resumeNext env dir req = some st') : Step env ⟨dir, none⟩ (.resume req) st' := by
  unfold resumeNext at h
  obtain ⟨m, hm, h⟩ := bind_eq_some_iff.1 h
  split at h
  · next hresume =>
    obtain rfl := some.inj h
    exact .resume hm hresume
  · cases h

theorem RunState.next_sound {env : RunEnv} {st st' : RunState} {e : Event}
    (h : st.next env e = some st') : Step env st e st' := by
  obtain ⟨dir, proc⟩ := st
  cases proc with
  | some p => exact liveNext_sound h
  | none =>
    cases e with
    | resume req => exact resumeNext_sound h
    | _ => cases h

/-! ## The induction over runs -/

@[simp] theorem latestSafe_apply (dir : RunDir) (eff : Effects) :
    latestSafe (dir.apply eff).checkpoints = eff.checkpoint.or (latestSafe dir.checkpoints) := by
  cases h : eff.checkpoint <;> simp [RunDir.apply, h]

theorem mem_of_latestSafe {store : List StoredCheckpoint} {c : Checkpoint}
    (h : latestSafe store = some c) : .safe c ∈ store := by
  obtain ⟨row, hrow, hstate⟩ := List.mem_filterMap.1 (List.mem_of_getLast? h)
  cases row with
  | safe c' =>
    obtain rfl := some.inj hstate
    exact hrow
  | notSafe _ => cases hstate

/-- What carries `J` through the sessions of a run and `K` through its
checkpoints. `P` is an assumption on the trace, `G` one on each node step and
`R` one on each checkpoint that is resumed. -/
structure RunInvariant (env : RunEnv) (P : List Event → Prop) (G : Session → Pc → Event → Prop)
    (R : Checkpoint → Prop) (J : List Event → Session → Pc → Prop)
    (K : List Event → Checkpoint → Prop) : Prop where
  inherit : ∀ tr e, P (tr ++ [e]) → P tr
  fresh : J [] env.freshSession .initializing
  mono : ∀ tr e c, K tr c → K (tr ++ [e]) c
  node : ∀ {tr s pc e s' pc' eff}, P (tr ++ [e]) → G s pc e → J tr s pc →
    NodeStep env s pc e s' pc' eff →
    J (tr ++ [e]) s' pc' ∧ ∀ c, eff.checkpoint = some c → K (tr ++ [e]) c
  resumed : ∀ {tr e c config m hashes epoch}, R c → K tr c →
    m.baselineSnapshot = c.baselineSnapshot →
    J (tr ++ [e]) (resumeSession config m hashes epoch c) .initializing

def Event.isResume : Event → Bool
  | .resume _ => true
  | _ => false

/-- The steps a guarded run takes. -/
def stepGuard (G : Session → Pc → Event → Prop) (R : Checkpoint → Prop) (st : RunState)
    (e : Event) : Prop :=
  (∀ p, st.proc = some p → G p.session p.pc e) ∧
  (e.isResume = true → ∀ c, latestSafe st.dir.checkpoints = some c → R c)

instance {G : Session → Pc → Event → Prop} {R : Checkpoint → Prop}
    [∀ s pc e, Decidable (G s pc e)] [DecidablePred R] (st : RunState) (e : Event) :
    Decidable (stepGuard G R st e) := by
  unfold stepGuard
  infer_instance

/-- The runs from the fresh state whose steps meet the guards. -/
def GuardedRun (env : RunEnv) (G : Session → Pc → Event → Prop) (R : Checkpoint → Prop)
    (tr : List Event) (st : RunState) : Prop :=
  Runs.Run (Runs.Guarded (stepGuard G R) (Step env)) (RunState.fresh env) tr st

/-- A run that is played. -/
theorem run_of_play {env : RunEnv} {tr : List Event} {st : RunState}
    (h : Runs.play (RunState.next env) (RunState.fresh env) tr = some st) :
    Runs.Run (Step env) (RunState.fresh env) tr st :=
  Runs.run_of_play (fun _ _ _ => RunState.next_sound) h

/-- A guarded run that is played. -/
theorem guardedRun_of_play {env : RunEnv} {G : Session → Pc → Event → Prop}
    {R : Checkpoint → Prop} [∀ s pc e, Decidable (G s pc e)] [DecidablePred R] {tr : List Event}
    {st : RunState}
    (h : Runs.play (Runs.guardNext (stepGuard G R) (RunState.next env)) (RunState.fresh env) tr =
      some st) : GuardedRun env G R tr st :=
  Runs.guarded_of_play (fun _ _ _ => RunState.next_sound) h

theorem RunInvariant.step {env : RunEnv} {P : List Event → Prop}
    {G : Session → Pc → Event → Prop} {R : Checkpoint → Prop}
    {J : List Event → Session → Pc → Prop} {K : List Event → Checkpoint → Prop}
    (inv : RunInvariant env P G R J K) {tr : List Event} {st st' : RunState} {e : Event}
    (hP : P (tr ++ [e]))
    (hst : (∀ p, st.proc = some p → J tr p.session p.pc) ∧
      ∀ c, .safe c ∈ st.dir.checkpoints → K tr c)
    (hguard : stepGuard G R st e) (hstep : Step env st e st') :
    (∀ p, st'.proc = some p → J (tr ++ [e]) p.session p.pc) ∧
      ∀ c, .safe c ∈ st'.dir.checkpoints → K (tr ++ [e]) c := by
  obtain ⟨hproc, hstore⟩ := hst
  have hkept : ∀ {row : StoredCheckpoint}, row.state = none → ∀ c,
      .safe c ∈ st.dir.checkpoints ++ [row] → K (tr ++ [e]) c := by
    intro row hrow c hc
    rcases List.mem_append.1 hc with hc | hc
    · exact inv.mono _ _ _ (hstore c hc)
    · rw [← List.mem_singleton.1 hc] at hrow
      cases hrow
  cases hstep with
  | node h =>
    obtain ⟨hJ, hK⟩ := inv.node hP (hguard.1 _ rfl) (hproc _ rfl) h
    refine ⟨fun p hp => some.inj hp ▸ hJ, fun c hc => ?_⟩
    rcases List.mem_append.1 hc with hc | hc
    · exact inv.mono _ _ _ (hstore c hc)
    · rw [mem_toList, map_eq_some_iff] at hc
      obtain ⟨c', hc', hsafe⟩ := hc
      obtain rfl := StoredCheckpoint.safe.inj hsafe
      exact hK _ hc'
  | finalize _ _ => exact ⟨(fun p hp => nomatch hp), hkept rfl⟩
  | abort => exact ⟨(fun p hp => nomatch hp), hkept rfl⟩
  | die => exact ⟨(fun p hp => nomatch hp), fun c hc => inv.mono _ _ _ (hstore c hc)⟩
  | resume hmanifest h =>
    refine ⟨fun p hp => ?_, fun c hc => inv.mono _ _ _ (hstore c hc)⟩
    obtain rfl := some.inj hp
    obtain ⟨a, config, records, epoch, hadm, hlatest, -, hsession⟩ := resumeP5_execute h
    have hagree := hadm.compared
    unfold compareCheckpoint at hagree
    obtain ⟨_, -, hagree⟩ := except_bind_ok hagree
    obtain ⟨_, -, hagree⟩ := except_bind_ok hagree
    obtain ⟨_, -, hagree⟩ := except_bind_ok hagree
    obtain ⟨_, -, hagree⟩ := except_bind_ok hagree
    rw [require_eq_ok] at hagree
    show J (tr ++ [_]) _ .initializing
    rw [hsession]
    exact inv.resumed (hguard.2 rfl _ hlatest) (hstore _ (mem_of_latestSafe hlatest)) hagree.1
  | authorizeAndDie _ _ =>
    exact ⟨(fun p hp => nomatch hp), fun c hc => inv.mono _ _ _ (hstore c hc)⟩

/-- **The run rule.** -/
theorem RunInvariant.run {env : RunEnv} {P : List Event → Prop}
    {G : Session → Pc → Event → Prop} {R : Checkpoint → Prop}
    {J : List Event → Session → Pc → Prop} {K : List Event → Checkpoint → Prop}
    (inv : RunInvariant env P G R J K) {tr : List Event} {st : RunState}
    (hrun : GuardedRun env G R tr st) (hP : P tr) :
    (∀ p, st.proc = some p → J tr p.session p.pc) ∧
      ∀ c, .safe c ∈ st.dir.checkpoints → K tr c := by
  refine Runs.Run.history P (fun tr st => (∀ p, st.proc = some p → J tr p.session p.pc) ∧
    ∀ c, .safe c ∈ st.dir.checkpoints → K tr c) inv.inherit ?_ ?_ hrun hP
  · refine ⟨fun p hp => ?_, fun c hc => absurd hc List.not_mem_nil⟩
    obtain rfl := some.inj hp
    exact inv.fresh
  · intro tr st e st' hP hst hstep
    exact inv.step hP hst hstep.1 hstep.2

/-! ## A sample run -/

/-- A case with one subgraph, one region and one violation. -/
def sampleRunEnv : RunEnv where
  resume := sampleResumeEnv
  provenance := sampleProvenanceEnv
  experimentId := "experiment"
  caseId := "case"
  presetName := "B6"
  seed := 0
  config := sampleConfig
  scriptRef := sampleRef "script_0"
  gdsRef := sampleRef "gds_0"
  drcRef := sampleRef "drc_0"
  connectivityRef := sampleRef "connectivity_0"
  inputIdentity := "inputs"
  dockerImage := "docker"
  dockerImageDigest := "image"
  totalDrv := sampleEnv.totalDrv
  windowHash := fun _ => "0"
  firstEpoch := "epoch_first"

namespace Event

/-- The report of the sample case. -/
def sampleStart : Event := .start [⟨"v1", "rule"⟩]

/-- The graph and the subgraph of the sample case. -/
def sampleSelect : Event :=
  .select { edges := [], regions := [("r1", ["v1"])] }
    [{ subgraphId := "A", regionIds := ["r1"] }]

/-- A coordination without a bundle. -/
def sampleCoordinate (status : String) : Event := .coordinate { status := status }

/-- The start of a fresh run, up to the choice of its first window. -/
def sampleOpening : List Event := [.writeManifest, .saveInitial, sampleStart, sampleSelect]

/-- The rest of a window that publishes nothing. -/
def sampleClosing : List Event := [.skip, .settle, .account, .refresh [⟨"v1", "rule"⟩]]

/-- A window that plans the violation, up to its master transaction. -/
def samplePlanned : List Event :=
  sampleOpening ++
    [.plan { subgraphId := "A", candidates := [⟨"c1", false⟩], attempted := {"v1"} }, .coordinate {
        status := "SAFE"
        bundle := some ("bundle", ["c1"])
        patchPlan := some { sha256 := "plan" }
        masterBatchCount := 1 }]

end Event

/-- What the executor returns to the window of `samplePlanned`. -/
def sampleResult? : Option TransactionExecutionResult := do
  let st ← Runs.play (RunState.next sampleRunEnv) (RunState.fresh sampleRunEnv) Event.samplePlanned
  let p ← st.proc
  let w ← p.session.activeWindow
  let plan ← p.session.patchPlan
  (execute sampleEnv (p.session.executeInput sampleRunEnv w plan [] "") {}).1.toOption

/-- The master transaction of `samplePlanned`. -/
def sampleExecution : Execution where
  env := sampleEnv
  world := {}
  result := sampleResult?.get (by decide +kernel)

/-- A window that commits, up to its record. -/
def Event.sampleCommit : List Event :=
  samplePlanned ++ [.execute sampleExecution, .publish, .updateBest, .account]

end DRCAgent
