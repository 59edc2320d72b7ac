/-
# Commits only go down

An accepted transaction commits a snapshot whose total is below the one it
started from, when progress is required and the evaluator counts as
`drc_statistics` does. So the totals fall along the line of the committed
snapshots, and the best snapshot is always the current one.

Main result:

* `commits_monotone`: the accounts of the best snapshot over whole runs.
-/
import DRCAgent.AcceptanceSoundness
import DRCAgent.WindowRecord

namespace DRCAgent

open Option

/-! ## One transaction -/

/-- The total falls from the first snapshot to the second. -/
def Decreases (env : RunEnv) (parent child : DesignSnapshotRef) : Prop :=
  ∃ total total', env.total parent = .ok total ∧ env.total child = .ok total' ∧ total' < total

/-- The evaluator's counts are the totals of the reports. -/
structure CountsTruly (env : Env) (current : DesignSnapshotRef) : Prop where
  original : ∀ ref, current.drcRef = some ref →
    env.score.originalViolations = env.totalDrv ref.sha256
  final : env.score.finalViolations = env.totalDrv env.attemptedDrcSha256

instance (env : Env) (current : DesignSnapshotRef) : Decidable (CountsTruly env current) :=
  decidable_of_iff
    ((∀ ref, current.drcRef = some ref → env.score.originalViolations = env.totalDrv ref.sha256) ∧
      env.score.finalViolations = env.totalDrv env.attemptedDrcSha256)
    ⟨fun h => ⟨h.1, h.2⟩, fun h => ⟨h.original, h.final⟩⟩

/-- An accepted attempt has a report. -/
theorem EvaluatedFrom.attempted_drcRef {env : Env} {inp : ExecuteInput} {e : Evaluated}
    {p : Prepared} {ev : Evidence} (h : EvaluatedFrom env inp e p ev)
    (hcopy : CopyKeepsContent env) (hacc : e.decision.accepted = true) :
    e.attempted.drcRef.map (·.sha256) = some env.attemptedDrcSha256 := by
  have htotal := h.committedTotal
  rw [if_pos hacc] at htotal
  have hisFile := (h.attemptedTotal _ htotal).2
  rw [h.attempted]
  show Option.map _ (if env.attemptedDrcIsFile = true then _ else none) = _
  rw [if_pos hisFile, map_some, copyOf, hcopy]

/-- The residual of an accepted attempt is the evaluator's final count. -/
theorem EvaluatedFrom.residual_of_accepted {env : Env} {inp : ExecuteInput} {e : Evaluated}
    {p : Prepared} {ev : Evidence} (h : EvaluatedFrom env inp e p ev)
    (hacc : e.decision.accepted = true) :
    e.verification.residualViolationCount = some env.score.finalViolations := by
  obtain ⟨-, hscore, delta, sanityPass, preserved, hv, -⟩ := h.of_accepted hacc
  rw [hv]
  show ev.score.map (·.finalViolations) = _
  rw [hscore, map_some]

/-- **An accepted transaction commits a smaller total.** -/
theorem committed_total_lt {env : Env} {inp : ExecuteInput} {w w' : World}
    {r : TransactionExecutionResult} (hprogress : env.acceptance.requireDrcProgress = true)
    (hcopy : CopyKeepsContent env) (hcounts : CountsTruly env inp.currentSnapshot)
    (hrun : execute env inp w = (.ok r, w')) (hacc : r.accepted = true) :
    ∃ ref ref', inp.currentSnapshot.drcRef = some ref ∧ r.committedSnapshot.drcRef = some ref' ∧
      env.totalDrv ref'.sha256 < env.totalDrv ref.sha256 := by
  obtain ⟨e, p, ev, rfl, hfrom⟩ := execute_yields w r w' hrun
  change e.decision.accepted = true at hacc
  obtain ⟨ref, href, -⟩ := hfrom.before
  have hlt : env.score.finalViolations < env.score.originalViolations := by
    have hdecision : (evaluateAcceptance e.verification env.acceptance).accepted = true :=
      hfrom.decision ▸ hacc
    obtain ⟨residual, hresidual, hlt⟩ := residual_lt_of_accepted hprogress hdecision
    rw [hfrom.residual_of_accepted hacc] at hresidual
    rw [hfrom.baseline_of_accepted hacc, ← some.inj hresidual] at hlt
    exact hlt
  have hsha : e.committed.drcRef.map (·.sha256) = some env.attemptedDrcSha256 := by
    rw [← hfrom.attempted_drcRef hcopy hacc, hfrom.committed, if_pos hacc]
    exact (snapshotCopy_sameArtifacts hcopy _ _ _).2.2.1
  obtain ⟨ref', href', hsha'⟩ := map_eq_some_iff.1 hsha
  refine ⟨ref, ref', href, href', ?_⟩
  rw [hsha', ← hcounts.final, ← hcounts.original ref href]
  exact hlt

/-! ## The line of committed snapshots -/

/-- The totals never fall below the current one. -/
theorem Leads.total_le {env : RunEnv} {root : DesignSnapshotRef} {ws : List WindowResult}
    {line : Line} (h : Leads (Decreases env) root ws line)
    (hroot : ∃ total, env.total root = .ok total) :
    ∃ least, env.total line.current = .ok least ∧ ∀ q ∈ line.published,
      ∃ total, env.total q = .ok total ∧ least ≤ total := by
  refine Runs.Run.invariant (fun line => ∃ least, env.total line.current = .ok least ∧
    ∀ q ∈ line.published, ∃ total, env.total q = .ok total ∧ least ≤ total) ?_ ?_ h
  · obtain ⟨total, htotal⟩ := hroot
    refine ⟨total, htotal, fun q hq => ⟨total, ?_, le_rfl⟩⟩
    rw [List.mem_singleton.1 hq]
    exact htotal
  · rintro line w line' ⟨least, hleast, hall⟩ hmove
    cases hmove with
    | stay => exact ⟨least, hleast, hall⟩
    | commit _ _ _ hchild =>
      obtain ⟨total, total', htotal, htotal', hlt⟩ := hchild
      rw [hleast] at htotal
      obtain rfl := Except.ok.inj htotal
      refine ⟨total', htotal', fun q hq => ?_⟩
      rcases List.mem_append.1 hq with hq | hq
      · obtain ⟨total, hq, hle⟩ := hall q hq
        exact ⟨total, hq, by omega⟩
      · rw [List.mem_singleton.1 hq]
        exact ⟨total', htotal', le_rfl⟩

/-! ## The best snapshot -/

/-- The accounts of the best snapshot at a node. -/
structure BestKept (env : RunEnv) (s : Session) (pc : Pc) : Prop where
  total : env.total s.bestSnapshot = .ok s.bestTotal
  best : pc ≠ .publishing → s.bestSnapshot = s.currentSnapshot
  ahead : pc = .publishing → Decreases env s.bestSnapshot s.currentSnapshot

/-- The accounts of the best snapshot in a checkpoint. -/
structure CheckpointBest (env : RunEnv) (c : Checkpoint) : Prop where
  total : env.total c.bestSnapshot = .ok c.bestTotal
  best : c.bestSnapshot = c.currentSnapshot

namespace BestKept

variable {env : RunEnv} {s s' : Session} {pc pc' : Pc} {e : Event} {eff : Effects}

theorem of_sameBooks (h : BestKept env s pc) (hpc : pc ≠ .publishing) (hpc' : pc' ≠ .publishing)
    (hbooks : s.SameBooks s') : BestKept env s' pc' where
  total := by
    rw [hbooks.best, hbooks.bestTotal]
    exact h.total
  best := fun _ => by
    rw [hbooks.best, hbooks.current]
    exact h.best hpc
  ahead := fun heq => absurd heq hpc'

/-- **Every node keeps the accounts**, when the published children decrease. -/
theorem node (hrecord : OnRecord (Decreases env) (Decreases env) env s pc)
    (h : BestKept env s pc) (hstep : NodeStep env s pc e s' pc' eff) :
    BestKept env s' pc' ∧ ∀ c, eff.checkpoint = some c → CheckpointBest env c := by
  have hnone : ∀ c, (none : Option Checkpoint) = some c → CheckpointBest env c :=
    fun c hc => nomatch hc
  cases hstep with
  | writeManifest =>
    refine ⟨⟨h.total, fun _ => h.best nofun, fun hpc => ?_⟩, hnone⟩
    split_ifs at hpc
  | saveInitial =>
    refine ⟨h.of_sameBooks nofun nofun (.refl s), fun c hc => ?_⟩
    exact some.inj hc ▸ ⟨h.total, h.best nofun⟩
  | start hstart =>
    refine ⟨?_, hnone⟩
    rcases Session.startIteration_ok hstart with rfl | ⟨total, frontier, -, rfl⟩
    · exact h.of_sameBooks nofun nofun (s.sameBooks_reopen _ _)
    · exact ⟨h.total, fun _ => h.best nofun, nofun⟩
  | select hselect =>
    refine ⟨h.of_sameBooks nofun ?_ (Session.sameBooks_selectActiveSubgraphs hselect), hnone⟩
    split_ifs <;> exact nofun
  | plan => exact ⟨h.of_sameBooks nofun nofun (s.sameWindow_planSubgraph _).toSameBooks, hnone⟩
  | degrade =>
    exact ⟨h.of_sameBooks nofun nofun (s.sameWindow_degradeSubgraph _ _ _).toSameBooks, hnone⟩
  | coordinate =>
    exact ⟨h.of_sameBooks nofun nofun (s.sameWindow_aggregatePlans _).toSameBooks, hnone⟩
  | skip _ => exact ⟨h.of_sameBooks nofun nofun s.sameWindow_skip.toSameBooks, hnone⟩
  | execute _ _ _ =>
    exact ⟨h.of_sameBooks nofun nofun (s.sameWindow_recordTransaction _).toSameBooks, hnone⟩
  | publish hresult haccepted hpublish =>
    obtain ⟨-, rfl⟩ := Session.publishCurrent_ok hpublish
    refine ⟨⟨h.total, fun hpc => absurd rfl hpc, fun _ => ?_⟩, hnone⟩
    show Decreases env s.bestSnapshot _
    rw [h.best nofun]
    exact hrecord.granted rfl _ hresult haccepted
  | updateBest hbest =>
    obtain ⟨total, total', htotal, htotal', hlt⟩ := h.ahead rfl
    rw [h.total] at htotal
    obtain rfl := Except.ok.inj htotal
    obtain ⟨new, hnew, ⟨-, rfl⟩ | ⟨hle, -⟩⟩ := Session.publishBest_ok hbest
    · exact ⟨⟨hnew, fun _ => rfl, nofun⟩, hnone⟩
    · rw [htotal'] at hnew
      obtain rfl := Except.ok.inj hnew
      omega
  | settle _ => exact ⟨h.of_sameBooks nofun nofun (.refl s), hnone⟩
  | account _ =>
    exact ⟨⟨h.total, fun _ => h.best nofun, nofun⟩, hnone⟩
  | saveCommit =>
    refine ⟨h.of_sameBooks nofun nofun (.refl s), fun c hc => ?_⟩
    exact some.inj hc ▸ ⟨h.total, h.best nofun⟩
  | refreshCommitted =>
    refine ⟨h.of_sameBooks nofun nofun (s.sameBooks_violations _), fun c hc => ?_⟩
    exact some.inj hc ▸ ⟨h.total, h.best nofun⟩
  | refresh _ =>
    refine ⟨h.of_sameBooks nofun nofun (.refl s), fun c hc => ?_⟩
    exact some.inj hc ▸ ⟨h.total, h.best nofun⟩
  | finish hcount =>
    obtain ⟨noProgress, rfl⟩ := Session.countIteration_ok hcount
    exact ⟨⟨h.total, fun _ => h.best nofun, nofun⟩, hnone⟩
  | saveIteration _ =>
    refine ⟨h.of_sameBooks nofun nofun (.refl s), fun c hc => ?_⟩
    exact some.inj hc ▸ ⟨h.total, h.best nofun⟩
  | nextIteration _ => exact ⟨h.of_sameBooks nofun nofun (.refl s), hnone⟩

end BestKept

/-! ## Whole runs -/

/-- The executions of a run copy what they are told to copy. -/
def CopiesKeepContent (tr : List Event) : Prop :=
  ∀ x, Event.execute x ∈ tr → CopyKeepsContent x.env

/-- Progress is required, and the evaluator counts what the reports hold. -/
def RequiresProgress (env : RunEnv) (s : Session) (_ : Pc) : Event → Prop
  | .execute x => s.config.acceptance.requireDrcProgress = true ∧
      CountsTruly (x.envIn env s.config) s.currentSnapshot
  | _ => True

instance (env : RunEnv) (s : Session) (pc : Pc) (e : Event) :
    Decidable (RequiresProgress env s pc e) := by
  unfold RequiresProgress
  split <;> infer_instance

/-- The executor grants smaller totals only. -/
theorem grants_decreases {env : RunEnv} {s : Session} {pc : Pc} {e : Event} {tr : List Event}
    (hcopies : CopiesKeepContent (tr ++ [e])) (hguard : RequiresProgress env s pc e) :
    OnRecord.Grants (Decreases env) env s e := by
  rintro x w plan world' rfl - hrun hacc
  have hcopy : CopyKeepsContent (x.envIn env s.config) :=
    hcopies x (List.mem_append_right tr (List.mem_singleton.2 rfl))
  obtain ⟨ref, ref', href, href', hlt⟩ :=
    committed_total_lt hguard.1 hcopy hguard.2 hrun hacc
  refine ⟨_, _, ?_, ?_, hlt⟩
  · unfold RunEnv.total
    rw [show s.currentSnapshot.drcRef = some ref from href]
    rfl
  · unfold RunEnv.total
    rw [href']
    rfl

theorem progress_invariant (env : RunEnv) :
    RunInvariant env CopiesKeepContent (RequiresProgress env) (fun _ => True)
      (fun _ s pc => OnRecord (Decreases env) (Decreases env) env s pc ∧ BestKept env s pc)
      (fun _ c => CheckpointOnRecord (Decreases env) env c ∧ CheckpointBest env c) where
  inherit := fun _ _ h x hx => h x (List.mem_append_left _ hx)
  fresh := ⟨onRecord_fresh _ _ env, rfl, fun _ => rfl, nofun⟩
  mono := fun _ _ _ h => h
  node := by
    rintro tr s pc e s' pc' eff hcopies hguard ⟨hrecord, hbest⟩ hstep
    obtain ⟨hrecord', hsaved⟩ :=
      hrecord.node (grants_decreases hcopies hguard) (fun _ _ h _ => h) hstep
    obtain ⟨hbest', hsavedBest⟩ := hbest.node hrecord hstep
    exact ⟨⟨hrecord', hbest'⟩, fun c hc => ⟨hsaved c hc, hsavedBest c hc⟩⟩
  resumed := by
    rintro tr e c config m hashes epoch - ⟨hrecord, hbest⟩ hbaseline
    exact ⟨hrecord.resumeSession config hbaseline hashes epoch,
      hbest.total, fun _ => hbest.best, nofun⟩

/-- The accounts of a run between two windows: the recorded windows lead from the
baseline to the current snapshot, the committed ones by smaller totals and the
others by none, and the best snapshot is the current one and has the least total. -/
structure CommitsMonotone (env : RunEnv) (s : Session) : Prop where
  leads : Leads (Decreases env) env.baseline s.history.recorded
    ⟨s.history.published, s.currentSnapshot⟩
  best : s.bestSnapshot = s.currentSnapshot
  total : env.total s.bestSnapshot = .ok s.bestTotal
  least : ∀ q ∈ s.history.published, ∃ total, env.total q = .ok total ∧ s.bestTotal ≤ total

/-- **Commit monotonicity over whole runs**, through deaths, aborts and resumes;
and at the end of an iteration the last committed window names the current
snapshot. -/
theorem commits_monotone {env : RunEnv} {tr : List Event} {st : RunState} {p : Proc}
    (hrun : GuardedRun env (RequiresProgress env) (fun _ => True) tr st)
    (hcopies : CopiesKeepContent tr) (hp : st.proc = some p) :
    (p.pc.unrecorded = false → CommitsMonotone env p.session) ∧
    (p.pc = .counted → p.session.checkFinalSnapshot = .ok ⟨⟩) := by
  obtain ⟨hrecord, hbest⟩ := ((progress_invariant env).run hrun hcopies).1 p hp
  constructor
  · intro hpc
    have hleads := hrecord.leads hpc
    have hsame : p.session.bestSnapshot = p.session.currentSnapshot := by
      refine hbest.best ?_
      intro heq
      rw [heq] at hpc
      cases hpc
    obtain ⟨least, hleast, hall⟩ := hleads.total_le ⟨_, rfl⟩
    have htotal := hbest.total
    rw [hsame, hleast] at htotal
    obtain rfl := Except.ok.inj htotal
    exact ⟨hleads, hsame, hbest.total, hall⟩
  · intro hpc
    exact hrecord.checkFinalSnapshot (by rw [hpc]; rfl)

theorem commits_monotone_sample :
    ∃ st p, GuardedRun sampleRunEnv (RequiresProgress sampleRunEnv) (fun _ => True)
        Event.sampleCommit st ∧
      st.proc = some p ∧ p.session.currentSnapshot ≠ sampleRunEnv.baseline ∧
      p.session.bestTotal = 1 ∧ CommitsMonotone sampleRunEnv p.session := by
  have hplay : ∃ st, Runs.play
      (Runs.guardNext (stepGuard (RequiresProgress sampleRunEnv) fun _ => True)
        (RunState.next sampleRunEnv)) (RunState.fresh sampleRunEnv) Event.sampleCommit = some st ∧
      (st.proc.any fun p => p.pc = .accounted .commit ∧
        p.session.currentSnapshot ≠ sampleRunEnv.baseline ∧ p.session.bestTotal = 1) = true := by
    rw [← Option.any_eq_true]
    decide +kernel
  obtain ⟨st, hplay, hany⟩ := hplay
  obtain ⟨p, hp, hfacts⟩ := (Option.any_eq_true _ _).1 hany
  obtain ⟨hpc, hcurrent, htotal⟩ := of_decide_eq_true hfacts
  have hcopies : CopiesKeepContent Event.sampleCommit := by
    intro x hx
    have hx : x = sampleExecution := by
      simpa [Event.sampleCommit, Event.samplePlanned, Event.sampleOpening, Event.sampleStart,
        Event.sampleSelect] using hx
    rw [hx]
    intro _ _ _ _
    rfl
  have hrun := guardedRun_of_play hplay
  exact ⟨st, p, hrun, hp, hcurrent, htotal, (commits_monotone hrun hcopies hp).1 (by rw [hpc]; rfl)⟩

end DRCAgent
