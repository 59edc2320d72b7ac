/-
# Manifest and checkpoint

A run writes its state to two places: the manifest, at the start of a process and
when it stops through `_finalize_aborted` or `finalize_run`, and the checkpoints,
at every boundary. A resume compares the two and rejects the run when they tell
of different snapshots or iterations.

Main result:

* `resume_consistent`: the comparisons pass in every stopped run whose processes
  stopped in step: none died on a checkpoint its manifest does not know of, and
  none wrote its manifest ahead of its checkpoint.
-/
import DRCAgent.Workflow

namespace DRCAgent

open Option

/-! ## Agreement -/

/-- The two records tell of the same iteration and snapshots. -/
structure RecordsAgree (m : Manifest) (c : Checkpoint) : Prop where
  completed : manifestCompleted m c = some c.iteration
  snapshots : SnapshotsAgree m c

/-- The session stands where its last checkpoint was taken. -/
structure InStep (s : Session) (c : Checkpoint) : Prop where
  baseline : c.baselineSnapshot = s.baselineSnapshot
  current : c.currentSnapshot = s.currentSnapshot
  best : c.bestSnapshot = s.bestSnapshot
  iteration : c.iteration = s.completedIteration

/-- A manifest that counts the iterations of the checkpoint. -/
theorem manifestCompleted_of_some {m : Manifest} {c : Checkpoint}
    (h : m.iterationsCompleted = some c.iteration) : manifestCompleted m c = some c.iteration := by
  unfold manifestCompleted
  rw [if_neg (by rw [h]; rintro ⟨h, -⟩; cases h)]
  exact h

/-- **A stop in step.**  The manifest written at a stop agrees with the last
checkpoint. -/
theorem InStep.stopped {s : Session} {c : Checkpoint} (h : InStep s c)
    (hbaseline : s.manifest.baselineSnapshot = s.baselineSnapshot) (status : String)
    (failureDomain : Option String) :
    RecordsAgree (s.stoppedManifestOf status failureDomain) c where
  completed := by
    apply manifestCompleted_of_some
    rw [h.iteration]
    rfl
  snapshots := by
    refine ⟨?_, ?_, ?_⟩
    · rw [h.baseline]
      exact hbaseline
    · rw [h.current]
      rfl
    · rw [h.best]
      rfl

/-- Two checkpoints in step with one session agree with the same manifests. -/
theorem RecordsAgree.of_inStep {m : Manifest} {s : Session} {c c' : Checkpoint}
    (h : RecordsAgree m c) (hc : InStep s c) (hc' : InStep s c') : RecordsAgree m c' := by
  have hiteration : c'.iteration = c.iteration := by rw [hc.iteration, hc'.iteration]
  constructor
  · have hcompleted := h.completed
    unfold manifestCompleted at hcompleted ⊢
    rw [hiteration]
    exact hcompleted
  · obtain ⟨hbaseline, hcurrent, hbest⟩ := h.snapshots
    refine ⟨?_, ?_, ?_⟩
    · rw [hbaseline, hc.baseline, hc'.baseline]
    · rw [hcurrent, hc.current, hc'.current]
    · rw [hbest, hc.best, hc'.best]

/-! ## Identity -/

/-- The fields of the manifest that no run changes. -/
structure SameIdentity (env : RunEnv) (m : Manifest) : Prop where
  experimentId : m.experimentId = env.experimentId
  caseId : m.caseId = env.caseId
  seed : m.seed = env.seed
  method : m.method = env.presetName
  scientificConfigHash : m.scientificConfigHash = env.resume.scientificConfigHash env.config
  officialInputIdentity : m.officialInputIdentity = env.inputIdentity

/-- The identity a checkpoint carries. -/
structure CheckpointIdentity (env : RunEnv) (c : Checkpoint) : Prop where
  scientificConfigHash : c.scientificConfigHash = env.resume.scientificConfigHash env.config
  officialInputIdentity : c.officialInputIdentity = env.inputIdentity
  runIdentity : c.runIdentity = env.identity
  runIdentityHash : c.runIdentityHash = env.resume.stableHash env.identity

/-- The identity a session carries. -/
structure SessionIdentity (env : RunEnv) (s : Session) : Prop where
  manifest : SameIdentity env s.manifest
  config : env.resume.scientificConfigHash s.config = env.resume.scientificConfigHash env.config

/-- The scientific hash leaves the execution envelope out. -/
def ExcludesEnvelope (env : ResumeEnv) : Prop :=
  ∀ config envelope config', env.applyExecutionEnvelope config envelope = .ok config' →
    env.scientificConfigHash config' = env.scientificConfigHash config

/-- **The comparisons of a resume**, for records that agree and belong to the run. -/
theorem compareCheckpoint_eq_ok {env : RunEnv} {m : Manifest} {c : Checkpoint} {b : RunBinding}
    (hm : SameIdentity env m) (hc : CheckpointIdentity env c) (hagree : RecordsAgree m c)
    (hb : bindRun env.resume m = .ok b) : compareCheckpoint env.resume b m c = .ok ⟨⟩ := by
  obtain ⟨hidentity, hscientific, hrunIdentity⟩ := bindRun_eq_ok hb
  have hmanifest : m.scientificConfigHash = env.resume.scientificConfigHash b.config :=
    hidentity.2.2.2.1
  have hrun : env.resume.runIdentity env.resume.runId m.experimentId m.caseId m.method m.seed =
      env.identity := by
    rw [hm.experimentId, hm.caseId, hm.method, hm.seed]
    rfl
  unfold compareCheckpoint
  rw [require_of hagree.completed, require_of, require_of, require_of, require_of hagree.snapshots]
  · rfl
  · rw [hrunIdentity, hrun]
    exact ⟨hc.runIdentity, hc.runIdentityHash⟩
  · rw [hc.officialInputIdentity, hm.officialInputIdentity]
  · rw [hc.scientificConfigHash, hscientific, ← hmanifest, hm.scientificConfigHash]

/-! ## Stopping in step -/

/-- The session is ahead of its last checkpoint. -/
def Pc.ahead : Pc → Bool
  | .publishing => true
  | .published .commit => true
  | .accounted .commit => true
  | .counted => true
  | _ => false

/-- The process may die: it was resumed and has saved nothing but ends of windows
that committed nothing, or it is fresh and has saved nothing. -/
def Proc.MayDie (p : Proc) : Prop :=
  if p.session.resumeState.isSome then ∀ boundary ∈ p.saved, boundary = .windowComplete
  else p.saved = []

instance (p : Proc) : Decidable p.MayDie := by
  unfold Proc.MayDie
  infer_instance

/-- A process stops in step: it may die, or it writes a manifest that is not ahead
of its last checkpoint (or that no plain resume accepts). -/
def StopsInStep (st : RunState) : Event → Prop
  | .die => ∀ p, st.proc = some p → p.MayDie
  | .abort _ _ false => ∀ p, st.proc = some p → p.MayDie
  | .abort status failureDomain true => ∀ p, st.proc = some p → p.pc.ahead = true →
      resumableInterruption (p.session.stoppedManifestOf status failureDomain) = false
  | _ => True

instance (st : RunState) (e : Event) : Decidable (StopsInStep st e) := by
  unfold StopsInStep
  split <;> infer_instance

/-! ## The invariant -/

/-- The part of a process before its first checkpoint. -/
def Pc.opening : Pc → Bool
  | .initializing => true
  | .announced => true
  | _ => false

/-- What holds of a live process and its run directory. -/
structure LiveConsistent (env : RunEnv) (dir : RunDir) (p : Proc) : Prop where
  identity : SessionIdentity env p.session
  baseline : p.session.manifest.baselineSnapshot = p.session.baselineSnapshot
  inStep : p.pc.ahead = false → ∀ c, latestSafe dir.checkpoints = some c → InStep p.session c
  /-- A process that may die leaves records that agree. -/
  mayDie : p.MayDie → ∀ c, latestSafe dir.checkpoints = some c →
    ∃ m, dir.manifest = some m ∧ RecordsAgree m c
  fresh : p.session.resumeState.isSome = false → p.saved = [] →
    latestSafe dir.checkpoints = none
  resumed : p.session.resumeState.isSome = true → ∃ c, latestSafe dir.checkpoints = some c
  written : p.pc ≠ .initializing → dir.manifest.isSome = true
  opening : p.pc.opening = true → p.saved = [] ∧
    (p.session.resumeState.isSome = false → p.session.completedIteration = 0)
  announced : p.pc = .announced → p.session.resumeState.isSome = false
  /-- What a resumed process is about to write. -/
  initializing : p.pc = .initializing → p.session.resumeState.isSome = true →
    p.session.manifest.iterationsCompleted = none ∨
      p.session.manifest.iterationsCompleted = some p.session.completedIteration

/-- What holds of a run at every point. -/
structure RunConsistent (env : RunEnv) (st : RunState) : Prop where
  manifests : ∀ m, st.dir.manifest = some m → SameIdentity env m
  checkpoints : ∀ c, latestSafe st.dir.checkpoints = some c →
    CheckpointIdentity env c ∧ st.dir.manifest.isSome = true
  live : ∀ p, st.proc = some p → LiveConsistent env st.dir p
  stopped : st.proc = none → ∀ c, latestSafe st.dir.checkpoints = some c →
    ∀ m, st.dir.manifest = some m → resumableInterruption m = true → RecordsAgree m c

/-! ## Nodes -/

@[simp] theorem RunDir.apply_nothing (dir : RunDir) : dir.apply {} = dir := by
  obtain ⟨manifest, checkpoints, journal⟩ := dir
  simp [RunDir.apply]

namespace LiveConsistent

variable {env : RunEnv} {dir : RunDir} {s s' : Session} {pc pc' : Pc} {saved : List SafeBoundary}

/-- A step inside the process that writes nothing. -/
theorem transfer (h : LiveConsistent env dir ⟨s, pc, saved⟩) (hpc : pc.opening = false)
    (hpc' : pc'.opening = false) (hmanifest : s'.manifest = s.manifest)
    (hconfig : s'.config = s.config) (hbaseline : s'.baselineSnapshot = s.baselineSnapshot)
    (hresume : s'.resumeState = s.resumeState)
    (hinStep : pc'.ahead = false → ∀ c, latestSafe dir.checkpoints = some c → InStep s' c) :
    LiveConsistent env dir ⟨s', pc', saved⟩ where
  identity := by
    refine ⟨?_, ?_⟩
    · rw [hmanifest]
      exact h.identity.manifest
    · rw [hconfig]
      exact h.identity.config
  baseline := by
    rw [hmanifest, hbaseline]
    exact h.baseline
  inStep := hinStep
  mayDie := by
    intro hdie
    unfold Proc.MayDie at hdie
    rw [hresume] at hdie
    exact h.mayDie hdie
  fresh := by
    rw [hresume]
    exact h.fresh
  resumed := by
    rw [hresume]
    exact h.resumed
  written := by
    intro _
    apply h.written
    rintro rfl
    cases hpc
  opening := fun hopening => absurd hopening (by rw [hpc']; decide)
  announced := by
    rintro rfl
    cases hpc'
  initializing := by
    rintro rfl
    cases hpc'

/-- A step that writes nothing and keeps the books, where nothing is ahead. -/
theorem of_sameBooks (h : LiveConsistent env dir ⟨s, pc, saved⟩) (hpc : pc.opening = false)
    (hahead : pc.ahead = false) (hpc' : pc'.opening = false) (hbooks : s.SameBooks s') :
    LiveConsistent env dir ⟨s', pc', saved⟩ := by
  refine h.transfer hpc hpc' hbooks.manifest hbooks.config hbooks.baseline hbooks.resumeState ?_
  intro _ c hc
  obtain ⟨hbaseline, hcurrent, hbest, hiteration⟩ := h.inStep hahead c hc
  exact ⟨by rw [hbooks.baseline]; exact hbaseline, by rw [hbooks.current]; exact hcurrent,
    by rw [hbooks.best]; exact hbest, by rw [hbooks.completed]; exact hiteration⟩

/-- A step that saves a checkpoint which is in step. -/
theorem save (h : LiveConsistent env dir ⟨s, pc, saved⟩) {c : Checkpoint} (hc : InStep s' c)
    (hpc : pc ≠ .initializing) (hpc' : pc'.opening = false) (hmanifest : s'.manifest = s.manifest)
    (hconfig : s'.config = s.config) (hbaseline : s'.baselineSnapshot = s.baselineSnapshot)
    (hresume : s'.resumeState = s.resumeState)
    (hcomplete : c.boundary = .windowComplete → ∀ c₀, latestSafe dir.checkpoints = some c₀ →
      InStep s' c₀) :
    LiveConsistent env (dir.apply { checkpoint := some c })
      ⟨s', pc', saved ++ [c.boundary]⟩ := by
  have hlatest : latestSafe (dir.apply { checkpoint := some c }).checkpoints = some c := by
    rw [latestSafe_apply]
    rfl
  refine ⟨⟨?_, ?_⟩, ?_, ?_, ?_, ?_, ?_, ?_, ?_, ?_, ?_⟩
  · rw [hmanifest]
    exact h.identity.manifest
  · rw [hconfig]
    exact h.identity.config
  · rw [hmanifest, hbaseline]
    exact h.baseline
  · intro _ c' hc'
    rw [hlatest] at hc'
    exact some.inj hc' ▸ hc
  · intro hdie c' hc'
    rw [hlatest] at hc'
    obtain rfl := some.inj hc'
    unfold Proc.MayDie at hdie
    dsimp only at hdie
    rw [hresume] at hdie
    split_ifs at hdie with hresumed
    · -- only ends of windows were saved: the manifest agreed with the checkpoint before
      have hbefore : Proc.MayDie ⟨s, pc, saved⟩ := by
        unfold Proc.MayDie
        rw [if_pos hresumed]
        exact fun boundary hmem => hdie boundary (List.mem_append_left _ hmem)
      have hboundary : c.boundary = .windowComplete :=
        hdie _ (List.mem_append_right _ (List.mem_singleton.2 rfl))
      obtain ⟨c₀, hc₀⟩ := h.resumed hresumed
      obtain ⟨m, hm, hagree⟩ := h.mayDie hbefore c₀ hc₀
      refine ⟨m, ?_, hagree.of_inStep (hcomplete hboundary c₀ hc₀) hc⟩
      show (none : Option Manifest).or dir.manifest = some m
      rw [none_or]
      exact hm
    · exact absurd hdie (by simp)
  · intro _ hnil
    exact absurd hnil (by simp)
  · intro _
    exact ⟨c, hlatest⟩
  · intro _
    show ((none : Option Manifest).or dir.manifest).isSome = true
    rw [none_or]
    exact h.written hpc
  · exact fun hopening => absurd hopening (by rw [hpc']; decide)
  · rintro rfl
    cases hpc'
  · rintro rfl
    cases hpc'

end LiveConsistent

/-- The manifest of a starting process keeps the identity of the run. -/
theorem SameIdentity.initializedManifest {env : RunEnv} {s : Session}
    (h : SameIdentity env s.manifest) : SameIdentity env s.initializedManifest := by
  obtain ⟨h₁, h₂, h₃, h₄, h₅, h₆⟩ := h
  unfold Session.initializedManifest
  split_ifs
  · exact ⟨h₁, h₂, h₃, h₄, h₅, h₆⟩
  · exact ⟨h₁, h₂, h₃, h₄, h₅, h₆⟩
  · exact ⟨h₁, h₂, h₃, h₄, h₅, h₆⟩

/-- So does the manifest of a stop. -/
theorem SameIdentity.stoppedManifest {env : RunEnv} {s : Session}
    (h : SameIdentity env s.manifest) (status : String) (failureDomain : Option String) :
    SameIdentity env (s.stoppedManifestOf status failureDomain) := by
  obtain ⟨h₁, h₂, h₃, h₄, h₅, h₆⟩ := h
  exact ⟨h₁, h₂, h₃, h₄, h₅, h₆⟩

/-- Every checkpoint of a session carries the identity of the run. -/
theorem SessionIdentity.checkpoint {env : RunEnv} {s : Session} (h : SessionIdentity env s)
    {c : Checkpoint}
    (hscientific : c.scientificConfigHash = env.resume.scientificConfigHash s.config)
    (hinputs : c.officialInputIdentity = env.inputIdentity) (hrun : c.runIdentity = env.identity)
    (hhash : c.runIdentityHash = env.resume.stableHash env.identity) : CheckpointIdentity env c :=
  ⟨hscientific.trans h.config, hinputs, hrun, hhash⟩

/-- **A starting process** writes a manifest that agrees with its checkpoint. -/
theorem LiveConsistent.writeManifest {env : RunEnv} {dir : RunDir} {s : Session}
    {saved : List SafeBoundary} (h : LiveConsistent env dir ⟨s, .initializing, saved⟩) :
    LiveConsistent env (dir.apply { manifest := some s.initializedManifest })
      ⟨{ s with manifest := s.initializedManifest },
        if s.resumeState.isSome then .ready else .announced, saved⟩ := by
  have hlatest : latestSafe (dir.apply { manifest := some s.initializedManifest }).checkpoints =
      latestSafe dir.checkpoints := by
    rw [latestSafe_apply]
    rfl
  have hbaseline : s.initializedManifest.baselineSnapshot = s.baselineSnapshot := by
    rw [← show s.manifest.baselineSnapshot = s.baselineSnapshot from h.baseline]
    unfold Session.initializedManifest
    split_ifs <;> rfl
  obtain ⟨hsaved, hzero⟩ := h.opening rfl
  refine ⟨⟨h.identity.manifest.initializedManifest, h.identity.config⟩, hbaseline, ?_, ?_, ?_, ?_,
    fun _ => rfl, ?_, ?_, ?_⟩
  · intro _ c hc
    rw [hlatest] at hc
    obtain ⟨h₁, h₂, h₃, h₄⟩ := h.inStep rfl c hc
    exact ⟨h₁, h₂, h₃, h₄⟩
  · intro _ c hc
    rw [hlatest] at hc
    refine ⟨_, rfl, ?_⟩
    cases hresumed : s.resumeState.isSome with
    | false =>
      rw [h.fresh hresumed hsaved] at hc
      cases hc
    | true =>
      obtain ⟨hb, hcurrent, hbest, hiteration⟩ := h.inStep rfl c hc
      have hcompleted : s.initializedManifest.iterationsCompleted =
          s.manifest.iterationsCompleted := by
        unfold Session.initializedManifest
        split_ifs <;> rfl
      have hstatus : s.initializedManifest.status = "RUNNING" := by
        unfold Session.initializedManifest
        rw [if_pos hresumed]
      refine ⟨?_, hbaseline.trans hb.symm, ?_, ?_⟩
      · rcases h.initializing rfl hresumed with hnone | hsome
        · unfold manifestCompleted
          rw [if_pos ⟨hcompleted.trans hnone, Or.inl hstatus⟩]
        · apply manifestCompleted_of_some
          rw [hcompleted, hiteration]
          exact hsome
      · unfold Session.initializedManifest
        rw [if_pos hresumed, hcurrent]
      · unfold Session.initializedManifest
        rw [if_pos hresumed, hbest]
  · intro hfresh hnil
    rw [hlatest]
    exact h.fresh hfresh hnil
  · intro hresumed
    rw [hlatest]
    exact h.resumed hresumed
  · exact fun _ => ⟨hsaved, hzero⟩
  · intro hannounced
    cases hresumed : s.resumeState.isSome with
    | false => rfl
    | true =>
      dsimp only at hannounced
      rw [hresumed] at hannounced
      cases hannounced
  · intro hinitializing
    dsimp only at hinitializing
    split_ifs at hinitializing

/-- No node goes back to the start of a process. -/
theorem NodeStep.started {env : RunEnv} {s s' : Session} {pc pc' : Pc} {e : Event} {eff : Effects}
    (h : NodeStep env s pc e s' pc' eff) : pc' ≠ .initializing := by
  cases h with
  | writeManifest => split_ifs <;> nofun
  | select _ => split_ifs <;> nofun
  | _ => nofun

/-- **Every node keeps the process consistent** with its run directory. -/
theorem LiveConsistent.node {env : RunEnv} {dir : RunDir} {s s' : Session} {pc pc' : Pc}
    {saved : List SafeBoundary} {e : Event} {eff : Effects}
    (h : LiveConsistent env dir ⟨s, pc, saved⟩) (hstep : NodeStep env s pc e s' pc' eff) :
    LiveConsistent env (dir.apply eff)
        ⟨s', pc', saved ++ (eff.checkpoint.map (·.boundary)).toList⟩ ∧
      (∀ m, eff.manifest = some m → SameIdentity env m) ∧
      ∀ c, eff.checkpoint = some c → CheckpointIdentity env c := by
  -- most nodes write nothing
  have hquiet : ∀ {s' : Session} {pc' : Pc}, LiveConsistent env dir ⟨s', pc', saved⟩ →
      LiveConsistent env (dir.apply {}) ⟨s', pc', saved ++ []⟩ ∧
        (∀ m, (none : Option Manifest) = some m → SameIdentity env m) ∧
        ∀ c, (none : Option Checkpoint) = some c → CheckpointIdentity env c := by
    intro s' pc' hlive
    rw [RunDir.apply_nothing, List.append_nil]
    exact ⟨hlive, (fun m hm => nomatch hm), (fun c hc => nomatch hc)⟩
  cases hstep with
  | writeManifest =>
    refine ⟨?_, fun m hm => ?_, fun c hc => nomatch hc⟩
    · show LiveConsistent env _ ⟨_, _, saved ++ []⟩
      rw [List.append_nil]
      exact h.writeManifest
    · exact some.inj hm ▸ h.identity.manifest.initializedManifest
  | saveInitial =>
    have hc : InStep s (s.initialCheckpoint env) :=
      ⟨rfl, rfl, rfl, ((h.opening rfl).2 (h.announced rfl)).symm⟩
    refine ⟨h.save hc nofun rfl rfl rfl rfl rfl (fun hboundary => nomatch hboundary),
      (fun m hm => nomatch hm), fun c hc => ?_⟩
    exact some.inj hc ▸ h.identity.checkpoint rfl rfl rfl rfl
  | start hstart =>
    rcases Session.startIteration_ok hstart with rfl | ⟨total, frontier, -, rfl⟩
    · exact hquiet (h.of_sameBooks rfl rfl rfl (s.sameBooks_reopen _ _))
    · exact hquiet (h.transfer rfl rfl rfl rfl rfl rfl fun _ c hc =>
        ⟨(h.inStep rfl c hc).baseline, (h.inStep rfl c hc).current, (h.inStep rfl c hc).best,
          (h.inStep rfl c hc).iteration⟩)
  | select hselect =>
    refine hquiet (h.of_sameBooks rfl rfl ?_ (Session.sameBooks_selectActiveSubgraphs hselect))
    split_ifs <;> rfl
  | plan => exact hquiet (h.of_sameBooks rfl rfl rfl (s.sameWindow_planSubgraph _).toSameBooks)
  | degrade =>
    exact hquiet (h.of_sameBooks rfl rfl rfl (s.sameWindow_degradeSubgraph _ _ _).toSameBooks)
  | coordinate =>
    exact hquiet (h.of_sameBooks rfl rfl rfl (s.sameWindow_aggregatePlans _).toSameBooks)
  | skip _ => exact hquiet (h.of_sameBooks rfl rfl rfl s.sameWindow_skip.toSameBooks)
  | execute _ _ _ =>
    exact hquiet (h.of_sameBooks rfl rfl rfl (s.sameWindow_recordTransaction _).toSameBooks)
  | publish _ _ hpublish =>
    obtain ⟨-, rfl⟩ := Session.publishCurrent_ok hpublish
    exact hquiet (h.transfer rfl rfl rfl rfl rfl rfl fun hahead => nomatch hahead)
  | updateBest hbest =>
    obtain ⟨total, -, ⟨-, rfl⟩ | ⟨-, rfl⟩⟩ := Session.publishBest_ok hbest
    · exact hquiet (h.transfer rfl rfl rfl rfl rfl rfl fun hahead => nomatch hahead)
    · exact hquiet (h.transfer rfl rfl rfl rfl rfl rfl fun hahead => nomatch hahead)
  | settle _ =>
    refine hquiet (h.transfer rfl rfl rfl rfl rfl rfl fun _ => h.inStep rfl)
  | @account w status _ =>
    refine hquiet (h.transfer rfl rfl rfl rfl rfl rfl fun hahead c hc => ?_)
    have hbefore : (Pc.published status).ahead = false := by
      cases status <;> first | rfl | cases hahead
    obtain ⟨h₁, h₂, h₃, h₄⟩ := h.inStep hbefore c hc
    exact ⟨h₁, h₂, h₃, h₄⟩
  | saveCommit =>
    refine ⟨h.save ⟨rfl, rfl, rfl, rfl⟩ nofun rfl rfl rfl rfl rfl
      (fun hboundary => nomatch hboundary), (fun m hm => nomatch hm), fun c hc => ?_⟩
    exact some.inj hc ▸ h.identity.checkpoint rfl rfl rfl rfl
  | @refreshCommitted violations =>
    refine ⟨h.save ⟨rfl, rfl, rfl, rfl⟩ nofun rfl rfl rfl rfl rfl (fun _ c hc => ?_),
      (fun m hm => nomatch hm), fun c hc => ?_⟩
    · obtain ⟨h₁, h₂, h₃, h₄⟩ := h.inStep rfl c hc
      exact ⟨h₁, h₂, h₃, h₄⟩
    · exact some.inj hc ▸ h.identity.checkpoint rfl rfl rfl rfl
  | @refresh violations status hstatus =>
    have hahead : (Pc.accounted status).ahead = false := by
      cases status <;> first | rfl | exact absurd rfl hstatus
    refine ⟨h.save ⟨rfl, rfl, rfl, rfl⟩ nofun rfl rfl rfl rfl rfl (fun _ => h.inStep hahead),
      (fun m hm => nomatch hm), fun c hc => ?_⟩
    exact some.inj hc ▸ h.identity.checkpoint rfl rfl rfl rfl
  | finish hcount =>
    obtain ⟨noProgress, rfl⟩ := Session.countIteration_ok hcount
    exact hquiet (h.transfer rfl rfl rfl rfl rfl rfl fun hahead => nomatch hahead)
  | saveIteration _ =>
    refine ⟨h.save ⟨rfl, rfl, rfl, rfl⟩ nofun rfl rfl rfl rfl rfl
      (fun hboundary => nomatch hboundary), (fun m hm => nomatch hm), fun c hc => ?_⟩
    exact some.inj hc ▸ h.identity.checkpoint rfl rfl rfl rfl
  | nextIteration _ => exact hquiet (h.of_sameBooks rfl rfl rfl (.refl s))

/-! ## Whole runs -/

/-- A process that may die leaves a consistent run. -/
theorem RunConsistent.died {env : RunEnv} {dir : RunDir} {p : Proc}
    (h : RunConsistent env ⟨dir, some p⟩) (hdie : p.MayDie) : RunConsistent env ⟨dir, none⟩ where
  manifests := h.manifests
  checkpoints := h.checkpoints
  live := fun p hp => nomatch hp
  stopped := by
    intro _ c hc m hm _
    obtain ⟨m', hm', hagree⟩ := (h.live p rfl).mayDie hdie c hc
    change dir.manifest = some m at hm
    rw [hm] at hm'
    exact some.inj hm' ▸ hagree

/-- A row that is not safe changes no checkpoint. -/
theorem RunConsistent.noted {env : RunEnv} {dir : RunDir} (h : RunConsistent env ⟨dir, none⟩)
    (boundary : String) :
    RunConsistent env
      ⟨{ dir with checkpoints := dir.checkpoints ++ [.notSafe boundary] }, none⟩ where
  manifests := h.manifests
  checkpoints := by
    intro c hc
    exact h.checkpoints c (by simpa using hc)
  live := fun p hp => nomatch hp
  stopped := by
    intro _ c hc
    exact h.stopped rfl c (by simpa using hc)

/-- A process that writes its manifest in step leaves a consistent run. -/
theorem RunConsistent.stop {env : RunEnv} {dir : RunDir} {p : Proc}
    (h : RunConsistent env ⟨dir, some p⟩) (status : String) (failureDomain : Option String)
    (hstop : p.pc.ahead = true →
      resumableInterruption (p.session.stoppedManifestOf status failureDomain) = false) :
    RunConsistent env
      ⟨{ dir with manifest := some (p.session.stoppedManifestOf status failureDomain) }, none⟩ where
  manifests := by
    intro m hm
    exact some.inj hm ▸ (h.live p rfl).identity.manifest.stoppedManifest status failureDomain
  checkpoints := fun c hc => ⟨(h.checkpoints c hc).1, rfl⟩
  live := fun p hp => nomatch hp
  stopped := by
    intro _ c hc m hm hresumable
    obtain rfl := some.inj hm
    cases hahead : p.pc.ahead with
    | true =>
      rw [hstop hahead] at hresumable
      cases hresumable
    | false =>
      exact ((h.live p rfl).inStep hahead c hc).stopped (h.live p rfl).baseline _ _

/-- **A resume starts a consistent process**, whatever stopped the last one. -/
theorem RunConsistent.resume {env : RunEnv} (hexcludes : ExcludesEnvelope env.resume)
    {dir : RunDir} {m : Manifest} {req : ResumeRequest} {l : Launch}
    (h : RunConsistent env ⟨dir, none⟩) (hmanifest : dir.manifest = some m)
    (hresume : resumeP5 env.resume req m dir.checkpoints dir.journal = .ok (.execute l)) :
    RunConsistent env
      ⟨{ dir with journal := l.journal }, some ⟨l.session, .initializing, []⟩⟩ := by
  obtain ⟨a, config, records, epoch, hadm, hlatest, hconfig, hsession⟩ := resumeP5_execute hresume
  have hcompared := hadm.compared
  unfold compareCheckpoint at hcompared
  obtain ⟨_, hiteration, hcompared⟩ := except_bind_ok hcompared
  obtain ⟨_, hscientific, hcompared⟩ := except_bind_ok hcompared
  obtain ⟨_, -, hcompared⟩ := except_bind_ok hcompared
  obtain ⟨_, -, hcompared⟩ := except_bind_ok hcompared
  rw [require_eq_ok] at hiteration hscientific hcompared
  have hagree : RecordsAgree m a.state := ⟨hiteration, hcompared⟩
  have hidentity : SameIdentity env (resumedManifest env.resume m records l.envelope) := by
    obtain ⟨h₁, h₂, h₃, h₄, h₅, h₆⟩ := h.manifests m hmanifest
    exact ⟨h₁, h₂, h₃, h₄, h₅, h₆⟩
  have hhash : env.resume.scientificConfigHash config =
      env.resume.scientificConfigHash env.config := by
    rw [hexcludes _ _ _ hconfig, ← (bindRun_eq_ok hadm.binding).2.1, ← hscientific]
    exact (h.checkpoints _ hlatest).1.scientificConfigHash
  refine ⟨h.manifests, h.checkpoints, fun p hp => ?_, fun hnone => nomatch hnone⟩
  obtain rfl := some.inj hp
  rw [hsession]
  refine ⟨⟨hidentity, hhash⟩, rfl, ?_, ?_, nofun, ?_, fun hne => absurd rfl hne, ?_, nofun, ?_⟩
  · intro _ c hc
    change latestSafe dir.checkpoints = some c at hc
    rw [hlatest] at hc
    obtain rfl := some.inj hc
    exact ⟨hagree.snapshots.1.symm, rfl, rfl, rfl⟩
  · intro _ c hc
    change latestSafe dir.checkpoints = some c at hc
    rw [hlatest] at hc
    obtain rfl := some.inj hc
    exact ⟨m, hmanifest, hagree⟩
  · exact fun _ => ⟨a.state, hlatest⟩
  · exact fun _ => ⟨rfl, nofun⟩
  · intro _ _
    show m.iterationsCompleted = none ∨ m.iterationsCompleted = some a.state.iteration
    unfold manifestCompleted at hiteration
    split_ifs at hiteration with hnone
    · exact .inl hnone.1
    · exact .inr hiteration

/-- A fresh run is consistent. -/
theorem runConsistent_fresh (env : RunEnv) : RunConsistent env (RunState.fresh env) where
  manifests := fun m hm => nomatch hm
  checkpoints := fun c hc => nomatch hc
  live := by
    intro p hp
    obtain rfl := some.inj hp
    refine ⟨⟨⟨rfl, rfl, rfl, rfl, rfl, rfl⟩, rfl⟩, rfl, ?_, ?_, fun _ _ => rfl, nofun,
      fun hne => absurd rfl hne, fun _ => ⟨rfl, fun _ => rfl⟩, nofun, nofun⟩
    · exact fun _ c hc => nomatch hc
    · exact fun _ c hc => nomatch hc
  stopped := fun hnone => nomatch hnone

/-- **One step.** -/
theorem RunConsistent.step {env : RunEnv} (hexcludes : ExcludesEnvelope env.resume)
    {st st' : RunState} {e : Event} (h : RunConsistent env st) (hguard : StopsInStep st e)
    (hstep : Step env st e st') : RunConsistent env st' := by
  cases hstep with
  | @node dir s s' pc pc' saved e eff hnode =>
    obtain ⟨hlive, hmanifest, hcheckpoint⟩ := (h.live _ rfl).node hnode
    refine ⟨fun m hm => ?_, fun c hc => ?_, fun p hp => some.inj hp ▸ hlive,
      fun hnone => nomatch hnone⟩
    · change eff.manifest.or dir.manifest = some m at hm
      rcases or_eq_some_iff.1 hm with hm | ⟨-, hm⟩
      · exact hmanifest m hm
      · exact h.manifests m hm
    · rw [latestSafe_apply] at hc
      show CheckpointIdentity env c ∧ (eff.manifest.or dir.manifest).isSome = true
      rcases or_eq_some_iff.1 hc with hc | ⟨-, hc⟩
      · refine ⟨hcheckpoint c hc, ?_⟩
        exact hlive.written hnode.started
      · obtain ⟨hidentity, hsome⟩ := h.checkpoints c hc
        refine ⟨hidentity, ?_⟩
        rw [isSome_or, Bool.or_eq_true]
        exact .inr hsome
  | @finalize dir s saved timeUp status _ _ =>
    exact (h.stop _ _ fun hahead => nomatch hahead).noted _
  | @abort dir p status failureDomain written =>
    cases written with
    | true => exact (h.stop status failureDomain (hguard p rfl)).noted _
    | false => exact (h.died (hguard p rfl)).noted _
  | @die dir p => exact h.died (hguard p rfl)
  | resume hmanifest hresume => exact h.resume hexcludes hmanifest hresume
  | authorizeAndDie _ _ =>
    exact ⟨h.manifests, h.checkpoints, fun p hp => (nomatch hp), fun _ => h.stopped rfl⟩

/-- **Resume consistency over whole runs.**  A run whose processes stopped in
step passes the comparisons of a resume, and a resume that is accepted restores
the latest safe checkpoint. -/
theorem resume_consistent {env : RunEnv} (hexcludes : ExcludesEnvelope env.resume)
    {tr : List Event} {st : RunState}
    (hrun : Runs.Run (Runs.Guarded StopsInStep (Step env)) (RunState.fresh env) tr st)
    (hstopped : st.proc = none) {c : Checkpoint} (hc : latestSafe st.dir.checkpoints = some c) :
    ∃ m, st.dir.manifest = some m ∧
      (resumableInterruption m = true → ∀ b, bindRun env.resume m = .ok b →
        compareCheckpoint env.resume b m c = .ok ⟨⟩) ∧
      ∀ req l, resumeP5 env.resume req m st.dir.checkpoints st.dir.journal = .ok (.execute l) →
        l.session.currentSnapshot = c.currentSnapshot ∧
        l.session.bestSnapshot = c.bestSnapshot ∧
        l.session.baselineSnapshot = c.baselineSnapshot ∧
        l.session.completedIteration = c.iteration := by
  have h : RunConsistent env st :=
    Runs.Run.guarded_invariant (RunConsistent env) (runConsistent_fresh env)
      (fun _ _ _ h hguard hstep => h.step hexcludes hguard hstep) hrun
  obtain ⟨hidentity, hsome⟩ := h.checkpoints c hc
  obtain ⟨m, hm⟩ := isSome_iff_exists.1 hsome
  refine ⟨m, hm, fun hresumable b hb => ?_, fun req l hresume => ?_⟩
  · exact compareCheckpoint_eq_ok (h.manifests m hm) hidentity
      (h.stopped hstopped c hc m hm hresumable) hb
  · obtain ⟨a, config, records, epoch, hadm, hlatest, -, hsession⟩ := resumeP5_execute hresume
    rw [hc] at hlatest
    obtain rfl := some.inj hlatest
    have hcompared := hadm.compared
    unfold compareCheckpoint at hcompared
    obtain ⟨_, -, hcompared⟩ := except_bind_ok hcompared
    obtain ⟨_, -, hcompared⟩ := except_bind_ok hcompared
    obtain ⟨_, -, hcompared⟩ := except_bind_ok hcompared
    obtain ⟨_, -, hcompared⟩ := except_bind_ok hcompared
    rw [require_eq_ok] at hcompared
    rw [hsession]
    exact ⟨rfl, rfl, hcompared.1, rfl⟩

/-- A fresh run that dies after its first checkpoint is refused: its manifest does
not tell of the current and the best snapshot yet. -/
theorem died_run_refused :
    ∃ st m, Runs.Run (Step sampleRunEnv) (RunState.fresh sampleRunEnv)
        [.writeManifest, .saveInitial, .die] st ∧
      st.dir.manifest = some m ∧ resumableInterruption m = true ∧
      (latestSafe st.dir.checkpoints).isSome = true ∧
      (resumeP5 sampleRunEnv.resume {} m st.dir.checkpoints st.dir.journal).toOption.isSome =
        false ∧
      ∀ b, bindRun sampleRunEnv.resume m = .ok b → ∀ c, latestSafe st.dir.checkpoints = some c →
        compareCheckpoint sampleRunEnv.resume b m c =
          .error "RESUME_SNAPSHOT_CHECKPOINT_MISMATCH" := by
  refine ⟨_, _, run_of_play (by rfl), by rfl, by rfl, by rfl, by rfl, fun b hb c hc => ?_⟩
  obtain rfl := Except.ok.inj hb
  obtain rfl := some.inj hc
  rfl

theorem resume_consistent_sample :
    ∃ st c, Runs.Run (Runs.Guarded StopsInStep (Step sampleRunEnv)) (RunState.fresh sampleRunEnv)
        [.writeManifest, .saveInitial, .sampleStart, .abort "INTERRUPTED" none true, .resume {},
          .writeManifest, .die] st ∧
      latestSafe st.dir.checkpoints = some c ∧
      ∃ m, st.dir.manifest = some m ∧ resumableInterruption m = true ∧
        ∀ b, bindRun sampleRunEnv.resume m = .ok b →
          compareCheckpoint sampleRunEnv.resume b m c = .ok ⟨⟩ := by
  obtain ⟨st, c, hrun, hstopped, hc, hresumable⟩ :
      ∃ st c, Runs.Run (Runs.Guarded StopsInStep (Step sampleRunEnv))
          (RunState.fresh sampleRunEnv)
          [.writeManifest, .saveInitial, .sampleStart, .abort "INTERRUPTED" none true, .resume {},
            .writeManifest, .die] st ∧
        st.proc = none ∧ latestSafe st.dir.checkpoints = some c ∧
        (st.dir.manifest.all fun m => resumableInterruption m) = true :=
    ⟨_, _, Runs.guarded_of_play (fun _ _ _ => RunState.next_sound) (by rfl), by rfl, by rfl,
      by rfl⟩
  have hexcludes : ExcludesEnvelope sampleRunEnv.resume := fun _ _ _ _ => rfl
  obtain ⟨m, hm, hcompare, -⟩ := resume_consistent hexcludes hrun hstopped hc
  rw [hm] at hresumable
  exact ⟨st, c, hrun, hc, m, hm, hresumable, hcompare hresumable⟩

end DRCAgent
