/-
# The conformance of a finished run

`finalize_run` (src/drc_agent/workflow/runtime.py) writes a table of conformance marks beside
the metrics of the run. The mark `C6` compares two totals: the best one of the session, and
the one of the baseline's report.

Where progress is required and the evaluator counts truly, every commit takes the total down
by one at least. So the commits of a whole run, through deaths and resumes, are at most the
violations that went away, and `C6` says just that there was a commit
(`conformance_counts_commits`).
-/
import DRCAgent.CommitMonotone

namespace DRCAgent

open Runs

/-! ## The table -/

/-- `scope_pass` -/
def scopePass (graphBuilt : Bool) (maxActiveSubgraphRegions maxLlmViewRegions : ℤ)
    (subgraphs : List AgentSubgraph) : Bool :=
  graphBuilt && subgraphs.all fun item =>
    (item.scopeKind ≠ "FLAT" || item.regionIds.length ≤ maxActiveSubgraphRegions) &&
      (item.scopeKind ≠ "PLANNING_VIEW" || item.regionIds.length ≤ maxLlmViewRegions)

/-- `run_conformance`; `completenessMilli` is of the audit of the last candidate graph, if
there is one. -/
def runConformance (scopes : Bool) (completenessMilli : Option ℤ) (bestTotal initialTotal : ℤ) :
    List (String × String) :=
  [("C0", "SEE_PROJECT_CONFORMANCE_REPORT"), ("C1", "PASS"),
    ("C2", "SEE_PROJECT_CONFORMANCE_REPORT"),
    ("C3", if scopes then "PASS" else "FAIL"),
    ("C4", if completenessMilli = some 1000 then "PASS" else "NOT_EVALUATED"),
    ("C5", "SEE_PROJECT_CONFORMANCE_REPORT"),
    ("C6", if bestTotal < initialTotal then "PASS" else "FAIL")]

/-- The table of a session, with the total of its baseline. -/
def Session.conformance (env : RunEnv) (s : Session) (graphBuilt : Bool) (maxLlmViewRegions : ℤ)
    (subgraphs : List AgentSubgraph) (completenessMilli : Option ℤ) :
    Except String (List (String × String)) := do
  let initialTotal ← env.total s.baselineSnapshot
  pure (runConformance
    (scopePass graphBuilt s.config.maxActiveSubgraphRegions maxLlmViewRegions subgraphs)
    completenessMilli s.bestTotal initialTotal)

theorem runConformance_c6 (scopes : Bool) (completenessMilli : Option ℤ)
    (bestTotal initialTotal : ℤ) :
    (runConformance scopes completenessMilli bestTotal initialTotal).lookup "C6" = some "PASS" ↔
      bestTotal < initialTotal := by
  have hlookup : (runConformance scopes completenessMilli bestTotal initialTotal).lookup "C6" =
      some (if bestTotal < initialTotal then "PASS" else "FAIL") := rfl
  rw [hlookup]
  split_ifs with hlt
  · exact iff_of_true rfl hlt
  · exact iff_of_false (by decide) hlt

/-! ## Counting the commits -/

/-- The recorded commits. -/
def commitCount (ws : List WindowResult) : ℕ := ws.countP (·.status = .commit)

theorem commitCount_concat (ws : List WindowResult) (w : WindowResult) :
    commitCount (ws ++ [w]) = commitCount ws + if w.status = .commit then 1 else 0 := by
  rw [commitCount, commitCount, List.countP_append, List.countP_singleton]
  simp

/-- Every commit takes the total down, and nothing else moves it. -/
theorem Leads.total_commitCount {env : RunEnv} {root : DesignSnapshotRef}
    {ws : List WindowResult} {line : Line} {initial : ℤ}
    (h : Leads (Decreases env) root ws line) (hroot : env.total root = .ok initial) :
    ∃ total, env.total line.current = .ok total ∧ total + commitCount ws ≤ initial ∧
      (commitCount ws = 0 → total = initial) := by
  refine Run.history (fun _ => True) (fun ws line => ∃ total,
    env.total line.current = .ok total ∧ total + commitCount ws ≤ initial ∧
      (commitCount ws = 0 → total = initial)) (fun _ _ _ => trivial)
    ⟨initial, hroot, (add_zero _).le, fun _ => rfl⟩ ?_ h trivial
  rintro ws line w line' - ⟨total, htotal, hle, hnone⟩ hmove
  cases hmove with
  | commit hstatus _ _ hchild =>
    obtain ⟨total₀, total', htotal₀, htotal', hlt⟩ := hchild
    rw [htotal] at htotal₀
    obtain rfl := Except.ok.inj htotal₀
    refine ⟨total', htotal', ?_, fun hzero => ?_⟩
    · rw [commitCount_concat, if_pos hstatus]
      push_cast
      omega
    · rw [commitCount_concat, if_pos hstatus] at hzero
      cases hzero
  | stay hstatus _ _ =>
    rw [commitCount_concat, if_neg hstatus]
    exact ⟨total, htotal, hle, hnone⟩

/-- **What `C6` says of a whole run**, through deaths, aborts and resumes: the total of the
best snapshot is below the baseline's by at least the number of the recorded commits, and the
mark is `PASS` exactly when there is one. -/
theorem conformance_counts_commits {env : RunEnv} {tr : List Event} {st : RunState} {p : Proc}
    (hrun : GuardedRun env (RequiresProgress env) (fun _ => True) tr st)
    (hcopies : CopiesKeepContent tr) (hp : st.proc = some p) (hpc : p.pc.unrecorded = false)
    (graphBuilt : Bool) (maxLlmViewRegions : ℤ) (subgraphs : List AgentSubgraph)
    (completenessMilli : Option ℤ) :
    ∃ initial table, env.total p.session.baselineSnapshot = .ok initial ∧
      p.session.conformance env graphBuilt maxLlmViewRegions subgraphs completenessMilli =
        .ok table ∧
      p.session.bestTotal + commitCount p.session.history.recorded ≤ initial ∧
      (table.lookup "C6" = some "PASS" ↔ ∃ w ∈ p.session.history.recorded, w.status = .commit) := by
  obtain ⟨hrecord, hbest⟩ := ((progress_invariant env).run hrun hcopies).1 p hp
  have hsame : p.session.bestSnapshot = p.session.currentSnapshot := by
    refine hbest.best ?_
    intro heq
    rw [heq] at hpc
    cases hpc
  have hbaseline : env.total p.session.baselineSnapshot = env.total env.baseline := by
    rw [hrecord.baseline]
  have hroot : env.total env.baseline = .ok (env.totalDrv env.drcRef.sha256) := rfl
  obtain ⟨total, htotal, hle, hnone⟩ := (hrecord.leads hpc).total_commitCount hroot
  have hbestTotal : total = p.session.bestTotal := by
    rw [← hsame, hbest.total] at htotal
    exact (Except.ok.inj htotal).symm
  rw [hbestTotal] at hle hnone
  set scopes := scopePass graphBuilt p.session.config.maxActiveSubgraphRegions maxLlmViewRegions
    subgraphs with hscopes
  refine ⟨env.totalDrv env.drcRef.sha256, runConformance scopes completenessMilli
    p.session.bestTotal (env.totalDrv env.drcRef.sha256), hbaseline.trans rfl, ?_, hle, ?_⟩
  · unfold Session.conformance
    rw [hbaseline]
    rfl
  · rw [runConformance_c6]
    constructor
    · intro hlt
      by_contra hcommit
      have hzero : commitCount p.session.history.recorded = 0 :=
        List.countP_eq_zero.2 fun w hw hstatus => hcommit ⟨w, hw, of_decide_eq_true hstatus⟩
      have hequal := hnone hzero
      omega
    · rintro ⟨w, hw, hstatus⟩
      have hpositive : 0 < commitCount p.session.history.recorded :=
        List.countP_pos_iff.2 ⟨w, hw, decide_eq_true hstatus⟩
      omega

/-- The sample run, after its commit. -/
theorem conformance_counts_commits_sample : ∃ st p initial table,
    GuardedRun sampleRunEnv (RequiresProgress sampleRunEnv) (fun _ => True)
      (Event.sampleCommit ++ [.saveCommit]) st ∧ st.proc = some p ∧
    sampleRunEnv.total p.session.baselineSnapshot = .ok initial ∧
    p.session.conformance sampleRunEnv true 12 [] none = .ok table ∧
    p.session.bestTotal + commitCount p.session.history.recorded ≤ initial ∧
    (table.lookup "C6" = some "PASS" ↔ ∃ w ∈ p.session.history.recorded, w.status = .commit) := by
  have hplay : ∃ st, play
      (guardNext (stepGuard (RequiresProgress sampleRunEnv) fun _ => True)
        (RunState.next sampleRunEnv)) (RunState.fresh sampleRunEnv)
      (Event.sampleCommit ++ [.saveCommit]) = some st ∧
      (st.proc.any fun p => p.pc = .committed) = true := by
    rw [← Option.any_eq_true]
    decide +kernel
  obtain ⟨st, hplay, hany⟩ := hplay
  obtain ⟨p, hp, hpc⟩ := (Option.any_eq_true _ _).1 hany
  have hcopies : CopiesKeepContent (Event.sampleCommit ++ [.saveCommit]) := by
    intro x hx
    have hx : x = sampleExecution := by
      simpa [Event.sampleCommit, Event.samplePlanned, Event.sampleOpening, Event.sampleStart,
        Event.sampleSelect] using hx
    rw [hx]
    intro _ _ _ _
    rfl
  have hrun := guardedRun_of_play hplay
  obtain ⟨initial, table, h⟩ := conformance_counts_commits hrun hcopies hp
    (by rw [of_decide_eq_true hpc]; rfl) true 12 [] none
  exact ⟨st, p, initial, table, hrun, hp, h⟩

end DRCAgent
