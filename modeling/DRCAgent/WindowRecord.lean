/-
# The recorded windows as a path

Each recorded window moves the run along the line of its published snapshots: a
committed window replaces the current snapshot by a child, any other window
leaves it alone. What a child is to its parent is a parameter: `D` is what the
executor grants, `E` what holds of the two once the child is published.

`OnRecord.node` carries the path through every node, `CheckpointOnRecord` through
the checkpoints and the resumes.
-/
import DRCAgent.Workflow
import Mathlib.Data.List.Chain

namespace DRCAgent

open Option

/-! ## Lines of snapshots -/

/-- The snapshots published so far, in order, and the current one. -/
structure Line where
  published : List DesignSnapshotRef
  current : DesignSnapshotRef

/-- What a recorded window does to the line. -/
inductive WindowMove (E : DesignSnapshotRef → DesignSnapshotRef → Prop) :
    Line → WindowResult → Line → Prop
  | commit {line : Line} {w : WindowResult} {child : DesignSnapshotRef}
      (hstatus : w.status = .commit) (hbase : w.baseSnapshotId = line.current.snapshotId)
      (hfinal : w.finalSnapshotId = child.snapshotId) (hchild : E line.current child) :
      WindowMove E line w ⟨line.published ++ [child], child⟩
  | stay {line : Line} {w : WindowResult} (hstatus : w.status ≠ .commit)
      (hbase : w.baseSnapshotId = line.current.snapshotId)
      (hfinal : w.finalSnapshotId = line.current.snapshotId) : WindowMove E line w line

/-- The windows `ws` lead from the root to `line`. -/
def Leads (E : DesignSnapshotRef → DesignSnapshotRef → Prop) (root : DesignSnapshotRef)
    (ws : List WindowResult) (line : Line) : Prop :=
  Runs.Run (WindowMove E) ⟨[root], root⟩ ws line

namespace Leads

variable {E : DesignSnapshotRef → DesignSnapshotRef → Prop} {root : DesignSnapshotRef}
  {ws : List WindowResult} {line : Line}

/-- The last published snapshot is the current one. -/
theorem getLast_published (h : Leads E root ws line) :
    line.published.getLast? = some line.current := by
  refine Runs.Run.invariant (fun line => line.published.getLast? = some line.current) rfl ?_ h
  intro line w line' hlast hmove
  cases hmove with
  | commit => exact List.getLast?_concat
  | stay => exact hlast

/-- The first published snapshot is the root. -/
theorem head_published (h : Leads E root ws line) : line.published.head? = some root := by
  refine Runs.Run.invariant (fun line => line.published.head? = some root) rfl ?_ h
  intro line w line' hhead hmove
  cases hmove with
  | commit => rw [List.head?_append, hhead, some_or]
  | stay => exact hhead

/-- Each published snapshot is a child of the one before it. -/
theorem isChain_published (h : Leads E root ws line) : line.published.IsChain E := by
  have hboth : line.published.getLast? = some line.current ∧ line.published.IsChain E := by
    refine Runs.Run.invariant
      (fun line => line.published.getLast? = some line.current ∧ line.published.IsChain E)
      ⟨rfl, List.IsChain.singleton _⟩ ?_ h
    rintro line w line' ⟨hlast, hchain⟩ hmove
    cases hmove with
    | commit _ _ _ hchild =>
      refine ⟨List.getLast?_concat, List.isChain_append.2 ⟨hchain, .singleton _, ?_⟩⟩
      intro parent hparent child hc
      rw [hlast] at hparent
      obtain rfl := some.inj hparent
      obtain rfl := some.inj hc
      exact hchild
    | stay => exact ⟨hlast, hchain⟩
  exact hboth.2

/-- The published snapshots are the root and the children that the committed
windows record, in order. -/
theorem ids_published (h : Leads E root ws line) :
    line.published.map (·.snapshotId) =
      root.snapshotId :: (ws.filter (·.status = .commit)).map (·.finalSnapshotId) := by
  induction h with
  | start => rfl
  | next _ hmove ih =>
    cases hmove with
    | commit hstatus _ hfinal _ =>
      rw [List.map_append, ih, List.filter_append, List.map_append, List.filter_singleton, hstatus]
      simp [hfinal]
    | stay hstatus _ _ =>
      rw [ih, List.filter_append, List.filter_singleton]
      simp [hstatus]

/-- The last committed window names the current snapshot. -/
theorem final_of_lastCommit (h : Leads E root ws line) {w : WindowResult}
    (hw : ws.reverse.find? (·.status = .commit) = some w) :
    w.finalSnapshotId = line.current.snapshotId := by
  induction h with
  | start => cases hw
  | next _ hmove ih =>
    rw [List.reverse_append, List.reverse_singleton, List.singleton_append] at hw
    cases hmove with
    | commit hstatus _ hfinal _ =>
      rw [List.find?_cons_of_pos (by simpa using hstatus)] at hw
      rw [← some.inj hw]
      exact hfinal
    | stay hstatus _ _ =>
      rw [List.find?_cons_of_neg (by simpa using hstatus)] at hw
      exact ih hw

end Leads

/-! ## The invariant -/

/-- A child has been published, and its window is not recorded yet. -/
def Pc.unrecorded : Pc → Bool
  | .publishing => true
  | .published .commit => true
  | _ => false

/-- The line a session stands on, up to its last recorded window. -/
structure OnLine (E : DesignSnapshotRef → DesignSnapshotRef → Prop) (env : RunEnv) (s : Session)
    (pc : Pc) (line : Line) : Prop where
  leads : Leads E env.baseline s.history.recorded line
  settled : pc.unrecorded = false → line = ⟨s.history.published, s.currentSnapshot⟩
  unrecorded : pc.unrecorded = true → E line.current s.currentSnapshot ∧
    s.history.published = line.published ++ [s.currentSnapshot]
  window : pc.windowOpen = true → ∀ w, s.activeWindow = some w →
    w.baseSnapshotId = line.current.snapshotId

/-- What holds of a session at a node. -/
structure OnRecord (D E : DesignSnapshotRef → DesignSnapshotRef → Prop) (env : RunEnv)
    (s : Session) (pc : Pc) : Prop where
  baseline : s.baselineSnapshot = env.baseline
  recent : s.windowResults <:+ s.history.recorded
  line : ∃ line, OnLine E env s pc line
  granted : pc = .executed → ∀ r, s.transactionResult = some r → r.accepted = true →
    D s.currentSnapshot r.committedSnapshot

/-- What holds of a checkpoint. -/
structure CheckpointOnRecord (E : DesignSnapshotRef → DesignSnapshotRef → Prop) (env : RunEnv)
    (c : Checkpoint) : Prop where
  baseline : c.baselineSnapshot = env.baseline
  recent : c.windowResults <:+ c.history.recorded
  leads : Leads E env.baseline c.history.recorded ⟨c.history.published, c.currentSnapshot⟩

/-- The base of a selected window is the current snapshot. -/
theorem Session.base_of_selectActiveSubgraphs {env : RunEnv} {s s' : Session} {graph : AgentGraph}
    {subgraphs : List AgentSubgraph} (h : s.selectActiveSubgraphs env graph subgraphs = .ok s')
    {w : ActiveWindow} (hw : s'.activeWindow = some w) :
    w.baseSnapshotId = s.currentSnapshot.snapshotId := by
  obtain ⟨seed, -, rfl⟩ := selectActiveWindow_some (selected_window h hw)
  rfl

namespace OnRecord

variable {D E : DesignSnapshotRef → DesignSnapshotRef → Prop} {env : RunEnv} {s s' : Session}
  {pc pc' : Pc} {e : Event} {eff : Effects}

/-- The line of a settled session. -/
theorem leads (h : OnRecord D E env s pc) (hpc : pc.unrecorded = false) :
    Leads E env.baseline s.history.recorded ⟨s.history.published, s.currentSnapshot⟩ := by
  obtain ⟨line, hline⟩ := h.line
  have hleads := hline.leads
  rw [hline.settled hpc] at hleads
  exact hleads

/-- The base of the open window is the current snapshot. -/
theorem base (h : OnRecord D E env s pc) (hpc : pc.unrecorded = false)
    (hopen : pc.windowOpen = true) {w : ActiveWindow} (hw : s.activeWindow = some w) :
    w.baseSnapshotId = s.currentSnapshot.snapshotId := by
  obtain ⟨line, hline⟩ := h.line
  rw [hline.window hopen w hw, hline.settled hpc]

/-- A settled session, from its path and its open window. -/
theorem of_leads (hbaseline : s.baselineSnapshot = env.baseline)
    (hrecent : s.windowResults <:+ s.history.recorded)
    (hleads : Leads E env.baseline s.history.recorded ⟨s.history.published, s.currentSnapshot⟩)
    (hpc : pc.unrecorded = false)
    (hwindow : pc.windowOpen = true → ∀ w, s.activeWindow = some w →
      w.baseSnapshotId = s.currentSnapshot.snapshotId)
    (hgranted : pc = .executed → ∀ r, s.transactionResult = some r → r.accepted = true →
      D s.currentSnapshot r.committedSnapshot) : OnRecord D E env s pc :=
  ⟨hbaseline, hrecent,
    ⟨_, hleads, fun _ => rfl, fun h => absurd h (by rw [hpc]; decide), hwindow⟩, hgranted⟩

/-- Nodes that leave the books alone, between settled sessions. -/
theorem of_sameBooks (h : OnRecord D E env s pc) (hpc : pc.unrecorded = false)
    (hpc' : pc'.unrecorded = false) (hbooks : s.SameBooks s')
    (hwindow : pc'.windowOpen = true → ∀ w, s'.activeWindow = some w →
      w.baseSnapshotId = s.currentSnapshot.snapshotId)
    (hgranted : pc' = .executed → ∀ r, s'.transactionResult = some r → r.accepted = true →
      D s.currentSnapshot r.committedSnapshot) : OnRecord D E env s' pc' := by
  refine of_leads ?_ ?_ ?_ hpc' ?_ ?_
  · rw [hbooks.baseline]
    exact h.baseline
  · rw [hbooks.windowResults, hbooks.history]
    exact h.recent
  · rw [hbooks.history, hbooks.current]
    exact h.leads hpc
  · rw [hbooks.current]
    exact hwindow
  · rw [hbooks.current]
    exact hgranted

/-- Outside of a window. -/
theorem of_closed (h : OnRecord D E env s pc) (hpc : pc.unrecorded = false)
    (hpc' : pc'.unrecorded = false) (hclosed : pc'.windowOpen = false) (hbooks : s.SameBooks s') :
    OnRecord D E env s' pc' := by
  refine h.of_sameBooks hpc hpc' hbooks (fun hopen => absurd hopen (by rw [hclosed]; decide)) ?_
  rintro rfl
  cases hclosed

/-- Between the nodes of one window. -/
theorem of_sameWindow (h : OnRecord D E env s pc) (hpc : pc.unrecorded = false)
    (hpc' : pc'.unrecorded = false) (hopen : pc.windowOpen = true) (hsame : s.SameWindow s')
    (hgranted : pc' = .executed → ∀ r, s'.transactionResult = some r → r.accepted = true →
      D s.currentSnapshot r.committedSnapshot) : OnRecord D E env s' pc' := by
  refine h.of_sameBooks hpc hpc' hsame.toSameBooks (fun _ w hw => ?_) hgranted
  rw [hsame.activeWindow] at hw
  exact h.base hpc hopen hw

/-- The publication of a granted child. -/
theorem publish (h : OnRecord D E env s .executed) {r : TransactionExecutionResult}
    (hchild : E s.currentSnapshot r.committedSnapshot) :
    OnRecord D E env
      { s with
        currentSnapshot := r.committedSnapshot
        history :=
          { s.history with published := s.history.published ++ [r.committedSnapshot] } }
      .publishing where
  baseline := h.baseline
  recent := h.recent
  line := ⟨⟨s.history.published, s.currentSnapshot⟩, h.leads rfl, fun hpc => (nomatch hpc),
    fun _ => ⟨hchild, rfl⟩, fun _ _ hw => h.base rfl rfl hw⟩
  granted := fun hpc => nomatch hpc

/-- The record of a window. -/
theorem account {status : WindowStatus} (h : OnRecord D E env s (.published status))
    {w : ActiveWindow} (hw : s.activeWindow = some w) :
    OnRecord D E env (s.accountWindow w status) (.accounted status) := by
  obtain ⟨line, hline⟩ := h.line
  have hbase := hline.window rfl w hw
  refine of_leads h.baseline ?_ ?_ rfl (fun hopen => nomatch hopen) (fun hpc => nomatch hpc)
  · obtain ⟨earlier, hearlier⟩ := h.recent
    refine ⟨earlier, ?_⟩
    show earlier ++ (s.windowResults ++ [_]) = s.history.recorded ++ [_]
    rw [← List.append_assoc, hearlier]
  · cases hcommit : (Pc.published status).unrecorded with
    | true =>
      obtain rfl : status = .commit := by
        cases status <;> first | rfl | cases hcommit
      obtain ⟨hchild, hpublished⟩ := hline.unrecorded rfl
      have hmove := WindowMove.commit (w := s.windowResult w .commit) rfl hbase rfl hchild
      rw [← hpublished] at hmove
      exact .next hline.leads hmove
    | false =>
      have hstatus : status ≠ .commit := by
        rintro rfl
        cases hcommit
      have hsettled := hline.settled hcommit
      have hmove : WindowMove E line (s.windowResult w status) line := by
        refine .stay hstatus hbase ?_
        rw [hsettled]
        rfl
      have hleads := hline.leads.next hmove
      rw [hsettled] at hleads
      exact hleads

/-- The checkpoints at the boundaries of windows and iterations. -/
theorem windowCheckpoint (h : OnRecord D E env s pc) (hpc : pc.unrecorded = false)
    (boundary : SafeBoundary) (n : ℕ) :
    CheckpointOnRecord E env (s.windowCheckpoint env boundary n) :=
  ⟨h.baseline, h.recent, h.leads hpc⟩

/-- The executor grants the children it accepts. -/
def Grants (D : DesignSnapshotRef → DesignSnapshotRef → Prop) (env : RunEnv) (s : Session)
    (e : Event) : Prop :=
  ∀ x w plan world', e = .execute x → s.activeWindow = some w →
    DRCAgent.execute (x.envIn env s.config)
      (s.executeInput env w plan x.sourceMap x.fingerprint) x.world = (.ok x.result, world') →
    x.result.accepted = true → D s.currentSnapshot x.result.committedSnapshot

/-- **Every node keeps the session on record**, and saves it so, if the executor
grants `D` and the verification of the provenance turns it into `E`. -/
theorem node (hD : Grants D env s e)
    (hE : ∀ parent child, D parent child →
      env.provenance.validateSnapshotProvenance child env.baseline env.resume.runId = .ok ⟨⟩ →
      E parent child)
    (h : OnRecord D E env s pc) (hstep : NodeStep env s pc e s' pc' eff) :
    OnRecord D E env s' pc' ∧ ∀ c, eff.checkpoint = some c → CheckpointOnRecord E env c := by
  have hnone : ∀ c, (none : Option Checkpoint) = some c → CheckpointOnRecord E env c :=
    fun c hc => nomatch hc
  cases hstep with
  | writeManifest =>
    refine ⟨of_leads h.baseline h.recent (h.leads rfl) ?_ (fun hopen => ?_) (fun hpc => ?_),
      hnone⟩
    · split_ifs <;> rfl
    · split_ifs at hopen <;> cases hopen
    · split_ifs at hpc
  | saveInitial =>
    refine ⟨h.of_closed rfl rfl rfl (.refl s), fun c hc => ?_⟩
    obtain rfl := some.inj hc
    exact ⟨h.baseline, List.nil_suffix, h.leads rfl⟩
  | start hstart =>
    refine ⟨?_, hnone⟩
    rcases Session.startIteration_ok hstart with rfl | ⟨total, frontier, -, rfl⟩
    · exact h.of_closed rfl rfl rfl (s.sameBooks_reopen _ _)
    · exact of_leads h.baseline List.nil_suffix (h.leads rfl) rfl (fun hopen => nomatch hopen)
        (fun hpc => nomatch hpc)
  | select hselect =>
    refine ⟨h.of_sameBooks rfl ?_ (Session.sameBooks_selectActiveSubgraphs hselect)
      (fun _ w hw => Session.base_of_selectActiveSubgraphs hselect hw) (fun hpc => ?_), hnone⟩
    · split_ifs <;> rfl
    · split_ifs at hpc
  | plan =>
    exact ⟨h.of_sameWindow rfl rfl rfl (s.sameWindow_planSubgraph _) (fun hpc => nomatch hpc),
      hnone⟩
  | degrade =>
    exact ⟨h.of_sameWindow rfl rfl rfl (s.sameWindow_degradeSubgraph _ _ _)
      (fun hpc => nomatch hpc), hnone⟩
  | coordinate =>
    exact ⟨h.of_sameWindow rfl rfl rfl (s.sameWindow_aggregatePlans _) (fun hpc => nomatch hpc),
      hnone⟩
  | skip _ =>
    exact ⟨h.of_sameWindow rfl rfl rfl s.sameWindow_skip (fun _ r hr => nomatch hr), hnone⟩
  | execute hwindow _ hexecute =>
    refine ⟨h.of_sameWindow rfl rfl rfl (s.sameWindow_recordTransaction _) (fun _ r hr => ?_),
      hnone⟩
    obtain rfl := some.inj hr
    exact hD _ _ _ _ rfl hwindow hexecute
  | publish hresult haccepted hpublish =>
    obtain ⟨hvalid, rfl⟩ := Session.publishCurrent_ok hpublish
    rw [h.baseline] at hvalid
    exact ⟨h.publish (hE _ _ (h.granted rfl _ hresult haccepted) hvalid), hnone⟩
  | updateBest hbest =>
    obtain ⟨line, hline⟩ := h.line
    have hkept : OnLine E env s (.published .commit) line :=
      ⟨hline.leads, fun hpc => (nomatch hpc), fun _ => hline.unrecorded rfl,
        fun _ => hline.window rfl⟩
    obtain ⟨total, -, ⟨-, rfl⟩ | ⟨-, rfl⟩⟩ := Session.publishBest_ok hbest
    · exact ⟨⟨h.baseline, h.recent, ⟨line, hkept.leads, hkept.settled, hkept.unrecorded,
        hkept.window⟩, fun hpc => nomatch hpc⟩, hnone⟩
    · exact ⟨⟨h.baseline, h.recent, ⟨line, hkept⟩, fun hpc => nomatch hpc⟩, hnone⟩
  | settle _ =>
    have hstatus : (Pc.published s.unpublishedStatus).unrecorded = false := by
      unfold Session.unpublishedStatus
      split
      · rfl
      · split_ifs <;> rfl
    exact ⟨h.of_sameWindow rfl hstatus rfl (.refl s) (fun hpc => nomatch hpc), hnone⟩
  | account hwindow => exact ⟨h.account hwindow, hnone⟩
  | saveCommit =>
    refine ⟨h.of_closed rfl rfl rfl (.refl s), fun c hc => ?_⟩
    exact some.inj hc ▸ h.windowCheckpoint rfl _ _
  | @refreshCommitted violations =>
    have hsession : OnRecord D E env { s with violations := violations } .selecting :=
      h.of_closed rfl rfl rfl (s.sameBooks_violations _)
    refine ⟨hsession, fun c hc => ?_⟩
    exact some.inj hc ▸ hsession.windowCheckpoint rfl _ _
  | refresh _ =>
    refine ⟨h.of_closed rfl rfl rfl (.refl s), fun c hc => ?_⟩
    exact some.inj hc ▸ h.windowCheckpoint rfl _ _
  | finish hcount =>
    obtain ⟨noProgress, rfl⟩ := Session.countIteration_ok hcount
    exact ⟨of_leads h.baseline h.recent (h.leads rfl) rfl (fun hopen => nomatch hopen)
      (fun hpc => nomatch hpc), hnone⟩
  | saveIteration _ =>
    refine ⟨h.of_closed rfl rfl rfl (.refl s), fun c hc => ?_⟩
    exact some.inj hc ▸ h.windowCheckpoint rfl _ _
  | nextIteration _ => exact ⟨h.of_closed rfl rfl rfl (.refl s), hnone⟩

/-- `ITERATION_FINAL_COMMITTED_SNAPSHOT_MISMATCH` is not raised on record. -/
theorem checkFinalSnapshot (h : OnRecord D E env s pc) (hpc : pc.unrecorded = false) :
    s.checkFinalSnapshot = .ok ⟨⟩ := by
  unfold Session.checkFinalSnapshot
  cases hlast : s.lastCommittedWindow with
  | none => rfl
  | some w =>
    apply require_of
    refine (h.leads hpc).final_of_lastCommit ?_
    obtain ⟨earlier, hearlier⟩ := h.recent
    rw [← hearlier, List.reverse_append, List.find?_append]
    unfold Session.lastCommittedWindow at hlast
    rw [hlast, some_or]

end OnRecord

/-- A resume puts the session back on record. -/
theorem CheckpointOnRecord.resumeSession {D E : DesignSnapshotRef → DesignSnapshotRef → Prop}
    {env : RunEnv} {c : Checkpoint} (h : CheckpointOnRecord E env c) (config : AppConfig)
    {m : Manifest} (hbaseline : m.baselineSnapshot = c.baselineSnapshot) (hashes : RunHashes)
    (epoch : String) :
    OnRecord D E env (resumeSession config m hashes epoch c) .initializing := by
  refine OnRecord.of_leads (hbaseline.trans h.baseline) ?_ h.leads rfl
    (fun hopen => nomatch hopen) (fun hpc => nomatch hpc)
  show (if c.boundary.isWindow = true then c.windowResults else []) <:+ c.history.recorded
  split_ifs
  · exact h.recent
  · exact List.nil_suffix

/-- A fresh run starts at the baseline. -/
theorem onRecord_fresh (D E : DesignSnapshotRef → DesignSnapshotRef → Prop) (env : RunEnv) :
    OnRecord D E env env.freshSession .initializing :=
  OnRecord.of_leads rfl List.nil_suffix .start rfl (fun hopen => nomatch hopen)
    (fun hpc => nomatch hpc)

end DRCAgent
