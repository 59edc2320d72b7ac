/-
# The provenance chain

Every snapshot a run publishes is the verified child of the one that was current
when its transaction executed. Three modules keep the chain: the executor fills
the parent edge and copies it with the snapshot, the adapter verifies the lineage
receipt of that edge, and the runtime publishes nothing it did not verify.

Main result:

* `provenance_chain`: over whole runs, following parents from the current
  snapshot goes back to the baseline through exactly the committed windows.
-/
import DRCAgent.AcceptanceSoundness
import DRCAgent.WindowRecord

namespace DRCAgent

open List Option

/-! ## Edges -/

/-- The contract of `verify_lineage_receipt`: it passes only for the three ids of
the receipt. -/
def ReceiptsMatch (env : ProvenanceEnv) : Prop :=
  ∀ script receipt parentScript parent child runId,
    env.verifyLineageReceipt script receipt parentScript parent child runId = .ok ⟨⟩ →
      receipt = ⟨parent, child, runId⟩

/-- The child names the parent and this run, and its lineage receipt was verified
for exactly that edge. -/
structure LineageEdge (env : RunEnv) (parent child : DesignSnapshotRef) : Prop where
  parent_eq : child.parentSnapshotId = some parent.snapshotId
  run_eq : child.provenanceRunId = some env.resume.runId
  receipt : ∃ ref, child.lineageReceiptRef = some ref ∧ env.provenance.readReceipt ref.path =
    .ok ⟨parent.snapshotId, child.snapshotId, env.resume.runId⟩

/-- What the executor says of an accepted child: it is not the baseline, and if it
names a parent then the snapshot its transaction started from. -/
def NamesParent (env : RunEnv) (parent child : DesignSnapshotRef) : Prop :=
  child.snapshotId ≠ env.baseline.snapshotId ∧
    ∀ id, child.parentSnapshotId = some id → id = parent.snapshotId

/-- **Verification makes the edge**, since only the baseline passes without one. -/
theorem lineageEdge_of_validated {env : RunEnv} {parent child : DesignSnapshotRef}
    (hreceipts : ReceiptsMatch env.provenance) (hnames : NamesParent env parent child)
    (hvalid : env.provenance.validateSnapshotProvenance child env.baseline env.resume.runId =
      .ok ⟨⟩) : LineageEdge env parent child := by
  rcases validateSnapshotProvenance_ok hvalid with hbaseline | ⟨id, hedge⟩
  · exact absurd hbaseline hnames.1
  · have hid : id = parent.snapshotId := hnames.2 id hedge.parent_eq
    obtain ⟨ref, receipt, script, parentScript, href, hread, hverify⟩ := hedge.verified
    rw [hreceipts _ _ _ _ _ _ hverify, hid] at hread
    refine ⟨?_, hedge.run_eq, ref, href, hread⟩
    rw [hedge.parent_eq, hid]

/-- The child an accepted transaction commits carries the id and the edge of the
attempted snapshot. -/
theorem committed_provenance {env : Env} {inp : ExecuteInput} {w w' : World}
    {r : TransactionExecutionResult} (hrun : execute env inp w = (.ok r, w'))
    (hacc : r.accepted = true) :
    r.committedSnapshot.snapshotId = r.attemptedSnapshot.snapshotId ∧
      ∀ id, r.committedSnapshot.parentSnapshotId = some id →
        id = inp.currentSnapshot.snapshotId := by
  obtain ⟨e, p, ev, rfl, hfrom⟩ := execute_yields w r w' hrun
  change e.decision.accepted = true at hacc
  have hcommitted := hfrom.committed
  rw [if_pos hacc] at hcommitted
  have hsame : e.committed.SameProvenance e.attempted := by
    rw [hcommitted]
    exact snapshotCopy_sameProvenance _ _ _
  obtain ⟨hid, hparent, -⟩ := hsame
  refine ⟨hid, fun id hname => ?_⟩
  change e.committed.parentSnapshotId = some id at hname
  rw [hparent, hfrom.attempted] at hname
  change (if env.hasLineage = true then some inp.currentSnapshot.snapshotId else none) =
    some id at hname
  split_ifs at hname
  exact (some.inj hname).symm

/-! ## Following parents -/

/-- The ids met when parents are followed from `s` among the snapshots `known`,
for `n` steps. -/
def parentWalk (known : List DesignSnapshotRef) : ℕ → DesignSnapshotRef → List String
  | 0, s => [s.snapshotId]
  | n + 1, s =>
    match s.parentSnapshotId.bind fun id => known.find? (·.snapshotId = id) with
    | some parent => s.snapshotId :: parentWalk known n parent
    | none => [s.snapshotId]

/-- Among snapshots with distinct ids, an id finds its snapshot. -/
theorem find_snapshot {known : List DesignSnapshotRef}
    (hnodup : (known.map (·.snapshotId)).Nodup) {s : DesignSnapshotRef} (hs : s ∈ known) :
    known.find? (·.snapshotId = s.snapshotId) = some s := by
  cases hfind : known.find? (·.snapshotId = s.snapshotId) with
  | none =>
    rw [find?_eq_none] at hfind
    exact absurd (by simp) (hfind s hs)
  | some t =>
    have hid : t.snapshotId = s.snapshotId := by simpa using find?_some hfind
    rw [inj_on_of_nodup_map hnodup (mem_of_find?_eq_some hfind) hs hid]

/-- **Following parents goes back along the line**, whatever comes after. -/
theorem parentWalk_prefix {env : RunEnv} {known : List DesignSnapshotRef}
    (hchain : known.IsChain (LineageEdge env)) (hnodup : (known.map (·.snapshotId)).Nodup)
    (hroot : ∀ root, known.head? = some root → root.parentSnapshotId = none) :
    ∀ (before : List DesignSnapshotRef) (s : DesignSnapshotRef) (later : List DesignSnapshotRef)
      (n : ℕ), known = before ++ s :: later → before.length ≤ n →
      parentWalk known n s = ((before ++ [s]).map (·.snapshotId)).reverse := by
  intro before
  induction before using reverseRecOn with
  | nil =>
    intro s later n hsplit _
    cases n with
    | zero => rfl
    | succ n =>
      have hnone : s.parentSnapshotId = none := hroot s (by rw [hsplit]; rfl)
      unfold parentWalk
      rw [hnone]
      rfl
  | append_singleton before parent ih =>
    intro s later n hsplit hn
    rw [length_append, length_singleton] at hn
    obtain ⟨m, rfl⟩ : ∃ m, n = m + 1 := ⟨n - 1, by omega⟩
    have hsplit' : known = before ++ parent :: (s :: later) := by
      rw [hsplit, append_assoc]
      rfl
    have hedge : LineageEdge env parent s := by
      rw [hsplit'] at hchain
      exact (isChain_append_cons_cons.1 hchain).2.1
    have hfind := find_snapshot hnodup (s := parent) (by rw [hsplit']; simp)
    have hwalk := ih parent (s :: later) m hsplit' (by omega)
    unfold parentWalk
    rw [hedge.parent_eq, bind_some, hfind]
    dsimp only
    rw [hwalk]
    simp

/-! ## Distinct ids -/

/-- The id of the snapshot an event attempts. -/
def Event.attemptedId : Event → Option String
  | .execute x => some x.result.attemptedSnapshot.snapshotId
  | _ => none

/-- The ids of the snapshots a run attempted, in order. -/
def attemptedIds (tr : List Event) : List String := tr.filterMap Event.attemptedId

/-- Distinct attempts get distinct ids, none of them the baseline's. -/
def DistinctAttempts (env : RunEnv) (tr : List Event) : Prop :=
  (env.baseline.snapshotId :: attemptedIds tr).Nodup

theorem DistinctAttempts.inherit {env : RunEnv} {tr : List Event} {e : Event}
    (h : DistinctAttempts env (tr ++ [e])) : DistinctAttempts env tr := by
  unfold DistinctAttempts attemptedIds at h ⊢
  rw [filterMap_append] at h
  exact h.sublist ((sublist_append_left _ _).cons_cons _)

/-- A new attempt gets an id that no earlier snapshot has. -/
theorem DistinctAttempts.fresh {env : RunEnv} {tr : List Event} {x : Execution}
    (h : DistinctAttempts env (tr ++ [.execute x])) :
    x.result.attemptedSnapshot.snapshotId ∉ env.baseline.snapshotId :: attemptedIds tr := by
  unfold DistinctAttempts attemptedIds at h
  rw [filterMap_append, ← cons_append, nodup_append'] at h
  exact fun hmem => h.2.2 hmem (by simp [Event.attemptedId])

/-- What a node does to the published snapshots and to the transaction that waits. -/
theorem NodeStep.published_cases {env : RunEnv} {s s' : Session} {pc pc' : Pc} {e : Event}
    {eff : Effects} (h : NodeStep env s pc e s' pc' eff) :
    (s'.history.published = s.history.published ∧
      (pc' = .executed → ∀ r, s'.transactionResult = some r →
        ∃ x w plan world', e = .execute x ∧ r = x.result ∧ s.activeWindow = some w ∧
          DRCAgent.execute (x.envIn env s.config)
            (s.executeInput env w plan x.sourceMap x.fingerprint) x.world =
              (.ok r, world')) ∨
      pc = .executed ∧ pc' ≠ .executed ∧ ∃ r, s.transactionResult = some r ∧ r.accepted = true ∧
        s'.history.published = s.history.published ++ [r.committedSnapshot]) ∧
    ∀ c, eff.checkpoint = some c → c.history = s'.history := by
  have hnone : ∀ c, (none : Option Checkpoint) = some c → c.history = s'.history :=
    fun c hc => nomatch hc
  cases h with
  | writeManifest =>
    refine ⟨.inl ⟨rfl, fun hpc => ?_⟩, hnone⟩
    split_ifs at hpc
  | saveInitial =>
    refine ⟨.inl ⟨rfl, fun hpc => nomatch hpc⟩, fun c hc => ?_⟩
    obtain rfl := some.inj hc
    rfl
  | start hstart =>
    refine ⟨.inl ⟨?_, fun hpc => nomatch hpc⟩, hnone⟩
    rcases Session.startIteration_ok hstart with rfl | ⟨total, frontier, -, rfl⟩ <;> rfl
  | select hselect =>
    refine ⟨.inl ⟨?_, fun hpc => ?_⟩, hnone⟩
    · rw [(Session.sameBooks_selectActiveSubgraphs hselect).history]
    · split_ifs at hpc
  | plan => exact ⟨.inl ⟨rfl, fun hpc => nomatch hpc⟩, hnone⟩
  | degrade => exact ⟨.inl ⟨rfl, fun hpc => nomatch hpc⟩, hnone⟩
  | coordinate =>
    refine ⟨.inl ⟨?_, fun hpc => nomatch hpc⟩, hnone⟩
    rw [(s.sameWindow_aggregatePlans _).history]
  | skip _ =>
    refine ⟨.inl ⟨?_, fun _ r hr => nomatch hr⟩, hnone⟩
    rw [s.sameWindow_skip.history]
  | execute hwindow _ hexecute =>
    refine ⟨.inl ⟨rfl, fun _ r hr => ?_⟩, hnone⟩
    obtain rfl := some.inj hr
    exact ⟨_, _, _, _, rfl, rfl, hwindow, hexecute⟩
  | publish hresult haccepted hpublish =>
    obtain ⟨-, rfl⟩ := Session.publishCurrent_ok hpublish
    exact ⟨.inr ⟨rfl, nofun, _, hresult, haccepted, rfl⟩, hnone⟩
  | updateBest hbest =>
    refine ⟨.inl ⟨?_, fun hpc => nomatch hpc⟩, hnone⟩
    obtain ⟨total, -, ⟨-, rfl⟩ | ⟨-, rfl⟩⟩ := Session.publishBest_ok hbest <;> rfl
  | settle _ => exact ⟨.inl ⟨rfl, fun hpc => nomatch hpc⟩, hnone⟩
  | account _ => exact ⟨.inl ⟨rfl, fun hpc => nomatch hpc⟩, hnone⟩
  | saveCommit =>
    refine ⟨.inl ⟨rfl, fun hpc => nomatch hpc⟩, fun c hc => ?_⟩
    obtain rfl := some.inj hc
    rfl
  | refreshCommitted =>
    refine ⟨.inl ⟨rfl, fun hpc => nomatch hpc⟩, fun c hc => ?_⟩
    obtain rfl := some.inj hc
    rfl
  | refresh _ =>
    refine ⟨.inl ⟨rfl, fun hpc => nomatch hpc⟩, fun c hc => ?_⟩
    obtain rfl := some.inj hc
    rfl
  | finish hcount =>
    obtain ⟨noProgress, rfl⟩ := Session.countIteration_ok hcount
    exact ⟨.inl ⟨rfl, fun hpc => nomatch hpc⟩, hnone⟩
  | saveIteration _ =>
    refine ⟨.inl ⟨rfl, fun hpc => nomatch hpc⟩, fun c hc => ?_⟩
    obtain rfl := some.inj hc
    rfl
  | nextIteration _ => exact ⟨.inl ⟨rfl, fun hpc => nomatch hpc⟩, hnone⟩

/-- Published snapshots have distinct ids that the run has attempted. -/
structure PublishedOnce (env : RunEnv) (tr : List Event) (published : List DesignSnapshotRef) :
    Prop where
  nodup : (published.map (·.snapshotId)).Nodup
  known : ∀ q ∈ published, q.snapshotId ∈ env.baseline.snapshotId :: attemptedIds tr

theorem PublishedOnce.mono {env : RunEnv} {tr : List Event}
    {published : List DesignSnapshotRef} (h : PublishedOnce env tr published) (e : Event) :
    PublishedOnce env (tr ++ [e]) published := by
  refine ⟨h.nodup, fun q hq => ?_⟩
  unfold attemptedIds
  rw [filterMap_append, ← cons_append]
  exact mem_append_left _ (h.known q hq)

/-- What holds of a session at a node: a transaction that waits brings a new id. -/
structure SessionDistinct (env : RunEnv) (tr : List Event) (s : Session) (pc : Pc) : Prop where
  published : PublishedOnce env tr s.history.published
  pending : pc = .executed → ∀ r, s.transactionResult = some r → r.accepted = true →
    r.committedSnapshot.snapshotId ∈ attemptedIds tr ∧
      ∀ q ∈ s.history.published, q.snapshotId ≠ r.committedSnapshot.snapshotId

theorem SessionDistinct.node {env : RunEnv} {tr : List Event} {s s' : Session} {pc pc' : Pc}
    {e : Event} {eff : Effects} (hdistinct : DistinctAttempts env (tr ++ [e]))
    (h : SessionDistinct env tr s pc) (hstep : NodeStep env s pc e s' pc' eff) :
    SessionDistinct env (tr ++ [e]) s' pc' ∧
      ∀ c, eff.checkpoint = some c → PublishedOnce env (tr ++ [e]) c.history.published := by
  obtain ⟨hcases, hsaved⟩ := hstep.published_cases
  have hmain : SessionDistinct env (tr ++ [e]) s' pc' := by
    rcases hcases with ⟨hkept, hresult⟩ | ⟨rfl, hpc', r, hr, hacc, hpublished⟩
    · refine ⟨by rw [hkept]; exact h.published.mono e, fun hpc r hr hacc => ?_⟩
      obtain ⟨x, w, plan, world', rfl, rfl, -, hrun⟩ := hresult hpc r hr
      obtain ⟨hid, -⟩ := committed_provenance hrun hacc
      refine ⟨?_, fun q hq heq => ?_⟩
      · unfold attemptedIds
        rw [filterMap_append, hid]
        exact mem_append_right _ (by simp [Event.attemptedId])
      · rw [hkept] at hq
        apply hdistinct.fresh
        rw [← hid, ← heq]
        exact h.published.known q hq
    · obtain ⟨hmem, hnew⟩ := h.pending rfl r hr hacc
      refine ⟨⟨?_, ?_⟩, fun hpc => absurd hpc hpc'⟩
      · rw [hpublished, map_append, nodup_append']
        refine ⟨h.published.nodup, nodup_singleton _, ?_⟩
        intro id hid hid'
        obtain ⟨q, hq, rfl⟩ := mem_map.1 hid
        exact hnew q hq (mem_singleton.1 hid')
      · intro q hq
        rw [hpublished] at hq
        rcases mem_append.1 hq with hq | hq
        · exact (h.published.mono e).known q hq
        · rw [mem_singleton.1 hq]
          unfold attemptedIds
          rw [filterMap_append, ← cons_append]
          exact mem_append_left _ (mem_cons_of_mem _ hmem)
  refine ⟨hmain, fun c hc => ?_⟩
  rw [hsaved c hc]
  exact hmain.published

/-! ## Whole runs -/

/-- The executor names the right parent. -/
theorem grants_namesParent {env : RunEnv} {s : Session} {e : Event} {tr : List Event}
    (hdistinct : DistinctAttempts env (tr ++ [e])) :
    OnRecord.Grants (NamesParent env) env s e := by
  rintro x w plan world' rfl - hrun hacc
  obtain ⟨hid, hparent⟩ := committed_provenance hrun hacc
  refine ⟨fun heq => ?_, hparent⟩
  apply hdistinct.fresh
  rw [← hid, heq]
  exact mem_cons_self

theorem provenance_invariant {env : RunEnv} (hreceipts : ReceiptsMatch env.provenance) :
    RunInvariant env (DistinctAttempts env) (fun _ _ _ => True) (fun _ => True)
      (fun tr s pc => OnRecord (NamesParent env) (LineageEdge env) env s pc ∧
        SessionDistinct env tr s pc)
      (fun tr c => CheckpointOnRecord (LineageEdge env) env c ∧
        PublishedOnce env tr c.history.published) where
  inherit := fun _ _ h => h.inherit
  fresh := by
    refine ⟨onRecord_fresh _ _ env, ⟨nodup_singleton _, fun q hq => ?_⟩, nofun⟩
    rw [mem_singleton.1 hq]
    exact mem_cons_self
  mono := fun _ e _ h => ⟨h.1, h.2.mono e⟩
  node := by
    rintro tr s pc e s' pc' eff hdistinct - ⟨hrecord, hids⟩ hstep
    obtain ⟨hrecord', hsaved⟩ := hrecord.node (grants_namesParent hdistinct)
      (fun _ _ hnames hvalid => lineageEdge_of_validated hreceipts hnames hvalid) hstep
    obtain ⟨hids', hsavedIds⟩ := hids.node hdistinct hstep
    exact ⟨⟨hrecord', hids'⟩, fun c hc => ⟨hsaved c hc, hsavedIds c hc⟩⟩
  resumed := by
    rintro tr e c config m hashes epoch - ⟨hrecord, hids⟩ hbaseline
    exact ⟨hrecord.resumeSession config hbaseline hashes epoch, hids.mono e, nofun⟩

/-- The chain of a session: each published snapshot is the verified child of the
one before it, and following parents from the current one meets them all, in
reverse, down to the baseline. -/
structure ProvenanceChain (env : RunEnv) (s : Session) : Prop where
  head : s.history.published.head? = some env.baseline
  current : s.history.published.getLast? = some s.currentSnapshot
  edges : s.history.published.IsChain (LineageEdge env)
  nodup : (s.history.published.map (·.snapshotId)).Nodup
  walk : parentWalk s.history.published s.history.published.length s.currentSnapshot =
    (s.history.published.map (·.snapshotId)).reverse

/-- The line of a session at every node, also before its window is recorded. -/
theorem OnRecord.published {D E : DesignSnapshotRef → DesignSnapshotRef → Prop} {env : RunEnv}
    {s : Session} {pc : Pc} (h : OnRecord D E env s pc) :
    s.history.published.head? = some env.baseline ∧
      s.history.published.getLast? = some s.currentSnapshot ∧
      s.history.published.IsChain E := by
  obtain ⟨line, hline⟩ := h.line
  cases hpc : pc.unrecorded with
  | false =>
    have hleads := h.leads hpc
    exact ⟨hleads.head_published, hleads.getLast_published, hleads.isChain_published⟩
  | true =>
    obtain ⟨hchild, hpublished⟩ := hline.unrecorded hpc
    have hleads := hline.leads
    rw [hpublished]
    refine ⟨?_, getLast?_concat, ?_⟩
    · rw [head?_append, hleads.head_published, some_or]
    · refine isChain_append.2 ⟨hleads.isChain_published, .singleton _, ?_⟩
      intro parent hparent child hc
      rw [hleads.getLast_published] at hparent
      obtain rfl := some.inj hparent
      obtain rfl := some.inj hc
      exact hchild

/-- **The provenance chain over whole runs.**  At every node of every run the
published snapshots form a chain of verified edges from the baseline; between two
windows they are the baseline and the children of exactly the committed windows,
in order; and a child whose provenance is not verified is not published. -/
theorem provenance_chain {env : RunEnv} {tr : List Event} {st : RunState} {p : Proc}
    (hreceipts : ReceiptsMatch env.provenance) (hdistinct : DistinctAttempts env tr)
    (hrun : Runs.Run (Step env) (RunState.fresh env) tr st) (hp : st.proc = some p) :
    ProvenanceChain env p.session ∧
    (p.pc.unrecorded = false →
      p.session.history.published.map (·.snapshotId) = env.baseline.snapshotId ::
        (p.session.history.recorded.filter (·.status = .commit)).map (·.finalSnapshotId)) ∧
    (∀ r text, p.session.transactionResult = some r →
      env.provenance.validateSnapshotProvenance r.committedSnapshot env.baseline
        env.resume.runId = .error text →
      ∀ s' pc' eff, ¬ NodeStep env p.session p.pc .publish s' pc' eff) := by
  have hguarded : GuardedRun env (fun _ _ _ => True) (fun _ => True) tr st := by
    refine Runs.Run.weaken (fun s e s' hstep => ⟨⟨fun _ _ => trivial, fun _ _ _ => trivial⟩,
      hstep⟩) hrun
  obtain ⟨hrecord, hids⟩ := ((provenance_invariant hreceipts).run hguarded hdistinct).1 p hp
  obtain ⟨hhead, hlast, hchain⟩ := hrecord.published
  have hnodup := hids.published.nodup
  refine ⟨⟨hhead, hlast, hchain, hnodup, ?_⟩, fun hpc => (hrecord.leads hpc).ids_published, ?_⟩
  · have hsplit : p.session.history.published =
        p.session.history.published.dropLast ++ [p.session.currentSnapshot] := by
      rw [getLast?_eq_some_iff] at hlast
      obtain ⟨before, hbefore⟩ := hlast
      rw [hbefore, dropLast_concat]
    have hwalk := parentWalk_prefix hchain hnodup ?_ _ _ _ p.session.history.published.length
      hsplit (by rw [length_dropLast]; omega)
    · rw [← hsplit] at hwalk
      exact hwalk
    · intro root hroot
      rw [hhead] at hroot
      rw [← some.inj hroot]
      rfl
  · rintro r text hr hinvalid s' pc' eff hstep
    obtain ⟨s, pc, saved⟩ := p
    dsimp only at hstep hr
    cases hstep with
    | publish hresult _ hpublish =>
      rw [hr] at hresult
      obtain rfl := some.inj hresult
      obtain ⟨hvalid, -⟩ := Session.publishCurrent_ok hpublish
      rw [hrecord.baseline, hinvalid] at hvalid
      cases hvalid

theorem provenance_chain_sample :
    ∃ st p, Runs.Run (Step sampleRunEnv) (RunState.fresh sampleRunEnv) Event.sampleCommit st ∧
      st.proc = some p ∧ p.session.history.published.length = 2 ∧
      ProvenanceChain sampleRunEnv p.session := by
  have hplay : ∃ st, Runs.play (RunState.next sampleRunEnv) (RunState.fresh sampleRunEnv)
      Event.sampleCommit = some st ∧
      (st.proc.any fun p => p.session.history.published.length = 2) = true := by
    rw [← Option.any_eq_true]
    decide +kernel
  obtain ⟨st, hplay, hany⟩ := hplay
  obtain ⟨p, hp, hlength⟩ := (Option.any_eq_true _ _).1 hany
  have hreceipts : ReceiptsMatch sampleRunEnv.provenance := by
    rintro script ⟨parent', child', runId'⟩ parentScript parent child runId hverify
    obtain ⟨rfl, rfl, rfl⟩ := require_eq_ok.1 hverify
    rfl
  have hdistinct : DistinctAttempts sampleRunEnv Event.sampleCommit := by
    unfold DistinctAttempts
    decide +kernel
  have hrun := run_of_play hplay
  exact ⟨st, p, hrun, hp, of_decide_eq_true hlength,
    (provenance_chain hreceipts hdistinct hrun hp).1⟩

end DRCAgent
