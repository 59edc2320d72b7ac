/-
# What an accepted result stands for

Every way through the evidence stages either leaves a failure behind, whose
outcome is not `SUCCESS`, or makes all five validities `VALID`. Together with
the acceptance policy this decides both directions of the result `execute`
returns: an accepted one is a verified improvement with the attempted artifacts
as its committed snapshot, a refused one hands back the snapshot it started from.
-/
import DRCAgent.Transaction

namespace DRCAgent

open ExcState Option

variable {env : Env} {inp : ExecuteInput}

/-! ## The evidence -/

/-- The validity of one kind of evidence. -/
def Evidence.validity (ev : Evidence) : EvidenceKind → EvidenceValidity
  | .script => ev.scriptValidity
  | .layout => ev.layoutValidity
  | .drc => ev.drcValidity
  | .sanity => ev.sanityValidity
  | .connectivity => ev.connectivityValidity

theorem Evidence.validity_setValidity (ev : Evidence) (k k' : EvidenceKind)
    (v : EvidenceValidity) :
    (ev.setValidity k v).validity k' = if k' = k then v else ev.validity k' := by
  cases k <;> cases k' <;> rfl

/-- The evidence is sound for the kinds in `ks`: without a failure they are
valid, a failure is never a success, and a score is the evaluator's. -/
structure Evidence.Sound (env : Env) (ks : List EvidenceKind) (ev : Evidence) : Prop where
  valid : ev.failure = none → ∀ k ∈ ks, ev.validity k = .valid
  failed : ∀ outcome code, ev.failure = some (outcome, code) → outcome ≠ .success
  score : ∀ s, ev.score = some s → s = env.score

namespace Evidence.Sound

variable {ks : List EvidenceKind} {ev : Evidence}

theorem initial : Sound env [] {} where
  valid _ k hk := by cases hk
  failed _ _ h := by simp at h
  score _ h := by simp at h

theorem addTool (h : Sound env ks ev) (tool : ToolResult) : Sound env ks (ev.addTool tool) :=
  ⟨fun hf k hk => by rw [← h.valid hf k hk]; cases k <;> rfl, h.failed, h.score⟩

/-- A failure makes the evidence sound for every kind. -/
theorem fail (h : Sound env ks ev) {kind : EvidenceKind} {stage : String}
    {failure : VerificationOutcome × String} (hfailure : failure.1 ≠ .success)
    (ks' : List EvidenceKind) : Sound env ks' (ev.fail kind stage failure) where
  valid hf := by cases hf
  failed outcome code hf := by
    obtain rfl := some.inj hf
    exact hfailure
  score s hs := h.score s (by rw [← hs]; cases kind <;> rfl)

/-- Writing `VALID` adds the kind. -/
theorem setValid (h : Sound env ks ev) (k : EvidenceKind) :
    Sound env (k :: ks) (ev.setValidity k .valid) where
  valid hf k' hk' := by
    rw [Evidence.validity_setValidity]
    split_ifs with hk
    · rfl
    · refine h.valid ?_ k' ((List.mem_cons.1 hk').resolve_left hk)
      rw [← hf]
      cases k <;> rfl
  failed outcome code hf := h.failed outcome code (by rw [← hf]; cases k <;> rfl)
  score s hs := h.score s (by rw [← hs]; cases k <;> rfl)

/-- Sound evidence of all five kinds without a failure is complete. -/
theorem complete (h : Sound env [.connectivity, .sanity, .drc, .layout, .script] ev)
    (hf : ev.failure = none) : ev.complete = true := by
  have hv := h.valid hf
  simp only [List.mem_cons, List.not_mem_nil, or_false, forall_eq_or_imp, forall_eq] at hv
  obtain ⟨hc, hs, hd, hl, hscript⟩ := hv
  simp only [Evidence.validity] at hc hs hd hl hscript
  simp [Evidence.complete, hc, hs, hd, hl, hscript]

end Evidence.Sound

/-- A tool failure is never a success. -/
theorem toolFailure_ne_success {tool : ToolResult} {outcome : VerificationOutcome} {code : String}
    (h : outcome ≠ .success) : (toolFailure tool outcome code).1 ≠ .success := by
  unfold toolFailure
  split
  · decide
  · exact h

/-! ## The stages -/

theorem toolStage_yields {stage : String} {site : Site} {tool : ToolResult} {kind : EvidenceKind}
    {outcome : VerificationOutcome} {code : String} {onSuccess : Evidence → Exec Evidence}
    {ks ks' : List EvidenceKind} {ev : Evidence} (hev : ev.Sound env ks)
    (houtcome : outcome ≠ .success)
    (hok : ∀ ev : Evidence, ev.Sound env ks → Yields (onSuccess ev) (·.Sound env ks')) :
    Yields (toolStage env stage site tool kind outcome code onSuccess ev) (·.Sound env ks') := by
  refine Yields.seq (Yields.seq ?_)
  show Yields (if tool.status = .success then _ else _) _
  split_ifs
  · exact hok _ (hev.addTool tool)
  · exact Yields.pure ((hev.addTool tool).fail (toolFailure_ne_success houtcome) _)

theorem unlessFailed_yields {stage : Evidence → Exec Evidence} {ks ks' : List EvidenceKind}
    {ev : Evidence} (hev : ev.Sound env ks)
    (h : ev.failure = none → Yields (stage ev) (·.Sound env ks')) :
    Yields (ev.unlessFailed stage) (·.Sound env ks') := by
  unfold Evidence.unlessFailed
  split_ifs with hf
  · exact h hf
  · exact Yields.pure ⟨fun hnone => absurd hnone hf, hev.failed, hev.score⟩

theorem validateDrcReport_yields {ks : List EvidenceKind} {ev : Evidence}
    (hev : ev.Sound env ks) : Yields (validateDrcReport env ev) (·.Sound env ks) := by
  refine Yields.seq (Yields.tryCatch (Yields.seq (Yields.pure hev)) fun exc => ?_)
  split_ifs
  · refine Yields.seq (Yields.tryCatch (Yields.seq (Yields.seq (Yields.pure ?_))) fun exc => ?_)
    · exact ⟨(hev.addTool env.drcRetry).valid, hev.failed, hev.score⟩
    · split_ifs
      · exact Yields.pure ((hev.addTool env.drcRetry).fail (by decide) _)
      · exact Yields.raise
  · exact Yields.raise

theorem convertDrcReport_yields {a : String} {ks : List EvidenceKind} {ev : Evidence}
    (hev : ev.Sound env ks) :
    Yields (convertDrcReport env a ev) (·.Sound env (.drc :: ks)) := by
  have hfail : ∀ ev : Evidence, ev.Sound env ks → ∀ exc,
      Yields (evaluatorFailure ev exc) (·.Sound env (.drc :: ks)) := by
    intro ev hev exc
    unfold evaluatorFailure
    split_ifs
    · exact Yields.pure (hev.fail (by simp) _)
    · exact Yields.raise
  have hscore : (ev.withScore env.score).Sound env ks :=
    ⟨fun hf k hk => by rw [← hev.valid hf k hk]; cases k <;> rfl, hev.failed,
      fun s hs => (some.inj hs).symm⟩
  refine Yields.seq (Yields.tryCatch (Yields.seq (Yields.seq (Yields.seq ?_))) (hfail ev hev))
  exact Yields.tryCatch (Yields.seq (Yields.pure (hscore.setValid .drc))) (hfail _ hscore)

theorem readEvidence_yields {isFile : Bool} {site : Site} {kind : EvidenceKind} {stage : String}
    {outcome : VerificationOutcome} {code : String} {onSuccess : Evidence → Evidence}
    {ks ks' : List EvidenceKind} {ev : Evidence} (hev : ev.Sound env ks)
    (houtcome : outcome ≠ .success) (hok : (onSuccess ev).Sound env ks') :
    Yields (readEvidence env isFile site kind stage outcome code onSuccess ev)
      (·.Sound env ks') := by
  refine Yields.tryCatch (Yields.seq (Yields.seq (Yields.pure hok))) fun exc => ?_
  split_ifs
  · exact Yields.pure (hev.fail houtcome _)
  · exact Yields.raise

/-- Filling in the data of a validated kind keeps the evidence sound. -/
theorem Evidence.Sound.withData {ks : List EvidenceKind} {ev : Evidence} (h : ev.Sound env ks)
    (sanityData connectivityData : EvidenceJson) :
    Evidence.Sound env ks
      { ev with sanityData := sanityData, connectivityData := connectivityData } :=
  ⟨fun hf k hk => by rw [← h.valid hf k hk]; cases k <;> rfl, h.failed, h.score⟩

/-- **Evidence**: whatever the tools do, the gathered evidence is sound for all
five kinds. -/
theorem gatherEvidence_yields (a : String) :
    Yields (gatherEvidence env a)
      (·.Sound env [.connectivity, .sanity, .drc, .layout, .script]) := by
  refine Yields.bind (toolStage_yields Evidence.Sound.initial (by decide) fun ev hev =>
    Yields.pure (hev.setValid .script)) fun ev hev => ?_
  refine Yields.bind (unlessFailed_yields hev fun _ => toolStage_yields hev (by decide)
    fun ev hev => Yields.seq (Yields.pure (hev.setValid .layout))) fun ev hev => ?_
  refine Yields.bind (unlessFailed_yields hev fun _ => toolStage_yields hev (by decide)
    fun ev hev => Yields.pure hev) fun ev hev => ?_
  refine Yields.bind (unlessFailed_yields hev fun _ => validateDrcReport_yields hev)
    fun ev hev => ?_
  refine Yields.bind (unlessFailed_yields hev fun _ => convertDrcReport_yields hev)
    fun ev hev => ?_
  refine Yields.bind (unlessFailed_yields hev fun _ => toolStage_yields hev (by decide)
    fun ev hev => Yields.pure hev) fun ev hev => ?_
  refine Yields.bind (unlessFailed_yields hev fun _ => readEvidence_yields hev (by decide)
    ((hev.setValid .sanity).withData env.sanityJson _)) fun ev hev => ?_
  refine Yields.bind (unlessFailed_yields hev fun _ => toolStage_yields hev (by decide)
    fun ev hev => Yields.pure hev) fun ev hev => ?_
  exact unlessFailed_yields hev fun _ => readEvidence_yields hev (by decide)
    ((hev.setValid .connectivity).withData _ env.connectivityJson)

/-! ## The evaluated attempt -/

/-- The kinds of evidence an attempt must have. -/
abbrev allKinds : List EvidenceKind := [.connectivity, .sanity, .drc, .layout, .script]

/-- A prepared attempt carries one of the fresh identities, and its transaction
carries that identity. -/
def PreparedFor (env : Env) (inp : ExecuteInput) (p : Prepared) : Prop :=
  (∃ n, p.attemptId = env.newAttemptId n) ∧
    ∃ job, p.transaction = { initialTransaction env inp p.attemptId job with status := .running }

/-- How an evaluated attempt came about. -/
structure EvaluatedFrom (env : Env) (inp : ExecuteInput) (e : Evaluated) (p : Prepared)
    (ev : Evidence) : Prop where
  before : ∃ ref, inp.currentSnapshot.drcRef = some ref ∧ p.before = env.totalDrv ref.sha256
  prepared : PreparedFor env inp p
  sound : ev.Sound env allKinds
  attemptId : e.attemptId = p.attemptId
  terminalStatus : e.terminalStatus = ev.terminalStatus
  verification : ∃ delta, buildVerification env p ev delta = .ok e.verification
  decision : e.decision = evaluateAcceptance e.verification env.acceptance
  transaction : e.transaction = finalTransaction env inp p ev e.verification e.decision
  attempted : e.attempted = attemptedSnapshot env inp p e.verification
  committed : e.committed = snapshotCopy env
    (if e.decision.accepted then e.attempted else inp.currentSnapshot)
    (inp.attemptPrefix p.attemptId ++ ["committed"]) inp.caseId
  attemptedTotal : ∀ total, e.attemptedTotal = some total →
    total = env.totalDrv env.attemptedDrcSha256 ∧ env.attemptedDrcIsFile = true
  committedTotal : if e.decision.accepted then e.attemptedTotal = some e.committedTotal
    else e.committedTotal = p.before

theorem preflight_yields :
    Yields (preflight env inp) fun before =>
      ∃ ref, inp.currentSnapshot.drcRef = some ref ∧ before = env.totalDrv ref.sha256 := by
  refine Yields.seq (Yields.seq ?_)
  cases href : inp.currentSnapshot.drcRef with
  | none => exact Yields.raise
  | some ref => exact Yields.seq (Yields.seq (Yields.pure ⟨ref, rfl, rfl⟩))

theorem prepareTurn_yields {request : AttemptRequest}
    {again : Option (AttemptRequest → Exec (AttemptRequest × Job))}
    (hrequest : ∃ n, request.requestedAttemptId = env.newAttemptId n)
    (hagain : ∀ next retryOf, again = some next →
      Yields (next ⟨env.newAttemptId 1, retryOf⟩) fun out =>
        ∃ n, out.1.requestedAttemptId = env.newAttemptId n) :
    Yields (prepareTurn env inp request again) fun out =>
      ∃ n, out.1.requestedAttemptId = env.newAttemptId n := by
  have hraise : ∀ exc : PyExc, Yields
      (if exc.isException then unexpectedPreparationFailure env exc else raise exc :
        Exec (AttemptRequest × Job)) fun out =>
      ∃ n, out.1.requestedAttemptId = env.newAttemptId n := by
    intro exc
    split
    · refine Yields.seq ?_
      cases env.storagePause exc with
      | none => exact Yields.raise
      | some pause => exact Yields.seq Yields.raise
    · exact Yields.raise
  refine Yields.seq (Yields.seq (Yields.tryCatch (Yields.seq (Yields.pure hrequest)) fun exc => ?_))
  cases exc with
  | jobPreparation failure =>
    refine Yields.seq ?_
    cases again with
    | none => exact Yields.raise
    | some next =>
      cases failure.retryable with
      | false => exact Yields.raise
      | true => exact hagain next _ rfl
  | infrastructure failure => exact Yields.raise
  | builtin cls name text => exact hraise _
  | executionCancelled ordinary => exact hraise _
  | keyboardInterrupt => exact hraise _

theorem prepareAttempt_yields :
    Yields (prepareAttempt env inp) fun p =>
      (∃ ref, inp.currentSnapshot.drcRef = some ref ∧ p.before = env.totalDrv ref.sha256) ∧
        PreparedFor env inp p := by
  refine Yields.bind preflight_yields fun before hbefore => ?_
  refine Yields.bind (prepareTurn_yields ⟨0, rfl⟩ fun next retryOf hnext => ?_) fun out hout => ?_
  · obtain rfl := some.inj hnext
    exact prepareTurn_yields ⟨1, rfl⟩ fun _ _ hnone => by cases hnone
  · exact Yields.seq (Yields.seq (Yields.seq (Yields.seq
      (Yields.pure ⟨hbefore, hout, out.2, rfl⟩))))

theorem copySnapshot_yields {s : DesignSnapshotRef} {dir : Path} {caseId : String} :
    Yields (copySnapshot env s dir caseId) (· = snapshotCopy env s dir caseId) :=
  Yields.seq (Yields.seq (Yields.seq (Yields.seq (Yields.pure rfl))))

theorem persistAttempted_yields {p : Prepared} {ev : Evidence} :
    Yields (persistAttempted env inp p ev) fun total? => ∀ total, total? = some total →
      total = env.totalDrv env.attemptedDrcSha256 ∧ env.attemptedDrcIsFile = true := by
  refine Yields.seq (Yields.seq (Yields.seq (Yields.seq (Yields.seq ?_))))
  refine Yields.bind (Q := fun total? => ∀ total, total? = some total →
    total = env.totalDrv env.attemptedDrcSha256 ∧ env.attemptedDrcIsFile = true) ?_
    fun total htotal => Yields.seq (Yields.pure htotal)
  unfold attemptedTotal
  split_ifs with hc
  · exact Yields.seq (Yields.pure fun total htotal => ⟨(some.inj htotal).symm, hc.2⟩)
  · exact Yields.pure fun total htotal => by cases htotal

theorem commitSnapshot_yields {p : Prepared} {accepted : Bool} {s : DesignSnapshotRef}
    {total : Option ℤ} :
    Yields (commitSnapshot env inp p accepted s total) fun out =>
      out.1 = snapshotCopy env (if accepted then s else inp.currentSnapshot)
        (inp.attemptPrefix p.attemptId ++ ["committed"]) inp.caseId ∧
      if accepted then total = some out.2 else out.2 = p.before := by
  unfold commitSnapshot
  cases accepted with
  | true =>
    refine Yields.bind copySnapshot_yields fun committed hcommitted => ?_
    cases total with
    | none => exact Yields.raise
    | some total => exact Yields.pure ⟨hcommitted, rfl⟩
  | false =>
    exact Yields.bind copySnapshot_yields fun committed hcommitted =>
      Yields.pure ⟨hcommitted, rfl⟩

/-- Every evaluated attempt is evaluated from a prepared one and sound evidence. -/
theorem evaluateAttempt_yields :
    Yields (evaluateAttempt env inp) fun e => ∃ p ev, EvaluatedFrom env inp e p ev := by
  refine Yields.bind prepareAttempt_yields fun p hbefore => Yields.seq ?_
  refine Yields.bind (gatherEvidence_yields _) fun ev hev => ?_
  refine Yields.bind Yields.any fun delta _ => ?_
  refine Yields.bind (Yields.lift fun v hv => hv) fun v hv => Yields.seq ?_
  refine Yields.bind persistAttempted_yields fun total htotal => ?_
  refine Yields.bind commitSnapshot_yields fun out hout => Yields.seq (Yields.pure ?_)
  exact ⟨p, ev, hbefore.1, hbefore.2, hev, rfl, rfl, ⟨delta, hv⟩, rfl, rfl, rfl, hout.1, htotal, hout.2⟩

/-- The result `execute` returns is the one of an evaluated attempt. -/
theorem execute_yields_of {Q : Evaluated → Prop} (h : Yields (evaluateAttempt env inp) Q) :
    Yields (execute env inp) fun r => ∃ e, r = resultOf env e ∧ Q e := by
  have hbody : Yields (executeBody env inp) fun r => ∃ e, r = resultOf env e ∧ Q e := by
    refine Yields.bind h fun e he => Yields.seq (Yields.seq (Yields.pure ?_))
    exact ⟨e, rfl, he⟩
  have hreturn : Yields (accountReturn env (executeBody env inp)) fun r =>
      ∃ e, r = resultOf env e ∧ Q e := by
    refine Yields.bind hbody fun r hr => Yields.bind Yields.any fun active _ => ?_
    cases active with
    | none => exact Yields.pure hr
    | some l =>
      dsimp only
      split_ifs
      · exact Yields.pure hr
      · exact Yields.seq Yields.raise
  have hfailure : ∀ exc, Yields (accountFailure (α := TransactionExecutionResult) env exc)
      fun r => ∃ e, r = resultOf env e ∧ Q e := by
    intro exc
    refine Yields.bind Yields.any fun normalized _ => Yields.bind Yields.any fun active _ => ?_
    cases active with
    | none => exact Yields.raise
    | some l =>
      dsimp only
      split_ifs
      · exact Yields.raise
      · exact Yields.seq Yields.raise
  intro w r w' hrun
  have hok := Yields.tryCatch hreturn hfailure { w with active := none }
  obtain ⟨hout, -⟩ := Prod.mk.inj hrun
  rcases hinner : tryCatch (accountReturn env (executeBody env inp)) (accountFailure env)
    { w with active := none } with ⟨out, w''⟩
  rw [hinner] at hout
  exact hok r w'' (by rw [hinner]; exact congrArg (·, w'') hout)

theorem execute_yields :
    Yields (execute env inp) fun r => ∃ e p ev, r = resultOf env e ∧
      EvaluatedFrom env inp e p ev := by
  refine (execute_yields_of evaluateAttempt_yields).mono fun r hr => ?_
  obtain ⟨e, hresult, p, ev, hfrom⟩ := hr
  exact ⟨e, p, ev, hresult, hfrom⟩

/-! ## Both directions of acceptance -/

/-- An accepted attempt is one all of whose stages went through. -/
theorem EvaluatedFrom.of_accepted {e : Evaluated} {p : Prepared} {ev : Evidence}
    (h : EvaluatedFrom env inp e p ev) (hacc : e.decision.accepted = true) :
    ev.failure = none ∧ ev.score = some env.score ∧ ∃ delta sanityPass preserved,
      e.verification = evaluatedRecord env p ev delta env.score sanityPass preserved ∧
      evaluatedOutcome sanityPass preserved env.score = .success := by
  rw [h.decision] at hacc
  have houtcome := ((evaluateAcceptance_accepted_iff _ _).1 hacc).2
  obtain ⟨delta, hbuild⟩ := h.verification
  obtain ⟨outcome, code, sanityPass, preserved, hfailure, hv⟩ | ⟨score, sanityPass, preserved,
    hfailure, hscore, hv⟩ := buildVerification_cases hbuild
  · rw [hv] at houtcome
    exact absurd houtcome (h.sound.failed outcome code hfailure)
  · obtain rfl := h.sound.score score hscore
    refine ⟨hfailure, hscore, delta, sanityPass, preserved, hv, ?_⟩
    rw [hv] at houtcome
    exact houtcome

/-- The success outcome spells out the physical verdict. -/
theorem of_evaluatedOutcome_success {sanityPass preserved : Bool} {score : OfficialRepairScore}
    (h : evaluatedOutcome sanityPass preserved score = .success) :
    sanityPass = true ∧ preserved = true ∧ score.newViolations = 0 ∧
      0 < score.removedViolations := by
  unfold evaluatedOutcome at h
  split_ifs at h with h₁ h₂ h₃ h₄
  simp only [Bool.not_eq_true', Bool.not_eq_false, ne_eq, Decidable.not_not, not_le] at h₁ h₂ h₃ h₄
  exact ⟨h₁, h₂, h₃, h₄⟩

/-- The physical verdict of an accepted attempt. -/
theorem EvaluatedFrom.verified_of_accepted {e : Evaluated} {p : Prepared} {ev : Evidence}
    (h : EvaluatedFrom env inp e p ev) (hacc : e.decision.accepted = true) :
    e.verification.complete = true ∧ e.verification.gdsSanityPass = some true ∧
      e.verification.connectivityPreserved = some true ∧
      e.verification.newViolationCount = some 0 ∧
      ∃ removed, e.verification.removedOriginalCount = some removed ∧ 0 < removed := by
  obtain ⟨hfailure, hscore, delta, sanityPass, preserved, hv, houtcome⟩ := h.of_accepted hacc
  obtain ⟨rfl, rfl, hnew, hremoved⟩ := of_evaluatedOutcome_success houtcome
  have hcomplete := h.sound.complete hfailure
  rw [hv]
  refine ⟨hcomplete, rfl, rfl, ?_, env.score.removedViolations, ?_, hremoved⟩
  · show ev.score.map (·.newViolations) = some 0
    rw [hscore, map_some, hnew]
  · show ev.score.map (·.removedViolations) = _
    rw [hscore, map_some]

/-- The baseline an accepted attempt is compared with is the evaluator's. -/
theorem EvaluatedFrom.baseline_of_accepted {e : Evaluated} {p : Prepared} {ev : Evidence}
    (h : EvaluatedFrom env inp e p ev) (hacc : e.decision.accepted = true) :
    e.verification.baselineResidualCount = env.score.originalViolations := by
  obtain ⟨-, -, delta, sanityPass, preserved, hv, -⟩ := h.of_accepted hacc
  rw [hv]
  rfl

/-- An accepted attempt is evaluated. -/
theorem EvaluatedFrom.terminalStatus_of_accepted {e : Evaluated} {p : Prepared} {ev : Evidence}
    (h : EvaluatedFrom env inp e p ev) (hacc : e.decision.accepted = true) :
    e.terminalStatus = .evaluated := by
  obtain ⟨hfailure, -⟩ := h.of_accepted hacc
  rw [h.terminalStatus, Evidence.terminalStatus, hfailure]
  simp [h.sound.complete hfailure]

/-- The transaction of an accepted attempt is committed. -/
theorem EvaluatedFrom.status_of_accepted {e : Evaluated} {p : Prepared} {ev : Evidence}
    (h : EvaluatedFrom env inp e p ev) (hacc : e.decision.accepted = true) :
    e.transaction.status = .committed := by
  have hterminal := h.terminalStatus_of_accepted hacc
  rw [h.transaction]
  show finalStatus ev.terminalStatus e.decision.accepted = _
  rw [← h.terminalStatus, hterminal, hacc]
  rfl

/-- The transaction of a refused attempt is not committed. -/
theorem EvaluatedFrom.status_of_refused {e : Evaluated} {p : Prepared} {ev : Evidence}
    (h : EvaluatedFrom env inp e p ev) (hacc : e.decision.accepted = false) :
    e.transaction.status ≠ .committed := by
  rw [h.transaction]
  show finalStatus ev.terminalStatus e.decision.accepted ≠ _
  rw [hacc, finalStatus]
  split <;> simp

/-- `store.copy` keeps the content of what it copies. -/
def CopyKeepsContent (env : Env) : Prop :=
  ∀ sha path producer media, (env.copyRef sha path producer media).sha256 = sha

theorem snapshotCopy_sameArtifacts (hcopy : CopyKeepsContent env) (s : DesignSnapshotRef)
    (dir : Path) (caseId : String) : (snapshotCopy env s dir caseId).SameArtifacts s := by
  refine ⟨hcopy _ _ _ _, ?_, ?_, rfl, ?_⟩
  · cases hs : s.gdsRef <;> simp [snapshotCopy, copyOf, hs, hcopy _ _ _ _]
  · cases hs : s.drcRef <;> simp [snapshotCopy, copyOf, hs, hcopy _ _ _ _]
  · cases hs : s.lineageReceiptRef <;> simp [snapshotCopy, copyOf, hs, hcopy _ _ _ _]

theorem snapshotCopy_sameProvenance (s : DesignSnapshotRef) (dir : Path) (caseId : String) :
    (snapshotCopy env s dir caseId).SameProvenance s :=
  ⟨rfl, rfl, rfl, rfl, rfl, rfl⟩

/-- **Acceptance soundness.**  With the default acceptance policy and an
evaluator whose original count is the total of the current report, an accepted
result of `execute` is completely verified, connected, free of new violations
and strictly better than the current snapshot, its transaction is `COMMITTED`,
and its committed snapshot is the attempted one at a new location. A refused
result is not `COMMITTED` and hands the current snapshot and its total back. -/
theorem execute_acceptance_sound (env : Env) (inp : ExecuteInput) (w w' : World)
    (r : TransactionExecutionResult) (hacceptance : env.acceptance = {})
    (hscore : ∀ ref, inp.currentSnapshot.drcRef = some ref →
      env.score.originalViolations = env.totalDrv ref.sha256)
    (hcopy : CopyKeepsContent env) (hrun : execute env inp w = (.ok r, w')) :
    ∃ ref, inp.currentSnapshot.drcRef = some ref ∧
    (r.accepted = true → r.verification.complete = true ∧ r.verification.gdsSanityPass = some true ∧
      r.verification.connectivityPreserved = some true ∧
      r.verification.newViolationCount = some 0 ∧
      (∃ removed, r.verification.removedOriginalCount = some removed ∧ 0 < removed) ∧
      (∃ residual, r.verification.residualViolationCount = some residual ∧
        residual < env.totalDrv ref.sha256) ∧
      r.transaction.status = .committed ∧
      r.committedSnapshot.SameArtifacts r.attemptedSnapshot ∧
      r.committedSnapshot.SameProvenance r.attemptedSnapshot) ∧
    (r.accepted = false → r.transaction.status ≠ .committed ∧
      r.committedSnapshot.SameArtifacts inp.currentSnapshot ∧
      r.committedSnapshot.SameProvenance inp.currentSnapshot ∧
      r.committedTotalDrv = env.totalDrv ref.sha256) := by
  obtain ⟨e, p, ev, rfl, hfrom⟩ := execute_yields w r w' hrun
  obtain ⟨ref, href, hbefore⟩ := hfrom.before
  refine ⟨ref, href, fun hacc => ?_, fun hacc => ?_⟩
  · change e.decision.accepted = true at hacc
    obtain ⟨hcomplete, hsanity, hpreserved, hnew, hremoved⟩ := hfrom.verified_of_accepted hacc
    refine ⟨hcomplete, hsanity, hpreserved, hnew, hremoved, ?_, hfrom.status_of_accepted hacc, ?_⟩
    · have hprogress : (evaluateAcceptance e.verification env.acceptance).accepted = true :=
        hfrom.decision ▸ hacc
      obtain ⟨residual, hres, hlt⟩ :=
        residual_lt_of_accepted (by rw [hacceptance]) hprogress
      refine ⟨residual, hres, ?_⟩
      rw [hfrom.baseline_of_accepted hacc, hscore ref href] at hlt
      exact hlt
    · have hcommitted := hfrom.committed
      rw [if_pos hacc] at hcommitted
      show e.committed.SameArtifacts e.attempted ∧ e.committed.SameProvenance e.attempted
      rw [hcommitted]
      exact ⟨snapshotCopy_sameArtifacts hcopy _ _ _, snapshotCopy_sameProvenance _ _ _⟩
  · change e.decision.accepted = false at hacc
    have hcommitted := hfrom.committed
    have htotal := hfrom.committedTotal
    have hne : ¬ e.decision.accepted = true := by simpa using hacc
    rw [if_neg hne] at hcommitted htotal
    refine ⟨hfrom.status_of_refused hacc, ?_⟩
    show e.committed.SameArtifacts inp.currentSnapshot ∧
      e.committed.SameProvenance inp.currentSnapshot ∧ e.committedTotal = env.totalDrv ref.sha256
    rw [hcommitted]
    exact ⟨snapshotCopy_sameArtifacts hcopy _ _ _, snapshotCopy_sameProvenance _ _ _,
      htotal.trans hbefore⟩

/-- The sample execution is accepted, at a residual below the three violations
it started from. -/
theorem execute_acceptance_sound_sample :
    ∃ r w', execute sampleEnv sampleInput {} = (.ok r, w') ∧
      r.transaction.status = .committed ∧
      ∃ residual, r.verification.residualViolationCount = some residual ∧ residual < 3 := by
  have hacc : (execute sampleEnv sampleInput {}).1.toOption.map (·.accepted) = some true := by
    decide
  rcases hrun : execute sampleEnv sampleInput {} with ⟨exc | r, w'⟩
  · rw [hrun] at hacc
    cases hacc
  · obtain ⟨ref, href, haccepted, -⟩ := execute_acceptance_sound sampleEnv sampleInput {} w' r rfl
      (fun ref href => by obtain rfl := some.inj href; rfl) (fun _ _ _ _ => rfl) hrun
    obtain rfl := some.inj href
    rw [hrun] at hacc
    obtain ⟨-, -, -, -, -, hresidual, hstatus, -⟩ := haccepted (some.inj hacc)
    exact ⟨r, w', rfl, hstatus, hresidual⟩

end DRCAgent
