/-
# The stage that fails

The physical evidence of an attempt is gathered in nine stages, and each but the first
runs only while nothing has failed. Which stage fails first is decided by the tools'
statuses and by the exceptions of the calls outside; the stage then decides the outcome
and the failure code of the verification (`execute_failure`).
-/
import DRCAgent.AcceptanceSoundness

namespace DRCAgent

open ExcState

/-! ## The stages -/

/-- The stages of the evidence, in order. -/
inductive EvidenceStage
  | validateScript
  | generateLayout
  | runDrc
  | validateDrcReport
  | convertDrcReport
  | runSanity
  | readSanity
  | runConnectivity
  | readConnectivity
  deriving DecidableEq

def evidenceStages : List EvidenceStage :=
  [.validateScript, .generateLayout, .runDrc, .validateDrcReport, .convertDrcReport, .runSanity,
    .readSanity, .runConnectivity, .readConnectivity]

/-- Neither the report nor the one of the retry validates. -/
def Env.reportInvalid (env : Env) : Bool :=
  (env.raises (.validateLyrpt false)).any (·.isValueError) &&
    (env.drcRetry.status ≠ .success || (env.raises (.validateLyrpt true)).any (·.isValueError))

/-- The evaluator raises on the report of attempt `a`, or the ledger does after it. -/
def Env.evaluatorRaises (env : Env) (a : String) : Bool :=
  [.reportRef, .convertLyrptToJson, .scoreRepair, .appendJsonl a "DRC_VERIFIED"].any
    fun site => (env.raises site).isSome

/-- The evidence file is missing or cannot be read. -/
def Env.unreadable (env : Env) (isFile : Bool) (site : Site) : Bool :=
  !isFile || (env.raises site).any fun exc => exc.isOSError || exc.isValueError

/-- The stage fails, once it runs. -/
def EvidenceStage.fails (env : Env) (a : String) : EvidenceStage → Bool
  | validateScript => env.validate.status ≠ .success
  | generateLayout => env.layout.status ≠ .success
  | runDrc => env.drc.status ≠ .success
  | validateDrcReport => env.reportInvalid
  | convertDrcReport => env.evaluatorRaises a
  | runSanity => env.sanity.status ≠ .success
  | readSanity => env.unreadable env.sanityIsFile .readSanity
  | runConnectivity => env.connectivity.status ≠ .success
  | readConnectivity => env.unreadable env.connectivityIsFile .readConnectivity

/-- The first stage that fails. -/
def Env.failedStage (env : Env) (a : String) : Option EvidenceStage :=
  evidenceStages.find? (·.fails env a)

/-- The outcome and the failure code of a failed stage. -/
def EvidenceStage.Reports (env : Env) : EvidenceStage → VerificationOutcome × String → Prop
  | validateScript, f => f = toolFailure env.validate .syntaxFailure "SCRIPT_VALIDATION_FAILED"
  | generateLayout, f =>
    f = toolFailure env.layout .layoutGenerationFailure "LAYOUT_GENERATION_FAILED"
  | runDrc, f => f = toolFailure env.drc .drcExecutionFailure "DRC_EXECUTION_FAILED"
  | validateDrcReport, f => f = (.drcExecutionFailure, "INVALID_LYRPT_XML_AFTER_RETRY")
  | convertDrcReport, f =>
    ∃ exc : PyExc, f = (.drcExecutionFailure, "EVALUATOR_FAILURE_" ++ exc.typeName)
  | runSanity, f => f = toolFailure env.sanity .gdsSanityFailure "SANITY_EXECUTION_FAILED"
  | readSanity, f =>
    ∃ exc : PyExc, f = (.gdsSanityFailure, "SANITY_EVIDENCE_INVALID_" ++ exc.typeName)
  | runConnectivity, f =>
    f = toolFailure env.connectivity .connectivityFailure "CONNECTIVITY_EXECUTION_FAILED"
  | readConnectivity, f =>
    ∃ exc : PyExc, f = (.connectivityFailure, "CONNECTIVITY_EVIDENCE_INVALID_" ++ exc.typeName)

/-- What the evidence says after a stage that ran. -/
def EvidenceStage.Ends (env : Env) (a : String) (st : EvidenceStage) (ev : Evidence) : Prop :=
  if st.fails env a then ∃ f, ev.failure = some f ∧ st.Reports env f else ev.failure = none

/-- What the evidence says after `stages`. -/
def FailureAfter (env : Env) (a : String) (stages : List EvidenceStage) (ev : Evidence) : Prop :=
  match stages.find? (·.fails env a) with
  | none => ev.failure = none
  | some st => ∃ f, ev.failure = some f ∧ st.Reports env f

variable {env : Env} {inp : ExecuteInput} {a : String} {ev : Evidence}

/-! ## Each stage -/

theorem EvidenceStage.Ends.of_fails {st : EvidenceStage} (hfails : st.fails env a = true)
    {f : VerificationOutcome × String} (hfailure : ev.failure = some f) (hreports : st.Reports env f) :
    st.Ends env a ev := by
  unfold EvidenceStage.Ends
  rw [if_pos hfails]
  exact ⟨f, hfailure, hreports⟩

theorem EvidenceStage.Ends.of_passes {st : EvidenceStage} (hpasses : ¬ st.fails env a = true)
    (hfailure : ev.failure = none) : st.Ends env a ev := by
  unfold EvidenceStage.Ends
  rw [if_neg hpasses]
  exact hfailure

/-- A stage that runs a tool. -/
theorem toolStage_ends {stage code : String} {site : Site} {tool : ToolResult} {kind : EvidenceKind}
    {outcome : VerificationOutcome} {onSuccess : Evidence → Exec Evidence} (st : EvidenceStage)
    (hfails : st.fails env a = true ↔ tool.status ≠ .success)
    (hreports : st.Reports env (toolFailure tool outcome code))
    (hok : Yields (onSuccess (ev.addTool tool)) (·.failure = none)) :
    Yields (toolStage env stage site tool kind outcome code onSuccess ev) (st.Ends env a) := by
  refine Yields.seq (Yields.seq ?_)
  show Yields (if tool.status = .success then _ else _) _
  by_cases hstatus : tool.status = .success
  · rw [if_pos hstatus]
    refine hok.mono fun ev' hev' => ?_
    exact EvidenceStage.Ends.of_passes (fun h => hfails.1 h hstatus) hev'
  · rw [if_neg hstatus]
    exact Yields.pure (EvidenceStage.Ends.of_fails (hfails.2 hstatus) rfl hreports)

theorem validateDrcReport_ends (hev : ev.failure = none) :
    Yields (validateDrcReport env ev) (EvidenceStage.Ends env a .validateDrcReport) := by
  refine Yields.seq (Throws.yields_tryCatch ((call_throws env _).before fun _ => Throws.pure) ?_ ?_)
  · intro hvalid
    refine Yields.seq (Yields.pure (EvidenceStage.Ends.of_passes ?_ hev))
    show ¬ env.reportInvalid = true
    rw [Env.reportInvalid, hvalid]
    simp
  intro exc hexc
  split_ifs with hvalue
  · refine Yields.seq (Throws.yields_tryCatch (Throws.bind (Throws.runIf Throws.raise) fun _ =>
      (call_throws env _).before fun _ => Throws.pure) ?_ ?_)
    · -- the retry ran and its report validates
      intro hnone
      refine Yields.seq (Yields.seq (Yields.pure (EvidenceStage.Ends.of_passes ?_ hev)))
      show ¬ env.reportInvalid = true
      rw [Env.reportInvalid, hexc]
      split_ifs at hnone with hstatus
      · cases hnone
      · have hraises : env.raises (.validateLyrpt true) = none := hnone
        rw [hraises]
        have hsuccess := not_not.1 (mt decide_eq_true hstatus)
        simp [hsuccess]
    · intro exc' hexc'
      split_ifs with hvalue'
      · refine Yields.pure (EvidenceStage.Ends.of_fails ?_ rfl rfl)
        show env.reportInvalid = true
        rw [Env.reportInvalid, hexc]
        split_ifs at hexc' with hstatus
        · simp [hvalue, of_decide_eq_true hstatus]
        · have hraises : env.raises (.validateLyrpt true) = some exc' := hexc'
          simp [hvalue, hraises, hvalue']
      · exact Yields.raise
  · exact Yields.raise

/-- The handler of the conversion stage returns failed evidence only. -/
theorem evaluatorFailure_ends (hraises : env.evaluatorRaises a = true) (exc : PyExc) :
    Yields (evaluatorFailure ev exc) (EvidenceStage.Ends env a .convertDrcReport) := by
  unfold evaluatorFailure
  split_ifs
  · exact Yields.pure (EvidenceStage.Ends.of_fails hraises rfl ⟨exc, rfl⟩)
  · exact Yields.raise

theorem convertDrcReport_ends (hev : ev.failure = none) :
    Yields (convertDrcReport env a ev) (EvidenceStage.Ends env a .convertDrcReport) := by
  have hsites : env.evaluatorRaises a = true ↔ (env.raises .reportRef).isSome = true ∨
      (env.raises .convertLyrptToJson).isSome = true ∨ (env.raises .scoreRepair).isSome = true ∨
      (env.raises (.appendJsonl a "DRC_VERIFIED")).isSome = true := by
    simp [Env.evaluatorRaises]
  refine Yields.seq ?_
  by_cases hraises : env.evaluatorRaises a = true
  · refine Yields.tryCatch ?_ (evaluatorFailure_ends hraises)
    refine Throws.yields_seq (call_throws env _) fun hfirst => ?_
    refine Throws.yields_seq (call_throws env _) fun hsecond => ?_
    refine Throws.yields_seq (call_throws env _) fun hthird => ?_
    -- nothing raised so far, so the ledger does
    have hrow : (env.raises (.appendJsonl a "DRC_VERIFIED")).isSome = true := by
      have hany := hsites.1 hraises
      rw [hfirst, hsecond, hthird] at hany
      simpa using hany
    obtain ⟨exc, hexc⟩ := Option.isSome_iff_exists.1 hrow
    have hphase : Throws (phase env a "DRC_VERIFIED") (some exc) := by
      rw [← hexc]
      exact perform_throws env _ _
    refine Yields.tryCatch ?_ (evaluatorFailure_ends hraises)
    exact Throws.yields_seq hphase fun hnone => nomatch hnone
  · have hnone : ∀ {site : Site}, ((env.raises site).isSome = true → env.evaluatorRaises a = true) →
        env.raises site = none :=
      fun himp => Option.not_isSome_iff_eq_none.1 fun hsome => hraises (himp hsome)
    have hfirst := hnone fun h => hsites.2 (.inl h)
    have hsecond := hnone fun h => hsites.2 (.inr (.inl h))
    have hthird := hnone fun h => hsites.2 (.inr (.inr (.inl h)))
    have hfourth := hnone fun h => hsites.2 (.inr (.inr (.inr h)))
    have hphase : Throws (do phase env a "DRC_VERIFIED"; pure (Evidence.setValidity
        (ev.withScore env.score) .drc .valid) : Exec Evidence) none := by
      rw [← hfourth]
      exact (perform_throws env _ _).before fun _ => Throws.pure
    have hinner : Throws (ExcState.tryCatch (do phase env a "DRC_VERIFIED"; pure (Evidence.setValidity
        (ev.withScore env.score) .drc .valid)) (evaluatorFailure (ev.withScore env.score))) none := by
      intro w
      obtain ⟨a', w', hrun⟩ := hphase.ok w
      unfold ExcState.tryCatch
      rw [hrun]
      rfl
    have hbody : Throws (do
        call env .reportRef
        call env .convertLyrptToJson
        call env .scoreRepair
        ExcState.tryCatch (do phase env a "DRC_VERIFIED"; pure (Evidence.setValidity
          (ev.withScore env.score) .drc .valid)) (evaluatorFailure (ev.withScore env.score))) none := by
      refine Throws.after (hfirst ▸ call_throws env .reportRef) fun _ => ?_
      refine Throws.after (hsecond ▸ call_throws env .convertLyrptToJson) fun _ => ?_
      exact Throws.after (hthird ▸ call_throws env .scoreRepair) fun _ => hinner
    refine Throws.yields_tryCatch hbody (fun _ => ?_) fun exc hexc => nomatch hexc
    refine Yields.seq (Yields.seq (Yields.seq ?_))
    refine Throws.yields_tryCatch hphase (fun _ => ?_) fun exc hexc => nomatch hexc
    exact Yields.seq (Yields.pure (EvidenceStage.Ends.of_passes hraises hev))

/-- A stage that reads an evidence file. -/
theorem readEvidence_ends {isFile : Bool} {site : Site} {kind : EvidenceKind} {stage code : String}
    {outcome : VerificationOutcome} {onSuccess : Evidence → Evidence} (st : EvidenceStage)
    (hfails : st.fails env a = env.unreadable isFile site)
    (hreports : ∀ exc : PyExc, st.Reports env (outcome, code ++ exc.typeName))
    (hok : (onSuccess ev).failure = none) :
    Yields (readEvidence env isFile site kind stage outcome code onSuccess ev) (st.Ends env a) := by
  refine Throws.yields_tryCatch (Throws.bind (Throws.runIf Throws.raise) fun _ =>
    (call_throws env _).before fun _ => Throws.pure) ?_ ?_
  · intro hnone
    refine Yields.seq (Yields.seq (Yields.pure (EvidenceStage.Ends.of_passes ?_ hok)))
    rw [hfails, Env.unreadable]
    split_ifs at hnone with hmissing
    · cases hnone
    · have hraises : env.raises site = none := hnone
      rw [hraises]
      simpa using hmissing
  · intro exc hexc
    split_ifs with hclass
    · refine Yields.pure (EvidenceStage.Ends.of_fails ?_ rfl (hreports exc))
      rw [hfails, Env.unreadable]
      split_ifs at hexc with hmissing
      · rw [hmissing]
        rfl
      · have hraises : env.raises site = some exc := hexc
        rw [hraises]
        simp [Bool.or_eq_true .. ▸ hclass]
    · exact Yields.raise

/-! ## The stages in order -/

/-- A stage that runs only while nothing has failed. -/
theorem unlessFailed_after {stages : List EvidenceStage} {stage : Evidence → Exec Evidence}
    (st : EvidenceStage) (hev : FailureAfter env a stages ev)
    (h : ev.failure = none → Yields (stage ev) (st.Ends env a)) :
    Yields (ev.unlessFailed stage) (FailureAfter env a (stages ++ [st])) := by
  unfold FailureAfter at hev ⊢
  unfold Evidence.unlessFailed
  rw [List.find?_append]
  cases hfind : stages.find? (·.fails env a) with
  | some failed =>
    rw [hfind] at hev
    obtain ⟨f, hf, hreports⟩ := hev
    rw [if_neg (by rw [hf]; nofun)]
    exact Yields.pure ⟨f, hf, hreports⟩
  | none =>
    rw [hfind] at hev
    rw [if_pos hev]
    refine (h hev).mono fun ev' hends => ?_
    unfold EvidenceStage.Ends at hends
    by_cases hfails : st.fails env a = true
    · rw [if_pos hfails] at hends
      rw [List.find?_cons_of_pos hfails]
      exact hends
    · rw [if_neg hfails] at hends
      rw [List.find?_cons_of_neg hfails]
      exact hends

/-- **The first stage that fails decides the failure.** -/
theorem gatherEvidence_after : Yields (gatherEvidence env a) (FailureAfter env a evidenceStages) := by
  have hinitial : FailureAfter env a [] ({} : Evidence) := rfl
  have hfirst : Yields (validateScript env {}) (FailureAfter env a [.validateScript]) := by
    show Yields (Evidence.unlessFailed {} (validateScript env)) _
    exact unlessFailed_after .validateScript hinitial fun hnone =>
      toolStage_ends _ decide_eq_true_iff rfl (Yields.pure hnone)
  refine Yields.bind hfirst fun ev hev => ?_
  refine Yields.bind (unlessFailed_after .generateLayout hev fun hnone =>
    toolStage_ends _ decide_eq_true_iff rfl (Yields.seq (Yields.pure hnone))) fun ev hev => ?_
  refine Yields.bind (unlessFailed_after .runDrc hev fun hnone =>
    toolStage_ends _ decide_eq_true_iff rfl (Yields.pure hnone)) fun ev hev => ?_
  refine Yields.bind (unlessFailed_after .validateDrcReport hev fun hnone =>
    validateDrcReport_ends hnone) fun ev hev => ?_
  refine Yields.bind (unlessFailed_after .convertDrcReport hev fun hnone =>
    convertDrcReport_ends hnone) fun ev hev => ?_
  refine Yields.bind (unlessFailed_after .runSanity hev fun hnone =>
    toolStage_ends _ decide_eq_true_iff rfl (Yields.pure hnone)) fun ev hev => ?_
  refine Yields.bind (unlessFailed_after .readSanity hev fun hnone =>
    readEvidence_ends _ rfl (fun exc => ⟨exc, rfl⟩) hnone) fun ev hev => ?_
  refine Yields.bind (unlessFailed_after .runConnectivity hev fun hnone =>
    toolStage_ends _ decide_eq_true_iff rfl (Yields.pure hnone)) fun ev hev => ?_
  exact unlessFailed_after .readConnectivity hev fun hnone =>
    readEvidence_ends _ rfl (fun exc => ⟨exc, rfl⟩) hnone

/-! ## The verification of an execution -/

/-- The attempt of an evaluation, and the verification built from its evidence. -/
theorem evaluateAttempt_failure :
    Yields (evaluateAttempt env inp) fun e => ∃ p ev delta,
      FailureAfter env e.attemptId evidenceStages ev ∧
        buildVerification env p ev delta = .ok e.verification := by
  refine Yields.bind Yields.any fun p _ => Yields.seq ?_
  refine Yields.bind gatherEvidence_after fun ev hev => ?_
  refine Yields.bind Yields.any fun delta _ => ?_
  refine Yields.bind (Yields.lift fun v hv => hv) fun v hv => Yields.seq ?_
  refine Yields.bind Yields.any fun total _ => ?_
  refine Yields.bind Yields.any fun out _ => Yields.seq (Yields.pure ?_)
  exact ⟨p, ev, delta, hev, hv⟩

/-- The failure codes of a verification: that of the first stage that fails, or the
outcome's own. -/
def CodesAfter (env : Env) (failed : Option EvidenceStage) (v : VerificationResult) : Prop :=
  match failed with
  | some st => ∃ f, st.Reports env f ∧ v.outcome = f.1 ∧ v.failureCodes = [f.2]
  | none => v.failureCodes = [] ∨ v.failureCodes = [v.outcome.value]

/-- **The stage that fails decides the verification.** -/
theorem execute_failure {w w' : World} {r : TransactionExecutionResult}
    (h : execute env inp w = (.ok r, w')) :
    ∃ a, r.attemptId = some a ∧ CodesAfter env (env.failedStage a) r.verification := by
  obtain ⟨e, rfl, p, ev, delta, hafter, hbuild⟩ :=
    execute_yields_of evaluateAttempt_failure w r w' h
  refine ⟨e.attemptId, rfl, ?_⟩
  show CodesAfter env _ e.verification
  unfold FailureAfter at hafter
  unfold CodesAfter Env.failedStage
  cases hfailed : evidenceStages.find? (·.fails env e.attemptId) with
  | some st =>
    rw [hfailed] at hafter
    obtain ⟨f, hf, hreports⟩ := hafter
    obtain ⟨outcome, code, _, _, hfailure, hv⟩ | ⟨_, _, _, hnone, -, -⟩ :=
      buildVerification_cases hbuild
    · obtain rfl : f = (outcome, code) := Option.some.inj (hf.symm.trans hfailure)
      rw [hv]
      exact ⟨_, hreports, rfl, rfl⟩
    · rw [hnone] at hf
      cases hf
  | none =>
    rw [hfailed] at hafter
    obtain ⟨_, _, _, _, hfailure, -⟩ | ⟨score, sanityPass, preserved, -, -, hv⟩ :=
      buildVerification_cases hbuild
    · rw [hafter] at hfailure
      cases hfailure
    · rw [hv]
      by_cases houtcome : evaluatedOutcome sanityPass preserved score = .success
      · exact .inl (if_pos houtcome)
      · exact .inr (if_neg houtcome)

end DRCAgent
