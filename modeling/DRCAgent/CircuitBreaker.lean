/-
# Infrastructure failures and the circuit breaker

A master transaction whose verification shows that the DRC tool itself failed, or that
its evidence is unusable, is meant to set `fatal_failure`, so that the next stopping
check ends the run with INTEGRITY_FAILURE. The filter of `execute_transaction` pairs
the DRC codes with outcomes the executor never gives them, and looks for a prefix no
evidence check produces. Of the stages that report such a code it lets one through,
the evaluator's (`isFatal_iff`); and the flag of a transaction stands only until the
next window executes another one (`infrastructure_failure_stops_iff`).
-/
import DRCAgent.EvidenceStages
import DRCAgent.Workflow

namespace DRCAgent

open Option Runs

/-! ## The filter of `execute_transaction` -/

/-- The codes that mean a failed DRC tool or unusable evidence. -/
def infrastructureCode (code : String) : Bool :=
  code = "DRC_EXECUTION_FAILED" || code = "INVALID_LYRPT_XML_AFTER_RETRY" ||
    ["EVALUATOR_FAILURE_", "SANITY_EVIDENCE_INVALID_", "CONNECTIVITY_EVIDENCE_INVALID_"].any
      fun start => start.toList.isPrefixOf code.toList

/-- The stages other than the evaluator's that report such a code. -/
def EvidenceStage.MissedByFilter (env : Env) : EvidenceStage → Prop
  | runDrc => env.drc.status ≠ .cancelled
  | validateDrcReport => True
  | readSanity => True
  | readConnectivity => True
  | _ => False

section Filter

variable {env : Env} {v : VerificationResult}

/-- The filter, on an outcome and one code. -/
def filteredCode (outcome : VerificationOutcome) (code : String) : Bool :=
  ((outcome = .layoutGenerationFailure || outcome = .gdsSanityFailure) &&
    (code = "DRC_EXECUTION_FAILED" || code = "INVALID_LYRPT_XML_AFTER_RETRY")) ||
  ("EVALUATOR_FAILURE_".toList.isPrefixOf code.toList ||
    "VERIFICATION_EVIDENCE_INVALID_".toList.isPrefixOf code.toList)

theorem isFatal_of_code {outcome : VerificationOutcome} {code : String}
    (houtcome : v.outcome = outcome) (hcodes : v.failureCodes = [code]) :
    Session.isFatal v = filteredCode outcome code := by
  unfold Session.isFatal filteredCode
  rw [houtcome, hcodes]
  simp

/-- What a tool that did not succeed reports. -/
theorem toolFailure_cases (tool : ToolResult) (outcome : VerificationOutcome) (code : String) :
    toolFailure tool outcome code = (.cancelled, "CANCELLED") ∧ tool.status = .cancelled ∨
      toolFailure tool outcome code = (outcome, code) ∧ tool.status ≠ .cancelled := by
  unfold toolFailure
  by_cases hstatus : tool.status = .cancelled
  · exact .inl ⟨if_pos hstatus, hstatus⟩
  · exact .inr ⟨if_neg hstatus, hstatus⟩

/-- The filter misses a tool, cancelled or not, whose own code it misses. -/
theorem isFatal_toolFailure {tool : ToolResult} {outcome : VerificationOutcome} {code : String}
    (houtcome : v.outcome = (toolFailure tool outcome code).1)
    (hcodes : v.failureCodes = [(toolFailure tool outcome code).2])
    (hquiet : filteredCode outcome code = false) : Session.isFatal v = false := by
  rw [isFatal_of_code houtcome hcodes]
  rcases toolFailure_cases tool outcome code with ⟨hf, -⟩ | ⟨hf, -⟩
  · rw [hf]
    decide
  · rw [hf]
    exact hquiet

/-- The filter misses the evidence of the sanity check, whatever could not be read. -/
theorem filteredCode_sanity (outcome : VerificationOutcome) (name : String) :
    filteredCode outcome ("SANITY_EVIDENCE_INVALID_" ++ name) = false := by
  have hcode : ∀ code : String, code.toList.head? ≠ some 'S' →
      ¬ "SANITY_EVIDENCE_INVALID_" ++ name = code := by
    rintro code hhead rfl
    simp at hhead
  have hdrc := hcode "DRC_EXECUTION_FAILED" (by decide)
  have hreport := hcode "INVALID_LYRPT_XML_AFTER_RETRY" (by decide)
  simp [filteredCode, List.isPrefixOf, hdrc, hreport]

/-- **The filter lets the evaluator's failures through, and no others.** -/
theorem isFatal_iff {failed : Option EvidenceStage} (h : CodesAfter env failed v) :
    Session.isFatal v = true ↔ failed = some .convertDrcReport := by
  have hmissed : ∀ {failed : Option EvidenceStage}, failed ≠ some .convertDrcReport →
      Session.isFatal v = false → (Session.isFatal v = true ↔ failed = some .convertDrcReport) :=
    fun hfailed hnot => iff_of_false (Bool.eq_false_iff.1 hnot) hfailed
  cases failed with
  | none =>
    refine hmissed nofun ?_
    rcases h with hcodes | hcodes
    · unfold Session.isFatal
      rw [hcodes]
      simp
    · rw [isFatal_of_code rfl hcodes]
      cases v.outcome <;> decide
  | some st =>
    obtain ⟨f, hreports, houtcome, hcodes⟩ := h
    cases st with
    | validateScript =>
      obtain rfl := hreports
      exact hmissed nofun (isFatal_toolFailure houtcome hcodes (by decide))
    | generateLayout =>
      obtain rfl := hreports
      exact hmissed nofun (isFatal_toolFailure houtcome hcodes (by decide))
    | runDrc =>
      obtain rfl := hreports
      exact hmissed nofun (isFatal_toolFailure houtcome hcodes (by decide))
    | runSanity =>
      obtain rfl := hreports
      exact hmissed nofun (isFatal_toolFailure houtcome hcodes (by decide))
    | runConnectivity =>
      obtain rfl := hreports
      exact hmissed nofun (isFatal_toolFailure houtcome hcodes (by decide))
    | validateDrcReport =>
      obtain rfl := hreports
      rw [isFatal_of_code houtcome hcodes]
      decide
    | convertDrcReport =>
      obtain ⟨exc, rfl⟩ := hreports
      rw [isFatal_of_code houtcome hcodes]
      simp [filteredCode]
    | readSanity =>
      obtain ⟨exc, rfl⟩ := hreports
      refine hmissed nofun ?_
      rw [isFatal_of_code houtcome hcodes]
      exact filteredCode_sanity _ _
    | readConnectivity =>
      obtain ⟨exc, rfl⟩ := hreports
      rw [isFatal_of_code houtcome hcodes]
      simp [filteredCode, List.isPrefixOf]

/-- A tool reports such a code only if its own code is one and it was not cancelled. -/
theorem infrastructureCode_toolFailure {tool : ToolResult} {outcome : VerificationOutcome}
    {code : String} (h : infrastructureCode (toolFailure tool outcome code).2 = true) :
    infrastructureCode code = true ∧ tool.status ≠ .cancelled := by
  rcases toolFailure_cases tool outcome code with ⟨hf, -⟩ | ⟨hf, hstatus⟩
  · rw [hf] at h
    exact absurd h (by decide)
  · rw [hf] at h
    exact ⟨h, hstatus⟩

/-- Every producer of such a code is the evaluator or a stage the filter misses. -/
theorem stage_of_infrastructureCode {failed : Option EvidenceStage} (h : CodesAfter env failed v)
    (hcode : v.failureCodes.any infrastructureCode = true) :
    failed = some .convertDrcReport ∨ ∃ st, failed = some st ∧ st.MissedByFilter env := by
  cases failed with
  | none =>
    rcases h with hcodes | hcodes
    · rw [hcodes] at hcode
      cases hcode
    · rw [hcodes] at hcode
      exfalso
      revert hcode
      cases v.outcome <;> decide
  | some st =>
    obtain ⟨f, hreports, -, hcodes⟩ := h
    have hcode : infrastructureCode f.2 = true := by
      rw [hcodes] at hcode
      simpa using hcode
    cases st with
    | convertDrcReport => exact .inl rfl
    | validateDrcReport => exact .inr ⟨_, rfl, trivial⟩
    | readSanity => exact .inr ⟨_, rfl, trivial⟩
    | readConnectivity => exact .inr ⟨_, rfl, trivial⟩
    | runDrc =>
      obtain rfl := hreports
      exact .inr ⟨_, rfl, (infrastructureCode_toolFailure hcode).2⟩
    | validateScript =>
      obtain rfl := hreports
      exact absurd (infrastructureCode_toolFailure hcode).1 (by decide)
    | generateLayout =>
      obtain rfl := hreports
      exact absurd (infrastructureCode_toolFailure hcode).1 (by decide)
    | runSanity =>
      obtain rfl := hreports
      exact absurd (infrastructureCode_toolFailure hcode).1 (by decide)
    | runConnectivity =>
      obtain rfl := hreports
      exact absurd (infrastructureCode_toolFailure hcode).1 (by decide)

end Filter

/-! ## The flag over a run -/

/-- The transaction failed where the evaluator converts and scores the report. -/
def Execution.EvaluatorFails (x : Execution) : Prop :=
  ∃ a, x.result.attemptId = some a ∧ x.env.failedStage a = some .convertDrcReport

/-- The transaction failed in a stage whose code the filter misses. -/
def Execution.MissedByFilter (x : Execution) : Prop :=
  ∃ a st, x.result.attemptId = some a ∧ x.env.failedStage a = some st ∧ st.MissedByFilter x.env

/-- The master transaction of an event. -/
def Event.execution? : Event → Option Execution
  | execute x => some x
  | _ => none

/-- The last transaction of `x` and the events after it. -/
def lastExecution (x : Execution) (tr : List Event) : Execution :=
  (tr.filterMap (·.execution?)).getLast?.getD x

/-- The process is not started again. -/
def SameProcess (_ : RunState) (e : Event) : Prop := e.isResume = false

instance : ∀ st e, Decidable (SameProcess st e) := fun _ e =>
  inferInstanceAs (Decidable (e.isResume = false))

section Flag

variable {env : RunEnv} {s s' : Session} {pc pc' : Pc} {e : Event} {eff : Effects}
  {x : Execution} {tr : List Event} {st st' : RunState}

/-- What an executed transaction leaves in the session. -/
theorem NodeStep.fatalFailure_execute (h : NodeStep env s pc (.execute x) s' pc' eff) :
    s'.fatalFailure = true ↔ x.EvaluatorFails := by
  cases h with
  | execute _ _ hexecute =>
    obtain ⟨a, ha, hcodes⟩ := execute_failure hexecute
    have hstage : (s.recordTransaction x.result).fatalFailure = true ↔
        x.env.failedStage a = some .convertDrcReport := isFatal_iff hcodes
    rw [hstage]
    constructor
    · intro hfailed
      exact ⟨a, ha, hfailed⟩
    · rintro ⟨a', ha', hfailed⟩
      rw [ha] at ha'
      rwa [some.inj ha']

/-- Nothing else changes the flag. -/
theorem NodeStep.fatalFailure_eq (h : NodeStep env s pc e s' pc' eff) (he : e.execution? = none) :
    s'.fatalFailure = s.fatalFailure := by
  cases h with
  | execute _ _ _ => cases he
  | start h =>
    rcases Session.startIteration_ok h with rfl | ⟨_, _, -, rfl⟩
    · rfl
    · rfl
  | select h =>
    rcases Session.selectActiveSubgraphs_ok h with ⟨_, _, _, rfl⟩ | ⟨w, -, rfl⟩
    · rfl
    · rfl
  | coordinate =>
    unfold Session.aggregatePlans
    dsimp only
    split_ifs <;> rfl
  | skip =>
    unfold Session.prepareTransaction
    split_ifs <;> rfl
  | publish _ _ h =>
    obtain ⟨-, rfl⟩ := Session.publishCurrent_ok h
    rfl
  | updateBest h =>
    obtain ⟨_, -, ⟨-, rfl⟩ | ⟨-, rfl⟩⟩ := Session.publishBest_ok h
    · rfl
    · rfl
  | finish h =>
    obtain ⟨_, rfl⟩ := Session.countIteration_ok h
    rfl
  | writeManifest => rfl
  | saveInitial => rfl
  | plan => rfl
  | degrade => rfl
  | settle => rfl
  | account => rfl
  | saveCommit => rfl
  | refreshCommitted => rfl
  | refresh => rfl
  | saveIteration => rfl
  | nextIteration => rfl

/-- What the flag of a live process says, `x` being its last transaction. -/
def FlagSays (x : Execution) (st : RunState) : Prop :=
  ∀ p, st.proc = some p → (p.session.fatalFailure = true ↔ x.EvaluatorFails)

/-- **One step of a process.** -/
theorem FlagSays.step (h : FlagSays x st) (hsame : SameProcess st e) (hstep : Step env st e st') :
    FlagSays (e.execution?.getD x) st' := by
  intro p hp
  cases hstep with
  | node hnode =>
    obtain rfl := some.inj hp
    cases hexecution : e.execution? with
    | none =>
      show _ = true ↔ x.EvaluatorFails
      rw [hnode.fatalFailure_eq hexecution]
      exact h _ rfl
    | some y =>
      obtain rfl : e = .execute y := by
        cases e with
        | execute y' => rw [some.inj hexecution]
        | _ => cases hexecution
      exact hnode.fatalFailure_execute
  | finalize _ _ => cases hp
  | abort => cases hp
  | die => cases hp
  | resume _ _ => cases hsame
  | authorizeAndDie _ _ => cases hp

theorem lastExecution_concat (x : Execution) (tr : List Event) (e : Event) :
    lastExecution x (tr ++ [e]) = e.execution?.getD (lastExecution x tr) := by
  unfold lastExecution
  rw [List.filterMap_append]
  cases hexecution : e.execution? with
  | none => simp [hexecution]
  | some y => simp [hexecution]

/-- **The flag over a run.**  While a process lives, its flag says how its last
transaction failed. -/
theorem flagSays_of_run (hstep : Step env st (.execute x) st')
    {st'' : RunState} (hrun : Run (Guarded SameProcess (Step env)) st' tr st'') :
    FlagSays (lastExecution x tr) st'' := by
  refine hrun.history (fun _ => True) (fun tr st => FlagSays (lastExecution x tr) st)
    (fun _ _ h => h) ?_ ?_ trivial
  · intro p hp
    cases hstep with
    | node hnode =>
      obtain rfl := some.inj hp
      exact hnode.fatalFailure_execute
  · intro tr st e st' _ hsays hlast
    rw [lastExecution_concat]
    exact hsays.step hlast.1 hlast.2

/-- A session with the flag stops with INTEGRITY_FAILURE. -/
theorem checkStoppingCondition_fatal {timeUp : Bool} {status : StoppingStatus}
    (hfatal : s.fatalFailure = true) (h : s.checkStoppingCondition env timeUp = .ok status) :
    status = .integrityFailure := by
  unfold Session.checkStoppingCondition at h
  obtain ⟨residual, -, h⟩ := except_bind_ok h
  obtain rfl := Except.ok.inj h
  unfold stoppingCondition
  rw [if_pos hfatal]

/-- **Infrastructure failures and the circuit breaker.**  Let a master transaction
report an infrastructure code. Then the evaluator failed, or a stage the filter misses;
and at any later point of the process the flag is set, and the stopping check answers
INTEGRITY_FAILURE, exactly if the last transaction so far failed in the evaluator. -/
theorem infrastructure_failure_stops_iff {p : Proc} {st'' : RunState}
    (hstep : Step env st (.execute x) st')
    (hcode : x.result.verification.failureCodes.any infrastructureCode = true)
    (hrun : Run (Guarded SameProcess (Step env)) st' tr st'') (hp : st''.proc = some p) :
    (x.EvaluatorFails ∨ x.MissedByFilter) ∧
      ((p.session.fatalFailure = true ∧ ∀ timeUp status,
          p.session.checkStoppingCondition env timeUp = .ok status → status = .integrityFailure) ↔
        (lastExecution x tr).EvaluatorFails) := by
  constructor
  · cases hstep with
    | node hnode =>
      cases hnode with
      | execute _ _ hexecute =>
        obtain ⟨a, ha, hcodes⟩ := execute_failure hexecute
        rcases stage_of_infrastructureCode hcodes hcode with hfailed | ⟨st, hfailed, hmissed⟩
        · exact .inl ⟨a, ha, hfailed⟩
        · exact .inr ⟨a, st, ha, hfailed, hmissed⟩
  · have hflag := flagSays_of_run hstep hrun p hp
    constructor
    · intro hstops
      exact hflag.1 hstops.1
    · intro hfails
      have hfatal := hflag.2 hfails
      exact ⟨hfatal, fun timeUp status => checkStoppingCondition_fatal hfatal⟩

end Flag

/-! ## Sample transactions -/

/-- The master transaction after the events `tr`, in the executor's environment `xenv`. -/
def executionAfter (tr : List Event) (xenv : Env) : Option Execution := do
  let st ← play (RunState.next sampleRunEnv) (RunState.fresh sampleRunEnv) tr
  let p ← st.proc
  let w ← p.session.activeWindow
  let plan ← p.session.prepareTransaction.patchPlan
  let bound : Env := { xenv with
    acceptance := p.session.config.acceptance
    totalDrv := sampleRunEnv.totalDrv }
  let result ← (execute bound (p.session.executeInput sampleRunEnv w plan [] "") {}).1.toOption
  some { env := xenv, world := {}, result := result }

/-- An evaluator that raises. -/
def evaluatorFailsEnv : Env :=
  { sampleEnv with
    fault := fun site =>
      if site = .scoreRepair then some ⟨.builtin .otherException "KeyError" "", false⟩ else none }

/-- A DRC run that fails. -/
def drcFailsEnv : Env := { sampleEnv with drc := { ToolResult.ok "run_drc" with status := .failed } }

/-- The selection of a window in a case of two violations in two regions. -/
def selectEither : Event :=
  .select { edges := [], regions := [("r1", ["v1"]), ("r2", ["v2"])] }
    [{ subgraphId := "A", regionIds := ["r1"] }, { subgraphId := "B", regionIds := ["r2"] }]

/-- A window on `subgraphId`, up to its master transaction. -/
def windowOn (subgraphId violationId : String) : List Event :=
  [selectEither,
    .plan { subgraphId := subgraphId, candidates := [⟨"c1", false⟩], attempted := {violationId} },
    .coordinate {
      status := "SAFE"
      bundle := some ("bundle", ["c1"])
      patchPlan := some { sha256 := "plan" }
      masterBatchCount := 1 }]

/-- The end of a window that rolls back. -/
def rolledBack : List Event :=
  [.settle, .account, .refresh [⟨"v1", "rule"⟩, ⟨"v2", "rule"⟩]]

/-- The end of an iteration, up to the stopping check. -/
def iterationEnd : List Event := [selectEither, .finish, .saveIteration]

/-- The first window of the case, up to its master transaction. -/
def firstWindow : List Event :=
  [.writeManifest, .saveInitial, .start [⟨"v1", "rule"⟩, ⟨"v2", "rule"⟩]] ++ windowOn "A" "v1"

/-- A first transaction whose report the evaluator cannot score. -/
def evaluatorFails : Execution :=
  (executionAfter firstWindow evaluatorFailsEnv).get (by decide +kernel)

/-- A first transaction whose DRC run fails. -/
def drcFails : Execution := (executionAfter firstWindow drcFailsEnv).get (by decide +kernel)

/-- The second window, after a first transaction `x`. -/
def secondWindow (x : Execution) : List Event := .execute x :: rolledBack ++ windowOn "B" "v2"

/-- A second transaction, whose DRC run fails after the first could not be scored. -/
def drcFailsLater : Execution :=
  (executionAfter (firstWindow ++ secondWindow evaluatorFails) drcFailsEnv).get (by decide +kernel)

/-- A second transaction, whose report the evaluator cannot score after the DRC run of
the first failed. -/
def evaluatorFailsLater : Execution :=
  (executionAfter (firstWindow ++ secondWindow drcFails) evaluatorFailsEnv).get (by decide +kernel)

/-- The DRC run fails in one window and the evaluator in the next: the run stops with
INTEGRITY_FAILURE. -/
theorem infrastructure_failure_stops_sample :
    ∃ st p, Run (Step sampleRunEnv) (RunState.fresh sampleRunEnv)
        (firstWindow ++ secondWindow drcFails ++ .execute evaluatorFailsLater ::
          (rolledBack ++ iterationEnd)) st ∧
      st.proc = some p ∧
      ∀ timeUp status, p.session.checkStoppingCondition sampleRunEnv timeUp = .ok status →
        status = .integrityFailure := by
  have hplay : ∃ p, (do
      let st ← play (RunState.next sampleRunEnv) (RunState.fresh sampleRunEnv)
        (firstWindow ++ secondWindow drcFails)
      let st' ← st.next sampleRunEnv (.execute evaluatorFailsLater)
      let st'' ← play (guardNext SameProcess (RunState.next sampleRunEnv)) st'
        (rolledBack ++ iterationEnd)
      st''.proc : Option Proc) = some p ∧ decide (p.session.fatalFailure = true) = true := by
    rw [← Option.any_eq_true]
    decide +kernel
  obtain ⟨p, hplay, hfatal⟩ := hplay
  obtain ⟨st, hfirst, hplay⟩ := bind_eq_some_iff.1 hplay
  obtain ⟨st', hnext, hplay⟩ := bind_eq_some_iff.1 hplay
  obtain ⟨st'', hlast, hp⟩ := bind_eq_some_iff.1 hplay
  have hstep := RunState.next_sound hnext
  have hrun : Run (Guarded SameProcess (Step sampleRunEnv)) st' (rolledBack ++ iterationEnd) st'' :=
    guarded_of_play (fun _ _ _ => RunState.next_sound) hlast
  have hcode : evaluatorFailsLater.result.verification.failureCodes.any infrastructureCode = true := by
    decide +kernel
  obtain ⟨-, hstops⟩ := infrastructure_failure_stops_iff hstep hcode hrun hp
  have hfails := (flagSays_of_run hstep hrun p hp).1 (of_decide_eq_true hfatal)
  exact ⟨st'', p, (run_of_play hfirst).trans ((Run.single hstep).trans hrun.of_guarded), hp,
    (hstops.2 hfails).2⟩

/-- The evaluator fails in one window and the DRC run in the next: neither stops the
run, and the iteration goes on as after two rollbacks. -/
theorem infrastructure_failure_continues :
    ∃ st p, Run (Step sampleRunEnv) (RunState.fresh sampleRunEnv)
        (firstWindow ++ secondWindow evaluatorFails ++ .execute drcFailsLater ::
          (rolledBack ++ iterationEnd)) st ∧
      st.proc = some p ∧
      evaluatorFails.result.verification.failureCodes = ["EVALUATOR_FAILURE_KeyError"] ∧
      drcFailsLater.result.verification.failureCodes = ["DRC_EXECUTION_FAILED"] ∧
      p.session.fatalFailure = false ∧
      p.session.checkStoppingCondition sampleRunEnv false = .ok .continue_ := by
  have hplay : ∃ st, play (RunState.next sampleRunEnv) (RunState.fresh sampleRunEnv)
      (firstWindow ++ secondWindow evaluatorFails ++ .execute drcFailsLater ::
        (rolledBack ++ iterationEnd)) = some st ∧
      (st.proc.any fun p => p.session.fatalFailure = false ∧
        p.session.checkStoppingCondition sampleRunEnv false = .ok .continue_) = true := by
    rw [← Option.any_eq_true]
    decide +kernel
  obtain ⟨st, hplay, hany⟩ := hplay
  obtain ⟨p, hp, hfacts⟩ := (Option.any_eq_true _ _).1 hany
  obtain ⟨hfatal, hstatus⟩ := of_decide_eq_true hfacts
  exact ⟨st, p, run_of_play hplay, hp, by decide +kernel, by decide +kernel, hfatal, hstatus⟩

end DRCAgent
