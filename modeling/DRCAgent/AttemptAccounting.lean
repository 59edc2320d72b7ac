/-
# Exactly one terminal row for a registered attempt

The proof that `_AttemptLedger`, the preparation loop, the body of `execute` and
the decorator compose to exactly-once accounting. The invariant `Accounted`
says that the attempt of an open ledger object is claimed and registered and
nothing more, and that every other attempt is settled: never claimed, claimed
without a registration, or closed. A ledger is opened by `newLedger`, closed by
`terminal`, and nothing else moves a milestone.
-/
import DRCAgent.AttemptLifecycle

namespace DRCAgent

open ExcState

variable {env : Env} {inp : ExecuteInput}

/-! ## One ledger operation -/

/-- The milestones `terminal` adds: the row only if its append lands. -/
def closing (env : Env) (a : String) (status : AttemptTerminalStatus) : List Milestone :=
  (if env.lands (.appendJsonl a "ATTEMPT_TERMINAL") then [.terminal status] else []) ++
    [.finished status]

/-- The view after the open ledger of `a` is closed. -/
def LedgerView.close (v : LedgerView) (env : Env) (a : String) (status : AttemptTerminalStatus) :
    LedgerView :=
  (v.add a (closing env a status)).withActive (some (a, true))

/-- The view after a row is appended: its milestone is there if the call landed. -/
theorem view_appendRow (env : Env) (w : World) (a : String) (row : LedgerRow) :
    (appendRow env a row w).2.view =
      w.view.add a (if env.lands (.appendJsonl a row.event) then
        (LedgerEvent.appended a row).milestone.toList else []) := by
  unfold appendRow
  rw [perform_snd]
  cases env.lands (.appendJsonl a row.event) with
  | true => exact World.view_log w _
  | false => simp

/-- `terminal` does nothing to a closed ledger. -/
theorem terminal_of_closed {w : World} {l : AttemptLedger} (hl : w.active = some l)
    (hclosed : l.terminalWritten = true) (status : AttemptTerminalStatus)
    (details : TerminalDetails) : terminal env status details w = (.ok ⟨⟩, w) := by
  simp [terminal, hl, hclosed]

/-- On an open ledger `terminal` is its `try`/`finally`. -/
theorem terminal_of_open {w : World} {l : AttemptLedger} (hl : w.active = some l)
    (hopen : l.terminalWritten = false) (status : AttemptTerminalStatus)
    (details : TerminalDetails) :
    terminal env status details w =
      tryFinally (appendRow env l.attemptId (.attemptTerminal status details))
        (do
          modify (·.updateActive fun l => { l with terminalWritten := true })
          finishClaim env l status) w := by
  simp [terminal, hl, hopen]

/-- **`terminal` closes an open ledger**, whether or not it raises. -/
theorem view_terminal (env : Env) {w : World} {a : String} (hview : w.view.active = some (a, false))
    (status : AttemptTerminalStatus) (details : TerminalDetails) :
    (terminal env status details w).2.view = w.view.close env a status := by
  obtain ⟨l, hl, hpair⟩ := Option.map_eq_some_iff.1 hview
  obtain ⟨rfl, hopen⟩ := Prod.mk.inj hpair
  have happend := view_appendRow env w l.attemptId (.attemptTerminal status details)
  have hactive : (appendRow env l.attemptId (.attemptTerminal status details) w).2.active =
      some l := by
    unfold appendRow
    rw [perform_snd]
    split <;> exact hl
  rw [terminal_of_open hl hopen, tryFinally_snd]
  generalize (appendRow env l.attemptId (.attemptTerminal status details) w).2 = w₁
    at happend hactive ⊢
  show (finishClaim env l status
    (w₁.updateActive fun l => { l with terminalWritten := true })).2.view = _
  have hw₁ : (w₁.updateActive fun l => { l with terminalWritten := true }).view =
      w₁.view.withActive (some (l.attemptId, true)) := by
    simp [World.view, LedgerView.withActive, hactive]
  unfold finishClaim
  simp only [bind_apply, modify_apply, call_snd]
  rw [World.view_log, hw₁, happend, LedgerView.withActive_add]
  show ((w.view.add l.attemptId (if env.lands (.appendJsonl l.attemptId "ATTEMPT_TERMINAL") then
    [.terminal status] else [])).add l.attemptId [.finished status]).withActive _ = _
  rw [LedgerView.add_add]
  rfl

/-- `terminal` on an open ledger, as a specification. -/
theorem terminal_spec (env : Env) {v : LedgerView} {a : String} (hv : v.active = some (a, false))
    (status : AttemptTerminalStatus) (details : TerminalDetails) :
    Spec (fun w => w.view = v) (terminal env status details)
      (fun _ w => w.view = v.close env a status) (fun _ w => w.view = v.close env a status) := by
  intro w hw
  have hclose := view_terminal env (hw.symm ▸ hv) status details
  rw [hw] at hclose
  refine ⟨fun _ w' hrun => ?_, fun _ w' hrun => ?_⟩ <;>
    exact hclose ▸ congrArg (fun out => (Prod.snd out).view) hrun.symm

/-- The registration rows can be appended. -/
def Registers (env : Env) : Prop :=
  ∀ a, env.fault (.appendJsonl a "ATTEMPT_REGISTERED") = none

/-- **`newLedger` opens a ledger.**  When it raises although its row could be
appended, at most the claim is taken. -/
theorem newLedger_spec {v : LedgerView} {a : String} (trace : ExecutionTraceContext)
    (plan : String) (effect retryOf : Option String) :
    Spec (fun w => w.view = v) (newLedger env a trace plan effect retryOf)
      (fun _ w => w.view = (v.add a [.claimed, .registered]).withActive (some (a, false)))
      (fun _ w => Registers env → w.view = v ∨ w.view = v.add a [.claimed]) := by
  have hclaim : Spec (fun w => w.view = v)
      (perform env (.claimFromEnvironment a) (·.log (.claimed a (env.reservation a))))
      (fun _ w => w.view = v.add a [.claimed])
      (fun _ w => Registers env → w.view = v ∨ w.view = v.add a [.claimed]) := by
    intro w hw
    unfold perform
    cases env.fault (.claimFromEnvironment a) with
    | none =>
      refine ⟨fun _ w' hrun => ?_, fun _ w' hrun => by simp at hrun⟩
      simp only [Prod.mk.injEq] at hrun
      rw [← hrun.2, World.view_log, hw]
      rfl
    | some f =>
      refine ⟨fun _ w' hrun => by simp at hrun, fun _ w' hrun _ => ?_⟩
      simp only [Prod.mk.injEq] at hrun
      rw [← hrun.2]
      cases f.landed with
      | false => exact Or.inl hw
      | true =>
        refine Or.inr ?_
        rw [if_pos rfl, World.view_log, hw]
        rfl
  refine Spec.bind hclaim fun _ => Spec.bind (Q := fun _ w =>
    w.view = (v.add a [.claimed]).withActive (some (a, false))) (Spec.modify ?_) fun _ => ?_
  · intro w hw
    show LedgerView.mk w.view.milestones _ = _
    rw [hw]
    rfl
  · intro w hw
    refine ⟨fun _ w' hrun => ?_, fun e w' hrun => ?_⟩
    · have h := view_appendRow env w a
        (.attemptRegistered env.evidenceKey trace plan effect retryOf)
      rw [hrun, hw] at h
      -- it returned, so its row was appended
      have hnone : env.fault (.appendJsonl a "ATTEMPT_REGISTERED") = none := by
        cases hf : env.fault (.appendJsonl a "ATTEMPT_REGISTERED") with
        | none => rfl
        | some f => simp [appendRow, perform, LedgerRow.event, hf] at hrun
      show w'.view = _
      rw [show w'.view = _ from h]
      simp [Env.lands, LedgerRow.event, hnone, LedgerEvent.milestone, LedgerView.withActive_add]
    · intro happend
      simp [appendRow, perform, LedgerRow.event, happend a] at hrun

/-! ## The invariant -/

/-- An attempt nobody works on: never claimed, claimed but never registered, or
closed. -/
def Settled (env : Env) (a : String) (ms : List Milestone) : Prop :=
  ms = [] ∨ ms = [.claimed] ∨ ∃ status, ms = [.claimed, .registered] ++ closing env a status

/-- No ledger object is open. -/
def LedgerView.Idle (v : LedgerView) : Prop := ∀ a, v.active ≠ some (a, false)

/-- Every attempt in `F` is settled, but for the one of an open ledger, which is
claimed and registered. -/
def Accounted (env : Env) (F : Set String) (v : LedgerView) : Prop :=
  ∀ a ∈ F, (v.active = some (a, false) ∧ v.milestones a = [.claimed, .registered]) ∨
    (v.active ≠ some (a, false) ∧ Settled env a (v.milestones a))

/-- In an idle view every attempt is settled. -/
theorem Accounted.settled {F : Set String} {v : LedgerView} (h : Accounted env F v)
    (hidle : v.Idle) {a : String} (ha : a ∈ F) : Settled env a (v.milestones a) := by
  rcases h a ha with ⟨hopen, -⟩ | ⟨-, hs⟩
  · exact absurd hopen (hidle a)
  · exact hs

/-- Closing the open ledger keeps the accounting and leaves the view idle. -/
theorem Accounted.close {F : Set String} {v : LedgerView} (h : Accounted env F v) {a : String}
    (hv : v.active = some (a, false)) (status : AttemptTerminalStatus) :
    Accounted env F (v.close env a status) ∧ (v.close env a status).Idle := by
  have hidle : (v.close env a status).Idle := by
    intro b hb
    simp [LedgerView.close] at hb
  refine ⟨fun b hb => Or.inr ⟨hidle b, ?_⟩, hidle⟩
  by_cases hba : b = a
  · subst hba
    rcases h b hb with ⟨-, hms⟩ | ⟨hne, -⟩
    · exact Or.inr (Or.inr ⟨status, by simp [LedgerView.close, hms]⟩)
    · exact absurd hv hne
  · rcases h b hb with ⟨hopen, -⟩ | ⟨-, hs⟩
    · rw [hv] at hopen
      exact absurd (Prod.mk.inj (Option.some.inj hopen)).1 (Ne.symm hba)
    · rw [LedgerView.close, LedgerView.withActive_milestones, LedgerView.add_milestones_of_ne v hba]
      exact hs

/-- Opening a ledger for an attempt without milestones keeps the accounting. -/
theorem Accounted.open {F : Set String} {v : LedgerView} (h : Accounted env F v)
    (hidle : v.Idle) {a : String} (hms : v.milestones a = []) :
    Accounted env F ((v.add a [.claimed, .registered]).withActive (some (a, false))) := by
  intro b hb
  by_cases hba : b = a
  · subst hba
    exact Or.inl ⟨rfl, by simp [hms]⟩
  · refine Or.inr ⟨fun hopen => hba ?_, ?_⟩
    · exact (Prod.mk.inj (Option.some.inj hopen)).1.symm
    · rw [LedgerView.withActive_milestones, LedgerView.add_milestones_of_ne v hba]
      exact h.settled hidle hb

/-- A claim without a registration keeps the accounting. -/
theorem Accounted.claim {F : Set String} {v : LedgerView} (h : Accounted env F v)
    (hidle : v.Idle) {a : String} (hms : v.milestones a = []) :
    Accounted env F (v.add a [.claimed]) := by
  intro b hb
  refine Or.inr ⟨hidle b, ?_⟩
  by_cases hba : b = a
  · subst hba
    exact Or.inr (Or.inl (by simp [hms]))
  · rw [LedgerView.add_milestones_of_ne v hba]
    exact h.settled hidle hb

/-! ## The preparation loop -/

/-- What the preparation loop establishes when it returns. -/
def Opened (env : Env) (F : Set String) (a : String) (v : LedgerView) : Prop :=
  Accounted env F v ∧ v.active = some (a, false) ∧ v.milestones a = [.claimed, .registered]

/-- A turn of the preparation loop, given what the next turn does. -/
theorem prepareTurn_spec {F : Set String} {request : AttemptRequest}
    {again : Option (AttemptRequest → Exec (AttemptRequest × Job))} {v : LedgerView}
    (hacc : Accounted env F v) (hidle : v.Idle) (hms : v.milestones request.requestedAttemptId = [])
    (hagain : ∀ next retryOf v', again = some next → Accounted env F v' → v'.Idle →
      (∀ b, b ≠ request.requestedAttemptId → v'.milestones b = v.milestones b) →
      Spec (fun w => w.view = v') (next ⟨env.newAttemptId 1, retryOf⟩)
        (fun out w => Opened env F out.1.requestedAttemptId w.view)
        (fun _ w => Registers env → Accounted env F w.view)) :
    Spec (fun w => w.view = v) (prepareTurn env inp request again)
      (fun out w => Opened env F out.1.requestedAttemptId w.view)
      (fun _ w => Registers env → Accounted env F w.view) := by
  set a := request.requestedAttemptId with ha
  set v₁ := (v.add a [.claimed, .registered]).withActive (some (a, false)) with hv₁
  have hopen : Accounted env F v₁ := hacc.open hidle hms
  have hopened : Opened env F a v₁ := ⟨hopen, rfl, by simp [hv₁, hms]⟩
  -- an exception the handler lets through leaves the ledger open
  have hraise : ∀ exc : PyExc, Spec (fun w => w.view = v₁)
      (if exc.isException then unexpectedPreparationFailure env exc else raise exc :
        Exec (AttemptRequest × Job))
      (fun out w => Opened env F out.1.requestedAttemptId w.view)
      (fun _ w => Registers env → Accounted env F w.view) := by
    intro exc
    refine (Stable.reraised_spec (I := fun w => w.view = v₁)).conseq (fun _ h => h)
      (fun _ _ h => h) ?_
    intro e w hw _
    exact hw ▸ hopen
  unfold prepareTurn
  refine Spec.bind (Q := fun _ w => w.view = v₁)
    ((newLedger_spec _ _ _ _).conseq (fun _ h => h) (fun _ _ h => h) ?_) fun _ =>
    Spec.bind (Q := fun _ w => w.view = v₁)
      ((stable_view v₁).keeps_setStage.conseq (fun _ h => h) (fun _ _ h => h) ?_) fun _ =>
    Spec.tryCatch (E := fun _ w => w.view = v₁) ?_ fun exc => ?_
  · intro e w hw happend
    rcases hw happend with hw | hw
    · exact hw ▸ hacc
    · exact hw ▸ hacc.claim hidle hms
  · intro e w hw _
    exact hw ▸ hopen
  · exact Spec.bind (Stable.keeps_call (I := fun w => w.view = v₁)) fun _ =>
      Spec.pure fun w hw => by rw [hw]; exact hopened
  · cases exc with
    | jobPreparation failure =>
      obtain ⟨hclosed, hclosedIdle⟩ := hopen.close (a := a) rfl .executionFailure
      refine Spec.bind (Q := fun _ w => w.view = v₁.close env a .executionFailure)
        ((terminal_spec env (v := v₁) rfl _ _).conseq (fun _ h => h) (fun _ _ h => h) ?_) fun _ => ?_
      · intro e w hw _
        exact hw ▸ hclosed
      · have hstop : Spec (fun w => w.view = v₁.close env a .executionFailure)
            (raise (preparationFailure env failure) : Exec (AttemptRequest × Job))
            (fun out w => Opened env F out.1.requestedAttemptId w.view)
            (fun _ w => Registers env → Accounted env F w.view) :=
          Spec.raise fun w hw _ => by rw [hw]; exact hclosed
        cases again with
        | none => exact hstop
        | some next =>
          cases failure.retryable with
          | false => exact hstop
          | true =>
            refine hagain next _ _ rfl hclosed hclosedIdle fun b hb => ?_
            simp [LedgerView.close, hv₁, LedgerView.add_milestones_of_ne _ hb]
    | infrastructure failure => exact Spec.raise fun w hw _ => by rw [hw]; exact hopen
    | builtin cls name text => exact hraise _
    | executionCancelled ordinary => exact hraise _
    | keyboardInterrupt => exact hraise _

/-- **The preparation loop** opens the ledger of the attempt it returns, or
raises with every attempt accounted for. -/
theorem prepareLoop_spec {F : Set String} {request : AttemptRequest} {v : LedgerView}
    (hacc : Accounted env F v) (hidle : v.Idle) (hms : v.milestones request.requestedAttemptId = [])
    (hne : env.newAttemptId 1 ≠ request.requestedAttemptId)
    (hms₁ : v.milestones (env.newAttemptId 1) = []) :
    Spec (fun w => w.view = v) (prepareLoop env inp request)
      (fun out w => Opened env F out.1.requestedAttemptId w.view)
      (fun _ w => Registers env → Accounted env F w.view) := by
  refine prepareTurn_spec hacc hidle hms fun next retryOf v' hnext hacc' hidle' hframe => ?_
  obtain rfl := Option.some.inj hnext
  refine prepareTurn_spec hacc' hidle' ?_ fun _ _ _ hnone => by simp at hnone
  rw [hframe _ hne]
  exact hms₁

/-! ## The body -/

/-- What the body establishes when it returns: the ledger of the returned
attempt is closed with the status of the returned verification. -/
def Returned (env : Env) (F : Set String) (r : TransactionExecutionResult) (v : LedgerView) :
    Prop :=
  Accounted env F v ∧ v.Idle ∧ ∃ a status, r.attemptId = some a ∧
    r.verification.terminalStatus = some status ∧
    v.milestones a = [.claimed, .registered] ++ closing env a status

/-- A stage that keeps the view starts and ends with the ledger of `a` open. -/
theorem spec_of_keeps {α : Type} {F : Set String} {a : String} {m : Exec α}
    (h : ∀ v, Keeps (fun w => w.view = v) m) :
    Spec (fun w => Opened env F a w.view) m (fun _ w => Opened env F a w.view)
      (fun _ w => Registers env → Accounted env F w.view) := by
  intro w hw
  refine ⟨fun _ w' hrun => ?_, fun _ w' hrun _ => ?_⟩
  · show Opened env F a w'.view
    rw [(h w.view).ok rfl hrun]
    exact hw
  · show Accounted env F w'.view
    rw [(h w.view).error rfl hrun]
    exact hw.1

/-- Everything before the first write of the finished `transaction.json` runs
with the ledger of its attempt open. -/
theorem evaluateAttempt_spec (inp : ExecuteInput) {F : Set String} {v : LedgerView}
    (hacc : Accounted env F v) (hidle : v.Idle) (hms : ∀ n, v.milestones (env.newAttemptId n) = [])
    (hne : env.newAttemptId 1 ≠ env.newAttemptId 0) :
    Spec (fun w => w.view = v) (evaluateAttempt env inp)
      (fun e w => Opened env F e.attemptId w.view ∧
        e.verification.terminalStatus = some e.terminalStatus)
      (fun _ w => Registers env → Accounted env F w.view) := by
  have hstable := fun v => stable_view v
  have hprepare : Spec (fun w => w.view = v) (prepareAttempt env inp)
      (fun p w => Opened env F p.attemptId w.view)
      (fun _ w => Registers env → Accounted env F w.view) := by
    refine Spec.bind (Q := fun _ w => w.view = v)
      (Stable.keeps_preflight.conseq (fun _ h => h) (fun _ _ h => h) ?_) fun before => ?_
    · intro e w hw _
      exact hw ▸ hacc
    · refine Spec.bind (prepareLoop_spec hacc hidle (hms 0) hne (hms 1)) fun out => ?_
      refine Spec.bind (spec_of_keeps fun v => Stable.keeps_checkOwnership) fun _ => ?_
      refine Spec.bind (spec_of_keeps fun v => (hstable v).keeps_phase) fun _ => ?_
      refine Spec.bind (spec_of_keeps fun v => (hstable v).keeps_store trivial) fun _ => ?_
      exact Spec.bind (spec_of_keeps fun v => (hstable v).keeps_phase) fun _ =>
        Spec.pure fun _ h => h
  refine Spec.bind hprepare fun p => ?_
  refine Spec.bind (spec_of_keeps fun v => (hstable v).keeps_applyPatch trivial trivial) fun _ => ?_
  refine Spec.bind (spec_of_keeps fun v => (hstable v).keeps_gatherEvidence _) fun ev => ?_
  refine Spec.bind (spec_of_keeps fun v => (hstable v).keeps_violationDelta _) fun delta => ?_
  refine Spec.bind (Q := fun r w => Opened env F p.attemptId w.view ∧
    r.terminalStatus = some ev.terminalStatus) (Spec.lift ?_ ?_) fun r => ?_
  · intro r hr w hw
    exact ⟨hw, terminalStatus_of_buildVerification hr⟩
  · intro e _ w hw _
    exact hw.1
  refine Spec.assume fun hstatus => ?_
  refine Spec.bind (spec_of_keeps fun v => (hstable v).keeps_setStage) fun _ => ?_
  refine Spec.bind (spec_of_keeps fun v => (hstable v).keeps_persistAttempted trivial)
    fun total => ?_
  refine Spec.bind (spec_of_keeps fun v => Stable.keeps_commitSnapshot) fun committed => ?_
  refine Spec.bind (spec_of_keeps fun v => (hstable v).keeps_store trivial) fun _ => ?_
  exact Spec.pure fun w hw => ⟨hw, hstatus⟩

/-- **The body** returns with its ledger closed, or raises with every attempt
accounted for. -/
theorem executeBody_spec (inp : ExecuteInput) {F : Set String} {v : LedgerView}
    (hacc : Accounted env F v) (hidle : v.Idle) (hms : ∀ n, v.milestones (env.newAttemptId n) = [])
    (hne : env.newAttemptId 1 ≠ env.newAttemptId 0) :
    Spec (fun w => w.view = v) (executeBody env inp) (fun r w => Returned env F r w.view)
      (fun _ w => Registers env → Accounted env F w.view) := by
  refine Spec.bind (evaluateAttempt_spec inp hacc hidle hms hne) fun e =>
    Spec.assume fun hstatus => ?_
  refine Spec.bind (spec_of_keeps fun v => (stable_view v).keeps_publishAttempt trivial trivial
    trivial) fun _ => Spec.bind (Q := fun _ w => Returned env F (resultOf env e) w.view) ?_
    fun _ => Spec.pure fun _ h => h
  intro w hw
  obtain ⟨haccw, hopen, hmsw⟩ := hw
  obtain ⟨hclosed, hclosedIdle⟩ := haccw.close hopen e.terminalStatus
  have hspec := terminal_spec env hopen e.terminalStatus (publishedDetails env e)
  refine ⟨fun _ w' hrun => ?_, fun _ w' hrun _ => ?_⟩
  · have hview := hspec.ok rfl hrun
    refine ⟨hview ▸ hclosed, hview ▸ hclosedIdle, e.attemptId, e.terminalStatus, rfl, hstatus, ?_⟩
    rw [hview]
    simp [LedgerView.close, hmsw]
  · show Accounted env F w'.view
    rw [hspec.error rfl hrun]
    exact hclosed

/-! ## The decorator -/

/-- The two storage helpers the decorator consults return. -/
def StorageHelpersReturn (env : Env) : Prop :=
  env.fault (.storagePauseFromException "TRANSACTION") = none ∧
    env.fault (.recordStorageIncident "TRANSACTION") = none

/-- What the classification makes of an exception when its helpers return. -/
def normalizedExc (env : Env) (exc : PyExc) : PyExc :=
  if exc.isInfrastructure then exc
  else
    match env.storagePause exc with
    | none => exc
    | some pause => .infrastructure pause

/-- The storage classification of `exc` returns. -/
def Classifies (env : Env) (exc : PyExc) : Prop :=
  exc.isInfrastructure = true ∨
    (env.fault (.storagePauseFromException "TRANSACTION") = none ∧
      (env.storagePause exc = none ∨ env.fault (.recordStorageIncident "TRANSACTION") = none))

theorem classifyStorage_of_classifies {exc : PyExc} (h : Classifies env exc) (w : World) :
    classifyStorage env "TRANSACTION" exc w = (.ok (normalizedExc env exc), w) := by
  unfold classifyStorage normalizedExc
  cases hinfra : exc.isInfrastructure with
  | true => rfl
  | false =>
    obtain ⟨hpause, hrecord⟩ := h.resolve_left (by simp [hinfra])
    simp only [Bool.false_eq_true, if_false, bind_apply, call_of_none hpause]
    cases hp : env.storagePause exc with
    | none => rfl
    | some pause =>
      have hnone := hrecord.resolve_left (by simp [hp])
      simp only [recordPause, bind_apply, call_of_none hnone, pure_apply]

theorem classifyStorage_of_not_classifies {exc : PyExc} (h : ¬ Classifies env exc) (w : World) :
    ∃ exc', classifyStorage env "TRANSACTION" exc w = (.error exc', w) := by
  have hinfra : exc.isInfrastructure = false := by
    by_contra hinfra
    exact h (Or.inl (by simpa using hinfra))
  unfold classifyStorage
  rw [hinfra]
  simp only [Bool.false_eq_true, if_false, bind_apply]
  cases hpause : env.fault (.storagePauseFromException "TRANSACTION") with
  | some f => exact ⟨f.exc, by simp [call, perform, hpause]⟩
  | none =>
    simp only [call_of_none hpause]
    cases hp : env.storagePause exc with
    | none => exact absurd (Or.inr ⟨hpause, Or.inl hp⟩) h
    | some pause =>
      cases hrecord : env.fault (.recordStorageIncident "TRANSACTION") with
      | none => exact absurd (Or.inr ⟨hpause, Or.inr hrecord⟩) h
      | some f => exact ⟨f.exc, by simp [recordPause, call, perform, hrecord]⟩

theorem StorageHelpersReturn.classifies (h : StorageHelpersReturn env) (exc : PyExc) :
    Classifies env exc := by
  cases hinfra : exc.isInfrastructure with
  | true => exact Or.inl hinfra
  | false => exact Or.inr ⟨h.1, Or.inr h.2⟩

/-- **The `except BaseException` clause** closes whatever ledger is open. -/
theorem accountFailure_spec {α : Type} {F : Set String} (h : StorageHelpersReturn env)
    (exc : PyExc) {Q : α → World → Prop} :
    Spec (fun w => Accounted env F w.view) (accountFailure (α := α) env exc) Q
      (fun _ w => Accounted env F w.view ∧ w.view.Idle) := by
  intro w hw
  unfold accountFailure
  simp only [bind_apply, classifyStorage_of_classifies (h.classifies exc), gets_apply]
  cases hactive : w.active with
  | none =>
    refine ⟨fun _ _ hrun => by simp at hrun, fun _ w' hrun => ?_⟩
    simp only [raise_apply, Prod.mk.injEq] at hrun
    obtain ⟨-, rfl⟩ := hrun
    exact ⟨hw, fun a ha => by simp [World.view, hactive] at ha⟩
  | some l =>
    cases hwritten : l.terminalWritten with
    | true =>
      refine ⟨fun _ _ hrun => by simp [hwritten] at hrun, fun _ w' hrun => ?_⟩
      simp only [hwritten, if_true, raise_apply, Prod.mk.injEq] at hrun
      obtain ⟨-, rfl⟩ := hrun
      exact ⟨hw, fun a ha => by simp [World.view, hactive, hwritten] at ha⟩
    | false =>
      have hopen : w.view.active = some (l.attemptId, false) := by
        simp [World.view, hactive, hwritten]
      have hclosed := hw.close hopen (failureStatus (normalizedExc env exc))
      have hspec := terminal_spec env hopen (failureStatus (normalizedExc env exc))
        (failureDetails l (normalizedExc env exc))
      have hraise : Spec (fun w' => w'.view = w.view)
          (terminal env (failureStatus (normalizedExc env exc))
            (failureDetails l (normalizedExc env exc)) >>= fun _ =>
              (raise (normalizedExc env exc) : Exec α)) Q
          (fun _ w' => Accounted env F w'.view ∧ w'.view.Idle) :=
        Spec.bind (hspec.conseq (fun _ h => h) (fun _ _ h => h)
          fun _ w' hw' => by rw [hw']; exact hclosed)
          fun _ => Spec.raise fun w' hw' => by rw [hw']; exact hclosed
      simpa [hwritten] using hraise w rfl

/-- **The `try` clause** passes a closed ledger's result on. -/
theorem accountReturn_spec {F : Set String} {P : World → Prop}
    {m : Exec TransactionExecutionResult}
    (hm : Spec P m (fun r w => Returned env F r w.view) (fun _ w => Accounted env F w.view)) :
    Spec P (accountReturn env m) (fun r w => Returned env F r w.view)
      (fun _ w => Accounted env F w.view) := by
  refine Spec.bind hm fun r => Spec.bind (Q := fun active w => Returned env F r w.view ∧
    active = w.active) (Spec.gets fun w hw => ⟨hw, rfl⟩) fun active => ?_
  cases active with
  | none => exact Spec.pure fun w hw => hw.1
  | some l =>
    intro w hw
    have hwritten : l.terminalWritten = true := by
      cases hl : l.terminalWritten with
      | true => rfl
      | false => exact absurd (by simp [World.view, ← hw.2, hl]) (hw.1.2.1 l.attemptId)
    simp only [hwritten, if_true]
    exact Spec.pure (P := fun w => Returned env F r w.view ∧ some l = w.active)
      (fun w hw => hw.1) w hw

/-- The milestones of a closed attempt, spelled out. -/
def closedMilestones (env : Env) (a : String) (status : AttemptTerminalStatus) : List Milestone :=
  if env.lands (.appendJsonl a "ATTEMPT_TERMINAL") then
    [.claimed, .registered, .terminal status, .finished status]
  else [.claimed, .registered, .finished status]

theorem append_closing (a : String) (status : AttemptTerminalStatus) :
    [.claimed, .registered] ++ closing env a status = closedMilestones env a status := by
  unfold closing closedMilestones
  split <;> rfl

/-- **Exactly-once accounting.**  Whatever an execution of `execute` meets, and
at whatever call an exception leaves it, every attempt it registers ends with
the milestones claimed, registered, one terminal row, claim finished; the row is
missing, and the claim still finished once, only when its own append does not
land. An attempt that was not registered has no terminal row. On a normal
return the status in the row is the one of the returned verification. -/
theorem attempt_ledger_exactly_once (env : Env) (inp : ExecuteInput) (w : World)
    (happend : Registers env) (hhelpers : StorageHelpersReturn env)
    (hids : env.newAttemptId 1 ≠ env.newAttemptId 0)
    (hfresh : ∀ n, ∀ e ∈ w.events, e.attemptId ≠ env.newAttemptId n) :
    (∀ a, (∀ e ∈ w.events, e.attemptId ≠ a) → milestones a (execute env inp w).2.events = [] ∨
      milestones a (execute env inp w).2.events = [.claimed] ∨
      ∃ status, milestones a (execute env inp w).2.events = closedMilestones env a status) ∧
    ∀ r, (execute env inp w).1 = .ok r →
      ∃ a status, r.attemptId = some a ∧ r.verification.terminalStatus = some status ∧
        milestones a (execute env inp w).2.events = closedMilestones env a status := by
  set w₀ : World := { w with active := none } with hw₀
  set F : Set String := {a | ∀ e ∈ w.events, e.attemptId ≠ a} with hF
  have hidle : w₀.view.Idle := fun a ha => by simp [World.view, hw₀] at ha
  have hacc : Accounted env F w₀.view := fun a ha =>
    Or.inr ⟨hidle a, Or.inl (milestones_eq_nil ha)⟩
  have hbody := (executeBody_spec inp hacc hidle (fun n => milestones_eq_nil (hfresh n)) hids).conseq
    (fun _ h => h) (fun _ _ h => h) fun _ _ h => h happend
  have hspec := Spec.tryCatch (accountReturn_spec hbody) fun exc =>
    accountFailure_spec hhelpers exc
  -- the decorator only puts the active ledger back
  have hevents : (execute env inp w).2.events =
      (tryCatch (accountReturn env (executeBody env inp)) (accountFailure env) w₀).2.events := rfl
  have hresult : (execute env inp w).1 =
      (tryCatch (accountReturn env (executeBody env inp)) (accountFailure env) w₀).1 := rfl
  rw [hevents, hresult]
  have hsettled : ∀ {a : String} {w' : World}, Accounted env F w'.view → w'.view.Idle → a ∈ F →
      milestones a w'.events = [] ∨ milestones a w'.events = [.claimed] ∨
        ∃ status, milestones a w'.events = closedMilestones env a status := by
    intro a w' haccw hidlew ha
    have h : Settled env a (milestones a w'.events) := haccw.settled hidlew ha
    simpa only [Settled, append_closing] using h
  rcases hrun : tryCatch (accountReturn env (executeBody env inp)) (accountFailure env) w₀ with
    ⟨exc | r, w'⟩
  · obtain ⟨haccw, hidlew⟩ := hspec.error rfl hrun
    exact ⟨fun a ha => hsettled haccw hidlew ha, fun r hr => by simp at hr⟩
  · obtain ⟨haccw, hidlew, a, status, ha, hstatus, hms⟩ := hspec.ok rfl hrun
    refine ⟨fun a ha => hsettled haccw hidlew ha, fun r' hr' => ?_⟩
    obtain rfl := Except.ok.inj hr'
    change milestones a w'.events = _ at hms
    rw [append_closing] at hms
    exact ⟨a, status, ha, hstatus, hms⟩

/-- The sample execution, interrupted while it cleans up. -/
def interruptedEnv : Env :=
  { sampleEnv with fault := fun site =>
      match site with
      | .cleanup => some ⟨.keyboardInterrupt, false⟩
      | _ => none }

theorem attempt_ledger_exactly_once_interrupted :
    ∃ status, milestones "attempt_a" (execute interruptedEnv sampleInput {}).2.events =
      closedMilestones interruptedEnv "attempt_a" status := by
  have h := (attempt_ledger_exactly_once interruptedEnv sampleInput {} (fun _ => rfl) ⟨rfl, rfl⟩
    (by decide) (fun _ e he => by cases he)).1 "attempt_a" (fun e he => by cases he)
  exact (h.resolve_left (by decide)).resolve_left (by decide)

end DRCAgent
