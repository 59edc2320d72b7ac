/-
# The attempt ledger

`_AttemptLedger` and the decorator `_account_physical_attempts` of
`backends/transaction.py`. A ledger registers one physical attempt, holds its
exclusive claim, and writes one terminal row; the decorator writes that row for
an execution that ends without one.

What a reader of `attempt_index.jsonl` can say about an attempt is the list of
its milestones: claimed, registered, terminal, claim finished. Everything an
execution does between the registration and the terminal row is quiet, that
is, it leaves the milestones of every attempt alone.
-/
import DRCAgent.ExecutionEnv

namespace DRCAgent

/-! ## The state of an execution -/

/-- The mutable part of an `_AttemptLedger`. -/
structure AttemptLedger where
  attemptId : String
  logicalEvidenceKey : String
  validationReservation : Option String
  currentStage : String := "ATTEMPT_REGISTERED"
  failureDomain : String := "EXECUTION"
  terminalWritten : Bool := false

/-- The details of a terminal row; each call site fills the keys it passes. -/
structure TerminalDetails where
  failureDomain : Option String := none
  failureCode : Option String := none
  failureStage : Option String := none
  retryable : Option Bool := none
  workspace : Option String := none
  verificationOutcome : Option VerificationOutcome := none
  freshEvidenceValid : Option Bool := none
  drcValidity : Option EvidenceValidity := none
  sanityValidity : Option EvidenceValidity := none
  connectivityValidity : Option EvidenceValidity := none
  accepted : Option Bool := none
  workspaceRetained : Option Bool := none

/-- A row of `attempt_index.jsonl`. -/
inductive LedgerRow
  | attemptRegistered (logicalEvidenceKey : String) (traceContext : ExecutionTraceContext)
      (patchPlanSha256 : String) (physicalEffectSha256 retryOf : Option String)
  | phase (event : String)
  | attemptTerminal (status : AttemptTerminalStatus) (details : TerminalDetails)

/-- The `event` text of a row. -/
def LedgerRow.event : LedgerRow → String
  | attemptRegistered .. => "ATTEMPT_REGISTERED"
  | phase event => event
  | attemptTerminal .. => "ATTEMPT_TERMINAL"

/-- What happened to the ledger file and to the claims, in order. -/
inductive LedgerEvent
  | claimed (attemptId : String) (reservation : Option String)
  | appended (attemptId : String) (row : LedgerRow)
  | finished (attemptId : String) (reservation : Option String) (status : AttemptTerminalStatus)

/-- The attempt an event is about. -/
def LedgerEvent.attemptId : LedgerEvent → String
  | claimed a _ => a
  | appended a _ => a
  | finished a _ _ => a

/-- `latest_attempt.json`. -/
structure LatestAttemptPointer where
  executionProtocolVersion : String
  attemptId : String
  logicalEvidenceKey : String
  terminalStatus : AttemptTerminalStatus
  transactionRef : Path
  verificationRef : ArtifactRef

/-- A stored document; `other` stands for one no reader of the model opens. -/
inductive Document
  | transaction (t : Transaction)
  | verification (v : VerificationResult)
  | latestAttempt (p : LatestAttemptPointer)
  | other

/-- The state an execution works on: the ledger and claim history, the ledger
object in `_ACTIVE_LEDGER`, and the artifact store. -/
structure World where
  events : List LedgerEvent := []
  active : Option AttemptLedger := none
  files : Path → Option Document := fun _ => none

/-- A program of the executor. -/
abbrev Exec (α : Type) := ExcState World PyExc α

namespace World

/-- Append an event. -/
def log (w : World) (e : LedgerEvent) : World := { w with events := w.events ++ [e] }

/-- Put a document at a path. -/
def store (w : World) (path : Path) (doc : Document) : World :=
  { w with files := Function.update w.files path (some doc) }

/-- Copy whatever document is at `src`. -/
def copy (w : World) (src dst : Path) : World :=
  match w.files src with
  | some doc => w.store dst doc
  | none => w

/-- Change the active ledger object. -/
def updateActive (w : World) (f : AttemptLedger → AttemptLedger) : World :=
  { w with active := w.active.map f }

@[simp] theorem log_events (w : World) (e : LedgerEvent) : (w.log e).events = w.events ++ [e] :=
  rfl

@[simp] theorem log_active (w : World) (e : LedgerEvent) : (w.log e).active = w.active := rfl

@[simp] theorem log_files (w : World) (e : LedgerEvent) : (w.log e).files = w.files := rfl

@[simp] theorem store_events (w : World) (p : Path) (d : Document) :
    (w.store p d).events = w.events := rfl

@[simp] theorem store_active (w : World) (p : Path) (d : Document) :
    (w.store p d).active = w.active := rfl

@[simp] theorem store_files_self (w : World) (p : Path) (d : Document) :
    (w.store p d).files p = some d :=
  Function.update_self _ _ _

theorem store_files_of_ne (w : World) {p p' : Path} (h : p' ≠ p) (d : Document) :
    (w.store p d).files p' = w.files p' :=
  Function.update_of_ne h _ _

/-- A copy either finds nothing, or stores what it found. -/
theorem copy_cases (w : World) (src dst : Path) :
    w.copy src dst = w ∨ ∃ doc, w.files src = some doc ∧ w.copy src dst = w.store dst doc := by
  unfold copy
  cases w.files src with
  | none => exact Or.inl rfl
  | some doc => exact Or.inr ⟨doc, rfl, rfl⟩

@[simp] theorem updateActive_events (w : World) (f : AttemptLedger → AttemptLedger) :
    (w.updateActive f).events = w.events := rfl

@[simp] theorem updateActive_files (w : World) (f : AttemptLedger → AttemptLedger) :
    (w.updateActive f).files = w.files := rfl

@[simp] theorem updateActive_active (w : World) (f : AttemptLedger → AttemptLedger) :
    (w.updateActive f).active = w.active.map f := rfl

@[simp] theorem copy_events (w : World) (src dst : Path) : (w.copy src dst).events = w.events := by
  unfold copy
  split <;> rfl

@[simp] theorem copy_active (w : World) (src dst : Path) : (w.copy src dst).active = w.active := by
  unfold copy
  split <;> rfl

end World

/-! ## Calls -/

/-- A call to the outside: its effect, unless it raises before it. -/
def perform (env : Env) (site : Site) (effect : World → World) : Exec PUnit := fun w =>
  match env.fault site with
  | none => (.ok ⟨⟩, effect w)
  | some f => (.error f.exc, if f.landed then effect w else w)

/-- A call without an effect on the modelled state. -/
def call (env : Env) (site : Site) : Exec PUnit := perform env site id

/-- What a performed call leaves. -/
theorem perform_snd (env : Env) (site : Site) (effect : World → World) (w : World) :
    (perform env site effect w).2 = if env.lands site then effect w else w := by
  unfold perform Env.lands
  cases env.fault site <;> rfl

@[simp] theorem call_snd (env : Env) (site : Site) (w : World) : (call env site w).2 = w := by
  unfold call
  rw [perform_snd]
  exact ite_self w

/-- Without a fault a call takes effect. -/
theorem perform_of_none {env : Env} {site : Site} (h : env.fault site = none)
    (effect : World → World) (w : World) : perform env site effect w = (.ok ⟨⟩, effect w) := by
  unfold perform
  rw [h]

theorem call_of_none {env : Env} {site : Site} (h : env.fault site = none) (w : World) :
    call env site w = (.ok ⟨⟩, w) :=
  perform_of_none h id w

/-- A call throws only what its site raises. -/
theorem perform_throws (env : Env) (site : Site) (effect : World → World) :
    ExcState.Throws (perform env site effect) (env.raises site) := by
  intro w
  unfold perform Env.raises
  cases env.fault site <;> rfl

theorem call_throws (env : Env) (site : Site) :
    ExcState.Throws (call env site) (env.raises site) :=
  perform_throws env site id

/-- An effect that keeps `I` keeps it as a call, whether or not it lands. -/
theorem perform_keeps {env : Env} {site : Site} {effect : World → World} {I : World → Prop}
    (h : ∀ w, I w → I (effect w)) : ExcState.Keeps I (perform env site effect) := by
  intro w hw
  unfold perform
  cases env.fault site with
  | none =>
    refine ⟨fun a s' hrun => ?_, fun e s' hrun => by simp at hrun⟩
    simp only [Prod.mk.injEq] at hrun
    obtain ⟨-, rfl⟩ := hrun
    exact h w hw
  | some f =>
    refine ⟨fun a s' hrun => by simp at hrun, fun e s' hrun => ?_⟩
    simp only [Prod.mk.injEq] at hrun
    obtain ⟨-, rfl⟩ := hrun
    cases f.landed with
    | true => exact h w hw
    | false => exact hw

/-! ## The ledger object -/

/-- `append_jsonl` of a row of the attempt. -/
def appendRow (env : Env) (attemptId : String) (row : LedgerRow) : Exec PUnit :=
  perform env (.appendJsonl attemptId row.event) (·.log (.appended attemptId row))

/-- `finish_claim`. The event is the call; the call may still raise. -/
def finishClaim (env : Env) (l : AttemptLedger) (status : AttemptTerminalStatus) : Exec PUnit := do
  ExcState.modify (·.log (.finished l.attemptId l.validationReservation status))
  call env (.finishClaim l.attemptId)

/-- `_AttemptLedger.__init__`: take the claim, become the active ledger, register. -/
def newLedger (env : Env) (attemptId : String) (trace : ExecutionTraceContext)
    (patchPlanSha256 : String) (physicalEffectSha256 retryOf : Option String) : Exec PUnit := do
  perform env (.claimFromEnvironment attemptId)
    (·.log (.claimed attemptId (env.reservation attemptId)))
  ExcState.modify fun w => { w with active := some {
    attemptId := attemptId
    logicalEvidenceKey := env.evidenceKey
    validationReservation := env.reservation attemptId } }
  appendRow env attemptId
    (.attemptRegistered env.evidenceKey trace patchPlanSha256 physicalEffectSha256 retryOf)

/-- `set_stage`. -/
def setStage (stage : String) (failureDomain : String := "EXECUTION") : Exec PUnit :=
  ExcState.modify (·.updateActive fun l =>
    { l with currentStage := stage, failureDomain := failureDomain })

/-- `phase`. -/
def phase (env : Env) (attemptId event : String) : Exec PUnit :=
  appendRow env attemptId (.phase event)

/-- `terminal`: at most one terminal row, and the claim is given back whether
or not the row could be appended. -/
def terminal (env : Env) (status : AttemptTerminalStatus) (details : TerminalDetails) :
    Exec PUnit := do
  match ← ExcState.gets (·.active) with
  | none => pure ⟨⟩
  | some l =>
    if l.terminalWritten then pure ⟨⟩
    else
      ExcState.tryFinally (appendRow env l.attemptId (.attemptTerminal status details)) do
        ExcState.modify (·.updateActive fun l => { l with terminalWritten := true })
        finishClaim env l status

/-! ## The accounting decorator -/

/-- A storage pause is recorded as an incident and takes the exception's place. -/
def recordPause (env : Env) (stage : String) (exc : PyExc) :
    Option InfrastructureFailure → Exec PyExc
  | none => pure exc
  | some pause => do
    call env (.recordStorageIncident stage)
    pure (.infrastructure pause)

/-- The storage classification of the decorator: an infrastructure failure
stays, anything else may turn out to be a storage pause. -/
def classifyStorage (env : Env) (stage : String) (exc : PyExc) : Exec PyExc :=
  if exc.isInfrastructure then pure exc
  else do
    call env (.storagePauseFromException stage)
    recordPause env stage exc (env.storagePause exc)

/-- The status of the row the decorator writes. -/
def failureStatus (normalized : PyExc) : AttemptTerminalStatus :=
  if normalized.isCancellation then .cancelled else .executionFailure

/-- The details of the row the decorator writes. -/
def failureDetails (l : AttemptLedger) (normalized : PyExc) : TerminalDetails :=
  match normalized with
  | .infrastructure f =>
    { failureDomain := some "INFRASTRUCTURE", failureCode := some f.failureCode
      failureStage := some f.failureStage, retryable := some f.retryable }
  | _ =>
    { failureDomain := some l.failureDomain
      failureCode := some (if normalized.isCancellation then "CANCELLED" else normalized.typeName)
      failureStage := some l.currentStage }

/-- The `except BaseException` clause. -/
def accountFailure {α : Type} (env : Env) (exc : PyExc) : Exec α := do
  let normalized ← classifyStorage env "TRANSACTION" exc
  match ← ExcState.gets (·.active) with
  | none => ExcState.raise normalized
  | some l =>
    if l.terminalWritten then ExcState.raise normalized
    else do
      terminal env (failureStatus normalized) (failureDetails l normalized)
      ExcState.raise normalized

/-- A function that returned without a terminal row fails. -/
def requireTerminal {α : Type} (env : Env) (result : α) : Exec α := do
  match ← ExcState.gets (·.active) with
  | none => pure result
  | some l =>
    if l.terminalWritten then pure result
    else do
      terminal env .executionFailure
        { failureDomain := some "INFRASTRUCTURE"
          failureCode := some "TERMINAL_ACCOUNTING_MISSING"
          failureStage := some l.currentStage }
      ExcState.raise (.builtin .runtimeError "RuntimeError" "TERMINAL_ACCOUNTING_MISSING")

/-- The `try` clause. -/
def accountReturn {α : Type} (env : Env) (function : Exec α) : Exec α := do
  let result ← function
  requireTerminal env result

/-- `_account_physical_attempts`. `_ACTIVE_LEDGER` is set for the call and put
back after it. -/
def accountPhysicalAttempts {α : Type} (env : Env) (function : Exec α) : Exec α := fun w =>
  let out := ExcState.tryCatch (accountReturn env function) (accountFailure env)
    { w with active := none }
  (out.1, { out.2 with active := w.active })

/-! ## Files -/

/-- A row leaves the files. -/
theorem appendRow_files (env : Env) (a : String) (row : LedgerRow) (w : World) :
    (appendRow env a row w).2.files = w.files := by
  unfold appendRow
  rw [perform_snd]
  split <;> rfl

/-- The ledger writes no document. -/
theorem terminal_files (env : Env) (status : AttemptTerminalStatus) (details : TerminalDetails)
    (w : World) : (terminal env status details w).2.files = w.files := by
  cases hl : w.active with
  | none => simp [terminal, hl]
  | some l =>
    cases hw : l.terminalWritten with
    | true => simp [terminal, hl, hw]
    | false =>
      simp only [terminal, ExcState.bind_apply, ExcState.gets_apply, hl, hw,
        Bool.false_eq_true, if_false, ExcState.tryFinally_snd]
      rw [← appendRow_files env l.attemptId (.attemptTerminal status details) w]
      simp [finishClaim]

end DRCAgent
