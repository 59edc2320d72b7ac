/-
# What the ledger says about an attempt

The milestones of an attempt are what its rows and its claim amount to once the
phase rows are left out. A registered attempt that is accounted for has exactly
one history: claimed, registered, one terminal row (if the append lands), claim
finished.

`Stable` is the frame condition of the stages of an execution: a predicate that
survives phase rows, stage changes, file copies, and the writes of a given kind
of document. Every stage keeps every stable predicate; the milestones are one
instance, what the artifacts record about an attempt is another.
-/
import DRCAgent.Transaction

namespace DRCAgent

open ExcState

/-! ## Milestones -/

/-- One step in the life of an attempt, as the ledger and the claims show it. -/
inductive Milestone
  | claimed
  | registered
  | terminal (status : AttemptTerminalStatus)
  | finished (status : AttemptTerminalStatus)
  deriving DecidableEq

/-- The milestone of an event; a phase row is none. -/
def LedgerEvent.milestone : LedgerEvent → Option Milestone
  | claimed _ _ => some .claimed
  | appended _ (.attemptRegistered ..) => some .registered
  | appended _ (.phase _) => none
  | appended _ (.attemptTerminal status _) => some (.terminal status)
  | finished _ _ status => some (.finished status)

/-- The milestones of one attempt, in order. -/
def milestones (a : String) (events : List LedgerEvent) : List Milestone :=
  (events.filter fun e => e.attemptId = a).filterMap (·.milestone)

theorem milestones_eq_nil {a : String} {events : List LedgerEvent}
    (h : ∀ e ∈ events, e.attemptId ≠ a) : milestones a events = [] := by
  unfold milestones
  rw [List.filter_eq_nil_iff.2 fun e he => by simpa using h e he]
  rfl

theorem milestones_append_of_ne {a : String} {e : LedgerEvent} (h : e.attemptId ≠ a)
    (events : List LedgerEvent) : milestones a (events ++ [e]) = milestones a events := by
  simp [milestones, h]

theorem milestones_append_of_eq {a : String} {e : LedgerEvent} (h : e.attemptId = a)
    (events : List LedgerEvent) :
    milestones a (events ++ [e]) = milestones a events ++ e.milestone.toList := by
  unfold milestones
  rw [List.filter_append, List.filterMap_append]
  cases hm : e.milestone <;> simp [h, hm]

/-- What matters about the ledger: the milestones of every attempt, and which
attempt the active ledger object is for, with its `terminal_written`. -/
structure LedgerView where
  milestones : String → List Milestone
  active : Option (String × Bool)

/-- The ledger view of a state. -/
def World.view (w : World) : LedgerView where
  milestones := fun a => DRCAgent.milestones a w.events
  active := w.active.map fun l => (l.attemptId, l.terminalWritten)

/-- Add milestones to one attempt. -/
def LedgerView.add (v : LedgerView) (a : String) (ms : List Milestone) : LedgerView :=
  { v with milestones := Function.update v.milestones a (v.milestones a ++ ms) }

/-- Change the active ledger object. -/
def LedgerView.withActive (v : LedgerView) (active : Option (String × Bool)) : LedgerView :=
  { v with active := active }

@[simp] theorem LedgerView.add_nil (v : LedgerView) (a : String) : v.add a [] = v := by
  simp [add]

@[simp] theorem LedgerView.add_add (v : LedgerView) (a : String) (ms ms' : List Milestone) :
    (v.add a ms).add a ms' = v.add a (ms ++ ms') := by
  simp [add]

@[simp] theorem LedgerView.add_milestones_self (v : LedgerView) (a : String)
    (ms : List Milestone) : (v.add a ms).milestones a = v.milestones a ++ ms := by
  simp [add]

theorem LedgerView.add_milestones_of_ne (v : LedgerView) {a b : String} (h : b ≠ a)
    (ms : List Milestone) : (v.add a ms).milestones b = v.milestones b := by
  simp [add, Function.update_of_ne h]

@[simp] theorem LedgerView.withActive_active (v : LedgerView) (active : Option (String × Bool)) :
    (v.withActive active).active = active := rfl

@[simp] theorem LedgerView.withActive_milestones (v : LedgerView)
    (active : Option (String × Bool)) : (v.withActive active).milestones = v.milestones := rfl

theorem LedgerView.withActive_add (v : LedgerView) (active : Option (String × Bool)) (a : String)
    (ms : List Milestone) : (v.withActive active).add a ms = (v.add a ms).withActive active := rfl

/-- Logging an event adds its milestone. -/
theorem World.view_log (w : World) (e : LedgerEvent) :
    (w.log e).view = w.view.add e.attemptId e.milestone.toList := by
  refine congrArg₂ LedgerView.mk (funext fun b => ?_) rfl
  by_cases hb : e.attemptId = b
  · subst hb
    simp [World.view, milestones_append_of_eq]
  · rw [Function.update_of_ne (Ne.symm hb)]
    exact milestones_append_of_ne hb w.events

/-! ## Frame -/

/-- A predicate that phase rows, stage changes, copies, and writes of documents
in `D` leave alone. -/
structure Stable (D : Document → Prop) (I : World → Prop) : Prop where
  phase : ∀ w a event, I w → I (w.log (.appended a (.phase event)))
  stage : ∀ w stage domain, I w →
    I (w.updateActive fun l => { l with currentStage := stage, failureDomain := domain })
  store : ∀ w path doc, D doc → I w → I (w.store path doc)
  copy : ∀ w src dst, I w → I (w.copy src dst)

/-- The ledger view is stable under writes of any kind. -/
theorem stable_view (v : LedgerView) : Stable (fun _ => True) fun w => w.view = v where
  phase w a event h := by
    rw [World.view_log, h]
    exact v.add_nil a
  stage w stage domain h := by
    rw [← h]
    simp [World.view, Function.comp_def]
  store w path doc _ h := h
  copy w src dst h := by
    rw [← h]
    simp [World.view]

namespace Stable

variable {D : Document → Prop} {I : World → Prop} {env : Env} {inp : ExecuteInput}

theorem keeps_call {site : Site} : Keeps I (call env site) := perform_keeps fun _ h => h

theorem keeps_store (hI : Stable D I) {site : Site} {path : Path} {doc : Document} (hD : D doc) :
    Keeps I (perform env site (·.store path doc)) :=
  perform_keeps fun w h => hI.store w path doc hD h

theorem keeps_copy (hI : Stable D I) {site : Site} {src dst : Path} :
    Keeps I (perform env site (·.copy src dst)) :=
  perform_keeps fun w h => hI.copy w src dst h

theorem keeps_phase (hI : Stable D I) {a event : String} : Keeps I (DRCAgent.phase env a event) :=
  perform_keeps fun w h => hI.phase w a event h

theorem keeps_setStage (hI : Stable D I) {stage domain : String} :
    Keeps I (setStage stage domain) :=
  Keeps.modify fun w h => hI.stage w stage domain h

theorem keeps_wrapping {α : Type} {translate : PyExc → PyExc} {m : Exec α} (h : Keeps I m) :
    Keeps I (wrapping translate m) := by
  refine Keeps.tryCatch h fun exc => ?_
  by_cases hexc : exc.isException = true
  · rw [if_pos hexc]
    exact Keeps.raise
  · rw [if_neg hexc]
    exact Keeps.raise

/-! ### The stages before the evidence -/

theorem keeps_preflight : Keeps I (preflight env inp) := by
  unfold preflight
  refine Keeps.bind (Keeps.tryCatch keeps_call fun exc => ?_) fun _ => ?_
  · cases exc.isRuntimeError
    · exact Keeps.raise
    · exact Keeps.raise
  refine Keeps.bind keeps_call fun _ => ?_
  cases inp.currentSnapshot.drcRef with
  | none => exact Keeps.raise
  | some drcRef => exact Keeps.bind keeps_call fun _ => Keeps.bind keeps_call fun _ => Keeps.pure

theorem keeps_checkOwnership {request : AttemptRequest} {job : Job} :
    Keeps I (checkOwnership env request job) := by
  unfold checkOwnership
  split
  · exact Keeps.raise
  · exact Keeps.pure

theorem keeps_applyPatch (hI : Stable D I) {p : Prepared} (hother : D .other)
    (hfailed : D (.transaction (failedTransaction p.transaction))) :
    Keeps I (applyPatch env inp p) := by
  unfold applyPatch
  refine Keeps.bind hI.keeps_setStage fun _ => Keeps.bind (Keeps.tryCatch ?_ fun exc => ?_)
    fun _ => Keeps.bind keeps_call fun _ => keeps_call
  · refine Keeps.bind keeps_call fun _ => Keeps.bind keeps_call fun _ =>
      Keeps.bind (Keeps.runIf (hI.keeps_store hother)) fun _ => Keeps.bind keeps_call fun _ => ?_
    cases geometryMismatch env inp with
    | none => exact Keeps.pure
    | some objectId => exact Keeps.raise
  · by_cases hexc : exc.isException = true
    · rw [if_pos hexc]
      exact Keeps.bind (hI.keeps_store hfailed) fun _ =>
        Keeps.bind (Keeps.runIf keeps_call) fun _ => Keeps.raise
    · rw [if_neg hexc]
      exact Keeps.raise

/-! ### The evidence stages -/

theorem keeps_toolStage (hI : Stable D I) {stage : String} {site : Site} {tool : ToolResult}
    {kind : EvidenceKind} {outcome : VerificationOutcome} {code : String}
    {onSuccess : Evidence → Exec Evidence} (hok : ∀ ev, Keeps I (onSuccess ev)) (ev : Evidence) :
    Keeps I (toolStage env stage site tool kind outcome code onSuccess ev) := by
  refine Keeps.bind hI.keeps_setStage fun _ => Keeps.bind keeps_call fun _ => ?_
  show Keeps I (if tool.status = .success then _ else _)
  by_cases hs : tool.status = .success
  · rw [if_pos hs]
    exact hok _
  · rw [if_neg hs]
    exact Keeps.pure

theorem keeps_readEvidence {isFile : Bool} {site : Site} {kind : EvidenceKind} {stage : String}
    {outcome : VerificationOutcome} {code : String} {onSuccess : Evidence → Evidence}
    (ev : Evidence) :
    Keeps I (readEvidence env isFile site kind stage outcome code onSuccess ev) := by
  refine Keeps.tryCatch (Keeps.bind (Keeps.runIf Keeps.raise) fun _ =>
    Keeps.bind keeps_call fun _ => Keeps.pure) fun exc => ?_
  cases (exc.isOSError || exc.isValueError)
  · exact Keeps.raise
  · exact Keeps.pure

theorem keeps_validateDrcReport (hI : Stable D I) (ev : Evidence) :
    Keeps I (validateDrcReport env ev) := by
  refine Keeps.bind hI.keeps_setStage fun _ =>
    Keeps.tryCatch (Keeps.bind keeps_call fun _ => Keeps.pure) fun exc => ?_
  cases exc.isValueError
  · exact Keeps.raise
  · refine Keeps.bind keeps_call fun _ => Keeps.tryCatch (Keeps.bind (Keeps.runIf Keeps.raise)
      fun _ => Keeps.bind keeps_call fun _ => Keeps.pure) fun exc => ?_
    cases exc.isValueError
    · exact Keeps.raise
    · exact Keeps.pure

theorem keeps_evaluatorFailure (ev : Evidence) (exc : PyExc) :
    Keeps I (evaluatorFailure ev exc) := by
  unfold evaluatorFailure
  cases exc.isException
  · exact Keeps.raise
  · exact Keeps.pure

theorem keeps_convertDrcReport (hI : Stable D I) (a : String) (ev : Evidence) :
    Keeps I (convertDrcReport env a ev) := by
  refine Keeps.bind hI.keeps_setStage fun _ => Keeps.tryCatch ?_ (keeps_evaluatorFailure _)
  exact Keeps.bind keeps_call fun _ => Keeps.bind keeps_call fun _ => Keeps.bind keeps_call
    fun _ => Keeps.tryCatch (Keeps.bind hI.keeps_phase fun _ => Keeps.pure)
      (keeps_evaluatorFailure _)

theorem keeps_unlessFailed {stage : Evidence → Exec Evidence} (h : ∀ ev, Keeps I (stage ev))
    (ev : Evidence) : Keeps I (ev.unlessFailed stage) := by
  unfold Evidence.unlessFailed
  split
  · exact h ev
  · exact Keeps.pure

theorem keeps_gatherEvidence (hI : Stable D I) (a : String) :
    Keeps I (gatherEvidence env a) := by
  refine Keeps.bind (hI.keeps_toolStage (fun _ => Keeps.pure) _) fun ev => ?_
  refine Keeps.bind (keeps_unlessFailed (hI.keeps_toolStage fun _ =>
    Keeps.bind hI.keeps_phase fun _ => Keeps.pure) ev) fun ev => ?_
  refine Keeps.bind (keeps_unlessFailed (hI.keeps_toolStage fun _ => Keeps.pure) ev) fun ev => ?_
  refine Keeps.bind (keeps_unlessFailed hI.keeps_validateDrcReport ev) fun ev => ?_
  refine Keeps.bind (keeps_unlessFailed (hI.keeps_convertDrcReport a) ev) fun ev => ?_
  refine Keeps.bind (keeps_unlessFailed (hI.keeps_toolStage fun _ => Keeps.pure) ev) fun ev => ?_
  refine Keeps.bind (keeps_unlessFailed keeps_readEvidence ev) fun ev => ?_
  refine Keeps.bind (keeps_unlessFailed (hI.keeps_toolStage fun _ => Keeps.pure) ev) fun ev => ?_
  exact keeps_unlessFailed keeps_readEvidence ev

theorem keeps_violationDelta (hI : Stable D I) (ev : Evidence) :
    Keeps I (violationDelta env ev) := by
  unfold violationDelta
  split
  · exact Keeps.bind hI.keeps_setStage fun _ => Keeps.bind keeps_call fun _ => Keeps.pure
  · exact Keeps.pure

/-! ### Persisting and publishing -/

theorem keeps_copySnapshot {s : DesignSnapshotRef} {dir : Path} {caseId : String} :
    Keeps I (copySnapshot env s dir caseId) :=
  Keeps.bind keeps_call fun _ => Keeps.bind (Keeps.runIf keeps_call) fun _ =>
    Keeps.bind (Keeps.runIf keeps_call) fun _ => Keeps.bind (Keeps.runIf keeps_call) fun _ =>
      Keeps.pure

theorem keeps_persistAttempted (hI : Stable D I) {p : Prepared} {ev : Evidence}
    (hother : D .other) : Keeps I (persistAttempted env inp p ev) := by
  refine Keeps.bind hI.keeps_setStage fun _ => Keeps.bind keeps_call fun _ =>
    Keeps.bind (Keeps.runIf keeps_call) fun _ => Keeps.bind (Keeps.runIf keeps_call) fun _ =>
    Keeps.bind (Keeps.runIf keeps_call) fun _ => Keeps.bind ?_ fun _ =>
    Keeps.bind (Keeps.runIf (hI.keeps_store hother)) fun _ => Keeps.pure
  unfold attemptedTotal
  split
  · exact Keeps.bind keeps_call fun _ => Keeps.pure
  · exact Keeps.pure

theorem keeps_commitSnapshot {p : Prepared} {accepted : Bool} {s : DesignSnapshotRef}
    {total : Option ℤ} : Keeps I (commitSnapshot env inp p accepted s total) := by
  unfold commitSnapshot
  cases accepted with
  | true =>
    refine Keeps.bind keeps_copySnapshot fun _ => ?_
    cases total with
    | none => exact Keeps.raise
    | some total => exact Keeps.pure
  | false => exact Keeps.bind keeps_copySnapshot fun _ => Keeps.pure

theorem keeps_copyAliases (hI : Stable D I) {a : String} {site : Path → Site} {target : Path}
    {relatives : List Path} : Keeps I (copyAliases env inp a site target relatives) :=
  Keeps.forEach fun _ _ => hI.keeps_copy

/-! ### The whole execution -/

/-- An exception of the preparation that its handler lets through keeps what a call keeps, and
there is no result. -/
theorem reraised_spec {α : Type} {exc : PyExc} {Q : α → World → Prop} :
    Spec I (if exc.isException then unexpectedPreparationFailure env exc else raise exc : Exec α) Q
      (fun _ => I) := by
  split
  · refine Spec.bind (Q := fun _ => I) keeps_call fun _ => ?_
    cases env.storagePause exc with
    | none => exact Spec.raise fun _ h => h
    | some pause =>
      exact Spec.bind (Q := fun _ => I) keeps_call fun _ => Spec.raise fun _ h => h
  · exact Spec.raise fun _ h => h

theorem keeps_prepareTurn (hI : Stable D I) {request : AttemptRequest}
    {again : Option (AttemptRequest → Exec (AttemptRequest × Job))}
    (hnew : ∀ trace plan effect retryOf,
      Keeps I (newLedger env request.requestedAttemptId trace plan effect retryOf))
    (hterminal : ∀ status details, Keeps I (terminal env status details))
    (hagain : ∀ next retryOf, again = some next → Keeps I (next ⟨env.newAttemptId 1, retryOf⟩)) :
    Keeps I (prepareTurn env inp request again) := by
  refine Keeps.bind (hnew _ _ _ _) fun _ => Keeps.bind hI.keeps_setStage fun _ =>
    Keeps.tryCatch (Keeps.bind keeps_call fun _ => Keeps.pure) fun exc => ?_
  cases exc with
  | jobPreparation failure =>
    refine Keeps.bind (hterminal _ _) fun _ => ?_
    cases again with
    | none => exact Keeps.raise
    | some next =>
      cases failure.retryable with
      | false => exact Keeps.raise
      | true => exact hagain next _ rfl
  | infrastructure failure => exact Keeps.raise
  | builtin cls name text => exact reraised_spec
  | executionCancelled ordinary => exact reraised_spec
  | keyboardInterrupt => exact reraised_spec

/-- Everything before the first write of the finished `transaction.json` keeps a
stable predicate that survives the opening and the closing of its ledgers. -/
theorem keeps_evaluateAttempt (hI : Stable D I)
    (hnew : ∀ n trace plan effect retryOf,
      Keeps I (newLedger env (env.newAttemptId n) trace plan effect retryOf))
    (hterminal : ∀ status details, Keeps I (terminal env status details))
    (hother : D .other) (hfailed : ∀ t, D (.transaction (failedTransaction t)))
    (hverification : ∀ v, D (.verification v)) : Keeps I (evaluateAttempt env inp) := by
  refine Keeps.bind (Keeps.bind keeps_preflight fun _ => Keeps.bind ?_ fun _ =>
    Keeps.bind keeps_checkOwnership fun _ => Keeps.bind hI.keeps_phase fun _ =>
    Keeps.bind (hI.keeps_store hother) fun _ => Keeps.bind hI.keeps_phase fun _ => Keeps.pure)
    fun p => ?_
  · refine hI.keeps_prepareTurn (hnew 0) hterminal fun next retryOf hnext => ?_
    obtain rfl := Option.some.inj hnext
    exact hI.keeps_prepareTurn (hnew 1) hterminal fun _ _ hnone => by cases hnone
  · exact Keeps.bind (hI.keeps_applyPatch hother (hfailed _)) fun _ =>
      Keeps.bind (hI.keeps_gatherEvidence _) fun _ =>
      Keeps.bind (hI.keeps_violationDelta _) fun _ => Keeps.bind Keeps.lift fun v =>
      Keeps.bind hI.keeps_setStage fun _ => Keeps.bind (hI.keeps_persistAttempted hother) fun _ =>
      Keeps.bind keeps_commitSnapshot fun _ => Keeps.bind (hI.keeps_store (hverification v))
        fun _ => Keeps.pure

/-- The decorator's handler keeps what `terminal` keeps. -/
theorem keeps_accountFailure {α : Type} {exc : PyExc}
    (hterminal : ∀ status details, Keeps I (terminal env status details)) :
    Keeps I (accountFailure (α := α) env exc) := by
  refine Keeps.bind ?_ fun normalized => Keeps.bind Keeps.gets fun active => ?_
  · unfold classifyStorage
    split
    · exact Keeps.pure
    · refine Keeps.bind keeps_call fun _ => ?_
      cases env.storagePause exc with
      | none => exact Keeps.pure
      | some pause => exact Keeps.bind keeps_call fun _ => Keeps.pure
  · cases active with
    | none => exact Keeps.raise
    | some l =>
      dsimp only
      split
      · exact Keeps.raise
      · exact Keeps.bind (hterminal _ _) fun _ => Keeps.raise

/-- So does its check of the result. -/
theorem keeps_requireTerminal {α : Type} {result : α}
    (hterminal : ∀ status details, Keeps I (terminal env status details)) :
    Keeps I (requireTerminal env result) := by
  refine Keeps.bind Keeps.gets fun active => ?_
  cases active with
  | none => exact Keeps.pure
  | some l =>
    dsimp only
    split
    · exact Keeps.pure
    · exact Keeps.bind (hterminal _ _) fun _ => Keeps.raise

/-- Publishing keeps what its own three documents keep. -/
theorem keeps_publishAttempt (hI : Stable D I) {e : Evaluated}
    (htransaction : D (.transaction e.transaction))
    (hpointer : D (.latestAttempt (latestAttempt env inp e)))
    (hremapped : D (.transaction (remappedTransaction env e))) :
    Keeps I (publishAttempt env inp e) := by
  refine Keeps.bind ?_ fun _ => Keeps.bind ?_ fun _ => Keeps.bind ?_ fun _ =>
    Keeps.bind ?_ fun _ => ?_
  · refine Keeps.bind (hI.keeps_store htransaction) fun _ => Keeps.bind (hI.keeps_store hpointer)
      fun _ => Keeps.bind hI.keeps_copyAliases fun _ => Keeps.bind hI.keeps_copyAliases fun _ => ?_
    cases inp.legacyArtifactPrefix with
    | none => exact Keeps.pure
    | some legacy => exact hI.keeps_copyAliases
  · exact Keeps.bind (Keeps.runIf keeps_call) fun _ =>
      Keeps.bind hI.keeps_setStage fun _ => keeps_wrapping keeps_call
  · unfold remapToolResults
    cases env.remap with
    | none => exact Keeps.pure
    | some remap =>
      refine keeps_wrapping (Keeps.bind keeps_call fun _ =>
        Keeps.bind (hI.keeps_store hremapped) fun _ => Keeps.bind hI.keeps_copy fun _ => ?_)
      cases inp.legacyArtifactPrefix with
      | none => exact Keeps.pure
      | some legacy => exact hI.keeps_copy
  · exact Keeps.bind hI.keeps_setStage fun _ => keeps_wrapping keeps_call
  · unfold checkInfraTool
    cases infraTool (remappedTools env e) with
    | none => exact Keeps.pure
    | some tool => exact Keeps.raise

end Stable

end DRCAgent
