/-
# What the artifacts say after a late failure

The ledger and the stored artifacts agree as long as no artifact records a
failed attempt as committed or evaluated. Up to the first write of the finished
`transaction.json` no artifact does, and the patch-failure path writes a failed
one. After that write the artifacts stay as they are: a later exception changes
the terminal row of the ledger and nothing else.

`LateFailure` is the exact condition for that: the attempt is evaluated, its
`transaction.json` lands, some later call raises, and the decorator records the
exception as a failure.
-/
import DRCAgent.AcceptanceSoundness
import DRCAgent.AttemptAccounting

namespace DRCAgent

open ExcState

variable {env : Env} {inp : ExecuteInput}

/-! ## Agreement -/

/-- The document records the attempt `a` as committed or evaluated. -/
def Document.Records (a : String) : Document → Prop
  | transaction t => t.attemptId = some a ∧
      (t.status = .committed ∨ t.terminalStatus = some .evaluated)
  | latestAttempt p => p.attemptId = a ∧ p.terminalStatus = .evaluated
  | verification _ => False
  | other => False

/-- No stored document records `a` as committed or evaluated. -/
def Clean (a : String) (w : World) : Prop :=
  ∀ path doc, w.files path = some doc → ¬ doc.Records a

/-- The ledger has a failure row for `a`. -/
def Failed (a : String) (w : World) : Prop :=
  .terminal .executionFailure ∈ milestones a w.events

/-- **Agreement** of the ledger with the artifacts. -/
def Agree (w : World) : Prop := ∀ a, Failed a w → Clean a w

/-! ## Before the publication -/

theorem clean_store {a : String} {w : World} {path : Path} {doc : Document}
    (hdoc : ¬ doc.Records a) (h : Clean a w) : Clean a (w.store path doc) := by
  intro path' doc' hfile
  by_cases hp : path' = path
  · subst hp
    rw [World.store_files_self] at hfile
    exact Option.some.inj hfile ▸ hdoc
  · rw [World.store_files_of_ne w hp] at hfile
    exact h path' doc' hfile

theorem stable_clean (a : String) : Stable (fun doc => ¬ doc.Records a) (Clean a) where
  phase _ _ _ h := h
  stage _ _ _ h := h
  store w path doc hdoc h := clean_store hdoc h
  copy w src dst h := by
    rcases w.copy_cases src dst with hcopy | ⟨doc, hdoc, hcopy⟩
    · rw [hcopy]
      exact h
    · rw [hcopy]
      exact clean_store (h src doc hdoc) h

theorem keeps_clean_newLedger {a b : String} {trace : ExecutionTraceContext} {plan : String}
    {effect retryOf : Option String} :
    Keeps (Clean a) (newLedger env b trace plan effect retryOf) :=
  Keeps.bind (perform_keeps fun _ h => h) fun _ => Keeps.bind (Keeps.modify fun _ h => h) fun _ =>
    perform_keeps fun _ h => h

theorem keeps_clean_terminal {a : String} {status : AttemptTerminalStatus}
    {details : TerminalDetails} : Keeps (Clean a) (terminal env status details) := by
  refine Keeps.of_state fun w h => ?_
  unfold Clean
  rw [terminal_files]
  exact h

/-- The milestones of `a` are `ms`, and no ledger object is for `a`. -/
def Untouched (a : String) (ms : List Milestone) (w : World) : Prop :=
  w.view.milestones a = ms ∧ ∀ flag, w.view.active ≠ some (a, flag)

theorem stable_untouched (a : String) (ms : List Milestone) :
    Stable (fun _ => True) (Untouched a ms) where
  phase w b event h := by
    have hview := (stable_view w.view).phase w b event rfl
    unfold Untouched
    rw [hview]
    exact h
  stage w stage domain h := by
    have hview := (stable_view w.view).stage w stage domain rfl
    unfold Untouched
    rw [hview]
    exact h
  store w path doc _ h := h
  copy w src dst h := by
    have hview := (stable_view w.view).copy w src dst rfl
    unfold Untouched
    rw [hview]
    exact h

/-- A ledger of another attempt leaves `a` untouched. -/
theorem keeps_untouched_newLedger {a b : String} (hab : a ≠ b) {ms : List Milestone}
    {trace : ExecutionTraceContext} {plan : String} {effect retryOf : Option String} :
    Keeps (Untouched a ms) (newLedger env b trace plan effect retryOf) := by
  have hlog : ∀ (w : World) (e : LedgerEvent), e.attemptId = b → Untouched a ms w →
      Untouched a ms (w.log e) := by
    rintro w e rfl ⟨hms, hactive⟩
    unfold Untouched
    rw [World.view_log, LedgerView.add_milestones_of_ne _ hab]
    exact ⟨hms, hactive⟩
  refine Keeps.bind (perform_keeps fun w => hlog w _ rfl) fun _ =>
    Keeps.bind (Keeps.modify ?_) fun _ => perform_keeps fun w => hlog w _ rfl
  rintro w ⟨hms, -⟩
  exact ⟨hms, fun flag hflag => hab (Prod.mk.inj (Option.some.inj hflag)).1.symm⟩

/-- `terminal` changes the view only by closing an open ledger. -/
theorem view_terminal_cases (env : Env) (status : AttemptTerminalStatus)
    (details : TerminalDetails) (w : World) :
    (terminal env status details w).2.view = w.view ∨
      ∃ b, w.view.active = some (b, false) ∧
        (terminal env status details w).2.view = w.view.close env b status := by
  cases hl : w.active with
  | none => exact Or.inl (by simp [terminal, hl])
  | some l =>
    cases hwritten : l.terminalWritten with
    | true => exact Or.inl (by rw [terminal_of_closed hl hwritten])
    | false =>
      have hopen : w.view.active = some (l.attemptId, false) := by
        simp [World.view, hl, hwritten]
      exact Or.inr ⟨l.attemptId, hopen, view_terminal env hopen status details⟩

theorem keeps_untouched_terminal {a : String} {ms : List Milestone}
    {status : AttemptTerminalStatus} {details : TerminalDetails} :
    Keeps (Untouched a ms) (terminal env status details) := by
  refine Keeps.of_state fun w ⟨hms, hactive⟩ => ?_
  rcases view_terminal_cases env status details w with hview | ⟨b, hopen, hview⟩
  · unfold Untouched
    rw [hview]
    exact ⟨hms, hactive⟩
  · have hba : a ≠ b := fun hab => hactive false (by rw [hopen, hab])
    unfold Untouched
    rw [hview, LedgerView.close, LedgerView.withActive_milestones,
      LedgerView.add_milestones_of_ne _ hba]
    exact ⟨hms, fun flag hflag => hba (Prod.mk.inj (Option.some.inj hflag)).1.symm⟩

/-! ## The publication, call by call -/

/-- What `except Exception as exc: raise translate(exc)` lets out. -/
def translated (translate : PyExc → PyExc) (exc : PyExc) : PyExc :=
  if exc.isException then translate exc else exc

theorem wrapping_throws {α : Type} (translate : PyExc → PyExc) {m : Exec α} {o : Option PyExc}
    (h : Throws m o) : Throws (wrapping translate m) (o.map (translated translate)) := by
  refine Throws.tryCatch h fun exc => ?_
  unfold translated
  split
  · exact Throws.raise
  · exact Throws.raise

/-- The exception of one alias loop. -/
def aliasFault (env : Env) (inp : ExecuteInput) (a : String) (site : Path → Site)
    (relatives : List Path) : Option PyExc :=
  (relatives.filter fun relative => env.isFile (inp.attemptPrefix a ++ relative)).findSome?
    fun relative => env.raises (site relative)

/-- The exception of the artifact writes. -/
def artifactFault (env : Env) (inp : ExecuteInput) (a : String) : Option PyExc :=
  env.raises .writeTransaction <|> env.raises .writeLatestAttempt <|>
    aliasFault env inp a .copyAlias (snapshotFiles env) <|>
    aliasFault env inp a .copyAlias aliasFiles <|>
    (if inp.legacyArtifactPrefix.isSome then aliasFault env inp a .copyLegacyAlias aliasFiles
      else none)

/-- The exception of marking the job and collecting its results. -/
def collectFault (env : Env) : Option PyExc :=
  (if env.isKLayoutBackend then env.raises .markJobState else none) <|>
    (env.raises .collectResults).map (translated fun exc =>
      backendFailure env ("ARTIFACT_PUBLICATION_FAILED: " ++ exc.message)
        "ARTIFACT_PUBLICATION" exc.isOSError (some exc.typeName) "COLLECT_RESULTS")

/-- The exception of the remapping. -/
def remapFault (env : Env) (inp : ExecuteInput) : Option PyExc :=
  if env.remap.isSome then
    (env.raises .remapToolResults <|> env.raises .writeRemapped <|> env.raises .copyRemapped <|>
      (if inp.legacyArtifactPrefix.isSome then env.raises .copyRemappedLegacy else none)).map
      (translated fun exc => backendFailure env ("ARTIFACT_REFERENCE_REMAP_FAILED: " ++ exc.message)
        "ARTIFACT_PUBLICATION" false (some exc.typeName) "COLLECT_RESULTS")
  else none

/-- The exception of the clean-up. -/
def cleanupFault (env : Env) : Option PyExc :=
  (env.raises .cleanup).map (translated fun exc =>
    backendFailure env ("WORKSPACE_CLEANUP_FAILED: " ++ exc.message)
      "WORKSPACE_OWNERSHIP" false (some exc.typeName) "CLEANUP")

/-- **The first exception after the evaluation**, read off the call sites. -/
def publishFault (env : Env) (inp : ExecuteInput) (a : String) (tools : List ToolResult) :
    Option PyExc :=
  artifactFault env inp a <|> collectFault env <|> remapFault env inp <|> cleanupFault env <|>
    (infraTool tools).map (infraToolFailure env)

theorem setStage_throws (stage domain : String) : Throws (setStage stage domain) none :=
  Throws.modify

theorem copyAliases_throws (env : Env) (inp : ExecuteInput) (a : String) (site : Path → Site)
    (target : Path) (relatives : List Path) :
    Throws (copyAliases env inp a site target relatives) (aliasFault env inp a site relatives) :=
  Throws.forEach (fun _ => perform_throws _ _ _) _

theorem writeArtifacts_throws (env : Env) (inp : ExecuteInput) (e : Evaluated) :
    Throws (writeArtifacts env inp e) (artifactFault env inp e.attemptId) := by
  refine Throws.bind (perform_throws _ _ _) fun _ => Throws.bind (perform_throws _ _ _) fun _ =>
    Throws.bind (copyAliases_throws _ _ _ _ _ _) fun _ =>
    Throws.bind (copyAliases_throws _ _ _ _ _ _) fun _ => ?_
  cases inp.legacyArtifactPrefix with
  | none => exact Throws.pure
  | some legacy => exact copyAliases_throws _ _ _ _ _ _

theorem collectResults_throws (env : Env) : Throws (collectResults env) (collectFault env) := by
  refine Throws.bind (Throws.runIf (call_throws _ _)) fun _ => ?_
  exact Throws.after (setStage_throws _ _) fun _ => wrapping_throws _ (call_throws _ _)

theorem remapToolResults_throws (env : Env) (inp : ExecuteInput) (e : Evaluated) :
    Throws (remapToolResults env inp e) (remapFault env inp) := by
  unfold remapToolResults remapFault
  cases env.remap with
  | none => exact Throws.pure
  | some remap =>
    refine wrapping_throws _ (Throws.bind (call_throws _ _) fun _ =>
      Throws.bind (perform_throws _ _ _) fun _ => Throws.bind (perform_throws _ _ _) fun _ => ?_)
    cases inp.legacyArtifactPrefix with
    | none => exact Throws.pure
    | some legacy => exact perform_throws _ _ _

theorem cleanup_throws (env : Env) : Throws (cleanup env) (cleanupFault env) :=
  Throws.after (setStage_throws _ _) fun _ => wrapping_throws _ (call_throws _ _)

theorem checkInfraTool_throws (env : Env) (tools : List ToolResult) :
    Throws (checkInfraTool env tools) ((infraTool tools).map (infraToolFailure env)) := by
  unfold checkInfraTool
  cases infraTool tools with
  | none => exact Throws.pure
  | some tool => exact Throws.raise

/-- **The publication raises what its call sites say**, from every state. -/
theorem publishAttempt_throws (env : Env) (inp : ExecuteInput) (e : Evaluated) :
    Throws (publishAttempt env inp e)
      (publishFault env inp e.attemptId (remappedTools env e)) :=
  Throws.bind (writeArtifacts_throws env inp e) fun _ =>
    Throws.bind (collectResults_throws env) fun _ =>
    Throws.bind (remapToolResults_throws env inp e) fun _ =>
    Throws.bind (cleanup_throws env) fun _ => checkInfraTool_throws env _

/-! ## The documents of an evaluated attempt -/

/-- The document at `path` records `a` as committed or evaluated. -/
def RecordedAt (path : Path) (a : String) (w : World) : Prop :=
  ∃ doc, w.files path = some doc ∧ doc.Records a

theorem RecordedAt.store {path path' : Path} {a : String} {w : World} {doc : Document}
    (hdoc : path' = path → doc.Records a) (h : RecordedAt path a w) :
    RecordedAt path a (w.store path' doc) := by
  obtain ⟨doc₀, hfile, hrec⟩ := h
  by_cases hp : path = path'
  · subst hp
    exact ⟨doc, w.store_files_self _ _, hdoc rfl⟩
  · exact ⟨doc₀, by rw [w.store_files_of_ne hp]; exact hfile, hrec⟩

/-- A copy onto the document itself, or elsewhere, leaves it there. -/
theorem RecordedAt.copy {path src dst : Path} {a : String} {w : World}
    (hdst : dst = path → src = path) (h : RecordedAt path a w) :
    RecordedAt path a (w.copy src dst) := by
  rcases w.copy_cases src dst with hcopy | ⟨doc, hdoc, hcopy⟩
  · rw [hcopy]
    exact h
  · rw [hcopy]
    refine h.store fun hp => ?_
    obtain ⟨doc₀, hfile, hrec⟩ := h
    rw [hdst hp, hfile] at hdoc
    exact Option.some.inj hdoc ▸ hrec

/-- An alias of a two-component path overwrites the attempt's `transaction.json`
only with itself. -/
theorem keeps_recorded_copyAliases {a : String} {site : Path → Site} {target : Path}
    {relatives : List Path} (hlen : ∀ relative ∈ relatives, relative.length = 2) :
    Keeps (RecordedAt (inp.transactionPath a) a)
      (copyAliases env inp a site target relatives) := by
  refine Keeps.forEach fun relative hrel => perform_keeps fun w h => h.copy fun hdst => ?_
  have hlength := hlen relative (List.mem_of_mem_filter hrel)
  obtain ⟨-, rfl⟩ := List.append_inj' hdst hlength
  rfl

theorem snapshotFiles_length {relative : Path} (h : relative ∈ snapshotFiles env) :
    relative.length = 2 := by
  simp only [snapshotFiles, List.mem_flatMap, List.mem_map] at h
  obtain ⟨name, -, source, -, rfl⟩ := h
  rfl

theorem aliasFiles_length {relative : Path} (h : relative ∈ aliasFiles) :
    relative.length = 2 := by
  simp only [aliasFiles, List.mem_cons, List.not_mem_nil, or_false] at h
  rcases h with rfl | rfl | rfl | rfl <;> rfl

/-- The transaction of an attempt carries its identity. -/
theorem EvaluatedFrom.transaction_attemptId {e : Evaluated} {p : Prepared} {ev : Evidence}
    (h : EvaluatedFrom env inp e p ev) : e.transaction.attemptId = some e.attemptId := by
  obtain ⟨-, job, hp⟩ := h.prepared
  rw [h.transaction, h.attemptId]
  show p.transaction.attemptId = _
  rw [hp]
  rfl

/-- The attempt's own transaction and pointer record it. -/
theorem EvaluatedFrom.records {e : Evaluated} {p : Prepared} {ev : Evidence}
    (h : EvaluatedFrom env inp e p ev) (hev : e.terminalStatus = .evaluated) :
    (Document.transaction e.transaction).Records e.attemptId ∧
      (Document.latestAttempt (latestAttempt env inp e)).Records e.attemptId ∧
      (Document.transaction (remappedTransaction env e)).Records e.attemptId := by
  have ht := h.transaction_attemptId
  have hterminal : e.transaction.terminalStatus = some .evaluated := by
    rw [h.transaction, ← hev, h.terminalStatus]
    rfl
  exact ⟨⟨ht, Or.inr hterminal⟩, ⟨rfl, hev⟩, ⟨ht, Or.inr hterminal⟩⟩

/-- **Once it landed, `transaction.json` stays.**  Whatever is raised after its
write, the document at its path records the attempt. -/
theorem publishAttempt_recorded {e : Evaluated}
    (htransaction : (Document.transaction e.transaction).Records e.attemptId)
    (hpointer : (Document.latestAttempt (latestAttempt env inp e)).Records e.attemptId)
    (hremapped : (Document.transaction (remappedTransaction env e)).Records e.attemptId)
    {w : World} (hlands : env.lands .writeTransaction = true) :
    RecordedAt (inp.transactionPath e.attemptId) e.attemptId (publishAttempt env inp e w).2 := by
  set I := RecordedAt (inp.transactionPath e.attemptId) e.attemptId with hI
  have hwrite : Spec (fun _ => True) (perform env .writeTransaction
      (·.store (inp.transactionPath e.attemptId) (.transaction e.transaction)))
      (fun _ => I) (fun _ => I) := by
    refine Spec.of_state fun w _ => ?_
    rw [perform_snd, if_pos hlands]
    exact ⟨_, w.store_files_self _ _, htransaction⟩
  have hcall : ∀ {site}, Keeps I (call env site) := Stable.keeps_call
  have hstage : ∀ {stage domain}, Keeps I (setStage stage domain) := Keeps.modify fun _ h => h
  have hself : ∀ {site dst}, Keeps I
      (perform env site (·.copy (inp.transactionPath e.attemptId) dst)) :=
    perform_keeps fun w h => h.copy fun _ => rfl
  have hspec : Spec (fun _ => True) (publishAttempt env inp e) (fun _ => I) (fun _ => I) := by
    refine Spec.bind (Q := fun _ => I) (Spec.bind hwrite fun _ => ?_) fun _ =>
      Keeps.bind ?_ fun _ => Keeps.bind ?_ fun _ => Keeps.bind ?_ fun _ => ?_
    · refine Keeps.bind (perform_keeps fun w h => h.store fun _ => hpointer) fun _ =>
        Keeps.bind (keeps_recorded_copyAliases fun _ => snapshotFiles_length) fun _ =>
        Keeps.bind (keeps_recorded_copyAliases fun _ => aliasFiles_length) fun _ => ?_
      cases inp.legacyArtifactPrefix with
      | none => exact Keeps.pure
      | some legacy => exact keeps_recorded_copyAliases fun _ => aliasFiles_length
    · exact Keeps.bind (Keeps.runIf hcall) fun _ => Keeps.bind hstage fun _ =>
        Stable.keeps_wrapping hcall
    · unfold remapToolResults
      cases env.remap with
      | none => exact Keeps.pure
      | some remap =>
        refine Stable.keeps_wrapping (Keeps.bind hcall fun _ => Keeps.bind
          (perform_keeps fun w h => h.store fun _ => hremapped) fun _ =>
          Keeps.bind hself fun _ => ?_)
        cases inp.legacyArtifactPrefix with
        | none => exact Keeps.pure
        | some legacy => exact hself
    · exact Keeps.bind hstage fun _ => Stable.keeps_wrapping hcall
    · unfold checkInfraTool
      cases infraTool (remappedTools env e) with
      | none => exact Keeps.pure
      | some tool => exact Keeps.raise
  exact hspec.state trivial

/-- The documents of an attempt that was not evaluated record nothing. -/
theorem EvaluatedFrom.not_records {e : Evaluated} {p : Prepared} {ev : Evidence}
    (h : EvaluatedFrom env inp e p ev) (hev : e.terminalStatus ≠ .evaluated) (a : String) :
    ¬ (Document.transaction e.transaction).Records a ∧
      ¬ (Document.latestAttempt (latestAttempt env inp e)).Records a ∧
      ¬ (Document.transaction (remappedTransaction env e)).Records a := by
  have hstatus : e.transaction.status ≠ .committed := by
    cases hacc : e.decision.accepted with
    | true => exact absurd (h.terminalStatus_of_accepted hacc) hev
    | false => exact h.status_of_refused hacc
  have hterminal : e.transaction.terminalStatus ≠ some .evaluated := by
    rw [h.transaction]
    show some ev.terminalStatus ≠ _
    rw [← h.terminalStatus]
    simpa using hev
  have ht : ¬ (Document.transaction e.transaction).Records a :=
    fun hrec => hrec.2.elim hstatus hterminal
  exact ⟨ht, fun hrec => hev hrec.2, ht⟩

/-- They record no other attempt either. -/
theorem EvaluatedFrom.not_records_of_ne {e : Evaluated} {p : Prepared} {ev : Evidence}
    (h : EvaluatedFrom env inp e p ev) {a : String} (ha : a ≠ e.attemptId) :
    ¬ (Document.transaction e.transaction).Records a ∧
      ¬ (Document.latestAttempt (latestAttempt env inp e)).Records a ∧
      ¬ (Document.transaction (remappedTransaction env e)).Records a := by
  have ht : ¬ (Document.transaction e.transaction).Records a := by
    rintro ⟨hrec, -⟩
    rw [h.transaction_attemptId] at hrec
    exact ha (Option.some.inj hrec).symm
  exact ⟨ht, fun hrec => ha hrec.1.symm, ht⟩

/-! ## Late failures -/

/-- The decorator writes a failure row for `a` when `exc` reaches it. -/
def FailureRecorded (env : Env) (a : String) (exc : PyExc) : Prop :=
  Classifies env exc ∧ (normalizedExc env exc).isCancellation = false ∧
    env.lands (.appendJsonl a "ATTEMPT_TERMINAL") = true

/-- **A late failure**: an attempt is evaluated, its `transaction.json` lands,
and a call after that raises what the decorator records as a failure. -/
def LateFailure (env : Env) (inp : ExecuteInput) (w : World) : Prop :=
  ∃ e w₁, evaluateAttempt env inp { w with active := none } = (.ok e, w₁) ∧
    e.terminalStatus = .evaluated ∧ env.lands .writeTransaction = true ∧
    ∃ exc, publishFault env inp e.attemptId (remappedTools env e) = some exc ∧
      FailureRecorded env e.attemptId exc

/-- The view the handler leaves when the ledger of `a` is open. -/
theorem view_accountFailure {α : Type} {w : World} {a : String}
    (hopen : w.view.active = some (a, false)) (exc : PyExc) :
    (Classifies env exc ∧ (accountFailure (α := α) env exc w).2.view =
      w.view.close env a (failureStatus (normalizedExc env exc))) ∨
    (¬ Classifies env exc ∧ (accountFailure (α := α) env exc w).2.view = w.view) := by
  obtain ⟨l, hl, hpair⟩ := Option.map_eq_some_iff.1 hopen
  obtain ⟨rfl, hwritten⟩ := Prod.mk.inj hpair
  by_cases hc : Classifies env exc
  · refine Or.inl ⟨hc, ?_⟩
    have hclose := view_terminal env hopen (failureStatus (normalizedExc env exc))
      (failureDetails l (normalizedExc env exc))
    unfold accountFailure
    simp only [bind_apply, classifyStorage_of_classifies hc, gets_apply, hl, hwritten,
      Bool.false_eq_true, if_false]
    rcases hrun : terminal env (failureStatus (normalizedExc env exc))
      (failureDetails l (normalizedExc env exc)) w with ⟨exc' | _, w'⟩
    · rw [hrun] at hclose
      exact hclose
    · rw [hrun] at hclose
      exact hclose
  · obtain ⟨exc', hraise⟩ := classifyStorage_of_not_classifies hc w
    refine Or.inr ⟨hc, ?_⟩
    unfold accountFailure
    simp only [bind_apply, hraise]

/-! ## The whole execution -/

/-- The part of `execute` inside the decorator's context. -/
def decorated (env : Env) (inp : ExecuteInput) : Exec TransactionExecutionResult :=
  tryCatch (accountReturn env (executeBody env inp)) (accountFailure env)

theorem execute_events (w : World) :
    (execute env inp w).2.events = (decorated env inp { w with active := none }).2.events := rfl

/-- A run that raises in the body ends in the handler. -/
theorem decorated_of_error {w w' : World} {exc : PyExc}
    (hrun : executeBody env inp w = (.error exc, w')) :
    decorated env inp w = accountFailure env exc w' := by
  simp [decorated, ExcState.tryCatch, accountReturn, hrun]

/-- What holds where the body ends holds where the decorated run ends, if
`terminal` keeps it. -/
theorem decorated_of_body {I : World → Prop} {w : World}
    (hterminal : ∀ status details, Keeps I (terminal env status details))
    (hbody : I (executeBody env inp w).2) : I (decorated env inp w).2 := by
  rcases hrun : executeBody env inp w with ⟨exc | r, w'⟩
  · rw [hrun] at hbody
    rw [decorated_of_error hrun]
    exact (Stable.keeps_accountFailure hterminal).state hbody
  · rw [hrun] at hbody
    have hdecorated : decorated env inp w =
        tryCatch (requireTerminal env r) (accountFailure env) w' := by
      simp only [decorated, ExcState.tryCatch, accountReturn, bind_apply, hrun]
    rw [hdecorated]
    exact (Keeps.tryCatch (Stable.keeps_requireTerminal hterminal) fun _ =>
      Stable.keeps_accountFailure hterminal).state hbody

/-- **Frame**: an execution moves no milestone of an attempt that is not its own. -/
theorem execute_milestones_of_ne {a : String} (ha : ∀ n, a ≠ env.newAttemptId n) (w : World) :
    milestones a (execute env inp w).2.events = milestones a w.events := by
  have hstable := stable_untouched a (milestones a w.events)
  have hbody : Keeps (Untouched a (milestones a w.events)) (executeBody env inp) := by
    refine Keeps.bind (hstable.keeps_evaluateAttempt
      (fun n _ _ _ _ => keeps_untouched_newLedger (ha n)) (fun _ _ => keeps_untouched_terminal)
      trivial (fun _ => trivial) fun _ => trivial) fun e => ?_
    exact Keeps.bind (hstable.keeps_publishAttempt trivial trivial trivial) fun _ =>
      Keeps.bind keeps_untouched_terminal fun _ => Keeps.pure
  rw [execute_events]
  exact (decorated_of_body (fun _ _ => keeps_untouched_terminal)
    (hbody.state (s := { w with active := none }) ⟨rfl, fun flag hflag => by cases hflag⟩)).1

/-- Before the publication nothing is recorded about any attempt. -/
theorem keeps_clean_evaluateAttempt (a : String) : Keeps (Clean a) (evaluateAttempt env inp) := by
  refine (stable_clean a).keeps_evaluateAttempt (fun _ _ _ _ _ => keeps_clean_newLedger)
    (fun _ _ => keeps_clean_terminal) (fun h => h) (fun t => ?_) fun v h => h
  rintro ⟨-, hstatus | hterminal⟩
  · cases hstatus
  · cases hterminal

/-- An attempt that is clean at first stays clean through an execution that does
not publish it as evaluated. -/
theorem clean_execute {a : String} {w : World} (hclean : Clean a w)
    (hother : ∀ e w₁, evaluateAttempt env inp { w with active := none } = (.ok e, w₁) →
      e.terminalStatus = .evaluated → a ≠ e.attemptId) : Clean a (execute env inp w).2 := by
  have hclean₀ : Clean a { w with active := none } := hclean
  refine decorated_of_body (I := Clean a) (fun _ _ => keeps_clean_terminal) ?_
  rcases hrun : evaluateAttempt env inp { w with active := none } with ⟨exc | e, w₁⟩
  · simp only [executeBody, bind_apply, hrun]
    exact (keeps_clean_evaluateAttempt a).error hclean₀ hrun
  · have hclean₁ := (keeps_clean_evaluateAttempt a).ok hclean₀ hrun
    obtain ⟨p, ev, hfrom⟩ := evaluateAttempt_yields _ _ _ hrun
    have hdocs : ¬ (Document.transaction e.transaction).Records a ∧
        ¬ (Document.latestAttempt (latestAttempt env inp e)).Records a ∧
        ¬ (Document.transaction (remappedTransaction env e)).Records a := by
      by_cases hev : e.terminalStatus = .evaluated
      · exact hfrom.not_records_of_ne (hother e w₁ hrun hev)
      · exact hfrom.not_records hev a
    have hrest : Keeps (Clean a) (publishAttempt env inp e >>= fun _ =>
        terminal env e.terminalStatus (publishedDetails env e) >>= fun _ =>
        pure (resultOf env e)) :=
      Keeps.bind ((stable_clean a).keeps_publishAttempt hdocs.1 hdocs.2.1 hdocs.2.2) fun _ =>
        Keeps.bind keeps_clean_terminal fun _ => Keeps.pure
    have hbody : executeBody env inp { w with active := none } =
        (publishAttempt env inp e >>= fun _ =>
          terminal env e.terminalStatus (publishedDetails env e) >>= fun _ =>
          pure (resultOf env e)) w₁ := by
      simp only [executeBody, bind_apply, hrun]
    rw [hbody]
    exact hrest.state hclean₁

/-- A `transaction.json` whose write does not land leaves everything as it was. -/
theorem publishAttempt_of_not_lands (inp : ExecuteInput) (e : Evaluated)
    (h : env.lands .writeTransaction = false)
    (w : World) : (publishAttempt env inp e w).2 = w := by
  unfold Env.lands at h
  cases hfault : env.fault .writeTransaction with
  | none => rw [hfault] at h; cases h
  | some f =>
    rw [hfault] at h
    change f.landed = false at h
    have hwrite : ∀ effect, perform env .writeTransaction effect w = (.error f.exc, w) := by
      intro effect
      simp only [perform, hfault, h, Bool.false_eq_true, if_false]
    simp [publishAttempt, writeArtifacts, hwrite]

theorem keeps_recorded_terminal {path : Path} {a : String} {status : AttemptTerminalStatus}
    {details : TerminalDetails} : Keeps (RecordedAt path a) (terminal env status details) := by
  refine Keeps.of_state fun w h => ?_
  unfold RecordedAt
  rw [terminal_files]
  exact h

/-- A late failure of the attempt that was evaluated. -/
theorem lateFailure_iff {w w₁ : World} {e : Evaluated}
    (hrun : evaluateAttempt env inp { w with active := none } = (.ok e, w₁))
    (hev : e.terminalStatus = .evaluated) :
    LateFailure env inp w ↔ env.lands .writeTransaction = true ∧
      ∃ exc, publishFault env inp e.attemptId (remappedTools env e) = some exc ∧
        FailureRecorded env e.attemptId exc := by
  constructor
  · rintro ⟨e', w', hrun', -, hlate⟩
    rw [hrun] at hrun'
    obtain rfl := Except.ok.inj (Prod.mk.inj hrun').1
    exact hlate
  · exact fun hlate => ⟨e, w₁, hrun, hev, hlate⟩

/-- The evaluated attempt starts its publication with its ledger open. -/
theorem opened_of_evaluateAttempt {w w₁ : World} {e : Evaluated}
    (hids : env.newAttemptId 1 ≠ env.newAttemptId 0)
    (hfresh : ∀ n, ∀ e ∈ w.events, e.attemptId ≠ env.newAttemptId n)
    (hrun : evaluateAttempt env inp { w with active := none } = (.ok e, w₁)) :
    w₁.view.active = some (e.attemptId, false) ∧
      w₁.view.milestones e.attemptId = [.claimed, .registered] := by
  have hspec := evaluateAttempt_spec inp (F := ∅)
    (v := World.view { w with active := none }) (fun a ha => by cases ha)
    (fun a ha => by cases ha) (fun n => milestones_eq_nil (hfresh n)) hids
  exact (hspec.ok rfl hrun).1.2

theorem mem_closing_iff {a : String} {status : AttemptTerminalStatus} :
    Milestone.terminal .executionFailure ∈ [.claimed, .registered] ++ closing env a status ↔
      env.lands (.appendJsonl a "ATTEMPT_TERMINAL") = true ∧ status = .executionFailure := by
  unfold closing
  cases env.lands (.appendJsonl a "ATTEMPT_TERMINAL") <;> cases status <;> simp

/-- The handler leaves a failure row for the open attempt exactly when it
records the exception as one. -/
theorem failed_accountFailure_iff {α : Type} {w : World} {a : String}
    (hopen : w.view.active = some (a, false))
    (hms : w.view.milestones a = [.claimed, .registered]) (exc : PyExc) :
    Failed a (accountFailure (α := α) env exc w).2 ↔ FailureRecorded env a exc := by
  have hfailed : ∀ w' : World, Failed a w' ↔
      .terminal .executionFailure ∈ w'.view.milestones a := fun _ => Iff.rfl
  rw [hfailed]
  rcases view_accountFailure (α := α) hopen exc with ⟨hc, hview⟩ | ⟨hc, hview⟩
  · have hstatus : failureStatus (normalizedExc env exc) = .executionFailure ↔
        (normalizedExc env exc).isCancellation = false := by
      unfold failureStatus
      cases (normalizedExc env exc).isCancellation <;> simp
    rw [hview, LedgerView.close, LedgerView.withActive_milestones, LedgerView.add_milestones_self,
      hms, mem_closing_iff, hstatus]
    exact ⟨fun h => ⟨hc, h.2, h.1⟩, fun h => ⟨h.2.2, h.2.1⟩⟩
  · rw [hview, hms]
    exact ⟨fun h => by simp at h, fun h => absurd h.1 hc⟩

/-- The fate of an evaluated attempt's own ledger row and artifacts. -/
theorem agree_own_attempt {w w₁ : World} {e : Evaluated}
    (hids : env.newAttemptId 1 ≠ env.newAttemptId 0)
    (hfresh : ∀ n, ∀ e ∈ w.events, e.attemptId ≠ env.newAttemptId n)
    (hclean : Clean e.attemptId w)
    (hrun : evaluateAttempt env inp { w with active := none } = (.ok e, w₁))
    (hev : e.terminalStatus = .evaluated) :
    (Failed e.attemptId (execute env inp w).2 → Clean e.attemptId (execute env inp w).2) ↔
      ¬ LateFailure env inp w := by
  obtain ⟨hopen, hms⟩ := opened_of_evaluateAttempt hids hfresh hrun
  have hthrows := publishAttempt_throws env inp e w₁
  have hview : (publishAttempt env inp e w₁).2.view = w₁.view :=
    ((stable_view w₁.view).keeps_publishAttempt trivial trivial trivial).state rfl
  rw [lateFailure_iff hrun hev]
  show (Failed e.attemptId (decorated env inp { w with active := none }).2 →
    Clean e.attemptId (decorated env inp { w with active := none }).2) ↔ _
  rcases hpub : publishAttempt env inp e w₁ with ⟨exc | _, w₂⟩
  · rw [hpub] at hthrows hview
    change some exc = _ at hthrows
    change w₂.view = w₁.view at hview
    rw [← hview] at hopen hms
    have hbody : executeBody env inp { w with active := none } = (.error exc, w₂) := by
      simp [executeBody, hrun, hpub]
    rw [decorated_of_error hbody, failed_accountFailure_iff hopen hms, ← hthrows]
    have hclean₁ : Clean e.attemptId w₁ :=
      (keeps_clean_evaluateAttempt e.attemptId).ok (s := { w with active := none }) hclean hrun
    cases hlands : env.lands .writeTransaction with
    | false =>
      -- the write raised and nothing landed: no artifact exists
      have hstate := publishAttempt_of_not_lands inp e hlands w₁
      rw [hpub] at hstate
      obtain rfl : w₂ = w₁ := hstate
      exact ⟨fun _ h => absurd h.1 (by simp), fun _ _ =>
        (Stable.keeps_accountFailure fun _ _ => keeps_clean_terminal).state hclean₁⟩
    | true =>
      obtain ⟨p, ev, hfrom⟩ := evaluateAttempt_yields _ _ _ hrun
      obtain ⟨htransaction, hpointer, hremapped⟩ := hfrom.records hev
      have hrec := publishAttempt_recorded htransaction hpointer hremapped hlands (w := w₁)
      rw [hpub] at hrec
      have hfinal : RecordedAt (inp.transactionPath e.attemptId) e.attemptId
          (accountFailure (α := TransactionExecutionResult) env exc w₂).2 :=
        (Stable.keeps_accountFailure fun _ _ => keeps_recorded_terminal).state hrec
      obtain ⟨doc, hfile, hdoc⟩ := hfinal
      constructor
      · rintro h ⟨-, exc', hexc, hrecorded⟩
        obtain rfl := Option.some.inj hexc
        exact h hrecorded _ doc hfile hdoc
      · exact fun h hrecorded => absurd ⟨rfl, exc, rfl, hrecorded⟩ h
  · rw [hpub] at hthrows hview
    change none = _ at hthrows
    change w₂.view = w₁.view at hview
    rw [← hview] at hopen hms
    -- nothing raised before the terminal row: the ledger is closed as evaluated
    set v := w₂.view.close env e.attemptId e.terminalStatus with hv
    have hidle : v.Idle := fun b hb => by simp [hv, LedgerView.close] at hb
    have hkeeps : ∀ status details,
        Keeps (fun w => w.view = v) (terminal env status details) := by
      intro status details
      refine Keeps.of_state fun w hw => ?_
      rcases view_terminal_cases env status details w with h | ⟨b, hb, -⟩
      · exact h.trans hw
      · exact absurd (hw ▸ hb) (hidle b)
    have hbody : (executeBody env inp { w with active := none }).2.view = v := by
      have hterminal := view_terminal env hopen e.terminalStatus (publishedDetails env e)
      simp only [executeBody, bind_apply, hrun, hpub]
      rcases hrun₃ : terminal env e.terminalStatus (publishedDetails env e) w₂ with ⟨exc' | _, w₃⟩
      · rw [hrun₃] at hterminal
        exact hterminal
      · rw [hrun₃] at hterminal
        exact hterminal
    have hfinal := decorated_of_body (I := fun w => w.view = v) hkeeps hbody
    refine ⟨fun _ h => ?_, fun _ hfailed => ?_⟩
    · obtain ⟨-, exc, hexc, -⟩ := h
      rw [← hthrows] at hexc
      cases hexc
    · change .terminal .executionFailure ∈ (decorated env inp
        { w with active := none }).2.view.milestones e.attemptId at hfailed
      rw [hfinal, hv, LedgerView.close, LedgerView.withActive_milestones,
        LedgerView.add_milestones_self, hms, mem_closing_iff, hev] at hfailed
      cases hfailed.2

/-- **Agreement, exactly.**  Started from an agreeing state with fresh attempt
identities, an execution ends in agreement if and only if it is not a late
failure. -/
theorem execute_agree_iff (env : Env) (inp : ExecuteInput) (w : World)
    (hids : env.newAttemptId 1 ≠ env.newAttemptId 0)
    (hfresh : ∀ n, ∀ e ∈ w.events, e.attemptId ≠ env.newAttemptId n)
    (hclean : ∀ n, Clean (env.newAttemptId n) w) (hagree : Agree w) :
    Agree (execute env inp w).2 ↔ ¬ LateFailure env inp w := by
  -- whoever has a failure row afterwards was clean before
  have hbefore : ∀ a, Failed a (execute env inp w).2 → Clean a w := by
    intro a hfailed
    by_cases ha : ∃ n, a = env.newAttemptId n
    · obtain ⟨n, rfl⟩ := ha
      exact hclean n
    · refine hagree a ?_
      unfold Failed at hfailed
      rwa [execute_milestones_of_ne (fun n hn => ha ⟨n, hn⟩)] at hfailed
  by_cases hpub : ∃ e w₁, evaluateAttempt env inp { w with active := none } = (.ok e, w₁) ∧
      e.terminalStatus = .evaluated
  · obtain ⟨e, w₁, hrun, hev⟩ := hpub
    have hsame : ∀ e' w', evaluateAttempt env inp { w with active := none } = (.ok e', w') →
        e' = e := by
      intro e' w' hrun'
      rw [hrun] at hrun'
      exact (Except.ok.inj (Prod.mk.inj hrun').1).symm
    obtain ⟨p, ev, hfrom⟩ := evaluateAttempt_yields _ _ _ hrun
    obtain ⟨n, hn⟩ := hfrom.prepared.1
    have hclean_e : Clean e.attemptId w := by
      rw [hfrom.attemptId, hn]
      exact hclean n
    rw [← agree_own_attempt hids hfresh hclean_e hrun hev]
    refine ⟨fun h => h e.attemptId, fun h a hfailed => ?_⟩
    by_cases ha : a = e.attemptId
    · subst ha
      exact h hfailed
    · refine clean_execute (hbefore a hfailed) fun e' w' hrun' _ => ?_
      rw [hsame e' w' hrun']
      exact ha
  · refine ⟨fun _ hlate => ?_, fun _ a hfailed => ?_⟩
    · obtain ⟨e, w₁, hrun, hev, -⟩ := hlate
      exact hpub ⟨e, w₁, hrun, hev⟩
    · exact clean_execute (hbefore a hfailed) fun e w₁ hrun hev => absurd ⟨e, w₁, hrun, hev⟩ hpub

/-- The sample execution, with an `OSError` of `collect_results`. -/
def lateFailureEnv : Env :=
  { sampleEnv with fault := fun site =>
      match site with
      | .collectResults => some ⟨.builtin .osError "OSError" "disk", false⟩
      | _ => none }

/-- The ledger says `EXECUTION_FAILURE`, the persisted transaction `COMMITTED`
and `EVALUATED`. -/
theorem late_failure_disagrees :
    Failed "attempt_a" (execute lateFailureEnv sampleInput {}).2 ∧
      (∃ t, (execute lateFailureEnv sampleInput {}).2.files
          ["artifacts", "attempts", "attempt_a", "transaction", "transaction.json"] =
        some (.transaction t) ∧ t.attemptId = some "attempt_a" ∧ t.status = .committed ∧
        t.terminalStatus = some .evaluated) ∧
      ¬ Agree (execute lateFailureEnv sampleInput {}).2 := by
  have hfailed : Failed "attempt_a" (execute lateFailureEnv sampleInput {}).2 := by
    unfold Failed
    decide
  have hfile : ∃ t, (execute lateFailureEnv sampleInput {}).2.files
      ["artifacts", "attempts", "attempt_a", "transaction", "transaction.json"] =
        some (.transaction t) ∧ t.attemptId = some "attempt_a" ∧ t.status = .committed ∧
        t.terminalStatus = some .evaluated := ⟨_, rfl, rfl, rfl, rfl⟩
  refine ⟨hfailed, hfile, fun hagree => ?_⟩
  obtain ⟨t, hfile, hid, hstatus, -⟩ := hfile
  exact hagree "attempt_a" hfailed _ _ hfile ⟨hid, Or.inl hstatus⟩

/-- The sample execution itself ends in agreement. -/
theorem execute_agree_iff_sample : Agree (execute sampleEnv sampleInput {}).2 := by
  refine (execute_agree_iff sampleEnv sampleInput {} (by decide) (fun _ _ h => by cases h)
    (fun _ _ _ h => by cases h) (fun _ _ _ _ h => by cases h)).2 ?_
  rintro ⟨e, w₁, hrun, -, -, exc, hexc, -⟩
  have hfault : (evaluateAttempt sampleEnv sampleInput {}).1.toOption.map (fun e =>
      publishFault sampleEnv sampleInput e.attemptId (remappedTools sampleEnv e)) =
      some none := by decide
  rw [show evaluateAttempt sampleEnv sampleInput {} = (.ok e, w₁) from hrun] at hfault
  have hnone : publishFault sampleEnv sampleInput e.attemptId (remappedTools sampleEnv e) = none :=
    Option.some.inj hfault
  rw [hnone] at hexc
  cases hexc

end DRCAgent
