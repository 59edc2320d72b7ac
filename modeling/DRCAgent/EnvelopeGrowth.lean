/-
# Authorized envelopes only grow

Every accepted resume request of a run, in any order and with any manifests and
checkpoints in between, either leaves the continuation journal alone or appends one
record to it. Where the request does not ask for nan seconds, the record raises at least one
limit of the envelope in force and lowers none, so the envelope in force only grows, and a
limit that does not exist is never introduced (`authorized_envelope_grows`). A request for
nan seconds is admitted, and raises nothing (`nan_raises_nothing`).

The iteration ceiling of a record is at most `MAX_CONTINUATION_ITERATIONS`. A run may
be started above it, and then keeps what it was started with.
-/
import DRCAgent.ContinuationCrash
import DRCAgent.Workflow

namespace DRCAgent

open List Option Runs

/-! ## The order of envelopes -/

/-- Floats by size: nan is neither above nor below a number. -/
instance : PartialOrder PyFloat where
  le x y := x = y ∨ x.le y = true
  le_refl _ := Or.inl rfl
  le_trans := by
    rintro x y z (rfl | hxy) (rfl | hyz)
    · exact Or.inl rfl
    · exact Or.inr hyz
    · exact Or.inr hxy
    · refine Or.inr ?_
      cases x <;> cases y <;> cases z <;> simp only [PyFloat.le, decide_eq_true_eq, reduceCtorEq]
        at hxy hyz ⊢
      exact hxy.trans hyz
  le_antisymm := by
    rintro x y (rfl | hxy) (hyx | hyx)
    · rfl
    · rfl
    · exact hyx.symm
    · cases x <;> cases y <;> simp only [PyFloat.le, decide_eq_true_eq, reduceCtorEq] at hxy hyx
      rw [hxy.antisymm hyx]

/-- A limit is kept or raised, and neither introduced nor lifted. -/
def LimitLe {α : Type} [LE α] : Option α → Option α → Prop
  | none, none => True
  | some old, some new => old ≤ new
  | _, _ => False

section Limits

variable {α : Type} [PartialOrder α] {x y z : Option α}

theorem LimitLe.refl (x : Option α) : LimitLe x x := by
  cases x with
  | none => trivial
  | some a => exact le_refl a

theorem LimitLe.trans (hxy : LimitLe x y) (hyz : LimitLe y z) : LimitLe x z := by
  cases x <;> cases y <;> cases z <;> simp only [LimitLe] at hxy hyz ⊢
  exact le_trans hxy hyz

theorem LimitLe.antisymm (hxy : LimitLe x y) (hyx : LimitLe y x) : x = y := by
  cases x <;> cases y <;> simp only [LimitLe] at hxy hyx
  · rfl
  · rw [le_antisymm hxy hyx]

/-- A limit that is kept or raised does not decrease, where values that are not at most the
old one are above it. -/
theorem limitLe_of_keptOrRaised {eq le : α → α → Bool} (heq : ∀ a b, eq a b = true → a = b)
    (hle : ∀ a b, x = some a → y = some b → le b a = false → a ≤ b)
    (h : keptOrRaised eq le x y = true) : LimitLe x y := by
  cases x with
  | none =>
    cases y with
    | none => trivial
    | some _ => cases h
  | some a =>
    cases y with
    | none => cases h
    | some b =>
      rw [keptOrRaised, Bool.or_eq_true, Bool.not_eq_true'] at h
      rcases h with h | h
      · exact (heq b a h).ge
      · exact hle a b rfl rfl h

end Limits

/-- Integers that are raised. -/
theorem limitLe_of_raised {x y : Option ℤ} (h : keptOrRaised (· = ·) (· ≤ ·) x y = true) :
    LimitLe x y := by
  refine limitLe_of_keptOrRaised (fun _ _ => of_decide_eq_true) ?_ h
  intro a b _ _ hraised
  exact (not_le.1 (of_decide_eq_false hraised)).le

/-- Numbers of seconds that are raised. -/
theorem limitLe_of_raised_float {x y : Option PyFloat} (hx : x ≠ some .nan) (hy : y ≠ some .nan)
    (h : keptOrRaised PyFloat.eq PyFloat.le x y = true) : LimitLe x y := by
  refine limitLe_of_keptOrRaised (fun _ _ heq => (PyFloat.eq_iff.1 heq).1) ?_ h
  rintro a b rfl rfl hraised
  cases a with
  | nan => exact absurd rfl hx
  | number a =>
    cases b with
    | nan => exact absurd rfl hy
    | number b => exact Or.inr (decide_eq_true (not_le.1 (of_decide_eq_false hraised)).le)

/-- No component of the envelope decreases. -/
structure ExecutionEnvelope.Le (old new : ExecutionEnvelope) : Prop where
  iterations : old.maxIterations ≤ new.maxIterations
  http : LimitLe old.maxHttpAttemptsPerRun new.maxHttpAttemptsPerRun
  eda : LimitLe old.maxEdaEvaluationsPerRun new.maxEdaEvaluationsPerRun
  seconds : LimitLe old.wholeRunBudgetSeconds new.wholeRunBudgetSeconds

instance : PartialOrder ExecutionEnvelope where
  le := ExecutionEnvelope.Le
  le_refl e := ⟨le_rfl, LimitLe.refl _, LimitLe.refl _, LimitLe.refl _⟩
  le_trans _ _ _ h h' :=
    ⟨h.iterations.trans h'.iterations, h.http.trans h'.http, h.eda.trans h'.eda,
      h.seconds.trans h'.seconds⟩
  le_antisymm e e' h h' := by
    cases e
    cases e'
    have hiterations := le_antisymm h.iterations h'.iterations
    have hhttp := h.http.antisymm h'.http
    have heda := h.eda.antisymm h'.eda
    have hseconds := h.seconds.antisymm h'.seconds
    simp only at hiterations hhttp heda hseconds
    rw [hiterations, hhttp, heda, hseconds]

/-- An envelope that may be authorized is a larger one. -/
theorem lt_of_admitNewEnvelope {req : ResumeRequest} {status : String} {completed : ℕ}
    {current requested : ExecutionEnvelope} (hcurrent : current.Numeric)
    (hrequested : requested.Numeric)
    (h : admitNewEnvelope req status completed current requested = .ok ⟨⟩) : current < requested := by
  unfold admitNewEnvelope at h
  obtain ⟨_, hraised, h⟩ := except_bind_ok h
  obtain ⟨_, hlimit, h⟩ := except_bind_ok h
  rw [require_eq_ok] at hraised hlimit
  have hle : current ≤ requested :=
    ⟨hlimit, limitLe_of_raised hraised.1, limitLe_of_raised hraised.2.1,
      limitLe_of_raised_float hcurrent hrequested hraised.2.2⟩
  have hdiffers : requested.eq current = false := by
    split_ifs at h
    · obtain ⟨_, -, h⟩ := except_bind_ok h
      obtain ⟨_, -, h⟩ := except_bind_ok h
      exact require_eq_ok.1 h
    · obtain ⟨_, -, h⟩ := except_bind_ok h
      obtain ⟨_, -, h⟩ := except_bind_ok h
      exact require_eq_ok.1 h
  refine lt_of_le_of_ne hle ?_
  rintro rfl
  rw [ExecutionEnvelope.eq_iff.2 ⟨rfl, hcurrent⟩] at hdiffers
  cases hdiffers

/-! ## The calls on a run -/

/-- What is known of the compiled functions: the journal of a new run, and a record that
carries what it was made of, under the hashes of what it holds. -/
structure JournalContract (env : ResumeEnv) (recordHash : ContinuationRecord → String) : Prop
    extends ContinuationContract env where
  read_nil : env.readContinuationRecords [] = .ok []
  authorized_nil : ∀ initial : ExecutionEnvelope, env.authorizedEnvelope initial [] = initial
  made : ∀ {request : RecordRequest} {record : ContinuationRecord},
    env.makeContinuationRecord request = .ok record →
    record.priorStatus = request.priorStatus ∧
      record.completedIterations = request.completedIterations ∧
      record.nextIteration = request.completedIterations + 1 ∧
      record.oldEnvelope = request.currentEnvelope ∧
      record.oldEnvelopeHash = env.envelopeHash record.oldEnvelope ∧
      record.newEnvelopeHash = env.envelopeHash record.newEnvelope ∧
      record.amendmentFields = amendedFields record.oldEnvelope record.newEnvelope ∧
      record.recordHash = recordHash record

/-- One call of `resume`, with what it finds in the run directory beside the journal. -/
structure ResumeCall where
  request : ResumeRequest
  manifest : Manifest
  checkpoints : List StoredCheckpoint

/-- The seconds that are asked for, if any, are a number. -/
def ResumeRequest.AsksNumber (req : ResumeRequest) : Prop :=
  req.extendWholeRunBudgetSeconds ≠ some .nan

/-- The journal after a call that returned. -/
def ResumeOutcome.journalAfter (journal : List ContinuationRecord) :
    ResumeOutcome → List ContinuationRecord
  | execute l => l.journal
  | verifiedResumable => journal
  | continuationAlreadyApplied => journal

/-- The accepted calls on a run that was started with `initial`. The manifest keeps the
initial envelope; everything else in it, and the checkpoints, may have changed since the
last call. A call may die right behind its append. -/
inductive ResumeStep (env : ResumeEnv) (initial : ExecutionEnvelope) :
    List ContinuationRecord → ResumeCall → List ContinuationRecord → Prop
  | returns {journal : List ContinuationRecord} {call : ResumeCall} {outcome : ResumeOutcome}
      (hinitial : call.manifest.continuation.initialExecutionEnvelope = initial)
      (h : resumeP5 env call.request call.manifest call.checkpoints journal = .ok outcome) :
      ResumeStep env initial journal call (outcome.journalAfter journal)
  | dies {journal journal' : List ContinuationRecord} {call : ResumeCall} {a : Admission}
      {record : ContinuationRecord}
      (hinitial : call.manifest.continuation.initialExecutionEnvelope = initial)
      (h : Appended env call.request call.manifest call.checkpoints journal a record journal') :
      ResumeStep env initial journal call journal'

section Calls

variable {env : ResumeEnv} {recordHash : ContinuationRecord → String}
  {initial : ExecutionEnvelope} {journal journal' : List ContinuationRecord} {call : ResumeCall}
  {records : List ContinuationRecord}

/-- The initial envelope of a binding is the manifest's, and has a number of seconds. -/
theorem initialEnvelope_of_bindRun {m : Manifest} {b : RunBinding} (h : bindRun env m = .ok b) :
    b.initialEnvelope = m.continuation.initialExecutionEnvelope ∧
      m.continuation.initialExecutionEnvelope.Numeric := by
  have hidentity := (bindRun_eq_ok h).1
  unfold bindRun at h
  obtain ⟨⟨presetName, config⟩, -, h⟩ := except_bind_ok h
  obtain ⟨supplied, -, h⟩ := except_bind_ok h
  obtain ⟨_, -, h⟩ := except_bind_ok h
  obtain ⟨_, -, h⟩ := except_bind_ok h
  obtain ⟨_, -, h⟩ := except_bind_ok h
  obtain ⟨inputs, -, h⟩ := except_bind_ok h
  obtain ⟨_, -, h⟩ := except_bind_ok h
  obtain ⟨_, -, h⟩ := except_bind_ok h
  obtain ⟨digest, -, h⟩ := except_bind_ok h
  obtain ⟨_, -, h⟩ := except_bind_ok h
  obtain rfl := Except.ok.inj h
  obtain ⟨hsame, hnumeric⟩ := ExecutionEnvelope.eq_iff.1 hidentity.2.2.2.2.2.2.1
  exact ⟨hsame.symm, hnumeric⟩

theorem journalAfter_of_launch {m : Manifest} {a : Admission} {appended : Option ContinuationRecord}
    {envelope : ExecutionEnvelope} {epoch : Option String} {outcome : ResumeOutcome}
    (h : launch env m a appended journal' records envelope epoch = .ok outcome) :
    outcome.journalAfter journal = journal' := by
  unfold launch at h
  obtain ⟨config, -, h⟩ := except_bind_ok h
  obtain ⟨_, -, h⟩ := except_bind_ok h
  obtain rfl := Except.ok.inj h
  rfl

/-- A call changes the journal only by the record of an admitted request. -/
theorem ResumeStep.cases (h : ResumeStep env initial journal call journal') :
    journal' = journal ∨ ∃ a request record,
      call.manifest.continuation.initialExecutionEnvelope = initial ∧
      Admitted env call.request call.manifest call.checkpoints journal a ∧
      authorizationRequest env call.request call.manifest a = some request ∧
      appendAuthorization env request journal = .ok (record, journal') := by
  cases h with
  | returns hinitial h =>
    unfold resumeP5 at h
    obtain ⟨a, ha, h⟩ := except_bind_ok h
    split_ifs at h
    · obtain rfl := Except.ok.inj h
      exact .inl rfl
    · obtain rfl := Except.ok.inj h
      exact .inl rfl
    · unfold authorizeAndLaunch at h
      obtain ⟨_, -, h⟩ := except_bind_ok h
      split at h
      · rename_i request hrequest
        obtain ⟨⟨record, appended⟩, happend, h⟩ := except_bind_ok h
        rw [journalAfter_of_launch h]
        exact .inr ⟨a, request, record, hinitial, admitResume_eq_ok.1 ha, hrequest, happend⟩
      · exact .inl (journalAfter_of_launch h)
  | dies hinitial h =>
    obtain ⟨request, hrequest, happend⟩ := h.appended
    exact .inr ⟨_, request, _, hinitial, admitResume_eq_ok.1 h.admitted, hrequest, happend⟩

/-! ## One authorization -/

/-- A proposal without a record is within the ceiling. -/
theorem requested_le_ceiling {req : ResumeRequest} {current envelope : ExecutionEnvelope}
    {nonce : String} (h : req.requested env current = .ok (envelope, nonce)) :
    envelope.maxIterations ≤ env.maxContinuationIterations := by
  have henvelope := requested_eq_ok h
  unfold ResumeRequest.requested at h
  obtain ⟨_, hbounds, -⟩ := except_bind_ok h
  rw [require_eq_ok] at hbounds
  rw [henvelope]
  exact hbounds.2

/-- What an authorization appends: a record under a new nonce, from the envelope in force
to a larger one within the ceiling, that passes its own validator. -/
structure Authorizes (env : ResumeEnv) (recordHash : ContinuationRecord → String)
    (records : List ContinuationRecord) (current : ExecutionEnvelope) (record : ContinuationRecord) :
    Prop where
  old : record.oldEnvelope = current
  numeric : record.newEnvelope.Numeric
  grows : record.oldEnvelope < record.newEnvelope
  ceiling : record.newEnvelope.maxIterations ≤ env.maxContinuationIterations
  nonce : record.nonce ∉ records.map (·.nonce)
  valid : record.validate env.envelopeHash recordHash = .ok record

/-- **The record of an admitted request.** -/
theorem authorizes_of_admitted (contract : JournalContract env recordHash) {req : ResumeRequest}
    {m : Manifest} {checkpoints : List StoredCheckpoint} {a : Admission} {request : RecordRequest}
    {record : ContinuationRecord} (hadm : Admitted env req m checkpoints journal a)
    (hcurrent : a.currentEnvelope.Numeric) (hnumber : req.AsksNumber)
    (hrequest : authorizationRequest env req m a = some request)
    (happend : appendAuthorization env request journal = .ok (record, journal')) :
    env.readContinuationRecords journal' = .ok (a.records ++ [record]) ∧
      Authorizes env recordHash a.records a.currentEnvelope record := by
  unfold appendAuthorization at happend
  obtain ⟨made, hmake, happend⟩ := except_bind_ok happend
  obtain ⟨j, hjournal, happend⟩ := except_bind_ok happend
  obtain ⟨rfl, rfl⟩ := Prod.mk.inj (Except.ok.inj happend)
  refine ⟨contract.read_append hadm.records hjournal, ?_⟩
  obtain ⟨hnonce, -, htarget⟩ := contract.make_record hmake
  obtain ⟨hstatus, hcompleted, hnext, hold, holdHash, hnewHash, hfields, hhash⟩ :=
    contract.made hmake
  unfold authorizationRequest at hrequest
  split at hrequest
  · rename_i nonce envelope hproposal
    obtain rfl := some.inj hrequest
    have hpropose := hadm.proposal
    rw [hproposal] at hpropose
    obtain ⟨-, hreq, hnone, hadmit⟩ := propose_new hpropose
    have hnumeric : envelope.Numeric := by
      rw [requested_eq_ok hreq]
      exact numeric_targetPayload hcurrent hnumber
    have hgrows : made.oldEnvelope < made.newEnvelope := by
      rw [hold, htarget]
      exact lt_of_admitNewEnvelope hcurrent hnumeric hadmit
    constructor
    · exact hold
    · rw [htarget]
      exact hnumeric
    · exact hgrows
    · rw [htarget]
      exact requested_le_ceiling hreq
    · intro hmem
      obtain ⟨earlier, hearlier, hsame⟩ := mem_map.1 hmem
      have hdiffers := find?_eq_none.1 hnone earlier hearlier
      rw [hsame, hnonce] at hdiffers
      exact hdiffers (decide_eq_true rfl)
    · have hmade : admitNewEnvelope req made.priorStatus made.completedIterations
          made.oldEnvelope made.newEnvelope = .ok ⟨⟩ := by
        rw [hstatus, hcompleted, hold, htarget]
        exact hadmit
      have hboundary : made.nextIteration = made.completedIterations + 1 := by
        rw [hnext, hcompleted]
      exact validate_of_admitNewEnvelope hmade hboundary hfields holdHash.symm hnewHash.symm hhash
  · cases hrequest

/-! ## The journal over a run -/

/-- What holds of the records of a run that was started with `initial`. -/
structure AuthorizedJournal (env : ResumeEnv) (recordHash : ContinuationRecord → String)
    (initial : ExecutionEnvelope) (journal records : List ContinuationRecord) : Prop where
  read : env.readContinuationRecords journal = .ok records
  numeric : initial.Numeric → (env.authorizedEnvelope initial records).Numeric
  ceiling : (env.authorizedEnvelope initial records).maxIterations ≤
    max initial.maxIterations env.maxContinuationIterations
  nonces : (records.map (·.nonce)).Nodup
  record : ∀ r ∈ records, r.oldEnvelope < r.newEnvelope ∧
    r.newEnvelope.maxIterations ≤ env.maxContinuationIterations ∧
    r.validate env.envelopeHash recordHash = .ok r

/-- A new run has authorized nothing. -/
theorem authorizedJournal_nil (contract : JournalContract env recordHash)
    (initial : ExecutionEnvelope) : AuthorizedJournal env recordHash initial [] [] where
  read := contract.read_nil
  numeric := by
    rw [contract.authorized_nil]
    exact id
  ceiling := by
    rw [contract.authorized_nil]
    exact le_max_left _ _
  nonces := nodup_nil
  record := by
    intro r hr
    cases hr

/-- **One call.**  It appends at most one record, and the envelope in force grows. -/
theorem AuthorizedJournal.step (contract : JournalContract env recordHash)
    (h : AuthorizedJournal env recordHash initial journal records)
    (hnumber : call.request.AsksNumber) (hstep : ResumeStep env initial journal call journal') :
    ∃ appended, AuthorizedJournal env recordHash initial journal' (records ++ appended) ∧
      env.authorizedEnvelope initial records ≤
        env.authorizedEnvelope initial (records ++ appended) := by
  rcases hstep.cases with rfl | ⟨a, request, record, hinitial, hadm, hrequest, happend⟩
  · refine ⟨[], ?_, ?_⟩
    · rw [append_nil]
      exact h
    · rw [append_nil]
  · have hrecords : a.records = records := Except.ok.inj (hadm.records.symm.trans h.read)
    obtain ⟨hbound, hnumeric⟩ := initialEnvelope_of_bindRun hadm.binding
    rw [hinitial] at hbound hnumeric
    have hcurrent : a.currentEnvelope = env.authorizedEnvelope initial records := by
      rw [hadm.current, hbound, hrecords]
    obtain ⟨hread, hauthorizes⟩ := authorizes_of_admitted contract hadm
      (hcurrent ▸ h.numeric hnumeric) hnumber hrequest happend
    rw [hrecords] at hread hauthorizes
    rw [hcurrent] at hauthorizes
    refine ⟨[record], ?_, ?_⟩
    · constructor
      · exact hread
      · rw [contract.authorized_append]
        exact fun _ => hauthorizes.numeric
      · rw [contract.authorized_append]
        exact hauthorizes.ceiling.trans (le_max_right _ _)
      · rw [map_append, nodup_append]
        refine ⟨h.nonces, nodup_singleton _, ?_⟩
        intro x hx y hy hxy
        rw [hxy, mem_singleton.1 hy] at hx
        exact hauthorizes.nonce hx
      · intro r hr
        rcases mem_append.1 hr with hr | hr
        · exact h.record r hr
        · rw [mem_singleton.1 hr]
          exact ⟨hauthorizes.grows, hauthorizes.ceiling, hauthorizes.valid⟩
    · rw [contract.authorized_append, ← hauthorizes.old]
      exact hauthorizes.grows.le

/-- The accepted calls that do not ask for nan seconds. -/
abbrev NumberStep (env : ResumeEnv) (initial : ExecutionEnvelope) :
    List ContinuationRecord → ResumeCall → List ContinuationRecord → Prop :=
  Guarded (fun _ call => call.request.AsksNumber) (ResumeStep env initial)

/-- **A run of calls.** -/
theorem AuthorizedJournal.run (contract : JournalContract env recordHash)
    (h : AuthorizedJournal env recordHash initial journal records) {tr : List ResumeCall}
    (hrun : Run (NumberStep env initial) journal tr journal') :
    ∃ appended, AuthorizedJournal env recordHash initial journal' (records ++ appended) ∧
      env.authorizedEnvelope initial records ≤
        env.authorizedEnvelope initial (records ++ appended) := by
  induction hrun with
  | start =>
    refine ⟨[], ?_, ?_⟩
    · rw [append_nil]
      exact h
    · rw [append_nil]
  | next _ hlast ih =>
    obtain ⟨appended, hkept, hgrows⟩ := ih
    obtain ⟨last, hkept', hgrows'⟩ := hkept.step contract hlast.1 hlast.2
    refine ⟨appended ++ last, ?_, ?_⟩
    · rw [← append_assoc]
      exact hkept'
    · rw [← append_assoc]
      exact hgrows.trans hgrows'

/-! ## Nonces that are known, and calls that only answer -/

/-- A request whose nonce has a record is accepted only for that record, and appends
nothing. -/
theorem AuthorizedJournal.known_nonce (h : AuthorizedJournal env recordHash initial journal records)
    (hinitial : call.manifest.continuation.initialExecutionEnvelope = initial)
    {outcome : ResumeOutcome} (hcall : resumeP5 env call.request call.manifest call.checkpoints
      journal = .ok outcome) (hrequested : call.request.envelopeRequested = true)
    {envelope : ExecutionEnvelope} {nonce : String} (hreq : call.request.requested env
      (env.authorizedEnvelope initial records) = .ok (envelope, nonce))
    {r : ContinuationRecord} (hr : r ∈ records) (hnonce : r.nonce = nonce) :
    r.newEnvelope = envelope ∧
      (∀ b, bindRun env call.manifest = .ok b → r.identity = recordIdentity env b call.manifest) ∧
      outcome.journalAfter journal = journal := by
  unfold resumeP5 at hcall
  obtain ⟨a, ha, hcall⟩ := except_bind_ok hcall
  have hadm := admitResume_eq_ok.1 ha
  have hrecords : a.records = records := Except.ok.inj (hadm.records.symm.trans h.read)
  have hcurrent : a.currentEnvelope = env.authorizedEnvelope initial records := by
    rw [hadm.current, (initialEnvelope_of_bindRun hadm.binding).1, hinitial, hrecords]
  -- the nonce finds `r` itself: no other record has it
  have hfind : records.find? (·.nonce = nonce) = some r := by
    obtain ⟨found, hfound⟩ : ∃ found, records.find? (·.nonce = nonce) = some found := by
      cases hsearch : records.find? (·.nonce = nonce) with
      | some found => exact ⟨found, rfl⟩
      | none => exact absurd (decide_eq_true hnonce) (find?_eq_none.1 hsearch r hr)
    have hsame : found.nonce = nonce := by simpa using find?_some hfound
    have heq : found = r := inj_on_of_nodup_map h.nonces (mem_of_find?_eq_some hfound)
      hr (hsame.trans hnonce.symm)
    rw [hfound, heq]
  have hpropose := hadm.proposal
  rw [hcurrent, hrecords, propose_found hrequested hreq hfind] at hpropose
  obtain ⟨_, hmatch, hpropose⟩ := except_bind_ok hpropose
  rw [require_eq_ok] at hmatch
  have hproposal := Except.ok.inj hpropose
  refine ⟨(ExecutionEnvelope.eq_iff.1 hmatch.1).1, ?_, ?_⟩
  · intro b hb
    have hbinding : a.binding = b := Except.ok.inj (hadm.binding.symm.trans hb)
    rw [hmatch.2, hadm.identity, hbinding]
  · split_ifs at hcall
    · obtain rfl := Except.ok.inj hcall
      rfl
    · obtain rfl := Except.ok.inj hcall
      rfl
    · unfold authorizeAndLaunch at hcall
      obtain ⟨_, -, hcall⟩ := except_bind_ok hcall
      have hnone : authorizationRequest env call.request call.manifest a = none := by
        unfold authorizationRequest
        rw [← hproposal]
      rw [hnone] at hcall
      exact journalAfter_of_launch hcall

/-- A verification appends nothing. -/
theorem journalAfter_verifyOnly {outcome : ResumeOutcome}
    (hcall : resumeP5 env call.request call.manifest call.checkpoints journal = .ok outcome)
    (hverify : call.request.verifyOnly = true) : outcome = .verifiedResumable := by
  unfold resumeP5 at hcall
  obtain ⟨a, -, hcall⟩ := except_bind_ok hcall
  rw [if_pos hverify] at hcall
  exact (Except.ok.inj hcall).symm

/-- **Authorized envelopes only grow.**  In any run of accepted calls that do not ask for nan
seconds, on a run that was started within `MAX_CONTINUATION_ITERATIONS`, and from any point
of it to any later one: the journal is extended; the envelope in force does not decrease in
any component, nor does a limit appear or vanish; its iteration ceiling is within
`MAX_CONTINUATION_ITERATIONS`; every record raises some limit, is within the ceiling and
passes its validator; and no nonce has two records. An accepted call whose nonce has a
record asks for that record's envelope under its identity and appends nothing, and neither
does a verification nor a call reported as applied. -/
theorem authorized_envelope_grows (env : ResumeEnv) (recordHash : ContinuationRecord → String)
    (contract : JournalContract env recordHash) (initial : ExecutionEnvelope)
    (hceiling : initial.maxIterations ≤ env.maxContinuationIterations)
    (tr tr' : List ResumeCall) (journal journal' : List ContinuationRecord)
    (hrun : Run (NumberStep env initial) [] tr journal)
    (hrun' : Run (NumberStep env initial) journal tr' journal') :
    ∃ records appended, AuthorizedJournal env recordHash initial journal records ∧
      AuthorizedJournal env recordHash initial journal' (records ++ appended) ∧
      env.authorizedEnvelope initial records ≤
        env.authorizedEnvelope initial (records ++ appended) ∧
      (env.authorizedEnvelope initial (records ++ appended)).maxIterations ≤
        env.maxContinuationIterations ∧
      ∀ (call : ResumeCall) (outcome : ResumeOutcome),
        call.manifest.continuation.initialExecutionEnvelope = initial →
        resumeP5 env call.request call.manifest call.checkpoints journal' = .ok outcome →
        (call.request.envelopeRequested = true → ∀ envelope nonce, call.request.requested env
            (env.authorizedEnvelope initial (records ++ appended)) = .ok (envelope, nonce) →
          ∀ r ∈ records ++ appended, r.nonce = nonce →
            r.newEnvelope = envelope ∧ (∀ b, bindRun env call.manifest = .ok b →
              r.identity = recordIdentity env b call.manifest) ∧
            outcome.journalAfter journal' = journal') ∧
        (call.request.verifyOnly = true ∨ outcome = .continuationAlreadyApplied →
          outcome.journalAfter journal' = journal') := by
  obtain ⟨records, hjournal, -⟩ := (authorizedJournal_nil contract initial).run contract hrun
  rw [nil_append] at hjournal
  obtain ⟨appended, hjournal', hgrows⟩ := hjournal.run contract hrun'
  have hbound := hjournal'.ceiling
  rw [max_eq_right hceiling] at hbound
  refine ⟨records, appended, hjournal, hjournal', hgrows, hbound, ?_⟩
  intro call outcome hinitial hcall
  constructor
  · intro hrequested envelope nonce hreq r hr hnonce
    exact hjournal'.known_nonce hinitial hcall hrequested hreq hr hnonce
  · rintro (hverify | rfl)
    · rw [journalAfter_verifyOnly hcall hverify]
      rfl
    · rfl

end Calls

/-! ## The journal of a whole run -/

section WholeRun

variable {env : RunEnv} {s s' : Session} {pc pc' : Pc} {e : Event} {eff : Effects}
  {tr : List Event} {st st' : RunState}

/-- What a manifest says about the continuation never changes while a process lives. -/
theorem NodeStep.continuation_eq (h : NodeStep env s pc e s' pc' eff) :
    s'.manifest.continuation = s.manifest.continuation ∧
      ∀ m, eff.manifest = some m → m.continuation = s.manifest.continuation := by
  have hinitialized : s.initializedManifest.continuation = s.manifest.continuation := by
    unfold Session.initializedManifest
    split_ifs <;> rfl
  have hbooks : ∀ {t : Session}, s.SameBooks t →
      t.manifest.continuation = s.manifest.continuation ∧
        ∀ m, (none : Option Manifest) = some m → m.continuation = s.manifest.continuation := by
    intro t ht
    rw [ht.manifest]
    exact ⟨rfl, fun m hm => nomatch hm⟩
  cases h with
  | writeManifest =>
    refine ⟨hinitialized, ?_⟩
    intro m hm
    rw [← some.inj hm]
    exact hinitialized
  | saveInitial => exact hbooks (.refl _)
  | start h =>
    rcases Session.startIteration_ok h with rfl | ⟨_, _, -, rfl⟩
    · exact ⟨rfl, fun m hm => nomatch hm⟩
    · exact ⟨rfl, fun m hm => nomatch hm⟩
  | select h => exact hbooks (Session.sameBooks_selectActiveSubgraphs h)
  | plan => exact hbooks (s.sameWindow_planSubgraph _).toSameBooks
  | degrade => exact hbooks (s.sameWindow_degradeSubgraph _ _ _).toSameBooks
  | coordinate => exact hbooks (s.sameWindow_aggregatePlans _).toSameBooks
  | skip => exact hbooks s.sameWindow_skip.toSameBooks
  | execute => exact hbooks (s.sameWindow_recordTransaction _).toSameBooks
  | publish _ _ h =>
    obtain ⟨-, rfl⟩ := Session.publishCurrent_ok h
    exact ⟨rfl, fun m hm => nomatch hm⟩
  | updateBest h =>
    obtain ⟨_, -, ⟨-, rfl⟩ | ⟨-, rfl⟩⟩ := Session.publishBest_ok h
    · exact ⟨rfl, fun m hm => nomatch hm⟩
    · exact hbooks (.refl _)
  | settle => exact hbooks (.refl _)
  | account => exact ⟨rfl, fun m hm => nomatch hm⟩
  | saveCommit => exact hbooks (.refl _)
  | refreshCommitted => exact hbooks (s.sameBooks_violations _)
  | refresh => exact hbooks (.refl _)
  | finish h =>
    obtain ⟨_, rfl⟩ := Session.countIteration_ok h
    exact ⟨rfl, fun m hm => nomatch hm⟩
  | saveIteration => exact hbooks (.refl _)
  | nextIteration => exact hbooks (.refl _)

/-- The manifests of a run keep the envelope it was started with. -/
structure KeepsInitial (initial : ExecutionEnvelope) (st : RunState) : Prop where
  stored : ∀ m, st.dir.manifest = some m → m.continuation.initialExecutionEnvelope = initial
  live : ∀ p, st.proc = some p →
    p.session.manifest.continuation.initialExecutionEnvelope = initial

theorem KeepsInitial.step {initial : ExecutionEnvelope} (h : KeepsInitial initial st)
    (hstep : Step env st e st') : KeepsInitial initial st' := by
  cases hstep with
  | @node dir s s' pc pc' saved e eff hnode =>
    obtain ⟨hsession, heffect⟩ := hnode.continuation_eq
    have hlive : s.manifest.continuation.initialExecutionEnvelope = initial := h.live _ rfl
    constructor
    · intro m hm
      have hm : eff.manifest.or dir.manifest = some m := hm
      rcases or_eq_some_iff.1 hm with hm | ⟨-, hm⟩
      · rw [heffect m hm]
        exact hlive
      · exact h.stored m hm
    · intro p hp
      obtain rfl := some.inj hp
      show s'.manifest.continuation.initialExecutionEnvelope = initial
      rw [hsession]
      exact hlive
  | finalize _ _ =>
    refine ⟨?_, fun p hp => nomatch hp⟩
    intro m hm
    rw [← some.inj hm]
    exact h.live _ rfl
  | @abort dir p status failureDomain written =>
    refine ⟨?_, fun p hp => nomatch hp⟩
    intro m hm
    have hm : (if written then some (p.session.stoppedManifestOf status failureDomain)
      else dir.manifest) = some m := hm
    split_ifs at hm
    · rw [← some.inj hm]
      exact h.live p rfl
    · exact h.stored m hm
  | die => exact ⟨h.stored, fun p hp => nomatch hp⟩
  | resume hmanifest hresume =>
    refine ⟨h.stored, ?_⟩
    intro p hp
    obtain rfl := some.inj hp
    obtain ⟨a, config, records, epoch, -, -, -, hsession⟩ := resumeP5_execute hresume
    have hstored := h.stored _ hmanifest
    rw [hsession]
    exact hstored
  | authorizeAndDie _ _ => exact ⟨h.stored, fun p hp => nomatch hp⟩

/-- The request of a resume. -/
def Event.request : Event → Option ResumeRequest
  | .resume request => some request
  | .authorizeAndDie request => some request
  | _ => none

/-- The seconds that a resume asks for, if any, are a number. -/
def Event.AsksNumber (e : Event) : Prop := ∀ request ∈ e.request, request.AsksNumber

instance (e : Event) : Decidable e.AsksNumber :=
  inferInstanceAs (Decidable (∀ request ∈ e.request,
    request.extendWholeRunBudgetSeconds ≠ some .nan))

/-- **A run's journal is that of a run of calls.** -/
theorem resumeRun_of_run
    (hrun : Run (Guarded (fun _ e => e.AsksNumber) (Step env)) (RunState.fresh env) tr st) :
    ∃ calls, Run (NumberStep env.resume env.freshManifest.continuation.initialExecutionEnvelope) []
      calls st.dir.journal := by
  have hboth : KeepsInitial env.freshManifest.continuation.initialExecutionEnvelope st ∧
      ∃ calls, Run (NumberStep env.resume
        env.freshManifest.continuation.initialExecutionEnvelope) [] calls st.dir.journal := by
    refine hrun.guarded_invariant
      (fun st => KeepsInitial env.freshManifest.continuation.initialExecutionEnvelope st ∧
        ∃ calls, Run (NumberStep env.resume
          env.freshManifest.continuation.initialExecutionEnvelope) [] calls st.dir.journal) ?_ ?_
    · refine ⟨⟨(fun m hm => nomatch hm), ?_⟩, [], .start⟩
      intro p hp
      obtain rfl := some.inj hp
      rfl
    · rintro st e st' ⟨hkeeps, calls, hcalls⟩ hnumber hstep
      refine ⟨hkeeps.step hstep, ?_⟩
      cases hstep with
      | node _ => exact ⟨calls, hcalls⟩
      | finalize _ _ => exact ⟨calls, hcalls⟩
      | abort => exact ⟨calls, hcalls⟩
      | die => exact ⟨calls, hcalls⟩
      | @resume dir m req l hmanifest hresume =>
        have hcall : NumberStep env.resume
            env.freshManifest.continuation.initialExecutionEnvelope dir.journal
            ⟨req, m, dir.checkpoints⟩ ((ResumeOutcome.execute l).journalAfter dir.journal) :=
          ⟨hnumber req rfl, .returns (hkeeps.stored _ hmanifest) hresume⟩
        exact ⟨calls ++ [⟨req, m, dir.checkpoints⟩], hcalls.trans (Run.single hcall)⟩
      | @authorizeAndDie dir m req a record journal' hmanifest happended =>
        have hcall : NumberStep env.resume
            env.freshManifest.continuation.initialExecutionEnvelope dir.journal
            ⟨req, m, dir.checkpoints⟩ journal' :=
          ⟨hnumber req rfl, .dies (hkeeps.stored _ hmanifest) happended⟩
        exact ⟨calls ++ [⟨req, m, dir.checkpoints⟩], hcalls.trans (Run.single hcall)⟩
  exact hboth.2

/-- The authorizations of a whole run, crashes and resumes included, in which no resume asks
for nan seconds. -/
theorem authorizedJournal_of_run {recordHash : ContinuationRecord → String}
    (contract : JournalContract env.resume recordHash)
    (hrun : Run (Guarded (fun _ e => e.AsksNumber) (Step env)) (RunState.fresh env) tr st) :
    ∃ records, AuthorizedJournal env.resume recordHash
      env.freshManifest.continuation.initialExecutionEnvelope st.dir.journal records := by
  obtain ⟨calls, hcalls⟩ := resumeRun_of_run hrun
  obtain ⟨records, hjournal, -⟩ := (authorizedJournal_nil contract _).run contract hcalls
  exact ⟨[] ++ records, hjournal⟩

end WholeRun

/-! ## Two runs -/

/-- The sample functions, with records under the hashes of what they hold. -/
def recordingResumeEnv : ResumeEnv :=
  { sampleResumeEnv with
    makeContinuationRecord := fun request => (sampleResumeEnv.makeContinuationRecord request).map
      fun record => { record with
        oldEnvelopeHash := sampleResumeEnv.envelopeHash record.oldEnvelope
        newEnvelopeHash := sampleResumeEnv.envelopeHash record.newEnvelope } }

theorem recordingResumeEnv_contract : JournalContract recordingResumeEnv fun _ => "record" where
  read_append := sampleResumeEnv_contract.read_append
  authorized_append := sampleResumeEnv_contract.authorized_append
  make_record hmake := by
    obtain rfl := Except.ok.inj hmake
    exact ⟨rfl, rfl, rfl⟩
  read_nil := rfl
  authorized_nil _ := rfl
  made hmake := by
    obtain rfl := Except.ok.inj hmake
    exact ⟨rfl, rfl, rfl, rfl, rfl, rfl, rfl, rfl⟩

/-- A run that completed its two iterations is extended to five. -/
def extendToFive : ResumeCall where
  request := { extendMaxIterations := some 5 }
  manifest := stoppedManifest "COMPLETED_MAX_ITERATIONS" 2
  checkpoints := [.safe (stoppedCheckpoint 2)]

theorem authorized_envelope_grows_sample :
    ∃ journal records, Run (NumberStep recordingResumeEnv (sampleResumeEnv.executionEnvelope
        sampleConfig)) [] [extendToFive] journal ∧
      AuthorizedJournal recordingResumeEnv (fun _ => "record")
        (sampleResumeEnv.executionEnvelope sampleConfig) journal records ∧ records.length = 1 := by
  have hrun : ∃ journal, Run (NumberStep recordingResumeEnv
      (sampleResumeEnv.executionEnvelope sampleConfig)) [] [extendToFive] journal ∧
      journal.length = 1 :=
    ⟨_, Run.single ⟨nofun, .returns rfl rfl⟩, rfl⟩
  obtain ⟨journal, hrun, hlength⟩ := hrun
  obtain ⟨records, _, hjournal, -⟩ := authorized_envelope_grows recordingResumeEnv _
    recordingResumeEnv_contract (sampleResumeEnv.executionEnvelope sampleConfig) (by decide) _ []
    journal journal hrun .start
  obtain rfl : journal = records := Except.ok.inj hjournal.read
  exact ⟨journal, journal, hrun, hjournal, hlength⟩

/-- The sample run, with these records. -/
def recordingRunEnv : RunEnv := { sampleRunEnv with resume := recordingResumeEnv }

/-- A run that has used up its attempts is resumed with twice as many. -/
theorem authorizedJournal_of_run_extended :
    ∃ st records, Run (Guarded (fun _ e => e.AsksNumber) (Step recordingRunEnv))
        (RunState.fresh recordingRunEnv)
        [.writeManifest, .saveInitial, .sampleStart, .abort "BUDGET_EXHAUSTED" none true,
          .resume { extendMaxHttpAttemptsPerRun := some 20 }] st ∧
      AuthorizedJournal recordingResumeEnv (fun _ => "record")
        (sampleResumeEnv.executionEnvelope sampleConfig) st.dir.journal records ∧
      records.length = 1 := by
  have hplay : ∃ st, play (guardNext (fun _ e => e.AsksNumber) (RunState.next recordingRunEnv))
      (RunState.fresh recordingRunEnv)
      [.writeManifest, .saveInitial, .sampleStart, .abort "BUDGET_EXHAUSTED" none true,
        .resume { extendMaxHttpAttemptsPerRun := some 20 }] = some st ∧
      st.dir.journal.length = 1 := ⟨_, rfl, rfl⟩
  obtain ⟨st, hst, hlength⟩ := hplay
  have hrun := guarded_of_play (fun _ _ _ => RunState.next_sound) hst
  have hcontract : JournalContract recordingRunEnv.resume _ := recordingResumeEnv_contract
  obtain ⟨records, hjournal⟩ := authorizedJournal_of_run hcontract hrun
  obtain rfl : st.dir.journal = records := Except.ok.inj hjournal.read
  exact ⟨st, _, hrun, hjournal, hlength⟩

/-- Two iterations within an hour. -/
def hourEnvelope : ExecutionEnvelope where
  maxIterations := 2
  wholeRunBudgetSeconds := some (.number (3600 : ℚ))

/-- The sample functions, for a run that was started with it. -/
def hourResumeEnv : ResumeEnv :=
  { recordingResumeEnv with executionEnvelope := fun _ => hourEnvelope }

/-- The run has used up its hour, and is asked to go on for nan seconds. -/
def askNan : ResumeCall where
  request := { extendWholeRunBudgetSeconds := some .nan }
  manifest := { stoppedManifest "BUDGET_EXHAUSTED" 1 with
    executionEnvelope := hourEnvelope
    continuation := { (stoppedManifest "BUDGET_EXHAUSTED" 1).continuation with
      initialExecutionEnvelope := hourEnvelope
      authorizedExecutionEnvelope := hourEnvelope } }
  checkpoints := [.safe (stoppedCheckpoint 1)]

/-- The request is accepted, and its record raises nothing: nan is neither above nor at most
an hour. -/
theorem nan_raises_nothing :
    JournalContract hourResumeEnv (fun _ => "record") ∧
      hourEnvelope.maxIterations ≤ hourResumeEnv.maxContinuationIterations ∧
      ∃ journal record, Run (ResumeStep hourResumeEnv hourEnvelope) [] [askNan] journal ∧
        hourResumeEnv.readContinuationRecords journal = .ok [record] ∧
        record.oldEnvelope = hourEnvelope ∧
        record.newEnvelope = { hourEnvelope with wholeRunBudgetSeconds := some .nan } ∧
        record.validate hourResumeEnv.envelopeHash (fun _ => "record") = .ok record ∧
        ¬ record.oldEnvelope ≤ record.newEnvelope := by
  refine ⟨{ recordingResumeEnv_contract with }, by decide, _, _,
    Run.single (.returns rfl rfl), rfl, rfl, rfl, rfl, ?_⟩
  rintro ⟨-, -, -, hseconds | hseconds⟩ <;> cases hseconds

end DRCAgent
