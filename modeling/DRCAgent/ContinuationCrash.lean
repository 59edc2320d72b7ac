/-
# A crash between the authorization and the manifest

An authorization appends a record to the journal and advances the manifest
later. When the process dies in between, the journal is one record ahead, and
the identical request comes back to that run directory.

Main result:

* `repeat_accepted_iff`: the repeated request is accepted, without a second
  record and under the recorded envelope and epoch, exactly when the run had
  stopped as `COMPLETED_MAX_ITERATIONS`, the request does not ask for nan seconds
  (and the outside calls that run again under the new envelope go through). A
  `BUDGET_EXHAUSTED` run is never accepted again.
-/
import DRCAgent.Resume

namespace DRCAgent

open List

variable {env : ResumeEnv} {req : ResumeRequest} {m : Manifest}
  {checkpoints : List StoredCheckpoint} {journal : List ContinuationRecord}

/-! ## What is known of the compiled functions -/

/-- The journal and its records, as `workflow/continuation.py` keeps them. -/
structure ContinuationContract (env : ResumeEnv) : Prop where
  /-- An appended record is read back at the end. -/
  read_append : ∀ {journal journal' : List ContinuationRecord} {record : ContinuationRecord}
    {records : List ContinuationRecord}, env.readContinuationRecords journal = .ok records →
    env.appendContinuationRecord journal record = .ok journal' →
    env.readContinuationRecords journal' = .ok (records ++ [record])
  /-- The envelope in force is the one of the last record. -/
  authorized_append : ∀ (initial : ExecutionEnvelope) (records : List ContinuationRecord)
    (record : ContinuationRecord),
    env.authorizedEnvelope initial (records ++ [record]) = record.newEnvelope
  /-- A record carries what it was made of. -/
  make_record : ∀ {request : RecordRequest} {record : ContinuationRecord},
    env.makeContinuationRecord request = .ok record →
    record.nonce = request.nonce ∧ record.identity = request.identity ∧
      record.newEnvelope = request.targetEnvelope

/-- The outside calls that a repeated request makes anew, under the recorded
envelope, go through. -/
def Relaunches (env : ResumeEnv) (m : Manifest) (a : Admission) (envelope : ExecutionEnvelope) :
    Prop :=
  env.cumulativeUsage m envelope = .ok ⟨⟩ ∧
  ∃ config, env.applyExecutionEnvelope a.binding.config envelope = .ok config ∧
    env.validateMethodIdentity a.binding.presetName config env.runId m.experimentId = .ok ⟨⟩

/-! ## The first call and the repeated call -/

/-- The repeated call is accepted: it appends nothing and executes under the
recorded envelope and its reserved epoch. -/
def RepeatAccepted (env : ResumeEnv) (req : ResumeRequest) (m : Manifest)
    (checkpoints : List StoredCheckpoint) (journal' : List ContinuationRecord)
    (record : ContinuationRecord) : Prop :=
  ∃ l, resumeP5 env req m checkpoints journal' = .ok (.execute l) ∧
    l.appended = none ∧ l.journal = journal' ∧
    l.envelope = record.newEnvelope ∧ l.reservedEpoch = some record.newExecutionEpoch ∧
    l.session.executionEpoch = record.newExecutionEpoch ∧
    l.session.manifest.executionEnvelope = record.newEnvelope

/-- The target of a request under its own target is the same. -/
theorem targetPayload_targetPayload (req : ResumeRequest) (e : ExecutionEnvelope) :
    req.targetPayload (req.targetPayload e) = req.targetPayload e := by
  have hiterations : req.targetIterations (req.targetPayload e) = req.targetIterations e := by
    unfold ResumeRequest.targetIterations
    cases h : req.extendMaxIterations <;>
      simp [h, ResumeRequest.targetPayload, ResumeRequest.targetIterations]
  have hor : ∀ {α : Type} (x y : Option α), x.or (x.or y) = x.or y := by
    intro α x y
    cases x <;> rfl
  unfold ResumeRequest.targetPayload at hiterations ⊢
  rw [hiterations]
  simp only [hor]

/-- The requested envelope is the target. -/
theorem requested_eq_ok {current envelope : ExecutionEnvelope} {nonce : String}
    (h : req.requested env current = .ok (envelope, nonce)) :
    envelope = req.targetPayload current := by
  unfold ResumeRequest.requested at h
  obtain ⟨_, -, h⟩ := except_bind_ok h
  obtain ⟨e, hvalid, h⟩ := except_bind_ok h
  obtain ⟨n, -, h⟩ := except_bind_ok h
  obtain ⟨rfl, -⟩ := Prod.mk.inj (Except.ok.inj h)
  exact ExecutionEnvelope.eq_of_validate hvalid

/-- A request that was made under `current` is made the same under its target. -/
theorem requested_again {current envelope : ExecutionEnvelope} {nonce : String}
    (h : req.requested env current = .ok (envelope, nonce)) :
    req.requested env envelope = .ok (envelope, nonce) := by
  obtain rfl := requested_eq_ok h
  have hiterations : req.targetIterations (req.targetPayload current) =
      req.targetIterations current :=
    congrArg ExecutionEnvelope.maxIterations (targetPayload_targetPayload req current)
  unfold ResumeRequest.requested at h ⊢
  rw [targetPayload_targetPayload, hiterations]
  exact h

/-- The target has a number of seconds when what it is made of has. -/
theorem numeric_targetPayload {e : ExecutionEnvelope} (he : e.Numeric)
    (hreq : req.extendWholeRunBudgetSeconds ≠ some .nan) : (req.targetPayload e).Numeric := by
  intro hnan
  have hnan : req.extendWholeRunBudgetSeconds.or e.wholeRunBudgetSeconds = some .nan := hnan
  rcases Option.or_eq_some_iff.1 hnan with hrequested | ⟨-, hcurrent⟩
  · exact hreq hrequested
  · exact he hcurrent

/-- A request for nan seconds has a target with nan seconds. -/
theorem ne_nan_of_numeric_targetPayload {e : ExecutionEnvelope}
    (h : (req.targetPayload e).Numeric) : req.extendWholeRunBudgetSeconds ≠ some .nan := by
  intro hnan
  apply h
  show req.extendWholeRunBudgetSeconds.or e.wholeRunBudgetSeconds = some .nan
  rw [hnan, Option.some_or]

/-- A request whose record is appended proposed a new envelope. -/
theorem authorizationRequest_eq_some {a : Admission} {request : RecordRequest}
    (h : authorizationRequest env req m a = some request) :
    ∃ nonce envelope, a.proposal = some ⟨nonce, none, envelope⟩ ∧ request.nonce = nonce ∧
      request.identity = a.identity ∧ request.targetEnvelope = envelope := by
  unfold authorizationRequest at h
  split at h
  · next nonce envelope hproposal =>
      obtain rfl := Option.some.inj h
      exact ⟨nonce, envelope, hproposal, rfl, rfl, rfl⟩
  · cases h

/-- A proposal without a record is the requested envelope, under a nonce no
record has, and passed the checks of a new envelope. -/
theorem propose_new {status : String} {completed : ℕ} {records : List ContinuationRecord}
    {identity : List (String × String)} {current envelope : ExecutionEnvelope} {nonce : String}
    (h : propose env req status completed records identity current =
      .ok (some ⟨nonce, none, envelope⟩)) :
    req.envelopeRequested = true ∧ req.requested env current = .ok (envelope, nonce) ∧
      records.find? (·.nonce = nonce) = none ∧
      admitNewEnvelope req status completed current envelope = .ok ⟨⟩ := by
  unfold propose at h
  split_ifs at h with hrequested
  · obtain ⟨⟨e, n⟩, hreq, h⟩ := except_bind_ok h
    dsimp only at h
    split at h
    · obtain ⟨_, -, h⟩ := except_bind_ok h
      simp [pure, Except.pure] at h
    · next hfind =>
        obtain ⟨_, hpassed, h⟩ := except_bind_ok h
        obtain ⟨rfl, -, rfl⟩ := Proposal.mk.inj (Option.some.inj (Except.ok.inj h))
        exact ⟨hrequested, hreq, hfind, hpassed⟩
  · simp [pure, Except.pure] at h

/-- Once the record is there, the same request finds it, and takes it for the same envelope
unless the seconds are nan. -/
theorem propose_recorded {status : String} {completed : ℕ} {records : List ContinuationRecord}
    {identity : List (String × String)} {current : ExecutionEnvelope} {nonce : String}
    {record : ContinuationRecord} (hrequested : req.envelopeRequested = true)
    (hreq : req.requested env current = .ok (record.newEnvelope, nonce))
    (hnone : records.find? (·.nonce = nonce) = none) (hnonce : record.nonce = nonce)
    (hidentity : record.identity = identity) {proposal : Option Proposal} :
    propose env req status completed (records ++ [record]) identity record.newEnvelope =
      .ok proposal ↔ record.newEnvelope.Numeric ∧
        proposal = some ⟨nonce, some record, record.newEnvelope⟩ := by
  have hfind : (records ++ [record]).find? (·.nonce = nonce) = some record := by
    rw [find?_append, hnone]
    simp [hnonce]
  rw [propose_found hrequested (requested_again hreq) hfind, Failures.bind_eq_ok]
  simp only [require_eq_ok, ExecutionEnvelope.eq_iff, true_and, hidentity, and_true, exists_const]
  exact and_congr_right fun _ => ⟨fun h => (Except.ok.inj h).symm, fun h => congrArg _ h.symm⟩

/-- What a completed run had to satisfy for a new envelope. -/
theorem admitNewEnvelope_completed {completed : ℕ} {current requested : ExecutionEnvelope}
    (h : admitNewEnvelope req "COMPLETED_MAX_ITERATIONS" completed current requested = .ok ⟨⟩) :
    (completed : ℤ) < requested.maxIterations := by
  unfold admitNewEnvelope at h
  obtain ⟨_, -, h⟩ := except_bind_ok h
  obtain ⟨_, -, h⟩ := except_bind_ok h
  rw [if_pos rfl] at h
  obtain ⟨_, hincreased, h⟩ := except_bind_ok h
  obtain ⟨_, hboundary, -⟩ := except_bind_ok h
  rw [require_eq_ok] at hincreased hboundary
  omega

/-- The journal is one record ahead of the manifest: only a run that completed
its iterations may be there, with a manifest at the head before. -/
theorem checkManifestHead_ahead {records : List ContinuationRecord} {record : ContinuationRecord}
    {current : ExecutionEnvelope} (hindex : m.continuation.segmentIndex ≤ records.length) :
    checkManifestHead env m (records ++ [record]) current = .ok ⟨⟩ ↔
      m.continuation.segmentIndex = records.length ∧ m.status = "COMPLETED_MAX_ITERATIONS" := by
  have hne : m.continuation.segmentIndex ≠ ((records ++ [record]).length : ℤ) := by
    rw [length_append, length_singleton]
    push_cast
    omega
  unfold checkManifestHead
  rw [Failures.bind_eq_ok, if_neg hne]
  simp only [require_eq_ok, length_append, length_singleton, exists_and_left, exists_const]
  push_cast
  constructor
  · rintro ⟨-, hstale, hstatus⟩
    exact ⟨by omega, hstatus⟩
  · rintro ⟨hstale, hstatus⟩
    exact ⟨by omega, by omega, hstatus⟩

/-- An admitted manifest is not ahead of the journal. -/
theorem segmentIndex_le_of_checkManifestHead {records : List ContinuationRecord}
    {current : ExecutionEnvelope} (h : checkManifestHead env m records current = .ok ⟨⟩) :
    m.continuation.segmentIndex ≤ records.length := by
  unfold checkManifestHead at h
  obtain ⟨_, hindex, -⟩ := except_bind_ok h
  exact (require_eq_ok.1 hindex).1

/-- The head of a journal, as an admitted manifest describes it, has a number of seconds. -/
theorem numeric_of_checkManifestHead {records : List ContinuationRecord}
    {current : ExecutionEnvelope} (h : checkManifestHead env m records current = .ok ⟨⟩)
    (hindex : m.continuation.segmentIndex = records.length) : current.Numeric := by
  unfold checkManifestHead at h
  obtain ⟨_, -, h⟩ := except_bind_ok h
  rw [if_pos hindex] at h
  obtain ⟨-, -, -, henvelope⟩ := require_eq_ok.1 h
  obtain ⟨hsame, hnumeric⟩ := ExecutionEnvelope.eq_iff.1 henvelope
  exact hsame ▸ hnumeric

/-! ## The record of an admitted request -/

/-- What admission takes for a raise, the validator takes for an increase. -/
theorem boundedIncrease_of_keptOrRaised {α : Type} {eq le lt : α → α → Bool} {old new : Option α}
    (hsymm : ∀ x y, eq x y = true → eq y x = true) (hle : ∀ x y, lt x y = true → le x y = true)
    (h : keptOrRaised eq le old new = true) : boundedIncrease eq lt old new = true := by
  cases old with
  | none => cases new <;> exact h
  | some old =>
    cases new with
    | none => exact h
    | some new =>
      simp only [keptOrRaised, boundedIncrease, sameLimit, Bool.or_eq_true,
        Bool.not_eq_true'] at h ⊢
      refine h.imp (hsymm _ _) fun hraised => ?_
      rw [← Bool.not_eq_true] at hraised ⊢
      exact fun hlower => hraised (hle _ _ hlower)

/-- The same for integers. -/
theorem boundedIncrease_of_raised {old new : Option ℤ}
    (h : keptOrRaised (· = ·) (· ≤ ·) old new = true) :
    boundedIncrease (· = ·) (· < ·) old new = true := by
  refine boundedIncrease_of_keptOrRaised ?_ ?_ h
  · intro x y hxy
    exact decide_eq_true (of_decide_eq_true hxy).symm
  · intro x y hxy
    exact decide_eq_true (of_decide_eq_true hxy).le

/-- The same for seconds, nan or not. -/
theorem boundedIncrease_of_raised_float {old new : Option PyFloat}
    (h : keptOrRaised PyFloat.eq PyFloat.le old new = true) :
    boundedIncrease PyFloat.eq PyFloat.lt old new = true := by
  refine boundedIncrease_of_keptOrRaised ?_ (fun _ _ => PyFloat.le_of_lt) h
  intro x y hxy
  obtain ⟨rfl, hnumber⟩ := PyFloat.eq_iff.1 hxy
  exact PyFloat.eq_iff.2 ⟨rfl, hnumber⟩

/-- Envelopes that differ in no field are equal. -/
theorem eq_of_amendedFields_eq_nil {old new : ExecutionEnvelope} (h : amendedFields old new = []) :
    new.eq old = true := by
  unfold amendedFields at h
  split_ifs at h with h₁ h₂ h₃ h₄ <;> simp only [nil_append, append_nil,
    cons_append, reduceCtorEq] at h
  obtain ⟨hseconds, hnumeric⟩ := sameLimit_float_iff.1 h₄
  have hsame : new = old := by
    cases old
    cases new
    simp only at h₁ h₂ h₃ hseconds
    rw [h₁, h₂, h₃, hseconds]
  exact ExecutionEnvelope.eq_iff.2 ⟨hsame, hsame ▸ hnumeric⟩

/-- **The record is valid.**  A record made for an admitted request passes its own
validator, once its hashes are the hashes of what it holds. -/
theorem validate_of_admitNewEnvelope {envelopeHash : ExecutionEnvelope → String}
    {recordHash : ContinuationRecord → String} {r : ContinuationRecord}
    (h : admitNewEnvelope req r.priorStatus r.completedIterations r.oldEnvelope r.newEnvelope =
      .ok ⟨⟩)
    (hnext : r.nextIteration = r.completedIterations + 1)
    (hfields : r.amendmentFields = amendedFields r.oldEnvelope r.newEnvelope)
    (hold : envelopeHash r.oldEnvelope = r.oldEnvelopeHash)
    (hnew : envelopeHash r.newEnvelope = r.newEnvelopeHash) (hhash : r.recordHash = recordHash r) :
    r.validate envelopeHash recordHash = .ok r := by
  unfold admitNewEnvelope at h
  obtain ⟨_, hraised, h⟩ := except_bind_ok h
  obtain ⟨_, hlimit, h⟩ := except_bind_ok h
  rw [require_eq_ok] at hraised hlimit
  have hbudgets : budgetsIncrease r.oldEnvelope r.newEnvelope = true := by
    unfold budgetsIncrease
    rw [boundedIncrease_of_raised hraised.1, boundedIncrease_of_raised hraised.2.1,
      boundedIncrease_of_raised_float hraised.2.2]
    rfl
  have hchanged : r.newEnvelope.eq r.oldEnvelope = false →
      amendedFields r.oldEnvelope r.newEnvelope ≠ [] := by
    intro hne hnil
    rw [eq_of_amendedFields_eq_nil hnil] at hne
    cases hne
  unfold ContinuationRecord.validate
  split_ifs at h with hcompleted hexhausted
  · obtain ⟨_, hincreased, h⟩ := except_bind_ok h
    obtain ⟨_, hboundary, hne⟩ := except_bind_ok h
    rw [require_eq_ok] at hincreased hboundary hne
    have hextended : r.oldEnvelope.maxIterations ≠ r.newEnvelope.maxIterations := by omega
    simp [hold, hnew, not_lt.2 hlimit, hbudgets, hchanged hne, hfields, hnext, hextended,
      hboundary, hcompleted, hhash.symm]
  · obtain ⟨_, hbounded, h⟩ := except_bind_ok h
    obtain ⟨_, hremaining, hne⟩ := except_bind_ok h
    rw [require_eq_ok] at hbounded hremaining hne
    have hextended : r.oldEnvelope.maxIterations = r.newEnvelope.maxIterations := by omega
    simp [hold, hnew, hbudgets, hchanged hne, hfields, hnext, hextended.symm, hexhausted,
      hremaining, hhash.symm]

/-! ## The repeated call -/

/-- The admission of the repeated call. -/
def Admission.repeated (a : Admission) (nonce : String) (record : ContinuationRecord) : Admission :=
  { a with
    records := a.records ++ [record]
    currentEnvelope := record.newEnvelope
    proposal := some ⟨nonce, some record, record.newEnvelope⟩ }

section Repeat

variable {journal' : List ContinuationRecord} {a a' : Admission} {record : ContinuationRecord}

/-- What the first call leaves behind. -/
theorem Appended.facts (contract : ContinuationContract env)
    (h : Appended env req m checkpoints journal a record journal') :
    ∃ nonce, a.proposal = some ⟨nonce, none, record.newEnvelope⟩ ∧ record.nonce = nonce ∧
      record.identity = a.identity ∧ record.newEnvelope = req.targetPayload a.currentEnvelope ∧
      env.readContinuationRecords journal' = .ok (a.records ++ [record]) := by
  obtain ⟨request, hrequest, happend⟩ := h.appended
  obtain ⟨nonce, envelope, hproposal, hnonce, hidentity, htarget⟩ :=
    authorizationRequest_eq_some hrequest
  unfold appendAuthorization at happend
  obtain ⟨r, hmake, happend⟩ := except_bind_ok happend
  obtain ⟨j, hjournal, happend⟩ := except_bind_ok happend
  obtain ⟨rfl, rfl⟩ := Prod.mk.inj (Except.ok.inj happend)
  obtain ⟨hn, hi, he⟩ := contract.make_record hmake
  have hadm := admitResume_eq_ok.1 h.admitted
  have hpropose := hadm.proposal
  rw [hproposal] at hpropose
  refine ⟨nonce, ?_, hn.trans hnonce, hi.trans hidentity, ?_, ?_⟩
  · rw [hproposal, he, htarget]
  · rw [he, htarget]
    exact requested_eq_ok (propose_new hpropose).2.1
  · exact contract.read_append hadm.records hjournal

/-- If the repeated call is admitted, it stands where the first one stood, with
the record at the head of the journal. -/
theorem Appended.of_repeated (contract : ContinuationContract env)
    (h : Appended env req m checkpoints journal a record journal')
    (h' : admitResume env req m checkpoints journal' = .ok a') :
    a'.binding = a.binding ∧ a'.currentEnvelope = record.newEnvelope ∧
      m.status = "COMPLETED_MAX_ITERATIONS" ∧ m.continuation.segmentIndex = a.records.length ∧
      req.extendWholeRunBudgetSeconds ≠ some .nan ∧
      env.cumulativeUsage m record.newEnvelope = .ok ⟨⟩ := by
  have hadm := admitResume_eq_ok.1 h.admitted
  have hadm' := admitResume_eq_ok.1 h'
  obtain ⟨nonce, hproposal, hnonce, hidentity, htarget, hread⟩ := h.facts contract
  have hbinding : a'.binding = a.binding := Except.ok.inj (hadm'.binding.symm.trans hadm.binding)
  have hrecords : a'.records = a.records ++ [record] :=
    Except.ok.inj (hadm'.records.symm.trans hread)
  have hcurrent : a'.currentEnvelope = record.newEnvelope := by
    rw [hadm'.current, hrecords, contract.authorized_append]
  have hhead := hadm'.head
  rw [hrecords] at hhead
  obtain ⟨hindex, hstatus⟩ :=
    (checkManifestHead_ahead (segmentIndex_le_of_checkManifestHead hadm.head)).1 hhead
  -- the repeated call finds the record, and compares its envelope
  have hpropose := hadm.proposal
  rw [hproposal] at hpropose
  obtain ⟨hrequested, hreq, hnone, -⟩ := propose_new hpropose
  have hsame : a'.identity = a.identity := by
    rw [hadm'.identity, hadm.identity, hbinding]
  have hfound := hadm'.proposal
  rw [hrecords, hcurrent] at hfound
  have hnumeric := ((propose_recorded hrequested hreq hnone hnonce
    (hidentity.trans hsame.symm)).1 hfound).1
  rw [htarget] at hnumeric
  exact ⟨hbinding, hcurrent, hstatus, hindex, ne_nan_of_numeric_targetPayload hnumeric,
    hcurrent ▸ hadm'.usage⟩

/-- A completed run at the head of its journal is admitted again. -/
theorem Appended.repeated (contract : ContinuationContract env)
    (h : Appended env req m checkpoints journal a record journal')
    (hstatus : m.status = "COMPLETED_MAX_ITERATIONS")
    (hindex : m.continuation.segmentIndex = a.records.length)
    (hseconds : req.extendWholeRunBudgetSeconds ≠ some .nan)
    (husage : env.cumulativeUsage m record.newEnvelope = .ok ⟨⟩) :
    ∃ nonce, admitResume env req m checkpoints journal' = .ok (a.repeated nonce record) ∧
      (a.repeated nonce record).alreadyApplied m = false := by
  have hadm := admitResume_eq_ok.1 h.admitted
  obtain ⟨nonce, hproposal, hnonce, hidentity, htarget, hread⟩ := h.facts contract
  have hnumeric : record.newEnvelope.Numeric :=
    htarget ▸ numeric_targetPayload (numeric_of_checkManifestHead hadm.head hindex) hseconds
  have hpropose := hadm.proposal
  rw [hproposal] at hpropose
  obtain ⟨hrequested, hreq, hnone, hnew⟩ := propose_new hpropose
  rw [hstatus] at hnew
  have hpending : (a.repeated nonce record).pendingAuthorization m = true :=
    decide_eq_true ⟨hstatus, admitNewEnvelope_completed hnew⟩
  have happlied : (a.repeated nonce record).alreadyApplied m = false := by
    unfold Admission.alreadyApplied
    rw [hpending, Bool.not_true, Bool.and_false]
  refine ⟨nonce, admitResume_eq_ok.2 ?_, happlied⟩
  exact {
    binding := hadm.binding
    state := hadm.state
    compared := hadm.compared
    verified := hadm.verified
    records := hread
    current := (contract.authorized_append _ _ _).symm
    head := (checkManifestHead_ahead hindex.le).2 ⟨hindex, hstatus⟩
    known := hadm.known.imp_right fun hmem => by
      show _ ∈ (a.records ++ [record]).map (·.newEnvelopeHash)
      rw [map_append]
      exact mem_append_left _ hmem
    cutoff := hadm.cutoff
    memory := hadm.memory
    frontier := hadm.frontier
    usage := husage
    identity := hadm.identity
    identities := by
      intro r hr
      rcases mem_append.1 hr with hr | hr
      · exact hadm.identities r hr
      · rw [mem_singleton.1 hr]
        exact hidentity
    proposal := (propose_recorded hrequested hreq hnone hnonce hidentity).2 ⟨hnumeric, rfl⟩
    status := by
      unfold admitStatus
      simp only [Failures.bind_eq_ok]
      refine ⟨⟨⟩, require_of fun hclean => ?_, ⟨⟩, require_of fun hbudget => ?_, ?_⟩
      · rw [hstatus] at hclean
        exact absurd hclean (by decide)
      · rw [hstatus] at hbudget
        exact absurd hbudget (by decide)
      · exact require_of (Or.inl hpending) }

end Repeat

/-- **Continuation crash.**  After a first call that died right behind its
append, the repeated request is accepted exactly when the run had completed its
iterations, its manifest described the head of the journal, the request does not ask for
nan seconds, and the outside calls made anew under the recorded envelope go through. -/
theorem repeat_accepted_iff (env : ResumeEnv) (contract : ContinuationContract env)
    (req : ResumeRequest) (m : Manifest) (checkpoints : List StoredCheckpoint)
    (journal journal' : List ContinuationRecord) (a : Admission) (record : ContinuationRecord)
    (hfirst : Appended env req m checkpoints journal a record journal')
    (hfresh : record.newExecutionEpoch ∉ m.executionEpochs) :
    RepeatAccepted env req m checkpoints journal' record ↔
      m.status = "COMPLETED_MAX_ITERATIONS" ∧
        m.continuation.segmentIndex = a.records.length ∧
        req.extendWholeRunBudgetSeconds ≠ some .nan ∧ Relaunches env m a record.newEnvelope := by
  constructor
  · rintro ⟨l, hl, hnone, -⟩
    unfold resumeP5 at hl
    obtain ⟨a', ha', hl⟩ := except_bind_ok hl
    obtain ⟨hbinding, hcurrent, hstatus, hindex, hseconds, husage⟩ :=
      hfirst.of_repeated contract ha'
    refine ⟨hstatus, hindex, hseconds, husage, ?_⟩
    rw [hfirst.executes.1, if_neg Bool.false_ne_true] at hl
    split_ifs at hl
    · simp [pure, Except.pure] at hl
    unfold authorizeAndLaunch at hl
    obtain ⟨_, -, hl⟩ := except_bind_ok hl
    split at hl
    · obtain ⟨⟨r, j⟩, -, hl⟩ := except_bind_ok hl
      obtain ⟨config, -, -, rfl⟩ := launch_eq_execute.1 hl
      cases hnone
    · obtain ⟨config, hconfig, hvalid, -⟩ := launch_eq_execute.1 hl
      rw [hbinding, hcurrent] at hconfig
      rw [hbinding] at hvalid
      exact ⟨config, hconfig, hvalid⟩
  · rintro ⟨hstatus, hindex, hseconds, husage, config, hconfig, hvalid⟩
    obtain ⟨nonce, hpassed, happlied⟩ := hfirst.repeated contract hstatus hindex hseconds husage
    have hepoch : reservedEpoch m (some record) = some record.newExecutionEpoch := by
      unfold reservedEpoch
      simp [hfresh]
    refine ⟨{
      appended := none
      journal := journal'
      envelope := record.newEnvelope
      reservedEpoch := reservedEpoch m (some record)
      session := resumeSession config
        (resumedManifest env m (a.records ++ [record]) record.newEnvelope) a.binding.hashes
        ((reservedEpoch m (some record)).getD env.newEpoch) a.state },
      ?_, rfl, rfl, rfl, hepoch, ?_, rfl⟩
    · unfold resumeP5
      rw [hpassed]
      show (if req.verifyOnly = true then _ else if _ = true then _ else _) = _
      rw [hfirst.executes.1, if_neg Bool.false_ne_true, happlied, if_neg Bool.false_ne_true]
      unfold authorizeAndLaunch
      rw [Failures.bind_eq_ok]
      refine ⟨⟨⟩, hfirst.gate, ?_⟩
      exact launch_eq_execute.2 ⟨config, hconfig, hvalid, rfl⟩
    · show (reservedEpoch m (some record)).getD env.newEpoch = _
      rw [hepoch]
      rfl

/-! ## Two run directories -/

theorem sampleResumeEnv_contract : ContinuationContract sampleResumeEnv where
  read_append hread happend := by
    obtain rfl := Except.ok.inj hread
    exact congrArg Except.ok (Except.ok.inj happend).symm
  authorized_append initial records record := by
    show ((records ++ [record]).getLast?.map (·.newEnvelope)).getD initial = _
    rw [getLast?_append]
    rfl
  make_record hmake := by
    obtain rfl := Except.ok.inj hmake
    exact ⟨rfl, rfl, rfl⟩

/-- A run that exhausted its budget after one of two iterations asks for more
requests. The append is durable, and the identical request is refused. -/
theorem budget_repeat_refused :
    ∃ a record journal',
      Appended sampleResumeEnv { extendMaxHttpAttemptsPerRun := some 20 }
        (stoppedManifest "BUDGET_EXHAUSTED" 1) [.safe (stoppedCheckpoint 1)] [] a record journal' ∧
      resumeP5 sampleResumeEnv { extendMaxHttpAttemptsPerRun := some 20 }
        (stoppedManifest "BUDGET_EXHAUSTED" 1) [.safe (stoppedCheckpoint 1)] journal' =
          .error "CONTINUATION_MANIFEST_UNEXPECTEDLY_STALE" ∧
      ¬ RepeatAccepted sampleResumeEnv { extendMaxHttpAttemptsPerRun := some 20 }
        (stoppedManifest "BUDGET_EXHAUSTED" 1) [.safe (stoppedCheckpoint 1)] journal' record := by
  refine ⟨_, _, _, ⟨rfl, ⟨rfl, rfl⟩, rfl, _, rfl, rfl⟩, rfl, ?_⟩
  rintro ⟨l, hl, -⟩
  cases hl

/-- A run that completed its two iterations asks for five: the identical request
is accepted. -/
theorem repeat_accepted_iff_sample :
    ∃ a record journal',
      Appended sampleResumeEnv { extendMaxIterations := some 5 }
        (stoppedManifest "COMPLETED_MAX_ITERATIONS" 2) [.safe (stoppedCheckpoint 2)] [] a record
        journal' ∧
      RepeatAccepted sampleResumeEnv { extendMaxIterations := some 5 }
        (stoppedManifest "COMPLETED_MAX_ITERATIONS" 2) [.safe (stoppedCheckpoint 2)] journal'
        record := by
  have hfirst := repeat_accepted_iff sampleResumeEnv sampleResumeEnv_contract
    { extendMaxIterations := some 5 } (stoppedManifest "COMPLETED_MAX_ITERATIONS" 2)
    [.safe (stoppedCheckpoint 2)] []
  exact ⟨_, _, _, ⟨rfl, ⟨rfl, rfl⟩, rfl, _, rfl, rfl⟩,
    (hfirst _ _ _ ⟨rfl, ⟨rfl, rfl⟩, rfl, _, rfl, rfl⟩ (by decide)).2
      ⟨rfl, rfl, nofun, rfl, _, rfl, rfl⟩⟩

end DRCAgent
