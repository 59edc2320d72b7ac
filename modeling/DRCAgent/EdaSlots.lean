/-
# The slots of the EDA calls

`FormalProductionTrajectoryEngine._run_eda`
(src/drc_agent/repair_kernel_integration/production_engine.py): a call takes a slot of the
engine's semaphore, lets a thread do the work, and waits for it behind a shield. When it is
cancelled it tells the work to stop, waits for a grace period, and then without a limit: the
slot is not to be given back while the thread can still change its workspace.

Any number of calls share the semaphore. A call runs from one await to the next, a request
to cancel it takes effect when it is resumed, and the threads go on in between.

The semaphore never gains or loses a slot. A thread that works belongs to a call with a slot,
or to one that was cancelled at least twice: the waits of the handler are not shielded against
a second request (`workers_within_slots`).
-/
import DRCAgent.LabelledRuns
import DRCAgent.SlotCounts

namespace DRCAgent.EdaSlots

open Function Option Runs SlotCounts

/-! ## Calls -/

/-- How `fn` ends in the thread. -/
inductive WorkerOutcome
  | returned | raised
  deriving DecidableEq

/-- Where the task of the thread is. -/
inductive Worker
  /-- It is not created. -/
  | absent
  | running
  /-- `fn` has ended, and the task does not know of it yet. -/
  | finished (outcome : WorkerOutcome)
  /-- `worker.done()` -/
  | done (outcome : WorkerOutcome)
  deriving DecidableEq

inductive CallEnd
  /-- `REGION_LIVE_BUDGET_EXCEEDED` -/
  | refused
  | returned
  | raised
  | cancelled
  /-- `InfrastructureFailure` with `EDA_CANCEL_TIMEOUT` -/
  | cancelTimeout
  deriving DecidableEq

/-- Where a call is. -/
inductive Phase
  /-- Not called yet. -/
  | idle
  /-- At `async with self.eda_semaphore`. -/
  | queued
  /-- At the first `await asyncio.shield(worker)`. -/
  | waiting
  /-- At `asyncio.wait`; the timeout has expired or not. -/
  | grace (expired : Bool)
  /-- At the second shield, after the grace period. -/
  | draining
  | ended (how : CallEnd)
  deriving DecidableEq

/-- The values of `outcome` at the end of a call. -/
inductive Outcome
  | returned | cancelRequested | raised
  deriving DecidableEq

/-- What a call reports to the event sink. -/
inductive Report
  /-- `repair_kernel_eda_started` -/
  | started
  /-- `repair_kernel_eda_cancel_grace_expired` -/
  | graceExpired
  /-- `repair_kernel_eda_terminal` -/
  | terminal (outcome : Outcome) (workerDone cancellationRequested : Bool)
  /-- `repair_kernel_eda_completed` -/
  | completed (wrapperOutcome : Outcome)

structure Call where
  phase : Phase := .idle
  worker : Worker := .absent
  /-- The call is cancelled and not resumed yet. -/
  cancelRequested : Bool := false
  /-- `control.cancelled` -/
  controlCancelled : Bool := false
  reports : List Report := []

/-- The call has a slot of the semaphore. -/
def Phase.holds : Phase → Bool
  | .waiting => true
  | .grace _ => true
  | .draining => true
  | _ => false

def Worker.isDone : Worker → Bool
  | .done _ => true
  | _ => false

def Call.holds (c : Call) : Bool := c.phase.holds

/-- The thread can still change its workspace. -/
def Call.works (c : Call) : Bool := c.worker = .running

/-- The end of a call that has a slot: the `finally`, and the end of the `async with`. -/
def Call.leave (c : Call) (outcome : Outcome) (how : CallEnd) : Call :=
  { c with
    phase := .ended how
    cancelRequested := false
    reports := c.reports ++
      [.terminal outcome c.worker.isDone c.controlCancelled, .completed outcome] }

/-- The call goes on from an await at which it has a slot. -/
def Call.resume (c : Call) : Option Call :=
  match c.phase with
  | .waiting =>
    if c.cancelRequested then
      some { c with phase := .grace false, cancelRequested := false, controlCancelled := true }
    else
      match c.worker with
      | .done .returned => some (c.leave .returned .returned)
      | .done .raised => some (c.leave .raised .raised)
      | _ => none
  | .grace expired =>
    -- a request to cancel ends `asyncio.wait`, whatever the worker does
    if c.cancelRequested then some (c.leave .cancelRequested .cancelled)
    -- the shield of a task that is done returns at once
    else if c.worker.isDone then some (c.leave .cancelRequested .cancelled)
    else if expired then
      some { c with phase := .draining, reports := c.reports ++ [.graceExpired] }
    else none
  | .draining =>
    if c.cancelRequested then some (c.leave .cancelRequested .cancelled)
    else if c.worker.isDone then some (c.leave .cancelRequested .cancelTimeout)
    else none
  | _ => none

/-! ## Steps -/

/-- The value of the semaphore, and the calls. -/
structure State (ι : Type*) where
  value : ℕ
  calls : ι → Call

inductive Event (ι : Type*)
  /-- The call starts; its claim on the budget of the region is granted or not. -/
  | start (k : ι) (granted : Bool)
  /-- It gets a slot, and creates the worker. -/
  | enter (k : ι)
  /-- `fn` ends in the thread. -/
  | finish (k : ι) (outcome : WorkerOutcome)
  /-- What `fn` has returned reaches the task. -/
  | deliver (k : ι)
  /-- The grace period is over. -/
  | expire (k : ι)
  /-- The call is cancelled. -/
  | cancel (k : ι)
  /-- The call goes on. -/
  | resume (k : ι)
  deriving DecidableEq

section Steps

variable {ι : Type*} [DecidableEq ι]

def State.set (s : State ι) (k : ι) (c : Call) : State ι := { s with calls := update s.calls k c }

/-- One step. -/
def next (s : State ι) : Event ι → Option (State ι)
  | .start k granted =>
    if (s.calls k).phase = .idle then
      some (s.set k { s.calls k with phase := if granted then .queued else .ended .refused })
    else none
  | .enter k =>
    if (s.calls k).phase = .queued ∧ (s.calls k).cancelRequested = false ∧ 0 < s.value then
      some { value := s.value - 1, calls := update s.calls k { s.calls k with
        phase := .waiting, worker := .running, reports := (s.calls k).reports ++ [.started] } }
    else none
  | .finish k outcome =>
    if (s.calls k).worker = .running then
      some (s.set k { s.calls k with worker := .finished outcome })
    else none
  | .deliver k =>
    match (s.calls k).worker with
    | .finished outcome => some (s.set k { s.calls k with worker := .done outcome })
    | _ => none
  | .expire k =>
    if (s.calls k).phase = .grace false then
      some (s.set k { s.calls k with phase := .grace true })
    else none
  | .cancel k =>
    match (s.calls k).phase with
    | .idle => none
    | .ended _ => none
    | _ => some (s.set k { s.calls k with cancelRequested := true })
  | .resume k =>
    if (s.calls k).phase = .queued then
      -- nothing is held yet
      if (s.calls k).cancelRequested then
        some (s.set k { s.calls k with phase := .ended .cancelled, cancelRequested := false })
      else none
    else
      (s.calls k).resume.map fun c =>
        { value := if c.holds then s.value else s.value + 1, calls := update s.calls k c }

/-- The step relation. -/
def Step (s : State ι) (e : Event ι) (s' : State ι) : Prop := next s e = some s'

/-- Before the first call: `asyncio.Semaphore(permits)`. -/
def State.opened (ι : Type*) (permits : ℕ) : State ι := { value := permits, calls := fun _ => {} }

end Steps

/-! ## One call -/

/-- The reports of a call that has left its slot. -/
def leftReports (late : Bool) (outcome : Outcome) (workerDone controlCancelled : Bool) :
    List Report :=
  .started :: (if late then [.graceExpired] else []) ++
    [.terminal outcome workerDone controlCancelled, .completed outcome]

/-- The states of a call that was cancelled `n` times. -/
inductive CallInv (n : ℕ) : Call → Prop
  | idle : CallInv n {}
  | refused : CallInv n { phase := .ended .refused }
  | queued {requested : Bool} (hcancels : requested.toNat ≤ n) :
      CallInv n { phase := .queued, cancelRequested := requested }
  /-- Cancelled before it got a slot. -/
  | unserved : CallInv n { phase := .ended .cancelled }
  | waiting {worker : Worker} {requested : Bool} (hworker : worker ≠ .absent)
      (hcancels : requested.toNat ≤ n) :
      CallInv n { phase := .waiting, worker := worker, cancelRequested := requested
                  reports := [.started] }
  | grace {expired : Bool} {worker : Worker} {requested : Bool} (hworker : worker ≠ .absent)
      (hcancels : requested.toNat + 1 ≤ n) :
      CallInv n { phase := .grace expired, worker := worker, cancelRequested := requested
                  controlCancelled := true, reports := [.started] }
  | draining {worker : Worker} {requested : Bool} (hworker : worker ≠ .absent)
      (hcancels : requested.toNat + 1 ≤ n) :
      CallInv n { phase := .draining, worker := worker, cancelRequested := requested
                  controlCancelled := true, reports := [.started, .graceExpired] }
  | left (late : Bool) {how : CallEnd} {worker : Worker} {outcome : Outcome}
      {workerDone controlCancelled : Bool} (hworker : worker ≠ .absent)
      (hdone : workerDone = true → worker.isDone = true)
      (hcut : workerDone = false → how = .cancelled ∧ 2 ≤ n) :
      CallInv n { phase := .ended how, worker := worker, controlCancelled := controlCancelled
                  reports := leftReports late outcome workerDone controlCancelled }

namespace CallInv

variable {n : ℕ} {c c' : Call}

theorem mono {m : ℕ} (h : CallInv n c) (hle : n ≤ m) : CallInv m c := by
  cases h with
  | idle => exact .idle
  | refused => exact .refused
  | queued hcancels => exact .queued (hcancels.trans hle)
  | unserved => exact .unserved
  | waiting hworker hcancels => exact .waiting hworker (hcancels.trans hle)
  | grace hworker hcancels => exact .grace hworker (hcancels.trans hle)
  | draining hworker hcancels => exact .draining hworker (hcancels.trans hle)
  | left late hworker hdone hcut =>
    exact .left late hworker hdone fun hfalse => ⟨(hcut hfalse).1, (hcut hfalse).2.trans hle⟩

/-- The thread goes on. -/
theorem move {worker : Worker} (h : CallInv n c) (hold : c.worker ≠ .absent)
    (hnew : worker ≠ .absent) (hdone : c.worker.isDone = true → worker.isDone = true) :
    CallInv n { c with worker := worker } := by
  cases h with
  | idle => exact absurd rfl hold
  | refused => exact absurd rfl hold
  | queued _ => exact absurd rfl hold
  | unserved => exact absurd rfl hold
  | waiting _ hcancels => exact .waiting hnew hcancels
  | grace _ hcancels => exact .grace hnew hcancels
  | draining _ hcancels => exact .draining hnew hcancels
  | left late _ hdone' hcut => exact .left late hnew (fun htrue => hdone (hdone' htrue)) hcut

/-- A request to cancel. -/
theorem cancel (h : CallInv n c) (hlive : ∀ how, c.phase ≠ .ended how) (hidle : c.phase ≠ .idle) :
    CallInv (n + 1) { c with cancelRequested := true } := by
  cases h with
  | idle => exact absurd rfl hidle
  | refused => exact absurd rfl (hlive _)
  | queued _ => exact .queued (Nat.le_add_left _ _)
  | unserved => exact absurd rfl (hlive _)
  | waiting hworker _ => exact .waiting hworker (Nat.le_add_left _ _)
  | grace hworker hcancels => exact .grace hworker (by simp only [Bool.toNat_true]; omega)
  | draining hworker hcancels => exact .draining hworker (by simp only [Bool.toNat_true]; omega)
  | left _ _ _ _ => exact absurd rfl (hlive _)

/-- The call starts. -/
theorem start (h : CallInv n c) (hidle : c.phase = .idle) (granted : Bool) :
    CallInv n { c with phase := if granted then .queued else .ended .refused } := by
  cases h with
  | idle =>
    cases granted with
    | true => exact .queued (Nat.zero_le _)
    | false => exact .refused
  | refused => cases hidle
  | queued _ => cases hidle
  | unserved => cases hidle
  | waiting _ _ => cases hidle
  | grace _ _ => cases hidle
  | draining _ _ => cases hidle
  | left _ _ _ _ => cases hidle

/-- The call leaves the queue, with a slot or without one. -/
theorem of_queued (h : CallInv n c) (hqueued : c.phase = .queued) :
    ∃ requested : Bool, c = { phase := .queued, cancelRequested := requested } := by
  cases h with
  | queued _ => exact ⟨_, rfl⟩
  | idle => cases hqueued
  | refused => cases hqueued
  | unserved => cases hqueued
  | waiting _ _ => cases hqueued
  | grace _ _ => cases hqueued
  | draining _ _ => cases hqueued
  | left _ _ _ _ => cases hqueued

/-- The grace period is over. -/
theorem expire (h : CallInv n c) (hgrace : c.phase = .grace false) :
    CallInv n { c with phase := .grace true } := by
  cases h with
  | grace hworker hcancels => exact .grace hworker hcancels
  | idle => cases hgrace
  | refused => cases hgrace
  | queued _ => cases hgrace
  | unserved => cases hgrace
  | waiting _ _ => cases hgrace
  | draining _ _ => cases hgrace
  | left _ _ _ _ => cases hgrace

/-- Only a call with a slot goes on by itself. -/
theorem holds_of_resume (hresume : c.resume = some c') : c.holds = true := by
  unfold Call.resume at hresume
  unfold Call.holds
  cases hphase : c.phase with
  | waiting => rfl
  | grace _ => rfl
  | draining => rfl
  | idle => rw [hphase] at hresume; cases hresume
  | queued => rw [hphase] at hresume; cases hresume
  | ended _ => rw [hphase] at hresume; cases hresume

/-- The call goes on from an await with a slot. -/
theorem resume (h : CallInv n c) (hresume : c.resume = some c') : CallInv n c' := by
  cases h with
  | idle => cases hresume
  | refused => cases hresume
  | queued _ => cases hresume
  | unserved => cases hresume
  | left _ _ _ _ => cases hresume
  | @waiting worker requested hworker hcancels =>
    cases requested with
    | true =>
      obtain rfl := some.inj hresume
      exact .grace hworker hcancels
    | false =>
      cases worker with
      | done outcome =>
        cases outcome with
        | returned =>
          obtain rfl := some.inj hresume
          exact .left false hworker (fun _ => rfl) nofun
        | raised =>
          obtain rfl := some.inj hresume
          exact .left false hworker (fun _ => rfl) nofun
      | absent => cases hresume
      | running => cases hresume
      | finished _ => cases hresume
  | @grace expired worker requested hworker hcancels =>
    cases requested with
    | true =>
      -- the second request: the wait ends, and the slot is given back
      obtain rfl := some.inj hresume
      exact .left false hworker id fun _ => ⟨rfl, hcancels⟩
    | false =>
      cases hdone : worker.isDone with
      | true =>
        simp only [Call.resume, hdone, Bool.false_eq_true, if_false, if_true] at hresume
        obtain rfl := some.inj hresume
        exact .left false hworker id fun hfalse => by
          rw [hdone] at hfalse
          cases hfalse
      | false =>
        simp only [Call.resume, hdone, Bool.false_eq_true, if_false] at hresume
        cases expired with
        | true =>
          obtain rfl := some.inj hresume
          exact .draining hworker hcancels
        | false => cases hresume
  | @draining worker requested hworker hcancels =>
    cases requested with
    | true =>
      obtain rfl := some.inj hresume
      exact .left true hworker id fun _ => ⟨rfl, hcancels⟩
    | false =>
      cases hdone : worker.isDone with
      | true =>
        simp only [Call.resume, hdone, Bool.false_eq_true, if_false, if_true] at hresume
        obtain rfl := some.inj hresume
        exact .left true hworker id fun hfalse => by
          rw [hdone] at hfalse
          cases hfalse
      | false =>
        simp only [Call.resume, hdone, Bool.false_eq_true, if_false] at hresume
        cases hresume

/-- A thread that works without a slot belongs to a call that was cancelled twice. -/
theorem works (h : CallInv n c) (hworks : c.works = true) : c.holds = true ∨ 2 ≤ n := by
  have hrunning : c.worker = .running := of_decide_eq_true hworks
  cases h with
  | idle => cases hrunning
  | refused => cases hrunning
  | queued _ => cases hrunning
  | unserved => cases hrunning
  | waiting _ _ => exact .inl rfl
  | grace _ _ => exact .inl rfl
  | draining _ _ => exact .inl rfl
  | @left late how worker outcome workerDone controlCancelled _ hdone hcut =>
    refine .inr (hcut ?_).2
    cases hworkerDone : workerDone with
    | false => rfl
    | true =>
      obtain rfl : worker = .running := hrunning
      cases hdone hworkerDone

/-- What a call has reported at its end. -/
theorem reports_of_ended (h : CallInv n c) {how : CallEnd} (hended : c.phase = .ended how)
    (hworker : c.worker ≠ .absent) : ∃ late outcome workerDone,
      c.reports = leftReports late outcome workerDone c.controlCancelled ∧
        (workerDone = false → how = .cancelled ∧ 2 ≤ n) := by
  cases h with
  | idle => cases hended
  | refused => exact absurd rfl hworker
  | queued _ => cases hended
  | unserved => exact absurd rfl hworker
  | waiting _ _ => cases hended
  | grace _ _ => cases hended
  | draining _ _ => cases hended
  | left _ _ _ hcut =>
    obtain rfl := Phase.ended.inj hended
    exact ⟨_, _, _, rfl, hcut⟩

end CallInv

/-! ## All calls -/

section Calls

variable {ι : Type*} [DecidableEq ι] {permits : ℕ} {s s' : State ι} {e : Event ι}
  {tr : List (Event ι)} {k : ι} {c : Call}

/-- How often the call was cancelled. -/
def cancels (tr : List (Event ι)) (k : ι) : ℕ := tr.count (.cancel k)

theorem cancels_mono (tr : List (Event ι)) (e : Event ι) (k : ι) :
    cancels tr k ≤ cancels (tr ++ [e]) k := by
  rw [cancels, cancels, List.count_append]
  exact Nat.le_add_right _ _

variable [Fintype ι]

/-- The books of the semaphore, and the states of the calls. -/
structure Inv (permits : ℕ) (tr : List (Event ι)) (s : State ι) : Prop where
  balance : s.value + count Call.holds s.calls = permits
  calls : ∀ k, CallInv (cancels tr k) (s.calls k)

theorem inv_opened : Inv permits [] (State.opened ι permits) where
  balance := by
    rw [count_eq_zero fun _ => rfl]
    rfl
  calls _ := .idle

/-- One call moves, and the semaphore with it. -/
theorem Inv.update (h : Inv permits tr s) {value : ℕ}
    (hbalance : value + c.holds.toNat = s.value + (s.calls k).holds.toNat)
    (hcall : CallInv (cancels (tr ++ [e]) k) c) :
    Inv permits (tr ++ [e]) { value := value, calls := update s.calls k c } where
  balance := by
    have hcount := count_update Call.holds s.calls k c
    have hbooks := h.balance
    show value + count Call.holds (Function.update s.calls k c) = permits
    omega
  calls j := by
    show CallInv (cancels (tr ++ [e]) j) (Function.update s.calls k c j)
    by_cases hj : j = k
    · rw [hj, update_self]
      exact hcall
    · rw [update_of_ne hj]
      exact (h.calls j).mono (cancels_mono _ _ _)

/-- One call moves, and keeps its slot if it has one. -/
theorem Inv.set (h : Inv permits tr s) (hholds : c.holds = (s.calls k).holds)
    (hcall : CallInv (cancels (tr ++ [e]) k) c) : Inv permits (tr ++ [e]) (s.set k c) :=
  h.update (by rw [hholds]) hcall

theorem Inv.call (h : Inv permits tr s) (e : Event ι) (k : ι) :
    CallInv (cancels (tr ++ [e]) k) (s.calls k) :=
  (h.calls k).mono (cancels_mono _ _ _)

/-- **The step lemma.** -/
theorem inv_step (h : Inv permits tr s) (hstep : Step s e s') : Inv permits (tr ++ [e]) s' := by
  unfold Step at hstep
  cases e with
  | start k granted =>
    rw [next] at hstep
    by_cases hidle : (s.calls k).phase = .idle
    · rw [if_pos hidle] at hstep
      obtain rfl := some.inj hstep
      refine h.set ?_ ((h.call _ k).start hidle granted)
      rw [Call.holds, Call.holds, hidle]
      cases granted <;> rfl
    · rw [if_neg hidle] at hstep
      cases hstep
  | enter k =>
    rw [next] at hstep
    split_ifs at hstep with hqueued
    obtain rfl := some.inj hstep
    obtain ⟨hphase, hrequested, hvalue⟩ := hqueued
    obtain ⟨requested, hcall⟩ := (h.calls k).of_queued hphase
    rw [hcall] at hrequested
    refine h.update ?_ ?_
    · rw [hcall]
      show s.value - 1 + 1 = s.value + 0
      omega
    · rw [hcall]
      exact .waiting nofun (by rw [show requested = false from hrequested]; exact Nat.zero_le _)
  | finish k outcome =>
    rw [next] at hstep
    split_ifs at hstep with hrunning
    obtain rfl := some.inj hstep
    refine h.set rfl ((h.call _ k).move ?_ nofun ?_)
    · rw [hrunning]
      exact nofun
    · rw [hrunning]
      exact nofun
  | deliver k =>
    rw [next] at hstep
    split at hstep
    · next outcome hfinished =>
        obtain rfl := some.inj hstep
        refine h.set rfl ((h.call _ k).move ?_ nofun fun _ => rfl)
        rw [hfinished]
        exact nofun
    · cases hstep
  | expire k =>
    rw [next] at hstep
    split_ifs at hstep with hgrace
    obtain rfl := some.inj hstep
    refine h.set ?_ ((h.call _ k).expire hgrace)
    rw [Call.holds, Call.holds, hgrace]
    rfl
  | cancel k =>
    rw [next] at hstep
    split at hstep
    · cases hstep
    · cases hstep
    · next hidle hended =>
        obtain rfl := some.inj hstep
        refine h.set rfl ?_
        have hcancels : cancels (tr ++ [.cancel k]) k = cancels tr k + 1 := by
          rw [cancels, cancels, List.count_append, List.count_singleton_self]
        rw [hcancels]
        exact (h.calls k).cancel hended hidle
  | resume k =>
    rw [next] at hstep
    by_cases hqueued : (s.calls k).phase = .queued
    · rw [if_pos hqueued] at hstep
      split_ifs at hstep with hrequested
      obtain rfl := some.inj hstep
      obtain ⟨requested, hcall⟩ := (h.calls k).of_queued hqueued
      rw [hcall]
      refine h.set ?_ .unserved
      rw [hcall]
      rfl
    · rw [if_neg hqueued] at hstep
      obtain ⟨c, hresume, rfl⟩ := map_eq_some_iff.1 hstep
      refine h.update ?_ ((h.call _ k).resume hresume)
      rw [CallInv.holds_of_resume hresume]
      cases c.holds <;> rfl

/-! ## Runs -/

theorem inv_of_run (hrun : Run Step (State.opened ι permits) tr s) : Inv permits tr s :=
  Run.history (fun _ => True) (Inv permits) (fun _ _ _ => trivial) inv_opened
    (fun _ _ _ _ _ h hstep => inv_step h hstep) hrun trivial

/-- **Threads and slots.**  In every run of any number of calls, with requests to cancel at
any time: no slot is gained or lost; a thread that works belongs to a call with a slot, or to
one that was cancelled at least twice, so no more threads work than there are slots and such
calls; and a call that got a slot reports at its end that its worker is done, or was cancelled
at least twice. -/
theorem workers_within_slots (hrun : Run Step (State.opened ι permits) tr s) :
    s.value + count Call.holds s.calls = permits ∧
    (∀ k, (s.calls k).works = true → (s.calls k).holds = true ∨ 2 ≤ cancels tr k) ∧
    count Call.works s.calls ≤ permits + (Finset.univ.filter fun k => 2 ≤ cancels tr k).card ∧
    ∀ k how, (s.calls k).phase = .ended how → (s.calls k).worker ≠ .absent →
      ∃ late outcome workerDone,
        (s.calls k).reports =
          leftReports late outcome workerDone (s.calls k).controlCancelled ∧
        (workerDone = false → how = .cancelled ∧ 2 ≤ cancels tr k) := by
  have hinv := inv_of_run hrun
  have hworks : ∀ k, (s.calls k).works = true → (s.calls k).holds = true ∨ 2 ≤ cancels tr k :=
    fun k => (hinv.calls k).works
  refine ⟨hinv.balance, hworks, ?_, fun k how => (hinv.calls k).reports_of_ended⟩
  have hcount := count_le (p := Call.works) (q := Call.holds) (f := s.calls)
    (Finset.univ.filter fun k => 2 ≤ cancels tr k) fun k hk => by
      rcases hworks k hk with hholds | htwice
      · exact .inl hholds
      · exact .inr (Finset.mem_filter.2 ⟨Finset.mem_univ k, htwice⟩)
  have hbalance := hinv.balance
  omega

/-! ## Giving a slot back -/

/-- A call whose worker is done leaves, if it does not enter its handler first. -/
theorem Call.resume_of_done {outcome : WorkerOutcome} (hholds : c.holds = true)
    (hdone : c.worker = .done outcome)
    (hhandler : c.phase = .waiting → c.cancelRequested = false) :
    ∃ how c', c.resume = some c' ∧ c'.phase = .ended how := by
  have hisDone : c.worker.isDone = true := by rw [hdone]; rfl
  unfold Call.holds at hholds
  unfold Call.resume
  cases hphase : c.phase with
  | idle => rw [hphase] at hholds; cases hholds
  | queued => rw [hphase] at hholds; cases hholds
  | ended _ => rw [hphase] at hholds; cases hholds
  | waiting =>
    rw [hhandler hphase, hdone]
    cases outcome with
    | returned => exact ⟨_, _, rfl, rfl⟩
    | raised => exact ⟨_, _, rfl, rfl⟩
  | grace expired =>
    by_cases hrequested : c.cancelRequested = true
    · exact ⟨_, _, if_pos hrequested, rfl⟩
    · exact ⟨_, _, (if_neg hrequested).trans (if_pos hisDone), rfl⟩
  | draining =>
    by_cases hrequested : c.cancelRequested = true
    · exact ⟨_, _, if_pos hrequested, rfl⟩
    · exact ⟨_, _, (if_neg hrequested).trans (if_pos hisDone), rfl⟩

/-- What the thread of a call and the call itself do. -/
def Event.isOf (k : ι) : Event ι → Bool
  | .finish j _ => j = k
  | .deliver j => j = k
  | .resume j => j = k
  | _ => false

omit [Fintype ι] in
/-- The thread ends, and the task knows of it. -/
theorem worker_ends (s : State ι) (hworker : (s.calls k).worker ≠ .absent) : ∃ tr' outcome,
    Run Step s tr' (s.set k { s.calls k with worker := .done outcome }) ∧
      ∀ e ∈ tr', Event.isOf k e = true := by
  have hdeliver : ∀ {s : State ι} {outcome : WorkerOutcome},
      (s.calls k).worker = .finished outcome →
      Step s (.deliver k) (s.set k { s.calls k with worker := .done outcome }) := by
    intro s outcome hfinished
    rw [Step, next, hfinished]
  cases hnow : (s.calls k).worker with
  | absent => exact absurd hnow hworker
  | running =>
    have hfinish : Step s (.finish k .returned)
        (s.set k { s.calls k with worker := .finished .returned }) := by
      rw [Step, next, if_pos hnow]
    have hfinished : ((s.set k { s.calls k with worker := .finished .returned }).calls k).worker =
        .finished .returned := by simp [State.set]
    have hnext := hdeliver hfinished
    simp only [State.set, update_self, update_idem] at hnext
    exact ⟨[.finish k .returned, .deliver k], .returned,
      (Run.single hfinish).trans (.single hnext), by simp [Event.isOf]⟩
  | finished outcome =>
    exact ⟨[.deliver k], outcome, .single (hdeliver hnow), by simp [Event.isOf]⟩
  | done outcome =>
    refine ⟨[], outcome, ?_, nofun⟩
    have hsame : s.set k { s.calls k with worker := .done outcome } = s := by
      rw [← hnow]
      show State.mk s.value (Function.update s.calls k (s.calls k)) = s
      rw [update_eq_self]
    rw [hsame]
    exact .start

omit [Fintype ι] in
/-- A call whose worker is done leaves by going on, once or twice. -/
theorem call_leaves (s : State ι) {outcome : WorkerOutcome}
    (hholds : (s.calls k).holds = true) (hdone : (s.calls k).worker = .done outcome) :
    ∃ tr' c how, Run Step s tr' { value := s.value + 1, calls := update s.calls k c } ∧
      c.phase = .ended how ∧ ∀ e ∈ tr', Event.isOf k e = true := by
  have hqueued : (s.calls k).phase ≠ .queued := by
    intro heq
    rw [Call.holds, heq] at hholds
    cases hholds
  have hleave : ∀ {s : State ι} {c : Call} {how : CallEnd}, (s.calls k).phase ≠ .queued →
      (s.calls k).resume = some c → c.phase = .ended how →
      Step s (.resume k) { value := s.value + 1, calls := update s.calls k c } := by
    intro s c how hqueued hresume hended
    rw [Step, next, if_neg hqueued, hresume, map_some, Call.holds, hended]
    rfl
  by_cases hhandler : (s.calls k).phase = .waiting ∧ (s.calls k).cancelRequested = true
  · -- through the handler, which finds the worker done
    obtain ⟨hwaiting, hrequested⟩ := hhandler
    set c : Call := { s.calls k with
      phase := .grace false, cancelRequested := false, controlCancelled := true } with hc
    have hresume : (s.calls k).resume = some c := by
      unfold Call.resume
      rw [hwaiting]
      exact if_pos hrequested
    have hfirst : Step s (.resume k) (s.set k c) := by
      rw [Step, next, if_neg hqueued, hresume]
      rfl
    have hcall : (s.set k c).calls k = c := update_self _ _ _
    obtain ⟨how, c', hagain, hended⟩ := Call.resume_of_done (c := c) rfl hdone nofun
    have hsecond := hleave (s := s.set k c) (by rw [hcall]; exact nofun)
      (by rw [hcall]; exact hagain) hended
    simp only [State.set, update_idem] at hsecond
    exact ⟨[.resume k, .resume k], c', how, (Run.single hfirst).trans (.single hsecond), hended,
      by simp [Event.isOf]⟩
  · obtain ⟨how, c, hresume, hended⟩ := Call.resume_of_done hholds hdone fun hwaiting =>
      Bool.eq_false_iff.2 fun hrequested => hhandler ⟨hwaiting, hrequested⟩
    exact ⟨[.resume k], c, how, .single (hleave hqueued hresume hended), hended,
      by simp [Event.isOf]⟩

/-- **Every slot comes back.**  From every state of every run, a call that has a slot ends and
gives it back by steps of its own and of its thread alone, whatever the other calls do: nothing
else changes. -/
theorem slot_returns (hrun : Run Step (State.opened ι permits) tr s)
    (hholds : (s.calls k).holds = true) : ∃ tr' s' how, Run Step s tr' s' ∧
      (∀ e ∈ tr', Event.isOf k e = true) ∧ (s'.calls k).phase = .ended how ∧
      s'.value = s.value + 1 ∧ ∀ j, j ≠ k → s'.calls j = s.calls j := by
  have hworker : (s.calls k).worker ≠ .absent := by
    have hcall := (inv_of_run hrun).calls k
    intro habsent
    generalize s.calls k = c at hcall hholds habsent
    cases hcall with
    | waiting hworker _ => exact hworker habsent
    | grace hworker _ => exact hworker habsent
    | draining hworker _ => exact hworker habsent
    | idle => cases hholds
    | refused => cases hholds
    | queued _ => cases hholds
    | unserved => cases hholds
    | left _ _ _ _ => cases hholds
  obtain ⟨tr₁, outcome, hends, hown₁⟩ := worker_ends s hworker
  have hdone : ((s.set k { s.calls k with worker := .done outcome }).calls k).worker =
      .done outcome := by simp [State.set]
  obtain ⟨tr₂, c, how, hleaves, hended, hown₂⟩ :=
    call_leaves _ (by simpa [State.set, Call.holds] using hholds) hdone
  refine ⟨tr₁ ++ tr₂, _, how, hends.trans hleaves, ?_, ?_, rfl, ?_⟩
  · intro e he
    rcases List.mem_append.1 he with he | he
    · exact hown₁ e he
    · exact hown₂ e he
  · simpa using hended
  · intro j hj
    simp [State.set, update_of_ne hj]

end Calls

/-- Two calls and one slot. The first is cancelled twice and leaves its thread at work, the
second gets the slot then. -/
def cancelledTwice : List (Event Bool) :=
  [.start false true, .start true true, .enter false, .cancel false, .resume false,
    .cancel false, .resume false, .enter true]

theorem workers_within_slots_cancelledTwice : ∃ s, Run Step (State.opened Bool 1) cancelledTwice s ∧
    s.value + count Call.holds s.calls = 1 ∧ count Call.works s.calls = 2 ∧
    count Call.works s.calls ≤
      1 + (Finset.univ.filter fun k => 2 ≤ cancels cancelledTwice k).card := by
  have hplay : ∃ s, play next (State.opened Bool 1) cancelledTwice = some s ∧
      decide (count Call.works s.calls = 2) = true := by
    rw [← Option.any_eq_true]
    decide
  obtain ⟨s, hplay, hworks⟩ := hplay
  have hrun := run_of_play (fun _ _ _ hstep => hstep) hplay
  obtain ⟨hbalance, -, hcount, -⟩ := workers_within_slots hrun
  exact ⟨s, hrun, hbalance, of_decide_eq_true hworks, hcount⟩

/-- The first call is in its handler when the thread still works; the slot comes back. -/
theorem slot_returns_handling : ∃ s, Run Step (State.opened Bool 1)
      [.start false true, .enter false, .cancel false, .resume false] s ∧
    ∃ tr' s' how, Run Step s tr' s' ∧ (∀ e ∈ tr', Event.isOf false e = true) ∧
      (s'.calls false).phase = .ended how ∧ s'.value = s.value + 1 ∧
      ∀ j, j ≠ false → s'.calls j = s.calls j := by
  have hplay : ∃ s, play next (State.opened Bool 1)
      [.start false true, .enter false, .cancel false, .resume false] = some s ∧
      (s.calls false).holds = true := by
    rw [← Option.any_eq_true]
    decide
  obtain ⟨s, hplay, hholds⟩ := hplay
  have hrun := run_of_play (fun _ _ _ hstep => hstep) hplay
  exact ⟨s, hrun, slot_returns hrun hholds⟩

end DRCAgent.EdaSlots
