/-
# A lease for a coroutine

`acquire_from_environment_async` (src/drc_agent/infrastructure/resource_arbiter.py): a
worker thread waits in the queue of the arbiter while the coroutine waits for the thread,
behind a shield. When the coroutine is cancelled it sets the event that the thread checks
before each try, waits once more for the thread, and closes the lease if there is one.

The coroutine runs from one await to the next; a request to cancel it takes effect when it
is resumed. The thread goes on in between, and what it returns reaches the coroutine
through the loop.

A second cancellation in the handler ends the wait without the lease. If the thread is in a
try by then, it still takes its lease, which nobody closes (`cancelled_again_leaks`). In the
runs without that the lease is closed (`no_lease_leak`).
-/
import DRCAgent.LabelledRuns

namespace DRCAgent.AsyncAcquire

open Option Runs

/-! ## States -/

/-- How `acquire_from_environment` ends in the thread. -/
inductive WorkerOutcome
  /-- `None`: no arbiter is configured. -/
  | unconfigured
  | raised
  | lease
  deriving DecidableEq

/-- Where the thread is. -/
inductive Worker
  /-- Not started yet. -/
  | queued
  /-- Before `cancel_check`. -/
  | checking
  /-- In `_try_acquire`. -/
  | trying
  /-- Before the next poll. -/
  | polling
  | finished (outcome : WorkerOutcome)
  deriving DecidableEq

inductive CallEnd
  | returned | raised | cancelled
  deriving DecidableEq

/-- Where the coroutine is. -/
inductive Call
  /-- At the first `await asyncio.shield(task)`. -/
  | awaiting
  /-- At the one in the handler of `CancelledError`. -/
  | handling
  | ended (how : CallEnd)
  deriving DecidableEq

inductive LeaseStatus
  | absent | held | closed
  deriving DecidableEq

/-- The state after the task is created. -/
structure State where
  worker : Worker := .queued
  /-- `cancelled.is_set()` -/
  cancelled : Bool := false
  /-- `task.done()` -/
  taskDone : Bool := false
  call : Call := .awaiting
  /-- The coroutine is cancelled and not resumed yet. -/
  cancelRequested : Bool := false
  lease : LeaseStatus := .absent
  deriving DecidableEq

/-! ## Steps -/

inductive Event
  /-- The thread starts, with an arbiter or without one. -/
  | start (configured : Bool)
  | check
  /-- `_try_acquire` returns a lease. -/
  | acquire
  /-- It returns `None`. -/
  | busy
  | poll
  /-- An exception in the thread: of the environment, of a try, or the queue timeout. -/
  | fail
  /-- What the thread has returned reaches the task. -/
  | deliver
  /-- The coroutine is cancelled. -/
  | cancel
  /-- The coroutine goes on; closing a lease may raise. -/
  | resume (closeRaises : Bool)
  deriving DecidableEq

/-- The end of the handler, with what the task has returned. -/
def State.handled (s : State) (closeRaises : Bool) : State :=
  if s.worker = .finished .lease then
    { s with lease := .closed, call := .ended (if closeRaises then .raised else .cancelled) }
  else { s with call := .ended .cancelled }

/-- The coroutine goes on from an await. -/
def State.resume (s : State) (closeRaises : Bool) : Option State :=
  match s.call with
  | .awaiting =>
    if s.cancelRequested then
      let s := { s with cancelRequested := false, cancelled := true }
      -- the await of a task that is done returns at once
      if s.taskDone then some (s.handled closeRaises) else some { s with call := .handling }
    else if s.taskDone then
      some { s with call := .ended (if s.worker = .finished .raised then .raised else .returned) }
    else none
  | .handling =>
    -- `except BaseException: lease = None`
    if s.cancelRequested then some { s with cancelRequested := false, call := .ended .cancelled }
    else if s.taskDone then some (s.handled closeRaises)
    else none
  | .ended _ => none

/-- One step. -/
def next (s : State) : Event → Option State
  | .start configured =>
    if s.worker = .queued then
      some { s with worker := if configured then .checking else .finished .unconfigured }
    else none
  | .check =>
    if s.worker = .checking then
      some { s with worker := if s.cancelled then .finished .raised else .trying }
    else none
  | .acquire =>
    if s.worker = .trying then some { s with worker := .finished .lease, lease := .held } else none
  | .busy => if s.worker = .trying then some { s with worker := .polling } else none
  | .poll => if s.worker = .polling then some { s with worker := .checking } else none
  | .fail =>
    match s.worker with
    | .finished _ => none
    | _ => some { s with worker := .finished .raised }
  | .deliver =>
    match s.worker with
    | .finished _ => if s.taskDone then none else some { s with taskDone := true }
    | _ => none
  | .cancel =>
    match s.call with
    | .ended _ => none
    | _ => some { s with cancelRequested := true }
  | .resume closeRaises => s.resume closeRaises

/-- The step relation. -/
def Step (s : State) (e : Event) (s' : State) : Prop := next s e = some s'

/-! ## The invariant -/

/-- The thread has a lease or may still get one, whatever `cancel_check` says. -/
def Worker.mayHold : Worker → Bool
  | .trying => true
  | .finished .lease => true
  | _ => false

/-- The coroutine is not cancelled in its handler while the thread has a lease or is in a
try. -/
def NotAgain (s : State) (e : Event) : Prop :=
  ¬ (e = .cancel ∧ s.call = .handling ∧ s.worker.mayHold = true)

instance (s : State) (e : Event) : Decidable (NotAgain s e) := inferInstanceAs (Decidable (¬ _))

structure Inv (s : State) : Prop where
  done : s.taskDone = true → ∃ outcome, s.worker = .finished outcome
  lease : s.worker = .finished .lease ↔ s.lease ≠ .absent
  handling : s.call = .handling → s.cancelled = true
  /-- What waits for the coroutine in its handler is not a lease. -/
  requested : s.call = .handling → s.cancelRequested = true → s.worker.mayHold = false
  ended : s.call = .ended .cancelled →
    s.cancelled = true ∧ s.lease ≠ .held ∧ s.worker ≠ .trying

theorem inv_init : Inv {} where
  done h := nomatch h
  lease := by decide
  handling h := nomatch h
  requested h := nomatch h
  ended h := nomatch h

variable {s s' : State} {e : Event}

/-- The thread goes on without a lease, and into a try only if the event is not set. -/
theorem Inv.move (h : Inv s) {v w : Worker} (hat : s.worker = v)
    (hrunning : ∀ outcome, v ≠ .finished outcome)
    (hlease : w ≠ .finished .lease) (htry : w = .trying → s.cancelled = false) :
    Inv { s with worker := w } where
  done hdone := by
    obtain ⟨outcome, houtcome⟩ := h.done hdone
    exact absurd (hat.symm.trans houtcome) (hrunning outcome)
  lease := by
    refine iff_of_false hlease fun hpresent => ?_
    exact hrunning _ (hat.symm.trans (h.lease.2 hpresent))
  handling := h.handling
  requested hhandling _ := by
    have hset := h.handling hhandling
    show w.mayHold = false
    cases w with
    | trying => rw [htry rfl] at hset; cases hset
    | finished outcome =>
      cases outcome with
      | lease => exact absurd rfl hlease
      | unconfigured => rfl
      | raised => rfl
    | queued => rfl
    | checking => rfl
    | polling => rfl
  ended hended := by
    obtain ⟨hset, hheld, -⟩ := h.ended hended
    refine ⟨hset, hheld, fun heq => ?_⟩
    rw [htry heq] at hset
    cases hset

/-- The thread takes a lease: nobody has stopped waiting for it. -/
theorem Inv.acquire (h : Inv s) (htrying : s.worker = .trying) :
    Inv { s with worker := .finished .lease, lease := .held } where
  done hdone := ⟨.lease, rfl⟩
  lease := iff_of_true rfl (fun heq => nomatch heq)
  handling := h.handling
  requested hhandling hrequested := by
    have hmay := h.requested hhandling hrequested
    rw [htrying] at hmay
    cases hmay
  ended hended := absurd htrying (h.ended hended).2.2

/-- The call ends, but not with cancellation. -/
theorem Inv.leave (h : Inv s) {how : CallEnd} (hhow : how ≠ .cancelled) :
    Inv { s with call := .ended how } where
  done := h.done
  lease := h.lease
  handling hcall := nomatch hcall
  requested hcall := nomatch hcall
  ended hcall := absurd (Call.ended.inj hcall) hhow

/-- The call ends with cancellation, where no lease is open and none can be taken. -/
theorem Inv.quit (h : Inv s) (hset : s.cancelled = true) (hheld : s.lease ≠ .held)
    (htrying : s.worker ≠ .trying) :
    Inv { s with cancelRequested := false, call := .ended .cancelled } where
  done := h.done
  lease := h.lease
  handling hcall := nomatch hcall
  requested hcall := nomatch hcall
  ended _ := ⟨hset, hheld, htrying⟩

/-- A thread that cannot hold a lease holds none. -/
theorem Inv.not_held (h : Inv s) (hmay : s.worker.mayHold = false) :
    s.lease ≠ .held ∧ s.worker ≠ .trying := by
  constructor
  · intro hheld
    have hpresent : s.lease ≠ .absent := by
      rw [hheld]
      exact fun heq => nomatch heq
    rw [h.lease.2 hpresent] at hmay
    cases hmay
  · intro htrying
    rw [htrying] at hmay
    cases hmay

/-- The handler ends with what the task has returned. -/
theorem inv_handled {closeRaises : Bool} (h : Inv s) (hset : s.cancelled = true)
    (hrequested : s.cancelRequested = false) (hdone : s.taskDone = true) :
    Inv (s.handled closeRaises) := by
  obtain ⟨outcome, houtcome⟩ := h.done hdone
  unfold State.handled
  by_cases hlease : s.worker = .finished .lease
  · rw [if_pos hlease]
    refine ⟨fun _ => ⟨outcome, houtcome⟩, iff_of_true hlease (fun heq => nomatch heq), ?_, ?_, ?_⟩
    · exact fun hcall => nomatch hcall
    · exact fun hcall => nomatch hcall
    · refine fun _ => ⟨hset, (fun heq => nomatch heq), fun htrying => ?_⟩
      rw [hlease] at htrying
      cases htrying
  · rw [if_neg hlease]
    have hmay : s.worker.mayHold = false := by
      rw [houtcome] at hlease ⊢
      cases outcome with
      | lease => exact absurd rfl hlease
      | unconfigured => rfl
      | raised => rfl
    have hquit := h.quit hset (h.not_held hmay).1 (h.not_held hmay).2
    rwa [← hrequested] at hquit

/-- The coroutine goes on. -/
theorem inv_resume {closeRaises : Bool} (h : Inv s) (hstep : s.resume closeRaises = some s') :
    Inv s' := by
  unfold State.resume at hstep
  cases hcall : s.call with
  | ended how =>
    rw [hcall] at hstep
    cases hstep
  | awaiting =>
    simp only [hcall] at hstep
    by_cases hrequested : s.cancelRequested = true
    · rw [if_pos hrequested] at hstep
      -- the handler is entered, and the event is set
      have hentered : Inv { s with cancelRequested := false, cancelled := true } := by
        refine ⟨h.done, h.lease, fun _ => rfl, fun _ hagain => (nomatch hagain), ?_⟩
        intro hended
        have hended : s.call = .ended .cancelled := hended
        rw [hcall] at hended
        cases hended
      by_cases hdone : s.taskDone = true
      · rw [if_pos hdone] at hstep
        obtain rfl := some.inj hstep
        rw [← hcall]
        exact inv_handled hentered rfl rfl hdone
      · rw [if_neg hdone] at hstep
        obtain rfl := some.inj hstep
        refine ⟨h.done, h.lease, fun _ => rfl, fun _ hagain => (nomatch hagain), ?_⟩
        exact fun hended => nomatch hended
    · rw [if_neg hrequested] at hstep
      split_ifs at hstep
      · obtain rfl := some.inj hstep
        exact h.leave (fun heq => nomatch heq)
      · obtain rfl := some.inj hstep
        exact h.leave (fun heq => nomatch heq)
  | handling =>
    simp only [hcall] at hstep
    by_cases hrequested : s.cancelRequested = true
    · -- cancelled again: the thread has no lease and gets none
      rw [if_pos hrequested] at hstep
      obtain rfl := some.inj hstep
      obtain ⟨hheld, htrying⟩ := h.not_held (h.requested hcall hrequested)
      exact h.quit (h.handling hcall) hheld htrying
    · rw [if_neg hrequested] at hstep
      split_ifs at hstep with hdone
      obtain rfl := some.inj hstep
      exact inv_handled h (h.handling hcall) (Bool.eq_false_iff.2 hrequested) hdone

/-- **The step lemma.** -/
theorem inv_step (h : Inv s) (hguard : NotAgain s e) (hstep : Step s e s') : Inv s' := by
  unfold Step at hstep
  cases e with
  | start configured =>
    rw [next] at hstep
    split_ifs at hstep with hqueued hconfigured
    · obtain rfl := some.inj hstep
      exact h.move hqueued (fun _ heq => nomatch heq) (fun heq => nomatch heq)
        (fun heq => nomatch heq)
    · obtain rfl := some.inj hstep
      exact h.move hqueued (fun _ heq => nomatch heq) (fun heq => nomatch heq)
        (fun heq => nomatch heq)
  | check =>
    rw [next] at hstep
    split_ifs at hstep with hchecking hset
    · obtain rfl := some.inj hstep
      exact h.move hchecking (fun _ heq => nomatch heq) (fun heq => nomatch heq)
        (fun heq => nomatch heq)
    · obtain rfl := some.inj hstep
      exact h.move hchecking (fun _ heq => nomatch heq) (fun heq => nomatch heq)
        (fun _ => Bool.eq_false_iff.2 hset)
  | acquire =>
    rw [next] at hstep
    split_ifs at hstep with htrying
    obtain rfl := some.inj hstep
    exact h.acquire htrying
  | busy =>
    rw [next] at hstep
    split_ifs at hstep with htrying
    obtain rfl := some.inj hstep
    exact h.move htrying (fun _ heq => nomatch heq) (fun heq => nomatch heq)
      (fun heq => nomatch heq)
  | poll =>
    rw [next] at hstep
    split_ifs at hstep with hpolling
    obtain rfl := some.inj hstep
    exact h.move hpolling (fun _ heq => nomatch heq) (fun heq => nomatch heq)
      (fun heq => nomatch heq)
  | fail =>
    rw [next] at hstep
    split at hstep
    · cases hstep
    · next hrunning =>
        obtain rfl := some.inj hstep
        exact h.move rfl hrunning (fun heq => nomatch heq) (fun heq => nomatch heq)
  | deliver =>
    rw [next] at hstep
    split at hstep
    · next outcome houtcome =>
        split_ifs at hstep
        obtain rfl := some.inj hstep
        exact ⟨fun _ => ⟨outcome, houtcome⟩, h.lease, h.handling, h.requested, h.ended⟩
    · cases hstep
  | cancel =>
    rw [next] at hstep
    split at hstep
    · cases hstep
    · next hcall =>
        obtain rfl := some.inj hstep
        refine ⟨h.done, h.lease, h.handling, fun hhandling _ => ?_, h.ended⟩
        exact Bool.eq_false_iff.2 fun hmay => hguard ⟨rfl, hhandling, hmay⟩
  | resume closeRaises => exact inv_resume h hstep

/-! ## Runs -/

/-- **No lease leaks** in the runs in which the coroutine is not cancelled again, in the
handler, while the thread has a lease or is in a try: when the call has ended with
cancellation, no lease of it is open, and none will be. -/
theorem no_lease_leak (events : List Event) (s : State)
    (h : Run (Guarded NotAgain Step) {} events s) (hended : s.call = .ended .cancelled) :
    s.lease ≠ .held ∧ s.worker ≠ .trying := by
  have hinv : Inv s := Run.guarded_invariant Inv inv_init
    (fun _ _ _ hI hguard hstep => inv_step hI hguard hstep) h
  exact (hinv.ended hended).2

/-- One cancellation, in the middle of a try: the lease is taken and closed. -/
def cancelledOnce : List Event :=
  [.start true, .check, .cancel, .resume false, .acquire, .deliver, .resume false]

theorem no_lease_leak_cancelledOnce :
    ∃ s, Run (Guarded NotAgain Step) {} cancelledOnce s ∧
      s.call = .ended .cancelled ∧ s.worker = .finished .lease ∧ s.lease ≠ .held := by
  have hplay : play (guardNext NotAgain next) {} cancelledOnce = some
      { worker := .finished .lease, cancelled := true, taskDone := true, call := .ended .cancelled
        lease := .closed } := by decide
  have hrun := guarded_of_play (fun _ _ _ hstep => hstep) hplay
  exact ⟨_, hrun, rfl, rfl, (no_lease_leak _ _ hrun rfl).1⟩

/-- **The condition is sharp**: a coroutine in its handler that is cancelled during a try may
end without the lease that the thread then takes. -/
theorem cancelled_again_leaks (hcall : s.call = .handling) (htrying : s.worker = .trying) :
    ∃ s', Run Step s [.cancel, .resume false, .acquire] s' ∧ s'.call = .ended .cancelled ∧
      s'.worker = .finished .lease ∧ s'.lease = .held := by
  refine ⟨{ s with
    worker := .finished .lease, cancelRequested := false, call := .ended .cancelled
    lease := .held }, ?_, rfl, rfl, rfl⟩
  refine run_of_play (fun _ _ _ hstep => hstep) ?_
  simp [play, next, State.resume, hcall, htrying]

/-- Two cancellations during a try. -/
def cancelledTwice : List Event :=
  [.start true, .check, .cancel, .resume false, .cancel, .resume false, .acquire]

/-- The call has ended with cancellation, the thread has finished, and its lease is open. -/
theorem lease_leaks_cancelledTwice :
    ∃ s, Run Step {} cancelledTwice s ∧ s.call = .ended .cancelled ∧
      s.worker = .finished .lease ∧ s.lease = .held := by
  have hplay : play next {} cancelledTwice = some
      { worker := .finished .lease, cancelled := true, call := .ended .cancelled
        lease := .held } := by decide
  exact ⟨_, run_of_play (fun _ _ _ hstep => hstep) hplay, rfl, rfl, rfl⟩

end DRCAgent.AsyncAcquire
