/-
# The global resource arbiter

`GlobalResourceArbiter` (src/drc_agent/infrastructure/resource_arbiter.py): a fixed
number of slots for each kind of resource, each slot a lock file that the processes of
all hosts share. A lease is the lock on a slot's file; the text of the file is a
record of who holds or held it.

`_try_acquire` goes through the slots: it tries the lock, reads what the file says,
asks the liveness probe whether a record that still says HELD has work in flight, and
writes its own record. The lease is returned once the event ACQUIRED is appended.

The lock is the operating system's: one holder, released when the holder's process
ends. Everything between two accesses to the shared state is one step here, a write
of a record is several (the file is truncated, text arrives, the write is complete),
and a process can end between any two steps.
-/
import Mathlib.Data.Option.Basic
import DRCAgent.ProcessTable

namespace DRCAgent

open Function Processes

/-! ## The records of the slots -/

inductive ResourceKind
  | http | eda
deriving DecidableEq

/-- The limits of the kinds; one that is not positive is rejected. -/
abbrev ResourceLimits := ResourceKind → ℕ

/-- `DEFAULT_GLOBAL_LIMITS` -/
def defaultGlobalLimits : ResourceLimits
  | .http => 8
  | .eda => 4

inductive LeaseState
  | held | released
deriving DecidableEq

/-- What a record says about a process. `none` stands for every value that Python
counts as false. -/
structure ProcessIdentity where
  hostname : Option String := none
  pid : Option ℕ := none
  startTicks : Option ℕ := none
  bootId : Option String := none

/-- The fields of a record that the arbiter or its events read. -/
structure ResourceMetadata where
  state : LeaseState
  kind : ResourceKind
  slotId : ℕ
  leaseId : String
  ownerId : String
  runId : String
  attemptId : String
  purpose : String
  owner : ProcessIdentity
  worker : ProcessIdentity := {}
  containerName : Option String := none
  containerOwnerTokenHash : Option String := none
  outcome : Option String := none

/-- The text of a slot's file. -/
inductive SlotText
  | blank
  | invalidJson
  | notAnObject
  | object (metadata : ResourceMetadata)

/-- What `_read_stream_json` returns: the keys of a record, or `metadata_error`. -/
structure StreamJson where
  metadata : Option ResourceMetadata := none
  metadataError : Option String := none

/-- `_read_stream_json` -/
def readStreamJson : SlotText → StreamJson
  | .blank => {}
  | .invalidJson => { metadataError := some "INVALID_JSON" }
  | .notAnObject => { metadataError := some "NOT_AN_OBJECT" }
  | .object m => { metadata := some m }

/-! ## The liveness probe -/

/-- What a process sees of its host: its name, its boot id, the start ticks of a pid and
whether its state is Z, and what `docker inspect` prints (`none` if it fails). -/
structure HostView where
  hostname : String
  bootId : Option String
  pidStat : ℕ → Option (ℕ × Bool)
  inspect : String → Option String

/-- `_process_identity_alive` -/
def processIdentityAlive (v : HostView) (identity : ProcessIdentity) : Option Bool :=
  match identity.pid with
  | none => none
  | some pid =>
    if identity.hostname ≠ some v.hostname then none
    else if identity.bootId.isSome ∧ v.bootId.isSome ∧ identity.bootId ≠ v.bootId then some false
    else
      match v.pidStat pid with
      | none => some false
      | some (ticks, zombie) =>
        if zombie then some false
        else some (identity.startTicks.all (ticks == ·))

/-- `str.strip` -/
def strip (text : List Char) : List Char :=
  ((text.dropWhile Char.isWhitespace).reverse.dropWhile Char.isWhitespace).reverse

/-- `str.partition("|")`: before the separator, whether there is one, after it. -/
def partitionBar (text : List Char) : List Char × Bool × List Char :=
  (text.takeWhile (· ≠ '|'), text.contains '|', (text.dropWhile (· ≠ '|')).tail)

/-- `_owned_container_active` -/
def ownedContainerActive (v : HostView) (m : ResourceMetadata) : Bool :=
  match m.containerName with
  | none => false
  | some name =>
    match v.inspect name with
    | none => false
    | some value =>
      let (status, separator, identities) := partitionBar (strip value.toList)
      let (attemptId, second, ownerHash) := partitionBar identities
      let expectedHash := m.containerOwnerTokenHash.getD ""
      if !separator || !second then false
      else if attemptId ≠ m.attemptId.toList then false
      else if expectedHash ≠ "" ∧ ownerHash ≠ expectedHash.toList then false
      else ["created", "running", "restarting", "paused"].any (·.toList == status)

/-- `_default_orphan_probe`: whether metadata without a lock still owns work. -/
def defaultOrphanProbe (v : HostView) (m : ResourceMetadata) : Bool :=
  processIdentityAlive v m.worker == some true ||
    processIdentityAlive v m.owner == some true ||
    ownedContainerActive v m ||
    (m.kind == .eda && m.worker.pid.isSome && m.worker.hostname != some v.hostname)

/-- `previous.get("state") == "HELD" and self.orphan_probe(previous)` -/
def StreamJson.blocks (v : HostView) (json : StreamJson) : Bool :=
  json.metadata.any fun m => m.state == .held && defaultOrphanProbe v m

/-! ## The pool -/

/-- Hosts and boots go by their names. -/
abbrev OsProcess := Process String String

abbrev OsTable := Table String String

abbrev OsEvent := ProcessEvent String String

/-- What a process of the host sees, where `docker inspect` answers `inspect`. -/
def hostView (t : OsTable) (host : String) (inspect : String → Option String) : HostView where
  hostname := host
  bootId := some (t.bootId host)
  pidStat := t.stat host
  inspect := inspect

/-- What a record says about pid `pid` of the host: `_pid_start_ticks` and `_boot_id`
are read when it is written. -/
def recordedIdentity (t : OsTable) (host : String) (pid : ℕ) : ProcessIdentity where
  hostname := some host
  pid := some pid
  startTicks := (t.stat host pid).map (·.1)
  bootId := some (t.bootId host)

/-- The arguments of `acquire` that end up in the record. -/
structure LeaseRequest where
  ownerId : String
  runId : String
  attemptId : String
  purpose : String

/-- What a write of a record is for: the grant of a slot, the mark that the admission
failed, an update of the worker, the release. -/
inductive WriteGoal
  | grant | abandon | update | close
deriving DecidableEq

/-- What follows an unlock. -/
inductive AfterUnlock
  /-- The probe said no: the next slot. -/
  | scan (next : ℕ)
  /-- An exception before the slot's file was touched. -/
  | raised
  /-- An exception after it was. -/
  | abandoned
  | closed

/-- Where a call of `acquire`, and then its lease, is. -/
inductive AcquirePhase
  | scanning (slot : ℕ)
  /-- No slot was available: QUEUED, and the next poll. -/
  | waiting
  | locked (slot : ℕ)
  | read (slot : ℕ) (previous : StreamJson)
  /-- The probe let the slot pass. -/
  | granting (slot : ℕ) (previous : StreamJson)
  /-- In `_write_stream_json`, before the file is truncated. -/
  | preparing (slot : ℕ) (metadata : ResourceMetadata) (goal : WriteGoal)
  /-- In `_write_stream_json`, after it is. -/
  | writing (slot : ℕ) (metadata : ResourceMetadata) (goal : WriteGoal)
  /-- The record is written; ACQUIRED is to be appended. -/
  | recorded (slot : ℕ) (metadata : ResourceMetadata)
  | leased (slot : ℕ) (metadata : ResourceMetadata)
  | unlocking (slot : ℕ) (after : AfterUnlock)
  | gone

namespace AcquirePhase

/-- The slot whose lock is held. -/
def slot? : AcquirePhase → Option ℕ
  | locked i | read i _ | granting i _ | preparing i _ _ | writing i _ _ | recorded i _
  | leased i _ | unlocking i _ => some i
  | scanning _ | waiting | gone => none

/-- The lease was returned and is not closed yet. -/
def leaseOpen : AcquirePhase → Bool
  | leased _ _ | preparing _ _ .update | preparing _ _ .close | writing _ _ .update
  | writing _ _ .close | unlocking _ .closed => true
  | _ => false

/-- Between the first write to the slot's file and the return of the lease. -/
def admitting : AcquirePhase → Bool
  | writing _ _ .grant | recorded _ _ | preparing _ _ .abandon | writing _ _ .abandon
  | unlocking _ .abandoned => true
  | _ => false

end AcquirePhase

/-- A call of `acquire` by a process, on an arbiter with these limits. -/
structure Attempt where
  process : OsProcess
  kind : ResourceKind
  limits : ResourceLimits
  request : LeaseRequest
  phase : AcquirePhase

/-- A slot: who holds the lock of its file, and the text of the file. -/
structure ArbiterSlot where
  holder : Option ℕ := none
  text : SlotText := .blank

/-- The processes, `policy.json`, the slots and the calls of `acquire`. -/
structure Pool where
  table : OsTable
  policy : Option ResourceLimits := none
  slots : ResourceKind → ℕ → ArbiterSlot := fun _ _ => {}
  attempts : ℕ → Option Attempt := fun _ => none

/-- The record of a slot that is granted. -/
def grantedMetadata (t : OsTable) (att : Attempt) (slot : ℕ) (leaseId : String) :
    ResourceMetadata where
  state := .held
  kind := att.kind
  slotId := slot
  leaseId := leaseId
  ownerId := att.request.ownerId
  runId := att.request.runId
  attemptId := att.request.attemptId
  purpose := att.request.purpose
  owner := recordedIdentity t att.process.host att.process.pid

namespace ResourceMetadata

/-- `update_worker` -/
def withWorker (m : ResourceMetadata) (t : OsTable) (host : String) (pid : ℕ)
    (containerName containerOwnerTokenHash : Option String) : ResourceMetadata :=
  { m with
    worker := recordedIdentity t host pid
    containerName := containerName
    containerOwnerTokenHash := containerOwnerTokenHash }

/-- `clear_worker` -/
def withoutWorker (m : ResourceMetadata) : ResourceMetadata :=
  { m with
    worker := { m.worker with pid := none, startTicks := none }
    containerName := none
    containerOwnerTokenHash := none }

/-- `close` -/
def closed (m : ResourceMetadata) (outcome : String) : ResourceMetadata :=
  { m.withoutWorker with state := .released, outcome := some outcome }

/-- The record of an admission whose event could not be appended. -/
def eventFailed (m : ResourceMetadata) : ResourceMetadata :=
  { m with state := .released, outcome := some "ACQUIRE_EVENT_FAILED" }

end ResourceMetadata

/-! ## The steps -/

inductive AttemptEvent
  /-- The non-blocking lock of the next slot, or the end of the loop over the slots. -/
  | tryLock
  | poll
  /-- The queue timeout, or a cancelled caller. -/
  | giveUp
  | readSlot
  | probe (inspect : String → Option String)
  | grant (leaseId : String)
  | truncate
  /-- A part of the record reaches the file. -/
  | spill
  | finish
  /-- ACQUIRED is appended and the lease returned. -/
  | returnLease
  | updateWorker (pid : ℕ) (containerName containerOwnerTokenHash : Option String)
  | clearWorker
  | close (outcome : String)
  | unlock
  /-- An exception. -/
  | raise

/-- What a step does to the slot. -/
inductive SlotEffect
  | untouched
  | lock (slot : ℕ)
  | unlock (slot : ℕ)
  | write (slot : ℕ) (text : SlotText)

/-- Where a completed write leads. -/
def WriteGoal.finished (goal : WriteGoal) (slot : ℕ) (m : ResourceMetadata) : AcquirePhase :=
  match goal with
  | .grant => .recorded slot m
  | .abandon => .unlocking slot .abandoned
  | .update => .leased slot m
  | .close => .unlocking slot .closed

/-- Where an exception in a write leads: an update leaves the lease open, the others
unlock. -/
def WriteGoal.failed (goal : WriteGoal) (truncated : Bool) (slot : ℕ) (m : ResourceMetadata) :
    AcquirePhase :=
  match goal with
  | .grant => .unlocking slot (if truncated then .abandoned else .raised)
  | .abandon => .unlocking slot .abandoned
  | .update => .leased slot m
  | .close => .unlocking slot .closed

/-- Where an exception outside a write leads, if one can occur there. A failure of the
event ACQUIRED tries to mark the slot as released. -/
def AcquirePhase.raised : AcquirePhase → Option AcquirePhase
  | scanning _ | waiting => some .gone
  | locked i | read i _ | granting i _ => some (.unlocking i .raised)
  | preparing i m goal => some (goal.failed false i m)
  | writing i m goal => some (goal.failed true i m)
  | recorded i m => some (.preparing i m.eventFailed .abandon)
  | leased _ _ | unlocking _ _ | gone => none

/-- The phase after an unlock. -/
def AfterUnlock.phase : AfterUnlock → AcquirePhase
  | scan next => .scanning next
  | raised | abandoned | closed => .gone

/-- The steps of one call, on the slots of its kind. -/
inductive AttemptStep (t : OsTable) (slots : ℕ → ArbiterSlot) (att : Attempt) :
    AttemptEvent → AcquirePhase → SlotEffect → Prop
  | lock {i : ℕ} (hphase : att.phase = .scanning i) (hlt : i < att.limits att.kind)
      (hfree : (slots i).holder = none) :
      AttemptStep t slots att .tryLock (.locked i) (.lock i)
  | busy {i : ℕ} (hphase : att.phase = .scanning i) (hlt : i < att.limits att.kind)
      (hheld : (slots i).holder ≠ none) :
      AttemptStep t slots att .tryLock (.scanning (i + 1)) .untouched
  | exhausted {i : ℕ} (hphase : att.phase = .scanning i) (hge : att.limits att.kind ≤ i) :
      AttemptStep t slots att .tryLock .waiting .untouched
  | poll (hphase : att.phase = .waiting) :
      AttemptStep t slots att .poll (.scanning 0) .untouched
  | giveUp (hphase : att.phase = .waiting) :
      AttemptStep t slots att .giveUp .gone .untouched
  | readSlot {i : ℕ} (hphase : att.phase = .locked i) :
      AttemptStep t slots att .readSlot (.read i (readStreamJson (slots i).text)) .untouched
  | skip {i : ℕ} {previous : StreamJson} {inspect : String → Option String}
      (hphase : att.phase = .read i previous)
      (hblocks : previous.blocks (hostView t att.process.host inspect) = true) :
      AttemptStep t slots att (.probe inspect) (.unlocking i (.scan (i + 1))) .untouched
  | pass {i : ℕ} {previous : StreamJson} {inspect : String → Option String}
      (hphase : att.phase = .read i previous)
      (hpass : previous.blocks (hostView t att.process.host inspect) = false) :
      AttemptStep t slots att (.probe inspect) (.granting i previous) .untouched
  | grant {i : ℕ} {previous : StreamJson} {leaseId : String}
      (hphase : att.phase = .granting i previous) :
      AttemptStep t slots att (.grant leaseId)
        (.preparing i (grantedMetadata t att i leaseId) .grant) .untouched
  | truncate {i : ℕ} {m : ResourceMetadata} {goal : WriteGoal}
      (hphase : att.phase = .preparing i m goal) :
      AttemptStep t slots att .truncate (.writing i m goal) (.write i .blank)
  | spill {i : ℕ} {m : ResourceMetadata} {goal : WriteGoal}
      (hphase : att.phase = .writing i m goal) :
      AttemptStep t slots att .spill (.writing i m goal) (.write i .invalidJson)
  | finish {i : ℕ} {m : ResourceMetadata} {goal : WriteGoal}
      (hphase : att.phase = .writing i m goal) :
      AttemptStep t slots att .finish (goal.finished i m) (.write i (.object m))
  | returnLease {i : ℕ} {m : ResourceMetadata} (hphase : att.phase = .recorded i m) :
      AttemptStep t slots att .returnLease (.leased i m) .untouched
  | updateWorker {i pid : ℕ} {m : ResourceMetadata} {name hash : Option String}
      (hphase : att.phase = .leased i m) :
      AttemptStep t slots att (.updateWorker pid name hash)
        (.preparing i (m.withWorker t att.process.host pid name hash) .update) .untouched
  | clearWorker {i : ℕ} {m : ResourceMetadata} (hphase : att.phase = .leased i m) :
      AttemptStep t slots att .clearWorker (.preparing i m.withoutWorker .update) .untouched
  | close {i : ℕ} {m : ResourceMetadata} {outcome : String} (hphase : att.phase = .leased i m) :
      AttemptStep t slots att (.close outcome) (.preparing i (m.closed outcome) .close) .untouched
  | unlock {i : ℕ} {after : AfterUnlock} (hphase : att.phase = .unlocking i after) :
      AttemptStep t slots att .unlock after.phase (.unlock i)
  | raise {phase' : AcquirePhase} (hraised : att.phase.raised = some phase') :
      AttemptStep t slots att .raise phase' .untouched

/-- The slot after a step of call `a`. -/
def SlotEffect.apply (a : ℕ) (eff : SlotEffect) (slots : ℕ → ArbiterSlot) : ℕ → ArbiterSlot :=
  match eff with
  | untouched => slots
  | lock i => update slots i { slots i with holder := some a }
  | unlock i => update slots i { slots i with holder := none }
  | write i text => update slots i { slots i with text := text }

namespace Pool

/-- The pool after call `a` went to `phase`. -/
def after (σ : Pool) (a : ℕ) (att : Attempt) (phase : AcquirePhase) (eff : SlotEffect) : Pool :=
  { σ with
    slots := update σ.slots att.kind (eff.apply a (σ.slots att.kind))
    attempts := update σ.attempts a (some { att with phase := phase }) }

/-- Whether the event ends the process of call `a`. -/
def endsAttempt (σ : Pool) (e : OsEvent) (a : ℕ) : Bool :=
  (σ.attempts a).any fun att => decide (e.Ends att.process)

/-- The pool after an event of the operating system: the calls of a process that ended
are over, and their locks are released. -/
def processStep (σ : Pool) (e : OsEvent) : Pool :=
  { σ with
    table := e.apply σ.table
    slots := fun k i =>
      { σ.slots k i with holder := (σ.slots k i).holder.filter fun a => !σ.endsAttempt e a }
    attempts := fun a => (σ.attempts a).map fun att =>
      if e.Ends att.process then { att with phase := .gone } else att }

end Pool

inductive ArbiterEvent
  | process (e : OsEvent)
  /-- A process makes an arbiter with these limits and calls `acquire`. -/
  | construct (a : ℕ) (p : OsProcess) (kind : ResourceKind) (limits : ResourceLimits)
      (request : LeaseRequest)
  | act (a : ℕ) (e : AttemptEvent)

/-- `_initialize_policy`, under the lock of the policy: the limits are those of the
policy, if there is one; else they become the policy. -/
def initializePolicy (policy : Option ResourceLimits) (limits : ResourceLimits) :
    Option ResourceLimits :=
  match policy with
  | none => some limits
  | some current =>
    if current .http = limits .http ∧ current .eda = limits .eda then some current
    else none

/-- The steps of the pool. An arbiter whose limits are not positive, or drift from the
policy, is not made. -/
inductive ArbiterStep : Pool → ArbiterEvent → Pool → Prop
  | process {σ : Pool} {e : OsEvent} (he : e.Enabled σ.table) :
      ArbiterStep σ (.process e) (σ.processStep e)
  | construct {σ : Pool} {a : ℕ} {p : OsProcess} {kind : ResourceKind}
      {limits policy : ResourceLimits} {request : LeaseRequest} (hnew : σ.attempts a = none)
      (halive : σ.table.Alive p) (hpositive : ∀ k, 1 ≤ limits k)
      (hpolicy : initializePolicy σ.policy limits = some policy) :
      ArbiterStep σ (.construct a p kind limits request)
        { σ with
          policy := some policy
          attempts := update σ.attempts a (some ⟨p, kind, limits, request, .scanning 0⟩) }
  | act {σ : Pool} {a : ℕ} {att : Attempt} {e : AttemptEvent} {phase : AcquirePhase}
      {eff : SlotEffect} (hatt : σ.attempts a = some att)
      (hstep : AttemptStep σ.table (σ.slots att.kind) att e phase eff) :
      ArbiterStep σ (.act a e) (σ.after a att phase eff)

/-- A pool without slots in use: the hosts are up, and no process has started yet. -/
def Pool.start (bootId : String → String) : Pool where
  table := { bootId := bootId, stat := fun _ _ => none, started := [] }

end DRCAgent
