/-
# The status of the resource pool

`read_resource_status` and `_try_acquire` (src/drc_agent/infrastructure/resource_arbiter.py)
in a quiescent moment: nothing changes but what the call itself does. Both read the
records of the slots from disk, where a record is whatever JSON the file has.

The lock of a file is the operating system's: whether another holder has it is a field of
the file here, and a file that does not exist is not locked. The liveness probe is any
function of the record. What can fail in `_try_acquire` is given: the events and the
writes for each slot.

Both pass over a slot for the same reason (`SlotFile.blocks`), so the status reports fewer
leases than the limit exactly if an acquisition does not come back empty
(`status_agrees_with_acquisition`).
-/
import DRCAgent.Connectivity
import DRCAgent.Failures
import DRCAgent.ResourceArbiter

namespace DRCAgent.SlotFiles

open Connectivity List

/-! ## The files of the slots -/

/-- A JSON object. -/
abbrev Dict := List (String × Json)

/-- The text of a file, by what `json.loads` makes of it. -/
inductive FileText
  | blank
  | invalid
  | value (json : Json)

/-- `_read_stream_json` -/
def readStreamJson : FileText → Dict
  | .blank => []
  | .invalid => [("metadata_error", .string "INVALID_JSON")]
  | .value (.object metadata) => metadata
  | .value _ => [("metadata_error", .string "NOT_AN_OBJECT")]

/-- `metadata.get("state") == "HELD"` -/
def isHeld (metadata : Dict) : Bool :=
  match metadata.lookup "state" with
  | some (.string state) => state = "HELD"
  | _ => false

/-- The file of a slot; `locked` says that another holder has its lock. -/
structure SlotFile where
  locked : Bool := false
  text : FileText := .blank

/-- The files of the slots of one kind. -/
abbrev SlotDisk := ℕ → Option SlotFile

def kindName : ResourceKind → String
  | .http => "http"
  | .eda => "eda"

def slotPath (root : String) (kind : ResourceKind) (slotId : ℕ) : String :=
  root ++ "/slots/" ++ kindName kind ++ "/slot" ++ toString slotId ++ ".lock"

/-- What the liveness probe answers. -/
abbrev Probe := Dict → Bool

/-- Why a slot is passed over: another holder has the lock, or its record says HELD and the
probe finds work. -/
def SlotFile.blocks (probe : Probe) (file : SlotFile) : Bool :=
  file.locked || (isHeld (readStreamJson file.text) && probe (readStreamJson file.text))

/-! ## The status -/

/-- The limits of an arbiter; the constructor rejects one that is not positive. -/
structure ArbiterLimits where
  limit : ResourceLimits
  positive : ∀ kind, 1 ≤ limit kind

structure SlotRow where
  slotId : ℕ
  active : Bool
  lockHeld : Bool
  orphanWorkerActive : Bool
  metadata : Option Dict
  path : String

structure ResourceRow where
  limit : ℕ
  inFlight : ℕ
  slots : List SlotRow

/-- The row of a slot. -/
def slotRow (root : String) (kind : ResourceKind) (probe : Probe) (disk : SlotDisk) (slotId : ℕ) :
    SlotRow :=
  match disk slotId with
  | none =>
    { slotId := slotId, active := false, lockHeld := false, orphanWorkerActive := false
      metadata := none, path := slotPath root kind slotId }
  | some file =>
    let metadata := readStreamJson file.text
    let orphanActive := !file.locked && isHeld metadata && probe metadata
    { slotId := slotId
      active := file.locked || orphanActive
      lockHeld := file.locked
      orphanWorkerActive := orphanActive
      metadata := if file.locked || orphanActive then some metadata else none
      path := slotPath root kind slotId }

/-- The entry of a kind. -/
def resourceRow (root : String) (kind : ResourceKind) (probe : Probe) (disk : SlotDisk)
    (limit : ℕ) : ResourceRow :=
  let slots := (List.range limit).map (slotRow root kind probe disk)
  { limit := limit, inFlight := slots.countP (·.active), slots := slots }

/-- `policy.json`: the file may be missing or unreadable. -/
inductive PolicyFile
  | missing
  | unreadable
  | value (json : Json)

inductive ResourceStatus
  | notConfigured
  | available (resources : List (ResourceKind × ResourceRow))

/-- `kind in DEFAULT_GLOBAL_LIMITS` -/
def kindOf (name : String) : Option ResourceKind :=
  if name = "http" then some .http else if name = "eda" then some .eda else none

/-- The limits of the policy: `ValueError` and `TypeError` are caught. -/
def policyLimits (intOfText : String → Option ℤ) (policy : Json) :
    Except PyError (List (ResourceKind × ℤ)) := do
  let limits ←
    match policy with
    | .object entries => .ok ((entries.lookup "limits").getD .null).orEmpty
    | _ => .error .attributeError
  let entries ←
    match limits with
    | .object entries => .ok entries
    | _ => .error .attributeError
  let known := entries.filterMap fun entry => (kindOf entry.1).map fun kind => (kind, entry.2)
  match known.mapM fun entry => do
      let value ← entry.2.toInt intOfText
      return (entry.1, value) with
  | .ok configured => .ok configured
  | .error e => if e.caught then .ok [] else .error e

/-- `configured`: the limits that are given, else those of the policy. -/
def configuredLimits (intOfText : String → Option ℤ) (limits : Option ArbiterLimits)
    (policy : PolicyFile) : Except PyError (List (ResourceKind × ℤ)) :=
  match limits, policy with
  | some limits, _ => .ok [(.http, limits.limit .http), (.eda, limits.limit .eda)]
  | none, .missing => .ok []
  | none, .unreadable => .ok []
  | none, .value json => policyLimits intOfText json

/-- `read_resource_status` -/
def readResourceStatus (intOfText : String → Option ℤ) (root : String)
    (limits : Option ArbiterLimits) (policy : PolicyFile) (probe : Probe)
    (disk : ResourceKind → SlotDisk) : Except PyError ResourceStatus := do
  let configured ← configuredLimits intOfText limits policy
  let kinds := configured.map (·.1)
  if ¬ (.http ∈ kinds ∧ .eda ∈ kinds) ∨ configured.any (fun entry => entry.2 < 1) then
    return .notConfigured
  else
    return .available (configured.map fun entry =>
      (entry.1, resourceRow root entry.1 probe (disk entry.1) entry.2.toNat))

/-! ## The acquisition -/

/-- An exception of an event or of a write. -/
inductive IoError
  | event | write
  deriving DecidableEq

/-- What fails in an acquisition: the events RECLAIMED and ACQUIRED and the write of the
record, for each slot; and what a failed write leaves in the file. -/
structure AcquireIo where
  reclaimed : ℕ → Bool := fun _ => false
  write : ℕ → Bool := fun _ => false
  acquired : ℕ → Bool := fun _ => false
  /-- The write of the record that marks a failed admission. -/
  abandon : ℕ → Bool := fun _ => false
  torn : ℕ → FileText := fun _ => .blank

/-- Nothing fails. -/
structure AcquireIo.Works (io : AcquireIo) : Prop where
  reclaimed : ∀ slot, io.reclaimed slot = false
  write : ∀ slot, io.write slot = false
  acquired : ∀ slot, io.acquired slot = false

/-- The arguments of an acquisition, and what it reads of its process and the clock. -/
structure AcquireContext where
  request : LeaseRequest
  hostname : String
  pid : ℕ
  startTicks : Json
  bootId : Json
  leaseId : String
  acquiredAt : String
  queueWaitSeconds : Json
  releasedAt : String

/-- The record of a slot that is granted. -/
def AcquireContext.metadata (ctx : AcquireContext) (kind : ResourceKind) (slotId : ℕ) : Dict := [
  ("protocol_version", .string "p5-global-resource-v1"),
  ("state", .string "HELD"),
  ("kind", .string (kindName kind)),
  ("slot_id", .number slotId),
  ("lease_id", .string ctx.leaseId),
  ("owner_id", .string ctx.request.ownerId),
  ("owner_hostname", .string ctx.hostname),
  ("owner_pid", .number ctx.pid),
  ("owner_pid_start_ticks", ctx.startTicks),
  ("owner_boot_id", ctx.bootId),
  ("run_id", .string ctx.request.runId),
  ("attempt_id", .string ctx.request.attemptId),
  ("purpose", .string ctx.request.purpose),
  ("acquired_at", .string ctx.acquiredAt),
  ("queue_wait_seconds", ctx.queueWaitSeconds),
  ("worker_pid", .null),
  ("container_name", .null)]

/-- The record of an admission whose event could not be appended. -/
def AcquireContext.abandoned (ctx : AcquireContext) (kind : ResourceKind) (slotId : ℕ) : Dict :=
  Dicts.insert "released_at" (.string ctx.releasedAt)
    (Dicts.insert "outcome" (.string "ACQUIRE_EVENT_FAILED")
      (Dicts.insert "state" (.string "RELEASED") (ctx.metadata kind slotId)))

structure Lease where
  kind : ResourceKind
  slotId : ℕ
  path : String
  metadata : Dict
  waitSeconds : Json

/-- The file of a slot is replaced. -/
def SlotDisk.set (disk : SlotDisk) (slotId : ℕ) (file : SlotFile) : SlotDisk :=
  Function.update disk slotId (some file)

/-- The part of an acquisition after a slot has been locked and not passed over: the result
and the files. -/
def takeSlot (root : String) (kind : ResourceKind) (ctx : AcquireContext) (io : AcquireIo)
    (disk : SlotDisk) (slotId : ℕ) (previous : FileText) :
    Except IoError (Option Lease) × SlotDisk :=
  let metadata := ctx.metadata kind slotId
  if isHeld (readStreamJson previous) && io.reclaimed slotId then
    (.error .event, disk.set slotId { text := previous })
  else if io.write slotId then
    (.error .write, disk.set slotId { text := io.torn slotId })
  else if io.acquired slotId then
    let left := if io.abandon slotId then io.torn slotId
      else .value (.object (ctx.abandoned kind slotId))
    (.error .event, disk.set slotId { text := left })
  else
    (.ok (some ⟨kind, slotId, slotPath root kind slotId, metadata, ctx.queueWaitSeconds⟩),
      disk.set slotId { locked := true, text := .value (.object metadata) })

/-- The loop of `_try_acquire` over the slots. -/
def tryAcquireFrom (root : String) (kind : ResourceKind) (ctx : AcquireContext) (io : AcquireIo)
    (probe : Probe) (disk : SlotDisk) : List ℕ → Except IoError (Option Lease) × SlotDisk
  | [] => (.ok none, disk)
  | slotId :: rest =>
    -- opening the file creates it
    let file := (disk slotId).getD {}
    if file.blocks probe then
      tryAcquireFrom root kind ctx io probe (disk.set slotId file) rest
    else takeSlot root kind ctx io disk slotId file.text

/-- `_try_acquire` -/
def tryAcquire (limits : ArbiterLimits) (root : String) (kind : ResourceKind)
    (ctx : AcquireContext) (io : AcquireIo) (probe : Probe) (disk : ResourceKind → SlotDisk) :
    Except IoError (Option Lease) × SlotDisk :=
  tryAcquireFrom root kind ctx io probe (disk kind) (List.range (limits.limit kind))

/-! ## Slots that are passed over -/

section Agreement

variable {root : String} {kind : ResourceKind} {ctx : AcquireContext} {io : AcquireIo}
  {probe : Probe} {disk : SlotDisk}

/-- The file of a slot, which opening it creates. -/
def slotFile (disk : SlotDisk) (slotId : ℕ) : SlotFile := (disk slotId).getD {}

/-- A file that does not exist blocks nothing. -/
theorem slotFile_missing {slotId : ℕ} (h : disk slotId = none) :
    (slotFile disk slotId).blocks probe = false := by
  rw [slotFile, h]
  rfl

/-- **The status and the acquisition read a slot alike.** -/
theorem slotRow_active (root : String) (kind : ResourceKind) (probe : Probe) (disk : SlotDisk)
    (slotId : ℕ) :
    (slotRow root kind probe disk slotId).active = (slotFile disk slotId).blocks probe := by
  cases hfile : disk slotId with
  | none =>
    rw [slotFile_missing hfile, slotRow, hfile]
  | some file =>
    rw [slotRow, slotFile, hfile, Option.getD_some, SlotFile.blocks]
    dsimp only
    cases file.locked with
    | true => rfl
    | false => rfl

/-- Opening a file that is passed over changes nothing: it exists. -/
theorem set_blocked {slotId : ℕ} (h : (slotFile disk slotId).blocks probe = true) :
    disk.set slotId (slotFile disk slotId) = disk := by
  cases hfile : disk slotId with
  | none =>
    rw [slotFile_missing hfile] at h
    cases h
  | some file =>
    rw [SlotDisk.set, slotFile, hfile, Option.getD_some, ← hfile, Function.update_eq_self]

/-- What an admission returns is not empty. -/
theorem takeSlot_ne_none (disk : SlotDisk) (slotId : ℕ) (previous : FileText) :
    (takeSlot root kind ctx io disk slotId previous).1 ≠ .ok none := by
  unfold takeSlot
  dsimp only
  split_ifs
  all_goals
    intro h
    cases h

/-- Where nothing fails, an admission returns a lease. -/
theorem takeSlot_lease (h : io.Works) (disk : SlotDisk) (slotId : ℕ) (previous : FileText) :
    ∃ lease, (takeSlot root kind ctx io disk slotId previous).1 = .ok (some lease) := by
  unfold takeSlot
  dsimp only
  rw [h.reclaimed, h.write, h.acquired, Bool.and_false]
  exact ⟨_, rfl⟩

/-- The loop comes back empty exactly if every slot is passed over. -/
theorem tryAcquireFrom_eq_none (slots : List ℕ) :
    (tryAcquireFrom root kind ctx io probe disk slots).1 = .ok none ↔
      ∀ slotId ∈ slots, (slotFile disk slotId).blocks probe = true := by
  induction slots with
  | nil => exact ⟨fun _ _ h => (nomatch h), fun _ => rfl⟩
  | cons slotId rest ih =>
    rw [tryAcquireFrom, forall_mem_cons]
    by_cases hblocks : (slotFile disk slotId).blocks probe = true
    · rw [show (disk slotId).getD {} = slotFile disk slotId from rfl, if_pos hblocks,
        set_blocked hblocks, ih]
      exact ⟨fun h => ⟨hblocks, h⟩, fun h => h.2⟩
    · rw [show (disk slotId).getD {} = slotFile disk slotId from rfl, if_neg hblocks]
      exact ⟨fun h => absurd h (takeSlot_ne_none _ _ _), fun h => absurd h.1 hblocks⟩

/-- Where nothing fails, the loop comes back empty or with a lease. -/
theorem tryAcquireFrom_lease (h : io.Works) (slots : List ℕ) :
    (tryAcquireFrom root kind ctx io probe disk slots).1 ≠ .ok none ↔
      ∃ lease, (tryAcquireFrom root kind ctx io probe disk slots).1 = .ok (some lease) := by
  constructor
  · intro hne
    induction slots generalizing disk with
    | nil => exact absurd rfl hne
    | cons slotId rest ih =>
      rw [tryAcquireFrom] at hne ⊢
      by_cases hblocks : ((disk slotId).getD {}).blocks probe = true
      · rw [if_pos hblocks] at hne ⊢
        exact ih hne
      · rw [if_neg hblocks]
        exact takeSlot_lease h _ _ _
  · rintro ⟨lease, hlease⟩ hnone
    rw [hlease] at hnone
    cases hnone

/-- The number of leases in flight is below the limit exactly if some slot is not passed
over. -/
theorem inFlight_lt_iff (limit : ℕ) :
    (resourceRow root kind probe disk limit).inFlight < limit ↔
      ¬ ∀ slotId ∈ List.range limit, (slotFile disk slotId).blocks probe = true := by
  have hlength : ((List.range limit).map (slotRow root kind probe disk)).length = limit := by
    rw [length_map, length_range]
  have hle : (resourceRow root kind probe disk limit).inFlight ≤ limit := by
    calc (resourceRow root kind probe disk limit).inFlight
        ≤ ((List.range limit).map (slotRow root kind probe disk)).length := countP_le_length
      _ = limit := hlength
  have hall : (resourceRow root kind probe disk limit).inFlight = limit ↔
      ∀ slotId ∈ List.range limit, (slotFile disk slotId).blocks probe = true := by
    have hcount := countP_eq_length (p := SlotRow.active)
      (l := (List.range limit).map (slotRow root kind probe disk))
    rw [hlength, forall_mem_map] at hcount
    simp only [slotRow_active] at hcount
    exact hcount
  rw [← hall]
  omega

end Agreement

/-! ## The status and the acquisition -/

/-- What a status says about a kind agrees with an acquisition of it. -/
def StatusAgrees (limits : ArbiterLimits) (kind : ResourceKind)
    (acquired : Except IoError (Option Lease)) (works : Prop)
    (status : Except PyError ResourceStatus) : Prop :=
  ∃ resources row, status = .ok (.available resources) ∧ resources.lookup kind = some row ∧
    row.limit = limits.limit kind ∧
    (row.inFlight < row.limit ↔ acquired ≠ .ok none) ∧
    (works → (row.inFlight < row.limit ↔ ∃ lease, acquired = .ok (some lease)))

/-- The policy that `_initialize_policy` writes. -/
def policyJson (limits : ArbiterLimits) (createdAt : String) : Json := .object [
  ("created_at", .string createdAt),
  ("limits", .object
    [("eda", .number (limits.limit .eda)), ("http", .number (limits.limit .http))]),
  ("protocol_version", .string "p5-global-resource-v1")]

/-- The row of a kind agrees. -/
theorem resourceRow_agrees (limits : ArbiterLimits) (root : String) (kind : ResourceKind)
    (ctx : AcquireContext) (io : AcquireIo) (probe : Probe) (disk : ResourceKind → SlotDisk) :
    let acquired := (tryAcquire limits root kind ctx io probe disk).1
    let row := resourceRow root kind probe (disk kind) (limits.limit kind)
    (row.inFlight < row.limit ↔ acquired ≠ .ok none) ∧
      (io.Works → (row.inFlight < row.limit ↔ ∃ lease, acquired = .ok (some lease))) := by
  have hrow : (resourceRow root kind probe (disk kind) (limits.limit kind)).inFlight <
      limits.limit kind ↔ (tryAcquire limits root kind ctx io probe disk).1 ≠ .ok none := by
    rw [inFlight_lt_iff, tryAcquire, ne_eq, tryAcquireFrom_eq_none]
  exact ⟨hrow, fun h => hrow.trans (tryAcquireFrom_lease h _)⟩

/-- A positive integer of a JSON file. -/
theorem toInt_natCast (intOfText : String → Option ℤ) (n : ℕ) :
    (Json.number n).toInt intOfText = .ok n := by
  simp [Json.toInt]

/-- The limits of both kinds, in either order, make a status. -/
theorem statusAgrees_of_configured {intOfText : String → Option ℤ} {limits : ArbiterLimits}
    {root : String} {kind : ResourceKind} {ctx : AcquireContext} {io : AcquireIo} {probe : Probe}
    {disk : ResourceKind → SlotDisk} {given : Option ArbiterLimits} {policy : PolicyFile}
    {configured : List (ResourceKind × ℤ)}
    (h : configuredLimits intOfText given policy = .ok configured)
    (hboth : configured = [(ResourceKind.http, (limits.limit .http : ℤ)),
        (ResourceKind.eda, (limits.limit .eda : ℤ))] ∨
      configured = [(ResourceKind.eda, (limits.limit .eda : ℤ)),
        (ResourceKind.http, (limits.limit .http : ℤ))]) :
    StatusAgrees limits kind (tryAcquire limits root kind ctx io probe disk).1 io.Works
      (readResourceStatus intOfText root given policy probe disk) := by
  have hkinds : ResourceKind.http ∈ configured.map (·.1) ∧
      ResourceKind.eda ∈ configured.map (·.1) := by
    rcases hboth with rfl | rfl
    · simp
    · simp
  have hpositive : configured.any (fun entry => entry.2 < 1) = false := by
    have hhttp := limits.positive .http
    have heda := limits.positive .eda
    rcases hboth with rfl | rfl
    · simp only [any_cons, any_nil, Bool.or_false, Bool.or_eq_false_iff, decide_eq_false_iff_not]
      omega
    · simp only [any_cons, any_nil, Bool.or_false, Bool.or_eq_false_iff, decide_eq_false_iff_not]
      omega
  refine ⟨configured.map fun entry =>
    (entry.1, resourceRow root entry.1 probe (disk entry.1) entry.2.toNat),
    resourceRow root kind probe (disk kind) (limits.limit kind), ?_, ?_, rfl,
    resourceRow_agrees limits root kind ctx io probe disk⟩
  · unfold readResourceStatus
    rw [h]
    show (if _ then _ else _) = _
    rw [if_neg]
    · rfl
    · rw [hpositive]
      simpa using hkinds
  · rcases hboth with rfl | rfl
    · cases kind with
      | http => rfl
      | eda => rfl
    · cases kind with
      | http => rfl
      | eda => rfl

/-- **The status of the pool agrees with acquisition.**  Whatever the records of the slots say
and the probe answers, the status reports fewer leases in flight than the limit exactly if
an acquisition does not come back without a lease, which is to say with a lease where no
event and no write fails: the status of the arbiter, and the one that takes the limits from
the policy of the arbiter. -/
theorem status_agrees_with_acquisition (intOfText : String → Option ℤ) (limits : ArbiterLimits)
    (root : String) (kind : ResourceKind) (ctx : AcquireContext) (io : AcquireIo) (probe : Probe)
    (disk : ResourceKind → SlotDisk) (policy : PolicyFile) (createdAt : String) :
    StatusAgrees limits kind (tryAcquire limits root kind ctx io probe disk).1 io.Works
        (readResourceStatus intOfText root (some limits) policy probe disk) ∧
      StatusAgrees limits kind (tryAcquire limits root kind ctx io probe disk).1 io.Works
        (readResourceStatus intOfText root none (.value (policyJson limits createdAt)) probe
          disk) := by
  constructor
  · exact statusAgrees_of_configured rfl (Or.inl rfl)
  · refine statusAgrees_of_configured ?_ (Or.inr rfl)
    show (match (mapM (fun entry : ResourceKind × Json => do
        let value ← entry.2.toInt intOfText
        return (entry.1, value))
          [(.eda, .number (limits.limit .eda)), (.http, .number (limits.limit .http))]) with
      | .ok configured => Except.ok configured
      | .error e => if e.caught then .ok [] else .error e) = _
    rw [mapM_cons, mapM_cons, mapM_nil, toInt_natCast, toInt_natCast]
    rfl

end DRCAgent.SlotFiles
