/-
# The messages of the neighbours, compacted

`_compact_neighbor_messages` (src/drc_agent/repair_kernel_integration/llm_planner.py). Each
message becomes a row; the rows of one neighbour in one round become one envelope; and what
several rows share (access summaries, physical evidence, inventories of ids, constraints) goes
into dictionaries, which the envelopes refer to.

A message is the dump of a `NeighborMessage`. The parameters of a constraint may be any
JSON, so that reading them may raise what Python raises there.
-/
import DRCAgent.CheckedStores
import DRCAgent.JsonPruning
import DRCAgent.MergeTrees

namespace DRCAgent.Planner

open CheckedStores (store)
open Connectivity (Json PyError)

/-! ## Messages -/

/-- `StructuredConstraint` -/
structure StructuredConstraint where
  kind : String
  parameters : JsonDict
  nodup : (parameters.map (·.1)).Nodup

/-- `NeighborMessage`, with its intents and claims as they are dumped. -/
structure NeighborMessage where
  messageId : String
  round : ℤ
  senderRegionId : String
  receiverRegionId : String
  relation : String
  evidenceIds : List String
  constraints : List StructuredConstraint
  proposedIntents : List Json
  resourceClaims : List Json
  timingClaims : List Json
  requestedResponse : List String

/-- `stable_hash`, and `str` of a value. -/
structure PromptTexts where
  stableHash : Json → String
  str : Json → String

/-- The given hashes. -/
def tableTexts (table : List (Json × String)) : PromptTexts where
  stableHash value := ((table.find? fun entry => entry.1 = value).map (·.2)).getD ""
  str
    | .string text => text
    | _ => ""

/-- The first characters of a hash. -/
def hashPrefix (length : ℕ) (hash : String) : String := String.ofList (hash.toList.take length)

/-- What the compaction may raise. -/
inductive CompactionError
  | value (message : String)
  | notSerializable (value : Json)
  | python (error : PyError)

/-- `if condition: raise ValueError(message)` -/
def refuse (condition : Bool) (message : String) : Except CompactionError Unit :=
  if condition then .error (.value message) else .ok ()

/-! ## Reading a value -/

/-- `_dump` of a value that is no model. -/
def dumpDict : Json → Except CompactionError JsonDict
  | .object entries => .ok entries
  | value => .error (.notSerializable value)

/-- `value.items()` -/
def dictItems : Json → Except CompactionError JsonDict
  | .object entries => .ok entries
  | _ => .error (.python .attributeError)

/-- `len(value)` -/
def pyLen : Json → Except CompactionError ℕ
  | .array items => .ok items.length
  | .object entries => .ok entries.length
  | .string text => .ok text.length
  | _ => .error (.python .typeError)

/-- `for item in value` -/
def pyItems (value : Json) : Except CompactionError (List Json) :=
  value.items.mapError .python

/-- `value or []` -/
def orList (value : Json) : Json := if value.truthy then value else .array []

/-- `dictionary.get(key, []) or []` -/
def getList (dict : JsonDict) (key : String) : Json := orList ((dict.lookup key).getD (.array []))

/-- `dictionary.pop(key, None)` -/
def pop (key : String) (dict : JsonDict) : JsonDict := dict.filter fun entry => entry.1 ≠ key

/-- `_select_fields` -/
def selectFields (value : JsonDict) (fields : List String) : JsonDict :=
  fields.filterMap fun key => (value.lookup key).map fun item => (key, item)

/-- Strings as JSON. -/
def strings (texts : List String) : Json := .array (texts.map .string)

/-! ## The access summaries of a constraint -/

def accessIdentityFields : List String :=
  ["writable_occurrence_ids", "writable_source_target_ids", "potential_write_geometry_ids",
    "protected_relation_ids", "protected_read_geometry_ids", "merged_boundary_contributor_ids",
    "landing_contact_relation_ids"]

/-- `identity_counts` -/
def identityCounts (summary : JsonDict) : Except CompactionError JsonDict :=
  (accessIdentityFields.filter fun key => (getList summary key).truthy).mapM fun key => do
    return (key, .number (← pyLen (getList summary key)))

/-- A summary as it is stored. -/
def normalizedSummary (summary counts : JsonDict) : Json :=
  withoutEmpty (.object (selectFields summary
    ["potential_write_layers", "connectivity_evidence_quality", "unknown_reasons"] ++
      [("identity_counts", .object counts)]))

/-- The region that a summary is about is the given one. -/
def ofRegion (region : String) (summary : JsonDict) : Bool :=
  summary.lookup "region_id" = some (.string region)

section Compaction

variable (texts : PromptTexts)

def summaryId (summary : JsonDict) : String :=
  let given := (summary.lookup "summary_id").getD .null
  if given.truthy then texts.str given
  else "access_" ++ hashPrefix 20 (texts.stableHash (.object summary))

/-- The references of a constraint to access summaries, and of its message. -/
structure AccessState where
  dictionary : JsonDict
  refs : List (String × String) := []
  receiverRef : Option String
  neighborRef : Option String

/-- One endpoint of the potential access. -/
def accessStep (message : NeighborMessage) (state : AccessState) (access : String × Json) :
    Except CompactionError AccessState := do
  let summary ← dumpDict access.2
  let id := summaryId texts summary
  let counts ← identityCounts summary
  let dictionary ← store PyEq (.value "PROMPT_ACCESS_SUMMARY_ID_COLLISION") id
    (normalizedSummary summary counts) state.dictionary
  let receiver := ofRegion message.receiverRegionId summary
  let sender := ofRegion message.senderRegionId summary
  return {
    dictionary
    refs := Dicts.insert access.1 id state.refs
    receiverRef := if receiver then some id else state.receiverRef
    neighborRef := if !receiver && sender then some id else state.neighborRef }

/-- The halo of the first endpoint that is the sender's. -/
def neighborHalo (message : NeighborMessage) (parameters : JsonDict) :
    JsonDict → Except CompactionError (Option Json)
  | [] => .ok none
  | (endpoint, value) :: rest => do
    let summary ← dumpDict value
    if ofRegion message.senderRegionId summary then
      let halo := (parameters.lookup ("halo_" ++ endpoint ++ "_dbu")).getD .null
      return if halo = .null then none else some halo
    else neighborHalo message parameters rest

/-! ## The state of the compaction -/

/-- The shared dictionaries, but for that of the constraints. -/
structure Dictionaries where
  access : JsonDict := []
  physicalEvidence : JsonDict := []
  identityInventory : JsonDict := []

/-- The variables of one message. -/
structure MessageState where
  physicalRefs : List String := []
  accessRefs : List (String × String) := []
  receiverRef : Option String := none
  neighborRef : Option String := none
  locality : Option Json := none

/-- The potential access of a constraint; its parameters afterwards. -/
def compactAccess (message : NeighborMessage) (dicts : Dictionaries) (state : MessageState)
    (parameters : JsonDict) : Except CompactionError (Dictionaries × MessageState × JsonDict) := do
  let items ← dictItems ((parameters.lookup "potential_physical_access").getD (.object [])).orEmpty
  let access := items.insertionSort keyLe
  let parameters := pop "potential_physical_access" parameters
  let result ← access.foldlM (accessStep texts message)
    { dictionary := dicts.access, receiverRef := state.receiverRef,
      neighborRef := state.neighborRef }
  let dicts := { dicts with access := result.dictionary }
  let state := { state with receiverRef := result.receiverRef, neighborRef := result.neighborRef }
  if result.refs = [] then return (dicts, state, parameters)
  else
    refuse (state.accessRefs ≠ [] ∧ state.accessRefs ≠ result.refs)
      "PROMPT_MESSAGE_ACCESS_REF_COLLISION"
    let halo ← neighborHalo message parameters access
    refuse (halo.any fun halo => state.locality.any fun locality => ¬ PyEq locality halo)
      "PROMPT_NEIGHBOR_LOCALITY_COLLISION"
    let state := { state with accessRefs := result.refs, locality := halo.or state.locality }
    return (dicts, state, pop "halo_v_dbu" (pop "halo_u_dbu" parameters))

/-- A physical evidence: its id and what is stored under it. -/
def evidenceOf (evidence : Json) : Except CompactionError (String × Json) := do
  let entries ← dumpDict evidence
  match entries.lookup "evidence_id" with
  | none => throw (.python .keyError)
  | some id => return (texts.str id, withoutEmpty (.object (pop "evidence_id" entries)))

/-- The evidence of a constraint is stored; the references to it. -/
def evidenceStep (result : JsonDict × List String) (evidence : Json) :
    Except CompactionError (JsonDict × List String) := do
  let (id, value) ← evidenceOf texts evidence
  let dictionary ← store PyEq (.value "PROMPT_PHYSICAL_EVIDENCE_ID_COLLISION") id value result.1
  return (dictionary, result.2 ++ [id])

/-- An inventory of ids, and its id. -/
def inventoryOf (values : Json) (count : ℕ) : String × Json :=
  let hash := texts.stableHash values
  ("identity_inventory_" ++ hashPrefix 16 hash,
    .object [("count", .number count), ("content_hash", .string hash)])

def inventoryFields : List String := ["shared_editable_object_ids", "shared_proxy_bin_ids"]

/-- A list of shared ids that is not needed in full becomes an inventory. -/
def inventoryStep (hasEvidence : Bool) (result : JsonDict × JsonDict) (key : String) :
    Except CompactionError (JsonDict × JsonDict) := do
  let (dictionary, parameters) := result
  let values := getList parameters key
  let hard := ((parameters.lookup "hard").getD (.bool false)).truthy
  if values.truthy && (hasEvidence || !hard) then
    let (id, inventory) := inventoryOf texts values (← pyLen values)
    let dictionary ← store PyEq (.value "PROMPT_IDENTITY_INVENTORY_COLLISION") id inventory
      dictionary
    return (dictionary, Dicts.insert (key ++ "_inventory_ref") (.string id) (pop key parameters))
  else return result

/-- The dictionary of a constraint, before it is pruned. -/
def constraintDict (message : NeighborMessage) (constraint : StructuredConstraint)
    (parameters : JsonDict) : Json :=
  .object (parameters.foldl (fun dict entry => Dicts.insert entry.1 entry.2 dict)
    [("relation", .string message.relation), ("kind", .string constraint.kind)])

/-- One constraint of a message. -/
def compactConstraint (message : NeighborMessage)
    (result : Dictionaries × MessageState × List Json) (constraint : StructuredConstraint) :
    Except CompactionError (Dictionaries × MessageState × List Json) := do
  let (dicts, state, constraints) := result
  let (dicts, state, parameters) ← compactAccess texts message dicts state constraint.parameters
  let evidence ← pyItems (getList parameters "physical_dependency_evidence")
  let (physical, refs) ← evidence.foldlM (evidenceStep texts) (dicts.physicalEvidence, [])
  let parameters := pop "physical_dependency_evidence" parameters
  let parameters := if refs = [] then parameters
    else Dicts.insert "physical_dependency_evidence_refs" (strings refs) parameters
  let (inventories, parameters) ← inventoryFields.foldlM (inventoryStep texts (refs ≠ []))
    (dicts.identityInventory, parameters)
  let dicts := { dicts with physicalEvidence := physical, identityInventory := inventories }
  let state := { state with physicalRefs := state.physicalRefs ++ refs }
  return (dicts, state,
    constraints ++ [withoutEmpty (constraintDict message constraint parameters)])

/-! ## The row of a message -/

/-- The lists of a row, and of an envelope. -/
inductive ListField
  | relations | evidenceIds | constraints | proposedIntents | resourceClaims | timingClaims
  | requestedResponse
  deriving DecidableEq

def ListField.name : ListField → String
  | relations => "relations"
  | evidenceIds => "evidence_ids"
  | constraints => "constraints"
  | proposedIntents => "proposed_intents"
  | resourceClaims => "resource_claims"
  | timingClaims => "timing_claims"
  | requestedResponse => "requested_response"

/-- The values that the rows of an envelope have to agree on. -/
inductive RefField
  | receiverAccess | neighborAccess | accessRefs | locality
  deriving DecidableEq

def RefField.name : RefField → String
  | receiverAccess => "receiver_potential_access_ref"
  | neighborAccess => "neighbor_potential_access_ref"
  | accessRefs => "potential_physical_access_refs"
  | locality => "neighbor_locality_bbox"

def RefField.all : List RefField := [receiverAccess, neighborAccess, accessRefs, locality]

/-- The round and the neighbour of an envelope. -/
structure EnvelopeKey where
  round : ℤ
  neighborRegionId : String
  deriving DecidableEq

/-- A row as it is read after it has been pruned: a list that was dropped counts as empty. -/
structure Row where
  key : EnvelopeKey
  lists : ListField → List Json
  refs : RefField → Option Json

/-- A field of a dictionary that is pruned. -/
def prunedField (name : String) (value : Json) : Option Json :=
  if kept name value then some (withoutEmpty value) else none

/-- A string that Python counts as true. -/
def isTrue (value : Option String) : Bool := value.any (· ≠ "")

def NeighborMessage.key (message : NeighborMessage) : EnvelopeKey :=
  ⟨message.round, message.senderRegionId⟩

/-- The lists of a message's row, before they are pruned. -/
def rowLists (message : NeighborMessage) (physicalRefs : List String) (constraints : List Json) :
    ListField → List Json
  | .relations => [.string message.relation]
  | .evidenceIds => (message.evidenceIds.filter fun id => id ∉ physicalRefs).map .string
  | .constraints => constraints
  | .proposedIntents => message.proposedIntents
  | .resourceClaims => message.resourceClaims
  | .timingClaims => message.timingClaims
  | .requestedResponse =>
    if message.requestedResponse = ["FACT_ACK"] then []
    else message.requestedResponse.map .string

/-- What the rows of an envelope agree on, before it is pruned. -/
def rowRefs (state : MessageState) : RefField → Json
  | .receiverAccess => state.receiverRef.elim .null .string
  | .neighborAccess => state.neighborRef.elim .null .string
  | .accessRefs =>
    if isTrue state.receiverRef && isTrue state.neighborRef then .object []
    else .object (state.accessRefs.map fun entry => (entry.1, .string entry.2))
  | .locality => state.locality.getD .null

/-- One message: the dictionaries, and the rows so far with its own. -/
def compactMessage (result : Dictionaries × List Row) (message : NeighborMessage) :
    Except CompactionError (Dictionaries × List Row) := do
  let (dicts, state, constraints) ←
    message.constraints.foldlM (compactConstraint texts message) (result.1, {}, [])
  let row : Row :=
    { key := message.key
      lists := fun field =>
        (rowLists message state.physicalRefs constraints field).map withoutEmpty
      refs := fun field => prunedField field.name (rowRefs state field) }
  return (dicts, result.2 ++ [row])

/-! ## Envelopes -/

/-- The rows of one neighbour in one round. -/
structure Envelope where
  lists : ListField → List Json := fun _ => []
  refs : RefField → Option Json := fun _ => none

/-- A value that all rows of an envelope agree on. -/
def addRef (row : Row) (refs : RefField → Option Json) (field : RefField) :
    Except CompactionError (RefField → Option Json) :=
  match row.refs field with
  | none => .ok refs
  | some value =>
    if (refs field).any fun old => ¬ PyEq old value then
      .error (.value ("PROMPT_NEIGHBOR_ENVELOPE_COLLISION:" ++ field.name))
    else .ok (Function.update refs field (some value))

/-- A row is added to its envelope. -/
def addRow (grouped : List (EnvelopeKey × Envelope)) (row : Row) :
    Except CompactionError (List (EnvelopeKey × Envelope)) := do
  let envelope := (grouped.lookup row.key).getD {}
  let refs ← RefField.all.foldlM (addRef row) envelope.refs
  return Dicts.insert row.key
    { lists := fun field => envelope.lists field ++ row.lists field, refs } grouped

/-- The order of the keys, `round` first. -/
def keyBelow (a b : EnvelopeKey × Envelope) : Prop :=
  a.1.round < b.1.round ∨
    a.1.round = b.1.round ∧ a.1.neighborRegionId ≤ b.1.neighborRegionId

instance : DecidableRel keyBelow := fun _ _ => inferInstanceAs (Decidable (_ ∨ _))

/-- The items of a list, each once. -/
def unique (items : List Json) : List Json := Merges.keepFirst texts.stableHash [] items

def constraintId (constraint : Json) : String :=
  "neighbor_constraint_" ++ hashPrefix 16 (texts.stableHash constraint)

/-- A constraint is stored under its hash. -/
def storeConstraint (dictionary : JsonDict) (constraint : Json) :
    Except CompactionError JsonDict :=
  store PyEq (.value "PROMPT_NEIGHBOR_CONSTRAINT_HASH_COLLISION") (constraintId texts constraint)
    constraint dictionary

/-- The entry of a list in an envelope. -/
def listEntry (envelope : Envelope) (field : ListField) : String × Json :=
  (field.name, .array (unique texts (envelope.lists field)))

/-- The dictionary of an envelope, pruned. -/
def envelopeDict (key : EnvelopeKey) (envelope : Envelope) : JsonDict :=
  withoutEmptyEntries (
    [("round", .number key.round), ("neighbor_region_id", .string key.neighborRegionId)] ++
    [.relations, .evidenceIds, .proposedIntents, .resourceClaims, .timingClaims,
      .requestedResponse].map (listEntry texts envelope) ++
    RefField.all.filterMap (fun field =>
      (envelope.refs field).map fun value => (field.name, value)) ++
    [("constraint_refs", strings ((unique texts (envelope.lists .constraints)).map
      (constraintId texts)))])

/-- One envelope: the dictionary of the constraints, and the envelopes so far with it. -/
def mergeEnvelope (result : JsonDict × List JsonDict) (group : EnvelopeKey × Envelope) :
    Except CompactionError (JsonDict × List JsonDict) := do
  let dictionary ← (unique texts (group.2.lists .constraints)).foldlM (storeConstraint texts)
    result.1
  return (dictionary, result.2 ++ [envelopeDict texts group.1 group.2])

/-! ## The result -/

/-- The reference of an envelope to the access summary of the receiver, if it counts as
true. -/
def receiverRefOf (row : JsonDict) : Option String :=
  match row.lookup "receiver_potential_access_ref" with
  | some (.string ref) => if ref = "" then none else some ref
  | _ => none

/-- The reference that all envelopes with one share. -/
def commonReceiverRef (rows : List JsonDict) : Option String :=
  match (rows.filterMap receiverRefOf).dedup with
  | [ref] => some ref
  | _ => none

/-- An envelope without the reference that is common. -/
def hoistReceiverRef (common : Option String) (row : JsonDict) : JsonDict :=
  if isTrue common && receiverRefOf row = common then pop "receiver_potential_access_ref" row
  else row

/-- What is returned: the envelopes, the access summaries, and the other dictionaries. -/
structure Compaction where
  rows : List JsonDict
  access : JsonDict
  facts : JsonDict

/-- `_compact_neighbor_messages` -/
def compactNeighborMessages (messages : List NeighborMessage) :
    Except CompactionError Compaction := do
  let (dicts, rows) ← messages.foldlM (compactMessage texts) ({}, [])
  let grouped ← rows.foldlM addRow []
  let (constraints, merged) ← (grouped.insertionSort keyBelow).foldlM (mergeEnvelope texts) ([], [])
  let common := commonReceiverRef merged
  return {
    rows := merged.map (hoistReceiverRef common)
    access := dicts.access
    facts := withoutEmptyEntries
      [("receiver_potential_access_ref", common.elim .null .string),
        ("constraints", .object constraints),
        ("physical_dependency_evidence", .object dicts.physicalEvidence),
        ("identity_inventories", .object dicts.identityInventory)] }

end Compaction

end DRCAgent.Planner
