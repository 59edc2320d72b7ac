/-
# The messages between neighbours

`MessagePasser` and `AgentGraphBuilder._edge` (src/drc_agent/graphs/agent.py): three rounds of
messages along the edges of a subgraph. A message has the hash of its content, and an id that
is made of the first digits of it.

What the content leaves out differs from round to round: the second round hashes the intents,
and neither the evidence nor the constraint, which are those of the edge; the third round
hashes the evidence, and neither the edge nor the intents.
-/
import DRCAgent.Connectivity
import DRCAgent.Failures
import DRCAgent.PromptContext

namespace DRCAgent.Messages

open JsonText (Value)
open Prompt (strings orNull boxValue)
open Regions (Box)
open Connectivity (PyError)

/-! ## Edges and graphs -/

structure EdgeEvidence where
  evidenceId : String
  kind : String
  details : List (String × Value)

def EdgeEvidence.dump (evidence : EdgeEvidence) : Value :=
  .object [("evidence_id", .string evidence.evidenceId), ("kind", .string evidence.kind),
    ("details", .object evidence.details)]

inductive Relation
  | geometry | sharedNet | resource | timing
  deriving DecidableEq

def Relation.value : Relation → String
  | .geometry => "geometry"
  | .sharedNet => "shared_net"
  | .resource => "resource"
  | .timing => "timing"

structure AgentEdge where
  edgeId : String
  u : String
  v : String
  relation : Relation
  hard : Bool
  evidence : List EdgeEvidence

def AgentEdge.evidenceIds (edge : AgentEdge) : List String :=
  edge.evidence.map EdgeEvidence.evidenceId

/-- The first digits of a hash. -/
def digits (count : ℕ) (hash : String) : String := String.ofList (hash.toList.take count)

section Edge

variable (stableHash : Value → String)

/-- The id of an edge. -/
def edgeIdOf (a b : String) (relation : Relation) (evidenceIds : List String) : String :=
  "edge_" ++ relation.value ++ "_" ++ digits 16 (stableHash
    (.array [.string a, .string b, .string relation.value, strings evidenceIds]))

/-- `_edge`: the ends in order, unless the edge is directed. -/
def makeEdge (u v : String) (relation : Relation) (hard : Bool) (evidence : List EdgeEvidence)
    (directed : Bool) : AgentEdge :=
  let (a, b) := if directed || u < v then (u, v) else (v, u)
  { edgeId := edgeIdOf stableHash a b relation (evidence.map EdgeEvidence.evidenceId)
    u := a
    v := b
    relation
    hard
    evidence }

/-- `RegionState`: what the constraints read of it. -/
structure RegionState where
  editHaloDbu : Box
  editableObjectIds : List String
  netIds : List String
  netMappingQuality : String
  occupiedTrackBins : List String
  /-- `timing_context is not None` -/
  hasTimingContext : Bool

structure PotentialPhysicalAccessSummary where
  summaryId : String
  snapshotId : String
  regionId : String
  writableOccurrenceIds : List String
  writableSourceTargetIds : List String
  potentialWriteGeometryIds : List String
  potentialWriteLayers : List String
  protectedRelationIds : List String
  protectedReadGeometryIds : List String
  mergedBoundaryContributorIds : List String
  landingContactRelationIds : List String
  connectivityEvidenceQuality : String
  unknownReasons : List String

/-- `AgentGraph`, as the builder leaves it: an edge joins two regions of the graph, named in
order, has the id that `_edge` gives it, and no two edges have one id. -/
structure AgentGraph where
  regions : List (String × RegionState)
  potentialAccessSummaries : List (String × PotentialPhysicalAccessSummary)
  edges : List AgentEdge
  endpoints : ∀ edge ∈ edges,
    (regions.lookup edge.u).isSome ∧ (regions.lookup edge.v).isSome
  ordered : ∀ edge ∈ edges, edge.u < edge.v
  made : ∀ edge ∈ edges,
    edge.edgeId = edgeIdOf stableHash edge.u edge.v edge.relation edge.evidenceIds
  distinct : (edges.map AgentEdge.edgeId).Nodup

/-- What `_edge` makes of two different regions is ordered, where they are given in order or
may be swapped, and has the id of its ends, relation and evidence. -/
theorem makeEdge_spec {u v : String} (hne : u ≠ v) {directed : Bool}
    (hdirected : directed = true → u < v) (relation : Relation) (hard : Bool)
    (evidence : List EdgeEvidence) :
    let edge := makeEdge stableHash u v relation hard evidence directed
    edge.u < edge.v ∧
      edge.edgeId = edgeIdOf stableHash edge.u edge.v edge.relation edge.evidenceIds := by
  rw [makeEdge]
  by_cases hkept : (directed || u < v) = true
  · rw [if_pos hkept]
    rw [Bool.or_eq_true, decide_eq_true_eq] at hkept
    exact ⟨hkept.elim hdirected id, rfl⟩
  · rw [if_neg hkept]
    rw [Bool.or_eq_true, decide_eq_true_eq, not_or] at hkept
    exact ⟨lt_of_le_of_ne (not_lt.1 hkept.2) hne.symm, rfl⟩

/-! ## Constraints -/

structure StructuredConstraint where
  kind : String
  parameters : List (String × Value)

def StructuredConstraint.dump (constraint : StructuredConstraint) : Value :=
  .object [("kind", .string constraint.kind), ("parameters", .object constraint.parameters)]

/-- `sorted(set(left) & set(right))` -/
def shared (left right : List String) : Value :=
  strings (sortedSet (left.filter fun item => item ∈ right))

/-- The kind of a constraint, and the parameters that depend on the relation. -/
def relationConstraint (edge : AgentEdge) (left right : RegionState) : StructuredConstraint :=
  match edge.relation with
  | .geometry => {
      kind := "geometry_boundary_constraint"
      parameters := [("hard", .bool edge.hard), ("halo_u_dbu", boxValue left.editHaloDbu),
        ("halo_v_dbu", boxValue right.editHaloDbu),
        ("shared_editable_object_ids", shared left.editableObjectIds right.editableObjectIds),
        ("forbidden_overlap", .bool true)] }
  | .sharedNet => {
      kind := "shared_net_topology_constraint"
      parameters := [("hard", .bool edge.hard), ("shared_net_ids", shared left.netIds right.netIds),
        ("mapping_quality_u", .string left.netMappingQuality),
        ("mapping_quality_v", .string right.netMappingQuality),
        ("preserve_topology", .bool true)] }
  | .resource => {
      kind := "resource_geometry_proxy_constraint"
      parameters := [("hard", .bool edge.hard),
        ("shared_proxy_bin_ids", shared left.occupiedTrackBins right.occupiedTrackBins),
        ("source", .string "geometry_proxy"), ("capacity_known", .bool false)] }
  | .timing => {
      kind := "timing_constraint"
      parameters := [("hard", .bool edge.hard),
        ("timing_disabled", .bool !(left.hasTimingContext && right.hasTimingContext))] }

/-- The access of an endpoint. -/
def PotentialPhysicalAccessSummary.access (summary : PotentialPhysicalAccessSummary) : Value :=
  .object
    [("summary_id", .string summary.summaryId), ("snapshot_id", .string summary.snapshotId),
      ("region_id", .string summary.regionId),
      ("writable_occurrence_ids", strings summary.writableOccurrenceIds),
      ("writable_source_target_ids", strings summary.writableSourceTargetIds),
      ("potential_write_geometry_ids", strings summary.potentialWriteGeometryIds),
      ("potential_write_layers", strings summary.potentialWriteLayers),
      ("protected_relation_ids", strings summary.protectedRelationIds),
      ("protected_read_geometry_ids", strings summary.protectedReadGeometryIds),
      ("merged_boundary_contributor_ids", strings summary.mergedBoundaryContributorIds),
      ("landing_contact_relation_ids", strings summary.landingContactRelationIds),
      ("connectivity_evidence_quality", .string summary.connectivityEvidenceQuality),
      ("unknown_reasons", strings summary.unknownReasons)]

variable {stableHash}

/-- The parameters that name the physical evidence, where there is any. -/
def physicalParameters (graph : AgentGraph stableHash) (edge : AgentEdge) :
    List (String × Value) :=
  let physicalEvidence := edge.evidence.filter fun item => item.evidenceId.startsWith "physical:"
  let access := [("u", edge.u), ("v", edge.v)].filterMap fun (endpoint, regionId) =>
    (graph.potentialAccessSummaries.lookup regionId).map fun summary =>
      (endpoint, summary.access)
  if physicalEvidence.isEmpty && access.isEmpty then []
  else [("physical_dependency_evidence", .array (physicalEvidence.map EdgeEvidence.dump)),
    ("potential_physical_access", .object access)]

/-- `_constraint` -/
def constraintOf (graph : AgentGraph stableHash) (edge : AgentEdge) :
    Except PyError StructuredConstraint :=
  match graph.regions.lookup edge.u, graph.regions.lookup edge.v with
  | some left, some right =>
    let constraint := relationConstraint edge left right
    .ok { constraint with parameters := constraint.parameters ++ physicalParameters graph edge }
  | _, _ => .error .keyError

/-! ## Messages -/

structure IntentSummary where
  actionFamily : String
  physicalIntent : List (String × Value)
  planId : Option String
  targetViolationIds : List String
  targetRelation : String
  preferredParticipantIds : List String
  preferredDofIds : List String
  coordinationRequest : Option String
  targetObjectIds : List String
  footprintDbu : Option Box
  fingerprint : String

def IntentSummary.dump (summary : IntentSummary) : Value :=
  .object
    [("action_family", .string summary.actionFamily),
      ("physical_intent", .object summary.physicalIntent),
      ("plan_id", orNull .string summary.planId),
      ("target_violation_ids", strings summary.targetViolationIds),
      ("target_relation", .string summary.targetRelation),
      ("preferred_participant_ids", strings summary.preferredParticipantIds),
      ("preferred_dof_ids", strings summary.preferredDofIds),
      ("coordination_request", orNull .string summary.coordinationRequest),
      ("target_object_ids", strings summary.targetObjectIds),
      ("footprint_dbu", orNull boxValue summary.footprintDbu),
      ("fingerprint", .string summary.fingerprint)]

structure NeighborMessage where
  messageId : String
  round : ℕ
  senderRegionId : String
  receiverRegionId : String
  relation : String
  evidenceIds : List String
  constraints : List StructuredConstraint
  proposedIntents : List IntentSummary
  requestedResponse : List String
  contentHash : String

/-- `intents_by_region` -/
abbrev Intents := List (String × List IntentSummary)

/-- `intents_by_region.get(sender, [])` -/
def Intents.of (intents : Intents) (sender : String) : List IntentSummary :=
  (intents.lookup sender).getD []

/-- The content of a message of the first round. -/
def factContent (edge : AgentEdge) (constraint : StructuredConstraint)
    (sender receiver : String) : Value :=
  .object
    [("round", .integer 1), ("sender", .string sender), ("receiver", .string receiver),
      ("relation", .string edge.relation.value), ("edge", .string edge.edgeId),
      ("evidence_ids", strings edge.evidenceIds), ("constraints", .array [constraint.dump])]

/-- The content of a message of the second round. -/
def intentContent (edge : AgentEdge) (summaries : List IntentSummary)
    (sender receiver : String) : Value :=
  .object
    [("round", .integer 2), ("sender", .string sender), ("receiver", .string receiver),
      ("relation", .string edge.relation.value), ("edge", .string edge.edgeId),
      ("proposed_intents", .array (summaries.map IntentSummary.dump))]

/-- The content of a message of the third round. -/
def coordinationContent (sender receiver relation : String) (evidenceIds : List String) : Value :=
  .object
    [("round", .integer 3), ("sender", .string sender), ("receiver", .string receiver),
      ("relation", .string relation), ("evidence_ids", strings evidenceIds)]

variable (stableHash)

def messageIdOf (content : Value) : String := "msg_" ++ digits 20 (stableHash content)

def factMessage (edge : AgentEdge) (constraint : StructuredConstraint)
    (sender receiver : String) : NeighborMessage :=
  let content := factContent edge constraint sender receiver
  { messageId := messageIdOf stableHash content
    round := 1
    senderRegionId := sender
    receiverRegionId := receiver
    relation := edge.relation.value
    evidenceIds := edge.evidenceIds
    constraints := [constraint]
    proposedIntents := []
    requestedResponse := ["FACT_ACK"]
    contentHash := stableHash content }

def intentMessage (edge : AgentEdge) (constraint : StructuredConstraint)
    (summaries : List IntentSummary) (sender receiver : String) : NeighborMessage :=
  let content := intentContent edge summaries sender receiver
  { messageId := messageIdOf stableHash content
    round := 2
    senderRegionId := sender
    receiverRegionId := receiver
    relation := edge.relation.value
    evidenceIds := edge.evidenceIds
    constraints := [constraint]
    proposedIntents := summaries
    requestedResponse := ["INTENT_COMPATIBILITY"]
    contentHash := stableHash content }

/-- The copy of a message of the second round. -/
def coordinationMessage (message : NeighborMessage) : NeighborMessage :=
  let content := coordinationContent message.senderRegionId message.receiverRegionId
    message.relation message.evidenceIds
  { message with
    messageId := messageIdOf stableHash content
    round := 3
    requestedResponse := ["COORDINATED_REVISION_OR_NO_OP"]
    contentHash := stableHash content }

/-! ## The rounds -/

/-- Both directions of an edge. -/
def AgentEdge.directions (edge : AgentEdge) : List (String × String) :=
  [(edge.u, edge.v), (edge.v, edge.u)]

/-- `sorted(messages, key=lambda item: item.message_id)` -/
def sortById (messages : List NeighborMessage) : List NeighborMessage :=
  messages.insertionSort fun a b => a.messageId ≤ b.messageId

variable {stableHash}

/-- The edges of the graph with an id of the subgraph. -/
def relevant (edgeIds : List String) (graph : AgentGraph stableHash) : List AgentEdge :=
  graph.edges.filter fun edge => edge.edgeId ∈ edgeIds

def roundOne (edgeIds : List String) (graph : AgentGraph stableHash) :
    Except PyError (List NeighborMessage) := do
  let messages ← (relevant edgeIds graph).mapM fun edge => do
    let constraint ← constraintOf graph edge
    return edge.directions.map fun (sender, receiver) =>
      factMessage stableHash edge constraint sender receiver
  return sortById messages.flatten

def roundTwo (edgeIds : List String) (graph : AgentGraph stableHash) (intents : Intents) :
    Except PyError (List NeighborMessage) := do
  let messages ← (relevant edgeIds graph).mapM fun edge => do
    let constraint ← constraintOf graph edge
    return edge.directions.map fun (sender, receiver) =>
      intentMessage stableHash edge constraint (intents.of sender) sender receiver
  return sortById messages.flatten

/-- `tuple(sorted((sender, receiver)))` -/
def sortedPair (sender receiver : String) : String × String :=
  if receiver < sender then (receiver, sender) else (sender, receiver)

def roundThree (edgeIds : List String) (graph : AgentGraph stableHash)
    (conflicts : List (String × String)) (intents : Intents) :
    Except PyError (List NeighborMessage) := do
  let messages ← roundTwo edgeIds graph intents
  return sortById ((messages.filter fun message =>
    conflicts.contains (sortedPair message.senderRegionId message.receiverRegionId)).map
      (coordinationMessage stableHash))

/-- The arguments of a run, on a graph. -/
structure RunInput where
  /-- `subgraph.edge_ids` -/
  edgeIds : List String
  rounds : ℤ
  intentsByRegion : Intents
  conflictRegionPairs : List (String × String)

/-- `min(max(rounds, 0), 3)` -/
def RunInput.count (input : RunInput) : ℤ := min (max input.rounds 0) 3

/-- `run` -/
def run (graph : AgentGraph stableHash) (input : RunInput) :
    Except PyError (List NeighborMessage) := do
  let first ← (if 1 ≤ input.count then roundOne input.edgeIds graph else .ok [])
  let second ← (if 2 ≤ input.count then roundTwo input.edgeIds graph input.intentsByRegion
    else .ok [])
  let third ← (if 3 ≤ input.count ∧ input.conflictRegionPairs ≠ [] then
      roundThree input.edgeIds graph input.conflictRegionPairs input.intentsByRegion
    else .ok [])
  return first ++ second ++ third

end Edge

end DRCAgent.Messages
