/-
# Selecting the active window

`select_active_window` of `workflow/active_window.py` with the functions it
calls: the dependency relations between subgraphs, the seed, the hard closure of
the seed, the budgeted growth over soft neighbours, the roles of the window's
regions and the helper assignments.

Sets of strings that the source sorts before use are kept as sorted duplicate-free
lists; the worklist loops and the budgeted loop are instances of the library loops.
-/
import DRCAgent.GreedyGrowth
import DRCAgent.WorklistClosure
import Mathlib.Data.List.MinMax
import Mathlib.Data.List.Sort
import Mathlib.Data.Prod.Lex
import Mathlib.Data.String.Basic

namespace DRCAgent

/-! ## Identifiers

The facts about identifiers and their sets that sorting and membership rest on. -/

instance identifiers_isTrans : IsTrans String (· ≤ ·) := ⟨fun _ _ _ => le_trans⟩

instance identifiers_antisymm : Std.Antisymm (α := String) (· ≤ ·) := ⟨fun _ _ => le_antisymm⟩

instance identifierSets_lawfulBEq : LawfulBEq (Finset String) := inferInstance

/-! ## The agent graph -/

/-- A piece of edge evidence; `hardByOccurrence` is `details["hard_by_occurrence"]`. -/
structure EdgeEvidence where
  evidenceId : String
  kind : String
  hardByOccurrence : Bool := false

structure AgentEdge where
  edgeId : String
  u : String
  v : String
  hard : Bool
  evidence : List EdgeEvidence := []

structure BoundaryDependency where
  dependencyId : String
  uScopeId : String
  vScopeId : String
  hard : Bool

structure PotentialPhysicalAccessSummary where
  schemaVersion : String := "1.0"
  potentialDofCapabilityIds : List String := []
  potentialCarrierIds : List String := []
  protectedRelationIds : List String := []

/-- `AgentGraph`: the two dictionaries as association lists. -/
structure AgentGraph where
  edges : List AgentEdge
  boundaryDependencies : List BoundaryDependency := []
  /-- Region id to its `violation_ids`. -/
  regions : List (String × List String)
  potentialAccessSummaries : List (String × PotentialPhysicalAccessSummary) := []

structure AgentSubgraph where
  subgraphId : String
  regionIds : List String
  edgeIds : List String := []
  hierarchical : Bool := false
  scopeKind : String := "FLAT"
  physicalScopeId : Option String := none
  solverScopeId : Option String := none
  planningViewId : Option String := none
  boundaryDependencyIds : List String := []
  priority : ℤ := 0
  deriving DecidableEq

/-- `sorted(set(values))`. -/
def sortedSet (values : List String) : List String := values.dedup.insertionSort (· ≤ ·)

@[simp] theorem mem_sortedSet {x : String} {values : List String} :
    x ∈ sortedSet values ↔ x ∈ values := by
  simp [sortedSet, List.mem_insertionSort]

theorem nodup_sortedSet (values : List String) : (sortedSet values).Nodup :=
  (List.perm_insertionSort _ _).nodup_iff.2 (List.nodup_dedup values)

theorem pairwise_sortedSet (values : List String) : (sortedSet values).Pairwise (· ≤ ·) :=
  List.pairwise_insertionSort _ _

/-- A sorted set depends only on its members. -/
theorem sortedSet_congr {values values' : List String} (h : ∀ x, x ∈ values ↔ x ∈ values') :
    sortedSet values = sortedSet values' := by
  refine List.Perm.eq_of_pairwise (fun a b _ _ => le_antisymm)
    (pairwise_sortedSet _) (pairwise_sortedSet _) ?_
  refine (List.perm_ext_iff_of_nodup (nodup_sortedSet _) (nodup_sortedSet _)).2 fun x => ?_
  rw [mem_sortedSet, mem_sortedSet, h x]

theorem sortedSet_sortedSet (values : List String) :
    sortedSet (sortedSet values) = sortedSet values :=
  sortedSet_congr fun _ => mem_sortedSet

/-! ## Dependencies between subgraphs -/

/-- The truth value of an optional text. -/
def nonempty (value : Option String) : Option String := value.filter (· ≠ "")

/-- `_scope_ids`. -/
def scopeIds (s : AgentSubgraph) : List String :=
  [some s.subgraphId, s.physicalScopeId, s.solverScopeId, s.planningViewId].filterMap nonempty

/-- `{item.subgraph_id: item for item in subgraphs}`: the last item with the id. -/
def byId (subgraphs : List AgentSubgraph) (id : String) : Option AgentSubgraph :=
  subgraphs.reverse.find? (·.subgraphId = id)

/-- `owner.get(region_id)`: the last subgraph that lists the region. -/
def owner (subgraphs : List AgentSubgraph) (regionId : String) : Option String :=
  (subgraphs.reverse.find? fun s => regionId ∈ s.regionIds).map (·.subgraphId)

/-- `scope_owner.get(scope_id)`: the last subgraph with the scope. -/
def scopeOwner (subgraphs : List AgentSubgraph) (scopeId : String) : Option String :=
  (subgraphs.reverse.find? fun s => scopeId ∈ scopeIds s).map (·.subgraphId)

/-- The pair of two owners, unless one is missing or they are the same. -/
def dependencyPair (left right : Option String) : Option (String × String) :=
  match nonempty left, nonempty right with
  | some left, some right => if left = right then none else some (left, right)
  | _, _ => none

/-- The pairs an edge list contributes, for edges that are `hard` or not. -/
def edgePairs (graph : AgentGraph) (subgraphs : List AgentSubgraph) (hard : Bool) :
    List (String × String) :=
  (graph.edges.filter (·.hard = hard)).filterMap fun edge =>
    dependencyPair (owner subgraphs edge.u) (owner subgraphs edge.v)

/-- A boundary dependency with the pair of its owners. -/
def boundaryPairs (graph : AgentGraph) (subgraphs : List AgentSubgraph) :
    List (BoundaryDependency × (String × String)) :=
  graph.boundaryDependencies.filterMap fun dependency =>
    (dependencyPair (scopeOwner subgraphs dependency.uScopeId)
      (scopeOwner subgraphs dependency.vScopeId)).map fun pair => (dependency, pair)

/-- The pairs that share a solver scope. -/
def solverPairs (subgraphs : List AgentSubgraph) : List (String × String) :=
  subgraphs.flatMap fun left => subgraphs.filterMap fun right =>
    if left.subgraphId < right.subgraphId ∧ (nonempty left.solverScopeId).isSome ∧
        left.solverScopeId = right.solverScopeId then
      some (left.subgraphId, right.subgraphId)
    else none

/-- All pairs of one strength that `_dependency_pairs` collects. -/
def dependencyPairs (graph : AgentGraph) (subgraphs : List AgentSubgraph) (hard : Bool) :
    List (String × String) :=
  edgePairs graph subgraphs hard ++
    ((boundaryPairs graph subgraphs).filter fun pair => pair.1.hard = hard).map (·.2) ++
    if hard then solverPairs subgraphs else []

/-- The partners of `id`: a pair counts in both directions. -/
def partners (pairs : List (String × String)) (id : String) : List String :=
  sortedSet (pairs.flatMap fun pair =>
    (if pair.1 = id then [pair.2] else []) ++ if pair.2 = id then [pair.1] else [])

/-- `sorted(hard[id])`. -/
def hardNeighbours (graph : AgentGraph) (subgraphs : List AgentSubgraph) (id : String) :
    List String :=
  partners (dependencyPairs graph subgraphs true) id

/-- `sorted(soft[id])`. -/
def softNeighbours (graph : AgentGraph) (subgraphs : List AgentSubgraph) (id : String) :
    List String :=
  partners (dependencyPairs graph subgraphs false) id

/-- `dependency_ids[frozenset((left, right))]`. -/
def dependencyIds (graph : AgentGraph) (subgraphs : List AgentSubgraph) (left right : String) :
    List String :=
  (boundaryPairs graph subgraphs).filterMap fun pair =>
    if pair.2 = (left, right) ∨ pair.2 = (right, left) then some pair.1.dependencyId else none

/-! ## Region roles and helper assignments -/

/-- `_HARD_PHYSICAL_EVIDENCE_KINDS`. -/
def hardPhysicalEvidenceKinds : List String :=
  ["same_writable_occurrence", "same_writable_source_target",
    "shared_merged_boundary_contributor", "potential_write_protected_read",
    "shared_protected_landing_contact"]

/-- The evidence is a physical proof. -/
def EdgeEvidence.isPhysicalProof (e : EdgeEvidence) : Bool :=
  e.kind ∈ hardPhysicalEvidenceKinds || (e.kind = "shared_editable_object" && e.hardByOccurrence)

/-- `graph.regions[region_id].violation_ids`. -/
def regionViolations (graph : AgentGraph) (regionId : String) : List String :=
  ((graph.regions.find? (·.1 = regionId)).map (·.2)).getD []

/-- `sorted(physical_adjacency[current])` among `regionIds`. -/
def physicalAdjacency (graph : AgentGraph) (regionIds : List String) (current : String) :
    List String :=
  partners
    ((graph.edges.filter fun edge => edge.hard && edge.u ∈ regionIds && edge.v ∈ regionIds &&
      edge.evidence.any (·.isPhysicalProof)).map fun edge => (edge.u, edge.v)) current

/-- The decision regions: those that hold a frontier violation. -/
def decisionRegions (graph : AgentGraph) (regionIds frontier : List String) : List String :=
  sortedSet (regionIds.filter fun regionId =>
    (regionViolations graph regionId).any (· ∈ frontier))

/-- `classify_window_region_roles`: decision, helper and context regions. -/
def classifyWindowRegionRoles (graph : AgentGraph) (regionIds frontier : List String) :
    List String × List String × List String :=
  let decision := decisionRegions graph regionIds frontier
  let reachable := Worklist.closure (physicalAdjacency graph regionIds) regionIds.length decision
  let helper := reachable.filter (· ∉ decision)
  (decision, sortedSet helper, sortedSet (regionIds.filter fun r => r ∉ decision ∧ r ∉ helper))

/-- `HelperRegionAssignment`. -/
structure HelperRegionAssignment where
  helperRegionId : String
  assistedRegionIds : List String
  assistedTargetViolationIds : List String
  dependencyEvidenceIds : List String
  helperPotentialDofCapabilityIds : List String
  helperPotentialCarrierIds : List String
  helperProtectedRelationIds : List String
  snapshotId : String
  status : String
  deriving DecidableEq

/-- `sorted(adjacency[current])`: proven hard edges with their evidence ids. -/
def assistAdjacency (graph : AgentGraph) (current : String) : List (String × List String) :=
  let entries := (graph.edges.filter (·.hard)).flatMap fun edge =>
    let ids := (edge.evidence.filter (·.isPhysicalProof)).map (·.evidenceId)
    if ids = [] then []
    else (if edge.u = current then [(edge.v, ids)] else []) ++
      if edge.v = current then [(edge.u, ids)] else []
  (entries.map fun e => (toLex e : String ×ₗ List String)).insertionSort (· ≤ ·) |>.map ofLex

/-- The state of one helper's search. -/
structure AssistSearch where
  queue : List (String × List String)
  visited : List String
  assisted : List String := []
  evidence : List String := []

/-- The search for the decision regions a helper can reach. A decision region
is not expanded. -/
def assistSearch (graph : AgentGraph) (decisions : List String) :
    ℕ → AssistSearch → AssistSearch
  | 0, s => s
  | n + 1, s =>
    match s.queue with
    | [] => s
    | (current, path) :: queue =>
      if current ∈ decisions then
        assistSearch graph decisions n
          { s with queue := queue, assisted := s.assisted ++ [current]
                   evidence := s.evidence ++ path }
      else
        let visit := fun (acc : List (String × List String) × List String)
            (entry : String × List String) =>
          if entry.1 ∈ acc.2 then acc
          else (acc.1 ++ [(entry.1, path ++ entry.2)], acc.2 ++ [entry.1])
        let acc := (assistAdjacency graph current).foldl visit (queue, s.visited)
        assistSearch graph decisions n { s with queue := acc.1, visited := acc.2 }

/-- The assignment of one helper, if it reaches a current target. -/
def helperAssignment (graph : AgentGraph) (decisions frontier : List String) (snapshotId : String)
    (helper : String) : Option HelperRegionAssignment :=
  let found := assistSearch graph decisions (2 * graph.edges.length + 1)
    { queue := [(helper, [])], visited := [helper] }
  let targets := sortedSet (found.assisted.flatMap fun regionId =>
    (regionViolations graph regionId).filter (· ∈ frontier))
  if targets = [] ∨ found.evidence = [] then none
  else
    let summary := (graph.potentialAccessSummaries.find? (·.1 = helper)).map (·.2)
    let unsupported := summary.any fun s => s.schemaVersion = "2.0" ∧
      s.potentialDofCapabilityIds = [] ∧ s.potentialCarrierIds = []
    some {
      helperRegionId := helper
      assistedRegionIds := sortedSet found.assisted
      assistedTargetViolationIds := targets
      dependencyEvidenceIds := sortedSet found.evidence
      helperPotentialDofCapabilityIds := (summary.map (·.potentialDofCapabilityIds)).getD []
      helperPotentialCarrierIds := (summary.map (·.potentialCarrierIds)).getD []
      helperProtectedRelationIds := (summary.map (·.protectedRelationIds)).getD []
      snapshotId := snapshotId
      status := if unsupported then "UNSUPPORTED_WITH_EVIDENCE" else "DEPENDENCY_ASSIST" }

/-- `build_helper_assignments`. -/
def buildHelperAssignments (graph : AgentGraph) (helpers decisions frontier : List String)
    (snapshotId : String) : List HelperRegionAssignment :=
  (sortedSet helpers).filterMap (helperAssignment graph decisions frontier snapshotId)

/-! ## The window -/

/-- `ActiveWindow`. -/
structure ActiveWindow where
  windowId : String
  iteration : ℕ
  windowIndex : ℕ
  baseSnapshotId : String
  subgraphIds : List String
  regionIds : List String
  frontierViolationIds : List String
  claimedFrontierViolationIds : List String
  decisionRegionIds : List String
  helperRegionIds : List String
  helperAssignments : List HelperRegionAssignment
  contextOnlyRegionIds : List String
  boundaryDependencyIds : List String
  hardDependencyClosure : Bool
  deriving DecidableEq

/-- `identity`: what the window id is a hash of. -/
structure WindowIdentity where
  iteration : ℕ
  windowIndex : ℕ
  baseSnapshotId : String
  subgraphIds : List String
  frontier : List String
  decision : List String
  helper : List String
  contextOnly : List String
  helperAssignments : List HelperRegionAssignment

/-- The arguments of `select_active_window`. The deferred set is an argument it
does not read. -/
structure WindowRequest where
  graph : AgentGraph
  subgraphs : List AgentSubgraph
  iteration : ℕ := 1
  windowIndex : ℕ := 0
  baseSnapshotId : String := ""
  iterationFrontierViolationIds : Finset String
  processedFrontierViolationIds : Finset String := ∅
  deferredFrontierViolationIds : Finset String := ∅
  currentViolationIds : Finset String
  maxParallelSubgraphs : ℤ
  maxActiveRegions : ℤ
  topKCandidatesIncludingNoop : ℤ
  maxNonNoopActionsPerBatch : ℤ

/-- Five components, the first of which decide. -/
def SeedKey : Type := ℤ ×ₗ ℤ ×ₗ ℤ ×ₗ ℤ ×ₗ String

instance : LinearOrder SeedKey := inferInstanceAs (LinearOrder (ℤ ×ₗ ℤ ×ₗ ℤ ×ₗ ℤ ×ₗ String))

namespace WindowRequest

variable (req : WindowRequest)

/-- `pending`. -/
def pending : Finset String :=
  (req.iterationFrontierViolationIds \ req.processedFrontierViolationIds) ∩
    req.currentViolationIds

/-- The pending violations of a subgraph. -/
def claimsOf (s : AgentSubgraph) : List String :=
  sortedSet ((s.regionIds.flatMap (regionViolations req.graph)).filter (· ∈ req.pending))

/-- `claims[id]`. -/
def claims (id : String) : List String :=
  ((byId req.subgraphs id).map req.claimsOf).getD []

/-- `eligible`. -/
def eligible : List AgentSubgraph :=
  req.subgraphs.filter fun s => req.claims s.subgraphId ≠ []

/-- `hard[id]`. -/
def hard (id : String) : List String := hardNeighbours req.graph req.subgraphs id

/-- `soft[id]`. -/
def soft (id : String) : List String := softNeighbours req.graph req.subgraphs id

/-- `hard_degree`. -/
def hardDegree (s : AgentSubgraph) : ℕ :=
  (req.hard s.subgraphId).length +
    (req.graph.edges.filter fun edge =>
      edge.hard && (edge.u ∈ s.regionIds || edge.v ∈ s.regionIds)).length

/-- The key the seed minimises. -/
def seedKey (s : AgentSubgraph) : SeedKey :=
  toLex (-s.priority, toLex (-req.hardDegree s, toLex (-(req.claims s.subgraphId).length,
    toLex (s.regionIds.length, s.subgraphId))))

/-- `seed`: the first minimal eligible subgraph. -/
def seed : Option AgentSubgraph := req.eligible.argmin req.seedKey

/-- The dependents the hard closure visits: `dependent in by_id`. -/
def hardSupplied (id : String) : List String :=
  (req.hard id).filter fun dependent => (byId req.subgraphs dependent).isSome

/-- The hard closure of the seed. -/
def hardClosure (seedId : String) : List String :=
  Worklist.closure req.hardSupplied req.subgraphs.length [seedId]

/-- `region_count`. -/
def regionCount (ids : List String) : ℕ :=
  (ids.flatMap fun id => ((byId req.subgraphs id).map (·.regionIds)).getD []).dedup.length

/-- `estimate`. -/
def estimate (ids : List String) : ℤ :=
  req.regionCount ids * max (req.topKCandidatesIncludingNoop - 1) 0

/-- The three budget tests on a proposal. -/
def fitsBudget (proposal : List String) : Bool :=
  (proposal.length : ℤ) ≤ req.maxParallelSubgraphs ∧
    (req.regionCount proposal : ℤ) ≤ req.maxActiveRegions ∧
    req.estimate proposal ≤ req.maxNonNoopActionsPerBatch * req.topKCandidatesIncludingNoop

/-- The key soft neighbours are ordered by. -/
def softKey (s : AgentSubgraph) : ℤ ×ₗ ℤ ×ₗ ℤ ×ₗ String :=
  toLex (-s.priority, toLex (-(req.claims s.subgraphId).length,
    toLex (s.regionIds.length, s.subgraphId)))

/-- `candidates`: the soft neighbours of the selection outside it. -/
def softCandidates (selected : List String) : List String :=
  (selected.flatMap req.soft).dedup.filter (· ∉ selected)

/-- `ordered`. -/
def orderedCandidates (selected : List String) : List AgentSubgraph :=
  ((req.softCandidates selected).filterMap (byId req.subgraphs)).insertionSort
    fun a b => req.softKey a ≤ req.softKey b

/-- `added`: the first candidate that fits the budgets. -/
def softPick (selected : List String) : Option String :=
  ((req.orderedCandidates selected).find? fun s =>
    req.fitsBudget (selected ++ [s.subgraphId])).map (·.subgraphId)

/-- `selected` at the end of the `while candidates` loop. -/
def selected (seedId : String) : List String :=
  Greedy.grow req.softPick req.subgraphs.length (req.hardClosure seedId)

/-- `region_ids` of a selection. -/
def windowRegions (chosen : List String) : List String :=
  sortedSet (chosen.flatMap fun id => ((byId req.subgraphs id).map (·.regionIds)).getD [])

/-- `frontier` of a selection. -/
def windowFrontier (chosen : List String) : List String :=
  sortedSet (chosen.flatMap req.claims)

/-- `boundary_ids` of a selection. -/
def windowBoundaries (chosen : List String) : List String :=
  sortedSet (chosen.flatMap fun left => chosen.flatMap fun right =>
    if left < right then dependencyIds req.graph req.subgraphs left right else [])

/-- The window of a selection. -/
def window (stableHash : WindowIdentity → String) (chosen : List String) : ActiveWindow :=
  let regionIds := req.windowRegions chosen
  let frontier := req.windowFrontier chosen
  let (decision, helper, contextOnly) := classifyWindowRegionRoles req.graph regionIds frontier
  let assignments := buildHelperAssignments req.graph helper decision frontier req.baseSnapshotId
  -- a region without a current target binding is context, not a paid helper
  let assigned := sortedSet (assignments.map (·.helperRegionId))
  let contextOnly := sortedSet (contextOnly ++ helper.filter (· ∉ assigned))
  let identity : WindowIdentity := {
    iteration := req.iteration
    windowIndex := req.windowIndex
    baseSnapshotId := req.baseSnapshotId
    subgraphIds := sortedSet chosen
    frontier := frontier
    decision := decision
    helper := assigned
    contextOnly := contextOnly
    helperAssignments := assignments }
  { windowId := "window_" ++ stableHash identity
    iteration := req.iteration
    windowIndex := req.windowIndex
    baseSnapshotId := req.baseSnapshotId
    subgraphIds := sortedSet chosen
    regionIds := regionIds
    frontierViolationIds := frontier
    claimedFrontierViolationIds := frontier
    decisionRegionIds := decision
    helperRegionIds := assigned
    helperAssignments := assignments
    contextOnlyRegionIds := contextOnly
    boundaryDependencyIds := req.windowBoundaries chosen
    hardDependencyClosure := true }

end WindowRequest

/-- **`select_active_window`.**  A region that the graph does not have is a
`KeyError`; `stableHash` stands for `stable_hash(identity)[:20]`. -/
def selectActiveWindow (stableHash : WindowIdentity → String) (req : WindowRequest) :
    Except String (Option ActiveWindow) :=
  if req.pending = ∅ then .ok none
  else if req.subgraphs.any fun s => s.regionIds.any fun r => r ∉ req.graph.regions.map (·.1) then
    .error "KeyError"
  else
    match req.seed with
    | none => .ok none
    | some seed => .ok (some (req.window stableHash (req.selected seed.subgraphId)))

/-- A window comes from a seed. -/
theorem selectActiveWindow_some {stableHash : WindowIdentity → String} {req : WindowRequest}
    {w : ActiveWindow} (h : selectActiveWindow stableHash req = .ok (some w)) :
    ∃ seed, req.seed = some seed ∧ w = req.window stableHash (req.selected seed.subgraphId) := by
  rw [selectActiveWindow] at h
  split at h
  · cases h
  split at h
  · cases h
  split at h
  · cases h
  · next seed hseed =>
      refine ⟨seed, hseed, ?_⟩
      injection h with h
      injection h with h
      exact h.symm

end DRCAgent
