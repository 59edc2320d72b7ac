/-
# Messages by their content

The messages of a run on a well-formed graph, as sendings along its edges: every edge of the
subgraph is sent along once in each direction and round, and in the third round where its
regions are in conflict. Where the hash tells the contents of two runs apart, equal hashes
are equal messages, but for the intents of the third round, which are not hashed.

* `messages_addressed_iff`: when the messages of two runs are addressed by their content.
* `messages_shared_hash`: two runs with different intents behind one hash.
-/
import DRCAgent.NeighborMessages

namespace DRCAgent.Messages

open JsonText (Value)
open Prompt (strings orNull boxValue)
open Connectivity (PyError)
open Failures List

/-! ## Contents that tell their parts -/

/-- The strings of a JSON array can be read back. -/
theorem strings_injective : Function.Injective strings := fun _ _ h =>
  map_injective_iff.2 (fun _ _ h => Value.string.inj h) (Value.array.inj h)

/-- So can a string or nothing. -/
theorem orNull_string_injective : Function.Injective (orNull Value.string) := by
  intro first second h
  cases first <;> cases second <;> simp_all [orNull]

/-- So can a box. -/
theorem boxValue_injective : Function.Injective boxValue := by
  rintro ⟨x1, y1, x2, y2, _⟩ ⟨x1', y1', x2', y2', _⟩ h
  simp only [boxValue, Value.object.injEq, cons.injEq, Prod.mk.injEq, Value.integer.injEq,
    true_and, and_true] at h
  obtain ⟨rfl, rfl, rfl, rfl⟩ := h
  rfl

/-- So can a box or nothing. -/
theorem orNull_boxValue_injective : Function.Injective (orNull boxValue) := by
  intro first second h
  cases first with
  | none =>
    cases second with
    | none => rfl
    | some box => simp [orNull, boxValue] at h
  | some box =>
    cases second with
    | none => simp [orNull, boxValue] at h
    | some box' => exact congrArg some (boxValue_injective h)

/-- So can an intent. -/
theorem IntentSummary.dump_injective : Function.Injective IntentSummary.dump := by
  intro first second h
  cases first
  cases second
  simp only [IntentSummary.dump, Value.object.injEq, cons.injEq, Prod.mk.injEq,
    Value.string.injEq, true_and, and_true, strings_injective.eq_iff,
    orNull_string_injective.eq_iff, orNull_boxValue_injective.eq_iff] at h
  obtain ⟨rfl, rfl, rfl, rfl, rfl, rfl, rfl, rfl, rfl, rfl, rfl⟩ := h
  rfl

/-- So can a relation. -/
theorem Relation.value_injective : Function.Injective Relation.value := by
  intro first second h
  cases first <;> cases second <;> first | rfl | exact absurd h (by decide)

/-! ## Sendings -/

inductive Round
  | facts | intents | coordination
  deriving DecidableEq

def Round.number : Round → ℕ
  | .facts => 1
  | .intents => 2
  | .coordination => 3

/-- A message of a round along an edge, from one of its regions to the other. -/
structure Sending where
  round : Round
  edge : AgentEdge
  sender : String
  receiver : String

section Graph

variable {stableHash : Value → String} (graph : AgentGraph stableHash)

/-- The constraint of an edge of the graph. -/
def constraintFor (edge : AgentEdge) : StructuredConstraint :=
  (constraintOf graph edge).toOption.getD ⟨"", []⟩

/-- The constraint of an edge of the graph does not fail. -/
theorem constraintOf_eq_ok {edge : AgentEdge} (hedge : edge ∈ graph.edges) :
    constraintOf graph edge = .ok (constraintFor graph edge) := by
  obtain ⟨hu, hv⟩ := graph.endpoints edge hedge
  obtain ⟨left, hleft⟩ := Option.isSome_iff_exists.1 hu
  obtain ⟨right, hright⟩ := Option.isSome_iff_exists.1 hv
  have hok : ∃ constraint, constraintOf graph edge = .ok constraint := by
    rw [constraintOf, hleft, hright]
    exact ⟨_, rfl⟩
  obtain ⟨constraint, hconstraint⟩ := hok
  rw [constraintFor, hconstraint]
  rfl

/-- What is hashed of a sending. -/
def contentOf (intents : Intents) (sending : Sending) : Value :=
  match sending.round with
  | .facts => factContent sending.edge (constraintFor graph sending.edge) sending.sender
      sending.receiver
  | .intents => intentContent sending.edge (intents.of sending.sender) sending.sender
      sending.receiver
  | .coordination => coordinationContent sending.sender sending.receiver
      sending.edge.relation.value sending.edge.evidenceIds

/-- The message of a sending. -/
def messageOf (intents : Intents) (sending : Sending) : NeighborMessage :=
  match sending.round with
  | .facts => factMessage stableHash sending.edge (constraintFor graph sending.edge)
      sending.sender sending.receiver
  | .intents => intentMessage stableHash sending.edge (constraintFor graph sending.edge)
      (intents.of sending.sender) sending.sender sending.receiver
  | .coordination => coordinationMessage stableHash (intentMessage stableHash sending.edge
      (constraintFor graph sending.edge) (intents.of sending.sender) sending.sender
      sending.receiver)

section Fields

variable (intents : Intents) (sending : Sending)

/-- A message has the round of its sending. -/
@[simp]
theorem messageOf_round : (messageOf graph intents sending).round = sending.round.number := by
  rw [messageOf]
  cases sending.round <;> rfl

/-- It has its sender. -/
@[simp]
theorem messageOf_sender :
    (messageOf graph intents sending).senderRegionId = sending.sender := by
  rw [messageOf]
  cases sending.round <;> rfl

/-- It has its receiver. -/
@[simp]
theorem messageOf_receiver :
    (messageOf graph intents sending).receiverRegionId = sending.receiver := by
  rw [messageOf]
  cases sending.round <;> rfl

/-- It has the relation of the edge. -/
@[simp]
theorem messageOf_relation :
    (messageOf graph intents sending).relation = sending.edge.relation.value := by
  rw [messageOf]
  cases sending.round <;> rfl

/-- It has the evidence of the edge. -/
@[simp]
theorem messageOf_evidenceIds :
    (messageOf graph intents sending).evidenceIds = sending.edge.evidenceIds := by
  rw [messageOf]
  cases sending.round <;> rfl

/-- It has the constraint of the edge alone. -/
@[simp]
theorem messageOf_constraints :
    (messageOf graph intents sending).constraints = [constraintFor graph sending.edge] := by
  rw [messageOf]
  cases sending.round <;> rfl

/-- Its hash is that of its content. -/
@[simp]
theorem messageOf_contentHash : (messageOf graph intents sending).contentHash =
    stableHash (contentOf graph intents sending) := by
  rw [messageOf, contentOf]
  cases sending.round <;> rfl

/-- So is its id. -/
@[simp]
theorem messageOf_messageId : (messageOf graph intents sending).messageId =
    messageIdOf stableHash (contentOf graph intents sending) := by
  rw [messageOf, contentOf]
  cases sending.round <;> rfl

/-- The intents of a message: none of a fact, and those of its sender else. -/
theorem messageOf_proposedIntents : (messageOf graph intents sending).proposedIntents =
    if sending.round = .facts then [] else intents.of sending.sender := by
  rw [messageOf]
  cases sending.round <;> rfl

end Fields

/-- The sendings of a round along the edges. -/
def sendingsOf (round : Round) (edges : List AgentEdge) : List Sending :=
  edges.flatMap fun edge => edge.directions.map fun arc => ⟨round, edge, arc.1, arc.2⟩

/-- The sendings of a run. -/
def sendings (input : RunInput) : List Sending :=
  (if 1 ≤ input.count then sendingsOf .facts (relevant input.edgeIds graph) else []) ++
    (if 2 ≤ input.count then sendingsOf .intents (relevant input.edgeIds graph) else []) ++
    (if 3 ≤ input.count then
      (sendingsOf .coordination (relevant input.edgeIds graph)).filter fun sending =>
        input.conflictRegionPairs.contains (sortedPair sending.sender sending.receiver)
    else [])

/-- What is sent in a round: one message along each direction of each edge. -/
theorem mem_sendingsOf {round : Round} {edges : List AgentEdge} {sending : Sending} :
    sending ∈ sendingsOf round edges ↔ sending.round = round ∧ sending.edge ∈ edges ∧
      (sending.sender, sending.receiver) ∈ sending.edge.directions := by
  rw [sendingsOf, mem_flatMap]
  constructor
  · rintro ⟨edge, hedge, hmem⟩
    obtain ⟨arc, harc, rfl⟩ := mem_map.1 hmem
    exact ⟨rfl, hedge, harc⟩
  · rintro ⟨rfl, hedge, harc⟩
    exact ⟨sending.edge, hedge, mem_map.2 ⟨_, harc, rfl⟩⟩

/-- The relevant edges are those of the graph that are asked for. -/
theorem mem_relevant {edgeIds : List String} {edge : AgentEdge} :
    edge ∈ relevant edgeIds graph ↔ edge ∈ graph.edges ∧ edge.edgeId ∈ edgeIds := by
  rw [relevant, mem_filter, decide_eq_true_eq]

/-- **The sendings of a run** are along the edges of the subgraph, in the rounds that it has,
and in the third round between regions in conflict. -/
theorem mem_sendings {input : RunInput} {sending : Sending} :
    sending ∈ sendings graph input ↔
      (sending.round.number : ℤ) ≤ input.count ∧
        sending.edge ∈ relevant input.edgeIds graph ∧
        (sending.sender, sending.receiver) ∈ sending.edge.directions ∧
        (sending.round = .coordination →
          sortedPair sending.sender sending.receiver ∈ input.conflictRegionPairs) := by
  rw [sendings, mem_append, mem_append]
  obtain ⟨round, edge, sender, receiver⟩ := sending
  cases round with
  | facts =>
    by_cases hcount : 1 ≤ input.count <;>
      simp [hcount, mem_sendingsOf, Round.number, mem_filter]
  | intents =>
    by_cases hcount : 2 ≤ input.count <;>
      simp [hcount, mem_sendingsOf, Round.number, mem_filter]
  | coordination =>
    by_cases hcount : 3 ≤ input.count <;>
      simp [hcount, mem_sendingsOf, Round.number, mem_filter, and_assoc]

/-! ## A run and its sendings -/

/-- The messages of one round along the edges. -/
theorem mapM_constraintOf (edgeIds : List String) {α : Type}
    (message : AgentEdge → StructuredConstraint → String × String → α) :
    ((relevant edgeIds graph).mapM fun edge => do
        let constraint ← constraintOf graph edge
        return edge.directions.map (message edge constraint)) =
      .ok ((relevant edgeIds graph).map fun edge =>
        edge.directions.map (message edge (constraintFor graph edge))) := by
  refine (mapM_eq_ok_iff (P := fun _ => True) (fun edge hedge messages => ?_) _).2
    ⟨fun _ _ => trivial, rfl⟩
  rw [constraintOf_eq_ok graph (mem_relevant graph |>.1 hedge).1, true_and]
  exact ⟨fun h => (Except.ok.inj h).symm, fun h => congrArg Except.ok h.symm⟩

/-- What is built from the sendings, edge by edge. -/
theorem map_sendingsOf {α : Type} (round : Round) (edges : List AgentEdge)
    (message : Sending → α) : (sendingsOf round edges).map message =
      (edges.map fun edge => edge.directions.map fun arc =>
        message ⟨round, edge, arc.1, arc.2⟩).flatten := by
  rw [sendingsOf, map_flatMap, flatMap_def]
  simp only [map_map, Function.comp_def]

/-- The first round sends the facts of all relevant edges. -/
theorem roundOne_eq (edgeIds : List String) (intents : Intents) :
    roundOne edgeIds graph = .ok (sortById
      ((sendingsOf .facts (relevant edgeIds graph)).map (messageOf graph intents))) := by
  have hmessages := mapM_constraintOf graph edgeIds fun edge constraint arc =>
    factMessage stableHash edge constraint arc.1 arc.2
  rw [map_sendingsOf]
  exact bind_eq_ok.2 ⟨_, hmessages, rfl⟩

/-- The second round sends the intents along the same edges. -/
theorem roundTwo_eq (edgeIds : List String) (intents : Intents) :
    roundTwo edgeIds graph intents = .ok (sortById
      ((sendingsOf .intents (relevant edgeIds graph)).map (messageOf graph intents))) := by
  have hmessages := mapM_constraintOf graph edgeIds fun edge constraint arc =>
    intentMessage stableHash edge constraint (intents.of arc.1) arc.1 arc.2
  rw [map_sendingsOf]
  exact bind_eq_ok.2 ⟨_, hmessages, rfl⟩

/-- The third round copies the second one. -/
theorem sendingsOf_coordination (edges : List AgentEdge) : sendingsOf .coordination edges =
    (sendingsOf .intents edges).map fun sending => { sending with round := .coordination } := by
  rw [map_sendingsOf]
  rfl

/-- Sorting loses no message. -/
theorem sortById_perm (messages : List NeighborMessage) : (sortById messages).Perm messages :=
  perm_insertionSort _ _

/-- The third round keeps to the edges between conflicting regions. -/
theorem roundThree_perm (edgeIds : List String) (conflicts : List (String × String))
    (intents : Intents) : ∃ messages, roundThree edgeIds graph conflicts intents = .ok messages ∧
      messages.Perm (((sendingsOf .coordination (relevant edgeIds graph)).filter fun sending =>
        conflicts.contains (sortedPair sending.sender sending.receiver)).map
          (messageOf graph intents)) := by
  refine ⟨_, bind_eq_ok.2 ⟨_, roundTwo_eq graph edgeIds intents, rfl⟩, ?_⟩
  refine (sortById_perm _).trans ((((sortById_perm _).filter _).map _).trans ?_)
  rw [sendingsOf_coordination, filter_map, filter_map, map_map, map_map]
  -- what is asked of a message of the second round is asked of its sending
  have hfilter : ∀ sending ∈ sendingsOf .intents (relevant edgeIds graph),
      conflicts.contains (sortedPair (messageOf graph intents sending).senderRegionId
        (messageOf graph intents sending).receiverRegionId) =
      conflicts.contains (sortedPair sending.sender sending.receiver) := by
    intro sending _
    rw [messageOf_sender, messageOf_receiver]
  have hmessages : ∀ sending ∈ sendingsOf .intents (relevant edgeIds graph),
      coordinationMessage stableHash (messageOf graph intents sending) =
        messageOf graph intents { sending with round := .coordination } := by
    intro sending hsending
    obtain ⟨hround, -⟩ := mem_sendingsOf.1 hsending
    rw [messageOf, messageOf, hround]
  refine Perm.of_eq ?_
  rw [filter_congr (q := fun sending =>
    conflicts.contains (sortedPair sending.sender sending.receiver)) hfilter]
  exact map_congr_left fun sending hmem => hmessages sending (mem_of_mem_filter hmem)

/-- **A run** returns, with the messages of its sendings. -/
theorem run_perm (input : RunInput) : ∃ messages, run graph input = .ok messages ∧
    messages.Perm ((sendings graph input).map (messageOf graph input.intentsByRegion)) := by
  obtain ⟨third, hthird, hperm⟩ := roundThree_perm graph input.edgeIds
    input.conflictRegionPairs input.intentsByRegion
  -- without conflicts the third round would be empty
  have hempty : input.conflictRegionPairs = [] → third = [] := by
    intro hconflicts
    rw [hconflicts] at hperm
    simpa using hperm
  obtain ⟨first', hfirst', hperm₁⟩ : ∃ messages,
      (if 1 ≤ input.count then roundOne input.edgeIds graph else .ok []) = .ok messages ∧
      messages.Perm ((if 1 ≤ input.count then
        sendingsOf .facts (relevant input.edgeIds graph) else []).map
          (messageOf graph input.intentsByRegion)) := by
    split
    · exact ⟨_, roundOne_eq graph _ input.intentsByRegion, sortById_perm _⟩
    · exact ⟨[], rfl, .nil⟩
  obtain ⟨second', hsecond', hperm₂⟩ : ∃ messages,
      (if 2 ≤ input.count then roundTwo input.edgeIds graph input.intentsByRegion
        else .ok []) = .ok messages ∧
      messages.Perm ((if 2 ≤ input.count then
        sendingsOf .intents (relevant input.edgeIds graph) else []).map
          (messageOf graph input.intentsByRegion)) := by
    split
    · exact ⟨_, roundTwo_eq graph _ _, sortById_perm _⟩
    · exact ⟨[], rfl, .nil⟩
  obtain ⟨third', hthird', hperm₃⟩ : ∃ messages,
      (if 3 ≤ input.count ∧ input.conflictRegionPairs ≠ [] then
        roundThree input.edgeIds graph input.conflictRegionPairs input.intentsByRegion
        else .ok []) = .ok messages ∧
      messages.Perm ((if 3 ≤ input.count then
        (sendingsOf .coordination (relevant input.edgeIds graph)).filter fun sending =>
          input.conflictRegionPairs.contains (sortedPair sending.sender sending.receiver)
        else []).map (messageOf graph input.intentsByRegion)) := by
    by_cases hcount : 3 ≤ input.count
    · rw [if_pos hcount]
      by_cases hconflicts : input.conflictRegionPairs = []
      · rw [if_neg fun h => h.2 hconflicts]
        refine ⟨[], rfl, ?_⟩
        rwa [hempty hconflicts] at hperm
      · rw [if_pos ⟨hcount, hconflicts⟩]
        exact ⟨third, hthird, hperm⟩
    · rw [if_neg hcount, if_neg fun h => hcount h.1]
      exact ⟨[], rfl, .nil⟩
  refine ⟨first' ++ second' ++ third', ?_, ?_⟩
  · rw [run, hfirst', hsecond', hthird']
    rfl
  · rw [sendings, map_append, map_append]
    exact (hperm₁.append hperm₂).append hperm₃

/-! ## What a content says -/

/-- The id tells an edge. -/
theorem edge_eq_of_edgeId {edge edge' : AgentEdge} (hedge : edge ∈ graph.edges)
    (hedge' : edge' ∈ graph.edges) (h : edge.edgeId = edge'.edgeId) : edge = edge' :=
  inj_on_of_nodup_map graph.distinct hedge hedge' h

/-- An edge has two directions. -/
theorem mem_directions {edge : AgentEdge} {sender receiver : String} :
    (sender, receiver) ∈ edge.directions ↔
      sender = edge.u ∧ receiver = edge.v ∨ sender = edge.v ∧ receiver = edge.u := by
  simp [AgentEdge.directions]

/-- Either direction of an edge is looked up as its ends in order. -/
theorem sortedPair_of_mem_directions {edge : AgentEdge} (hedge : edge ∈ graph.edges)
    {sender receiver : String} (harc : (sender, receiver) ∈ edge.directions) :
    sortedPair sender receiver = (edge.u, edge.v) := by
  have hlt := graph.ordered edge hedge
  rcases mem_directions.1 harc with ⟨rfl, rfl⟩ | ⟨rfl, rfl⟩
  · exact if_neg (lt_asymm hlt)
  · exact if_pos hlt

/-- On one graph an edge is told by a direction along it, the relation and the evidence. -/
theorem edge_eq_of_arc {edge edge' : AgentEdge} (hedge : edge ∈ graph.edges)
    (hedge' : edge' ∈ graph.edges) {sender receiver : String}
    (harc : (sender, receiver) ∈ edge.directions)
    (harc' : (sender, receiver) ∈ edge'.directions) (hrelation : edge.relation = edge'.relation)
    (hevidence : edge.evidenceIds = edge'.evidenceIds) : edge = edge' := by
  have hlt := graph.ordered edge hedge
  have hlt' := graph.ordered edge' hedge'
  have hends : edge.u = edge'.u ∧ edge.v = edge'.v := by
    rcases mem_directions.1 harc with ⟨rfl, rfl⟩ | ⟨rfl, rfl⟩ <;>
      rcases mem_directions.1 harc' with ⟨hu, hv⟩ | ⟨hu, hv⟩
    · exact ⟨hu, hv⟩
    · rw [hu, hv] at hlt
      exact absurd hlt (lt_asymm hlt')
    · rw [hu, hv] at hlt
      exact absurd hlt (lt_asymm hlt')
    · exact ⟨hv, hu⟩
  refine edge_eq_of_edgeId graph hedge hedge' ?_
  rw [graph.made edge hedge, graph.made edge' hedge', hends.1, hends.2, hrelation, hevidence]

variable {graph}

/-- What is sent goes along an edge of the graph. -/
theorem Sending.edge_mem {input : RunInput} {sending : Sending}
    (h : sending ∈ sendings graph input) : sending.edge ∈ graph.edges :=
  ((mem_relevant graph).1 ((mem_sendings graph).1 h).2.1).1

/-- **A content tells its sending**, and in the second round the intents of the sender. -/
theorem contentOf_inj {input input' : RunInput} {intents intents' : Intents}
    {sending sending' : Sending} (hmem : sending ∈ sendings graph input)
    (hmem' : sending' ∈ sendings graph input')
    (h : contentOf graph intents sending = contentOf graph intents' sending') :
    sending = sending' ∧ (sending.round = .intents →
      intents.of sending.sender = intents'.of sending.sender) := by
  have hedge := Sending.edge_mem hmem
  have hedge' := Sending.edge_mem hmem'
  obtain ⟨-, -, harc, -⟩ := (mem_sendings graph).1 hmem
  obtain ⟨-, -, harc', -⟩ := (mem_sendings graph).1 hmem'
  obtain ⟨round, edge, sender, receiver⟩ := sending
  obtain ⟨round', edge', sender', receiver'⟩ := sending'
  dsimp only at hedge hedge' harc harc'
  cases round <;> cases round' <;>
    simp only [contentOf, factContent, intentContent, coordinationContent, Value.object.injEq,
      cons.injEq, Prod.mk.injEq, Value.integer.injEq, Value.string.injEq, true_and,
      reduceCtorEq, and_false, OfNat.ofNat_ne_one, OfNat.one_ne_ofNat] at h
  -- the contents name their round, so only equal rounds are left
  · obtain ⟨rfl, rfl, -, hid, -⟩ := h
    rw [edge_eq_of_edgeId graph hedge hedge' hid]
    exact ⟨rfl, nofun⟩
  · obtain ⟨rfl, rfl, -, hid, hintents, -⟩ := h
    rw [edge_eq_of_edgeId graph hedge hedge' hid]
    refine ⟨rfl, fun _ => ?_⟩
    exact map_injective_iff.2 IntentSummary.dump_injective (Value.array.inj hintents)
  · -- a message of the third round does not name its edge, but what tells it apart
    obtain ⟨rfl, rfl, hrelation, hevidence, -⟩ := h
    rw [edge_eq_of_arc graph hedge hedge' harc harc' (Relation.value_injective hrelation)
      (strings_injective hevidence)]
    exact ⟨rfl, nofun⟩

/-! ## Each sending once -/

/-- No sending of a round is repeated. -/
theorem nodup_sendingsOf (round : Round) {edges : List AgentEdge} (hnodup : edges.Nodup)
    (hends : ∀ edge ∈ edges, edge.u < edge.v) : (sendingsOf round edges).Nodup := by
  rw [sendingsOf, nodup_flatMap]
  constructor
  · intro edge hedge
    have hne := (hends edge hedge).ne
    simp [AgentEdge.directions, hne]
  · refine hnodup.imp fun {edge edge'} hne => ?_
    intro sending hsending hsending'
    obtain ⟨arc, -, rfl⟩ := mem_map.1 hsending
    obtain ⟨arc', -, h⟩ := mem_map.1 hsending'
    exact hne (congrArg Sending.edge h).symm

/-- No relevant edge is repeated. -/
theorem nodup_relevant (edgeIds : List String) : (relevant edgeIds graph).Nodup :=
  (Nodup.of_map _ graph.distinct).filter _

/-- No sending of a run is repeated. -/
theorem nodup_sendings (input : RunInput) : (sendings graph input).Nodup := by
  have hends : ∀ edge ∈ relevant input.edgeIds graph, edge.u < edge.v :=
    fun edge hedge => graph.ordered edge ((mem_relevant graph).1 hedge).1
  have hround : ∀ round, (sendingsOf round (relevant input.edgeIds graph)).Nodup :=
    fun round => nodup_sendingsOf round (nodup_relevant input.edgeIds) hends
  have hite : ∀ (c : Prop) [Decidable c] {l : List Sending}, l.Nodup →
      (if c then l else []).Nodup := by
    intro c _ l hl
    split
    · exact hl
    · exact nodup_nil
  -- the round tells the sendings of two rounds apart
  have hapart : ∀ (c : Prop) [Decidable c] {round : Round} {sending : Sending}
      {l : List Sending}, l ⊆ sendingsOf round (relevant input.edgeIds graph) →
        sending ∈ (if c then l else []) → sending.round = round := by
    intro c _ round sending l hsub hmem
    split at hmem
    · exact (mem_sendingsOf.1 (hsub hmem)).1
    · cases hmem
  have hself : ∀ (l : List Sending), l ⊆ l := fun l => Subset.refl l
  rw [sendings, nodup_append', nodup_append']
  refine ⟨⟨hite _ (hround _), hite _ (hround _), ?_⟩, hite _ ((hround _).filter _), ?_⟩
  · intro sending hfirst hsecond
    have h := hapart _ (hself _) hfirst
    rw [hapart _ (hself _) hsecond] at h
    cases h
  · intro sending hprior hthird
    have hcoordination := hapart _ (filter_subset_self _) hthird
    rcases mem_append.1 hprior with hfirst | hsecond
    · have h := hapart _ (hself _) hfirst
      rw [hcoordination] at h
      cases h
    · have h := hapart _ (hself _) hsecond
      rw [hcoordination] at h
      cases h

/-! ## What a run emits -/

/-- The message is of a round, along an edge in a direction. -/
structure NeighborMessage.IsAlong (message : NeighborMessage) (round : ℕ) (edge : AgentEdge)
    (arc : String × String) : Prop where
  round : message.round = round
  sender : message.senderRegionId = arc.1
  receiver : message.receiverRegionId = arc.2
  relation : message.relation = edge.relation.value
  evidenceIds : message.evidenceIds = edge.evidenceIds

/-- The regions of the edge are in conflict, in either order. -/
def Conflicting (conflicts : List (String × String)) (edge : AgentEdge) : Prop :=
  (edge.u, edge.v) ∈ conflicts ∨ (edge.v, edge.u) ∈ conflicts

variable (graph)

/-- What a run should emit: one message for each edge of the subgraph and each direction, in
each of the first two rounds that it has, and in the third one where the regions of the edge
are in conflict; nothing else; and no two messages with one id. -/
structure Emits (input : RunInput) (messages : List NeighborMessage) : Prop where
  ids : (messages.map NeighborMessage.messageId).Nodup
  early : ∀ round : ℕ, 1 ≤ round → round ≤ 2 → (round : ℤ) ≤ input.count →
    ∀ edge ∈ relevant input.edgeIds graph, ∀ arc ∈ edge.directions,
      ∃! message, message ∈ messages ∧ message.IsAlong round edge arc
  coordinated : 3 ≤ input.count → ∀ edge ∈ relevant input.edgeIds graph,
    Conflicting input.conflictRegionPairs edge → ∀ arc ∈ edge.directions,
      ∃! message, message ∈ messages ∧ message.IsAlong 3 edge arc
  only : ∀ message ∈ messages, ∃ edge ∈ relevant input.edgeIds graph, ∃ arc ∈ edge.directions,
    ∃ round : ℕ, message.IsAlong round edge arc ∧ 1 ≤ round ∧ round ≤ 3 ∧
      (round : ℤ) ≤ input.count ∧ (round = 3 → Conflicting input.conflictRegionPairs edge)

/-- The conflicts of the edges of a run with a third round are given in order. -/
def OrderedConflicts (input : RunInput) : Prop :=
  3 ≤ input.count → ∀ edge ∈ relevant input.edgeIds graph,
    (edge.v, edge.u) ∈ input.conflictRegionPairs → (edge.u, edge.v) ∈ input.conflictRegionPairs

/-- The contents that a run hashes. -/
def contents (input : RunInput) : List Value :=
  (sendings graph input).map (contentOf graph input.intentsByRegion)

/-- The first digits of the hash tell the contents apart. -/
def TellsApart (stableHash : Value → String) (contents : List Value) : Prop :=
  ∀ first ∈ contents, ∀ second ∈ contents,
    digits 20 (stableHash first) = digits 20 (stableHash second) → first = second

variable {graph}

/-- A message goes along the direction that it is sent along. -/
theorem isAlong_messageOf (intents : Intents) (sending : Sending) :
    (messageOf graph intents sending).IsAlong sending.round.number sending.edge
      (sending.sender, sending.receiver) where
  round := messageOf_round ..
  sender := messageOf_sender ..
  receiver := messageOf_receiver ..
  relation := messageOf_relation ..
  evidenceIds := messageOf_evidenceIds ..

/-- Two sendings of a run along one edge in one direction and round are the same. -/
theorem sending_eq_of_isAlong {input : RunInput} {sending : Sending} {edge : AgentEdge}
    (round : Round) {arc : String × String} (hmem : sending ∈ sendings graph input)
    (hedge : edge ∈ graph.edges) (harc : arc ∈ edge.directions)
    (h : (messageOf graph input.intentsByRegion sending).IsAlong round.number edge arc) :
    sending = ⟨round, edge, arc.1, arc.2⟩ := by
  obtain ⟨-, -, hdirection, -⟩ := (mem_sendings graph).1 hmem
  have hsender := (messageOf_sender ..).symm.trans h.sender
  have hreceiver := (messageOf_receiver ..).symm.trans h.receiver
  have hrelation := (messageOf_relation ..).symm.trans h.relation
  have hevidence := (messageOf_evidenceIds ..).symm.trans h.evidenceIds
  have hnumber := (messageOf_round ..).symm.trans h.round
  have hround : sending.round = round := by
    cases hfirst : sending.round <;> cases round <;> rw [hfirst] at hnumber <;>
      first | rfl | exact absurd hnumber (by decide)
  have hsame : sending.edge = edge := by
    rw [hsender, hreceiver] at hdirection
    exact edge_eq_of_arc graph (Sending.edge_mem hmem) hedge hdirection harc
      (Relation.value_injective hrelation) hevidence
  obtain ⟨_, _, _, _⟩ := sending
  dsimp only at hsender hreceiver hround hsame
  rw [hsender, hreceiver, hround, hsame]

section Run

variable {input : RunInput} {messages : List NeighborMessage}
  (hperm : messages.Perm ((sendings graph input).map (messageOf graph input.intentsByRegion)))
include hperm

/-- The messages of a run are those of its sendings. -/
theorem mem_messages {message : NeighborMessage} : message ∈ messages ↔
    ∃ sending ∈ sendings graph input,
      messageOf graph input.intentsByRegion sending = message := by
  rw [hperm.mem_iff, mem_map]

/-- A sending of the run is its one message along the edge. -/
theorem existsUnique_isAlong (sending : Sending) (hmem : sending ∈ sendings graph input) :
    ∃! message, message ∈ messages ∧ message.IsAlong sending.round.number sending.edge
      (sending.sender, sending.receiver) := by
  obtain ⟨-, -, harc, -⟩ := (mem_sendings graph).1 hmem
  refine ⟨messageOf graph input.intentsByRegion sending,
    ⟨(mem_messages hperm).2 ⟨sending, hmem, rfl⟩, isAlong_messageOf ..⟩, ?_⟩
  rintro message ⟨hmessage, halong⟩
  obtain ⟨other, hother, rfl⟩ := (mem_messages hperm).1 hmessage
  rw [sending_eq_of_isAlong sending.round hother (Sending.edge_mem hmem) harc halong]

/-- No id of a message is repeated, where the hash tells the contents apart. -/
theorem nodup_messageIds (hhash : TellsApart stableHash (contents graph input)) :
    (messages.map NeighborMessage.messageId).Nodup := by
  rw [(hperm.map _).nodup_iff, map_map]
  refine Nodup.map_on (fun first hfirst second hsecond h => ?_) (nodup_sendings input)
  rw [Function.comp_apply, Function.comp_apply, messageOf_messageId, messageOf_messageId,
    messageIdOf, messageIdOf, String.append_right_inj] at h
  have hcontent := hhash _ (mem_map_of_mem hfirst) _ (mem_map_of_mem hsecond) h
  exact (contentOf_inj hfirst hsecond hcontent).1

/-- **What a run emits** is what it should, exactly when its conflicts are given in order. -/
theorem emits_iff (hhash : TellsApart stableHash (contents graph input)) :
    Emits graph input messages ↔ OrderedConflicts graph input := by
  constructor
  · intro hemits hcount edge hedge hconflict
    have hgraph := ((mem_relevant graph).1 hedge).1
    obtain ⟨message, ⟨hmessage, halong⟩, -⟩ := hemits.coordinated hcount edge hedge
      (Or.inr hconflict) (edge.u, edge.v) (mem_directions.2 (Or.inl ⟨rfl, rfl⟩))
    obtain ⟨sending, hsending, rfl⟩ := (mem_messages hperm).1 hmessage
    obtain rfl := sending_eq_of_isAlong .coordination hsending hgraph
      (mem_directions.2 (Or.inl ⟨rfl, rfl⟩)) halong
    obtain ⟨-, -, harc, hpair⟩ := (mem_sendings graph).1 hsending
    rw [← sortedPair_of_mem_directions graph hgraph harc]
    exact hpair rfl
  · intro hordered
    refine ⟨nodup_messageIds hperm hhash, ?_, ?_, ?_⟩
    · intro round hfirst hsecond hcount edge hedge arc harc
      obtain rfl | rfl : round = 1 ∨ round = 2 := by omega
      · exact existsUnique_isAlong hperm ⟨.facts, edge, arc.1, arc.2⟩
          ((mem_sendings graph).2 ⟨hcount, hedge, harc, nofun⟩)
      · exact existsUnique_isAlong hperm ⟨.intents, edge, arc.1, arc.2⟩
          ((mem_sendings graph).2 ⟨hcount, hedge, harc, nofun⟩)
    · -- the sorted pair is the one that the condition puts among the conflicts
      intro hcount edge hedge hconflict arc harc
      have hgraph := ((mem_relevant graph).1 hedge).1
      have hpair : (edge.u, edge.v) ∈ input.conflictRegionPairs :=
        hconflict.elim id (hordered hcount edge hedge)
      refine existsUnique_isAlong hperm ⟨.coordination, edge, arc.1, arc.2⟩
        ((mem_sendings graph).2 ⟨hcount, hedge, harc, fun _ => ?_⟩)
      rwa [sortedPair_of_mem_directions graph hgraph harc]
    · -- every message is one of a sending
      intro message hmessage
      obtain ⟨sending, hsending, rfl⟩ := (mem_messages hperm).1 hmessage
      obtain ⟨hcount, hedge, harc, hpair⟩ := (mem_sendings graph).1 hsending
      refine ⟨sending.edge, hedge, _, harc, sending.round.number, isAlong_messageOf .., ?_, ?_,
        hcount, ?_⟩
      · cases sending.round <;> decide
      · cases sending.round <;> decide
      · intro hthree
        have hround : sending.round = .coordination := by
          cases hround : sending.round <;> rw [hround] at hthree <;>
            first | rfl | exact absurd hthree (by decide)
        have hmem := hpair hround
        rw [sortedPair_of_mem_directions graph ((mem_relevant graph).1 hedge).1 harc] at hmem
        exact Or.inl hmem

end Run

/-! ## Two runs on one graph -/

/-- The messages agree in what they say. -/
structure SameMessage (message message' : NeighborMessage) : Prop where
  round : message.round = message'.round
  sender : message.senderRegionId = message'.senderRegionId
  receiver : message.receiverRegionId = message'.receiverRegionId
  relation : message.relation = message'.relation
  evidenceIds : message.evidenceIds = message'.evidenceIds
  constraints : message.constraints = message'.constraints
  proposedIntents : message.proposedIntents = message'.proposedIntents

/-- Messages of one hash are the same. -/
def Addressed (messages messages' : List NeighborMessage) : Prop :=
  ∀ message ∈ messages, ∀ message' ∈ messages',
    message.contentHash = message'.contentHash → SameMessage message message'

variable (graph)

/-- Two runs have the same intents for the regions of the edges that both send along in their
third rounds. -/
def SameIntents (input input' : RunInput) : Prop :=
  3 ≤ input.count → 3 ≤ input'.count → ∀ edge ∈ relevant input.edgeIds graph,
    edge ∈ relevant input'.edgeIds graph →
      (edge.u, edge.v) ∈ input.conflictRegionPairs →
      (edge.u, edge.v) ∈ input'.conflictRegionPairs →
        ∀ region ∈ [edge.u, edge.v],
          input.intentsByRegion.of region = input'.intentsByRegion.of region

variable {graph}

section Two

variable {input input' : RunInput} {messages messages' : List NeighborMessage}
  (hperm : messages.Perm ((sendings graph input).map (messageOf graph input.intentsByRegion)))
  (hperm' : messages'.Perm ((sendings graph input').map (messageOf graph input'.intentsByRegion)))
include hperm hperm'

/-- **Addressed by content.**  Messages of one hash are the same, exactly when the third rounds
of the two runs have the same intents. -/
theorem addressed_iff
    (hhash : TellsApart stableHash (contents graph input ++ contents graph input')) :
    Addressed messages messages' ↔ SameIntents graph input input' := by
  constructor
  · intro haddressed hcount hcount' edge hedge hedge' hpair hpair' region hregion
    have hgraph := ((mem_relevant graph).1 hedge).1
    -- the region sends along the edge in both of the third rounds
    obtain ⟨receiver, harc⟩ : ∃ receiver, (region, receiver) ∈ edge.directions := by
      rcases mem_cons.1 hregion with rfl | hregion
      · exact ⟨edge.v, mem_directions.2 (Or.inl ⟨rfl, rfl⟩)⟩
      · rw [mem_singleton.1 hregion]
        exact ⟨edge.u, mem_directions.2 (Or.inr ⟨rfl, rfl⟩)⟩
    have hsorted := sortedPair_of_mem_directions graph hgraph harc
    have hmem : (⟨.coordination, edge, region, receiver⟩ : Sending) ∈ sendings graph input :=
      (mem_sendings graph).2 ⟨hcount, hedge, harc, fun _ => hsorted ▸ hpair⟩
    have hmem' : (⟨.coordination, edge, region, receiver⟩ : Sending) ∈ sendings graph input' :=
      (mem_sendings graph).2 ⟨hcount', hedge', harc, fun _ => hsorted ▸ hpair'⟩
    have hsame := haddressed _ ((mem_messages hperm).2 ⟨_, hmem, rfl⟩) _
      ((mem_messages hperm').2 ⟨_, hmem', rfl⟩) rfl
    have hintents := hsame.proposedIntents
    rwa [messageOf_proposedIntents, messageOf_proposedIntents, if_neg nofun,
      if_neg nofun] at hintents
  · intro hintents message hmessage message' hmessage' heq
    obtain ⟨sending, hsending, rfl⟩ := (mem_messages hperm).1 hmessage
    obtain ⟨sending', hsending', rfl⟩ := (mem_messages hperm').1 hmessage'
    rw [messageOf_contentHash, messageOf_contentHash] at heq
    have hcontent := hhash _ (mem_append_left _ (mem_map_of_mem hsending)) _
      (mem_append_right _ (mem_map_of_mem hsending')) (congrArg (digits 20) heq)
    obtain ⟨rfl, hsecond⟩ := contentOf_inj hsending hsending' hcontent
    refine ⟨by simp, by simp, by simp, by simp, by simp, by simp, ?_⟩
    rw [messageOf_proposedIntents, messageOf_proposedIntents]
    cases hround : sending.round with
    | facts => rfl
    | intents =>
      rw [if_neg nofun, if_neg nofun]
      exact hsecond hround
    | coordination =>
      rw [if_neg nofun, if_neg nofun]
      obtain ⟨hcount, hedge, harc, hpair⟩ := (mem_sendings graph).1 hsending
      obtain ⟨hcount', hedge', -, hpair'⟩ := (mem_sendings graph).1 hsending'
      rw [hround] at hcount hcount'
      have hsorted := sortedPair_of_mem_directions graph (Sending.edge_mem hsending) harc
      rw [hsorted] at hpair hpair'
      refine hintents hcount hcount' _ hedge hedge' (hpair hround) (hpair' hround) _ ?_
      rcases mem_directions.1 harc with ⟨hu, -⟩ | ⟨hv, -⟩
      · rw [hu]
        exact mem_cons_self
      · rw [hv]
        exact mem_cons_of_mem _ mem_cons_self

end Two

/-- **Content addressing.**  Two runs on a graph return, and emit one message for each edge,
direction and round, with equal hashes for equal messages only, exactly when the conflicts of
both are given in order and their third rounds have the same intents. -/
theorem messages_addressed_iff (graph : AgentGraph stableHash) (input input' : RunInput)
    (hhash : TellsApart stableHash (contents graph input ++ contents graph input')) :
    ∃ messages messages', run graph input = .ok messages ∧ run graph input' = .ok messages' ∧
      (Emits graph input messages ∧ Emits graph input' messages' ∧ Addressed messages messages' ↔
        OrderedConflicts graph input ∧ OrderedConflicts graph input' ∧
          SameIntents graph input input') := by
  obtain ⟨messages, hrun, hperm⟩ := run_perm graph input
  obtain ⟨messages', hrun', hperm'⟩ := run_perm graph input'
  have hfirst : TellsApart stableHash (contents graph input) := fun first hmem second hmem' =>
    hhash first (mem_append_left _ hmem) second (mem_append_left _ hmem')
  have hsecond : TellsApart stableHash (contents graph input') := fun first hmem second hmem' =>
    hhash first (mem_append_right _ hmem) second (mem_append_right _ hmem')
  refine ⟨messages, messages', hrun, hrun', ?_⟩
  rw [emits_iff hperm hfirst, emits_iff hperm' hsecond, addressed_iff hperm hperm' hhash]

end Graph

/-! ## Two regions in conflict -/

/-- The fingerprint of the first intent of a content. -/
def firstFingerprint (entries : List (String × Value)) : String :=
  match entries.getLast? with
  | some (_, .array (.object summary :: _)) =>
    match summary.getLast? with
    | some (_, .string fingerprint) => fingerprint
    | _ => ""
  | _ => ""

/-- A hash that writes the round, the sender and a fingerprint. -/
def sampleHash : Value → String
  | .object ((_, .integer round) :: (_, .string sender) :: rest) =>
    (if round = 1 then "1" else if round = 2 then "2" else "3") ++ sender ++
      firstFingerprint rest
  | _ => ""

def sampleRegion : RegionState where
  editHaloDbu := ⟨0, 0, 14, 6, by decide⟩
  editableObjectIds := ["shape"]
  netIds := []
  netMappingQuality := "unavailable"
  occupiedTrackBins := []
  hasTimingContext := false

def sampleEdge : AgentEdge :=
  makeEdge sampleHash "a" "b" .geometry true [⟨"geo:a:b", "halo_overlap", []⟩] false

def sampleGraph : AgentGraph sampleHash where
  regions := [("a", sampleRegion), ("b", sampleRegion)]
  potentialAccessSummaries := []
  edges := [sampleEdge]
  endpoints := fun edge hedge => by
    rw [mem_singleton.1 hedge]
    decide +kernel
  ordered := fun edge hedge => by
    rw [mem_singleton.1 hedge]
    exact (makeEdge_spec sampleHash (by decide) (fun h => by cases h) _ _ _).1
  made := fun edge hedge => by
    rw [mem_singleton.1 hedge]
    exact (makeEdge_spec sampleHash (by decide) (fun h => by cases h) _ _ _).2
  distinct := nodup_singleton _

/-- An intent with a fingerprint. -/
def sampleIntent (fingerprint : String) : IntentSummary where
  actionFamily := "spacing"
  physicalIntent := []
  planId := none
  targetViolationIds := ["v1"]
  targetRelation := "AUTO"
  preferredParticipantIds := []
  preferredDofIds := []
  coordinationRequest := none
  targetObjectIds := ["shape"]
  footprintDbu := none
  fingerprint := fingerprint

/-- A run of so many rounds, with an intent of the first region. -/
def sampleInput (rounds : ℤ) (fingerprint : String) : RunInput where
  edgeIds := [sampleEdge.edgeId]
  rounds := rounds
  intentsByRegion := [("a", [sampleIntent fingerprint])]
  conflictRegionPairs := [("a", "b")]

/-- A hash tells contents apart if its digits differ on a larger list. -/
theorem tellsApart_of_nodup {stableHash : Value → String} (values : List Value)
    {contents : List Value} (hsub : contents ⊆ values)
    (hnodup : (values.map fun value => digits 20 (stableHash value)).Nodup) :
    TellsApart stableHash contents := fun _ hfirst _ hsecond h =>
  inj_on_of_nodup_map hnodup (hsub hfirst) (hsub hsecond) h

/-- The contents of a run with three rounds. -/
theorem contents_sampleInput (fingerprint : String) :
    contents sampleGraph (sampleInput 3 fingerprint) =
      [contentOf sampleGraph [] ⟨.facts, sampleEdge, "a", "b"⟩,
        contentOf sampleGraph [] ⟨.facts, sampleEdge, "b", "a"⟩,
        intentContent sampleEdge [sampleIntent fingerprint] "a" "b",
        contentOf sampleGraph [] ⟨.intents, sampleEdge, "b", "a"⟩,
        contentOf sampleGraph [] ⟨.coordination, sampleEdge, "a", "b"⟩,
        contentOf sampleGraph [] ⟨.coordination, sampleEdge, "b", "a"⟩] := by
  rfl

/-- The one edge of the sample is relevant. -/
theorem relevant_sampleInput (rounds : ℤ) (fingerprint : String) :
    relevant (sampleInput rounds fingerprint).edgeIds sampleGraph = [sampleEdge] :=
  filter_cons_of_pos (decide_eq_true (mem_singleton_self _))

/-- The conflicts of the sample are ordered. -/
theorem orderedConflicts_sampleInput (rounds : ℤ) (fingerprint : String) :
    OrderedConflicts sampleGraph (sampleInput rounds fingerprint) := by
  intro _ edge hedge hconflict
  rw [relevant_sampleInput, mem_singleton] at hedge
  have hends : sampleEdge.u = "a" ∧ sampleEdge.v = "b" := by decide +kernel
  rw [hedge, hends.1, hends.2] at hconflict
  have hpair : ("b", "a") ∈ [("a", "b")] := hconflict
  exact absurd hpair (by decide)

/-- Two runs of three rounds with the same intents; the second is asked for a fourth round. -/
theorem messages_addressed_sample : ∃ messages messages',
    run sampleGraph (sampleInput 3 "one") = .ok messages ∧
      run sampleGraph (sampleInput 4 "one") = .ok messages' ∧
      Emits sampleGraph (sampleInput 3 "one") messages ∧
      Emits sampleGraph (sampleInput 4 "one") messages' ∧ Addressed messages messages' := by
  have hsub : contents sampleGraph (sampleInput 4 "one") ⊆
      contents sampleGraph (sampleInput 3 "one") := by
    refine map_subset _ fun sending hsending => (mem_sendings sampleGraph).2 ?_
    obtain ⟨hcount, hedge, harc, hpair⟩ := (mem_sendings sampleGraph).1 hsending
    exact ⟨Int.le_trans hcount (by decide), hedge, harc, hpair⟩
  have hhash : TellsApart sampleHash (contents sampleGraph (sampleInput 3 "one") ++
      contents sampleGraph (sampleInput 4 "one")) := by
    refine tellsApart_of_nodup _ (append_subset.2 ⟨Subset.refl _, hsub⟩) ?_
    decide +kernel
  obtain ⟨messages, messages', hrun, hrun', hiff⟩ :=
    messages_addressed_iff sampleGraph (sampleInput 3 "one") (sampleInput 4 "one") hhash
  exact ⟨messages, messages', hrun, hrun', hiff.2 ⟨orderedConflicts_sampleInput 3 "one",
    orderedConflicts_sampleInput 4 "one", fun _ _ _ _ _ _ _ _ _ => rfl⟩⟩

/-- The intents of the first region differ, and the hashes of the third round do not. -/
theorem messages_shared_hash :
    TellsApart sampleHash (contents sampleGraph (sampleInput 3 "one") ++
        contents sampleGraph (sampleInput 3 "two")) ∧
      ∃ messages messages', run sampleGraph (sampleInput 3 "one") = .ok messages ∧
        run sampleGraph (sampleInput 3 "two") = .ok messages' ∧
        ¬ Addressed messages messages' := by
  have hhash : TellsApart sampleHash (contents sampleGraph (sampleInput 3 "one") ++
      contents sampleGraph (sampleInput 3 "two")) := by
    -- the second run adds one content
    refine tellsApart_of_nodup (intentContent sampleEdge [sampleIntent "two"] "a" "b" ::
      contents sampleGraph (sampleInput 3 "one")) ?_ (by decide +kernel)
    intro value hvalue
    rw [contents_sampleInput, contents_sampleInput] at hvalue
    rw [contents_sampleInput]
    simp only [cons_append, nil_append, mem_cons, not_mem_nil, or_false] at hvalue ⊢
    tauto
  obtain ⟨messages, hrun, hperm⟩ := run_perm sampleGraph (sampleInput 3 "one")
  obtain ⟨messages', hrun', hperm'⟩ := run_perm sampleGraph (sampleInput 3 "two")
  refine ⟨hhash, messages, messages', hrun, hrun', fun haddressed => ?_⟩
  have hedge : ∀ fingerprint : String,
      sampleEdge ∈ relevant (sampleInput 3 fingerprint).edgeIds sampleGraph := by
    intro fingerprint
    rw [relevant_sampleInput]
    exact mem_singleton_self _
  have hsame := (addressed_iff hperm hperm' hhash).1 haddressed (by decide) (by decide)
    sampleEdge (hedge "one") (hedge "two") (by decide +kernel) (by decide +kernel) "a"
    (by decide +kernel)
  have hfingerprints : [sampleIntent "one"] = [sampleIntent "two"] := hsame
  exact absurd (congrArg IntentSummary.fingerprint (cons.inj hfingerprints).1) (by decide)

end DRCAgent.Messages
