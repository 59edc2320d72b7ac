/-
# The payload of the planner

`_prompt_payload` (src/drc_agent/repair_kernel_integration/llm_planner.py), from the dumps of
the DOFs and the messages; its other parts are given. What several DOFs share is stored
under the hash of the value, as the constraints of the messages are, and then the whole
payload is pruned once more, with the values that have been hashed.

The ids are the hashes of what the payload has under them exactly if that pruning finds
nothing to do there (`payload_addresses_iff`).
-/
import DRCAgent.NeighborLoops

namespace DRCAgent.Planner

open CheckedStores (store Resolves foldlM_induction)
open Connectivity (Json PyError)
open Failures List

/-! ## The DOFs -/

def domainFields : List String := ["domain_min_dbu", "domain_max_dbu", "allowed_intervals"]

def bindingFields : List String :=
  ["scene_id", "participant_id", "source_object_ids", "locality_bbox", "coupling_group_id",
    "conflicts_with_dof_ids"]

/-- The capability of a DOF for which the context has none. -/
def pendingCapability : JsonDict :=
  [("status", .string "CONDITIONAL_PENDING_COMPILER_PREFLIGHT"), ("predicate_solved", .bool false),
    ("physical_verdict", .string "NOT_EVALUATED")]

/-- The part of a capability that is shown; it has no executable variable. -/
def sourceExecutability (capability : List (String × JsonDict)) (dofId : String) : Json :=
  .object (selectFields (pop "executable_variable_id"
    ((capability.lookup dofId).getD pendingCapability))
    ["status", "primitive", "failure_code", "variants", "rejection_codes", "required_checks",
      "predicate_solved", "physical_verdict"])

/-- `RepairDOF`, with its fields but for the id as they are dumped. -/
structure RepairDof where
  dofId : String
  fields : JsonDict

/-- The fields of a DOF that pass a test. -/
def RepairDof.select (dof : RepairDof) (test : String → Bool) : JsonDict :=
  dof.fields.filter fun entry => test entry.1

/-- The binding of a DOF. -/
def RepairDof.binding (dof : RepairDof) : Json := .object (dof.select (· ∈ bindingFields))

/-- The row of a DOF without its id, its domain and its binding. -/
def RepairDof.semantics (capability : List (String × JsonDict)) (dof : RepairDof) : Json :=
  .object (Dicts.insert "source_executability" (sourceExecutability capability dof.dofId)
    (dof.select fun key => key ∉ domainFields && key ∉ bindingFields))

section Payload

variable (texts : PromptTexts)

/-- The dictionaries of the DOFs. -/
structure DofState where
  rows : JsonDict := []
  templates : JsonDict := []
  bindings : JsonDict := []

/-- One DOF. -/
def compactDof (capability : List (String × JsonDict)) (state : DofState) (dof : RepairDof) :
    Except CompactionError DofState := do
  let binding := withoutEmpty dof.binding
  let bindingId := contentId texts "dof_binding_" binding
  let bindings ← store PyEq (.value "PROMPT_DOF_BINDING_HASH_COLLISION") bindingId binding
    state.bindings
  let template := withoutEmpty (dof.semantics capability)
  let templateId := contentId texts "dof_semantics_" template
  let templates ← store PyEq (.value "PROMPT_DOF_TEMPLATE_HASH_COLLISION") templateId template
    state.templates
  let value := withoutEmpty (.object ([("semantics_ref", .string templateId),
    ("binding_ref", .string bindingId)] ++ dof.select (· ∈ domainFields)))
  let rows ← store PyEq (.value "PROMPT_DOF_ID_COLLISION") dof.dofId value state.rows
  return { rows, templates, bindings }

/-! ## The payload -/

/-- The parts of the payload that other functions prepare. -/
structure PromptParts where
  hardConstraints : Json := .array []
  targetAdmission : Json := .object []
  region : Json := .object []
  violations : Json := .array []
  supportReports : Json := .array []
  scenes : Json := .array []
  repairBlueprint : Json := .object []
  evodrcInitialSkill : Json := .object []
  failureMemory : Json := .object []
  registry : Json := .object []
  participants : Json := .object []
  projections : Json := .object []

/-- `current_id_dictionary` -/
def idDictionary (parts : PromptParts) (dofs : DofState) (compaction : Compaction) : JsonDict :=
  [("participants", parts.participants), ("projections", parts.projections),
    ("dof_semantics", .object dofs.templates), ("dof_bindings", .object dofs.bindings),
    ("potential_physical_access", .object compaction.access),
    ("neighbor_facts", .object compaction.facts)]

/-- The payload before it is pruned. -/
def rawPayload (parts : PromptParts) (dofs : DofState) (compaction : Compaction) : JsonDict :=
  [("hard_constraints", parts.hardConstraints), ("target_admission", parts.targetAdmission),
    ("region", parts.region), ("violations", parts.violations),
    ("support_reports", parts.supportReports), ("scenes", parts.scenes),
    ("dofs", .object dofs.rows), ("neighbor_messages", .array (compaction.rows.map .object)),
    ("repair_blueprint", parts.repairBlueprint),
    ("evodrc_initial_skill", parts.evodrcInitialSkill), ("failure_memory", parts.failureMemory),
    ("plan_semantic_registry", parts.registry),
    ("current_id_dictionary", .object (idDictionary parts dofs compaction)),
    ("dictionary_contract", .string ("Resolve refs through current_id_dictionary. Only listed " ++
      "IDs are selectable; source preflight is not physical truth.")),
    ("payload_version", .string "p5-formal-registry-evodrc-skill-v1")]

/-- `_prompt_payload`. The registry is put back as it was before the pruning. -/
def promptPayload (capability : List (String × JsonDict)) (dofs : List RepairDof)
    (messages : List NeighborMessage) (parts : PromptParts) : Except CompactionError JsonDict := do
  let dofState ← dofs.foldlM (compactDof texts capability) {}
  let compaction ← compactNeighborMessages texts messages
  let payload := withoutEmptyEntries (rawPayload parts dofState compaction)
  return if parts.registry.truthy then
    Dicts.insert "plan_semantic_registry" parts.registry payload
  else payload

/-! ## Ids and what is stored under them -/

/-- The dictionaries of a payload that have ids of contents. -/
def payloadSemantics (payload : JsonDict) : JsonDict :=
  entriesUnder "dof_semantics" (entriesUnder "current_id_dictionary" payload)

def payloadBindings (payload : JsonDict) : JsonDict :=
  entriesUnder "dof_bindings" (entriesUnder "current_id_dictionary" payload)

def payloadConstraints (payload : JsonDict) : JsonDict :=
  entriesUnder "constraints"
    (entriesUnder "neighbor_facts" (entriesUnder "current_id_dictionary" payload))

/-- A value is stored under the id, and the id is its hash. -/
def AddressesContent (name : String) (dict : JsonDict) (id : String) : Prop :=
  ∃ value, dict.lookup id = some value ∧ id = contentId texts name value

/-- Every id of a content is the hash of what the payload has under it. -/
structure ContentAddressed (capability : List (String × JsonDict)) (dofs : List RepairDof)
    (messages : List NeighborMessage) (payload : JsonDict) : Prop where
  semantics : ∀ dof ∈ dofs, AddressesContent texts "dof_semantics_" (payloadSemantics payload)
    (contentId texts "dof_semantics_" (withoutEmpty (dof.semantics capability)))
  bindings : ∀ dof ∈ dofs, AddressesContent texts "dof_binding_" (payloadBindings payload)
    (contentId texts "dof_binding_" (withoutEmpty dof.binding))
  constraints : ∀ message ∈ messages, ∀ c ∈ message.constraints,
    AddressesContent texts "neighbor_constraint_" (payloadConstraints payload)
      (contentId texts "neighbor_constraint_" (hashedConstraint texts message c))

/-- Nothing of a value that has been pruned `n` times is dropped by another pruning, the
value itself included. -/
def StaysAfter (n : ℕ) (value : Json) : Prop := lifetime value = none ∧ Settled n value

/-- What is hashed is not pruned any more. -/
structure PrunedWhenHashed (capability : List (String × JsonDict)) (dofs : List RepairDof)
    (messages : List NeighborMessage) : Prop where
  semantics : ∀ dof ∈ dofs, StaysAfter 1 (dof.semantics capability)
  bindings : ∀ dof ∈ dofs, StaysAfter 1 dof.binding
  constraints : ∀ message ∈ messages, ∀ c ∈ message.constraints,
    StaysAfter 2 (sentConstraint texts message c)

/-- The shortened hash tells a value from what more prunings make of it. -/
def TellsPruned (value : Json) : Prop :=
  ∀ n, hashPrefix 16 (texts.stableHash (withoutEmpty^[n] value)) =
    hashPrefix 16 (texts.stableHash value) → withoutEmpty^[n] value = value

/-- No two values of a payload that are hashed collide. -/
structure HashTells (capability : List (String × JsonDict)) (dofs : List RepairDof)
    (messages : List NeighborMessage) : Prop where
  semantics : ∀ dof ∈ dofs, TellsPruned texts (withoutEmpty (dof.semantics capability))
  bindings : ∀ dof ∈ dofs, TellsPruned texts (withoutEmpty dof.binding)
  constraints : ∀ message ∈ messages, ∀ c ∈ message.constraints,
    TellsPruned texts (hashedConstraint texts message c)
  collision : ∀ message ∈ messages, ∀ c ∈ message.constraints, ∀ other ∈ messages,
    ∀ d ∈ other.constraints,
      texts.stableHash (hashedConstraint texts message c) =
        texts.stableHash (hashedConstraint texts other d) →
      PyEq (hashedConstraint texts message c) (hashedConstraint texts other d)

end Payload

/-! ## What a payload has after its pruning -/

section Pruned

variable {texts : PromptTexts} {parts : PromptParts} {state : DofState} {compaction : Compaction}

theorem entriesUnder_rawPayload :
    entriesUnder "current_id_dictionary" (rawPayload parts state compaction) =
      idDictionary parts state compaction := rfl

/-- The ids of the final payload. -/
theorem currentIds_promptPayload (registry : Json) :
    entriesUnder "current_id_dictionary" (if registry.truthy then
      Dicts.insert "plan_semantic_registry" registry
        (withoutEmptyEntries (rawPayload parts state compaction))
    else withoutEmptyEntries (rawPayload parts state compaction)) =
      withoutEmptyEntries (idDictionary parts state compaction) := by
  have hkeys : keys (rawPayload parts state compaction) = ["hard_constraints", "target_admission",
      "region", "violations", "support_reports", "scenes", "dofs", "neighbor_messages",
      "repair_blueprint", "evodrc_initial_skill", "failure_memory", "plan_semantic_registry",
      "current_id_dictionary", "dictionary_contract", "payload_version"] := rfl
  have hnodup : (keys (rawPayload parts state compaction)).Nodup := by
    rw [hkeys]
    decide
  have hpruned : entriesUnder "current_id_dictionary"
      (withoutEmptyEntries (rawPayload parts state compaction)) =
        withoutEmptyEntries (idDictionary parts state compaction) := by
    rw [entriesUnder_withoutEmptyEntries hnodup (by decide), entriesUnder_rawPayload]
  split_ifs
  · rw [← hpruned, entriesUnder, entriesUnder, Dicts.lookup_insert, if_neg (by decide)]
  · exact hpruned

theorem nodup_idDictionary : (keys (idDictionary parts state compaction)).Nodup := by
  have hkeys : keys (idDictionary parts state compaction) = ["participants", "projections",
      "dof_semantics", "dof_bindings", "potential_physical_access", "neighbor_facts"] := rfl
  rw [hkeys]
  decide

theorem payloadSemantics_eq (registry : Json) :
    payloadSemantics (if registry.truthy then Dicts.insert "plan_semantic_registry" registry
        (withoutEmptyEntries (rawPayload parts state compaction))
      else withoutEmptyEntries (rawPayload parts state compaction)) =
      withoutEmptyEntries state.templates := by
  rw [payloadSemantics, currentIds_promptPayload,
    entriesUnder_withoutEmptyEntries nodup_idDictionary (by decide)]
  rfl

theorem payloadBindings_eq (registry : Json) :
    payloadBindings (if registry.truthy then Dicts.insert "plan_semantic_registry" registry
        (withoutEmptyEntries (rawPayload parts state compaction))
      else withoutEmptyEntries (rawPayload parts state compaction)) =
      withoutEmptyEntries state.bindings := by
  rw [payloadBindings, currentIds_promptPayload,
    entriesUnder_withoutEmptyEntries nodup_idDictionary (by decide)]
  rfl

/-- The constraints are pruned with the facts of the messages, and again with the
payload. -/
theorem payloadConstraints_eq (registry : Json) {messages : List NeighborMessage}
    {dicts : Dictionaries} {groups : List (EnvelopeKey × Envelope)} {constraints : JsonDict}
    (hbuilt : Built texts messages dicts groups constraints compaction) :
    payloadConstraints (if registry.truthy then Dicts.insert "plan_semantic_registry" registry
        (withoutEmptyEntries (rawPayload parts state compaction))
      else withoutEmptyEntries (rawPayload parts state compaction)) =
      withoutEmptyEntries (withoutEmptyEntries constraints) := by
  have hfacts : entriesUnder "neighbor_facts" (idDictionary parts state compaction) =
      compaction.facts := rfl
  have hnodup : ∀ common : Json, (keys [("receiver_potential_access_ref", common),
      ("constraints", Json.object constraints),
      ("physical_dependency_evidence", .object dicts.physicalEvidence),
      ("identity_inventories", .object dicts.identityInventory)]).Nodup := by
    intro common
    simp only [keys, map_cons, map_nil]
    decide
  rw [payloadConstraints, currentIds_promptPayload,
    entriesUnder_withoutEmptyEntries nodup_idDictionary (by decide), hfacts, hbuilt.facts,
    entriesUnder_withoutEmptyEntries (nodup_withoutEmptyEntries (hnodup _)) (by decide),
    entriesUnder_withoutEmptyEntries (hnodup _) (by decide)]
  rfl

end Pruned

/-! ## The loop over the DOFs -/

section Dofs

variable {texts : PromptTexts} {capability : List (String × JsonDict)}

/-- The values of the DOFs that are done are stored, and nothing else is. -/
structure DofsStored (texts : PromptTexts) (name : String) (value : RepairDof → Json)
    (dofs : List RepairDof) (dict : JsonDict) : Prop where
  resolves : ∀ dof ∈ dofs, Resolves PyEq dict (contentId texts name (value dof)) (value dof)
  entries : ∀ entry ∈ dict, entry.1 = contentId texts name entry.2 ∧
    ∃ dof ∈ dofs, entry.2 = value dof
  nodup : (keys dict).Nodup

theorem DofsStored.next {name : String} {value : RepairDof → Json} {done : List RepairDof}
    {dof : RepairDof} {dict dict' : JsonDict} {clash : CompactionError}
    (h : DofsStored texts name value done dict)
    (hstore : store PyEq clash (contentId texts name (value dof)) (value dof) dict = .ok dict') :
    DofsStored texts name value (done ++ [dof]) dict' where
  resolves := by
    intro other hother
    rcases mem_append.1 hother with hold | hnew
    · exact (h.resolves other hold).store pyEq_equivalence hstore
    · exact mem_singleton.1 hnew ▸ CheckedStores.resolves_store pyEq_equivalence hstore
  entries := by
    intro entry hentry
    rcases CheckedStores.mem_of_store hstore hentry with hold | rfl
    · obtain ⟨hid, old, hmem, hvalue⟩ := h.entries entry hold
      exact ⟨hid, old, mem_append_left _ hmem, hvalue⟩
    · exact ⟨rfl, dof, mem_append_right _ (mem_singleton_self dof), rfl⟩
  nodup := CheckedStores.nodup_store h.nodup hstore

theorem dofLoop_spec {dofs : List RepairDof} {state : DofState}
    (h : dofs.foldlM (compactDof texts capability) {} = .ok state) :
    DofsStored texts "dof_semantics_" (fun dof => withoutEmpty (dof.semantics capability)) dofs
        state.templates ∧
      DofsStored texts "dof_binding_" (fun dof => withoutEmpty dof.binding) dofs
        state.bindings := by
  refine foldlM_induction (P := fun done now =>
    DofsStored texts "dof_semantics_" (fun dof => withoutEmpty (dof.semantics capability)) done
        now.templates ∧
      DofsStored texts "dof_binding_" (fun dof => withoutEmpty dof.binding) done
        now.bindings) ?_ ?_ h
  · rintro done dof now next ⟨htemplates, hbindings⟩ hnext
    obtain ⟨bindings, hbinding, hnext⟩ := bind_eq_ok.mp hnext
    obtain ⟨templates, htemplate, hnext⟩ := bind_eq_ok.mp hnext
    obtain ⟨rows, -, hnext⟩ := bind_eq_ok.mp hnext
    obtain rfl := Except.ok.inj hnext
    exact ⟨htemplates.next htemplate, hbindings.next hbinding⟩
  · exact ⟨⟨fun _ h => absurd h not_mem_nil, fun _ h => absurd h not_mem_nil,
      nodup_nil⟩, ⟨fun _ h => absurd h not_mem_nil,
      fun _ h => absurd h not_mem_nil, nodup_nil⟩⟩

end Dofs

/-! ## Ids that are hashes -/

section Addresses

variable {texts : PromptTexts}

/-- What stays after `n + 1` prunings is then left as it is, and does not go. -/
theorem staysAfter_succ_iff (n : ℕ) (value : Json) :
    StaysAfter (n + 1) value ↔
      withoutEmpty (withoutEmpty^[n + 1] value) = withoutEmpty^[n + 1] value ∧
        lifetime (withoutEmpty^[n + 1] value) ≠ some 0 := by
  rw [StaysAfter, ← iterate_withoutEmpty_eq_iff, ← lifetime_iterate_eq_none_iff (n + 1)]
  constructor
  · rintro ⟨hnone, hfix⟩
    exact ⟨hfix, by rw [hnone]; exact nofun⟩
  · rintro ⟨hfix, hpresent⟩
    exact ⟨lifetime_eq_none_of_stays hfix hpresent, hfix⟩

/-- **An id that is the hash of its value** after `n + 1` more prunings: the value stays. -/
theorem HashKeyed.addresses_iff {name : String} {dict : JsonDict} (h : HashKeyed texts name dict)
    {id : String} {value stored : Json} (hstored : dict.lookup id = some stored)
    (hsame : PyEq stored value) (n : ℕ) (htells : TellsPruned texts stored)
    (hback : withoutEmpty^[n + 1] stored = stored → withoutEmpty stored = stored) :
    AddressesContent texts name (withoutEmptyEntries^[n + 1] dict) id ↔
      withoutEmpty value = value ∧ lifetime value ≠ some 0 := by
  obtain ⟨hid, hname⟩ := h.of_lookup hstored
  rw [← hsame.eq_self_iff, ne_eq, ← hsame.lifetime_eq_zero_iff]
  constructor
  · rintro ⟨found, hfound, haddress⟩
    obtain ⟨old, hold, rfl, hpresent⟩ := of_lookup_iterate h.nodup hfound
    obtain rfl := Option.some.inj (hstored.symm.trans hold)
    have hhash := contentId_inj (haddress.symm.trans hid)
    exact ⟨hback (htells (n + 1) hhash), hpresent⟩
  · rintro ⟨hfix, hpresent⟩
    have hfound := lookup_iterate_of_lifetime h.nodup hname hstored
      (lifetime_eq_none_of_stays hfix hpresent) (n + 1)
    rw [Function.iterate_fixed hfix] at hfound
    exact ⟨stored, hfound, hid⟩

end Addresses

/-! ## The ids of a payload -/

section Main

variable {texts : PromptTexts} {capability : List (String × JsonDict)} {dofs : List RepairDof}
  {messages : List NeighborMessage} {parts : PromptParts} {payload : JsonDict}

/-- The DOFs' values of one kind, after the payload has been pruned. -/
theorem DofsStored.addresses_iff {name : String} {value : RepairDof → Json} {dict : JsonDict}
    (h : DofsStored texts name (fun dof => withoutEmpty (value dof)) dofs dict)
    (hname : ∃ first rest, name.toList = first :: rest ∧ first ≠ 's')
    (htells : ∀ dof ∈ dofs, TellsPruned texts (withoutEmpty (value dof))) {dof : RepairDof}
    (hdof : dof ∈ dofs) :
    AddressesContent texts name (withoutEmptyEntries dict)
      (contentId texts name (withoutEmpty (value dof))) ↔ StaysAfter 1 (value dof) := by
  have hkeyed : HashKeyed texts name dict := by
    refine ⟨fun entry hentry => (h.entries entry hentry).1, fun entry hentry => ?_, h.nodup⟩
    rw [(h.entries entry hentry).1]
    exact append_ne_schemaVersion hname
  obtain ⟨stored, hstored, hsame⟩ := h.resolves dof hdof
  have htellsStored : TellsPruned texts stored := by
    obtain ⟨-, other, hother, rfl⟩ := h.entries _ (Dicts.mem_of_lookup hstored)
    exact htells other hother
  rw [staysAfter_succ_iff 0]
  exact hkeyed.addresses_iff hstored hsame 0 htellsStored id

/-- The constraints of the messages, after the facts and the payload have been pruned. -/
theorem Built.addresses_iff {dicts : Dictionaries} {groups : List (EnvelopeKey × Envelope)}
    {constraints : JsonDict} {result : Compaction}
    (h : Built texts messages dicts groups constraints result)
    (htells : HashTells texts capability dofs messages) {message : NeighborMessage}
    (hmessage : message ∈ messages) {c : StructuredConstraint} (hc : c ∈ message.constraints) :
    AddressesContent texts "neighbor_constraint_"
        (withoutEmptyEntries (withoutEmptyEntries constraints))
        (contentId texts "neighbor_constraint_" (hashedConstraint texts message c)) ↔
      StaysAfter 2 (sentConstraint texts message c) := by
  obtain ⟨group, hgroup, hkey⟩ := mem_map.1 ((h.mem_groups _).2 ⟨message, hmessage, rfl⟩)
  have hmem := (h.mem_constraints hgroup).2 ⟨message, hmessage, hkey.symm, c, hc, rfl⟩
  -- the constraint itself may have given way to one with its hash
  obtain ⟨other, hother, hhash⟩ := exists_unique_of_mem hmem
  obtain ⟨sender, hsender, -, d, hd, rfl⟩ := (h.mem_constraints hgroup).1 (mem_unique hother)
  have hsame := htells.collision sender hsender d hd message hmessage c hc hhash
  obtain ⟨stored, hstored, hstoredSame⟩ := h.resolves group hgroup _ hother
  have hid : constraintId texts (hashedConstraint texts sender d) =
      contentId texts "neighbor_constraint_" (hashedConstraint texts message c) :=
    congrArg (fun hash => "neighbor_constraint_" ++ hashPrefix 16 hash) hhash
  rw [hid] at hstored
  have htellsStored : TellsPruned texts stored := by
    obtain ⟨-, owner, howner, hlists⟩ := h.constraintIds _ (Dicts.mem_of_lookup hstored)
    obtain ⟨writer, hwriter, -, e, he, rfl⟩ := (h.mem_constraints howner).1 hlists
    exact htells.constraints writer hwriter e he
  rw [staysAfter_succ_iff 1]
  exact h.hashKeyed.addresses_iff hstored (hstoredSame.trans hsame) 1 htellsStored
    withoutEmpty_eq_self_of_twice

/-- **Pruning and ids.**  A value is pruned for good the first time exactly if no entry that
is left consists of empty entries; and the ids of a payload are the hashes of what it has
under them exactly if nothing of what is hashed is pruned afterwards. -/
theorem payload_addresses_iff (htells : HashTells texts capability dofs messages)
    (h : promptPayload texts capability dofs messages parts = .ok payload) :
    (∀ value, withoutEmpty (withoutEmpty value) = withoutEmpty value ↔ Settled 1 value) ∧
      (ContentAddressed texts capability dofs messages payload ↔
        PrunedWhenHashed texts capability dofs messages) := by
  refine ⟨withoutEmpty_idem_iff, ?_⟩
  obtain ⟨state, hdofs, h⟩ := bind_eq_ok.mp h
  obtain ⟨compaction, hcompaction, h⟩ := bind_eq_ok.mp h
  obtain rfl := Except.ok.inj h
  obtain ⟨dicts, groups, constraints, hbuilt⟩ := compactNeighborMessages_built hcompaction
  obtain ⟨htemplates, hbindings⟩ := dofLoop_spec hdofs
  have hsemantics : ∀ dof ∈ dofs, _ := fun dof hdof => htemplates.addresses_iff
    ⟨'d', _, rfl, by decide⟩ htells.semantics hdof
  have hbinding : ∀ dof ∈ dofs, _ := fun dof hdof => hbindings.addresses_iff
    ⟨'d', _, rfl, by decide⟩ htells.bindings hdof
  have hconstraint : ∀ message ∈ messages, ∀ c ∈ message.constraints, _ :=
    fun message hmessage c hc => hbuilt.addresses_iff htells hmessage hc
  constructor
  · rintro ⟨hs, hb, hc⟩
    rw [payloadSemantics_eq] at hs
    rw [payloadBindings_eq] at hb
    rw [payloadConstraints_eq _ hbuilt] at hc
    exact ⟨fun dof hdof => (hsemantics dof hdof).1 (hs dof hdof),
      fun dof hdof => (hbinding dof hdof).1 (hb dof hdof),
      fun message hmessage c hm => (hconstraint message hmessage c hm).1 (hc message hmessage c hm)⟩
  · rintro ⟨hs, hb, hc⟩
    refine ⟨?_, ?_, ?_⟩
    · rw [payloadSemantics_eq]
      exact fun dof hdof => (hsemantics dof hdof).2 (hs dof hdof)
    · rw [payloadBindings_eq]
      exact fun dof hdof => (hbinding dof hdof).2 (hb dof hdof)
    · rw [payloadConstraints_eq _ hbuilt]
      exact fun message hmessage c hm =>
        (hconstraint message hmessage c hm).2 (hc message hmessage c hm)

end Main

/-! ## A payload with a stale id -/

def sampleDof : RepairDof where
  dofId := "dof_1"
  fields :=
    [("schema_version", .string "1.0"), ("scene_id", .string "scene_1"),
      ("participant_id", .string "p1"), ("source_object_ids", strings ["o1"]),
      ("dof_type", .string "SHIFT_BOUNDARY_EDGE"), ("axis", .string "X"), ("edge", .null),
      ("domain_min_dbu", .number 0), ("domain_max_dbu", .number 8),
      ("manufacturing_grid_dbu", .number 4)]

/-- The template of the sample, with the given capability. -/
def sampleTemplate (capability : JsonDict) : Json :=
  .object [("dof_type", .string "SHIFT_BOUNDARY_EDGE"), ("axis", .string "X"),
    ("manufacturing_grid_dbu", .number 4), ("source_executability", .object capability)]

def sampleBinding : Json :=
  .object [("scene_id", .string "scene_1"), ("participant_id", .string "p1"),
    ("source_object_ids", strings ["o1"])]

def passed : String × Json := ("status", .string "SOURCE_PREFLIGHT_PASS")

/-- The required checks are a dictionary with nothing in it but a `None`. -/
def hollowCapability : List (String × JsonDict) :=
  [("dof_1", [passed, ("required_checks", .object [("open", .null)])])]

def sampleConstraintDict : JsonDict :=
  [("relation", .string "resource"), ("kind", .string "resource_geometry_proxy_constraint"),
    ("hard", .bool true), ("source", .string "geometry_proxy")]

def sampleTexts : PromptTexts :=
  tableTexts
    [(sampleBinding, "b4c6c007df12372dd00a9ff329a3cabe612f1c34896c84cc1f7d5e96058c0ab6"),
      (sampleTemplate [passed, ("required_checks", .object [])],
        "340e9c4b552a635affa2c9f53516c186663caa2a37c866f6c290da10ce6445f2"),
      (sampleTemplate [passed], "cfa9322d23b5a33295197282e625eefbb3ca728a59c9475140a9255ec788e02f"),
      (.object sampleConstraintDict,
        "b333d9813316355d7e9d0ed620479a586605c8ed7811dbd85dcc28984c878e83"),
      (.string "resource", "c1ea5ae2bd12c8a5ed8f2cbb79c680a3771cf2b71ac5d138eb21f8d9f116138e"),
      (.string "e1", "0e7683d757ca8c3c9dd2ce1cb3354a8f3ea2a826584f7d24a403b186bbb56eb7")]

/-- The checks are hashed as `{}` and then dropped: pruning twice is not pruning once, and
the id of the template is not the hash of the template in the payload. -/
theorem payload_address_stale :
    withoutEmpty (withoutEmpty (sampleDof.semantics hollowCapability)) ≠
        withoutEmpty (sampleDof.semantics hollowCapability) ∧
      ∃ payload, promptPayload sampleTexts hollowCapability [sampleDof] [] {} = .ok payload ∧
        ¬ ContentAddressed sampleTexts hollowCapability [sampleDof] [] payload := by
  refine ⟨by decide, _, rfl, fun h => ?_⟩
  obtain ⟨value, hvalue, hid⟩ := h.semantics sampleDof mem_cons_self
  have hfound : some value = some (sampleTemplate [passed]) := hvalue.symm
  obtain rfl := Option.some.inj hfound
  revert hid
  decide

def sampleMessage : NeighborMessage where
  messageId := "msg_1"
  round := 1
  senderRegionId := "R2"
  receiverRegionId := "R1"
  relation := "resource"
  evidenceIds := ["e1"]
  constraints := [⟨"resource_geometry_proxy_constraint",
    [("hard", .bool true), ("source", .string "geometry_proxy")], by decide⟩]
  proposedIntents := []
  resourceClaims := []
  timingClaims := []
  requestedResponse := ["FACT_ACK"]

def plainCapability : List (String × JsonDict) := [("dof_1", [passed])]

theorem tellsPruned_of_fixed {texts : PromptTexts} {value : Json}
    (h : withoutEmpty value = value) : TellsPruned texts value :=
  fun n _ => Function.iterate_fixed h n

theorem hashTells_sample : HashTells sampleTexts plainCapability [sampleDof] [sampleMessage] where
  semantics := by
    intro dof hdof
    obtain rfl := mem_singleton.1 hdof
    exact tellsPruned_of_fixed (by decide)
  bindings := by
    intro dof hdof
    obtain rfl := mem_singleton.1 hdof
    exact tellsPruned_of_fixed (by decide)
  constraints := by
    intro message hmessage c hc
    obtain rfl := mem_singleton.1 hmessage
    obtain rfl := mem_singleton.1 hc
    exact tellsPruned_of_fixed (by decide)
  collision := by
    intro message hmessage c hc other hother d hd _
    obtain rfl := mem_singleton.1 hmessage
    obtain rfl := mem_singleton.1 hc
    obtain rfl := mem_singleton.1 hother
    obtain rfl := mem_singleton.1 hd
    rfl

theorem prunedWhenHashed_sample :
    PrunedWhenHashed sampleTexts plainCapability [sampleDof] [sampleMessage] where
  semantics := by
    intro dof hdof
    obtain rfl := mem_singleton.1 hdof
    exact (staysAfter_succ_iff 0 _).2 ⟨by decide, by decide⟩
  bindings := by
    intro dof hdof
    obtain rfl := mem_singleton.1 hdof
    exact (staysAfter_succ_iff 0 _).2 ⟨by decide, by decide⟩
  constraints := by
    intro message hmessage c hc
    obtain rfl := mem_singleton.1 hmessage
    obtain rfl := mem_singleton.1 hc
    exact (staysAfter_succ_iff 1 _).2 ⟨by decide, by decide⟩

theorem payload_addresses_sample :
    ∃ payload, promptPayload sampleTexts plainCapability [sampleDof] [sampleMessage] {} =
        .ok payload ∧
      ContentAddressed sampleTexts plainCapability [sampleDof] [sampleMessage] payload :=
  ⟨_, rfl, (payload_addresses_iff hashTells_sample rfl).2.2 prunedWhenHashed_sample⟩

end DRCAgent.Planner
