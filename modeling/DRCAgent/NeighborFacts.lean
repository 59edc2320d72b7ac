/-
# What the compacted messages still say

The envelopes of `_compact_neighbor_messages` with their references looked up. Each neighbour
has one envelope for each round, and what it says is what the messages of that neighbour in
that round say, up to what pruning drops (`compaction_keeps_facts`).

Parameters may have any name. Some names are written by the compaction itself, some are
dropped by the pruning, and a message with such a parameter loses it
(`compaction_loses_facts`).
-/
import DRCAgent.NeighborLoops

namespace DRCAgent.Planner

open List
open CheckedStores (Resolves)
open Connectivity (Json PyError)

/-! ## Reading an envelope -/

/-- The list under a key. -/
def listUnder (key : String) (dict : JsonDict) : List Json :=
  match dict.lookup key with
  | some (.array items) => items
  | _ => []

/-- The round and the neighbour of an envelope. -/
def rowKey (row : JsonDict) : EnvelopeKey where
  round := match row.lookup "round" with
    | some (.number round) => round.num
    | _ => 0
  neighborRegionId := ((row.lookup "neighbor_region_id").bind Json.textOf).getD ""

/-- The constraint that a reference of an envelope leads to. -/
def constraintAt (result : Compaction) (id : String) : Option JsonDict :=
  match (entriesUnder "constraints" result.facts).lookup id with
  | some (.object constraint) => some constraint
  | _ => none

/-- An envelope refers to the constraint. -/
def RefersTo (result : Compaction) (row : JsonDict) (constraint : JsonDict) : Prop :=
  ∃ id, .string id ∈ listUnder "constraint_refs" row ∧ constraintAt result id = some constraint

section Facts

variable (texts : PromptTexts)

/-- What a constraint of an envelope has of a constraint of a message. -/
structure KeepsConstraint (constraint : StructuredConstraint) (sent : JsonDict) : Prop where
  kind : sent.lookup "kind" = some (.string constraint.kind)
  parameter : ∀ key value, constraint.parameters.lookup key = some value →
    ¬ Replaced texts constraint.parameters key → lifetime value = none →
      ∃ item, sent.lookup key = some item ∧ PyEq item (withoutEmpty^[3] value)
  evidence : listUnder "physical_dependency_evidence_refs" sent =
    (evidenceRefs texts constraint.parameters).map .string
  inventory : ∀ field ∈ inventoryFields, sent.lookup (field ++ "_inventory_ref") =
    if inventoried texts constraint.parameters field = true then
      some (.string (inventoryRef texts constraint.parameters field))
    else none
  only : ∀ key item, sent.lookup key = some item → key ∉ "relation" :: "kind" :: writtenNames →
    ∃ value, constraint.parameters.lookup key = some value ∧
      ¬ Replaced texts constraint.parameters key ∧ PyEq item (withoutEmpty^[3] value)

/-- Two lists say the same: the second is the first, pruned twice and without repetitions. -/
structure SaysTheSame (originals emitted : List Json) : Prop where
  complete : ∀ a ∈ originals, ∃ b ∈ emitted, PyEq b (withoutEmpty (withoutEmpty a))
  sound : ∀ b ∈ emitted, ∃ a ∈ originals, PyEq b (withoutEmpty (withoutEmpty a))

/-- Every reference of an envelope leads to an entry. -/
structure ReferencesResolve (result : Compaction) (row : JsonDict) : Prop where
  constraint : ∀ id, .string id ∈ listUnder "constraint_refs" row →
    (constraintAt result id).isSome
  access : ∀ field value, row.lookup (RefField.name field) = some value →
    ∀ id ∈ idsOf field value, id ∈ keys result.access
  evidence : ∀ sent, RefersTo result row sent →
    ∀ id, .string id ∈ listUnder "physical_dependency_evidence_refs" sent →
      id ∈ keys (entriesUnder "physical_dependency_evidence" result.facts)
  inventory : ∀ sent, RefersTo result row sent → ∀ field ∈ inventoryFields,
    ∀ id, sent.lookup (field ++ "_inventory_ref") = some (.string id) →
      id ∈ keys (entriesUnder "identity_inventories" result.facts)

/-- What an envelope says is what the messages say. -/
structure CarriesFacts (result : Compaction) (row : JsonDict)
    (messages : List NeighborMessage) : Prop where
  relations : ∀ relation, .string relation ∈ listUnder "relations" row ↔
    ∃ message ∈ messages, message.relation = relation
  evidence : ∀ id, (.string id ∈ listUnder "evidence_ids" row ∨ ∃ sent, RefersTo result row sent ∧
      .string id ∈ listUnder "physical_dependency_evidence_refs" sent) ↔
    ∃ message ∈ messages, id ∈ message.evidenceIds ∨ id ∈ physicalRefs texts message
  intents : SaysTheSame (messages.flatMap (·.proposedIntents)) (listUnder "proposed_intents" row)
  resources : SaysTheSame (messages.flatMap (·.resourceClaims)) (listUnder "resource_claims" row)
  timings : SaysTheSame (messages.flatMap (·.timingClaims)) (listUnder "timing_claims" row)
  constraints : ∀ message ∈ messages, ∀ c ∈ message.constraints,
    ∃ sent, RefersTo result row sent ∧ KeepsConstraint texts c sent
  onlyConstraints : ∀ sent, RefersTo result row sent →
    ∃ message ∈ messages, ∃ c ∈ message.constraints, KeepsConstraint texts c sent

/-- A constraint with no parameter that the compaction writes or drops by its name, and
with evidence that has something in it. -/
structure StructuredConstraint.Plain (constraint : StructuredConstraint) : Prop where
  names : ∀ key ∈ keys constraint.parameters,
    key ∉ "relation" :: "kind" :: "schema_version" :: writtenNames
  evidence : ∀ item ∈ evidenceItems constraint.parameters,
    evidenceId texts item ≠ "schema_version" ∧ ∀ entries, item = .object entries →
      ∃ entry ∈ entries, entry.1 ≠ "evidence_id" ∧ kept entry.1 entry.2 = true

/-- No two values that are compared by their hashes collide. -/
def NoCollision (messages : List NeighborMessage) : Prop :=
  ∀ field, ∀ message ∈ messages, ∀ a ∈ sentLists texts message field, ∀ other ∈ messages,
    ∀ b ∈ sentLists texts other field, texts.stableHash a = texts.stableHash b → PyEq a b

end Facts

/-! ## The fields of an envelope -/

section Rows

variable {texts : PromptTexts} {key : EnvelopeKey} {envelope : Envelope}

/-- An envelope before it is pruned. -/
def rawEnvelope (texts : PromptTexts) (key : EnvelopeKey) (envelope : Envelope) : JsonDict :=
  [("round", .number key.round), ("neighbor_region_id", .string key.neighborRegionId)] ++
    [.relations, .evidenceIds, .proposedIntents, .resourceClaims, .timingClaims,
      .requestedResponse].map (listEntry texts envelope) ++
    RefField.all.filterMap (fun field =>
      (envelope.refs field).map fun value => (field.name, value)) ++
    [("constraint_refs", strings ((unique texts (envelope.lists .constraints)).map
      (constraintId texts)))]

theorem envelopeDict_eq :
    envelopeDict texts key envelope = withoutEmptyEntries (rawEnvelope texts key envelope) := rfl

theorem refNames_sublist (fields : List RefField) :
    (keys (fields.filterMap fun field =>
      (envelope.refs field).map fun value => (field.name, value))).Sublist
        (fields.map RefField.name) := by
  induction fields with
  | nil => exact Sublist.refl _
  | cons field rest ih =>
    rw [filterMap_cons, map_cons]
    cases envelope.refs field with
    | none => exact ih.cons _
    | some value => exact ih.cons_cons _

theorem nodup_rawEnvelope : (keys (rawEnvelope texts key envelope)).Nodup := by
  have hall : (["round", "neighbor_region_id", "relations", "evidence_ids", "proposed_intents",
      "resource_claims", "timing_claims", "requested_response"] ++ RefField.all.map RefField.name ++
      ["constraint_refs"]).Nodup := by decide
  refine hall.sublist ?_
  rw [rawEnvelope, keys, map_append, map_append]
  exact ((Sublist.refl _).append (refNames_sublist RefField.all)).append (Sublist.refl _)

/-- The fields of an envelope, pruned. -/
theorem lookup_envelopeDict {name : String} {value : Json}
    (h : (name, value) ∈ rawEnvelope texts key envelope) :
    (envelopeDict texts key envelope).lookup name =
      if kept name value then some (withoutEmpty value) else none := by
  rw [envelopeDict_eq, lookup_withoutEmptyEntries nodup_rawEnvelope,
    Dicts.lookup_of_mem nodup_rawEnvelope h, Option.filter]
  split_ifs <;> rfl

/-- A list of an envelope; one that is dropped counts as empty. -/
theorem listUnder_envelopeDict {name : String} {items : List Json}
    (hname : name ≠ "schema_version")
    (h : (name, .array items) ∈ rawEnvelope texts key envelope) :
    listUnder name (envelopeDict texts key envelope) = items.map withoutEmpty := by
  rw [listUnder, lookup_envelopeDict h]
  cases items with
  | nil => simp [kept, absent]
  | cons item rest => simp [kept, absent, hname, withoutEmpty_array]

theorem listUnder_field {field : ListField} (hfield : field ≠ .constraints) :
    listUnder field.name (envelopeDict texts key envelope) =
      (unique texts (envelope.lists field)).map withoutEmpty := by
  refine listUnder_envelopeDict (by cases field <;> decide) ?_
  have hmem : listEntry texts envelope field ∈ [ListField.relations, .evidenceIds,
      .proposedIntents, .resourceClaims, .timingClaims, .requestedResponse].map
        (listEntry texts envelope) := by
    refine mem_map_of_mem ?_
    cases field <;> simp at hfield ⊢
  rw [rawEnvelope]
  exact mem_append_left _ (mem_append_left _ (mem_append_right _ hmem))

theorem listUnder_constraintRefs :
    listUnder "constraint_refs" (envelopeDict texts key envelope) =
      (unique texts (envelope.lists .constraints)).map fun c => .string (constraintId texts c) := by
  have hmem : ("constraint_refs", strings ((unique texts (envelope.lists .constraints)).map
      (constraintId texts))) ∈ rawEnvelope texts key envelope :=
    mem_append_right _ (mem_singleton_self _)
  rw [listUnder_envelopeDict (by decide) hmem, map_map, map_map]
  rfl

theorem rowKey_envelopeDict : rowKey (envelopeDict texts key envelope) = key := by
  have hround : ("round", .number key.round) ∈ rawEnvelope texts key envelope :=
    mem_append_left _ (mem_append_left _ (mem_append_left _ (by simp)))
  have hneighbor : ("neighbor_region_id", .string key.neighborRegionId) ∈
      rawEnvelope texts key envelope :=
    mem_append_left _ (mem_append_left _ (mem_append_left _ (by simp)))
  rw [rowKey, lookup_envelopeDict hround, lookup_envelopeDict hneighbor]
  simp [kept, absent, withoutEmpty, Json.textOf]

theorem refName_injective : Function.Injective RefField.name := by
  intro a b h
  cases a <;> cases b <;> first | rfl | exact absurd h (by decide)

/-- What the rows of an envelope agree on is in it as it is, pruned. -/
theorem of_lookup_refField {field : RefField} {value : Json}
    (h : (envelopeDict texts key envelope).lookup field.name = some value) :
    ∃ old, envelope.refs field = some old ∧ value = withoutEmpty old := by
  rw [envelopeDict_eq] at h
  obtain ⟨old, hmem, -, hvalue⟩ := mem_withoutEmptyEntries.1 (Dicts.mem_of_lookup h)
  refine ⟨old, ?_, hvalue.symm⟩
  rw [rawEnvelope, mem_append, mem_append, mem_append] at hmem
  rcases hmem with ((hmem | hmem) | hmem) | hmem
  · cases field <;> simp [RefField.name] at hmem
  · cases field <;> simp [RefField.name, listEntry, ListField.name] at hmem
  · obtain ⟨other, -, hother⟩ := mem_filterMap.1 hmem
    obtain ⟨found, hfound, heq⟩ := Option.map_eq_some_iff.1 hother
    obtain ⟨hname, rfl⟩ := Prod.mk.inj heq
    exact refName_injective hname ▸ hfound
  · cases field <;> simp [RefField.name] at hmem

/-! ## The reference that all envelopes share -/

theorem lookup_hoistReceiverRef {common : Option String} {row : JsonDict} {name : String}
    (hname : name ≠ "receiver_potential_access_ref") :
    (hoistReceiverRef common row).lookup name = row.lookup name := by
  rw [hoistReceiverRef]
  split_ifs
  · rw [lookup_pop, if_neg hname]
  · rfl

theorem of_lookup_hoistReceiverRef {common : Option String} {row : JsonDict} {name : String}
    {value : Json} (h : (hoistReceiverRef common row).lookup name = some value) :
    row.lookup name = some value := by
  rw [hoistReceiverRef] at h
  split_ifs at h
  · rw [lookup_pop] at h
    split_ifs at h
    exact h
  · exact h

/-- The shared reference is one of the envelopes'. -/
theorem of_commonReceiverRef {rows : List JsonDict} {id : String}
    (h : commonReceiverRef rows = some id) :
    ∃ row ∈ rows, row.lookup "receiver_potential_access_ref" = some (.string id) := by
  rw [commonReceiverRef] at h
  split at h
  · rename_i ref heq
    obtain rfl := Option.some.inj h
    have hmem : ref ∈ (rows.filterMap receiverRefOf).dedup := heq ▸ mem_singleton_self ref
    obtain ⟨row, hrow, href⟩ := mem_filterMap.1 (mem_dedup.1 hmem)
    refine ⟨row, hrow, ?_⟩
    rw [receiverRefOf] at href
    split at href
    · rename_i text heq
      split_ifs at href
      rw [heq, Option.some.inj href]
    · cases href
  · cases h

end Rows

/-! ## A constraint as it is sent -/

section Constraints

variable {texts : PromptTexts} {message : NeighborMessage} {constraint : StructuredConstraint}

theorem lookup_foldl_insert {parameters : JsonDict} (hnodup : (keys parameters).Nodup)
    (base : JsonDict) (key : String) :
    (parameters.foldl (fun dict entry => Dicts.insert entry.1 entry.2 dict) base).lookup key =
      (parameters.lookup key).or (base.lookup key) := by
  induction parameters generalizing base with
  | nil => rfl
  | cons entry rest ih =>
    obtain ⟨hnotMem, hrest⟩ := nodup_cons.1 hnodup
    rw [foldl_cons, ih hrest, Dicts.lookup_insert, lookup_cons]
    by_cases hkey : key = entry.1
    · have hnone : rest.lookup key = none := by
        rw [lookup_eq_none_iff]
        intro other hother
        have hmem : other.1 ∈ keys rest := mem_map_of_mem hother
        have hne : key ≠ other.1 := by
          intro h
          apply hnotMem
          show entry.1 ∈ keys rest
          rw [← hkey, h]
          exact hmem
        simpa using hne
      simp [hkey, hkey ▸ hnone]
    · have hbeq : (key == entry.1) = false := beq_eq_false_iff_ne.2 hkey
      rw [if_neg hkey, hbeq]

theorem nodup_foldl_insert {parameters base : JsonDict} (hnodup : (keys base).Nodup) :
    (keys (parameters.foldl (fun dict entry => Dicts.insert entry.1 entry.2 dict) base)).Nodup := by
  induction parameters generalizing base with
  | nil => exact hnodup
  | cons entry rest ih => exact ih (Dicts.nodup_keys_insert hnodup)

/-- The entries of a constraint as it is sent. -/
def sentEntries (texts : PromptTexts) (message : NeighborMessage)
    (constraint : StructuredConstraint) : JsonDict :=
  (sentParameters texts constraint.parameters).foldl
    (fun dict entry => Dicts.insert entry.1 entry.2 dict)
    [("relation", .string message.relation), ("kind", .string constraint.kind)]

theorem sentConstraint_eq :
    sentConstraint texts message constraint = .object (sentEntries texts message constraint) := rfl

theorem nodup_sentEntries : (keys (sentEntries texts message constraint)).Nodup :=
  nodup_foldl_insert (by simp [keys])

theorem lookup_sentEntries (key : String) :
    (sentEntries texts message constraint).lookup key =
      ((sentParameters texts constraint.parameters).lookup key).or
        (List.lookup key [("relation", .string message.relation),
          ("kind", .string constraint.kind)]) :=
  lookup_foldl_insert (nodup_sentParameters constraint.nodup) _ key

theorem iterate_withoutEmpty_object (n : ℕ) (entries : JsonDict) :
    withoutEmpty^[n] (.object entries) = .object (withoutEmptyEntries^[n] entries) := by
  induction n generalizing entries with
  | zero => rfl
  | succ n ih => rw [Function.iterate_succ_apply, Function.iterate_succ_apply, withoutEmpty, ih]

/-! ## Equal dictionaries -/

theorem comparableEntries_perm {a b : JsonDict} (h : PyEq (.object a) (.object b)) :
    (comparableEntries a).Perm (comparableEntries b) := by
  rw [PyEq, comparable, comparable, Json.object.injEq] at h
  exact ((perm_insertionSort keyLe _).symm.trans (Perm.of_eq h)).trans (perm_insertionSort keyLe _)

theorem keys_comparableEntries (entries : JsonDict) :
    keys (comparableEntries entries) = keys entries := by
  rw [comparableEntries_eq, keys, map_map]
  rfl

theorem PyEq.nodup_keys {a b : JsonDict} (h : PyEq (.object a) (.object b))
    (hnodup : (keys b).Nodup) : (keys a).Nodup := by
  rw [← keys_comparableEntries] at hnodup ⊢
  exact (((comparableEntries_perm h).map _).nodup_iff).2 hnodup

/-- What is under a key of equal dictionaries is equal. -/
theorem PyEq.lookup {a b : JsonDict} (h : PyEq (.object a) (.object b)) (hnodup : (keys b).Nodup)
    {key : String} {value : Json} (hvalue : a.lookup key = some value) :
    ∃ other, b.lookup key = some other ∧ PyEq value other := by
  have hmem : (key, comparable value) ∈ comparableEntries a := by
    rw [comparableEntries_eq]
    exact mem_map.2 ⟨(key, value), Dicts.mem_of_lookup hvalue, rfl⟩
  have hother := (comparableEntries_perm h).mem_iff.1 hmem
  rw [comparableEntries_eq] at hother
  obtain ⟨entry, hentry, heq⟩ := mem_map.1 hother
  obtain ⟨rfl, hsame⟩ := Prod.mk.inj heq
  exact ⟨entry.2, Dicts.lookup_of_mem hnodup hentry, hsame.symm⟩

theorem PyEq.eq_string {value : Json} {text : String} (h : PyEq value (.string text)) :
    value = .string text := by
  cases value <;> simp_all [PyEq, comparable]

theorem PyEq.eq_strings {value : Json} {list : List String} (h : PyEq value (strings list)) :
    value = strings list := by
  cases value with
  | array items =>
    rw [PyEq, strings, comparable, comparable, Json.array.injEq, comparableItems_eq,
      comparableItems_eq] at h
    rw [strings, Json.array.injEq]
    induction list generalizing items with
    | nil => simpa using h
    | cons text rest ih =>
      cases items with
      | nil => simp at h
      | cons item others =>
        rw [map_cons, map_cons, map_cons, cons.injEq] at h
        rw [map_cons, PyEq.eq_string h.1, ih others h.2]
  | _ => simp [PyEq, comparable, strings] at h

theorem exists_object_of_pyEq {value : Json} {entries : JsonDict}
    (h : PyEq value (.object entries)) : ∃ found, value = .object found := by
  cases value <;> simp_all [PyEq, comparable]

theorem withoutEmpty_strings (list : List String) : withoutEmpty (strings list) = strings list := by
  rw [strings, withoutEmpty_array, map_map]
  rfl

theorem StructuredConstraint.Plain.lookup_eq_none (h : constraint.Plain texts) {key : String}
    (hkey : key ∈ "relation" :: "kind" :: "schema_version" :: writtenNames) :
    constraint.parameters.lookup key = none := by
  cases hvalue : constraint.parameters.lookup key with
  | none => rfl
  | some value => exact absurd hkey (h.names key (mem_map_of_mem (Dicts.mem_of_lookup hvalue)))

/-- A name that is neither sent with every constraint nor written is a parameter's. -/
theorem lookup_sentEntries_of_notMem {key : String}
    (hkey : key ∉ "relation" :: "kind" :: writtenNames) :
    (sentEntries texts message constraint).lookup key =
      if Replaced texts constraint.parameters key then none
      else constraint.parameters.lookup key := by
  simp only [mem_cons, not_or] at hkey
  have hrelation : (key == "relation") = false := beq_eq_false_iff_ne.2 hkey.1
  have hkind : (key == "kind") = false := beq_eq_false_iff_ne.2 hkey.2.1
  rw [lookup_sentEntries, lookup_sentParameters _ hkey.2.2]
  simp only [lookup_cons, lookup_nil, hrelation, hkind, Option.or_none]

theorem lookup_sentEntries_written {key : String} (hkey : key ∈ writtenNames) :
    (sentEntries texts message constraint).lookup key =
      (sentParameters texts constraint.parameters).lookup key := by
  rw [lookup_sentEntries]
  simp only [writtenNames, mem_cons, not_mem_nil, or_false] at hkey
  rcases hkey with rfl | rfl | rfl <;> simp [lookup_cons]

theorem lookup_sentEntries_kind (hplain : constraint.Plain texts) :
    (sentEntries texts message constraint).lookup "kind" = some (.string constraint.kind) := by
  rw [lookup_sentEntries, lookup_sentParameters _ (by decide),
    hplain.lookup_eq_none (by decide), ite_self]
  rfl

/-- **A constraint that is found** under its reference keeps what was sent. -/
theorem keepsConstraint_of_pyEq (hplain : constraint.Plain texts) {sent : JsonDict}
    (hsame : PyEq (.object sent) (withoutEmpty^[3] (sentConstraint texts message constraint))) :
    KeepsConstraint texts constraint sent := by
  rw [sentConstraint_eq, iterate_withoutEmpty_object] at hsame
  have hnodup : (keys (sentEntries texts message constraint)).Nodup := nodup_sentEntries
  have hpruned : (keys (withoutEmptyEntries^[3] (sentEntries texts message constraint))).Nodup :=
    nodup_withoutEmptyEntries (nodup_withoutEmptyEntries (nodup_withoutEmptyEntries hnodup))
  have hsentNodup := hsame.nodup_keys hpruned
  -- from what was sent to what is found
  have hforth : ∀ key value, (sentEntries texts message constraint).lookup key = some value →
      key ≠ "schema_version" → lifetime value = none →
        ∃ item, sent.lookup key = some item ∧ PyEq item (withoutEmpty^[3] value) := by
    intro key value hvalue hkey hlife
    have hfound := lookup_iterate_of_lifetime hnodup hkey hvalue hlife 3
    obtain ⟨item, hitem, heq⟩ := hsame.symm.lookup hsentNodup hfound
    exact ⟨item, hitem, heq.symm⟩
  -- and back
  have hback : ∀ key item, sent.lookup key = some item →
      ∃ value, (sentEntries texts message constraint).lookup key = some value ∧
        PyEq item (withoutEmpty^[3] value) := by
    intro key item hitem
    obtain ⟨other, hother, heq⟩ := hsame.lookup hpruned hitem
    obtain ⟨value, hvalue, rfl, -⟩ := of_lookup_iterate hnodup hother
    exact ⟨value, hvalue, heq⟩
  have hstring : ∀ key text, (sentEntries texts message constraint).lookup key =
      some (.string text) → key ≠ "schema_version" → sent.lookup key = some (.string text) := by
    intro key text hvalue hkey
    obtain ⟨item, hitem, heq⟩ := hforth key _ hvalue hkey rfl
    rw [hitem, PyEq.eq_string heq]
  refine ⟨?_, ?_, ?_, ?_, ?_⟩
  · exact hstring "kind" _ (lookup_sentEntries_kind hplain) (by decide)
  · intro key value hvalue hreplaced hlife
    have hname := hplain.names key (mem_map_of_mem (Dicts.mem_of_lookup hvalue))
    simp only [mem_cons, not_or] at hname
    refine hforth key value ?_ hname.2.2.1 hlife
    rw [lookup_sentEntries_of_notMem, if_neg hreplaced, hvalue]
    simp only [mem_cons, not_or]
    exact ⟨hname.1, hname.2.1, hname.2.2.2⟩
  · have hsent : (sentEntries texts message constraint).lookup
        "physical_dependency_evidence_refs" = if evidenceRefs texts constraint.parameters = [] then
          none else some (strings (evidenceRefs texts constraint.parameters)) := by
      rw [lookup_sentEntries_written (by decide), lookup_sentParameters_evidence,
        hplain.lookup_eq_none (by decide)]
    by_cases hnil : evidenceRefs texts constraint.parameters = []
    · rw [if_pos hnil] at hsent
      cases hitem : sent.lookup "physical_dependency_evidence_refs" with
      | none => rw [listUnder, hitem, hnil, map_nil]
      | some item =>
        obtain ⟨value, hvalue, -⟩ := hback _ item hitem
        rw [hsent] at hvalue
        cases hvalue
    · rw [if_neg hnil] at hsent
      have hlife : lifetime (strings (evidenceRefs texts constraint.parameters)) = none := by
        rw [strings, lifetime, isEmpty_map, if_neg (by simpa using hnil)]
      obtain ⟨item, hitem, heq⟩ := hforth _ _ hsent (by decide) hlife
      rw [Function.iterate_fixed (withoutEmpty_strings _)] at heq
      rw [listUnder, hitem, PyEq.eq_strings heq]
      rfl
  · intro field hfield
    have hwritten : field ++ "_inventory_ref" ∈ writtenNames := by
      rcases mem_inventoryFields.1 hfield with rfl | rfl <;> decide
    have hsent : (sentEntries texts message constraint).lookup (field ++ "_inventory_ref") =
        if inventoried texts constraint.parameters field = true then
          some (.string (inventoryRef texts constraint.parameters field)) else none := by
      rw [lookup_sentEntries_written hwritten, lookup_sentParameters_inventory _ hfield,
        hplain.lookup_eq_none (by simp [hwritten])]
    split_ifs at hsent ⊢ with hgiven
    · refine hstring _ _ hsent ?_
      rcases mem_inventoryFields.1 hfield with rfl | rfl <;> decide
    · cases hitem : sent.lookup (field ++ "_inventory_ref") with
      | none => rfl
      | some item =>
        obtain ⟨value, hvalue, -⟩ := hback _ item hitem
        rw [hsent] at hvalue
        cases hvalue
  · intro key item hitem hname
    obtain ⟨value, hvalue, heq⟩ := hback key item hitem
    rw [lookup_sentEntries_of_notMem hname] at hvalue
    split_ifs at hvalue with hreplaced
    exact ⟨value, hvalue, hreplaced, heq⟩

end Constraints

/-! ## What is looked up -/

section Main

variable {texts : PromptTexts} {messages : List NeighborMessage} {dicts : Dictionaries}
  {groups : List (EnvelopeKey × Envelope)} {constraints : JsonDict} {result : Compaction}

theorem Built.entriesUnder_facts (h : Built texts messages dicts groups constraints result)
    {name : String} {entries : JsonDict}
    (hname : name ∈ ["constraints", "physical_dependency_evidence", "identity_inventories"])
    (hentries : (name, .object entries) ∈ [("constraints", Json.object constraints),
      ("physical_dependency_evidence", .object dicts.physicalEvidence),
      ("identity_inventories", .object dicts.identityInventory)]) :
    entriesUnder name result.facts = withoutEmptyEntries entries := by
  have hnodup : ∀ common : Json, (keys [("receiver_potential_access_ref", common),
      ("constraints", Json.object constraints),
      ("physical_dependency_evidence", .object dicts.physicalEvidence),
      ("identity_inventories", .object dicts.identityInventory)]).Nodup := by
    intro common
    simp only [keys, map_cons, map_nil]
    decide
  rw [h.facts, entriesUnder_withoutEmptyEntries (hnodup _)
    (by rintro rfl; exact absurd hname (by decide)), entriesUnder,
    Dicts.lookup_of_mem (hnodup _) (mem_cons_of_mem _ hentries)]

/-- The references of an envelope are the ids of its constraints. -/
theorem mem_constraintRefs {group : EnvelopeKey × Envelope} {common : Option String}
    {id : String} :
    .string id ∈ listUnder "constraint_refs"
        (hoistReceiverRef common (envelopeDict texts group.1 group.2)) ↔
      ∃ c ∈ unique texts (group.2.lists .constraints), constraintId texts c = id := by
  have hlist : listUnder "constraint_refs"
      (hoistReceiverRef common (envelopeDict texts group.1 group.2)) =
        listUnder "constraint_refs" (envelopeDict texts group.1 group.2) := by
    rw [listUnder, listUnder, lookup_hoistReceiverRef (by decide)]
  rw [hlist, listUnder_constraintRefs, mem_map]
  simp only [Json.string.injEq]

/-- A dictionary with something in one of its entries has something in it. -/
theorem lifetime_object_eq_none {entries : JsonDict} {entry : String × Json}
    (hentry : entry ∈ entries) (hkey : entry.1 ≠ "schema_version")
    (hlife : lifetime entry.2 = none) : lifetime (.object entries) = none := by
  rw [lifetime]
  induction entries with
  | nil => cases hentry
  | cons first rest ih =>
    rw [entriesLifetime_cons]
    rcases mem_cons.1 hentry with rfl | hmem
    · rw [if_neg hkey, hlife]
    · rw [ih hmem]
      cases if first.1 = "schema_version" then some 0 else lifetime first.2 <;> rfl

/-- The constraint under the id of a constraint of an envelope. -/
theorem Built.constraintAt_spec (h : Built texts messages dicts groups constraints result)
    {group : EnvelopeKey × Envelope} (hgroup : group ∈ groups) {value : Json}
    (hvalue : value ∈ unique texts (group.2.lists .constraints)) {message : NeighborMessage}
    {c : StructuredConstraint} (hplain : c.Plain texts)
    (hsame : PyEq value (hashedConstraint texts message c)) :
    ∃ sent, constraintAt result (constraintId texts value) = some sent ∧
      KeepsConstraint texts c sent := by
  obtain ⟨stored, hstored, hstoredSame⟩ := h.resolves group hgroup value hvalue
  have hall := hstoredSame.trans hsame
  have hlife : lifetime (hashedConstraint texts message c) = none := by
    have hkind : ("kind", .string c.kind) ∈ sentEntries texts message c :=
      Dicts.mem_of_lookup (lookup_sentEntries_kind hplain)
    have hsent : lifetime (sentConstraint texts message c) = none :=
      lifetime_object_eq_none hkind (show "kind" ≠ "schema_version" by decide) rfl
    exact (lifetime_iterate_eq_none_iff 2 _).2 hsent
  have hpresent : lifetime stored ≠ some 0 := by
    rw [ne_eq, hall.lifetime_eq_zero_iff, hlife]
    exact nofun
  have hname : constraintId texts value ≠ "schema_version" :=
    (h.hashKeyed.of_lookup hstored).2
  have hkept : kept (constraintId texts value) stored = true := kept_iff.2 ⟨hname, hpresent⟩
  have hfound : (entriesUnder "constraints" result.facts).lookup (constraintId texts value) =
      some (withoutEmpty stored) := by
    rw [h.entriesUnder_facts (by simp) mem_cons_self,
      lookup_withoutEmptyEntries h.constraintsNodup, hstored, Option.filter, if_pos hkept,
      Option.map_some]
  have hpruned : PyEq (withoutEmpty stored) (withoutEmpty^[3] (sentConstraint texts message c)) :=
    hall.withoutEmpty
  have hobject := hpruned
  rw [sentConstraint_eq, iterate_withoutEmpty_object] at hobject
  obtain ⟨sent, hsent⟩ := exists_object_of_pyEq hobject
  refine ⟨sent, ?_, keepsConstraint_of_pyEq hplain (hsent ▸ hpruned)⟩
  rw [constraintAt, hfound, hsent]

/-- The constraints that an envelope refers to keep those of its messages, and no
others. -/
theorem Built.refersTo_spec (h : Built texts messages dicts groups constraints result)
    (hplain : ∀ message ∈ messages, ∀ c ∈ message.constraints, c.Plain texts)
    {group : EnvelopeKey × Envelope} (hgroup : group ∈ groups) {common : Option String}
    {sent : JsonDict}
    (hrefers : RefersTo result
      (hoistReceiverRef common (envelopeDict texts group.1 group.2)) sent) :
    ∃ message ∈ messagesAt messages group.1, ∃ c ∈ message.constraints,
      KeepsConstraint texts c sent := by
  obtain ⟨id, hid, hsent⟩ := hrefers
  obtain ⟨value, hvalue, rfl⟩ := mem_constraintRefs.1 hid
  obtain ⟨message, hmessage, hkey, c, hc, rfl⟩ := (h.mem_constraints hgroup).1 (mem_unique hvalue)
  obtain ⟨found, hfound, hkeeps⟩ := h.constraintAt_spec hgroup hvalue
    (hplain message hmessage c hc) (PyEq.refl _)
  obtain rfl := Option.some.inj (hsent.symm.trans hfound)
  exact ⟨message, mem_filter.2 ⟨hmessage, by simpa using hkey⟩, c, hc, hkeeps⟩

theorem Built.exists_refersTo (h : Built texts messages dicts groups constraints result)
    (hcollision : NoCollision texts messages)
    (hplain : ∀ message ∈ messages, ∀ c ∈ message.constraints, c.Plain texts)
    {group : EnvelopeKey × Envelope} (hgroup : group ∈ groups) (common : Option String)
    {message : NeighborMessage} (hmessage : message ∈ messagesAt messages group.1)
    {c : StructuredConstraint} (hc : c ∈ message.constraints) :
    ∃ sent, RefersTo result (hoistReceiverRef common (envelopeDict texts group.1 group.2)) sent ∧
      KeepsConstraint texts c sent := by
  obtain ⟨hmem, hkey⟩ := mem_filter.1 hmessage
  have hlists : hashedConstraint texts message c ∈ group.2.lists .constraints :=
    (h.mem_constraints hgroup).2 ⟨message, hmem, by simpa using hkey, c, hc, rfl⟩
  obtain ⟨value, hvalue, hhash⟩ := exists_unique_of_mem hlists
  obtain ⟨sender, hsender, -, d, hd, rfl⟩ := (h.mem_constraints hgroup).1 (mem_unique hvalue)
  have hsent : ∀ m : NeighborMessage, ∀ e ∈ m.constraints,
      hashedConstraint texts m e ∈ sentLists texts m .constraints :=
    fun m e he => mem_map_of_mem (mem_map_of_mem he)
  have hsame := hcollision .constraints sender hsender _ (hsent sender d hd) message hmem _
    (hsent message c hc) hhash
  obtain ⟨found, hfound, hkeeps⟩ := h.constraintAt_spec hgroup hvalue
    (hplain message hmem c hc) hsame
  exact ⟨found, ⟨_, mem_constraintRefs.2 ⟨_, hvalue, rfl⟩, hfound⟩, hkeeps⟩

/-- A list of an envelope says what the messages' lists say. -/
theorem Built.saysTheSame (h : Built texts messages dicts groups constraints result)
    (hcollision : NoCollision texts messages) {group : EnvelopeKey × Envelope}
    (hgroup : group ∈ groups) (common : Option String) {field : ListField}
    (hfield : field ≠ .constraints) :
    SaysTheSame ((messagesAt messages group.1).flatMap fun message =>
        rowLists message (physicalRefs texts message) (sentConstraints texts message) field)
      (listUnder field.name (hoistReceiverRef common (envelopeDict texts group.1 group.2))) := by
  have hlist : listUnder field.name
      (hoistReceiverRef common (envelopeDict texts group.1 group.2)) =
        (unique texts (group.2.lists field)).map withoutEmpty := by
    rw [listUnder, lookup_hoistReceiverRef (by cases field <;> decide), ← listUnder,
      listUnder_field hfield]
  have hmem : ∀ value, value ∈ group.2.lists field ↔
      ∃ message ∈ messagesAt messages group.1, value ∈ sentLists texts message field := by
    intro value
    rw [h.lists group hgroup, mem_flatMap]
  have hmessages : ∀ message ∈ messagesAt messages group.1, message ∈ messages :=
    fun message hm => mem_of_mem_filter hm
  rw [hlist]
  constructor
  · intro a ha
    obtain ⟨message, hmessage, ha⟩ := mem_flatMap.1 ha
    have hsent : withoutEmpty a ∈ sentLists texts message field := mem_map_of_mem ha
    obtain ⟨value, hvalue, hhash⟩ :=
      exists_unique_of_mem ((hmem _).2 ⟨message, hmessage, hsent⟩)
    obtain ⟨sender, hsender, hother⟩ := (hmem value).1 (mem_unique hvalue)
    have hsame := hcollision field sender (hmessages sender hsender) value hother message
      (hmessages message hmessage) _ hsent hhash
    exact ⟨withoutEmpty value, mem_map_of_mem hvalue, hsame.withoutEmpty⟩
  · intro b hb
    obtain ⟨value, hvalue, rfl⟩ := mem_map.1 hb
    obtain ⟨message, hmessage, hsent⟩ := (hmem value).1 (mem_unique hvalue)
    obtain ⟨a, ha, rfl⟩ := mem_map.1 hsent
    exact ⟨a, mem_flatMap.2 ⟨message, hmessage, ha⟩, PyEq.refl _⟩

/-- What two lists of strings say is the same if they have the same strings. -/
theorem SaysTheSame.string_mem_iff {originals : List String} {emitted : List Json}
    (h : SaysTheSame (originals.map .string) emitted) (text : String) :
    .string text ∈ emitted ↔ text ∈ originals := by
  constructor
  · intro htext
    obtain ⟨a, ha, hsame⟩ := h.sound _ htext
    obtain ⟨original, horiginal, rfl⟩ := mem_map.1 ha
    exact Json.string.inj (PyEq.eq_string hsame) ▸ horiginal
  · intro htext
    obtain ⟨b, hb, hsame⟩ := h.complete _ (mem_map_of_mem htext)
    exact PyEq.eq_string hsame ▸ hb

/-- What is stored and does not go when the facts are pruned has its id there. -/
theorem mem_keys_of_resolves {dict : JsonDict} (hnodup : (keys dict).Nodup) {id : String}
    {value : Json} (h : Resolves PyEq dict id value) (hid : id ≠ "schema_version")
    (hpresent : absent value = false) : id ∈ keys (withoutEmptyEntries dict) := by
  obtain ⟨stored, hstored, hsame⟩ := h
  have hkept : kept id stored = true := by
    rw [kept, hsame.absent_eq, hpresent]
    simpa using hid
  have hfound : (withoutEmptyEntries dict).lookup id = some (withoutEmpty stored) := by
    rw [lookup_withoutEmptyEntries hnodup, hstored, Option.filter, if_pos hkept, Option.map_some]
  exact mem_map_of_mem (Dicts.mem_of_lookup hfound)

/-- Evidence with something in it leaves something. -/
theorem absent_evidence {entries : JsonDict}
    (h : ∃ entry ∈ entries, entry.1 ≠ "evidence_id" ∧ kept entry.1 entry.2 = true) :
    absent (withoutEmpty (.object (pop "evidence_id" entries))) = false := by
  obtain ⟨entry, hentry, hname, hkept⟩ := h
  have hpop : (entry.1, entry.2) ∈ pop "evidence_id" entries :=
    mem_filter.2 ⟨hentry, by simpa using hname⟩
  have hmem : (entry.1, withoutEmpty entry.2) ∈ withoutEmptyEntries (pop "evidence_id" entries) :=
    mem_withoutEmptyEntries.2 ⟨entry.2, hpop, hkept, rfl⟩
  rw [withoutEmpty, absent]
  exact isEmpty_eq_false_iff.2 (ne_nil_of_mem hmem)

theorem inventoryRef_ne_schemaVersion (parameters : JsonDict) (field : String) :
    inventoryRef texts parameters field ≠ "schema_version" :=
  append_ne_schemaVersion ⟨'i', _, rfl, by decide⟩

/-- **The references** of an envelope lead to entries. -/
theorem Built.referencesResolve (h : Built texts messages dicts groups constraints result)
    (hplain : ∀ message ∈ messages, ∀ c ∈ message.constraints, c.Plain texts)
    {group : EnvelopeKey × Envelope} (hgroup : group ∈ groups) (common : Option String) :
    ReferencesResolve result (hoistReceiverRef common (envelopeDict texts group.1 group.2)) where
  constraint := by
    intro id hid
    obtain ⟨value, hvalue, rfl⟩ := mem_constraintRefs.1 hid
    obtain ⟨message, hmessage, -, c, hc, rfl⟩ := (h.mem_constraints hgroup).1 (mem_unique hvalue)
    obtain ⟨found, hfound, -⟩ := h.constraintAt_spec hgroup hvalue
      (hplain message hmessage c hc) (PyEq.refl _)
    rw [hfound]
    rfl
  access := by
    intro field value hvalue id hid
    obtain ⟨old, hold, rfl⟩ := of_lookup_refField (of_lookup_hoistReceiverRef hvalue)
    rw [h.access]
    exact h.refs group hgroup field old hold id (idsOf_withoutEmpty hid)
  evidence := by
    intro sent hrefers id hid
    obtain ⟨message, hmessage, c, hc, hkeeps⟩ := h.refersTo_spec hplain hgroup hrefers
    have hmem := mem_of_mem_filter hmessage
    rw [hkeeps.evidence] at hid
    obtain ⟨ref, href, heq⟩ := mem_map.1 hid
    obtain rfl := Json.string.inj heq
    obtain ⟨item, hitem, rfl⟩ := mem_map.1 href
    obtain ⟨ref, value, hof, hresolves⟩ := (h.stored message hmem c hc).evidence item hitem
    obtain ⟨hname, hfull⟩ := (hplain message hmem c hc).evidence item hitem
    rw [evidenceId_of_ok hof] at hname ⊢
    obtain ⟨entries, raw, rfl, -, -, rfl⟩ := evidenceOf_eq_ok_iff.1 hof
    rw [h.entriesUnder_facts (by simp) (mem_cons_of_mem _ mem_cons_self)]
    exact mem_keys_of_resolves h.physicalNodup hresolves hname (absent_evidence (hfull _ rfl))
  inventory := by
    intro sent hrefers field hfield id hid
    obtain ⟨message, hmessage, c, hc, hkeeps⟩ := h.refersTo_spec hplain hgroup hrefers
    have hmem := mem_of_mem_filter hmessage
    rw [hkeeps.inventory field hfield] at hid
    split_ifs at hid with hgiven
    obtain rfl := Json.string.inj (Option.some.inj hid)
    obtain ⟨count, hresolves⟩ := (h.stored message hmem c hc).inventory field hfield hgiven
    rw [h.entriesUnder_facts (by simp) (mem_cons_of_mem _ (mem_cons_of_mem _ mem_cons_self))]
    exact mem_keys_of_resolves h.inventoryNodup hresolves (inventoryRef_ne_schemaVersion _ _) rfl

/-- **What an envelope says** is what the messages of its neighbour say. -/
theorem Built.carriesFacts (h : Built texts messages dicts groups constraints result)
    (hcollision : NoCollision texts messages)
    (hplain : ∀ message ∈ messages, ∀ c ∈ message.constraints, c.Plain texts)
    {group : EnvelopeKey × Envelope} (hgroup : group ∈ groups) (common : Option String) :
    CarriesFacts texts result (hoistReceiverRef common (envelopeDict texts group.1 group.2))
      (messagesAt messages group.1) where
  relations := by
    intro relation
    have hsays := h.saysTheSame hcollision hgroup common (show ListField.relations ≠ _ by decide)
    have hlist : ((messagesAt messages group.1).flatMap fun message => rowLists message
        (physicalRefs texts message) (sentConstraints texts message) .relations) =
        ((messagesAt messages group.1).map (·.relation)).map .string := by
      rw [map_map, map_eq_flatMap]
      rfl
    rw [hlist] at hsays
    rw [show "relations" = ListField.name .relations from rfl, hsays.string_mem_iff, mem_map]
  evidence := by
    intro id
    have hsays := h.saysTheSame hcollision hgroup common (show ListField.evidenceIds ≠ _ by decide)
    have hlist : ((messagesAt messages group.1).flatMap fun message => rowLists message
        (physicalRefs texts message) (sentConstraints texts message) .evidenceIds) =
        ((messagesAt messages group.1).flatMap fun message =>
          message.evidenceIds.filter fun id => id ∉ physicalRefs texts message).map .string := by
      rw [map_flatMap]
      rfl
    rw [hlist] at hsays
    rw [show "evidence_ids" = ListField.name .evidenceIds from rfl, hsays.string_mem_iff]
    simp only [mem_flatMap, mem_filter, decide_eq_true_eq]
    constructor
    · rintro (⟨message, hmessage, hid, -⟩ | ⟨sent, hrefers, hid⟩)
      · exact ⟨message, hmessage, Or.inl hid⟩
      · obtain ⟨message, hmessage, c, hc, hkeeps⟩ := h.refersTo_spec hplain hgroup hrefers
        rw [hkeeps.evidence] at hid
        obtain ⟨ref, href, heq⟩ := mem_map.1 hid
        obtain rfl := Json.string.inj heq
        exact ⟨message, hmessage, Or.inr (mem_flatMap.2 ⟨c, hc, href⟩)⟩
    · rintro ⟨message, hmessage, hid⟩
      by_cases hphysical : id ∈ physicalRefs texts message
      · obtain ⟨c, hc, href⟩ := mem_flatMap.1 hphysical
        obtain ⟨sent, hrefers, hkeeps⟩ :=
          h.exists_refersTo hcollision hplain hgroup common hmessage hc
        refine Or.inr ⟨sent, hrefers, ?_⟩
        rw [hkeeps.evidence]
        exact mem_map_of_mem href
      · exact Or.inl ⟨message, hmessage, hid.resolve_right hphysical, hphysical⟩
  intents := h.saysTheSame hcollision hgroup common (show ListField.proposedIntents ≠ _ by decide)
  resources := h.saysTheSame hcollision hgroup common (show ListField.resourceClaims ≠ _ by decide)
  timings := h.saysTheSame hcollision hgroup common (show ListField.timingClaims ≠ _ by decide)
  constraints := fun _ hmessage _ hc =>
    h.exists_refersTo hcollision hplain hgroup common hmessage hc
  onlyConstraints := fun _ hrefers => h.refersTo_spec hplain hgroup hrefers

/-- **The reference that all envelopes share** leads to an access summary. -/
theorem Built.commonReceiver_mem (h : Built texts messages dicts groups constraints result)
    {id : String} (hid : result.facts.lookup "receiver_potential_access_ref" = some (.string id)) :
    id ∈ keys result.access := by
  rw [h.facts] at hid
  obtain ⟨old, hmem, -, hold⟩ := mem_withoutEmptyEntries.1 (Dicts.mem_of_lookup hid)
  simp only [mem_cons, Prod.mk.injEq, not_mem_nil, or_false] at hmem
  rcases hmem with ⟨-, rfl⟩ | ⟨hname, -⟩ | ⟨hname, -⟩ | ⟨hname, -⟩
  · cases hcommon : commonReceiverRef
        (groups.map fun group => envelopeDict texts group.1 group.2) with
    | none =>
      rw [hcommon, Option.elim_none] at hold
      simp [withoutEmpty] at hold
    | some common =>
      obtain rfl : common = id := by
        rw [hcommon, Option.elim_some] at hold
        simpa [withoutEmpty] using hold
      obtain ⟨row, hrow, href⟩ := of_commonReceiverRef hcommon
      obtain ⟨group, hgroup, rfl⟩ := mem_map.1 hrow
      have hfield : (envelopeDict texts group.1 group.2).lookup
          (RefField.name .receiverAccess) = some (.string common) := href
      obtain ⟨old, hold, hsame⟩ := of_lookup_refField hfield
      rw [h.access]
      refine h.refs group hgroup .receiverAccess old hold common (idsOf_withoutEmpty ?_)
      rw [← hsame]
      exact mem_singleton_self common
  · exact absurd hname (by decide)
  · exact absurd hname (by decide)
  · exact absurd hname (by decide)

/-- **The compaction keeps what the messages say.**  There is one envelope for each
neighbour and round of a message; its references lead to entries; and with them it says
what the messages of that neighbour in that round say. -/
theorem compaction_keeps_facts (hcollision : NoCollision texts messages)
    (hplain : ∀ message ∈ messages, ∀ c ∈ message.constraints, c.Plain texts)
    (h : compactNeighborMessages texts messages = .ok result) :
    (result.rows.map rowKey).Nodup ∧
      (∀ key, key ∈ result.rows.map rowKey ↔ ∃ message ∈ messages, message.key = key) ∧
      (∀ id, result.facts.lookup "receiver_potential_access_ref" = some (.string id) →
        id ∈ keys result.access) ∧
      ∀ row ∈ result.rows, ReferencesResolve result row ∧
        CarriesFacts texts result row (messagesAt messages (rowKey row)) := by
  obtain ⟨dicts, groups, constraints, hbuilt⟩ := compactNeighborMessages_built h
  have hrowKey : ∀ group : EnvelopeKey × Envelope, ∀ common,
      rowKey (hoistReceiverRef common (envelopeDict texts group.1 group.2)) = group.1 := by
    intro group common
    rw [rowKey, lookup_hoistReceiverRef (by decide), lookup_hoistReceiverRef (by decide), ← rowKey,
      rowKey_envelopeDict]
  have hkeys : result.rows.map rowKey = groups.map (·.1) := by
    rw [hbuilt.rows, map_map, map_map]
    exact map_congr_left fun group _ => hrowKey group _
  refine ⟨hkeys ▸ hbuilt.groupsNodup, fun key => hkeys ▸ hbuilt.mem_groups key,
    fun _ => hbuilt.commonReceiver_mem, ?_⟩
  intro row hrow
  rw [hbuilt.rows] at hrow
  obtain ⟨dict, hdict, rfl⟩ := mem_map.1 hrow
  obtain ⟨group, hgroup, rfl⟩ := mem_map.1 hdict
  refine ⟨hbuilt.referencesResolve hplain hgroup _, ?_⟩
  rw [hrowKey group]
  exact hbuilt.carriesFacts hcollision hplain hgroup _

end Main

/-! ## A neighbour with two messages -/

def hardConstraint : StructuredConstraint :=
  ⟨"connectivity_boundary_constraint", [("hard", .bool true)], by decide⟩

/-- A constraint with physical evidence, and a list that becomes an inventory. -/
def evidenceConstraint : StructuredConstraint :=
  ⟨"resource_geometry_proxy_constraint",
    [("hard", .bool false), ("shared_proxy_bin_ids", strings ["bin_1", "bin_2"]),
      ("physical_dependency_evidence", .array [.object
        [("evidence_id", .string "physical:m1"), ("kind", .string "shared_metal")]])], by decide⟩

/-- A message of round 1 to `R1`. -/
def sampleMessageOf (sender relation : String) (constraints : List StructuredConstraint) :
    NeighborMessage where
  messageId := "msg_" ++ sender ++ "_" ++ relation
  round := 1
  senderRegionId := sender
  receiverRegionId := "R1"
  relation
  evidenceIds := ["e1"]
  constraints
  proposedIntents := []
  resourceClaims := []
  timingClaims := []
  requestedResponse := ["FACT_ACK"]

def sampleMessages : List NeighborMessage :=
  [sampleMessageOf "R2" "connectivity" [hardConstraint],
    sampleMessageOf "R2" "resource" [evidenceConstraint],
    sampleMessageOf "R3" "connectivity" [hardConstraint]]

def hardConstraintDict : JsonDict :=
  [("relation", .string "connectivity"), ("kind", .string "connectivity_boundary_constraint"),
    ("hard", .bool true)]

def sampleHashes : PromptTexts :=
  tableTexts
    [(.string "connectivity", "a14c7d13079d5650b0ee54240de971916fd6c0e79dc0f9d953c6902e907f7b09"),
      (.string "resource", "c1ea5ae2bd12c8a5ed8f2cbb79c680a3771cf2b71ac5d138eb21f8d9f116138e"),
      (.string "e1", "0e7683d757ca8c3c9dd2ce1cb3354a8f3ea2a826584f7d24a403b186bbb56eb7"),
      (strings ["bin_1", "bin_2"],
        "6a6d2bbd62e1a422d4df8d2dcce7b2945d769f5ae9b595b2a76a9799aa3c0979"),
      (.object hardConstraintDict,
        "047250a063ffb33dde0cb78384183fd739f13ba414fbed12bbe60bb46ba39d08"),
      (.object [("relation", .string "resource"),
        ("kind", .string "resource_geometry_proxy_constraint"), ("hard", .bool false),
        ("physical_dependency_evidence_refs", strings ["physical:m1"]),
        ("shared_proxy_bin_ids_inventory_ref", .string "identity_inventory_6a6d2bbd62e1a422")],
        "b2e4738938244fc6aa5aecf616e8f5891d54e21ff09d1cf0645bf0853f9fabf1")]

theorem noCollision_sample : NoCollision sampleHashes sampleMessages := by
  intro field
  cases field <;> decide

theorem plain_hardConstraint : hardConstraint.Plain sampleHashes where
  names := by decide
  evidence := by
    have hnone : evidenceItems hardConstraint.parameters = [] := by decide
    intro item hitem
    rw [hnone] at hitem
    cases hitem

theorem plain_evidenceConstraint : evidenceConstraint.Plain sampleHashes where
  names := by decide
  evidence := by
    intro item hitem
    obtain rfl := mem_singleton.1 hitem
    refine ⟨by decide, ?_⟩
    rintro entries ⟨⟩
    exact ⟨("kind", .string "shared_metal"), by simp, by decide, by decide⟩

theorem compaction_keeps_facts_sample :
    ∃ result, compactNeighborMessages sampleHashes sampleMessages = .ok result ∧
      (result.rows.map rowKey).Nodup ∧
      ∀ row ∈ result.rows, ReferencesResolve result row ∧
        CarriesFacts sampleHashes result row (messagesAt sampleMessages (rowKey row)) := by
  have hplain : ∀ message ∈ sampleMessages, ∀ c ∈ message.constraints, c.Plain sampleHashes := by
    simp [sampleMessages, sampleMessageOf, plain_hardConstraint, plain_evidenceConstraint]
  obtain ⟨hnodup, -, -, hrows⟩ := compaction_keeps_facts noCollision_sample hplain rfl
  exact ⟨_, rfl, hnodup, hrows⟩

/-- One parameter has a name that pruning drops, the other has nothing in it. -/
def hollowConstraint : StructuredConstraint :=
  ⟨"connectivity_boundary_constraint", [("hard", .bool true), ("schema_version", .string "2.0"),
      ("required_checks", .object [("open", .null)])], by decide⟩

def hollowMessage : NeighborMessage := sampleMessageOf "R2" "connectivity" [hollowConstraint]

/-- **Parameters that are lost.**  They are not empty, and nothing stands for them. -/
theorem compaction_loses_facts :
    (∀ key ∈ ["schema_version", "required_checks"],
      (hollowConstraint.parameters.lookup key).any Json.truthy = true ∧
        ¬ Replaced sampleHashes hollowConstraint.parameters key) ∧
      ∃ result, compactNeighborMessages sampleHashes [hollowMessage] = .ok result ∧
        result.rows.map rowKey = [⟨1, "R2"⟩] ∧
        ∀ row ∈ result.rows, ∀ sent, RefersTo result row sent →
          ∀ key ∈ ["schema_version", "required_checks"], sent.lookup key = none := by
  refine ⟨by decide, _, rfl, by decide, ?_⟩
  intro row hrow sent hrefers
  obtain rfl := mem_singleton.1 hrow
  obtain ⟨id, hid, hsent⟩ := hrefers
  have hid' : Json.string id ∈ [Json.string "neighbor_constraint_047250a063ffb33d"] := hid
  obtain rfl := Json.string.inj (mem_singleton.1 hid')
  have hfound : some sent = some hardConstraintDict := hsent.symm
  obtain rfl := Option.some.inj hfound
  decide

end DRCAgent.Planner
