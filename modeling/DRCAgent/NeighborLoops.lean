/-
# What the compaction of the messages builds up

The loops of `_compact_neighbor_messages`, each with what it has built for the part of its
list that is done. Where no exception is raised, a constraint, a row and an envelope are
functions of the messages alone (`sentConstraint`, `sentLists`, `envelope_lists`), and every
reference that is handed out leads to an entry of its dictionary.
-/
import DRCAgent.NeighborCompaction

namespace DRCAgent.Planner

open CheckedStores (store Resolves foldlM_induction)
open Connectivity (Json PyError)
open Failures List

theorem pyEq_equivalence : Equivalence PyEq := ⟨PyEq.refl, PyEq.symm, PyEq.trans⟩

/-! ## Keys that are popped -/

theorem lookup_pop (key k : String) (dict : JsonDict) :
    (pop key dict).lookup k = if k = key then none else dict.lookup k := by
  induction dict with
  | nil => simp [pop]
  | cons entry rest ih =>
    obtain ⟨first, value⟩ := entry
    rw [pop] at ih ⊢
    by_cases hfirst : first = key
    · rw [filter_cons_of_neg (by simpa using hfirst), ih]
      by_cases hk : k = key
      · rw [if_pos hk, if_pos hk]
      · have hbeq : (k == first) = false := beq_eq_false_iff_ne.2 (hfirst ▸ hk)
        rw [if_neg hk, if_neg hk, lookup_cons, hbeq]
    · rw [filter_cons_of_pos (by simpa using hfirst), lookup_cons, lookup_cons, ih]
      by_cases hk : k = first
      · subst hk
        simp [hfirst]
      · have hbeq : (k == first) = false := beq_eq_false_iff_ne.2 hk
        rw [hbeq]

theorem nodup_pop {key : String} {dict : JsonDict} (h : (dict.map (·.1)).Nodup) :
    ((pop key dict).map (·.1)).Nodup :=
  h.sublist (filter_sublist.map _)

theorem getList_congr {dict dict' : JsonDict} {key : String}
    (h : dict.lookup key = dict'.lookup key) : getList dict key = getList dict' key := by
  rw [getList, getList, h]

/-! ## The parts of a constraint -/

section Parts

variable (texts : PromptTexts)

/-- The potential access of a constraint, by endpoint. -/
def accessItems (parameters : JsonDict) : JsonDict :=
  match ((parameters.lookup "potential_physical_access").getD (.object [])).orEmpty with
  | .object entries => entries
  | _ => []

/-- The physical evidence of a constraint. -/
def evidenceItems (parameters : JsonDict) : List Json :=
  ((pyItems (getList parameters "physical_dependency_evidence")).toOption).getD []

def evidenceId : Json → String
  | .object entries => texts.str ((entries.lookup "evidence_id").getD .null)
  | _ => ""

/-- The ids of the physical evidence of a constraint. -/
def evidenceRefs (parameters : JsonDict) : List String :=
  (evidenceItems parameters).map (evidenceId texts)

/-- Whether a list of shared ids is replaced by an inventory. -/
def inventoried (parameters : JsonDict) (key : String) : Bool :=
  (getList parameters key).truthy &&
    (evidenceRefs texts parameters ≠ [] ||
      !((parameters.lookup "hard").getD (.bool false)).truthy)

/-- The id of the inventory of a list of shared ids. -/
def inventoryRef (parameters : JsonDict) (key : String) : String :=
  (inventoryOf texts (getList parameters key) 0).1

/-- The parameters without the potential access and, where there is any, without the
halos. -/
def withoutAccess (parameters : JsonDict) : JsonDict :=
  let rest := pop "potential_physical_access" parameters
  if accessItems parameters = [] then rest else pop "halo_v_dbu" (pop "halo_u_dbu" rest)

/-- The parameters with references to the physical evidence instead of it. -/
def withEvidenceRefs (parameters : JsonDict) : JsonDict :=
  let rest := pop "physical_dependency_evidence" (withoutAccess parameters)
  if evidenceRefs texts parameters = [] then rest
  else Dicts.insert "physical_dependency_evidence_refs" (strings (evidenceRefs texts parameters))
    rest

/-- The parameters with an inventory instead of one list of shared ids. -/
def withInventory (parameters rest : JsonDict) (key : String) : JsonDict :=
  if inventoried texts parameters key then
    Dicts.insert (key ++ "_inventory_ref") (.string (inventoryRef texts parameters key))
      (pop key rest)
  else rest

/-- The parameters of a constraint as they are sent. -/
def sentParameters (parameters : JsonDict) : JsonDict :=
  inventoryFields.foldl (withInventory texts parameters) (withEvidenceRefs texts parameters)

/-- A constraint as it is sent, before it is pruned. -/
def sentConstraint (message : NeighborMessage) (constraint : StructuredConstraint) : Json :=
  constraintDict message constraint (sentParameters texts constraint.parameters)

/-- A constraint of a message, as it is hashed. -/
def hashedConstraint (message : NeighborMessage) (constraint : StructuredConstraint) : Json :=
  withoutEmpty (withoutEmpty (sentConstraint texts message constraint))

/-- The constraints of a message as they are sent. -/
def sentConstraints (message : NeighborMessage) : List Json :=
  message.constraints.map fun constraint => withoutEmpty (sentConstraint texts message constraint)

/-- The ids of the physical evidence of a message. -/
def physicalRefs (message : NeighborMessage) : List String :=
  message.constraints.flatMap fun constraint => evidenceRefs texts constraint.parameters

/-- The lists of the row of a message. -/
def sentLists (message : NeighborMessage) (field : ListField) : List Json :=
  (rowLists message (physicalRefs texts message) (sentConstraints texts message) field).map
    withoutEmpty

end Parts

/-! ## The potential access of a constraint -/

section Access

variable {texts : PromptTexts} {message : NeighborMessage}

/-- The access summaries that are referred to. -/
def referenced (refs : List (String × String)) (receiver neighbor : Option String) :
    List String :=
  refs.map (·.2) ++ receiver.toList ++ neighbor.toList

def MessageState.accessIds (state : MessageState) : List String :=
  referenced state.accessRefs state.receiverRef state.neighborRef

def AccessState.ids (state : AccessState) : List String :=
  referenced state.refs state.receiverRef state.neighborRef

theorem mem_referenced {refs : List (String × String)} {receiver neighbor : Option String}
    {id : String} : id ∈ referenced refs receiver neighbor ↔
      id ∈ refs.map (·.2) ∨ receiver = some id ∨ neighbor = some id := by
  simp only [referenced, mem_append, Option.mem_toList, or_assoc]

theorem mem_values_insert {refs : List (String × String)} {key value id : String}
    (h : id ∈ (Dicts.insert key value refs).map (·.2)) : id = value ∨ id ∈ refs.map (·.2) := by
  obtain ⟨entry, hentry, rfl⟩ := mem_map.1 h
  rcases Dicts.mem_insert hentry with rfl | hold
  · exact Or.inl rfl
  · exact Or.inr (mem_map_of_mem hold)

theorem insert_ne_nil {A : Type} (key : String) (value : A) (dict : List (String × A)) :
    Dicts.insert key value dict ≠ [] := by
  cases dict with
  | nil => simp [Dicts.insert]
  | cons entry rest =>
    rw [Dicts.insert]
    split_ifs <;> simp

theorem mem_keys_store {clash : CompactionError} {key k : String} {value : Json}
    {dict dict' : JsonDict} (h : store PyEq clash key value dict = .ok dict') :
    k ∈ keys dict' ↔ k = key ∨ k ∈ keys dict := by
  obtain ⟨-, rfl⟩ := CheckedStores.store_eq_ok_iff.1 h
  exact Dicts.mem_keys_insert

theorem accessStep_spec {state state' : AccessState} {access : String × Json}
    (h : accessStep texts message state access = .ok state') :
    state'.refs ≠ [] ∧ (∀ id ∈ keys state.dictionary, id ∈ keys state'.dictionary) ∧
      ((∀ id ∈ state.ids, id ∈ keys state.dictionary) →
        ∀ id ∈ state'.ids, id ∈ keys state'.dictionary) := by
  obtain ⟨summary, -, h⟩ := bind_eq_ok.mp h
  obtain ⟨counts, -, h⟩ := bind_eq_ok.mp h
  obtain ⟨dictionary, hstore, h⟩ := bind_eq_ok.mp h
  obtain rfl := Except.ok.inj h
  have hnew : summaryId texts summary ∈ keys dictionary := (mem_keys_store hstore).2 (Or.inl rfl)
  have hold : ∀ id ∈ keys state.dictionary, id ∈ keys dictionary :=
    fun id hid => (mem_keys_store hstore).2 (Or.inr hid)
  refine ⟨insert_ne_nil _ _ _, hold, fun hclosed id hid => ?_⟩
  have hbefore : ∀ id ∈ state.ids, id ∈ keys dictionary := fun id hid => hold id (hclosed id hid)
  rcases mem_referenced.1 hid with href | hreceiver | hneighbor
  · rcases mem_values_insert href with rfl | hmem
    · exact hnew
    · exact hbefore id (mem_referenced.2 (Or.inl hmem))
  · simp only at hreceiver
    split_ifs at hreceiver with hof
    · exact Option.some.inj hreceiver ▸ hnew
    · exact hbefore id (mem_referenced.2 (Or.inr (Or.inl hreceiver)))
  · simp only at hneighbor
    split_ifs at hneighbor with hof
    · exact Option.some.inj hneighbor ▸ hnew
    · exact hbefore id (mem_referenced.2 (Or.inr (Or.inr hneighbor)))

/-- What the loop over the endpoints leaves. -/
theorem accessLoop_spec {access : JsonDict} {state state' : AccessState}
    (hrefs : state.refs = [])
    (h : access.foldlM (accessStep texts message) state = .ok state') :
    (state'.refs = [] ↔ access = []) ∧
      (∀ id ∈ keys state.dictionary, id ∈ keys state'.dictionary) ∧
      ((∀ id ∈ state.ids, id ∈ keys state.dictionary) →
        ∀ id ∈ state'.ids, id ∈ keys state'.dictionary) := by
  refine foldlM_induction (P := fun done now => (now.refs = [] ↔ done = []) ∧
    (∀ id ∈ keys state.dictionary, id ∈ keys now.dictionary) ∧
      ((∀ id ∈ state.ids, id ∈ keys state.dictionary) →
        ∀ id ∈ now.ids, id ∈ keys now.dictionary)) ?_ ?_ h
  · rintro done entry now next ⟨-, hkeys, hclosed⟩ hnext
    obtain ⟨hne, hgrow, hstep⟩ := accessStep_spec hnext
    refine ⟨?_, fun id hid => hgrow id (hkeys id hid), fun hstart => hstep (hclosed hstart)⟩
    exact iff_of_false hne (append_ne_nil_of_right_ne_nil _ (cons_ne_nil _ _))
  · exact ⟨iff_of_true hrefs rfl, fun _ => id, id⟩

/-- The potential access of a constraint leaves its other parameters, and refers to
summaries that are there. -/
theorem compactAccess_spec {dicts dicts' : Dictionaries} {state state' : MessageState}
    {parameters rest : JsonDict}
    (h : compactAccess texts message dicts state parameters = .ok (dicts', state', rest)) :
    rest = withoutAccess parameters ∧
      dicts'.physicalEvidence = dicts.physicalEvidence ∧
      dicts'.identityInventory = dicts.identityInventory ∧
      state'.physicalRefs = state.physicalRefs ∧
      (∀ id ∈ keys dicts.access, id ∈ keys dicts'.access) ∧
      ((∀ id ∈ state.accessIds, id ∈ keys dicts.access) →
        ∀ id ∈ state'.accessIds, id ∈ keys dicts'.access) := by
  obtain ⟨items, hitems, h⟩ := bind_eq_ok.mp h
  obtain ⟨result, hresult, h⟩ := bind_eq_ok.mp h
  have haccess : accessItems parameters = items := by
    rw [accessItems]
    cases hvalue : ((parameters.lookup "potential_physical_access").getD (.object [])).orEmpty with
    | object entries =>
      rw [hvalue] at hitems
      exact Except.ok.inj hitems
    | _ => rw [hvalue] at hitems; cases hitems
  obtain ⟨hnil, hgrow, hclosed⟩ := accessLoop_spec rfl hresult
  have hitemsNil : result.refs = [] ↔ accessItems parameters = [] := by
    rw [hnil, haccess, ← length_eq_zero_iff, length_insertionSort, length_eq_zero_iff]
  have hkeep : (∀ id ∈ state.accessIds, id ∈ keys dicts.access) →
      ∀ id ∈ result.ids, id ∈ keys result.dictionary := by
    intro hstart
    refine hclosed fun id hid => hstart id ?_
    exact mem_referenced.2 (Or.inr ((mem_referenced.1 hid).resolve_left not_mem_nil))
  by_cases hrefs : result.refs = []
  · rw [if_pos hrefs] at h
    obtain ⟨rfl, rfl, rfl⟩ : _ ∧ _ ∧ _ := by simpa using Except.ok.inj h
    refine ⟨?_, rfl, rfl, rfl, hgrow, fun hstart id hid => ?_⟩
    · rw [withoutAccess, if_pos (hitemsNil.1 hrefs)]
    · rcases mem_referenced.1 hid with href | hother
      · exact hgrow id (hstart id (mem_referenced.2 (Or.inl href)))
      · exact hkeep hstart id (mem_referenced.2 (Or.inr hother))
  · rw [if_neg hrefs] at h
    obtain ⟨-, -, h⟩ := bind_eq_ok.mp h
    obtain ⟨halo, -, h⟩ := bind_eq_ok.mp h
    obtain ⟨-, -, h⟩ := bind_eq_ok.mp h
    obtain ⟨rfl, rfl, rfl⟩ : _ ∧ _ ∧ _ := by simpa using Except.ok.inj h
    refine ⟨?_, rfl, rfl, rfl, hgrow, hkeep⟩
    rw [withoutAccess, if_neg (mt hitemsNil.2 hrefs)]

end Access

/-! ## The physical evidence of a constraint -/

section Evidence

variable {texts : PromptTexts}

theorem evidenceOf_eq_ok_iff {evidence : Json} {id : String} {value : Json} :
    evidenceOf texts evidence = .ok (id, value) ↔
      ∃ entries raw, evidence = .object entries ∧ entries.lookup "evidence_id" = some raw ∧
        id = texts.str raw ∧ value = withoutEmpty (.object (pop "evidence_id" entries)) := by
  rw [evidenceOf, bind_eq_ok]
  constructor
  · rintro ⟨entries, hentries, h⟩
    cases evidence with
    | object entries =>
      obtain rfl := Except.ok.inj hentries
      cases hraw : entries.lookup "evidence_id" with
      | none => rw [hraw] at h; cases h
      | some raw =>
        rw [hraw] at h
        obtain ⟨rfl, rfl⟩ := Prod.mk.inj (Except.ok.inj h)
        exact ⟨entries, raw, rfl, hraw, rfl, rfl⟩
    | _ => cases hentries
  · rintro ⟨entries, raw, rfl, hraw, rfl, rfl⟩
    refine ⟨entries, rfl, ?_⟩
    rw [hraw]
    rfl

theorem evidenceId_of_ok {evidence : Json} {id : String} {value : Json}
    (h : evidenceOf texts evidence = .ok (id, value)) : evidenceId texts evidence = id := by
  obtain ⟨entries, raw, rfl, hraw, rfl, -⟩ := evidenceOf_eq_ok_iff.1 h
  rw [evidenceId, hraw, Option.getD_some]

/-- The evidence is stored under its id. -/
def EvidenceStored (texts : PromptTexts) (dictionary : JsonDict) (evidence : Json) : Prop :=
  ∃ id value, evidenceOf texts evidence = .ok (id, value) ∧ Resolves PyEq dictionary id value

/-- What the loop over the evidence leaves. -/
theorem evidenceLoop_spec {evidence : List Json} {dictionary dictionary' : JsonDict}
    {refs : List String}
    (h : evidence.foldlM (evidenceStep texts) (dictionary, []) = .ok (dictionary', refs)) :
    refs = evidence.map (evidenceId texts) ∧
      (∀ item ∈ evidence, EvidenceStored texts dictionary' item) ∧
      (∀ key value, Resolves PyEq dictionary key value → Resolves PyEq dictionary' key value) ∧
      ((keys dictionary).Nodup → (keys dictionary').Nodup) := by
  refine foldlM_induction (P := fun done now => now.2 = done.map (evidenceId texts) ∧
    (∀ item ∈ done, EvidenceStored texts now.1 item) ∧
      (∀ key value, Resolves PyEq dictionary key value → Resolves PyEq now.1 key value) ∧
      ((keys dictionary).Nodup → (keys now.1).Nodup)) ?_
    ⟨rfl, fun _ h => absurd h not_mem_nil, fun _ _ => id, id⟩ h
  rintro done item now next ⟨hrefs, hstored, hgrow, hnodup⟩ hnext
  obtain ⟨⟨id, value⟩, hitem, hnext⟩ := bind_eq_ok.mp hnext
  obtain ⟨stored, hstore, hnext⟩ := bind_eq_ok.mp hnext
  obtain rfl := Except.ok.inj hnext
  refine ⟨?_, fun other hother => ?_,
    fun key v hv => (hgrow key v hv).store pyEq_equivalence hstore,
    fun hstart => CheckedStores.nodup_store (hnodup hstart) hstore⟩
  · rw [hrefs, map_append, map_singleton, evidenceId_of_ok hitem]
  · rcases mem_append.1 hother with hold | hnew
    · obtain ⟨oldId, oldValue, hof, hresolves⟩ := hstored other hold
      exact ⟨oldId, oldValue, hof, hresolves.store pyEq_equivalence hstore⟩
    · obtain rfl := mem_singleton.1 hnew
      exact ⟨id, value, hitem, CheckedStores.resolves_store pyEq_equivalence hstore⟩

/-! ## The inventories of a constraint -/

/-- The inventory that replaces a list of shared ids is stored. -/
def InventoryStored (texts : PromptTexts) (dictionary parameters : JsonDict) (key : String) :
    Prop :=
  ∃ count, Resolves PyEq dictionary (inventoryRef texts parameters key)
    (inventoryOf texts (getList parameters key) count).2

/-- What a step over the lists of shared ids leaves, where the list and `hard` are as they
were sent. -/
theorem inventoryStep_spec {parameters rest rest' dictionary dictionary' : JsonDict} {key : String}
    (hkey : rest.lookup key = parameters.lookup key)
    (hhard : rest.lookup "hard" = parameters.lookup "hard")
    (h : inventoryStep texts (evidenceRefs texts parameters ≠ []) (dictionary, rest) key =
      .ok (dictionary', rest')) :
    rest' = withInventory texts parameters rest key ∧
      (inventoried texts parameters key = true → InventoryStored texts dictionary' parameters key) ∧
      (∀ key value, Resolves PyEq dictionary key value → Resolves PyEq dictionary' key value) ∧
      ((keys dictionary).Nodup → (keys dictionary').Nodup) := by
  have hlist : getList rest key = getList parameters key := getList_congr hkey
  have hgiven : inventoried texts parameters key = ((getList rest key).truthy &&
      (decide (evidenceRefs texts parameters ≠ []) ||
        !((rest.lookup "hard").getD (.bool false)).truthy)) := by
    rw [inventoried, hlist, hhard]
  rw [inventoryStep] at h
  simp only [← hgiven] at h
  rw [withInventory]
  by_cases hinventoried : inventoried texts parameters key = true
  · rw [if_pos hinventoried] at h ⊢
    obtain ⟨count, -, h⟩ := bind_eq_ok.mp h
    obtain ⟨stored, hstore, h⟩ := bind_eq_ok.mp h
    obtain ⟨rfl, rfl⟩ := Prod.mk.inj (Except.ok.inj h)
    rw [hlist] at hstore
    refine ⟨?_, fun _ => ⟨count, CheckedStores.resolves_store pyEq_equivalence hstore⟩,
      fun k v hv => hv.store pyEq_equivalence hstore,
      fun hnodup => CheckedStores.nodup_store hnodup hstore⟩
    rw [hlist]
    rfl
  · rw [if_neg hinventoried] at h ⊢
    obtain ⟨rfl, rfl⟩ := Prod.mk.inj (Except.ok.inj h)
    exact ⟨rfl, fun h => absurd h hinventoried, fun _ _ => id, id⟩

end Evidence

/-! ## The parameters of a constraint as they are sent -/

section Sent

variable {texts : PromptTexts}

/-- A parameter that goes with the potential access. -/
def AccessDropped (parameters : JsonDict) (key : String) : Prop :=
  key = "potential_physical_access" ∨
    accessItems parameters ≠ [] ∧ (key = "halo_u_dbu" ∨ key = "halo_v_dbu")

instance (parameters : JsonDict) (key : String) : Decidable (AccessDropped parameters key) :=
  inferInstanceAs (Decidable (_ ∨ _ ∧ _))

theorem lookup_withoutAccess (parameters : JsonDict) (key : String) :
    (withoutAccess parameters).lookup key =
      if AccessDropped parameters key then none else parameters.lookup key := by
  rw [withoutAccess]
  by_cases hnil : accessItems parameters = []
  · simp only [hnil, if_true, lookup_pop, AccessDropped, ne_eq, not_true, false_and, or_false]
  · simp only [hnil, if_false, lookup_pop, AccessDropped, ne_eq, not_false_iff, true_and]
    by_cases hu : key = "halo_u_dbu" <;> by_cases hv : key = "halo_v_dbu" <;>
      by_cases haccess : key = "potential_physical_access" <;> simp [hu, hv, haccess]

/-- Names that are written to the parameters of a constraint. -/
def writtenNames : List String :=
  ["physical_dependency_evidence_refs", "shared_editable_object_ids_inventory_ref",
    "shared_proxy_bin_ids_inventory_ref"]

theorem lookup_withEvidenceRefs (parameters : JsonDict) (key : String) :
    (withEvidenceRefs texts parameters).lookup key =
      if key = "physical_dependency_evidence_refs" ∧ evidenceRefs texts parameters ≠ [] then
        some (strings (evidenceRefs texts parameters))
      else if AccessDropped parameters key ∨ key = "physical_dependency_evidence" then none
      else parameters.lookup key := by
  rw [withEvidenceRefs]
  by_cases hnil : evidenceRefs texts parameters = []
  · simp only [hnil, if_true, lookup_pop, lookup_withoutAccess, ne_eq, not_true, and_false,
      if_false]
    by_cases hkey : key = "physical_dependency_evidence" <;> simp [hkey]
  · simp only [hnil, if_false, Dicts.lookup_insert, lookup_pop, lookup_withoutAccess, ne_eq,
      not_false_iff, and_true]
    by_cases hkey : key = "physical_dependency_evidence" <;> simp [hkey]

theorem lookup_withInventory (parameters rest : JsonDict) (field key : String) :
    (withInventory texts parameters rest field).lookup key =
      if inventoried texts parameters field = true ∧ key = field ++ "_inventory_ref" then
        some (.string (inventoryRef texts parameters field))
      else if inventoried texts parameters field = true ∧ key = field then none
      else rest.lookup key := by
  rw [withInventory]
  by_cases hgiven : inventoried texts parameters field = true
  · simp only [hgiven, if_true, Dicts.lookup_insert, lookup_pop, true_and]
  · simp only [hgiven, if_false, false_and, Bool.false_eq_true]

/-- A parameter that something else takes the place of. -/
def Replaced (texts : PromptTexts) (parameters : JsonDict) (key : String) : Prop :=
  AccessDropped parameters key ∨ key = "physical_dependency_evidence" ∨
    key ∈ inventoryFields ∧ inventoried texts parameters key = true

instance (parameters : JsonDict) (key : String) : Decidable (Replaced texts parameters key) :=
  inferInstanceAs (Decidable (_ ∨ _ ∨ _))

theorem sentParameters_eq (parameters : JsonDict) :
    sentParameters texts parameters =
      withInventory texts parameters (withInventory texts parameters
        (withEvidenceRefs texts parameters) "shared_editable_object_ids")
        "shared_proxy_bin_ids" := rfl

/-- **A parameter** is sent as it is, unless something takes its place. -/
theorem lookup_sentParameters (parameters : JsonDict) {key : String} (hkey : key ∉ writtenNames) :
    (sentParameters texts parameters).lookup key =
      if Replaced texts parameters key then none else parameters.lookup key := by
  simp only [writtenNames, mem_cons, not_mem_nil, or_false, not_or] at hkey
  obtain ⟨hevidence, heditable, hproxy⟩ := hkey
  rw [sentParameters_eq, lookup_withInventory, lookup_withInventory, lookup_withEvidenceRefs]
  have hne : ¬ (key = "shared_proxy_bin_ids" ++ "_inventory_ref") := hproxy
  have hne' : ¬ (key = "shared_editable_object_ids" ++ "_inventory_ref") := heditable
  simp only [hne, hne', hevidence, and_false, false_and, if_false, Replaced, inventoryFields,
    mem_cons, not_mem_nil, or_false]
  by_cases hbin : key = "shared_proxy_bin_ids"
  · subst hbin
    by_cases hgiven : inventoried texts parameters "shared_proxy_bin_ids" = true <;>
      simp [hgiven]
  · by_cases hids : key = "shared_editable_object_ids"
    · subst hids
      by_cases hgiven : inventoried texts parameters "shared_editable_object_ids" = true <;>
        simp [hgiven]
    · simp [hbin, hids]

/-- The references to the physical evidence are sent. -/
theorem lookup_sentParameters_evidence (parameters : JsonDict) :
    (sentParameters texts parameters).lookup "physical_dependency_evidence_refs" =
      if evidenceRefs texts parameters = [] then
        parameters.lookup "physical_dependency_evidence_refs"
      else some (strings (evidenceRefs texts parameters)) := by
  rw [sentParameters_eq, lookup_withInventory, lookup_withInventory, lookup_withEvidenceRefs]
  have hdropped : ¬ AccessDropped parameters "physical_dependency_evidence_refs" := by
    simp [AccessDropped]
  by_cases hnil : evidenceRefs texts parameters = [] <;> simp [hnil, hdropped]

theorem mem_inventoryFields {key : String} :
    key ∈ inventoryFields ↔ key = "shared_editable_object_ids" ∨ key = "shared_proxy_bin_ids" := by
  simp [inventoryFields]

/-- The reference to an inventory is sent. -/
theorem lookup_sentParameters_inventory (parameters : JsonDict) {field : String}
    (hfield : field ∈ inventoryFields) :
    (sentParameters texts parameters).lookup (field ++ "_inventory_ref") =
      if inventoried texts parameters field = true then
        some (.string (inventoryRef texts parameters field))
      else parameters.lookup (field ++ "_inventory_ref") := by
  have hother : ∀ other ∈ inventoryFields, field ++ "_inventory_ref" ≠ other := by
    rcases mem_inventoryFields.1 hfield with rfl | rfl <;> decide
  have hdropped : ¬ AccessDropped parameters (field ++ "_inventory_ref") := by
    rintro (h | ⟨-, h | h⟩) <;>
      rcases mem_inventoryFields.1 hfield with rfl | rfl <;> exact absurd h (by decide)
  have hevidence : field ++ "_inventory_ref" ≠ "physical_dependency_evidence_refs" ∧
      field ++ "_inventory_ref" ≠ "physical_dependency_evidence" := by
    rcases mem_inventoryFields.1 hfield with rfl | rfl <;> decide
  have hsent : (withEvidenceRefs texts parameters).lookup (field ++ "_inventory_ref") =
      parameters.lookup (field ++ "_inventory_ref") := by
    rw [lookup_withEvidenceRefs, if_neg (fun h => hevidence.1 h.1),
      if_neg (fun h => h.elim hdropped hevidence.2)]
  rw [sentParameters_eq, lookup_withInventory]
  rcases mem_inventoryFields.1 hfield with rfl | rfl
  · have hne : ("shared_editable_object_ids" ++ "_inventory_ref" : String) ≠
        "shared_proxy_bin_ids" ++ "_inventory_ref" := by decide
    rw [if_neg (fun h => hne h.2), if_neg (fun h => hother _ (by simp [inventoryFields]) h.2),
      lookup_withInventory, hsent]
    split_ifs <;> simp_all
  · rw [lookup_withInventory, hsent]
    split_ifs <;> simp_all

theorem nodup_sentParameters {parameters : JsonDict} (h : (keys parameters).Nodup) :
    (keys (sentParameters texts parameters)).Nodup := by
  have haccess : (keys (withoutAccess parameters)).Nodup := by
    rw [withoutAccess]
    split_ifs
    · exact nodup_pop h
    · exact nodup_pop (nodup_pop (nodup_pop h))
  have hevidence : (keys (withEvidenceRefs texts parameters)).Nodup := by
    rw [withEvidenceRefs]
    split_ifs
    · exact nodup_pop haccess
    · exact Dicts.nodup_keys_insert (nodup_pop haccess)
  have hinventory : ∀ (rest : JsonDict) (field : String), (keys rest).Nodup →
      (keys (withInventory texts parameters rest field)).Nodup := by
    intro rest field hrest
    rw [withInventory]
    split_ifs
    · exact Dicts.nodup_keys_insert (nodup_pop hrest)
    · exact hrest
  rw [sentParameters_eq]
  exact hinventory _ _ (hinventory _ _ hevidence)

end Sent

/-! ## The loops over constraints and messages -/

section Loops

variable {texts : PromptTexts}

/-- Nothing is taken out of the dictionaries. -/
structure Dictionaries.Grows (before after : Dictionaries) : Prop where
  access : ∀ id ∈ keys before.access, id ∈ keys after.access
  physical : ∀ key value, Resolves PyEq before.physicalEvidence key value →
    Resolves PyEq after.physicalEvidence key value
  inventory : ∀ key value, Resolves PyEq before.identityInventory key value →
    Resolves PyEq after.identityInventory key value
  physicalKeys : (keys before.physicalEvidence).Nodup → (keys after.physicalEvidence).Nodup
  inventoryKeys : (keys before.identityInventory).Nodup → (keys after.identityInventory).Nodup

theorem Dictionaries.Grows.refl (dicts : Dictionaries) : dicts.Grows dicts :=
  ⟨fun _ => id, fun _ _ => id, fun _ _ => id, id, id⟩

theorem Dictionaries.Grows.trans {a b c : Dictionaries} (hab : a.Grows b) (hbc : b.Grows c) :
    a.Grows c where
  access := fun id hid => hbc.access id (hab.access id hid)
  physical := fun key value h => hbc.physical key value (hab.physical key value h)
  inventory := fun key value h => hbc.inventory key value (hab.inventory key value h)
  physicalKeys := fun h => hbc.physicalKeys (hab.physicalKeys h)
  inventoryKeys := fun h => hbc.inventoryKeys (hab.inventoryKeys h)

/-- The evidence and the inventories of a constraint are stored. -/
structure ConstraintStored (texts : PromptTexts) (dicts : Dictionaries)
    (constraint : StructuredConstraint) : Prop where
  evidence : ∀ item ∈ evidenceItems constraint.parameters,
    EvidenceStored texts dicts.physicalEvidence item
  inventory : ∀ field ∈ inventoryFields, inventoried texts constraint.parameters field = true →
    InventoryStored texts dicts.identityInventory constraint.parameters field

theorem ConstraintStored.grows {before after : Dictionaries} {constraint : StructuredConstraint}
    (h : ConstraintStored texts before constraint) (hgrows : before.Grows after) :
    ConstraintStored texts after constraint where
  evidence := fun item hitem => by
    obtain ⟨id, value, hof, hresolves⟩ := h.evidence item hitem
    exact ⟨id, value, hof, hgrows.physical id value hresolves⟩
  inventory := fun field hfield hgiven => by
    obtain ⟨count, hresolves⟩ := h.inventory field hfield hgiven
    exact ⟨count, hgrows.inventory _ _ hresolves⟩

theorem lookup_withEvidenceRefs_of_notMem (parameters : JsonDict) {key : String}
    (hkey : key ∈ ["hard", "shared_editable_object_ids", "shared_proxy_bin_ids"]) :
    (withEvidenceRefs texts parameters).lookup key = parameters.lookup key := by
  rw [lookup_withEvidenceRefs]
  simp only [mem_cons, not_mem_nil, or_false] at hkey
  rcases hkey with rfl | rfl | rfl <;> simp [AccessDropped]

/-- **One constraint.** -/
theorem compactConstraint_spec {message : NeighborMessage} {constraint : StructuredConstraint}
    {dicts dicts' : Dictionaries} {state state' : MessageState} {sent sent' : List Json}
    (h : compactConstraint texts message (dicts, state, sent) constraint =
      .ok (dicts', state', sent')) :
    sent' = sent ++ [withoutEmpty (sentConstraint texts message constraint)] ∧
      state'.physicalRefs = state.physicalRefs ++ evidenceRefs texts constraint.parameters ∧
      dicts.Grows dicts' ∧ ConstraintStored texts dicts' constraint ∧
      ((∀ id ∈ state.accessIds, id ∈ keys dicts.access) →
        ∀ id ∈ state'.accessIds, id ∈ keys dicts'.access) := by
  obtain ⟨⟨accessDicts, accessState, rest⟩, haccess, h⟩ := bind_eq_ok.mp h
  obtain ⟨rfl, hphysical, hinventory, hrefs, hgrow, hclosed⟩ := compactAccess_spec haccess
  obtain ⟨evidence, hevidence, h⟩ := bind_eq_ok.mp h
  obtain ⟨⟨physical, refs⟩, hloop, h⟩ := bind_eq_ok.mp h
  have hsame : getList (withoutAccess constraint.parameters) "physical_dependency_evidence" =
      getList constraint.parameters "physical_dependency_evidence" := by
    apply getList_congr
    rw [lookup_withoutAccess, if_neg (by simp [AccessDropped])]
  have hitems : evidenceItems constraint.parameters = evidence := by
    rw [evidenceItems, ← hsame, hevidence]
    rfl
  obtain ⟨hrefsEq, hstored, hphysicalGrow, hphysicalNodup⟩ := evidenceLoop_spec hloop
  have hids : refs = evidenceRefs texts constraint.parameters := by
    rw [hrefsEq, evidenceRefs, hitems]
  subst hids
  -- the two lists of shared ids, one after the other
  obtain ⟨⟨inventories, sentParams⟩, hinventories, h⟩ := bind_eq_ok.mp h
  obtain ⟨rfl, rfl, rfl⟩ : _ ∧ _ ∧ _ := by simpa using Except.ok.inj h
  rw [inventoryFields, foldlM_cons] at hinventories
  obtain ⟨⟨first, firstRest⟩, hfirst, hinventories⟩ := bind_eq_ok.mp hinventories
  rw [foldlM_cons] at hinventories
  obtain ⟨⟨second, secondRest⟩, hsecond, hinventories⟩ := bind_eq_ok.mp hinventories
  obtain ⟨rfl, rfl⟩ := Prod.mk.inj (Except.ok.inj hinventories)
  obtain ⟨rfl, hfirstStored, hfirstGrow, hfirstNodup⟩ := inventoryStep_spec
    (lookup_withEvidenceRefs_of_notMem constraint.parameters (by simp))
    (lookup_withEvidenceRefs_of_notMem constraint.parameters (by simp)) hfirst
  have hbins : ∀ key ∈ ["hard", "shared_proxy_bin_ids"],
      (withInventory texts constraint.parameters (withEvidenceRefs texts constraint.parameters)
        "shared_editable_object_ids").lookup key = constraint.parameters.lookup key := by
    intro key hkey
    simp only [mem_cons, not_mem_nil, or_false] at hkey
    have href : key ≠ "shared_editable_object_ids" ++ "_inventory_ref" := by
      rcases hkey with rfl | rfl <;> decide
    have hfield : key ≠ "shared_editable_object_ids" := by
      rcases hkey with rfl | rfl <;> decide
    rw [lookup_withInventory, if_neg (fun h => href h.2), if_neg (fun h => hfield h.2)]
    refine lookup_withEvidenceRefs_of_notMem _ ?_
    rcases hkey with rfl | rfl <;> simp
  obtain ⟨rfl, hsecondStored, hsecondGrow, hsecondNodup⟩ := inventoryStep_spec
    (hbins _ (by simp)) (hbins _ (by simp)) hsecond
  refine ⟨rfl, by rw [hrefs], ⟨hgrow, ?_, ?_, ?_, ?_⟩, ⟨?_, ?_⟩, hclosed⟩
  · intro key value hkey
    exact hphysicalGrow key value (hphysical ▸ hkey)
  · intro key value hkey
    exact hsecondGrow key value (hfirstGrow key value (hinventory ▸ hkey))
  · exact fun hnodup => hphysicalNodup (hphysical ▸ hnodup)
  · exact fun hnodup => hsecondNodup (hfirstNodup (hinventory ▸ hnodup))
  · intro item hitem
    exact hstored item (hitems ▸ hitem)
  · intro field hfield hgiven
    rcases mem_inventoryFields.1 hfield with rfl | rfl
    · obtain ⟨count, hcount⟩ := hfirstStored hgiven
      exact ⟨count, hsecondGrow _ _ hcount⟩
    · exact hsecondStored hgiven

/-- The loop over the constraints of a message. -/
theorem constraintLoop_spec {message : NeighborMessage} {constraints : List StructuredConstraint}
    {dicts dicts' : Dictionaries} {state : MessageState} {sent : List Json}
    (h : constraints.foldlM (compactConstraint texts message) (dicts, {}, []) =
      .ok (dicts', state, sent)) :
    sent = constraints.map (fun c => withoutEmpty (sentConstraint texts message c)) ∧
      state.physicalRefs = constraints.flatMap (fun c => evidenceRefs texts c.parameters) ∧
      dicts.Grows dicts' ∧ (∀ c ∈ constraints, ConstraintStored texts dicts' c) ∧
      ∀ id ∈ state.accessIds, id ∈ keys dicts'.access := by
  refine foldlM_induction (P := fun done now =>
    now.2.2 = done.map (fun c => withoutEmpty (sentConstraint texts message c)) ∧
      now.2.1.physicalRefs = done.flatMap (fun c => evidenceRefs texts c.parameters) ∧
      dicts.Grows now.1 ∧ (∀ c ∈ done, ConstraintStored texts now.1 c) ∧
      ∀ id ∈ now.2.1.accessIds, id ∈ keys now.1.access) ?_ ?_ h
  · rintro done constraint ⟨now, nowState, nowSent⟩ ⟨next, nextState, nextSent⟩
      ⟨hsent, hrefs, hgrows, hstored, hclosed⟩ hnext
    obtain ⟨hsent', hrefs', hgrows', hstored', hclosed'⟩ := compactConstraint_spec hnext
    refine ⟨?_, ?_, hgrows.trans hgrows', fun c hc => ?_, hclosed' hclosed⟩
    · simp only at hsent
      rw [hsent', hsent, map_append, map_singleton]
    · simp only at hrefs
      rw [hrefs', hrefs, flatMap_append, flatMap_singleton]
    · rcases mem_append.1 hc with hold | hnew
      · exact (hstored c hold).grows hgrows'
      · exact mem_singleton.1 hnew ▸ hstored'
  · exact ⟨rfl, rfl, .refl dicts, fun _ hc => absurd hc not_mem_nil,
      fun _ hid => absurd hid not_mem_nil⟩

/-- The access summaries that a value refers to. -/
def idsOf : RefField → Json → List String
  | .receiverAccess, value => value.textOf.toList
  | .neighborAccess, value => value.textOf.toList
  | .accessRefs, .object refs => refs.filterMap fun entry => entry.2.textOf
  | _, _ => []

theorem textOf_withoutEmpty (value : Json) : (withoutEmpty value).textOf = value.textOf := by
  cases value <;> rfl

/-- Pruning adds no reference. -/
theorem idsOf_withoutEmpty {field : RefField} {value : Json} {id : String}
    (h : id ∈ idsOf field (withoutEmpty value)) : id ∈ idsOf field value := by
  cases field with
  | receiverAccess => rwa [idsOf, textOf_withoutEmpty] at h
  | neighborAccess => rwa [idsOf, textOf_withoutEmpty] at h
  | accessRefs =>
    cases value with
    | object refs =>
      rw [withoutEmpty, idsOf, mem_filterMap] at h
      obtain ⟨entry, hentry, htext⟩ := h
      obtain ⟨old, hmem, -, hold⟩ := mem_withoutEmptyEntries.1 hentry
      rw [idsOf, mem_filterMap]
      exact ⟨(entry.1, old), hmem, by rwa [← hold, textOf_withoutEmpty] at htext⟩
    | _ => exact h
  | locality => exact absurd h not_mem_nil

theorem idsOf_rowRefs {state : MessageState} {field : RefField} {id : String}
    (h : id ∈ idsOf field (rowRefs state field)) : id ∈ state.accessIds := by
  rw [MessageState.accessIds, mem_referenced]
  cases field with
  | receiverAccess =>
    refine Or.inr (Or.inl ?_)
    rw [rowRefs, idsOf] at h
    cases href : state.receiverRef <;> rw [href] at h <;> simp_all [Json.textOf]
  | neighborAccess =>
    refine Or.inr (Or.inr ?_)
    rw [rowRefs, idsOf] at h
    cases href : state.neighborRef <;> rw [href] at h <;> simp_all [Json.textOf]
  | accessRefs =>
    refine Or.inl ?_
    rw [rowRefs] at h
    split_ifs at h
    · exact absurd h not_mem_nil
    · simpa [idsOf, Json.textOf] using h
  | locality => exact absurd h not_mem_nil

/-- A row refers to access summaries that are there. -/
def RowClosed (ids : List String) (row : Row) : Prop :=
  ∀ field value, row.refs field = some value → ∀ id ∈ idsOf field value, id ∈ ids

/-- **One message.** -/
theorem compactMessage_spec {message : NeighborMessage} {dicts dicts' : Dictionaries}
    {rows rows' : List Row}
    (h : compactMessage texts (dicts, rows) message = .ok (dicts', rows')) :
    (∃ row, rows' = rows ++ [row] ∧ row.key = message.key ∧ row.lists = sentLists texts message ∧
      RowClosed (keys dicts'.access) row) ∧
      dicts.Grows dicts' ∧ ∀ c ∈ message.constraints, ConstraintStored texts dicts' c := by
  obtain ⟨⟨now, state, sent⟩, hloop, h⟩ := bind_eq_ok.mp h
  obtain ⟨rfl, hrefs, hgrows, hstored, hclosed⟩ := constraintLoop_spec hloop
  obtain ⟨rfl, rfl⟩ := Prod.mk.inj (Except.ok.inj h)
  refine ⟨⟨_, rfl, rfl, ?_, ?_⟩, hgrows, hstored⟩
  · funext field
    simp only [hrefs]
    rfl
  · intro field value hvalue id hid
    simp only [prunedField] at hvalue
    split_ifs at hvalue
    obtain rfl := Option.some.inj hvalue
    exact hclosed id (idsOf_rowRefs (idsOf_withoutEmpty hid))

/-- The loop over the messages. -/
theorem messageLoop_spec {messages : List NeighborMessage} {dicts : Dictionaries}
    {rows : List Row}
    (h : messages.foldlM (compactMessage texts) ({}, []) = .ok (dicts, rows)) :
    rows.map (fun row => (row.key, row.lists)) =
        messages.map (fun message => (message.key, sentLists texts message)) ∧
      (∀ row ∈ rows, RowClosed (keys dicts.access) row) ∧
      (∀ message ∈ messages, ∀ c ∈ message.constraints, ConstraintStored texts dicts c) ∧
      (keys dicts.physicalEvidence).Nodup ∧ (keys dicts.identityInventory).Nodup := by
  refine foldlM_induction (P := fun done now =>
    now.2.map (fun row => (row.key, row.lists)) =
        done.map (fun message => (message.key, sentLists texts message)) ∧
      (∀ row ∈ now.2, RowClosed (keys now.1.access) row) ∧
      (∀ message ∈ done, ∀ c ∈ message.constraints, ConstraintStored texts now.1 c) ∧
      (keys now.1.physicalEvidence).Nodup ∧ (keys now.1.identityInventory).Nodup) ?_ ?_ h
  · rintro done message ⟨now, nowRows⟩ ⟨next, nextRows⟩
      ⟨hrows, hclosed, hstored, hphysical, hinventory⟩ hnext
    obtain ⟨⟨row, rfl, hkey, hlists, hrow⟩, hgrows, hnew⟩ := compactMessage_spec hnext
    refine ⟨?_, fun other hother => ?_, fun other hother c hc => ?_, hgrows.physicalKeys hphysical,
      hgrows.inventoryKeys hinventory⟩
    · simp only at hrows
      rw [map_append, map_append, hrows, map_singleton, map_singleton, hkey, hlists]
    · rcases mem_append.1 hother with hold | hlast
      · exact fun field value hvalue id hid =>
          hgrows.access id (hclosed other hold field value hvalue id hid)
      · exact mem_singleton.1 hlast ▸ hrow
    · rcases mem_append.1 hother with hold | hlast
      · exact (hstored other hold c hc).grows hgrows
      · exact hnew c (mem_singleton.1 hlast ▸ hc)
  · exact ⟨rfl, fun _ h => absurd h not_mem_nil, fun _ h => absurd h not_mem_nil,
      nodup_nil, nodup_nil⟩

/-! ## The loop over the rows -/

theorem addRef_spec {row : Row} {field : RefField} {refs refs' : RefField → Option Json}
    (h : addRef row refs field = .ok refs') {other : RefField} {value : Json}
    (hvalue : refs' other = some value) :
    refs other = some value ∨ row.refs other = some value := by
  rw [addRef] at h
  cases hrow : row.refs field with
  | none =>
    rw [hrow] at h
    exact Or.inl (Except.ok.inj h ▸ hvalue)
  | some given =>
    simp only [hrow] at h
    obtain ⟨-, h⟩ := guard_eq_ok.1 h
    obtain rfl := Except.ok.inj h
    by_cases hother : other = field
    · subst hother
      rw [Function.update_self] at hvalue
      exact Or.inr (hrow.trans hvalue)
    · rw [Function.update_of_ne hother] at hvalue
      exact Or.inl hvalue

theorem refLoop_spec {row : Row} {fields : List RefField} {refs refs' : RefField → Option Json}
    (h : fields.foldlM (addRef row) refs = .ok refs') {other : RefField} {value : Json}
    (hvalue : refs' other = some value) :
    refs other = some value ∨ row.refs other = some value := by
  have hall : ∀ other value, refs' other = some value →
      refs other = some value ∨ row.refs other = some value := by
    refine foldlM_induction (P := fun _ now => ∀ other value, now other = some value →
      refs other = some value ∨ row.refs other = some value) ?_ (fun _ _ => Or.inl) h
    intro done field now next hnow hnext other value hvalue
    rcases addRef_spec hnext hvalue with hold | hnew
    · exact hnow other value hold
    · exact Or.inr hnew
  exact hall other value hvalue

/-- The envelope under a key. -/
def envelopeAt (grouped : List (EnvelopeKey × Envelope)) (key : EnvelopeKey) : Envelope :=
  (grouped.lookup key).getD {}

/-- The loop over the rows: an envelope has the lists of all rows with its key. -/
theorem rowLoop_spec {rows : List Row} {grouped : List (EnvelopeKey × Envelope)}
    (h : rows.foldlM addRow [] = .ok grouped) :
    (grouped.map (·.1)).Nodup ∧
      (∀ key, key ∈ grouped.map (·.1) ↔ ∃ row ∈ rows, row.key = key) ∧
      (∀ key field, (envelopeAt grouped key).lists field =
        (rows.filter fun row => row.key = key).flatMap fun row => row.lists field) ∧
      ∀ key field value, (envelopeAt grouped key).refs field = some value →
        ∃ row ∈ rows, row.key = key ∧ row.refs field = some value := by
  refine foldlM_induction (P := fun done now => (now.map (·.1)).Nodup ∧
    (∀ key, key ∈ now.map (·.1) ↔ ∃ row ∈ done, row.key = key) ∧
      (∀ key field, (envelopeAt now key).lists field =
        (done.filter fun row => row.key = key).flatMap fun row => row.lists field) ∧
      ∀ key field value, (envelopeAt now key).refs field = some value →
        ∃ row ∈ done, row.key = key ∧ row.refs field = some value) ?_ ?_ h
  · rintro done row now next ⟨hnodup, hkeys, hlists, hrefs⟩ hnext
    obtain ⟨refs, hloop, hnext⟩ := bind_eq_ok.mp hnext
    obtain rfl := Except.ok.inj hnext
    have hat : ∀ key, envelopeAt (Dicts.insert row.key
        { lists := fun field => ((now.lookup row.key).getD {}).lists field ++ row.lists field,
          refs := refs } now) key =
        if key = row.key then
          { lists := fun field => ((now.lookup row.key).getD {}).lists field ++ row.lists field,
            refs := refs }
        else envelopeAt now key := by
      intro key
      rw [envelopeAt, Dicts.lookup_insert]
      split_ifs <;> rfl
    refine ⟨Dicts.nodup_keys_insert hnodup, fun key => ?_, fun key field => ?_,
      fun key field value hvalue => ?_⟩
    · rw [Dicts.mem_keys_insert, hkeys]
      simp only [mem_append, mem_singleton]
      grind
    · rw [hat, filter_append, flatMap_append, ← hlists]
      by_cases hkey : key = row.key
      · subst hkey
        simp [envelopeAt]
      · simp [hkey, Ne.symm hkey]
    · rw [hat] at hvalue
      split_ifs at hvalue with hkey
      · rcases refLoop_spec hloop hvalue with hold | hnew
        · obtain ⟨old, hmem, hold⟩ := hrefs row.key field value hold
          exact ⟨old, mem_append_left _ hmem, by rw [hkey]; exact hold⟩
        · exact ⟨row, mem_append_right _ (mem_singleton_self row), hkey.symm, hnew⟩
      · obtain ⟨old, hmem, hold⟩ := hrefs key field value hvalue
        exact ⟨old, mem_append_left _ hmem, hold⟩
  · refine ⟨nodup_nil, fun key => ?_, fun key field => rfl, fun key field value hvalue => ?_⟩
    · simp
    · cases hvalue

/-! ## The loop over the envelopes -/

theorem mem_unique {items : List Json} {item : Json} (h : item ∈ unique texts items) :
    item ∈ items := by
  have hsub : ∀ (l : List Json) (seen : List String),
      ∀ x ∈ Merges.keepFirst texts.stableHash seen l, x ∈ l := by
    intro l
    induction l with
    | nil => exact fun _ _ hx => hx
    | cons head tail ih =>
      intro seen x hx
      rw [Merges.keepFirst] at hx
      split_ifs at hx with hseen
      · exact mem_cons_of_mem head (ih _ x hx)
      · rcases mem_cons.1 hx with rfl | hx
        · exact mem_cons_self
        · exact mem_cons_of_mem head (ih _ x hx)
  exact hsub items [] item h

/-- Each item is kept, or one with its hash is. -/
theorem exists_unique_of_mem {items : List Json} {item : Json} (h : item ∈ items) :
    ∃ other ∈ unique texts items, texts.stableHash other = texts.stableHash item := by
  have hmem : texts.stableHash item ∈ (unique texts items).map texts.stableHash ++ [] := by
    rw [unique, Merges.mem_identities_keepFirst, append_nil]
    exact mem_map_of_mem h
  rw [append_nil] at hmem
  exact mem_map.1 hmem

/-- The constraints of an envelope are stored, each under its id. -/
theorem storeLoop_spec {constraints : List Json} {dictionary dictionary' : JsonDict}
    (h : constraints.foldlM (storeConstraint texts) dictionary = .ok dictionary') :
    (∀ c ∈ constraints, Resolves PyEq dictionary' (constraintId texts c) c) ∧
      (∀ key value, Resolves PyEq dictionary key value → Resolves PyEq dictionary' key value) ∧
      (∀ entry ∈ dictionary', entry ∈ dictionary ∨
        entry.1 = constraintId texts entry.2 ∧ entry.2 ∈ constraints) ∧
      ((keys dictionary).Nodup → (keys dictionary').Nodup) := by
  refine foldlM_induction (P := fun done now =>
    (∀ c ∈ done, Resolves PyEq now (constraintId texts c) c) ∧
      (∀ key value, Resolves PyEq dictionary key value → Resolves PyEq now key value) ∧
      (∀ entry ∈ now, entry ∈ dictionary ∨ entry.1 = constraintId texts entry.2 ∧ entry.2 ∈ done) ∧
      ((keys dictionary).Nodup → (keys now).Nodup)) ?_ ?_ h
  · rintro done c now next ⟨hresolves, hgrow, hmem, hnodup⟩ hnext
    refine ⟨fun other hother => ?_, fun key value hv => (hgrow key value hv).store
      pyEq_equivalence hnext, fun entry hentry => ?_,
      fun hstart => CheckedStores.nodup_store (hnodup hstart) hnext⟩
    · rcases mem_append.1 hother with hold | hnew
      · exact (hresolves other hold).store pyEq_equivalence hnext
      · exact mem_singleton.1 hnew ▸ CheckedStores.resolves_store pyEq_equivalence hnext
    · rcases CheckedStores.mem_of_store hnext hentry with hold | rfl
      · rcases hmem entry hold with hstart | ⟨hid, hdone⟩
        · exact Or.inl hstart
        · exact Or.inr ⟨hid, mem_append_left _ hdone⟩
      · exact Or.inr ⟨rfl, mem_append_right _ (mem_singleton_self c)⟩
  · exact ⟨fun _ hc => absurd hc not_mem_nil, fun _ _ => id, fun _ => Or.inl, id⟩

/-- The loop over the envelopes. -/
theorem mergeLoop_spec {groups : List (EnvelopeKey × Envelope)} {constraints : JsonDict}
    {merged : List JsonDict}
    (h : groups.foldlM (mergeEnvelope texts) ([], []) = .ok (constraints, merged)) :
    merged = groups.map (fun group => envelopeDict texts group.1 group.2) ∧
      (∀ group ∈ groups, ∀ c ∈ unique texts (group.2.lists .constraints),
        Resolves PyEq constraints (constraintId texts c) c) ∧
      (∀ entry ∈ constraints, entry.1 = constraintId texts entry.2 ∧
        ∃ group ∈ groups, entry.2 ∈ group.2.lists .constraints) ∧
      (keys constraints).Nodup := by
  refine foldlM_induction (P := fun done now =>
    now.2 = done.map (fun group => envelopeDict texts group.1 group.2) ∧
      (∀ group ∈ done, ∀ c ∈ unique texts (group.2.lists .constraints),
        Resolves PyEq now.1 (constraintId texts c) c) ∧
      (∀ entry ∈ now.1, entry.1 = constraintId texts entry.2 ∧
        ∃ group ∈ done, entry.2 ∈ group.2.lists .constraints) ∧
      (keys now.1).Nodup) ?_ ?_ h
  · rintro done group ⟨now, nowRows⟩ next ⟨hrows, hresolves, hmem, hnodup⟩ hnext
    obtain ⟨dictionary, hloop, hnext⟩ := bind_eq_ok.mp hnext
    obtain rfl := Except.ok.inj hnext
    obtain ⟨hnew, hgrow, hentries, hkeys⟩ := storeLoop_spec hloop
    refine ⟨?_, fun other hother c hc => ?_, fun entry hentry => ?_, hkeys hnodup⟩
    · simp only at hrows
      rw [map_append, map_singleton, hrows]
    · rcases mem_append.1 hother with hold | hlast
      · exact hgrow _ _ (hresolves other hold c hc)
      · obtain rfl := mem_singleton.1 hlast
        exact hnew c hc
    · rcases hentries entry hentry with hold | ⟨hid, hc⟩
      · obtain ⟨hid, old, hgroup, hlists⟩ := hmem entry hold
        exact ⟨hid, old, mem_append_left _ hgroup, hlists⟩
      · exact ⟨hid, group, mem_append_right _ (mem_singleton_self group), mem_unique hc⟩
  · exact ⟨rfl, fun _ h => absurd h not_mem_nil, fun _ h => absurd h not_mem_nil,
      nodup_nil⟩

/-! ## The whole compaction -/

/-- The messages of one neighbour in one round. -/
def messagesAt (messages : List NeighborMessage) (key : EnvelopeKey) : List NeighborMessage :=
  messages.filter fun message => message.key = key

/-- What a compaction that returns has built. -/
structure Built (texts : PromptTexts) (messages : List NeighborMessage) (dicts : Dictionaries)
    (groups : List (EnvelopeKey × Envelope)) (constraints : JsonDict) (result : Compaction) :
    Prop where
  stored : ∀ message ∈ messages, ∀ c ∈ message.constraints, ConstraintStored texts dicts c
  physicalNodup : (keys dicts.physicalEvidence).Nodup
  inventoryNodup : (keys dicts.identityInventory).Nodup
  groupsNodup : (groups.map (·.1)).Nodup
  mem_groups : ∀ key, key ∈ groups.map (·.1) ↔ ∃ message ∈ messages, message.key = key
  lists : ∀ group ∈ groups, ∀ field, group.2.lists field =
    (messagesAt messages group.1).flatMap fun message => sentLists texts message field
  refs : ∀ group ∈ groups, ∀ field value, group.2.refs field = some value →
    ∀ id ∈ idsOf field value, id ∈ keys dicts.access
  resolves : ∀ group ∈ groups, ∀ c ∈ unique texts (group.2.lists .constraints),
    Resolves PyEq constraints (constraintId texts c) c
  constraintIds : ∀ entry ∈ constraints, entry.1 = constraintId texts entry.2 ∧
    ∃ group ∈ groups, entry.2 ∈ group.2.lists .constraints
  constraintsNodup : (keys constraints).Nodup
  rows : result.rows = (groups.map fun group => envelopeDict texts group.1 group.2).map
    (hoistReceiverRef (commonReceiverRef
      (groups.map fun group => envelopeDict texts group.1 group.2)))
  access : result.access = dicts.access
  facts : result.facts = withoutEmptyEntries
    [("receiver_potential_access_ref", (commonReceiverRef (groups.map fun group =>
        envelopeDict texts group.1 group.2)).elim .null .string),
      ("constraints", .object constraints),
      ("physical_dependency_evidence", .object dicts.physicalEvidence),
      ("identity_inventories", .object dicts.identityInventory)]

theorem envelopeAt_of_mem {grouped : List (EnvelopeKey × Envelope)}
    (hnodup : (grouped.map (·.1)).Nodup) {group : EnvelopeKey × Envelope} (h : group ∈ grouped) :
    envelopeAt grouped group.1 = group.2 := by
  rw [envelopeAt, Dicts.lookup_of_mem hnodup h, Option.getD_some]

/-- **The compaction**, where it returns. -/
theorem compactNeighborMessages_built {messages : List NeighborMessage} {result : Compaction}
    (h : compactNeighborMessages texts messages = .ok result) :
    ∃ dicts groups constraints, Built texts messages dicts groups constraints result := by
  obtain ⟨⟨dicts, rows⟩, hmessages, h⟩ := bind_eq_ok.mp h
  obtain ⟨grouped, hrows, h⟩ := bind_eq_ok.mp h
  obtain ⟨⟨constraints, merged⟩, hmerge, h⟩ := bind_eq_ok.mp h
  obtain rfl := Except.ok.inj h
  obtain ⟨hlists, hclosed, hstored, hphysical, hinventory⟩ := messageLoop_spec hmessages
  obtain ⟨hnodup, hkeys, hat, hrefs⟩ := rowLoop_spec hrows
  obtain ⟨rfl, hresolves, hids, hconstraints⟩ := mergeLoop_spec hmerge
  have hperm := perm_insertionSort keyBelow grouped
  refine ⟨dicts, grouped.insertionSort keyBelow, constraints, {
    stored := hstored
    physicalNodup := hphysical
    inventoryNodup := hinventory
    groupsNodup := ((hperm.map (·.1)).nodup_iff).2 hnodup
    mem_groups := fun key => ?_
    lists := fun group hgroup field => ?_
    refs := fun group hgroup field value hvalue id hid => ?_
    resolves := hresolves
    constraintIds := hids
    constraintsNodup := hconstraints
    rows := rfl
    access := rfl
    facts := rfl }⟩
  · rw [(hperm.map (·.1)).mem_iff, hkeys]
    constructor
    · rintro ⟨row, hrow, rfl⟩
      have hmem : (row.key, row.lists) ∈ rows.map fun row => (row.key, row.lists) :=
        mem_map_of_mem hrow
      rw [hlists] at hmem
      obtain ⟨message, hmessage, heq⟩ := mem_map.1 hmem
      exact ⟨message, hmessage, congrArg Prod.fst heq⟩
    · rintro ⟨message, hmessage, rfl⟩
      have hmem : (message.key, sentLists texts message) ∈
          messages.map fun message => (message.key, sentLists texts message) :=
        mem_map_of_mem hmessage
      rw [← hlists] at hmem
      obtain ⟨row, hrow, heq⟩ := mem_map.1 hmem
      exact ⟨row, hrow, congrArg Prod.fst heq⟩
  · have hmem : group ∈ grouped := hperm.mem_iff.1 hgroup
    rw [← envelopeAt_of_mem hnodup hmem, hat]
    -- both sides read the pairs of a key and its lists
    have hpairs : ∀ (pairs : List (EnvelopeKey × (ListField → List Json))),
        pairs = rows.map (fun row => (row.key, row.lists)) →
          (rows.filter fun row => row.key = group.1).flatMap (fun row => row.lists field) =
            (pairs.filter fun pair => pair.1 = group.1).flatMap fun pair => pair.2 field := by
      rintro pairs rfl
      rw [filter_map, flatMap_map]
      rfl
    rw [hpairs _ hlists.symm, filter_map, flatMap_map]
    rfl
  · have hmem : group ∈ grouped := hperm.mem_iff.1 hgroup
    rw [← envelopeAt_of_mem hnodup hmem] at hvalue
    obtain ⟨row, hrow, -, href⟩ := hrefs group.1 field value hvalue
    exact hclosed row hrow field value href id hid

/-- The constraints of an envelope are those of its messages. -/
theorem Built.mem_constraints {dicts : Dictionaries} {groups : List (EnvelopeKey × Envelope)}
    {constraints : JsonDict} {result : Compaction}
    (h : Built texts messages dicts groups constraints result) {group : EnvelopeKey × Envelope}
    (hgroup : group ∈ groups) {value : Json} :
    value ∈ group.2.lists .constraints ↔ ∃ message ∈ messages, message.key = group.1 ∧
      ∃ c ∈ message.constraints, hashedConstraint texts message c = value := by
  rw [h.lists group hgroup, mem_flatMap]
  simp only [messagesAt, mem_filter, decide_eq_true_eq, sentLists, rowLists, sentConstraints,
    mem_map, exists_exists_and_eq_and, and_assoc]
  rfl

/-! ## Ids of contents -/

/-- The id of a value: the hash of the value, shortened, after a name. -/
def contentId (texts : PromptTexts) (name : String) (value : Json) : String :=
  name ++ hashPrefix 16 (texts.stableHash value)

theorem contentId_inj {name : String} {a b : Json}
    (h : contentId texts name a = contentId texts name b) :
    hashPrefix 16 (texts.stableHash a) = hashPrefix 16 (texts.stableHash b) := by
  have hlist := congrArg String.toList h
  rw [contentId, contentId, String.toList_append, String.toList_append,
    append_cancel_left_eq] at hlist
  exact String.toList_injective hlist

theorem append_ne_schemaVersion {name rest : String}
    (hname : ∃ first tail, name.toList = first :: tail ∧ first ≠ 's') :
    name ++ rest ≠ "schema_version" := by
  obtain ⟨first, tail, hname, hne⟩ := hname
  intro h
  have hlist := congrArg String.toList h
  rw [String.toList_append, hname] at hlist
  exact hne (cons.inj hlist).1

/-- A dictionary whose ids are the hashes of its values. -/
structure HashKeyed (texts : PromptTexts) (name : String) (dict : JsonDict) : Prop where
  ids : ∀ entry ∈ dict, entry.1 = contentId texts name entry.2
  names : ∀ entry ∈ dict, entry.1 ≠ "schema_version"
  nodup : (keys dict).Nodup

theorem HashKeyed.of_lookup {name : String} {dict : JsonDict} (h : HashKeyed texts name dict)
    {id : String} {value : Json} (hvalue : dict.lookup id = some value) :
    id = contentId texts name value ∧ id ≠ "schema_version" := by
  have hmem := Dicts.mem_of_lookup hvalue
  exact ⟨h.ids _ hmem, h.names _ hmem⟩

theorem Built.hashKeyed {dicts : Dictionaries} {groups : List (EnvelopeKey × Envelope)}
    {constraints : JsonDict} {result : Compaction}
    (h : Built texts messages dicts groups constraints result) :
    HashKeyed texts "neighbor_constraint_" constraints where
  ids := fun entry hentry => (h.constraintIds entry hentry).1
  names := by
    intro entry hentry
    rw [(h.constraintIds entry hentry).1]
    exact append_ne_schemaVersion ⟨'n', _, rfl, by decide⟩
  nodup := h.constraintsNodup

end Loops

end DRCAgent.Planner
