/-
# The registry does not depend on an order

Two lists of scenes and parameters that differ in their order only give one registry
(`build_perm_invariant`). The row of a participant is what its occurrences accumulate
(`own_agree`), they accumulate one just where their authorities agree, and what is recorded
of it depends on which occurrences there are only (`participantModel_gather`).
-/
import DRCAgent.SemanticRegistry

namespace DRCAgent.Registry

open Failures List
open Connectivity (Json PyError)

/-! ## The row of one participant -/

section Row

variable {items items' : List (String × SceneParticipant)}

/-- All occurrences carry one edit authority. -/
def Agree (items : List (String × SceneParticipant)) : Prop :=
  ∀ a ∈ items, ∀ c ∈ items, a.2.editAuthority = c.2.editAuthority

/-- The row that the occurrences of a participant accumulate. -/
def gather (participantId : String) (items : List (String × SceneParticipant)) :
    RegistryParticipant :=
  items.foldl extendRow (emptyRow participantId)

theorem agree_append {occurrence : String × SceneParticipant} :
    Agree (items ++ [occurrence]) ↔ Agree items ∧
      ∀ a ∈ items, a.2.editAuthority = occurrence.2.editAuthority := by
  constructor
  · intro h
    refine ⟨fun a ha c hc => ?_, fun a ha => ?_⟩
    · exact h a (mem_append_left _ ha) c (mem_append_left _ hc)
    · exact h a (mem_append_left _ ha) occurrence
        (mem_append_right _ (mem_singleton_self _))
  · rintro ⟨hitems, hlast⟩ a ha c hc
    rcases mem_append.1 ha with ha | ha <;> rcases mem_append.1 hc with hc | hc
    · exact hitems a ha c hc
    · rw [mem_singleton.1 hc]
      exact hlast a ha
    · rw [mem_singleton.1 ha]
      exact (hlast c hc).symm
    · rw [mem_singleton.1 ha, mem_singleton.1 hc]

theorem Agree.perm (h : Agree items) (hperm : items.Perm items') : Agree items' :=
  fun a ha c hc => h a (hperm.symm.subset ha) c (hperm.symm.subset hc)

/-- The lists of a row, with several occurrences more. -/
theorem foldl_extendRow (row : RegistryParticipant) :
    items.foldl extendRow row =
      { row with
        sceneIds := row.sceneIds ++ items.map (·.1)
        roles := row.roles ++ items.map (·.2.role)
        geometryKinds := row.geometryKinds ++ items.map (·.2.geometryKind)
        sourceObjectIds := row.sourceObjectIds ++ items.flatMap (·.2.sourceObjectIds)
        sourceAnchorIds := row.sourceAnchorIds ++ items.flatMap (·.2.sourceAnchorIds)
        instanceAnchorIds := row.instanceAnchorIds ++ items.flatMap (·.2.instanceAnchorIds)
        physicalGeometryIds := row.physicalGeometryIds ++ items.flatMap (·.2.physicalGeometryIds)
        connectivityComponentIds :=
          row.connectivityComponentIds ++ items.flatMap (·.2.connectivityComponentIds)
        editable := row.editable || items.any (·.2.editable)
        editAuthority :=
          (items.getLast?.map (·.2.editAuthority)).or row.editAuthority } := by
  induction items generalizing row with
  | nil => simp
  | cons occurrence rest ih =>
    rw [foldl_cons, ih]
    simp only [extendRow, append_assoc, map_cons, flatMap_cons, any_cons,
      singleton_append, Bool.or_assoc]
    congr 1
    rw [getLast?_cons]
    cases rest.getLast? <;> rfl

theorem editAuthority_gather (participantId : String) :
    (gather participantId items).editAuthority = items.getLast?.map (·.2.editAuthority) := by
  rw [gather, foldl_extendRow]
  exact Option.or_none

/-- A row refuses an occurrence exactly where those that it was made from carry another
authority. -/
theorem authority_refused_iff (participantId : String) (occurrence : String × SceneParticipant)
    (hagree : Agree items) :
    (gather participantId items).editAuthority ≠ none ∧
        (gather participantId items).editAuthority ≠ some occurrence.2.editAuthority ↔
      ¬ ∀ a ∈ items, a.2.editAuthority = occurrence.2.editAuthority := by
  rw [editAuthority_gather]
  cases hlast : items.getLast? with
  | none =>
    have hnil := getLast?_eq_none_iff.1 hlast
    simp [hnil]
  | some last =>
    -- the row has the authority of the last one, and so of all
    have hmem := mem_of_getLast? hlast
    rw [Option.map_some]
    constructor
    · intro h hall
      exact h.2 (congrArg some (hall last hmem))
    · intro h
      refine ⟨Option.some_ne_none _, fun hsome => h fun a ha => ?_⟩
      exact (hagree a ha last hmem).trans (Option.some.inj hsome)

/-- **The rows that are accumulated**: the occurrences are gathered where they agree, and
otherwise the loop fails. -/
theorem foldlM_addOccurrence (participantId : String)
    (items : List (String × SceneParticipant)) :
    (Agree items → items.foldlM addOccurrence (emptyRow participantId) =
      .ok (gather participantId items)) ∧
    (¬ Agree items → items.foldlM addOccurrence (emptyRow participantId) =
      .error authorityCollision) := by
  induction items using reverseRecOn with
  | nil =>
    refine ⟨fun _ => rfl, fun h => absurd ?_ h⟩
    intro a ha
    cases ha
  | append_singleton items occurrence ih =>
    have hstep : (items ++ [occurrence]).foldlM addOccurrence (emptyRow participantId) =
        items.foldlM addOccurrence (emptyRow participantId) >>= fun row =>
          addOccurrence row occurrence := by
      rw [foldlM_append]
      refine bind_congr fun row => ?_
      rw [foldlM_cons]
      exact bind_pure _
    have hgather : gather participantId (items ++ [occurrence]) =
        extendRow (gather participantId items) occurrence := by
      rw [gather, foldl_append]
      rfl
    rw [hstep, agree_append]
    by_cases hagree : Agree items
    · rw [ih.1 hagree]
      show (Agree items ∧ _ → addOccurrence _ occurrence = _) ∧
        (¬ (Agree items ∧ _) → addOccurrence _ occurrence = _)
      have hcheck := authority_refused_iff participantId occurrence hagree
      rw [addOccurrence, hgather]
      constructor
      · rintro ⟨-, hall⟩
        rw [if_neg fun hrefused => hcheck.1 hrefused hall]
      · intro hnot
        rw [if_pos (hcheck.2 fun hall => hnot ⟨hagree, hall⟩)]
    · rw [ih.2 hagree]
      exact ⟨fun h => absurd h.1 hagree, fun _ => rfl⟩

/-- The last authority is the one of all of them, in any order. -/
theorem lastAuthority_perm (hagree : Agree items) (hperm : items.Perm items') :
    items.getLast?.map (·.2.editAuthority) = items'.getLast?.map (·.2.editAuthority) := by
  cases hlast : items.getLast? with
  | none =>
    rw [getLast?_eq_none_iff.1 hlast] at hperm
    rw [← hperm.nil_eq]
    rfl
  | some last =>
    cases hlast' : items'.getLast? with
    | none =>
      rw [getLast?_eq_none_iff.1 hlast'] at hperm
      rw [hperm.eq_nil] at hlast
      cases hlast
    | some last' =>
      rw [Option.map_some, Option.map_some, hagree last (mem_of_getLast? hlast) last'
        (hperm.symm.subset (mem_of_getLast? hlast'))]

/-- **What is recorded of a participant** depends on which occurrences it has only. -/
theorem participantModel_gather (participantId : String) (hagree : Agree items)
    (hperm : items.Perm items') {protections protections' : List String}
    (hprotections : ∀ id, id ∈ protections ↔ id ∈ protections') :
    participantModel protections (gather participantId items) =
      participantModel protections' (gather participantId items') := by
  have hmap : ∀ f : String × SceneParticipant → String,
      sortedSet (items.map f) = sortedSet (items'.map f) :=
    fun f => sortedSet_congr fun _ => (hperm.map f).mem_iff
  have hflatMap : ∀ f : String × SceneParticipant → List String,
      sortedSet (items.flatMap f) = sortedSet (items'.flatMap f) :=
    fun f => sortedSet_congr fun _ => (hperm.flatMap_right f).mem_iff
  have hany : items.any (·.2.editable) = items'.any (·.2.editable) := by
    rw [Bool.eq_iff_iff, any_eq_true, any_eq_true]
    simp only [hperm.mem_iff]
  have hauthority := lastAuthority_perm hagree hperm
  rw [gather, gather, foldl_extendRow, foldl_extendRow, participantModel, participantModel]
  simp only [emptyRow, nil_append, Bool.false_or, Option.or_none, hmap, hflatMap, hany,
    hauthority, sortedSet_congr hprotections]

end Row

/-! ## Scenes and parameters in another order -/

/-- The same scene, its participants in any order. -/
structure SameScene (first second : RepairScene) : Prop where
  sceneId : first.sceneId = second.sceneId
  primaryViolationId : first.primaryViolationId = second.primaryViolationId
  targetWitnessId : first.targetWitnessId = second.targetWitnessId
  repairFamily : first.repairFamily = second.repairFamily
  relation : first.relation = second.relation
  participants : first.participants.Perm second.participants

/-- The same scenes, they and their participants in any order. -/
def Rearranged (scenes scenes' : List RepairScene) : Prop :=
  ∃ permuted, scenes.Perm permuted ∧ List.Forall₂ SameScene permuted scenes'

section Rearranged

variable {scenes scenes' : List RepairScene} {dofs dofs' : List RepairDOF}

theorem SameScene.symm {first second : RepairScene} (h : SameScene first second) :
    SameScene second first :=
  ⟨h.sceneId.symm, h.primaryViolationId.symm, h.targetWitnessId.symm, h.repairFamily.symm,
    h.relation.symm, h.participants.symm⟩

theorem Rearranged.symm (h : Rearranged scenes scenes') : Rearranged scenes' scenes := by
  obtain ⟨permuted, hperm, hsame⟩ := h
  have hflip : List.Forall₂ SameScene scenes' permuted :=
    Forall₂.flip (hsame.imp fun _ _ h => h.symm)
  have hcomp : Relation.Comp (List.Forall₂ SameScene) Perm scenes' scenes :=
    ⟨permuted, hflip, hperm.symm⟩
  rw [forall₂_comp_perm_eq_perm_comp_forall₂] at hcomp
  exact hcomp

theorem occurrences_perm (h : Rearranged scenes scenes') :
    (occurrences scenes).Perm (occurrences scenes') := by
  obtain ⟨permuted, hperm, hsame⟩ := h
  refine (hperm.flatMap_right _).trans ?_
  induction hsame generalizing scenes with
  | nil => exact Perm.refl _
  | cons hhead _ ih =>
    rw [flatMap_cons, occurrences, flatMap_cons, hhead.sceneId]
    exact (hhead.participants.map _).append (ih (Perm.refl _))

/-- The parameters of a scene. -/
theorem mem_dofsByScene {sceneId dofId : String} :
    dofId ∈ ((dofsByScene dofs).lookup sceneId).getD [] ↔
      ∃ dof ∈ dofs, dof.dofId = dofId ∧ dof.sceneId = sceneId := by
  rw [dofsByScene, Dicts.lookup_collect, mem_map]
  simp only [mem_filter, mem_map, decide_eq_true_eq]
  constructor
  · rintro ⟨entry, ⟨⟨dof, hdof, rfl⟩, hscene⟩, rfl⟩
    exact ⟨dof, hdof, rfl, hscene⟩
  · rintro ⟨dof, hdof, rfl, hscene⟩
    exact ⟨_, ⟨⟨dof, hdof, rfl⟩, hscene⟩, rfl⟩

theorem relationIds_eq {first second : RepairScene} (h : SameScene first second) :
    relationIds first = relationIds second := by
  rw [relationIds, relationIds, h.relation]

theorem registryScene_eq (hdofs : dofs.Perm dofs') {first second : RepairScene}
    (h : SameScene first second) : registryScene dofs first = registryScene dofs' second := by
  have hparticipants : sortedSet (first.participants.map (·.participantId)) =
      sortedSet (second.participants.map (·.participantId)) :=
    sortedSet_congr fun _ => (h.participants.map _).mem_iff
  have hdofIds : sortedSet (((dofsByScene dofs).lookup first.sceneId).getD []) =
      sortedSet (((dofsByScene dofs').lookup second.sceneId).getD []) := by
    refine sortedSet_congr fun dofId => ?_
    rw [mem_dofsByScene, mem_dofsByScene, h.sceneId]
    simp only [hdofs.mem_iff]
  rw [registryScene, registryScene, relationIds_eq h, hparticipants, hdofIds, h.sceneId,
    h.primaryViolationId, h.targetWitnessId, h.repairFamily]

/-- What is read off the scenes one by one, up to their order. -/
theorem map_perm {α : Type} {f f' : RepairScene → α} (h : Rearranged scenes scenes')
    (hsame : ∀ first second, SameScene first second → f first = f' second) :
    (scenes.map f).Perm (scenes'.map f') := by
  obtain ⟨permuted, hperm, hscenes⟩ := h
  have heq : permuted.map f = scenes'.map f' := by
    induction hscenes generalizing scenes with
    | nil => rfl
    | cons hhead _ ih =>
      rw [map_cons, map_cons, hsame _ _ hhead, ih (Perm.refl _)]
  exact heq ▸ hperm.map f

theorem sceneIds_perm (h : Rearranged scenes scenes') :
    (scenes.map (·.sceneId)).Perm (scenes'.map (·.sceneId)) :=
  map_perm h fun _ _ hsame => hsame.sceneId

/-- The rows of parameters in another order are the rows in another order. -/
theorem mapM_perm {α β ε : Type} {f : α → Except ε β} {items items' : List α}
    (hperm : items.Perm items') {rows : List β} (h : items.mapM f = .ok rows) :
    ∃ rows', items'.mapM f = .ok rows' ∧ rows.Perm rows' := by
  obtain ⟨rows', hrows', hpermRows⟩ := perm_comp_forall₂ hperm.symm (mapM_eq_ok h)
  refine ⟨rows', ?_, hpermRows.symm⟩
  clear hpermRows hperm
  induction hrows' with
  | nil => rfl
  | cons hhead _ ih =>
    rw [mapM_cons, hhead, ih]
    rfl

end Rearranged

/-! ## The participants -/

section Participants

variable {scenes scenes' : List RepairScene}

/-- Two occurrences of one participant carry different edit authorities. -/
def Collides (scenes : List RepairScene) : Prop :=
  ∃ first ∈ scenes.flatMap (·.participants), ∃ second ∈ scenes.flatMap (·.participants),
    first.participantId = second.participantId ∧ first.editAuthority ≠ second.editAuthority

/-- The occurrences of one participant. -/
def ofParticipant (participantId : String) (scenes : List RepairScene) :
    List (String × SceneParticipant) :=
  (occurrences scenes).filter fun occurrence => occurrenceKey occurrence = participantId

theorem own_eq (participantId : String) (scenes : List RepairScene) :
    GroupedFold.own occurrenceKey emptyRow addOccurrence participantId (occurrences scenes) =
      (ofParticipant participantId scenes).foldlM addOccurrence (emptyRow participantId) := rfl

theorem exists_occurrence_iff {participant : SceneParticipant} :
    participant ∈ scenes.flatMap (·.participants) ↔
      ∃ occurrence ∈ occurrences scenes, occurrence.2 = participant := by
  simp only [occurrences, mem_flatMap, mem_map]
  constructor
  · rintro ⟨scene, hscene, hparticipant⟩
    exact ⟨_, ⟨scene, hscene, participant, hparticipant, rfl⟩, rfl⟩
  · rintro ⟨occurrence, ⟨scene, hscene, other, hother, rfl⟩, rfl⟩
    exact ⟨scene, hscene, hother⟩

/-- Nothing collides where the occurrences of every participant agree. -/
theorem not_collides_iff :
    ¬ Collides scenes ↔ ∀ participantId, Agree (ofParticipant participantId scenes) := by
  constructor
  · intro h participantId a ha c hc
    obtain ⟨hamem, hakey⟩ := mem_filter.1 ha
    obtain ⟨hcmem, hckey⟩ := mem_filter.1 hc
    by_contra hne
    have hkeys : a.2.participantId = c.2.participantId :=
      (of_decide_eq_true hakey).trans (of_decide_eq_true hckey).symm
    exact h ⟨a.2, exists_occurrence_iff.2 ⟨a, hamem, rfl⟩, c.2,
      exists_occurrence_iff.2 ⟨c, hcmem, rfl⟩, hkeys, hne⟩
  · rintro hagree ⟨first, hfirst, second, hsecond, hkey, hne⟩
    obtain ⟨a, ha, rfl⟩ := exists_occurrence_iff.1 hfirst
    obtain ⟨c, hc, rfl⟩ := exists_occurrence_iff.1 hsecond
    refine hne (hagree c.2.participantId a ?_ c ?_)
    · exact mem_filter.2 ⟨ha, decide_eq_true hkey⟩
    · exact mem_filter.2 ⟨hc, decide_eq_true rfl⟩

/-- **The participants**: a row for each that occurs, or the collision. -/
theorem participantRows_spec (scenes : List RepairScene) :
    (¬ Collides scenes ∧ ∃ rows, participantRows scenes = .ok rows ∧
      (rows.map (·.1)).Nodup ∧ ∀ participantId, rows.lookup participantId =
        if ofParticipant participantId scenes = [] then none
        else some (gather participantId (ofParticipant participantId scenes))) ∨
      Collides scenes ∧ participantRows scenes = .error authorityCollision := by
  rcases GroupedFold.run_spec occurrenceKey emptyRow addOccurrence (occurrences scenes) with
    ⟨rows, hrun, hrows⟩ | ⟨e, hrun, occurrence, hoccurrence, hown⟩
  · -- a collision would have made the loop fail
    have hagree : ∀ participantId, Agree (ofParticipant participantId scenes) := by
      intro participantId
      by_contra hnot
      have hown := hrows.own_eq participantId
      rw [own_eq, (foldlM_addOccurrence participantId _).2 hnot] at hown
      cases hown
    refine Or.inl ⟨not_collides_iff.2 hagree, rows, hrun, hrows.nodup, fun participantId => ?_⟩
    by_cases hempty : ofParticipant participantId scenes = []
    · rw [if_pos hempty]
      refine hrows.absent participantId fun item hitem hkey => ?_
      exact filter_eq_nil_iff.1 hempty item hitem (decide_eq_true hkey)
    · rw [if_neg hempty]
      obtain ⟨item, hitem⟩ := exists_mem_of_ne_nil _ hempty
      obtain ⟨hmem, hkey⟩ := mem_filter.1 hitem
      obtain ⟨row, hlookup, hown⟩ :=
        hrows.present participantId ⟨item, hmem, of_decide_eq_true hkey⟩
      rw [own_eq, (foldlM_addOccurrence participantId _).1 (hagree participantId)] at hown
      rw [hlookup, Except.ok.inj hown.symm]
  · have hnot : ¬ Agree (ofParticipant (occurrenceKey occurrence) scenes) := by
      intro hagree
      rw [own_eq, (foldlM_addOccurrence _ _).1 hagree] at hown
      cases hown
    rw [own_eq, (foldlM_addOccurrence _ _).2 hnot] at hown
    refine Or.inr ⟨?_, hrun.trans (congrArg Except.error (Except.error.inj hown).symm)⟩
    by_contra hcollides
    exact hnot (not_collides_iff.1 hcollides _)

theorem not_collides_of_ok {rows : List (String × RegistryParticipant)}
    (h : participantRows scenes = .ok rows) : ¬ Collides scenes := by
  rcases participantRows_spec scenes with ⟨hnot, -⟩ | ⟨-, herror⟩
  · exact hnot
  · rw [h] at herror
    cases herror

theorem Rearranged.ofParticipant_perm (h : Rearranged scenes scenes') (participantId : String) :
    (ofParticipant participantId scenes).Perm (ofParticipant participantId scenes') :=
  (occurrences_perm h).filter _

theorem Rearranged.collides_iff (h : Rearranged scenes scenes') :
    Collides scenes ↔ Collides scenes' := by
  rw [← not_iff_not, not_collides_iff, not_collides_iff]
  exact forall_congr' fun participantId =>
    ⟨fun hagree => hagree.perm (h.ofParticipant_perm participantId),
      fun hagree => hagree.perm (h.ofParticipant_perm participantId).symm⟩

theorem lookup_map_item {α β : Type} (f : String → α → β) (dict : List (String × α))
    (k : String) :
    (dict.map fun entry => (entry.1, f entry.1 entry.2)).lookup k = (dict.lookup k).map (f k) := by
  induction dict with
  | nil => rfl
  | cons entry rest ih =>
    rw [map_cons, lookup_cons, lookup_cons, ih]
    cases hk : k == entry.1 with
    | false => rfl
    | true =>
      rw [eq_of_beq hk]
      rfl

/-- The recorded participants of rearranged scenes. -/
theorem participants_eq (h : Rearranged scenes scenes')
    {rows rows' : List (String × RegistryParticipant)}
    (hrows : participantRows scenes = .ok rows) (hrows' : participantRows scenes' = .ok rows')
    {protections protections' : String → List String}
    (hprotections : ∀ participantId id,
      id ∈ protections participantId ↔ id ∈ protections' participantId) :
    Dicts.sortedItems (rows.map fun row =>
        (row.1, participantModel (protections row.1) row.2)) =
      Dicts.sortedItems (rows'.map fun row =>
        (row.1, participantModel (protections' row.1) row.2)) := by
  rcases participantRows_spec scenes with ⟨hagree, found, hfound, hnodup, hlookup⟩ | ⟨-, herror⟩
  · rcases participantRows_spec scenes' with ⟨-, found', hfound', hnodup', hlookup'⟩ | ⟨-, herror'⟩
    · obtain rfl := Except.ok.inj (hrows.symm.trans hfound)
      obtain rfl := Except.ok.inj (hrows'.symm.trans hfound')
      refine Dicts.sortedItems_congr ?_ ?_ fun participantId => ?_
      · rw [map_map]
        exact hnodup
      · rw [map_map]
        exact hnodup'
      · -- a participant has the same occurrences in both
        have hperm := h.ofParticipant_perm participantId
        rw [lookup_map_item fun id row => participantModel (protections id) row,
          lookup_map_item fun id row => participantModel (protections' id) row,
          hlookup, hlookup']
        by_cases hempty : ofParticipant participantId scenes = []
        · have hempty' : ofParticipant participantId scenes' = [] :=
            (hempty ▸ hperm).symm.eq_nil
          rw [if_pos hempty, if_pos hempty']
          rfl
        · have hempty' : ofParticipant participantId scenes' ≠ [] := by
            intro hnil
            exact hempty (hnil ▸ hperm).eq_nil
          rw [if_neg hempty, if_neg hempty', Option.map_some, Option.map_some,
            participantModel_gather participantId (not_collides_iff.1 hagree participantId) hperm
              (hprotections participantId)]
    · rw [hrows'] at herror'
      cases herror'
  · rw [hrows] at herror
    cases herror

end Participants

/-! ## The registry -/

section Registry

variable {texts : RegistryTexts} {context : FormalKernelContext}
  {scenes scenes' : List RepairScene} {dofs dofs' : List RepairDOF} {fingerprint : String}

theorem registryDof_dofId {dof : RepairDOF} {row : RegistryDOF}
    (h : registryDof texts context dof = .ok row) : row.dofId = dof.dofId := by
  obtain ⟨protections, -, h⟩ := bind_eq_ok.1 h
  obtain ⟨atomicDofs, -, h⟩ := bind_eq_ok.1 h
  obtain ⟨targets, -, h⟩ := bind_eq_ok.1 h
  rw [← Except.ok.inj h]

theorem dofIds_of_rows {rows : List RegistryDOF}
    (h : dofs.mapM (registryDof texts context) = .ok rows) :
    rows.map (·.dofId) = dofs.map (·.dofId) := by
  have hrows := mapM_eq_ok h
  clear h
  induction hrows with
  | nil => rfl
  | cons hhead _ ih => rw [map_cons, map_cons, ih, registryDof_dofId hhead]

/-- What is recorded does not depend on the order. -/
theorem registryContent_eq (hsceneIds : (scenes.map (·.sceneId)).Nodup)
    (hdofIds : (dofs.map (·.dofId)).Nodup) (hscenes : Rearranged scenes scenes')
    (hdofs : dofs.Perm dofs') {rows rows' : List (String × RegistryParticipant)}
    (hrows : participantRows scenes = .ok rows) (hrows' : participantRows scenes' = .ok rows')
    {dofRows dofRows' : List RegistryDOF}
    (hdofRows : dofs.mapM (registryDof texts context) = .ok dofRows)
    (hdofRowsPerm : dofRows.Perm dofRows') :
    registryContent context scenes dofs fingerprint rows dofRows =
      registryContent context scenes' dofs' fingerprint rows' dofRows' := by
  have hsceneRows : (scenes.map fun scene => (scene.sceneId, registryScene dofs scene)).Perm
      (scenes'.map fun scene => (scene.sceneId, registryScene dofs' scene)) := by
    refine map_perm hscenes fun first second hsame => ?_
    rw [hsame.sceneId, registryScene_eq hdofs hsame]
  have hsceneKeys : ((scenes.map fun scene =>
      (scene.sceneId, registryScene dofs scene)).map (·.1)).Nodup := by
    rw [map_map]
    exact hsceneIds
  have hsceneKeys' := (hsceneRows.map (·.1)).nodup_iff.1 hsceneKeys
  have hdofKeys : ((dofRows.map fun row => (row.dofId, row)).map (·.1)).Nodup := by
    rw [map_map]
    exact (dofIds_of_rows hdofRows).symm ▸ hdofIds
  have hdofItems := hdofRowsPerm.map fun row => (row.dofId, row)
  have hdofKeys' := (hdofItems.map (·.1)).nodup_iff.1 hdofKeys
  have hprotections : ∀ participantId id, id ∈ protectedBy dofRows participantId ↔
      id ∈ protectedBy dofRows' participantId :=
    fun _ _ => ((hdofRowsPerm.filter _).flatMap_right _).mem_iff
  have hrelations : sortedSet (scenes.flatMap relationIds) =
      sortedSet (scenes'.flatMap relationIds) := by
    refine sortedSet_congr fun id => ?_
    have hperm := map_perm hscenes fun _ _ => relationIds_eq
    rw [flatMap_def, flatMap_def, mem_flatten, mem_flatten]
    simp only [hperm.mem_iff]
  have hcodes : sortedSet (dofRows.flatMap (·.rejectionCodes)) =
      sortedSet (dofRows'.flatMap (·.rejectionCodes)) :=
    sortedSet_congr fun _ => (hdofRowsPerm.flatMap_right _).mem_iff
  rw [registryContent, registryContent, Dicts.ofList_of_nodup hsceneKeys,
    Dicts.ofList_of_nodup hsceneKeys', Dicts.ofList_of_nodup hdofKeys,
    Dicts.ofList_of_nodup hdofKeys', Dicts.sortedItems_eq_of_perm hsceneKeys hsceneRows,
    Dicts.sortedItems_eq_of_perm hdofKeys hdofItems, hrelations, hcodes,
    participants_eq hscenes hrows hrows' hprotections]

/-- A registry is built from rows of participants and of parameters. -/
theorem build_eq_ok_iff {registry : PlanSemanticRegistry} :
    buildPlanSemanticRegistry texts context scenes dofs fingerprint = .ok registry ↔
      ∃ rows dofRows, participantRows scenes = .ok rows ∧
        dofs.mapM (registryDof texts context) = .ok dofRows ∧
        registry = { registryContent context scenes dofs fingerprint rows dofRows with
          registryId := "plan_registry_" ++ String.ofList ((texts.identityHash
            (registryContent context scenes dofs fingerprint rows dofRows)).toList.take 24) } := by
  rw [buildPlanSemanticRegistry, bind_eq_ok]
  refine exists_congr fun rows => ?_
  rw [bind_eq_ok]
  constructor
  · rintro ⟨hrows, dofRows, hdofRows, h⟩
    refine ⟨dofRows, hrows, ?_, (Except.ok.inj h).symm⟩
    cases hmap : dofs.mapM (registryDof texts context) with
    | error e =>
      rw [hmap] at hdofRows
      cases hdofRows
    | ok found =>
      rw [hmap] at hdofRows
      exact congrArg Except.ok (Except.ok.inj hdofRows)
  · rintro ⟨dofRows, hrows, hdofRows, rfl⟩
    refine ⟨hrows, dofRows, ?_, rfl⟩
    rw [hdofRows]
    rfl

theorem build_collides_iff :
    buildPlanSemanticRegistry texts context scenes dofs fingerprint = .error authorityCollision ↔
      Collides scenes := by
  rw [buildPlanSemanticRegistry]
  rcases participantRows_spec scenes with ⟨hnot, rows, hrows, -⟩ | ⟨hcollides, herror⟩
  · refine ⟨fun h => ?_, fun h => absurd h hnot⟩
    rw [hrows] at h
    cases hmap : dofs.mapM (registryDof texts context) with
    | error e =>
      rw [hmap] at h
      cases h
    | ok dofRows =>
      rw [hmap] at h
      cases h
  · rw [herror]
    exact ⟨fun _ => hcollides, fun _ => rfl⟩

/-- One direction: what is built stays what is built. -/
theorem build_of_rearranged (hsceneIds : (scenes.map (·.sceneId)).Nodup)
    (hdofIds : (dofs.map (·.dofId)).Nodup) (hscenes : Rearranged scenes scenes')
    (hdofs : dofs.Perm dofs') {registry : PlanSemanticRegistry}
    (h : buildPlanSemanticRegistry texts context scenes dofs fingerprint = .ok registry) :
    buildPlanSemanticRegistry texts context scenes' dofs' fingerprint = .ok registry := by
  obtain ⟨rows, dofRows, hrows, hdofRows, rfl⟩ := build_eq_ok_iff.1 h
  obtain ⟨dofRows', hdofRows', hperm⟩ := mapM_perm hdofs hdofRows
  rcases participantRows_spec scenes' with ⟨-, rows', hrows', -⟩ | ⟨hcollides, -⟩
  · refine build_eq_ok_iff.2 ⟨rows', dofRows', hrows', hdofRows', ?_⟩
    rw [registryContent_eq hsceneIds hdofIds hscenes hdofs hrows hrows' hdofRows hperm]
  · exact absurd (hscenes.collides_iff.2 hcollides) (not_collides_of_ok hrows)

theorem sceneIds_of_build (hsceneIds : (scenes.map (·.sceneId)).Nodup)
    {registry : PlanSemanticRegistry}
    (h : buildPlanSemanticRegistry texts context scenes dofs fingerprint = .ok registry) :
    (registry.scenes.map (·.1)).Perm (scenes.map (·.sceneId)) := by
  obtain ⟨rows, dofRows, -, -, rfl⟩ := build_eq_ok_iff.1 h
  have hkeys : ((scenes.map fun scene =>
      (scene.sceneId, registryScene dofs scene)).map (·.1)) = scenes.map (·.sceneId) := by
    rw [map_map]
    rfl
  have hperm := (Dicts.sortedItems_perm (scenes.map fun scene =>
    (scene.sceneId, registryScene dofs scene))).map (·.1)
  show ((Dicts.sortedItems (Dicts.ofList (scenes.map fun scene =>
    (scene.sceneId, registryScene dofs scene)))).map (·.1)).Perm _
  rw [Dicts.ofList_of_nodup (hkeys ▸ hsceneIds)]
  exact hkeys ▸ hperm

/-- What is built again, in any order, is what is installed. -/
theorem install_of_rearranged (hsceneIds : (scenes.map (·.sceneId)).Nodup)
    (hdofIds : (dofs.map (·.dofId)).Nodup) (hscenes : Rearranged scenes scenes')
    (hdofs : dofs.Perm dofs') {registry registry' : PlanSemanticRegistry}
    (h : buildPlanSemanticRegistry texts context scenes dofs fingerprint = .ok registry)
    (h' : buildPlanSemanticRegistry texts context scenes' dofs' fingerprint = .ok registry') :
    installPlanSemanticRegistry (some registry) registry' = .ok registry := by
  obtain rfl := Except.ok.inj
    ((build_of_rearranged hsceneIds hdofIds hscenes hdofs h).symm.trans h')
  exact if_neg fun hne => hne rfl

/-- The parameters that are listed for a scene are its own. -/
theorem mem_dofIds_of_build {registry : PlanSemanticRegistry}
    (h : buildPlanSemanticRegistry texts context scenes dofs fingerprint = .ok registry)
    {entry : String × RegistryScene} (hentry : entry ∈ registry.scenes) {dofId : String} :
    dofId ∈ entry.2.dofIds ↔ ∃ dof ∈ dofs, dof.dofId = dofId ∧ dof.sceneId = entry.1 := by
  obtain ⟨rows, dofRows, -, -, rfl⟩ := build_eq_ok_iff.1 h
  have hmem := Dicts.mem_ofList (Dicts.mem_sortedItems.1 hentry)
  obtain ⟨scene, -, rfl⟩ := mem_map.1 hmem
  show dofId ∈ sortedSet (((dofsByScene dofs).lookup scene.sceneId).getD []) ↔ _
  rw [mem_sortedSet, mem_dofsByScene]

end Registry

/-- **The registry.**  Scenes and parameters with unique ids, in any order and with their
participants in any order, give one registry, or the one collision; there is a collision just
where two occurrences of one participant carry different edit authorities; and the parameters
listed for a scene are just those of the scene. -/
theorem build_perm_invariant (texts : RegistryTexts) (context : FormalKernelContext)
    (scenes : List RepairScene) (dofs : List RepairDOF) (fingerprint : String)
    (hsceneIds : (scenes.map (·.sceneId)).Nodup) (hdofIds : (dofs.map (·.dofId)).Nodup) :
    (∀ scenes' dofs', Rearranged scenes scenes' → dofs.Perm dofs' →
      (∀ registry, buildPlanSemanticRegistry texts context scenes' dofs' fingerprint =
          .ok registry ↔
        buildPlanSemanticRegistry texts context scenes dofs fingerprint = .ok registry) ∧
      (buildPlanSemanticRegistry texts context scenes' dofs' fingerprint =
          .error authorityCollision ↔
        buildPlanSemanticRegistry texts context scenes dofs fingerprint =
          .error authorityCollision)) ∧
    (buildPlanSemanticRegistry texts context scenes dofs fingerprint = .error authorityCollision ↔
      Collides scenes) ∧
    ∀ registry, buildPlanSemanticRegistry texts context scenes dofs fingerprint = .ok registry →
      (registry.scenes.map (·.1)).Perm (scenes.map (·.sceneId)) ∧
        ∀ entry ∈ registry.scenes, ∀ dofId, dofId ∈ entry.2.dofIds ↔
          ∃ dof ∈ dofs, dof.dofId = dofId ∧ dof.sceneId = entry.1 := by
  refine ⟨fun scenes' dofs' hscenes hdofs => ⟨fun registry => ?_, ?_⟩, build_collides_iff,
    fun registry h => ⟨sceneIds_of_build hsceneIds h,
      fun entry hentry dofId => mem_dofIds_of_build h hentry⟩⟩
  · have hsceneIds' := (sceneIds_perm hscenes).nodup_iff.1 hsceneIds
    have hdofIds' := (hdofs.map (·.dofId)).nodup_iff.1 hdofIds
    exact ⟨build_of_rearranged hsceneIds' hdofIds' hscenes.symm hdofs.symm,
      build_of_rearranged hsceneIds hdofIds hscenes hdofs⟩
  · rw [build_collides_iff, build_collides_iff, hscenes.collides_iff]

/-- A participant in two scenes, and a parameter of the second scene. -/
def sampleScenes : List RepairScene :=
  [⟨"s1", "v1", "w1", "SPACING", [⟨"p1", "PRIMARY_OFFENDER", "polygon", ["o1"], [], [], [], [],
      true, "DIRECT"⟩], some ⟨"SPACING", some "MINIMUM_GAP"⟩⟩,
    ⟨"s2", "v2", "w2", "ENCLOSURE", [⟨"p1", "ENCLOSER", "polygon", ["o1"], [], [], [], [],
      false, "DIRECT"⟩], some ⟨"ENCLOSURE", none⟩⟩]

def sampleDof : RepairDOF where
  domainMinDbu := 0
  domainMaxDbu := 16
  allowedIntervals := [(0, 16)]
  manufacturingGridDbu := 4
  orderedDomain := by decide
  dofId := "d1"
  sceneId := "s2"
  participantId := "p1"
  dofType := "SHIFT_BOUNDARY_EDGE"
  expectedDirection := "INCREASE"
  sourceObjectIds := ["o1"]

def sampleTexts : RegistryTexts := ⟨fun _ => "", fun _ => "", fun _ => "hash"⟩

def sampleKernelContext : FormalKernelContext := ⟨"run", 1, none, "context", [], [], []⟩

theorem build_perm_invariant_sample :
    ∃ registry, buildPlanSemanticRegistry sampleTexts sampleKernelContext sampleScenes
        [sampleDof] "current" = .ok registry ∧
      buildPlanSemanticRegistry sampleTexts sampleKernelContext sampleScenes.reverse
        [sampleDof] "current" = .ok registry := by
  have hscenes : (sampleScenes.map (·.sceneId)).Nodup := by decide +kernel
  have hdofs : ([sampleDof].map (·.dofId)).Nodup := nodup_singleton _
  have hreverse : Rearranged sampleScenes sampleScenes.reverse := by
    refine ⟨sampleScenes.reverse, (reverse_perm _).symm, ?_⟩
    exact forall₂_same.2 fun scene _ => ⟨rfl, rfl, rfl, rfl, rfl, Perm.refl _⟩
  obtain ⟨registry, hregistry⟩ : ∃ registry, buildPlanSemanticRegistry sampleTexts
      sampleKernelContext sampleScenes [sampleDof] "current" = .ok registry := ⟨_, rfl⟩
  have hinvariant := (build_perm_invariant sampleTexts sampleKernelContext sampleScenes
    [sampleDof] "current" hscenes hdofs).1 sampleScenes.reverse [sampleDof] hreverse
      (Perm.refl _)
  exact ⟨registry, hregistry, (hinvariant.1 registry).2 hregistry⟩

end DRCAgent.Registry
