/-
# Grouping replacements into operations

`_group_specialization_operations` (edit_authority/proposals.py): the layer replacements of a
closed group of occurrences, as operations of one owner and at most four replacements each.

Main result:

* `groupSpecializationOperations_spec`: every replacement is in one operation of the owner
  that supplied it, and there are no operations exactly when two replacements of a layer
  disagree or a bound cannot be met.
-/
import DRCAgent.GroupedSlices
import DRCAgent.OccurrenceTranslation

namespace DRCAgent.EditAuthority

open List Groups

/-! ## Operations -/

/-- An operation has one to four replacements. -/
structure SpecializeInstanceLayerOp where
  sourceOwnerObjectId : String
  instanceLayerReplacements : List InstanceLayerReplacement
  nonempty : 1 ≤ instanceLayerReplacements.length
  bounded : instanceLayerReplacements.length ≤ 4
  deriving DecidableEq

/-- The constructor, which checks the bounds. -/
def SpecializeInstanceLayerOp.of (owner : String) (items : List InstanceLayerReplacement) :
    Option SpecializeInstanceLayerOp :=
  if h : 1 ≤ items.length ∧ items.length ≤ 4 then some ⟨owner, items, h.1, h.2⟩ else none

/-- `identity` -/
def InstanceLayerReplacement.identity (r : InstanceLayerReplacement) : String ×ₗ String :=
  toLex (r.instanceAnchorId, r.layer)

section Grouping

variable (replacementsByOwner : List (String × List InstanceLayerReplacement))

/-- `unique`: the replacements by their identities, with the owner of each. -/
def uniqueReplacements :
    Option (List ((String ×ₗ String) × (String × InstanceLayerReplacement))) :=
  (replacementsByOwner.insertionSort fun a b => a.1 ≤ b.1).foldlM
    (fun unique entry =>
      entry.2.foldlM (fun unique r => assign unique (r.identity, (entry.1, r))) unique)
    []

/-- `operation_specs` -/
def operationSpecs (unique : List ((String ×ₗ String) × (String × InstanceLayerReplacement))) :
    List (String × List InstanceLayerReplacement) :=
  let grouped := Dicts.collect ((unique.insertionSort fun a b => a.1 ≤ b.1).map (·.2))
  keyedSlices 4 (grouped.insertionSort fun a b => a.1 ≤ b.1)

/-- **`_group_specialization_operations`** -/
def groupSpecializationOperations : Option (List SpecializeInstanceLayerOp) := do
  let unique ← uniqueReplacements replacementsByOwner
  if 4 < (unique.map fun e => (ofLex e.1).1).toFinset.card ∨ 16 < unique.length then none
  else
    let specs := operationSpecs unique
    if 4 < specs.length then none
    else specs.mapM fun spec => SpecializeInstanceLayerOp.of spec.1 spec.2

/-! ## What is supplied -/

/-- The owner supplies the replacement. -/
def Supplied (owner : String) (r : InstanceLayerReplacement) : Prop :=
  ∃ entry ∈ replacementsByOwner, entry.1 = owner ∧ r ∈ entry.2

/-- Two replacements of one layer of an occurrence differ in owner or content. -/
def Conflict : Prop :=
  ∃ owner r owner' r', Supplied replacementsByOwner owner r ∧
    Supplied replacementsByOwner owner' r' ∧
    r.instanceAnchorId = r'.instanceAnchorId ∧ r.layer = r'.layer ∧ (owner ≠ owner' ∨ r ≠ r')

/-- The anchors of the occurrences. -/
def anchors : Finset String :=
  ((replacementsByOwner.flatMap (·.2)).map (·.instanceAnchorId)).toFinset

/-- The layers of the occurrences. -/
def identities : Finset (String ×ₗ String) :=
  ((replacementsByOwner.flatMap (·.2)).map (·.identity)).toFinset

/-- Four operations of at most four replacements each are enough. -/
def FitsOperations : Prop :=
  ∃ specs : List (String × List InstanceLayerReplacement), specs.length ≤ 4 ∧
    (∀ spec ∈ specs, spec.2.length ≤ 4) ∧
    ∀ owner r, Supplied replacementsByOwner owner r → ∃ spec ∈ specs, spec.1 = owner ∧ r ∈ spec.2

/-- The operations have what is supplied, once. -/
structure GroupedInto (ops : List SpecializeInstanceLayerOp) : Prop where
  placed : ∀ owner r, Supplied replacementsByOwner owner r ↔
    ∃ op ∈ ops, op.sourceOwnerObjectId = owner ∧ r ∈ op.instanceLayerReplacements
  once : ((ops.flatMap (·.instanceLayerReplacements)).map (·.identity)).Nodup
  bounded : ∀ op ∈ ops, op.instanceLayerReplacements.length ≤ 4
  operations : ops.length ≤ 4
  anchors : ((ops.flatMap (·.instanceLayerReplacements)).map (·.instanceAnchorId)).toFinset.card ≤ 4

/-- The entries that are assigned, in order. -/
def assignedEntries : List ((String ×ₗ String) × (String × InstanceLayerReplacement)) :=
  (replacementsByOwner.insertionSort fun a b => a.1 ≤ b.1).flatMap fun entry =>
    entry.2.map fun r => (r.identity, (entry.1, r))

variable {replacementsByOwner}
  {unique : List ((String ×ₗ String) × (String × InstanceLayerReplacement))}

theorem uniqueReplacements_eq : uniqueReplacements replacementsByOwner =
    (assignedEntries replacementsByOwner).foldlM assign [] := by
  rw [uniqueReplacements, assignedEntries]
  generalize replacementsByOwner.insertionSort (fun a b => a.1 ≤ b.1) = entries
  generalize ([] : List ((String ×ₗ String) × (String × InstanceLayerReplacement))) = start
  induction entries generalizing start with
  | nil => rfl
  | cons entry rest ih =>
    rw [foldlM_cons, flatMap_cons, foldlM_append, foldlM_map]
    exact congrArg _ (funext ih)

theorem mem_assignedEntries {e : (String ×ₗ String) × (String × InstanceLayerReplacement)} :
    e ∈ assignedEntries replacementsByOwner ↔
      Supplied replacementsByOwner e.2.1 e.2.2 ∧ e.1 = e.2.2.identity := by
  simp only [assignedEntries, mem_flatMap, mem_insertionSort, mem_map]
  constructor
  · rintro ⟨entry, hentry, r, hr, rfl⟩
    exact ⟨⟨entry, hentry, rfl, hr⟩, rfl⟩
  · rintro ⟨⟨entry, hentry, howner, hr⟩, hkey⟩
    exact ⟨entry, hentry, e.2.2, hr, by rw [howner, ← hkey]⟩

theorem conflict_iff :
    Conflict replacementsByOwner ↔ ¬ Groups.Agree (assignedEntries replacementsByOwner) := by
  have hidentity : ∀ r r' : InstanceLayerReplacement, r.identity = r'.identity ↔
      r.instanceAnchorId = r'.instanceAnchorId ∧ r.layer = r'.layer := by
    intro r r'
    simp [InstanceLayerReplacement.identity]
  constructor
  · rintro ⟨owner, r, owner', r', h, h', hanchor, hlayer, hne⟩ hagree
    have heq := hagree (r.identity, (owner, r)) (mem_assignedEntries.2 ⟨h, rfl⟩)
      (r'.identity, (owner', r')) (mem_assignedEntries.2 ⟨h', rfl⟩)
      ((hidentity r r').2 ⟨hanchor, hlayer⟩)
    obtain ⟨rfl, rfl⟩ := Prod.mk.inj heq
    rcases hne with hne | hne
    · exact hne rfl
    · exact hne rfl
  · intro h
    simp only [Groups.Agree, not_forall] at h
    obtain ⟨e, he, e', he', hkey, hne⟩ := h
    obtain ⟨hsupplied, hid⟩ := mem_assignedEntries.1 he
    obtain ⟨hsupplied', hid'⟩ := mem_assignedEntries.1 he'
    obtain ⟨hanchor, hlayer⟩ := (hidentity _ _).1 (hid.symm.trans (hkey.trans hid'))
    refine ⟨_, _, _, _, hsupplied, hsupplied', hanchor, hlayer, ?_⟩
    rw [← not_and_or]
    exact fun hsame => hne (Prod.ext hsame.1 hsame.2)

/-- What the replacements by their identities are. -/
structure UniqueOf (replacementsByOwner : List (String × List InstanceLayerReplacement))
    (unique : List ((String ×ₗ String) × (String × InstanceLayerReplacement))) : Prop where
  keys : (unique.map (·.1)).Nodup
  identity : ∀ e ∈ unique, e.1 = e.2.2.identity
  supplied : ∀ owner r, (owner, r) ∈ unique.map (·.2) ↔ Supplied replacementsByOwner owner r

theorem uniqueReplacements_eq_some (h : uniqueReplacements replacementsByOwner = some unique) :
    UniqueOf replacementsByOwner unique := by
  rw [uniqueReplacements_eq] at h
  obtain ⟨hkeys, hmem⟩ := @foldlM_assign_eq_some _ _ [] _ _ _ _ nodup_nil h
  have hmem' : ∀ e, e ∈ unique ↔ e ∈ assignedEntries replacementsByOwner := fun e =>
    (hmem e).trans (or_iff_right (fun he => (nomatch he)))
  refine ⟨hkeys, fun e he => (mem_assignedEntries.1 ((hmem' e).1 he)).2, fun owner r => ?_⟩
  rw [mem_map]
  constructor
  · rintro ⟨e, he, heq⟩
    have hsupplied := (mem_assignedEntries.1 ((hmem' e).1 he)).1
    rwa [heq] at hsupplied
  · exact fun hsupplied => ⟨(r.identity, (owner, r)),
      (hmem' _).2 (mem_assignedEntries.2 ⟨hsupplied, rfl⟩), rfl⟩

theorem uniqueReplacements_eq_none :
    uniqueReplacements replacementsByOwner = none ↔ Conflict replacementsByOwner := by
  rw [uniqueReplacements_eq, foldlM_assign_eq_none, conflict_iff]

theorem mem_flatMap_values {r : InstanceLayerReplacement} :
    r ∈ replacementsByOwner.flatMap (·.2) ↔ ∃ owner, Supplied replacementsByOwner owner r := by
  rw [mem_flatMap]
  constructor
  · exact fun ⟨entry, hentry, hr⟩ => ⟨entry.1, entry, hentry, rfl, hr⟩
  · exact fun ⟨_, entry, hentry, _, hr⟩ => ⟨entry, hentry, hr⟩

namespace UniqueOf

variable (h : UniqueOf replacementsByOwner unique)

include h

/-- The replacements in the dictionary are those supplied. -/
theorem mem_values {r : InstanceLayerReplacement} :
    r ∈ unique.map (·.2.2) ↔ r ∈ replacementsByOwner.flatMap (·.2) := by
  rw [mem_flatMap_values]
  simp only [← h.supplied, mem_map]
  constructor
  · rintro ⟨e, he, rfl⟩
    exact ⟨e.2.1, e, he, rfl⟩
  · rintro ⟨owner, e, he, heq⟩
    exact ⟨e, he, by rw [heq]⟩

theorem map_identity : unique.map (·.1) = (unique.map (·.2.2)).map (·.identity) := by
  rw [map_map]
  exact map_congr_left h.identity

theorem anchors_eq :
    (unique.map fun e => (ofLex e.1).1).toFinset = anchors replacementsByOwner := by
  ext anchor
  have hanchor : unique.map (fun e => (ofLex e.1).1) =
      (unique.map (·.2.2)).map (·.instanceAnchorId) := by
    rw [map_map]
    refine map_congr_left fun e he => ?_
    rw [h.identity e he]
    rfl
  rw [hanchor, anchors, mem_toFinset, mem_toFinset, mem_map, mem_map]
  simp only [h.mem_values]

theorem length_eq : unique.length = (identities replacementsByOwner).card := by
  have hset : (unique.map (·.1)).toFinset = identities replacementsByOwner := by
    ext key
    rw [h.map_identity, identities, mem_toFinset, mem_toFinset, mem_map, mem_map]
    simp only [h.mem_values]
  rw [← hset, toFinset_card_of_nodup h.keys, length_map]

/-- The operations have the owners and the replacements of the dictionary. -/
theorem mem_operationSpecs {owner : String} {r : InstanceLayerReplacement} :
    (∃ spec ∈ operationSpecs unique, spec.1 = owner ∧ r ∈ spec.2) ↔
      Supplied replacementsByOwner owner r := by
  rw [operationSpecs, mem_keyedSlices (by decide)]
  simp only [mem_insertionSort]
  rw [mem_collect, ← h.supplied]
  exact ((perm_insertionSort _ unique).map _).mem_iff

theorem nodup_values : (unique.map (·.2.2)).Nodup := by
  have hkeys := h.keys
  rw [h.map_identity] at hkeys
  exact hkeys.of_map _

omit h in
/-- Each replacement is in one of the operations, once. -/
theorem operationSpecs_perm :
    ((operationSpecs unique).flatMap (·.2)).Perm (unique.map (·.2.2)) := by
  rw [operationSpecs, flatMap_keyedSlices (by decide)]
  refine ((perm_insertionSort _ _).flatMap_right _).trans
    ((flatMap_collect_perm _).trans ?_)
  rw [map_map]
  exact (perm_insertionSort _ unique).map _

/-- The number of the operations is the least that there can be. -/
theorem length_operationSpecs_le :
    (operationSpecs unique).length ≤ 4 ↔ FitsOperations replacementsByOwner := by
  constructor
  · intro hle
    exact ⟨operationSpecs unique, hle,
      fun spec hspec => (bounds_of_mem_keyedSlices (by decide) hspec).2,
      fun owner r hsupplied => h.mem_operationSpecs.2 hsupplied⟩
  · rintro ⟨specs, hle, hbounded, hcover⟩
    refine le_trans (length_keyedSlices_le (by decide) ?_ (fun group hgroup => ?_) hbounded
      fun group hgroup r hr => ?_) hle
    · exact ((perm_insertionSort _ _).map _).nodup_iff.2 (Dicts.nodup_keys_collect _)
    · have hmem := (mem_insertionSort _).1 hgroup
      -- the values of a key are some of the replacements, which are distinct
      have hall : (((unique.insertionSort fun a b => a.1 ≤ b.1).map (·.2)).map (·.2)).Nodup := by
        rw [map_map]
        exact ((perm_insertionSort _ unique).map _).nodup_iff.2 h.nodup_values
      rw [Dicts.values_of_mem_collect hmem]
      exact hall.sublist (filter_sublist.map _)
    · have hmem := (mem_insertionSort _).1 hgroup
      refine hcover group.1 r ((h.supplied _ _).1 ?_)
      have hentry := mem_collect.1 ⟨group, hmem, rfl, hr⟩
      exact ((perm_insertionSort _ unique).map _).mem_iff.1 hentry

end UniqueOf

/-- The operations of specifications within the bounds. -/
theorem mapM_of {specs : List (String × List InstanceLayerReplacement)}
    (h : ∀ spec ∈ specs, spec.2 ≠ [] ∧ spec.2.length ≤ 4) :
    ∃ ops, specs.mapM (fun spec => SpecializeInstanceLayerOp.of spec.1 spec.2) = some ops ∧
      ops.map (fun op => (op.sourceOwnerObjectId, op.instanceLayerReplacements)) = specs := by
  induction specs with
  | nil => exact ⟨[], rfl, rfl⟩
  | cons spec rest ih =>
    obtain ⟨hne, hle⟩ := h spec mem_cons_self
    obtain ⟨ops, hops, hmap⟩ := ih fun other hother => h other (mem_cons_of_mem _ hother)
    have hbounds : 1 ≤ spec.2.length ∧ spec.2.length ≤ 4 := ⟨length_pos_iff.2 hne, hle⟩
    refine ⟨⟨spec.1, spec.2, hbounds.1, hbounds.2⟩ :: ops, ?_, ?_⟩
    · rw [mapM_cons, SpecializeInstanceLayerOp.of, dif_pos hbounds, hops]
      rfl
    · rw [map_cons, hmap]

/-- The operations of a dictionary that meets the bounds. -/
theorem groupedInto_of_map {ops : List SpecializeInstanceLayerOp}
    (h : UniqueOf replacementsByOwner unique)
    (hops : ops.map (fun op => (op.sourceOwnerObjectId, op.instanceLayerReplacements)) =
      operationSpecs unique)
    (hanchors : (anchors replacementsByOwner).card ≤ 4)
    (hlength : (operationSpecs unique).length ≤ 4) : GroupedInto replacementsByOwner ops := by
  have hflat : ops.flatMap (·.instanceLayerReplacements) =
      (operationSpecs unique).flatMap (·.2) := by
    rw [← hops, flatMap_map]
  have hperm : (ops.flatMap (·.instanceLayerReplacements)).Perm (unique.map (·.2.2)) := by
    rw [hflat]
    exact UniqueOf.operationSpecs_perm
  refine ⟨fun owner r => ?_, ?_, fun op _ => op.bounded, ?_, ?_⟩
  · rw [← h.mem_operationSpecs, ← hops]
    simp only [mem_map]
    constructor
    · rintro ⟨_, ⟨op, hop, rfl⟩, howner, hr⟩
      exact ⟨op, hop, howner, hr⟩
    · rintro ⟨op, hop, howner, hr⟩
      exact ⟨_, ⟨op, hop, rfl⟩, howner, hr⟩
  · rw [(hperm.map _).nodup_iff, ← h.map_identity]
    exact h.keys
  · rwa [← hops, length_map] at hlength
  · have hset : ((ops.flatMap (·.instanceLayerReplacements)).map (·.instanceAnchorId)).toFinset =
        anchors replacementsByOwner := by
      ext anchor
      rw [anchors, mem_toFinset, mem_toFinset, mem_map, mem_map]
      simp only [hperm.mem_iff, h.mem_values]
    rwa [hset]

/-- What is returned has what is supplied, once. -/
theorem groupedInto_of_some {ops : List SpecializeInstanceLayerOp}
    (h : groupSpecializationOperations replacementsByOwner = some ops) :
    GroupedInto replacementsByOwner ops := by
  rw [groupSpecializationOperations] at h
  obtain ⟨unique, hunique, h⟩ := Option.bind_eq_some_iff.1 h
  have hof := uniqueReplacements_eq_some hunique
  rw [hof.anchors_eq] at h
  split_ifs at h with hbounds
  dsimp only at h
  split_ifs at h with hlength
  rw [not_or, not_lt] at hbounds
  obtain ⟨ops', hops, hmap⟩ := mapM_of fun spec hspec =>
    bounds_of_mem_keyedSlices (by decide : 0 < 4) hspec
  obtain rfl : ops' = ops := Option.some.inj (hops.symm.trans h)
  exact groupedInto_of_map hof hmap hbounds.1 (not_lt.1 hlength)

/-- **The operations of a group** have every replacement once, with its owner, and they are
missing exactly when two replacements of one layer disagree or a bound cannot be met. -/
theorem groupSpecializationOperations_spec
    (replacementsByOwner : List (String × List InstanceLayerReplacement)) :
    (∀ ops, groupSpecializationOperations replacementsByOwner = some ops →
        GroupedInto replacementsByOwner ops) ∧
      (groupSpecializationOperations replacementsByOwner = none ↔
        Conflict replacementsByOwner ∨ 4 < (anchors replacementsByOwner).card ∨
          16 < (identities replacementsByOwner).card ∨ ¬ FitsOperations replacementsByOwner) := by
  refine ⟨fun ops h => groupedInto_of_some h, ?_⟩
  rw [groupSpecializationOperations]
  cases hunique : uniqueReplacements replacementsByOwner with
  | none => exact ⟨fun _ => .inl (uniqueReplacements_eq_none.1 hunique), fun _ => rfl⟩
  | some unique =>
    have h := uniqueReplacements_eq_some hunique
    have hagree : ¬ Conflict replacementsByOwner := fun hconflict => by
      rw [uniqueReplacements_eq_none.2 hconflict] at hunique
      cases hunique
    rw [Option.bind_eq_bind, Option.bind_some, h.anchors_eq, h.length_eq, or_iff_right hagree,
      ← h.length_operationSpecs_le, not_le, ← or_assoc]
    dsimp only
    split_ifs with hbounds hlength
    · exact ⟨fun _ => .inl hbounds, fun _ => rfl⟩
    · exact ⟨fun _ => .inr hlength, fun _ => rfl⟩
    · -- within the bounds every operation can be made
      have hspecs : ∀ spec ∈ operationSpecs unique, spec.2 ≠ [] ∧ spec.2.length ≤ 4 :=
        fun spec hspec => bounds_of_mem_keyedSlices (by decide) hspec
      obtain ⟨ops, hops, -⟩ := mapM_of hspecs
      rw [not_or, not_lt] at hbounds
      rw [hops]
      refine ⟨fun h => (nomatch h), fun h => ?_⟩
      rcases h with h | h
      · exact absurd h (not_or.2 ⟨not_lt.2 hbounds.1, hbounds.2⟩)
      · exact absurd h hlength

end Grouping

end DRCAgent.EditAuthority
