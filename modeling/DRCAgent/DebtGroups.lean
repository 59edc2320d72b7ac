/-
# Debt marker groups

`build_debt_marker_groups` of `repair_kernel_multistep_repair/identity.py`: the violations of a
snapshot are grouped by rule and normalized marker; within a group they are counted in the
order of the report, and every one gets an identity.

The groups do not depend on the order of the violations, every violation is a member of the
group of its rule and marker and of no other, and where the short hashes do not collide no two
violations have one identity (`groups_identify`).
-/
import DRCAgent.JsonReading
import DRCAgent.RegionBuilder
import DRCAgent.GroupedSlices

namespace DRCAgent

open List

namespace DebtGroups

open JsonText (Value)
open Regions (Box)

/-- An item of a marker: an edge or a point. -/
inductive MarkerItem
  | edge (startX startY endX endY : ℤ)
  | point (x y : ℤ)

structure ViolationRecord where
  violationId : String
  ruleId : String
  sourceIndex : ℤ
  markerGeometryDbu : List MarkerItem
  markerBboxDbu : Box

def MarkerItem.coordinates : MarkerItem → List ℤ
  | .edge startX startY endX endY => [startX, startY, endX, endY]
  | .point x y => [x, y]

/-- `_canonical_geometry` -/
def canonicalGeometry (violation : ViolationRecord) : List (List ℤ) :=
  (violation.markerGeometryDbu.map MarkerItem.coordinates).insertionSort (· ≤ ·)

structure CurrentViolationIdentity where
  identityId : String
  ruleId : String
  normalizedMarkerFingerprint : String
  canonicalMarkerGeometry : List (List ℤ)
  markerBbox : Box
  multiplicityIndex : ℕ
  currentViolationId : String
  snapshotId : String

structure DebtMarkerGroup where
  groupId : String
  ruleId : String
  normalizedFingerprint : String
  memberViolationIds : List String
  memberCount : ℕ
  representativeMarker : Option Box
  markerMultisetKey : String
  identities : List CurrentViolationIdentity

/-- What is hashed for an identity. -/
def identityValue (snapshotId ruleId fingerprint : String) (index : ℕ) (violationId : String) :
    Value :=
  .array [.string snapshotId, .string ruleId, .string fingerprint, .integer index,
    .string violationId]

def geometryValue (geometry : List (List ℤ)) : Value :=
  .array (geometry.map fun item => .array (item.map .integer))

/-- What is hashed for the markers of a group. -/
def multisetValue (ruleId fingerprint : String) (geometries : List (List (List ℤ))) : Value :=
  .array [.string ruleId, .string fingerprint, .array (geometries.map geometryValue),
    .integer geometries.length]

/-- What is hashed for a group. -/
def groupValue (snapshotId ruleId fingerprint multisetKey : String) : Value :=
  .array [.string snapshotId, .string ruleId, .string fingerprint, .string multisetKey]

section

-- `normalized_marker_fingerprint`, and `stable_hash` of the text that is written for a value
variable (fingerprint : ViolationRecord → String) (stableHash : List Char → String)

/-- The first twenty characters of the hash. -/
def shortHash (value : Value) : String := ((stableHash (JsonText.text value)).take 20).toString

/-- Rule and marker. -/
def groupKey (violation : ViolationRecord) : String ×ₗ String :=
  toLex (violation.ruleId, fingerprint violation)

/-- The order within a group. -/
def memberKey (violation : ViolationRecord) : ℤ ×ₗ String :=
  toLex (violation.sourceIndex, violation.violationId)

def sortMembers (members : List ViolationRecord) : List ViolationRecord :=
  members.insertionSort fun a b => memberKey a ≤ memberKey b

def identityOf (snapshotId : String) (key : String ×ₗ String) (index : ℕ)
    (member : ViolationRecord) : CurrentViolationIdentity where
  identityId := "current_violation_" ++ shortHash stableHash
    (identityValue snapshotId (ofLex key).1 (ofLex key).2 index member.violationId)
  ruleId := (ofLex key).1
  normalizedMarkerFingerprint := (ofLex key).2
  canonicalMarkerGeometry := canonicalGeometry member
  markerBbox := member.markerBboxDbu
  multiplicityIndex := index
  currentViolationId := member.violationId
  snapshotId := snapshotId

/-- `for index, member in enumerate(members)` -/
def identitiesOf (snapshotId : String) (key : String ×ₗ String)
    (members : List ViolationRecord) : List CurrentViolationIdentity :=
  members.zipIdx.map fun (member, index) => identityOf stableHash snapshotId key index member

def groupOf (snapshotId : String) (key : String ×ₗ String) (members : List ViolationRecord) :
    DebtMarkerGroup :=
  let identities := identitiesOf stableHash snapshotId key members
  let multisetKey := stableHash (JsonText.text (multisetValue (ofLex key).1 (ofLex key).2
    (identities.map (·.canonicalMarkerGeometry))))
  { groupId := "debt_group_" ++ shortHash stableHash
      (groupValue snapshotId (ofLex key).1 (ofLex key).2 multisetKey)
    ruleId := (ofLex key).1
    normalizedFingerprint := (ofLex key).2
    memberViolationIds := identities.map (·.currentViolationId)
    memberCount := identities.length
    representativeMarker := members.head?.map (·.markerBboxDbu)
    markerMultisetKey := multisetKey
    identities }

/-- `build_debt_marker_groups` -/
def buildDebtMarkerGroups (violations : List ViolationRecord) (snapshotId : String) :
    List DebtMarkerGroup :=
  (Dicts.groups (groupKey fingerprint) violations).map fun (key, members) =>
    groupOf stableHash snapshotId key (sortMembers members)

variable {fingerprint stableHash}

/-- **The groups do not depend on the order of the violations.** -/
theorem buildDebtMarkerGroups_perm {violations violations' : List ViolationRecord}
    (hnodup : (violations.map memberKey).Nodup) (h : violations.Perm violations')
    (snapshotId : String) :
    buildDebtMarkerGroups fingerprint stableHash violations snapshotId =
      buildDebtMarkerGroups fingerprint stableHash violations' snapshotId := by
  have hmembers : ∀ key, sortMembers (violations.filter (groupKey fingerprint · = key)) =
      sortMembers (violations'.filter (groupKey fingerprint · = key)) := fun key =>
    Dicts.insertionSort_eq_of_perm (hnodup.sublist (filter_sublist.map _)) (h.filter _)
  have hgroups := Dicts.groups_congr sortMembers h hmembers
  have hmap := congrArg (List.map fun group : (String ×ₗ String) × List ViolationRecord =>
    groupOf stableHash snapshotId group.1 group.2) hgroups
  rw [map_map, map_map] at hmap
  exact hmap

/-! ## The members -/

theorem map_violationId_identitiesOf (stableHash : List Char → String)
    (snapshotId : String) (key : String ×ₗ String)
    (members : List ViolationRecord) :
    (identitiesOf stableHash snapshotId key members).map (·.currentViolationId) =
      members.map (·.violationId) := by
  have hfst := congrArg (List.map (·.violationId)) (zipIdx_map_fst 0 members)
  rw [map_map] at hfst
  rw [identitiesOf, map_map]
  exact hfst

theorem map_index_identitiesOf (stableHash : List Char → String)
    (snapshotId : String) (key : String ×ₗ String)
    (members : List ViolationRecord) :
    (identitiesOf stableHash snapshotId key members).map (·.multiplicityIndex) =
      List.range members.length := by
  rw [identitiesOf, map_map, range_eq_range']
  exact zipIdx_map_snd 0 members

theorem sortMembers_perm (members : List ViolationRecord) : (sortMembers members).Perm members :=
  perm_insertionSort _ _

end

/-- The groups have the values. -/
theorem flatMap_groups_perm {K V : Type} [LinearOrder K] (key : V → K) (values : List V) :
    ((Dicts.groups key values).flatMap (·.2)).Perm values := by
  have hcollect := Groups.flatMap_collect_perm (values.map fun value => (key value, value))
  have hvalues : (values.map fun value => (key value, value)).map (·.2) = values := by
    rw [map_map]
    exact map_id values
  rw [hvalues] at hcollect
  exact ((Dicts.sortedItems_perm _).flatMap_right _).trans hcollect

section

variable {fingerprint : ViolationRecord → String} {stableHash : List Char → String}

/-- Every violation is a member of one group. -/
theorem memberViolationIds_perm (fingerprint : ViolationRecord → String)
    (stableHash : List Char → String) (violations : List ViolationRecord) (snapshotId : String) :
    ((buildDebtMarkerGroups fingerprint stableHash violations snapshotId).flatMap
      (·.memberViolationIds)).Perm (violations.map (·.violationId)) := by
  have hgroup : ∀ group ∈ Dicts.groups (groupKey fingerprint) violations,
      ((groupOf stableHash snapshotId group.1 (sortMembers group.2)).memberViolationIds).Perm
        (group.2.map (·.violationId)) := by
    intro group _
    have hids := map_violationId_identitiesOf stableHash snapshotId group.1 (sortMembers group.2)
    rw [groupOf, hids]
    exact (sortMembers_perm group.2).map _
  rw [buildDebtMarkerGroups, flatMap_map]
  refine (Perm.flatMap_left _ hgroup).trans ?_
  rw [← map_flatMap]
  exact (flatMap_groups_perm _ violations).map _

/-- What is hashed for an identity that was built. -/
def CurrentViolationIdentity.hashed (identity : CurrentViolationIdentity) : Value :=
  identityValue identity.snapshotId identity.ruleId identity.normalizedMarkerFingerprint
    identity.multiplicityIndex identity.currentViolationId

theorem identityId_eq {snapshotId : String} {key : String ×ₗ String}
    {members : List ViolationRecord} {identity : CurrentViolationIdentity}
    (h : identity ∈ identitiesOf stableHash snapshotId key members) :
    identity.identityId = "current_violation_" ++ shortHash stableHash identity.hashed := by
  obtain ⟨⟨member, index⟩, -, rfl⟩ := mem_map.1 h
  rfl

theorem wellFormed_identityValue (snapshotId ruleId fingerprint : String) (index : ℕ)
    (violationId : String) :
    JsonText.WellFormed (identityValue snapshotId ruleId fingerprint index violationId) := by
  refine .array fun item hitem => ?_
  simp only [mem_cons, not_mem_nil, or_false] at hitem
  obtain rfl | rfl | rfl | rfl | rfl := hitem
  · exact .string _
  · exact .string _
  · exact .string _
  · exact .integer _
  · exact .string _

/-- The text that is hashed tells the violations apart. -/
theorem violationId_of_text {identity other : CurrentViolationIdentity}
    (h : JsonText.text identity.hashed = JsonText.text other.hashed) :
    identity.currentViolationId = other.currentViolationId := by
  have hagree := (JsonText.text_eq_iff (wellFormed_identityValue _ _ _ _ _)
    (wellFormed_identityValue _ _ _ _ _)).1 h
  cases hagree with
  | array h =>
    simp only [forall₂_cons] at h
    exact JsonText.agree_string h.2.2.2.2.1

/-- The violations of one rule and marker. -/
def membersOf (fingerprint : ViolationRecord → String) (violations : List ViolationRecord)
    (group : DebtMarkerGroup) : List ViolationRecord :=
  violations.filter fun violation =>
    groupKey fingerprint violation = toLex (group.ruleId, group.normalizedFingerprint)

/-- What a group holds. -/
structure HoldsMembers (fingerprint : ViolationRecord → String)
    (violations : List ViolationRecord) (group : DebtMarkerGroup) : Prop where
  members : group.memberViolationIds =
    (sortMembers (membersOf fingerprint violations group)).map (·.violationId)
  nonempty : group.memberViolationIds ≠ []
  counted : group.identities.map (·.multiplicityIndex) = List.range group.memberCount

theorem holdsMembers_of_mem {violations : List ViolationRecord} {snapshotId : String}
    {group : DebtMarkerGroup}
    (h : group ∈ buildDebtMarkerGroups fingerprint stableHash violations snapshotId) :
    HoldsMembers fingerprint violations group := by
  obtain ⟨⟨key, members⟩, hmem, rfl⟩ := mem_map.1 h
  obtain ⟨hmembers, hne⟩ := Dicts.mem_groups.1 hmem
  have hids := map_violationId_identitiesOf stableHash snapshotId key (sortMembers members)
  have hcounted := map_index_identitiesOf stableHash snapshotId key (sortMembers members)
  have hlength : (identitiesOf stableHash snapshotId key (sortMembers members)).length =
      (sortMembers members).length := by
    rw [identitiesOf, length_map, length_zipIdx]
  refine ⟨?_, ?_, ?_⟩
  · have hsame : membersOf fingerprint violations
        (groupOf stableHash snapshotId key (sortMembers members)) = members := by
      rw [hmembers]
      exact filter_congr fun violation _ => decide_eq_decide.2 Iff.rfl
    exact hids.trans (congrArg (fun members => (sortMembers members).map (·.violationId))
      hsame.symm)
  · simp only [groupOf, hids]
    intro hnil
    exact hne (perm_nil.1 ((map_eq_nil_iff.1 hnil) ▸ (sortMembers_perm members).symm))
  · simp only [groupOf, hlength]
    exact hcounted

theorem strict_buildDebtMarkerGroups (violations : List ViolationRecord) (snapshotId : String) :
    ((buildDebtMarkerGroups fingerprint stableHash violations snapshotId).map fun group =>
      toLex (group.ruleId, group.normalizedFingerprint)).Pairwise (· < ·) := by
  rw [buildDebtMarkerGroups, map_map]
  exact pairwise_map.2 (Dicts.strict_groups _ violations)

theorem mem_identities {violations : List ViolationRecord} {snapshotId : String}
    {identity : CurrentViolationIdentity}
    (h : identity ∈ (buildDebtMarkerGroups fingerprint stableHash violations snapshotId).flatMap
      (·.identities)) :
    identity.identityId = "current_violation_" ++ shortHash stableHash identity.hashed := by
  obtain ⟨group, hgroup, hmem⟩ := mem_flatMap.1 h
  obtain ⟨⟨key, members⟩, -, rfl⟩ := mem_map.1 hgroup
  exact identityId_eq hmem

theorem currentViolationIds_eq (violations : List ViolationRecord) (snapshotId : String) :
    ((buildDebtMarkerGroups fingerprint stableHash violations snapshotId).flatMap
      (·.identities)).map (·.currentViolationId) =
      (buildDebtMarkerGroups fingerprint stableHash violations snapshotId).flatMap
        (·.memberViolationIds) := by
  rw [map_flatMap, buildDebtMarkerGroups, flatMap_map, flatMap_map]
  rfl

/-- **The groups identify the violations.**  They are the same in whatever order the violations
come. Every violation is a member once, of the group of its rule and marker, and the keys of
the groups are strictly increasing. Where the short hashes of the identities do not collide,
no two violations have one identity. -/
theorem groups_identify {violations violations' : List ViolationRecord}
    (hids : (violations.map (·.violationId)).Nodup) (hperm : violations.Perm violations')
    (snapshotId : String) :
    let groups := buildDebtMarkerGroups fingerprint stableHash violations snapshotId
    buildDebtMarkerGroups fingerprint stableHash violations' snapshotId = groups ∧
      (groups.flatMap (·.memberViolationIds)).Perm (violations.map (·.violationId)) ∧
      (∀ group ∈ groups, HoldsMembers fingerprint violations group) ∧
      (groups.map fun group => toLex (group.ruleId, group.normalizedFingerprint)).Pairwise
        (· < ·) ∧
      ((∀ a ∈ groups.flatMap (·.identities), ∀ b ∈ groups.flatMap (·.identities),
          shortHash stableHash a.hashed = shortHash stableHash b.hashed →
            JsonText.text a.hashed = JsonText.text b.hashed) →
        ((groups.flatMap (·.identities)).map (·.identityId)).Nodup) := by
  have hkeys : (violations.map memberKey).Nodup := by
    refine Nodup.of_map (fun key => (ofLex key).2) ?_
    rw [map_map]
    exact hids
  have hmembers := memberViolationIds_perm fingerprint stableHash violations snapshotId
  refine ⟨(buildDebtMarkerGroups_perm hkeys hperm snapshotId).symm, hmembers,
    fun group hgroup => holdsMembers_of_mem hgroup, strict_buildDebtMarkerGroups _ _, ?_⟩
  intro hcollision
  have hnodup := hmembers.nodup_iff.2 hids
  rw [← currentViolationIds_eq] at hnodup
  refine pairwise_map.2 ((pairwise_map.1 hnodup).imp_of_mem ?_)
  intro a b ha hb hne heq
  rw [mem_identities ha, mem_identities hb] at heq
  exact hne (violationId_of_text (hcollision a ha b hb ((String.append_right_inj _).1 heq)))

def sampleViolation (violationId : String) (sourceIndex : ℤ) : ViolationRecord where
  violationId := violationId
  ruleId := "M1.S.2"
  sourceIndex := sourceIndex
  markerGeometryDbu := [.edge 0 0 0 20, .edge 60 0 60 20]
  markerBboxDbu := ⟨0, 0, 60, 20, by decide⟩

/-- Two markers at one place, reported in either order. -/
theorem groups_identify_sample :
    buildDebtMarkerGroups (fun violation => violation.ruleId) String.ofList
        [sampleViolation "v2" 7, sampleViolation "v1" 3] "s0" =
      buildDebtMarkerGroups (fun violation => violation.ruleId) String.ofList
        [sampleViolation "v1" 3, sampleViolation "v2" 7] "s0" ∧
      ((buildDebtMarkerGroups (fun violation => violation.ruleId) String.ofList
        [sampleViolation "v1" 3, sampleViolation "v2" 7] "s0").flatMap
          (·.memberViolationIds)).Perm ["v1", "v2"] := by
  have hgroups := @groups_identify (fun violation => violation.ruleId) String.ofList
    [sampleViolation "v1" 3, sampleViolation "v2" 7] _ (by decide)
    (Perm.swap (sampleViolation "v2" 7) (sampleViolation "v1" 3) []) "s0"
  exact ⟨hgroups.1, hgroups.2.1⟩

end

end DebtGroups

end DRCAgent
