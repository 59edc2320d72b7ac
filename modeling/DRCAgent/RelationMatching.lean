/-
# Matching of baseline relations

`match_reviewed_m1_relation_lineage`
(src/drc_agent/repair_kernel_phase4r2/enclosure_lineage.py): every root relation takes the
current relation of its signature whose measurement is nearest, and what nobody takes is new.

The signature is the key of a greedy matching, so the nearest measurement decides who is
paired with whom but not how many are (`match_report`).
-/
import DRCAgent.GreedyMatching
import DRCAgent.SourceLineage

namespace DRCAgent.Enclosure

open Connectivity (Json)
open GreedyMatching List

/-! ## The source -/

/-- `ReviewedSpacingParticipant` -/
structure ReviewedSpacingParticipant where
  physicalGeometryId : String
  sourceObjectId : String
  sourceAnchorId : String
  sourceCell : String
  instanceAnchorId : Option String := none
  edgeIndex : ℤ
  edgeCoordinateDbu : ℤ
  edgeLengthDbu : ℤ
  edgeClass : String
  deriving DecidableEq

/-- `ReviewedSpacingRelation`: `available.remove` compares all fields. -/
structure ReviewedSpacingRelation where
  relationId : String
  ruleId : String
  participantIds : List String
  participants : List ReviewedSpacingParticipant
  separationAxis : String
  currentMeasurementDbu : ℤ
  requiredMeasurementDbu : ℤ
  deficitDbu : ℤ
  deckSha256 : String
  fidelity : String
  reasonCodes : List String
  deriving DecidableEq

/-- `BaselineRelationLineage` -/
structure BaselineRelationLineage where
  lineageId : String
  ruleId : String
  rootRelationId : String
  currentRelationId : String
  rootMeasurementDbu : ℤ
  currentMeasurementDbu : ℤ
  participantOriginCells : List String
  edgeClasses : List String
  classification : String
  reasonCodes : List String

/-- `LocalRelationLineageReport` -/
structure LocalRelationLineageReport where
  reportId : String
  rootRelationCount : ℕ
  currentRelationCount : ℕ
  persistentVariants : List BaselineRelationLineage
  unmatchedCurrentRelationIds : List String
  semanticallyNewCount : ℕ

/-- `_origin_cell` -/
def originCell (name : String) : String :=
  if name = "" then "UNAVAILABLE"
  else
    let value := (name.toList.dropPrefix? "cell_".toList).getD name.toList
    -- without the marker nothing is cut off
    String.ofList ((Lineage.before "_drc_agent_spec_".toList value).getD value)

/-- The origin cells and edge classes of the participants, sorted. -/
structure Signature where
  roles : List (String × String)
  deriving DecidableEq

/-- `_signature` -/
def signature (relation : ReviewedSpacingRelation) : Signature where
  roles := (relation.participants.map fun item =>
    (originCell item.sourceCell, item.edgeClass)).insertionSort fun a b => toLex a ≤ toLex b

/-- The choice among the relations that are still available: the nearest measurement, then
the smallest id. -/
def nearest (root : ReviewedSpacingRelation) (available : List ReviewedSpacingRelation) :
    Option ReviewedSpacingRelation :=
  (available.filter fun item => signature item = signature root).argmin fun item =>
    (toLex ((item.currentMeasurementDbu - root.currentMeasurementDbu).natAbs,
      item.relationId) : ℕ ×ₗ String)

section Report

variable (stableHash : Json → String)

/-- `prefix + stable_hash(parts)[:20]` -/
def hashedId (kind : String) (parts : List Json) : String :=
  kind ++ String.ofList ((stableHash (.array parts)).toList.take 20)

def texts (values : List String) : Json := .array (values.map .string)

/-- The row of a root relation and the current relation that it takes. -/
def lineageOf (pair : ReviewedSpacingRelation × ReviewedSpacingRelation) :
    BaselineRelationLineage :=
  let origins := ((signature pair.1).roles.map (·.1)).insertionSort (· ≤ ·)
  let edgeClasses := ((signature pair.1).roles.map (·.2)).insertionSort (· ≤ ·)
  { lineageId := hashedId stableHash "baseline_relation_lineage_"
      [.string pair.1.relationId, .string pair.2.relationId, texts origins, texts edgeClasses]
    ruleId := "M1.S.2"
    rootRelationId := pair.1.relationId
    currentRelationId := pair.2.relationId
    rootMeasurementDbu := pair.1.currentMeasurementDbu
    currentMeasurementDbu := pair.2.currentMeasurementDbu
    participantOriginCells := origins
    edgeClasses
    classification := "BASELINE_RELATION_PERSISTENT_VARIANT"
    reasonCodes := ["SAME_REVIEWED_RELATION_TYPE", "SAME_PARTICIPANT_CELL_LINEAGE",
      "SAME_TIP_SIDE_ROLES", "LOCAL_MARKER_VARIANT_NOT_TEMPORARY_DEBT"] }

/-- `match_reviewed_m1_relation_lineage` -/
def matchReviewedM1RelationLineage (roots currents : List ReviewedSpacingRelation) :
    LocalRelationLineageReport :=
  let matched := matchPool nearest roots currents
  let persistent := matched.1.map (lineageOf stableHash)
  { reportId := hashedId stableHash "local_relation_lineage_"
      [texts (roots.map (·.relationId)), texts (currents.map (·.relationId)),
        texts (persistent.map (·.lineageId))]
    rootRelationCount := roots.length
    currentRelationCount := currents.length
    persistentVariants := persistent
    unmatchedCurrentRelationIds := matched.2.map (·.relationId)
    semanticallyNewCount := matched.2.length }

end Report

/-! ## The choice is by signature -/

theorem picksByKey_nearest : PicksByKey signature signature nearest where
  mem := by
    intro root available current hpick
    have hmem := argmin_mem hpick
    rw [mem_filter, decide_eq_true_eq] at hmem
    exact hmem
  none := by
    intro root available hpick item hitem hsame
    have hempty := argmin_eq_none.1 hpick
    have hcandidate : item ∈ available.filter fun item => signature item = signature root :=
      mem_filter.2 ⟨hitem, decide_eq_true hsame⟩
    rw [hempty] at hcandidate
    cases hcandidate

/-! ## What the report says -/

/-- The current relations that are reported new. -/
def newRelations (report : LocalRelationLineageReport)
    (currents : List ReviewedSpacingRelation) : List ReviewedSpacingRelation :=
  currents.filter fun current => current.relationId ∈ report.unmatchedCurrentRelationIds

/-- The report pairs root relations and current relations one to one, each pair of one
signature, and no matching by signatures has more pairs. -/
structure PairsBySignature (report : LocalRelationLineageReport)
    (roots currents : List ReviewedSpacingRelation)
    (pairs : List (ReviewedSpacingRelation × ReviewedSpacingRelation)) : Prop where
  reported : report.persistentVariants.map (fun row => (row.rootRelationId,
    row.currentRelationId)) = pairs.map fun pair => (pair.1.relationId, pair.2.relationId)
  rootsOnce : (pairs.map (·.1)).Sublist roots
  currentsOnce : (pairs.map fun pair => pair.2.relationId).Nodup
  currentsMem : ∀ pair ∈ pairs, pair.2 ∈ currents
  signatures : ∀ pair ∈ pairs, signature pair.2 = signature pair.1
  maximum : ∀ other : List (ReviewedSpacingRelation × ReviewedSpacingRelation),
    (other.map (·.1)).Subperm roots → (other.map (·.2)).Subperm currents →
      (∀ pair ∈ other, signature pair.2 = signature pair.1) → other.length ≤ pairs.length

section Matched

variable {stableHash : Json → String} {roots currents : List ReviewedSpacingRelation}

/-- With distinct ids an unmatched id is the id of a relation that is left. -/
theorem newRelations_perm (hids : (currents.map (·.relationId)).Nodup) :
    (newRelations (matchReviewedM1RelationLineage stableHash roots currents) currents).Perm
      (matchPool nearest roots currents).2 := by
  have hperm := taken_append_left_perm picksByKey_nearest roots currents
  have hnodup : currents.Nodup := hids.of_map
  have hleft : ∀ current, current ∈ (matchPool nearest roots currents).2 →
      current ∈ currents :=
    fun current hmem => hperm.subset (mem_append_right _ hmem)
  refine (perm_ext_iff_of_nodup (hnodup.filter _) ?_).2 fun current => ?_
  · exact (nodup_append.1 (hperm.nodup_iff.2 hnodup)).2.1
  constructor
  · intro hmem
    obtain ⟨hcurrent, hid⟩ := mem_filter.1 hmem
    obtain ⟨other, hother, heq⟩ := mem_map.1 (of_decide_eq_true hid)
    exact inj_on_of_nodup_map hids (hleft other hother) hcurrent heq ▸ hother
  · intro hmem
    exact mem_filter.2 ⟨hleft current hmem, decide_eq_true (mem_map_of_mem hmem)⟩

theorem currentRelationIds_match :
    (matchReviewedM1RelationLineage stableHash roots currents).persistentVariants.map
      (·.currentRelationId) =
        (matchPool nearest roots currents).1.map fun pair => pair.2.relationId := by
  show ((matchPool nearest roots currents).1.map (lineageOf stableHash)).map _ = _
  rw [map_map]
  rfl

/-- The ids that are paired and the ids that are unmatched are those of the current
relations. -/
theorem paired_append_unmatched_perm (roots currents : List ReviewedSpacingRelation) :
    (((matchPool nearest roots currents).1.map fun pair => pair.2.relationId) ++
      (matchPool nearest roots currents).2.map (·.relationId)).Perm
        (currents.map (·.relationId)) := by
  have hperm := (taken_append_left_perm picksByKey_nearest roots currents).map (·.relationId)
  rw [map_append, map_map] at hperm
  exact hperm

theorem pairsBySignature_match (hids : (currents.map (·.relationId)).Nodup) :
    PairsBySignature (matchReviewedM1RelationLineage stableHash roots currents) roots currents
      (matchPool nearest roots currents).1 where
  reported := by
    show ((matchPool nearest roots currents).1.map (lineageOf stableHash)).map _ = _
    rw [map_map]
    rfl
  rootsOnce := takers_sublist nearest roots currents
  currentsOnce :=
    (nodup_append.1 ((paired_append_unmatched_perm roots currents).nodup_iff.2 hids)).1
  currentsMem := by
    intro pair hpair
    have hperm := taken_append_left_perm picksByKey_nearest roots currents
    exact hperm.subset (mem_append_left _ (mem_map_of_mem hpair))
  signatures := fun pair hpair => key_of_mem_pairs picksByKey_nearest hpair
  maximum := fun other hroots hcurrents hsignatures =>
    length_le_of_matching picksByKey_nearest hroots hcurrents hsignatures

/-- The signatures of the relations that are reported new. -/
def newSignatures (report : LocalRelationLineageReport)
    (currents : List ReviewedSpacingRelation) : Finset Signature :=
  ((newRelations report currents).map signature).toFinset

theorem mem_newSignatures (hids : (currents.map (·.relationId)).Nodup) {s : Signature} :
    s ∈ newSignatures (matchReviewedM1RelationLineage stableHash roots currents) currents ↔
      (roots.map signature).count s < (currents.map signature).count s := by
  rw [newSignatures, mem_toFinset, ((newRelations_perm hids).map signature).mem_iff]
  exact mem_keys_left picksByKey_nearest

theorem semanticallyNewCount_match :
    (matchReviewedM1RelationLineage stableHash roots currents).semanticallyNewCount =
      ∑ s ∈ (currents.map signature).toFinset,
        ((currents.map signature).count s - (roots.map signature).count s) :=
  length_left picksByKey_nearest roots currents

end Matched

/-- **The matching.**  Of current relations with distinct ids, the report pairs as many with
root relations of their signatures as can be; every current relation is either paired or
unmatched; the new ones are, of each signature, those that there are more than root
relations; and neither their number nor their signatures depend on an order. -/
theorem match_report (stableHash : Json → String)
    (roots currents : List ReviewedSpacingRelation)
    (hids : (currents.map (·.relationId)).Nodup) :
    let report := matchReviewedM1RelationLineage stableHash roots currents
    (∃ pairs, PairsBySignature report roots currents pairs) ∧
      (∀ current ∈ currents,
        current.relationId ∈ report.persistentVariants.map (·.currentRelationId) ↔
          current.relationId ∉ report.unmatchedCurrentRelationIds) ∧
      report.semanticallyNewCount = (∑ s ∈ (currents.map signature).toFinset,
        ((currents.map signature).count s - (roots.map signature).count s)) ∧
      ∀ roots' currents', roots.Perm roots' → currents.Perm currents' →
        let report' := matchReviewedM1RelationLineage stableHash roots' currents'
        report'.semanticallyNewCount = report.semanticallyNewCount ∧
          newSignatures report' currents' = newSignatures report currents := by
  intro report
  have hall := paired_append_unmatched_perm roots currents
  refine ⟨⟨_, pairsBySignature_match hids⟩, fun current hcurrent => ?_,
    semanticallyNewCount_match, fun roots' currents' hroots hcurrents => ⟨?_, ?_⟩⟩
  · -- the ids that are paired and those that are not are all ids, each once
    rw [currentRelationIds_match]
    have hnodup := hall.nodup_iff.2 hids
    have hmem := hall.symm.subset (mem_map_of_mem hcurrent)
    constructor
    · intro hpaired hunmatched
      exact (nodup_append.1 hnodup).2.2 _ hpaired _ hunmatched rfl
    · intro hunmatched
      exact (mem_append.1 hmem).resolve_right hunmatched
  · rw [semanticallyNewCount_match, semanticallyNewCount_match,
      toFinset_eq_of_perm _ _ (hcurrents.map signature)]
    refine Finset.sum_congr rfl fun s _ => ?_
    rw [(hcurrents.map signature).count_eq, (hroots.map signature).count_eq]
  · have hids' := (hcurrents.map (·.relationId)).nodup_iff.1 hids
    ext s
    rw [mem_newSignatures hids', mem_newSignatures hids, (hcurrents.map signature).count_eq,
      (hroots.map signature).count_eq]

/-- A relation between two edges of two cells. -/
def sampleRelation (relationId : String) (cells : String × String) (measurement : ℤ) :
    ReviewedSpacingRelation where
  relationId
  ruleId := "M1.S.2"
  participantIds := ["p1", "p2"]
  participants := [⟨"p1", "o1", "a1", cells.1, none, 0, 10, 40, "TIP"⟩,
    ⟨"p2", "o2", "a2", cells.2, none, 2, 40, 90, "SIDE"⟩]
  separationAxis := "X"
  currentMeasurementDbu := measurement
  requiredMeasurementDbu := 60
  deficitDbu := 60 - measurement
  deckSha256 := ""
  fidelity := "REVIEWED"
  reasonCodes := []

/-- A root relation and two current ones of its signature, the second in a specialized
copy of its cells. -/
theorem match_report_sample :
    let currents := [sampleRelation "c1" ("cell_inv", "cell_nand") 20,
      sampleRelation "c2" ("inv_drc_agent_spec_7", "nand") 31]
    let report := matchReviewedM1RelationLineage (fun _ => "hash")
      [sampleRelation "r1" ("inv", "nand") 30] currents
    report.unmatchedCurrentRelationIds = ["c1"] ∧ ∀ current ∈ currents,
      current.relationId ∈ report.persistentVariants.map (·.currentRelationId) ↔
        current.relationId ∉ report.unmatchedCurrentRelationIds := by
  intro currents report
  exact ⟨by decide +kernel, (match_report (fun _ => "hash")
    [sampleRelation "r1" ("inv", "nand") 30] currents (by decide +kernel)).2.1⟩

end DRCAgent.Enclosure
