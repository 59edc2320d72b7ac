/-
# Batch scheduling loses and duplicates nothing

`TransactionBatchScheduler.schedule` of `coordinator/batching.py` is a greedy
packing of the bundles in `bundle_id` order: the state of its loop is the image of
the state of the packing, so its batches are the images of the groups.

Main results:
* `schedule_eq_pack`: the batches are those of the groups of the packing
* `schedule_partitions`: every bundle that is neither empty nor too large is in one batch
-/
import DRCAgent.GreedyPacking
import DRCAgent.WindowCoordination

namespace DRCAgent

open GreedyPacking List

/-! ## Groups of bundles -/

section Groups

variable (candidates : List WindowCandidate) (config : TransactionConfig)

/-- The candidate ids of a group, bundle by bundle. -/
def groupCandidateIds (group : List JointRepairBundle) : List String :=
  group.flatMap fun bundle => sortedIds (selectedOf candidates bundle)

/-- The union of the modified objects of a group. -/
def groupObjects (group : List JointRepairBundle) : Finset String :=
  modifiedObjects (group.flatMap (selectedOf candidates))

/-- The actions and the objects are within the caps. -/
def WithinCaps (group : List JointRepairBundle) : Prop :=
  (groupCandidateIds candidates group).length ≤ config.maxNonNoopActionsPerBatch ∧
    (groupObjects candidates group).card ≤ config.maxModifiedObjectsPerBatch

instance (group : List JointRepairBundle) : Decidable (WithinCaps candidates config group) :=
  inferInstanceAs (Decidable (_ ∧ _))

/-- A bundle that selects an action and fits the caps on its own. -/
def Schedulable (bundle : JointRepairBundle) : Prop :=
  selectedOf candidates bundle ≠ [] ∧ WithinCaps candidates config [bundle]

instance (bundle : JointRepairBundle) : Decidable (Schedulable candidates config bundle) :=
  inferInstanceAs (Decidable (_ ∧ _))

/-- What a batch says of the bundles it was made of. -/
structure IsBatchOf (snapshot : DesignSnapshotRef) (group : List JointRepairBundle)
    (batch : TransactionBatch) : Prop where
  nonempty : group ≠ []
  bundleIds : batch.bundleIds = group.map (·.bundleId)
  candidateIds : batch.candidateIds = groupCandidateIds candidates group
  baseSnapshotId : batch.baseSnapshotId = some snapshot.snapshotId
  actionCount : batch.nonNoopActionCount = batch.candidateIds.length
  actions_le : batch.candidateIds.length ≤ config.maxNonNoopActionsPerBatch
  objectCount : batch.modifiedObjectCount = (groupObjects candidates group).card
  objects_le : batch.modifiedObjectCount ≤ config.maxModifiedObjectsPerBatch

theorem groupCandidateIds_append (g g' : List JointRepairBundle) :
    groupCandidateIds candidates (g ++ g') =
      groupCandidateIds candidates g ++ groupCandidateIds candidates g' := by
  simp [groupCandidateIds]

theorem groupObjects_append (g g' : List JointRepairBundle) :
    groupObjects candidates (g ++ g') =
      groupObjects candidates g ∪ groupObjects candidates g' := by
  simp [groupObjects, modifiedObjects]

theorem groupCandidateIds_singleton (bundle : JointRepairBundle) :
    groupCandidateIds candidates [bundle] = sortedIds (selectedOf candidates bundle) := by
  simp [groupCandidateIds]

theorem groupObjects_singleton (bundle : JointRepairBundle) :
    groupObjects candidates [bundle] = modifiedObjects (selectedOf candidates bundle) := by
  simp [groupObjects]

end Groups

/-! ## The loop is a greedy packing -/

section Schedule

variable (batchHash : String × List String × List String → String)
  (candidates : List WindowCandidate) (snapshot : DesignSnapshotRef) (config : TransactionConfig)

/-- The loop state over a group being filled. -/
def fillingOf (group : List JointRepairBundle) : ScheduleState where
  currentBundles := group.map (·.bundleId)
  currentCandidates := groupCandidateIds candidates group
  currentObjects := groupObjects candidates group

/-- The batch of a group. -/
def batchOf (group : List JointRepairBundle) : TransactionBatch :=
  (fillingOf candidates group).batch batchHash snapshot config

/-- The loop state that a state of the packing stands for. -/
def loopState (s : State JointRepairBundle) : ScheduleState :=
  { fillingOf candidates s.current with
    batches := s.closed.map (batchOf batchHash candidates snapshot config) }

/-- The loop closes a batch where the packing closes a group. -/
theorem loopState_flush (s : State JointRepairBundle) :
    (loopState batchHash candidates snapshot config s).flush batchHash snapshot config =
      loopState batchHash candidates snapshot config s.flush := by
  rw [ScheduleState.flush, State.flush]
  by_cases hcurrent : s.current = []
  · rw [if_pos hcurrent, if_pos (by simp [loopState, fillingOf, hcurrent])]
  · rw [if_neg hcurrent, if_neg (by simp [loopState, fillingOf, hcurrent])]
    simp only [loopState, map_append, map_cons, map_nil]
    rfl

/-- The open group and the bundle together stay within the caps. -/
def FitsGroup (group : List JointRepairBundle) (bundle : JointRepairBundle) : Prop :=
  WithinCaps candidates config (group ++ [bundle])

instance : DecidableRel (FitsGroup candidates config) :=
  fun group bundle => inferInstanceAs (Decidable (WithinCaps candidates config (group ++ [bundle])))

/-- The bundle is over a cap on its own. -/
def TooLarge (bundle : JointRepairBundle) : Prop := ¬ WithinCaps candidates config [bundle]

instance : DecidablePred (TooLarge candidates config) :=
  fun bundle => inferInstanceAs (Decidable (¬ WithinCaps candidates config [bundle]))

/-- The loop takes a bundle as the packing does. -/
theorem loopState_add (s : State JointRepairBundle) (bundle : JointRepairBundle) :
    (loopState batchHash candidates snapshot config s).add batchHash snapshot config bundle
        (selectedOf candidates bundle) =
      loopState batchHash candidates snapshot config
        (s.add (TooLarge candidates config) (FitsGroup candidates config) bundle) := by
  -- a bundle that joins the open group joins its image
  have hjoin : ∀ t : State JointRepairBundle,
      { loopState batchHash candidates snapshot config t with
        currentBundles :=
          (loopState batchHash candidates snapshot config t).currentBundles ++ [bundle.bundleId]
        currentCandidates :=
          (loopState batchHash candidates snapshot config t).currentCandidates ++
            sortedIds (selectedOf candidates bundle)
        currentObjects :=
          (loopState batchHash candidates snapshot config t).currentObjects ∪
            modifiedObjects (selectedOf candidates bundle) } =
      loopState batchHash candidates snapshot config
        { t with current := t.current ++ [bundle] } := by
    intro t
    simp only [loopState, fillingOf, groupCandidateIds_append, groupObjects_append,
      groupCandidateIds_singleton, groupObjects_singleton, map_append, map_cons,
      map_nil]
  rw [ScheduleState.add, State.add]
  have hlarge : (config.maxNonNoopActionsPerBatch <
        ((sortedIds (selectedOf candidates bundle)).length : ℤ) ∨
      config.maxModifiedObjectsPerBatch <
        ((modifiedObjects (selectedOf candidates bundle)).card : ℤ)) ↔
      TooLarge candidates config bundle := by
    rw [TooLarge, WithinCaps, groupCandidateIds_singleton, groupObjects_singleton]
    omega
  have hfits : (config.maxNonNoopActionsPerBatch <
        (((loopState batchHash candidates snapshot config s).currentCandidates.length +
          (sortedIds (selectedOf candidates bundle)).length : ℕ) : ℤ) ∨
      config.maxModifiedObjectsPerBatch <
        (((loopState batchHash candidates snapshot config s).currentObjects ∪
          modifiedObjects (selectedOf candidates bundle)).card : ℤ)) ↔
      ¬ FitsGroup candidates config s.current bundle := by
    rw [FitsGroup, WithinCaps, groupCandidateIds_append, groupObjects_append,
      groupCandidateIds_singleton, groupObjects_singleton, length_append]
    show _ < (((groupCandidateIds candidates s.current).length + _ : ℕ) : ℤ) ∨
      _ < ((groupObjects candidates s.current ∪ _).card : ℤ) ↔ _
    omega
  -- the same three branches on both sides
  simp only [hlarge, hfits]
  by_cases h : TooLarge candidates config bundle
  · rw [if_pos h, if_pos h, loopState_flush]
  · rw [if_neg h, if_neg h]
    by_cases hfit : FitsGroup candidates config s.current bundle
    · rw [if_pos hfit, if_neg (not_not_intro hfit)]
      exact hjoin s
    · rw [if_neg hfit, if_pos hfit, loopState_flush]
      exact hjoin s.flush

/-- The bundles in id order that select an action. -/
def pendingBundles (bundles : List JointRepairBundle) : List JointRepairBundle :=
  (bundles.insertionSort fun a b => a.bundleId ≤ b.bundleId).filter
    fun bundle => selectedOf candidates bundle ≠ []

/-- The batches are those of the groups of the packing. -/
theorem schedule_eq_pack (bundles : List JointRepairBundle) :
    schedule batchHash candidates snapshot config bundles =
      (pack (TooLarge candidates config) (FitsGroup candidates config)
        (pendingBundles candidates bundles)).map
          (batchOf batchHash candidates snapshot config) := by
  have hfold : ∀ (l : List JointRepairBundle) (s : State JointRepairBundle),
      (l.filterMap fun bundle =>
          let selected := selectedOf candidates bundle
          if selected = [] then none else some (bundle, selected)).foldl
        (fun (s : ScheduleState) p => s.add batchHash snapshot config p.1 p.2)
        (loopState batchHash candidates snapshot config s) =
      loopState batchHash candidates snapshot config
        ((l.filter fun bundle => selectedOf candidates bundle ≠ []).foldl
          (State.add (TooLarge candidates config) (FitsGroup candidates config)) s) := by
    intro l
    induction l with
    | nil => exact fun s => rfl
    | cons bundle l ih =>
      intro s
      -- an empty bundle is skipped on both sides
      by_cases hselected : selectedOf candidates bundle = []
      · rw [filterMap_cons_none (by simp [hselected]),
          filter_cons_of_neg (by simp [hselected])]
        exact ih s
      · rw [filterMap_cons_some (by simp only [if_neg hselected]; rfl),
          filter_cons_of_pos (by simp [hselected]), foldl_cons, foldl_cons,
          loopState_add]
        exact ih _
  have hstart : loopState batchHash candidates snapshot config {} = {} := rfl
  show (ScheduleState.flush batchHash snapshot config (List.foldl _ {} _)).batches = _
  rw [← hstart, hfold, loopState_flush]
  rfl

/-! ## Every schedulable bundle is in one batch -/

/-- A group within the caps gives a batch. -/
theorem isBatchOf_batchOf {group : List JointRepairBundle} (hgroup : group ≠ [])
    (hcaps : WithinCaps candidates config group) :
    IsBatchOf candidates config snapshot group
      (batchOf batchHash candidates snapshot config group) where
  nonempty := hgroup
  bundleIds := rfl
  candidateIds := rfl
  baseSnapshotId := rfl
  actionCount := rfl
  actions_le := hcaps.1
  objectCount := rfl
  objects_le := hcaps.2

/-- What is pending and not too large is schedulable. -/
theorem pendingBundles_schedulable (bundles : List JointRepairBundle) :
    (pendingBundles candidates bundles).filter (fun b => ¬ TooLarge candidates config b) =
      (bundles.insertionSort fun a b => a.bundleId ≤ b.bundleId).filter
        (fun b => Schedulable candidates config b) := by
  rw [pendingBundles, filter_filter]
  congr 1
  funext bundle
  simp only [TooLarge, Schedulable, not_not, ← Bool.decide_and, and_comm]

/-- What is in a duplicate-free concatenation is in exactly one of the lists, and once. -/
theorem exists_only_list {β γ : Type*} [DecidableEq γ] {f : β → List γ} {l : List β} {x : γ}
    (hnodup : (l.flatMap f).Nodup) (hx : x ∈ l.flatMap f) :
    ∃ before y after, l = before ++ y :: after ∧ (f y).count x = 1 ∧
      ∀ z ∈ before ++ after, x ∉ f z := by
  obtain ⟨y, hy, hxy⟩ := mem_flatMap.mp hx
  obtain ⟨before, after, rfl⟩ := append_of_mem hy
  have hcount := nodup_iff_count_le_one.mp hnodup x
  rw [flatMap_append, flatMap_cons, count_append, count_append] at hcount
  have hpos : 0 < (f y).count x := count_pos_iff.mpr hxy
  refine ⟨before, y, after, rfl, by omega, fun z hz hxz => ?_⟩
  rcases mem_append.mp hz with hz | hz
  · have : 0 < (before.flatMap f).count x :=
      count_pos_iff.mpr (mem_flatMap.mpr ⟨z, hz, hxz⟩)
    omega
  · have : 0 < (after.flatMap f).count x :=
      count_pos_iff.mpr (mem_flatMap.mpr ⟨z, hz, hxz⟩)
    omega

/-- The batches have the bundles of their groups. -/
theorem flatMap_bundleIds {groups : List (List JointRepairBundle)}
    {batches : List TransactionBatch}
    (h : List.Forall₂ (IsBatchOf candidates config snapshot) groups batches) :
    batches.flatMap (·.bundleIds) = groups.flatten.map (·.bundleId) := by
  induction h with
  | nil => rfl
  | cons hbatch _ ih =>
    rw [flatMap_cons, flatten_cons, map_append, ih, hbatch.bundleIds]

/-- The groups of the batches hold, in `bundle_id` order, exactly the bundles that select
an action and fit the caps; every batch is within the caps and counts the union of its
modified objects. With distinct bundle ids, the id of such a bundle is in exactly one
batch, once, and the id of any other bundle is in none. -/
theorem schedule_partitions (bundles : List JointRepairBundle) :
    ∃ groups : List (List JointRepairBundle),
      groups.flatten = (bundles.insertionSort fun a b => a.bundleId ≤ b.bundleId).filter
        (fun b => Schedulable candidates config b) ∧
      List.Forall₂ (IsBatchOf candidates config snapshot) groups
        (schedule batchHash candidates snapshot config bundles) ∧
      ((bundles.map (·.bundleId)).Nodup → ∀ bundle ∈ bundles,
        (Schedulable candidates config bundle → ∃ before batch after,
          schedule batchHash candidates snapshot config bundles = before ++ batch :: after ∧
          batch.bundleIds.count bundle.bundleId = 1 ∧
          ∀ other ∈ before ++ after, bundle.bundleId ∉ other.bundleIds) ∧
        (¬ Schedulable candidates config bundle →
          ∀ batch ∈ schedule batchHash candidates snapshot config bundles,
            bundle.bundleId ∉ batch.bundleIds)) := by
  have hflatten : (pack (TooLarge candidates config) (FitsGroup candidates config)
      (pendingBundles candidates bundles)).flatten = _ := flatten_pack _
  rw [pendingBundles_schedulable] at hflatten
  have hbatches : List.Forall₂ (IsBatchOf candidates config snapshot)
      (pack (TooLarge candidates config) (FitsGroup candidates config)
        (pendingBundles candidates bundles))
      (schedule batchHash candidates snapshot config bundles) := by
    rw [schedule_eq_pack, forall₂_map_right_iff, forall₂_same]
    intro group hgroup
    obtain ⟨hne, hcaps⟩ := pack_forall (P := WithinCaps candidates config)
      (fun bundle h => not_not.mp h) (fun _ _ _ h _ => h) _ group hgroup
    exact isBatchOf_batchOf batchHash candidates snapshot config hne hcaps
  refine ⟨_, hflatten, hbatches, fun hnodup bundle hbundle => ?_⟩
  have hids := flatMap_bundleIds candidates snapshot config hbatches
  rw [hflatten] at hids
  have hsorted : ((bundles.insertionSort fun a b => a.bundleId ≤ b.bundleId).map
      (·.bundleId)).Nodup :=
    ((perm_insertionSort _ bundles).map _).nodup_iff.mpr hnodup
  have hmem : bundle ∈ bundles.insertionSort fun a b => a.bundleId ≤ b.bundleId :=
    (mem_insertionSort _).mpr hbundle
  refine ⟨fun hschedulable => ?_, fun hschedulable batch hbatch hid => hschedulable ?_⟩
  · refine exists_only_list ?_ ?_
    · rw [hids]
      exact (Sublist.map _ filter_sublist).nodup hsorted
    · rw [hids]
      exact mem_map.mpr ⟨bundle, mem_filter.mpr ⟨hmem, by simpa using hschedulable⟩, rfl⟩
  · have hid' := mem_flatMap.mpr ⟨batch, hbatch, hid⟩
    rw [hids] at hid'
    obtain ⟨other, hother, heq⟩ := mem_map.mp hid'
    obtain ⟨hother, hfits⟩ := mem_filter.mp hother
    -- the ids are distinct, so the bundle of that id is this one
    have hsame : other = bundle := inj_on_of_nodup_map hsorted hother hmem heq
    rw [← hsame]
    simpa using hfits

end Schedule

end DRCAgent
