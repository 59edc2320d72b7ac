/-
# The roles of a window's regions

The regions of a window are split by two searches. `classify_window_region_roles`
closes the decision regions under the proven hard edges inside the window;
`build_helper_assignments` starts at each region so found, follows the proven hard
edges of the whole graph and stops at decision regions. The two agree: a path inside
the window from a helper to a decision region has a first decision region on it, and
the second search finds it.

Main result:

* `window_roles`: the three roles partition the window, the decision and helper
  regions are the ones they are meant to be, and every helper has one assignment
  that is bound to current targets.
-/
import DRCAgent.StopSearch
import DRCAgent.WindowClosure

namespace DRCAgent

open List

/-! ## Proven edges -/

/-- `x` and `y` are joined by a hard edge with a physical proof. -/
def ProvenEdge (graph : AgentGraph) (x y : String) : Prop :=
  ∃ edge ∈ graph.edges, edge.hard = true ∧ edge.evidence.any (·.isPhysicalProof) = true ∧
    (edge.u = x ∧ edge.v = y ∨ edge.u = y ∧ edge.v = x)

/-- The edge lies inside the regions. -/
def ProvenInside (graph : AgentGraph) (regionIds : List String) (x y : String) : Prop :=
  ProvenEdge graph x y ∧ x ∈ regionIds ∧ y ∈ regionIds

variable {graph : AgentGraph} {regionIds frontier decisions : List String} {x y : String}

theorem ProvenEdge.symm (h : ProvenEdge graph x y) : ProvenEdge graph y x := by
  obtain ⟨edge, hmem, hhard, hproof, hends⟩ := h
  exact ⟨edge, hmem, hhard, hproof, hends.symm⟩

theorem mem_physicalAdjacency :
    y ∈ physicalAdjacency graph regionIds x ↔ ProvenInside graph regionIds x y := by
  rw [physicalAdjacency, mem_partners]
  simp only [mem_map, mem_filter, Bool.and_eq_true, decide_eq_true_eq, Prod.mk.injEq]
  constructor
  · rintro (⟨edge, ⟨hmem, ⟨⟨hhard, hu⟩, hv⟩, hproof⟩, rfl, rfl⟩ |
      ⟨edge, ⟨hmem, ⟨⟨hhard, hu⟩, hv⟩, hproof⟩, rfl, rfl⟩)
    · exact ⟨⟨edge, hmem, hhard, hproof, .inl ⟨rfl, rfl⟩⟩, hu, hv⟩
    · exact ⟨⟨edge, hmem, hhard, hproof, .inr ⟨rfl, rfl⟩⟩, hv, hu⟩
  · rintro ⟨⟨edge, hmem, hhard, hproof, ⟨rfl, rfl⟩ | ⟨rfl, rfl⟩⟩, hx, hy⟩
    · exact .inl ⟨edge, ⟨hmem, ⟨⟨hhard, hx⟩, hy⟩, hproof⟩, rfl, rfl⟩
    · exact .inr ⟨edge, ⟨hmem, ⟨⟨hhard, hy⟩, hx⟩, hproof⟩, rfl, rfl⟩

/-- The ids of the physical proofs of an edge. -/
def AgentEdge.proofIds (edge : AgentEdge) : List String :=
  (edge.evidence.filter (·.isPhysicalProof)).map (·.evidenceId)

theorem AgentEdge.proofIds_ne_nil {edge : AgentEdge} :
    edge.proofIds ≠ [] ↔ edge.evidence.any (·.isPhysicalProof) = true := by
  rw [proofIds, ne_eq, map_eq_nil_iff, filter_eq_nil_iff, any_eq_true]
  push Not
  rfl

theorem mem_assistAdjacency {ids : List String} :
    (y, ids) ∈ assistAdjacency graph x ↔
      ∃ edge ∈ graph.edges, edge.hard = true ∧ edge.proofIds ≠ [] ∧ ids = edge.proofIds ∧
        (edge.u = x ∧ edge.v = y ∨ edge.v = x ∧ edge.u = y) := by
  simp only [assistAdjacency, mem_map, mem_insertionSort, exists_exists_and_eq_and,
    ofLex_toLex, exists_eq_right, mem_flatMap, mem_filter]
  constructor
  · rintro ⟨edge, ⟨hmem, hhard⟩, hentry⟩
    refine ⟨edge, hmem, hhard, ?_⟩
    split_ifs at hentry <;> simp_all [AgentEdge.proofIds]
  · rintro ⟨edge, hmem, hhard, hids, rfl, hends⟩
    refine ⟨edge, ⟨hmem, hhard⟩, ?_⟩
    rw [AgentEdge.proofIds] at hids
    rw [if_neg hids]
    rcases hends with ⟨hu, hv⟩ | ⟨hv, hu⟩
    · rw [if_pos hu, hv]
      exact mem_append_left _ (mem_singleton_self _)
    · rw [if_pos hv, hu]
      exact mem_append_right _ (mem_singleton_self _)

theorem mem_assistAdjacency_map_fst :
    y ∈ (assistAdjacency graph x).map Prod.fst ↔ ProvenEdge graph x y := by
  rw [mem_map]
  constructor
  · rintro ⟨⟨z, ids⟩, hmem, rfl⟩
    obtain ⟨edge, hedge, hhard, hids, -, hends⟩ := mem_assistAdjacency.1 hmem
    exact ⟨edge, hedge, hhard, AgentEdge.proofIds_ne_nil.1 hids, hends.imp id And.symm⟩
  · rintro ⟨edge, hedge, hhard, hproof, hends⟩
    refine ⟨(y, edge.proofIds), mem_assistAdjacency.2 ?_, rfl⟩
    exact ⟨edge, hedge, hhard, AgentEdge.proofIds_ne_nil.2 hproof, rfl, hends.imp id And.symm⟩

/-! ## The search of one helper -/

/-- The state of the search, as a state of the library. -/
def AssistSearch.toState (s : AssistSearch) : StopSearch.State String String :=
  ⟨s.queue, s.visited, s.assisted, s.evidence⟩

theorem toState_assistSearch (graph : AgentGraph) (decisions : List String) (n : ℕ)
    (s : AssistSearch) :
    (assistSearch graph decisions n s).toState =
      StopSearch.run (· ∈ decisions) (assistAdjacency graph) n s.toState := by
  induction n generalizing s with
  | zero => rfl
  | succ n ih =>
    obtain ⟨queue, visited, assisted, evidence⟩ := s
    cases queue with
    | nil => rfl
    | cons entry queue =>
      obtain ⟨current, path⟩ := entry
      simp only [assistSearch, StopSearch.run, AssistSearch.toState]
      split_ifs
      · exact ih _
      · exact ih _

/-- The elements the search of `helper` can see. -/
def assistUniverse (graph : AgentGraph) (helper : String) : Finset String :=
  insert helper (graph.edges.flatMap fun edge => [edge.u, edge.v]).toFinset

theorem card_assistUniverse_le (graph : AgentGraph) (helper : String) :
    (assistUniverse graph helper).card ≤ 2 * graph.edges.length + 1 := by
  have hinsert := Finset.card_insert_le helper
    (graph.edges.flatMap fun edge => [edge.u, edge.v]).toFinset
  have hdedup := toFinset_card_le (graph.edges.flatMap fun edge => [edge.u, edge.v])
  have hlength : (graph.edges.flatMap fun edge => [edge.u, edge.v]).length =
      2 * graph.edges.length := by
    simp [length_flatMap, Nat.mul_comm]
  rw [assistUniverse]
  omega

theorem mem_assistUniverse_of_adjacent {helper : String} {e : String × List String}
    (h : e ∈ assistAdjacency graph x) : e.1 ∈ assistUniverse graph helper := by
  obtain ⟨edge, hedge, -, -, -, hends⟩ := mem_assistAdjacency.1 h
  refine Finset.mem_insert_of_mem (mem_toFinset.2 (mem_flatMap.2 ⟨edge, hedge, ?_⟩))
  rcases hends with ⟨-, hv⟩ | ⟨-, hu⟩
  · simp [← hv]
  · simp [← hu]

/-- The search of `helper`, from its start to its end. -/
def helperSearch (graph : AgentGraph) (decisions : List String) (helper : String) :
    AssistSearch :=
  assistSearch graph decisions (2 * graph.edges.length + 1)
    { queue := [(helper, [])], visited := [helper] }

/-- `y` can be reached from `x` by proven hard edges without passing a decision region. -/
def AssistPath (graph : AgentGraph) (decisions : List String) (x y : String) : Prop :=
  StopSearch.Reaches (· ∈ decisions) (assistAdjacency graph) x y

theorem toState_helperSearch (graph : AgentGraph) (decisions : List String) (helper : String) :
    (helperSearch graph decisions helper).toState =
      StopSearch.run (· ∈ decisions) (assistAdjacency graph) (2 * graph.edges.length + 1)
        (StopSearch.State.start helper) :=
  toState_assistSearch graph decisions _ _

/-- The search assists the decision regions it can reach. -/
theorem mem_assisted_iff {helper : String} :
    x ∈ (helperSearch graph decisions helper).assisted ↔
      x ∈ decisions ∧ AssistPath graph decisions helper x := by
  have hfound : (helperSearch graph decisions helper).assisted =
      (helperSearch graph decisions helper).toState.found := rfl
  rw [hfound, toState_helperSearch]
  exact StopSearch.mem_found_iff (assistUniverse graph helper)
    (fun _ _ he => mem_assistUniverse_of_adjacent he) (Finset.mem_insert_self _ _)
    (card_assistUniverse_le graph helper) x

/-- A search that assists a region has evidence. -/
theorem evidence_ne_nil {helper : String} (hhelper : helper ∉ decisions)
    (h : (helperSearch graph decisions helper).assisted ≠ []) :
    (helperSearch graph decisions helper).evidence ≠ [] := by
  have hlabels : ∀ x, ∀ e ∈ assistAdjacency graph x, e.2 ≠ [] := by
    intro x e he
    obtain ⟨edge, -, -, hids, heq, -⟩ := mem_assistAdjacency.1 he
    exact heq ▸ hids
  have htrail : (StopSearch.run (· ∈ decisions) (assistAdjacency graph)
      (2 * graph.edges.length + 1) (StopSearch.State.start helper)).found ≠ [] →
        (StopSearch.run (· ∈ decisions) (assistAdjacency graph)
          (2 * graph.edges.length + 1) (StopSearch.State.start helper)).trail ≠ [] :=
    StopSearch.trail_ne_nil hlabels hhelper _ (StopSearch.Labelled.start helper)
  rw [← toState_helperSearch] at htrail
  exact htrail h

/-! ## One assignment -/

/-- `targets` of a helper. -/
def assistTargets (graph : AgentGraph) (decisions frontier : List String) (helper : String) :
    List String :=
  sortedSet ((helperSearch graph decisions helper).assisted.flatMap fun regionId =>
    (regionViolations graph regionId).filter (· ∈ frontier))

theorem mem_assistTargets {helper target : String} :
    target ∈ assistTargets graph decisions frontier helper ↔
      ∃ d ∈ decisions, AssistPath graph decisions helper d ∧
        target ∈ regionViolations graph d ∧ target ∈ frontier := by
  rw [assistTargets, mem_sortedSet, mem_flatMap]
  simp only [mem_assisted_iff, mem_filter, decide_eq_true_eq, and_assoc]

section Assignment

variable {snapshotId helper : String} {a : HelperRegionAssignment}

/-- What an assignment says. -/
theorem fields_of_helperAssignment
    (h : helperAssignment graph decisions frontier snapshotId helper = some a) :
    a.helperRegionId = helper ∧
      a.assistedRegionIds = sortedSet (helperSearch graph decisions helper).assisted ∧
      a.assistedTargetViolationIds = assistTargets graph decisions frontier helper ∧
      a.assistedTargetViolationIds ≠ [] ∧
      a.dependencyEvidenceIds = sortedSet (helperSearch graph decisions helper).evidence ∧
      a.dependencyEvidenceIds ≠ [] := by
  rw [helperAssignment] at h
  split_ifs at h with hnone
  obtain rfl := Option.some.inj h
  obtain ⟨htargets, hevidence⟩ := not_or.1 hnone
  refine ⟨rfl, rfl, rfl, htargets, rfl, ?_⟩
  obtain ⟨id, hid⟩ := exists_mem_of_ne_nil _ hevidence
  exact ne_nil_of_mem (mem_sortedSet.2 hid)

/-- A helper with a target has an assignment. -/
theorem helperAssignment_isSome (hhelper : helper ∉ decisions)
    (htargets : assistTargets graph decisions frontier helper ≠ []) :
    (helperAssignment graph decisions frontier snapshotId helper).isSome := by
  have hassisted : (helperSearch graph decisions helper).assisted ≠ [] := by
    intro hnil
    apply htargets
    rw [assistTargets, hnil]
    rfl
  have hevidence := evidence_ne_nil hhelper hassisted
  rw [helperAssignment]
  split_ifs with hnone
  · exact absurd hnone (not_or.2 ⟨htargets, hevidence⟩)
  · rfl

end Assignment

/-! ## The classification -/

theorem mem_decisionRegions :
    x ∈ decisionRegions graph regionIds frontier ↔
      x ∈ regionIds ∧ ∃ v ∈ regionViolations graph x, v ∈ frontier := by
  rw [decisionRegions, mem_sortedSet, mem_filter, any_eq_true]
  simp only [decide_eq_true_eq]

/-- The regions the classification reaches are those joined to a decision region
inside the window. -/
theorem mem_helper_classify :
    x ∈ (classifyWindowRegionRoles graph regionIds frontier).2.1 ↔
      x ∉ decisionRegions graph regionIds frontier ∧
        ∃ d ∈ decisionRegions graph regionIds frontier,
          Relation.ReflTransGen (ProvenInside graph regionIds) d x := by
  have hadjacent : ∀ x, ∀ y ∈ physicalAdjacency graph regionIds x, y ∈ regionIds.toFinset :=
    fun x y hy => mem_toFinset.2 (mem_physicalAdjacency.1 hy).2.2
  have hstart : ∀ d ∈ decisionRegions graph regionIds frontier, d ∈ regionIds.toFinset :=
    fun d hd => mem_toFinset.2 (mem_decisionRegions.1 hd).1
  have hclosure := Worklist.mem_closure_iff regionIds.toFinset hadjacent
    (nodup_sortedSet _) hstart (toFinset_card_le regionIds) x
  simp only [mem_physicalAdjacency] at hclosure
  rw [classifyWindowRegionRoles]
  simp only [mem_sortedSet, mem_filter, decide_eq_true_eq]
  exact (and_congr_left' hclosure).trans and_comm

theorem mem_helper_classify_regionIds
    (h : x ∈ (classifyWindowRegionRoles graph regionIds frontier).2.1) : x ∈ regionIds := by
  obtain ⟨-, d, hd, hpath⟩ := mem_helper_classify.1 h
  rcases hpath.cases_tail with rfl | ⟨y, -, hlast⟩
  · exact (mem_decisionRegions.1 hd).1
  · exact hlast.2.2

theorem mem_contextOnly_classify :
    x ∈ (classifyWindowRegionRoles graph regionIds frontier).2.2 ↔
      x ∈ regionIds ∧ x ∉ decisionRegions graph regionIds frontier ∧
        x ∉ (classifyWindowRegionRoles graph regionIds frontier).2.1 := by
  simp only [classifyWindowRegionRoles, mem_sortedSet, mem_filter, decide_eq_true_eq]

/-- **The searches agree.**  A region the classification reaches has an assignment. -/
theorem helperAssignment_of_classified {snapshotId : String}
    (h : x ∈ (classifyWindowRegionRoles graph regionIds frontier).2.1) :
    (helperAssignment graph (decisionRegions graph regionIds frontier) frontier snapshotId
      x).isSome := by
  obtain ⟨hnot, d, hd, hpath⟩ := mem_helper_classify.1 h
  -- the path back to the decision region, as the second search sees it
  have hback : Relation.ReflTransGen
      (fun a b => b ∈ (assistAdjacency graph a).map Prod.fst) x d := by
    have hsymm := Relation.reflTransGen_swap.2 hpath
    refine Relation.ReflTransGen.mono (fun a b hab => ?_) _ _ hsymm
    exact mem_assistAdjacency_map_fst.2 hab.1.symm
  obtain ⟨first, hfirst, hreach⟩ : ∃ first ∈ decisionRegions graph regionIds frontier,
      AssistPath graph (decisionRegions graph regionIds frontier) x first :=
    StopSearch.exists_reaches hd hback
  obtain ⟨-, v, hv, hvf⟩ := mem_decisionRegions.1 hfirst
  refine helperAssignment_isSome hnot (ne_nil_of_mem (a := v) ?_)
  exact mem_assistTargets.2 ⟨first, hfirst, hreach, hv, hvf⟩

/-- Where every helper has an assignment, each has one, in the order of the helpers. -/
theorem map_helperRegionId_buildHelperAssignments {helpers : List String} {snapshotId : String}
    (h : ∀ r ∈ helpers, (helperAssignment graph decisions frontier snapshotId r).isSome) :
    (buildHelperAssignments graph helpers decisions frontier snapshotId).map (·.helperRegionId) =
      sortedSet helpers := by
  have hall : ∀ r ∈ sortedSet helpers,
      (helperAssignment graph decisions frontier snapshotId r).isSome :=
    fun r hr => h r (mem_sortedSet.1 hr)
  rw [buildHelperAssignments]
  generalize sortedSet helpers = sorted at hall ⊢
  induction sorted with
  | nil => rfl
  | cons helper helpers ih =>
    obtain ⟨a, ha⟩ := Option.isSome_iff_exists.1 (hall helper mem_cons_self)
    rw [filterMap_cons_some ha, map_cons, (fields_of_helperAssignment ha).1,
      ih fun r hr => hall r (mem_cons_of_mem _ hr)]

theorem mem_buildHelperAssignments {helpers : List String} {snapshotId : String}
    {a : HelperRegionAssignment} :
    a ∈ buildHelperAssignments graph helpers decisions frontier snapshotId ↔
      ∃ r ∈ helpers, helperAssignment graph decisions frontier snapshotId r = some a := by
  simp only [buildHelperAssignments, mem_filterMap, mem_sortedSet]

/-! ## The window -/

section Window

variable (stableHash : WindowIdentity → String) (req : WindowRequest) (chosen : List String)

theorem decisionRegionIds_window :
    (req.window stableHash chosen).decisionRegionIds =
      decisionRegions req.graph (req.windowRegions chosen) (req.windowFrontier chosen) := rfl

/-- No helper of a window is left without an assignment. -/
theorem map_helperRegionId_window :
    (req.window stableHash chosen).helperAssignments.map (·.helperRegionId) =
      (classifyWindowRegionRoles req.graph (req.windowRegions chosen)
        (req.windowFrontier chosen)).2.1 := by
  have hmap : (buildHelperAssignments req.graph (classifyWindowRegionRoles req.graph
      (req.windowRegions chosen) (req.windowFrontier chosen)).2.1
        (decisionRegions req.graph (req.windowRegions chosen) (req.windowFrontier chosen))
        (req.windowFrontier chosen) req.baseSnapshotId).map (·.helperRegionId) = _ :=
    map_helperRegionId_buildHelperAssignments fun r hr => helperAssignment_of_classified hr
  refine hmap.trans ?_
  exact sortedSet_sortedSet _

theorem helperRegionIds_window :
    (req.window stableHash chosen).helperRegionIds =
      (classifyWindowRegionRoles req.graph (req.windowRegions chosen)
        (req.windowFrontier chosen)).2.1 := by
  have hids : (req.window stableHash chosen).helperRegionIds =
      sortedSet ((req.window stableHash chosen).helperAssignments.map (·.helperRegionId)) := rfl
  rw [hids, map_helperRegionId_window]
  exact sortedSet_sortedSet _

theorem contextOnlyRegionIds_window :
    (req.window stableHash chosen).contextOnlyRegionIds =
      (classifyWindowRegionRoles req.graph (req.windowRegions chosen)
        (req.windowFrontier chosen)).2.2 := by
  have hids : (req.window stableHash chosen).contextOnlyRegionIds =
      sortedSet ((classifyWindowRegionRoles req.graph (req.windowRegions chosen)
          (req.windowFrontier chosen)).2.2 ++
        (classifyWindowRegionRoles req.graph (req.windowRegions chosen)
          (req.windowFrontier chosen)).2.1.filter
            (· ∉ (req.window stableHash chosen).helperRegionIds)) := rfl
  have hnone : (classifyWindowRegionRoles req.graph (req.windowRegions chosen)
      (req.windowFrontier chosen)).2.1.filter
        (· ∉ (req.window stableHash chosen).helperRegionIds) = [] := by
    rw [helperRegionIds_window]
    refine filter_eq_nil_iff.2 fun r hr => ?_
    simpa using hr
  rw [hids, hnone, append_nil]
  exact sortedSet_sortedSet _

variable {stableHash req chosen}

/-- The role lists partition the regions. -/
theorem roles_perm :
    ((req.window stableHash chosen).decisionRegionIds ++
      (req.window stableHash chosen).helperRegionIds ++
      (req.window stableHash chosen).contextOnlyRegionIds).Perm
        (req.window stableHash chosen).regionIds := by
  rw [decisionRegionIds_window, helperRegionIds_window, contextOnlyRegionIds_window]
  have hdecision := nodup_sortedSet ((req.windowRegions chosen).filter fun regionId =>
    (regionViolations req.graph regionId).any (· ∈ req.windowFrontier chosen))
  have hhelper : (classifyWindowRegionRoles req.graph (req.windowRegions chosen)
      (req.windowFrontier chosen)).2.1.Nodup := nodup_sortedSet _
  have hcontext : (classifyWindowRegionRoles req.graph (req.windowRegions chosen)
      (req.windowFrontier chosen)).2.2.Nodup := nodup_sortedSet _
  have hregions : (req.window stableHash chosen).regionIds.Nodup := nodup_sortedSet _
  refine (perm_ext_iff_of_nodup ?_ hregions).2 fun r => ?_
  · refine nodup_append.2 ⟨nodup_append.2 ⟨hdecision, hhelper, ?_⟩, hcontext, ?_⟩
    · rintro r hr _ hr' rfl
      exact (mem_helper_classify.1 hr').1 hr
    · rintro r hr _ hr' rfl
      obtain ⟨-, hnot, hnot'⟩ := mem_contextOnly_classify.1 hr'
      exact (mem_append.1 hr).elim hnot hnot'
  · rw [mem_append, mem_append, mem_contextOnly_classify]
    constructor
    · rintro ((hr | hr) | hr)
      · exact (mem_decisionRegions.1 hr).1
      · exact mem_helper_classify_regionIds hr
      · exact hr.1
    · intro hr
      by_cases hd : r ∈ decisionRegions req.graph (req.windowRegions chosen)
          (req.windowFrontier chosen)
      · exact .inl (.inl hd)
      by_cases hh : r ∈ (classifyWindowRegionRoles req.graph (req.windowRegions chosen)
          (req.windowFrontier chosen)).2.1
      · exact .inl (.inr hh)
      · exact .inr ⟨hr, hd, hh⟩

end Window

/-- A key that no other element has selects one element. -/
theorem filter_key_eq_singleton {l : List HelperRegionAssignment} {a : HelperRegionAssignment}
    (hnodup : (l.map (·.helperRegionId)).Nodup) (ha : a ∈ l) :
    l.filter (·.helperRegionId = a.helperRegionId) = [a] := by
  induction l with
  | nil => exact absurd ha not_mem_nil
  | cons b l ih =>
    obtain ⟨hnot, hrest⟩ := nodup_cons.1 hnodup
    rcases mem_cons.1 ha with rfl | ha
    · rw [filter_cons_of_pos (by simp)]
      congr 1
      refine filter_eq_nil_iff.2 fun b hb => ?_
      have hne : b.helperRegionId ≠ a.helperRegionId := fun heq =>
        hnot (mem_map.2 ⟨b, hb, heq⟩)
      simpa using hne
    · have hne : b.helperRegionId ≠ a.helperRegionId := fun heq =>
        hnot (mem_map.2 ⟨a, ha, heq.symm⟩)
      rw [filter_cons_of_neg (by simpa using hne)]
      exact ih hrest ha

/-- An assignment bound to current targets of a window. -/
structure BoundAssignment (w : ActiveWindow) (a : HelperRegionAssignment) : Prop where
  targets_nonempty : a.assistedTargetViolationIds ≠ []
  targets_claimed : ∀ v ∈ a.assistedTargetViolationIds, v ∈ w.claimedFrontierViolationIds
  assisted_decision : ∀ r ∈ a.assistedRegionIds, r ∈ w.decisionRegionIds
  evidence_nonempty : a.dependencyEvidenceIds ≠ []

/-- What the roles of a window are meant to be. -/
structure RolesSound (graph : AgentGraph) (w : ActiveWindow) : Prop where
  nodup : w.regionIds.Nodup
  partition : (w.decisionRegionIds ++ w.helperRegionIds ++ w.contextOnlyRegionIds).Perm w.regionIds
  decision : ∀ r, r ∈ w.decisionRegionIds ↔
    r ∈ w.regionIds ∧ ∃ v ∈ regionViolations graph r, v ∈ w.claimedFrontierViolationIds
  helper : ∀ r, r ∈ w.helperRegionIds ↔
    r ∉ w.decisionRegionIds ∧
      ∃ d ∈ w.decisionRegionIds, Relation.ReflTransGen (ProvenInside graph w.regionIds) d r
  assignment : ∀ r ∈ w.helperRegionIds, ∃ a,
    w.helperAssignments.filter (·.helperRegionId = r) = [a] ∧ BoundAssignment w a

/-- An assignment of a window is bound. -/
theorem bound_of_mem {stableHash : WindowIdentity → String} {req : WindowRequest}
    {chosen : List String} {a : HelperRegionAssignment}
    (ha : a ∈ (req.window stableHash chosen).helperAssignments) :
    BoundAssignment (req.window stableHash chosen) a := by
  obtain ⟨r, -, hr⟩ := mem_buildHelperAssignments.1 ha
  obtain ⟨-, hassisted, htargets, hne, -, hevidence⟩ := fields_of_helperAssignment hr
  refine ⟨hne, fun v hv => ?_, fun d hd => ?_, hevidence⟩
  · rw [htargets] at hv
    obtain ⟨-, -, -, -, hclaimed⟩ := mem_assistTargets.1 hv
    exact hclaimed
  · rw [hassisted, mem_sortedSet] at hd
    exact (mem_assisted_iff.1 hd).1

/-- **Window roles.** -/
theorem window_roles (stableHash : WindowIdentity → String) (req : WindowRequest)
    (w : ActiveWindow) (h : selectActiveWindow stableHash req = .ok (some w)) :
    RolesSound req.graph w := by
  obtain ⟨seed, -, rfl⟩ := selectActiveWindow_some h
  refine ⟨nodup_sortedSet _, roles_perm, fun r => mem_decisionRegions, fun r => ?_,
    fun r hr => ?_⟩
  · rw [helperRegionIds_window]
    exact mem_helper_classify
  · rw [helperRegionIds_window, ← map_helperRegionId_window stableHash] at hr
    obtain ⟨a, ha, rfl⟩ := mem_map.1 hr
    refine ⟨a, ?_, bound_of_mem ha⟩
    have hnodup : ((req.window stableHash (req.selected seed.subgraphId)).helperAssignments.map
        (·.helperRegionId)).Nodup := by
      rw [map_helperRegionId_window]
      exact nodup_sortedSet _
    exact filter_key_eq_singleton hnodup ha

/-- A target, a region joined to it by a proven hard edge, and one without an edge. -/
def chainRequest : WindowRequest where
  graph := {
    edges := [{ edgeId := "e1", u := "r1", v := "r2", hard := true
                evidence := [{ evidenceId := "physical:1", kind := "same_writable_occurrence" }] }]
    regions := [("r1", ["v1"]), ("r2", []), ("r3", [])] }
  subgraphs := [{ subgraphId := "A", regionIds := ["r1", "r2", "r3"] }]
  iterationFrontierViolationIds := {"v1"}
  currentViolationIds := {"v1"}
  maxParallelSubgraphs := 2
  maxActiveRegions := 8
  topKCandidatesIncludingNoop := 3
  maxNonNoopActionsPerBatch := 8

theorem window_roles_chain :
    ∃ w, selectActiveWindow (fun _ => "0") chainRequest = .ok (some w) ∧
      w.helperRegionIds = ["r2"] ∧ w.contextOnlyRegionIds = ["r3"] ∧
      RolesSound chainRequest.graph w :=
  ⟨_, rfl, by decide +kernel, by decide +kernel, window_roles (fun _ => "0") chainRequest _ rfl⟩

end DRCAgent
