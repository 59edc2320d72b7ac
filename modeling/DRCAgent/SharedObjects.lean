/-
# Violations that share an editable object

The guarantee of `RegionBuilder` (src/drc_agent/regions/builder.py) for an object that two
violations are associated with, where it is editable (class A or B) and the seed windows
take its whole box: the two violations end up in one region.

The box of the object lies within both seeds, so within both halos, and the halos are at
no distance; so the pair of seeds is not skipped, and the object makes it a hard link.
After that the classes of the forest only grow (`linkPair_grows`, `mergeEdge_grows`), and
the split keeps a group that shares an object.

Main result: `shared_object_region`.
-/
import DRCAgent.RegionPartition
import DRCAgent.UnionFindClasses

namespace DRCAgent.Regions

open Disjoint List

/-! ## Boxes within boxes -/

section Boxes

variable {b c d : Box}

/-- The box lies within the other. -/
def Box.Within (b c : Box) : Prop := c.x1 ≤ b.x1 ∧ c.y1 ≤ b.y1 ∧ b.x2 ≤ c.x2 ∧ b.y2 ≤ c.y2

theorem Box.Within.refl (b : Box) : b.Within b := ⟨le_rfl, le_rfl, le_rfl, le_rfl⟩

theorem Box.Within.trans (h : b.Within c) (h' : c.Within d) : b.Within d :=
  ⟨h'.1.trans h.1, h'.2.1.trans h.2.1, h.2.2.1.trans h'.2.2.1, h.2.2.2.trans h'.2.2.2⟩

theorem Box.within_union_left (b c : Box) : b.Within (b.union c) :=
  ⟨min_le_left _ _, min_le_left _ _, le_max_left _ _, le_max_left _ _⟩

theorem Box.within_union_right (b c : Box) : c.Within (b.union c) :=
  ⟨min_le_right _ _, min_le_right _ _, le_max_right _ _, le_max_right _ _⟩

theorem Box.make_ok {x1 y1 x2 y2 : ℤ} (h : Box.make x1 y1 x2 y2 = .ok b) :
    b.x1 = x1 ∧ b.y1 = y1 ∧ b.x2 = x2 ∧ b.y2 = y2 := by
  unfold Box.make at h
  split_ifs at h
  cases h
  exact ⟨rfl, rfl, rfl, rfl⟩

theorem Box.within_expand {amount : ℤ} (hamount : 0 ≤ amount) (h : b.expand amount = .ok c) :
    b.Within c := by
  obtain ⟨hx1, hy1, hx2, hy2⟩ := Box.make_ok h
  unfold Box.Within
  omega

/-- Boxes that both contain a box are at no distance. -/
theorem Box.gap_of_within {D : Type} [Doubles D] (h : b.Within c) (h' : b.Within d) :
    (c.gap d : D) = Doubles.root 0 := by
  obtain ⟨hx, hy⟩ := b.ordered
  obtain ⟨hx1, hy1, hx2, hy2⟩ := h
  obtain ⟨hx1', hy1', hx2', hy2'⟩ := h'
  have hdx : max (max (c.x1 - d.x2) (d.x1 - c.x2)) 0 = 0 := by
    apply max_eq_right
    apply max_le <;> omega
  have hdy : max (max (c.y1 - d.y2) (d.y1 - c.y2)) 0 = 0 := by
    apply max_eq_right
    apply max_le <;> omega
  unfold Box.gap
  rw [hdx, hdy]
  rfl

end Boxes

/-! ## The box of a seed -/

section Seeds

variable {D : Type} [Doubles D] {cfg : RegionConfig D} {catalog : RuleCatalog D}
  {violations : List ViolationRecord} {objects : List LayoutObject} {v : ViolationRecord}
  {obj : LayoutObject} {s : Seed} {b c : Box}

/-- The seed window takes the whole box of the object: the object is not long, or it is
within a micron of the marker. -/
def FitsWindow (cfg : RegionConfig D) (v : ViolationRecord) (obj : LayoutObject) : Prop :=
  Doubles.compareInt (Doubles.mul (Doubles.ofInt cfg.dbuPerUm) cfg.seedWindowUm)
      obj.bboxDbu.extent ≠ .lt ∨
    (v.markerBboxDbu.x1 - cfg.dbuPerUm ≤ obj.bboxDbu.x1 ∧
      v.markerBboxDbu.y1 - cfg.dbuPerUm ≤ obj.bboxDbu.y1 ∧
        obj.bboxDbu.x2 ≤ v.markerBboxDbu.x2 + cfg.dbuPerUm ∧
          obj.bboxDbu.y2 ≤ v.markerBboxDbu.y2 + cfg.dbuPerUm)

/-- The violation is associated with the object. -/
def AssociatedWith (cfg : RegionConfig D) (objects : List LayoutObject) (v : ViolationRecord)
    (obj : LayoutObject) : Prop :=
  ∃ updated selected, associate cfg v objects = .ok (updated, selected) ∧ obj ∈ selected

theorem localBox_of_fits (h : FitsWindow cfg v obj) : localBox cfg v obj = .ok obj.bboxDbu := by
  unfold localBox
  dsimp only
  split_ifs with hlong
  · obtain ⟨hx1, hy1, hx2, hy2⟩ := h.resolve_left (fun hshort => hshort hlong)
    rw [max_eq_left hx1, max_eq_left hy1, min_eq_left hx2, min_eq_left hy2]
    exact dif_pos obj.bboxDbu.ordered
  · rfl

/-- The loop over the objects takes every window into the seed. -/
theorem within_of_foldlM (h : (objects.foldlM (fun seed obj => do
      let window ← localBox cfg v obj
      return seed.union window) b : Except String Box) = .ok c) :
    b.Within c ∧ ∀ obj ∈ objects, ∀ window, localBox cfg v obj = .ok window → window.Within c := by
  induction objects generalizing b with
  | nil =>
    cases h
    refine ⟨.refl _, ?_⟩
    intro obj hobj
    cases hobj
  | cons first rest ih =>
    rw [foldlM_cons] at h
    obtain ⟨seed, hseed, h⟩ := except_bind_ok h
    obtain ⟨window, hwindow, hseed⟩ := except_bind_ok hseed
    cases hseed
    obtain ⟨hgrown, hrest⟩ := ih h
    refine ⟨(b.within_union_left window).trans hgrown, ?_⟩
    intro obj hobj window' hwindow'
    rcases mem_cons.1 hobj with rfl | hobj
    · rw [hwindow'] at hwindow
      cases hwindow
      exact (b.within_union_right window).trans hgrown
    · exact hrest obj hobj window' hwindow'

/-- A window lies within the halo of the seed, where the halo is not negative. -/
theorem within_halo (hhalo : 0 ≤ cfg.haloMaxDbu)
    (h : makeSeed cfg catalog v objects = .ok s) (hobj : obj ∈ objects)
    (hfits : FitsWindow cfg v obj) : obj.bboxDbu.Within s.halo := by
  unfold makeSeed at h
  obtain ⟨seed, hseed, h⟩ := except_bind_ok h
  obtain ⟨expanded, hexpanded, h⟩ := except_bind_ok h
  cases h
  have hwindow := (within_of_foldlM hseed).2 obj hobj _ (localBox_of_fits hfits)
  refine hwindow.trans (Box.within_expand ?_ hexpanded)
  refine le_min (le_max_of_le_left (le_max_of_le_right ?_)) hhalo
  -- the extent of the marker is not negative
  have hwidth : 0 ≤ v.markerBboxDbu.width := sub_nonneg.2 v.markerBboxDbu.ordered.1
  exact Int.ediv_nonneg (le_max_of_le_left hwidth) (by decide)

/-- **An associated object** that fits is one of the seed's, within its halo. -/
theorem seedOf_within (hhalo : 0 ≤ cfg.haloMaxDbu)
    (h : seedOf cfg catalog objects v = .ok s) (hobj : AssociatedWith cfg objects v obj)
    (hfits : FitsWindow cfg v obj) : obj ∈ s.objects ∧ obj.bboxDbu.Within s.halo := by
  obtain ⟨updated, selected, hassociate, hmem⟩ := hobj
  unfold seedOf at h
  rw [hassociate] at h
  have hseed : makeSeed cfg catalog updated selected = .ok s := h
  obtain ⟨nearby, -, hreturn⟩ := except_bind_ok hassociate
  cases hreturn
  refine ⟨?_, within_halo hhalo hseed hmem hfits⟩
  unfold makeSeed at hseed
  obtain ⟨box, -, hseed⟩ := except_bind_ok hseed
  obtain ⟨expanded, -, hseed⟩ := except_bind_ok hseed
  cases hseed
  exact hmem

/-- The entry of a violation is its seed. -/
theorem buildSeeds_entry {seeds : List (String × Seed)}
    (hdistinct : (violations.map (·.violationId)).Nodup)
    (h : buildSeeds cfg catalog violations objects = .ok seeds) (hv : v ∈ violations) :
    ∃ s, (v.violationId, s) ∈ seeds ∧ seedOf cfg catalog objects v = .ok s := by
  unfold buildSeeds at h
  obtain ⟨entries, hentries, h⟩ := except_bind_ok h
  cases h
  have hsorted := perm_insertionSort
    (fun a b : ViolationRecord => a.violationId ≤ b.violationId) violations
  have hentry := (forall₂_of_mapM hentries).imp (S := fun v entry =>
      entry.1 = v.violationId ∧ seedOf cfg catalog objects v = .ok entry.2) (by
    intro v entry hentry
    obtain ⟨s, hs, hentry⟩ := except_bind_ok hentry
    cases hentry
    exact ⟨rfl, hs⟩)
  have hkeys := map_eq_of_forall₂ (hentry.imp fun _ _ hkey => hkey.1)
  have hnodup : (entries.map (·.1)).Nodup := by
    rw [hkeys, (hsorted.map _).nodup_iff]
    exact hdistinct
  obtain ⟨entry, hmem, hkey, hs⟩ := exists_of_forall₂ hentry v (hsorted.mem_iff.2 hv)
  refine ⟨entry.2, ?_, hs⟩
  rw [Dicts.ofList_of_nodup hnodup, ← hkey]
  exact hmem

end Seeds

/-! ## Links -/

section Links

variable {D : Type} [Doubles D] {cfg : RegionConfig D} {seeds : List (String × Seed)}
  {a b : Seed} {obj : LayoutObject} {uf : UnionFind String}
  {state : UnionFind String × List (AffinityEdge D)}

/-- `0 ** 0.5` is zero: it exceeds no gap that is not negative. -/
def RootOfZero (D : Type) [Doubles D] : Prop :=
  ∀ gap : ℤ, 0 ≤ gap → Doubles.compareInt (Doubles.root 0 : D) gap ≠ .gt

/-- An object that is editable. -/
def Editable (obj : LayoutObject) : Prop := obj.editability = .A ∨ obj.editability = .B

theorem mem_editable (hobj : obj ∈ a.objects) (hclass : Editable obj) :
    obj.objectId ∈ a.editable := by
  refine mem_map_of_mem (mem_filter.2 ⟨hobj, ?_⟩)
  rcases hclass with hclass | hclass <;> rw [hclass] <;> rfl

/-- Seeds with an editable object in common are a hard link. -/
theorem affinity_hard (maxGap : ℤ) (hclass : Editable obj) (ha : obj ∈ a.objects)
    (hb : obj ∈ b.objects) : (affinity (D := D) a b maxGap).1 = true :=
  any_eq_true.2 ⟨obj.objectId, mem_editable ha hclass, contains_iff_mem.2 (mem_editable hb hclass)⟩

/-- The violations of the pair are elements of the forest. -/
def PairIn (ids : List String) (pair : Seed × Seed) : Prop :=
  pair.1.violation.violationId ∈ ids ∧ pair.2.violation.violationId ∈ ids

/-- The ends of the edges are elements of the forest. -/
def EdgesIn (ids : List String) (edges : List (AffinityEdge D)) : Prop :=
  ∀ edge ∈ edges, edge.u ∈ ids ∧ edge.v ∈ ids

theorem linkPair_grows {pair : Seed × Seed} (hclosed : state.1.Closed)
    (hpair : PairIn state.1.ids pair) : state.1.Grows (linkPair cfg state pair).1 := by
  unfold linkPair
  dsimp only
  split_ifs
  · exact .refl hclosed
  · exact UnionFind.grows_union hclosed hpair.1 hpair.2
  · exact .refl hclosed

theorem linkPair_edges {ids : List String} {pair : Seed × Seed} (hedges : EdgesIn ids state.2)
    (hpair : PairIn ids pair) : EdgesIn ids (linkPair cfg state pair).2 := by
  unfold linkPair
  dsimp only
  split_ifs
  · exact hedges
  all_goals
    intro edge hedge
    rcases mem_append.1 hedge with hedge | hedge
    · exact hedges edge hedge
    · obtain rfl := mem_singleton.1 hedge
      exact hpair

/-- **A shared object links the pair**, where it is within both halos. -/
theorem linkPair_joins (hzero : RootOfZero D) (hgap : 0 ≤ cfg.affinityMaxGapDbu)
    (hclosed : state.1.Closed) (hpair : PairIn state.1.ids (a, b)) (hclass : Editable obj)
    (ha : obj ∈ a.objects ∧ obj.bboxDbu.Within a.halo)
    (hb : obj ∈ b.objects ∧ obj.bboxDbu.Within b.halo) :
    (linkPair cfg state (a, b)).1.Same a.violation.violationId b.violation.violationId := by
  have hnear : ¬ Doubles.compareInt (a.halo.gap b.halo : D) cfg.affinityMaxGapDbu = .gt := by
    rw [Box.gap_of_within ha.2 hb.2]
    exact hzero _ hgap
  unfold linkPair
  dsimp only
  rw [if_neg hnear]
  dsimp only
  rw [if_pos (affinity_hard _ hclass ha.1 hb.1)]
  exact UnionFind.union_same hclosed hpair.1 hpair.2

/-- Two members of a list are a pair of it, in one order. -/
theorem mem_pairs {α : Type} {items : List α} {x y : α} (hx : x ∈ items) (hy : y ∈ items)
    (hne : x ≠ y) : (x, y) ∈ pairs items ∨ (y, x) ∈ pairs items := by
  induction items with
  | nil => cases hx
  | cons first rest ih =>
    rw [pairs, mem_append, mem_append]
    rcases mem_cons.1 hx with rfl | hx'
    · have hy' := (mem_cons.1 hy).resolve_left (Ne.symm hne)
      exact Or.inl (Or.inl (mem_map_of_mem hy'))
    · rcases mem_cons.1 hy with rfl | hy'
      · exact Or.inr (Or.inl (mem_map_of_mem hx'))
      · exact (ih hx' hy').imp Or.inr Or.inr

theorem mem_of_mem_pairs {α : Type} {items : List α} {pair : α × α} (h : pair ∈ pairs items) :
    pair.1 ∈ items ∧ pair.2 ∈ items := by
  induction items with
  | nil => cases h
  | cons first rest ih =>
    rw [pairs] at h
    rcases mem_append.1 h with h | h
    · obtain ⟨y, hy, rfl⟩ := mem_map.1 h
      exact ⟨mem_cons_self, mem_cons_of_mem first hy⟩
    · exact (ih h).imp (mem_cons_of_mem first) (mem_cons_of_mem first)

/-- The loop over the pairs: the classes grow, the edges are between elements, and a pair
whose turn joins its ends has them joined at the end. -/
theorem linkPairs_grows {items : List (Seed × Seed)} (hclosed : state.1.Closed)
    (hitems : ∀ pair ∈ items, PairIn state.1.ids pair) (hedges : EdgesIn state.1.ids state.2) :
    state.1.Grows (items.foldl (linkPair cfg) state).1 ∧
      EdgesIn state.1.ids (items.foldl (linkPair cfg) state).2 := by
  constructor
  · refine UnionFind.grows_foldl (·.1) ?_ state hclosed rfl
    intro state' pair hpair hclosed' hids
    refine linkPair_grows hclosed' ?_
    rw [hids]
    exact hitems pair hpair
  · generalize state.1.ids = ids at hitems hedges
    clear hclosed
    induction items generalizing state with
    | nil => exact hedges
    | cons pair rest ih =>
      exact ih (fun other hother => hitems other (mem_cons_of_mem pair hother))
        (linkPair_edges hedges (hitems pair mem_cons_self))

theorem linkPairs_joins (hzero : RootOfZero D) (hgap : 0 ≤ cfg.affinityMaxGapDbu)
    {items : List (Seed × Seed)} (hclosed : state.1.Closed)
    (hitems : ∀ pair ∈ items, PairIn state.1.ids pair) (hedges : EdgesIn state.1.ids state.2)
    (hmem : (a, b) ∈ items) (hclass : Editable obj)
    (ha : obj ∈ a.objects ∧ obj.bboxDbu.Within a.halo)
    (hb : obj ∈ b.objects ∧ obj.bboxDbu.Within b.halo) :
    (items.foldl (linkPair cfg) state).1.Same a.violation.violationId b.violation.violationId := by
  obtain ⟨before, after, rfl⟩ := append_of_mem hmem
  rw [foldl_append, foldl_cons]
  have hbefore : ∀ pair ∈ before, PairIn state.1.ids pair :=
    fun pair hpair => hitems pair (mem_append_left _ hpair)
  obtain ⟨hgrown, hedges'⟩ : state.1.Grows (before.foldl (linkPair cfg) state).1 ∧ _ :=
    linkPairs_grows hclosed hbefore hedges
  set state₁ := before.foldl (linkPair cfg) state
  have hpair : PairIn state₁.1.ids (a, b) := by
    rw [hgrown.ids]
    exact hitems _ hmem
  have hstep : state₁.1.Grows (linkPair cfg state₁ (a, b)).1 := linkPair_grows hgrown.closed hpair
  have hids := (hgrown.trans hstep).ids
  have hafter : ∀ pair ∈ after, PairIn (linkPair cfg state₁ (a, b)).1.ids pair := by
    intro pair hpair'
    rw [hids]
    exact hitems pair (mem_append_right _ (mem_cons_of_mem _ hpair'))
  have hedges₂ : EdgesIn (linkPair cfg state₁ (a, b)).1.ids (linkPair cfg state₁ (a, b)).2 := by
    rw [hids]
    exact linkPair_edges hedges' (hitems _ hmem)
  exact (linkPairs_grows hstep.closed hafter hedges₂).1.same _ _
    (linkPair_joins hzero hgap hgrown.closed hpair hclass ha hb)

/-! ## Merges -/

theorem memberStep_grows {u v : String} {entry : String × Seed}
    {group : UnionFind String × List Seed} (hclosed : group.1.Closed)
    (hentry : entry.1 ∈ group.1.ids) (hu : u ∈ group.1.ids) (hv : v ∈ group.1.ids) :
    group.1.Grows (memberStep u v group entry).1 := by
  have hfirst := UnionFind.grows_find hclosed hentry
  have hsecond := UnionFind.grows_find hfirst.closed (hfirst.mem hu)
  exact (hfirst.trans hsecond).trans
    (UnionFind.grows_find hsecond.closed ((hfirst.trans hsecond).mem hv))

theorem members_grows {u v : String} (hclosed : uf.Closed)
    (hseeds : ∀ entry ∈ seeds, entry.1 ∈ uf.ids) (hu : u ∈ uf.ids) (hv : v ∈ uf.ids) :
    uf.Grows (members seeds u v uf).1 := by
  rw [members_eq]
  refine UnionFind.grows_foldl (fun group : UnionFind String × List Seed => group.1) ?_
    (uf, []) hclosed rfl
  intro group entry hentry hclosed' hids
  rw [← hids] at hu hv
  refine memberStep_grows hclosed' ?_ hu hv
  rw [hids]
  exact hseeds entry hentry

/-- A merge joins classes or leaves them. -/
theorem mergeEdge_grows {edge : AffinityEdge D} (hclosed : uf.Closed)
    (hseeds : ∀ entry ∈ seeds, entry.1 ∈ uf.ids) (hu : edge.u ∈ uf.ids) (hv : edge.v ∈ uf.ids) :
    uf.Grows (mergeEdge cfg seeds uf edge) := by
  have hfirst := UnionFind.grows_find hclosed hu
  have hfound := hfirst.trans (UnionFind.grows_find hfirst.closed (hfirst.mem hv))
  have hmem : ∀ entry ∈ seeds, entry.1 ∈ ((uf.find edge.u).2.find edge.v).2.ids :=
    fun entry hentry => hfound.mem (hseeds entry hentry)
  have hmembers :=
    hfound.trans (members_grows hfound.closed hmem (hfound.mem hu) (hfound.mem hv))
  unfold mergeEdge
  dsimp only
  split_ifs
  · exact .refl hclosed
  · exact hfound
  · exact hmembers.trans
      (UnionFind.grows_union hmembers.closed (hmembers.mem hu) (hmembers.mem hv))
  · exact hmembers

/-- The seeds are under the ids of their violations. -/
def Keyed (seeds : List (String × Seed)) : Prop :=
  ∀ entry ∈ seeds, entry.2.violation.violationId = entry.1

/-- The single violations, without edges. -/
def startState (seeds : List (String × Seed)) : UnionFind String × List (AffinityEdge D) :=
  (.ofIds (seeds.map (·.1)), [])

/-- The forest and the edges after the loop over the pairs. -/
def linkedState (cfg : RegionConfig D) (seeds : List (String × Seed)) :
    UnionFind String × List (AffinityEdge D) :=
  (pairs (seeds.map (·.2))).foldl (linkPair cfg) (startState seeds)

/-- The forest after the loop over the edges. -/
def mergedForest (cfg : RegionConfig D) (seeds : List (String × Seed)) : UnionFind String :=
  (sortEdges (linkedState cfg seeds).2).foldl (mergeEdge cfg seeds) (linkedState cfg seeds).1

theorem linkGroups_eq (cfg : RegionConfig D) (seeds : List (String × Seed)) :
    linkGroups cfg seeds = ((mergedForest cfg seeds).groups, (linkedState cfg seeds).2) := rfl

theorem Keyed.mem (h : Keyed seeds) {s : Seed} (hs : s ∈ seeds.map (·.2)) :
    s.violation.violationId ∈ seeds.map (·.1) := by
  obtain ⟨entry, hentry, rfl⟩ := mem_map.1 hs
  rw [h entry hentry]
  exact mem_map_of_mem hentry

theorem Keyed.pairIn (h : Keyed seeds) : ∀ pair ∈ pairs (seeds.map (·.2)),
    PairIn (seeds.map (·.1)) pair := by
  intro pair hpair
  obtain ⟨hleft, hright⟩ := mem_of_mem_pairs hpair
  exact ⟨h.mem hleft, h.mem hright⟩

omit [Doubles D] in
theorem startState_edges (seeds : List (String × Seed)) :
    EdgesIn (startState (D := D) seeds).1.ids (startState (D := D) seeds).2 :=
  fun _ hedge => nomatch hedge

omit [Doubles D] in
theorem startState_closed (seeds : List (String × Seed)) : (startState (D := D) seeds).1.Closed :=
  UnionFind.closed_ofIds _

/-- The first loop lets the classes grow, and its edges are between violations. -/
theorem linkedState_grows (h : Keyed seeds) :
    (UnionFind.ofIds (seeds.map (·.1))).Grows (linkedState cfg seeds).1 ∧
      EdgesIn (seeds.map (·.1)) (linkedState cfg seeds).2 :=
  linkPairs_grows (startState_closed seeds) h.pairIn (startState_edges seeds)

/-- The second loop lets the classes grow. -/
theorem mergedForest_grows (h : Keyed seeds) :
    (linkedState cfg seeds).1.Grows (mergedForest cfg seeds) := by
  obtain ⟨hgrown, hedges⟩ : _ ∧ EdgesIn _ (linkedState cfg seeds).2 := linkedState_grows h
  refine UnionFind.grows_foldl id ?_ (linkedState cfg seeds).1 hgrown.closed hgrown.ids
  intro uf edge hedge hclosed hids
  have hids : uf.ids = seeds.map (·.1) := hids
  obtain ⟨hu, hv⟩ := hedges edge ((mem_insertionSort _).1 hedge)
  refine mergeEdge_grows hclosed ?_ (hids ▸ hu) (hids ▸ hv)
  intro entry hentry
  show entry.1 ∈ uf.ids
  rw [hids]
  exact mem_map_of_mem hentry

/-- **Seeds that share an editable object are in one group**, where it is within both
halos. -/
theorem linkGroups_together (hzero : RootOfZero D) (hgap : 0 ≤ cfg.affinityMaxGapDbu)
    (hkeyed : Keyed seeds) (hmem : a ∈ seeds.map (·.2)) (hmem' : b ∈ seeds.map (·.2))
    (hclass : Editable obj) (ha : obj ∈ a.objects ∧ obj.bboxDbu.Within a.halo)
    (hb : obj ∈ b.objects ∧ obj.bboxDbu.Within b.halo) :
    ∃ ids ∈ (linkGroups cfg seeds).1,
      a.violation.violationId ∈ ids ∧ b.violation.violationId ∈ ids := by
  have hlinked :
      (linkedState cfg seeds).1.Same a.violation.violationId b.violation.violationId := by
    have hclosed := startState_closed (D := D) seeds
    have hedges := startState_edges (D := D) seeds
    by_cases heq : a = b
    · rw [heq]
      exact .refl _
    · rcases mem_pairs hmem hmem' heq with hpair | hpair
      · exact linkPairs_joins hzero hgap hclosed hkeyed.pairIn hedges hpair hclass ha hb
      · exact .symm _ _
          (linkPairs_joins hzero hgap hclosed hkeyed.pairIn hedges hpair hclass hb ha)
  obtain ⟨hgrown, -⟩ : (UnionFind.ofIds (seeds.map (·.1))).Grows (linkedState cfg seeds).1 ∧ _ :=
    linkedState_grows hkeyed
  have hmerged : (linkedState cfg seeds).1.Grows (mergedForest cfg seeds) :=
    mergedForest_grows hkeyed
  have hall := hgrown.trans hmerged
  exact UnionFind.exists_group_of_same hall.closed (hall.mem (hkeyed.mem hmem))
    (hall.mem (hkeyed.mem hmem')) (hmerged.same _ _ hlinked)

end Links

/-! ## The regions -/

section Build

variable {D : Type} [Doubles D] {cfg : RegionConfig D} {hash : RegionHashPart → String}
  {catalog : RuleCatalog D} {violations : List ViolationRecord} {objects : List LayoutObject}
  {previous : List PreviousRegion} {result : RegionBuildResult D} {v w : ViolationRecord}
  {obj : LayoutObject}

/-- **Violations that share an editable object are in one region.** -/
theorem shared_object_region (hzero : RootOfZero D)
    (hviolations : (violations.map (·.violationId)).Nodup) (hhalo : 0 ≤ cfg.haloMaxDbu)
    (hgap : 0 ≤ cfg.affinityMaxGapDbu)
    (h : build cfg hash catalog violations objects previous = .ok result)
    (hv : v ∈ violations) (hw : w ∈ violations) (hclass : Editable obj)
    (hassociated : AssociatedWith cfg objects v obj ∧ AssociatedWith cfg objects w obj)
    (hfits : FitsWindow cfg v obj ∧ FitsWindow cfg w obj) :
    ∃ r ∈ result.regions, v.violationId ∈ r.violationIds ∧ w.violationId ∈ r.violationIds := by
  obtain ⟨seeds, hseeds, hbuilt⟩ := build_ok hviolations h
  obtain ⟨s, hentry, hseed⟩ := buildSeeds_entry hviolations hseeds hv
  obtain ⟨t, hentry', hseed'⟩ := buildSeeds_entry hviolations hseeds hw
  have hs := seedOf_within hhalo hseed hassociated.1 hfits.1
  have ht := seedOf_within hhalo hseed' hassociated.2 hfits.2
  have hkey : s.violation.violationId = v.violationId := hbuilt.key hentry
  have hkey' : t.violation.violationId = w.violationId := hbuilt.key hentry'
  obtain ⟨ids, hids, hmem, hmem'⟩ := linkGroups_together hzero hgap
    (fun entry hentry => hbuilt.key hentry) (mem_map_of_mem hentry)
    (mem_map_of_mem hentry') hclass hs ht
  have hshares : s.violation.SharesObject t.violation :=
    (hbuilt.shares_iff hentry hentry').2
      ⟨obj.objectId, mem_map_of_mem hs.1, mem_map_of_mem ht.1⟩
  rw [← hkey, ← hkey']
  exact hbuilt.together hids (hbuilt.violation hentry) (hbuilt.violation hentry') hmem hmem' hshares

end Build

/-! ## Two violations at a square -/

theorem rootOfZero_exact : @RootOfZero ℚ exactDoubles := by
  intro gap hgap
  show compare (((Nat.sqrt (0 : ℤ).toNat : ℕ) : ℚ)) (gap : ℚ) ≠ .gt
  rw [ne_eq, compare_gt_iff_gt, not_lt]
  have hroot : Nat.sqrt (0 : ℤ).toNat = 0 := by decide
  rw [hroot]
  exact_mod_cast hgap

/-- Two of the violations are at one editable square. -/
theorem shared_object_region_square :
    ∃ result, sampleBuild = .ok result ∧
      ∃ r ∈ result.regions, "b" ∈ r.violationIds ∧ "a" ∈ r.violationIds := by
  have hreturns : sampleBuild.isOk = true := by decide +kernel
  cases hbuild : sampleBuild with
  | error e =>
    rw [hbuild] at hreturns
    cases hreturns
  | ok result =>
    refine ⟨result, rfl, ?_⟩
    exact @shared_object_region ℚ exactDoubles _ _ _ _ _ _ _ (markerAt "b" 6) (markerAt "a" 0)
      (squareAt "o" 0) rootOfZero_exact (by decide) (by decide) (by decide) hbuild
      (by decide) (by decide) (Or.inl rfl) ⟨⟨_, _, rfl, by decide⟩, ⟨_, _, rfl, by decide⟩⟩
      ⟨Or.inr (by decide), Or.inr (by decide)⟩

end DRCAgent.Regions
