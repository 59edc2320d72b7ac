/-
# The groups of the linking are not cut

`RegionBuilder._split` (src/drc_agent/regions/builder.py) cuts a group that exceeds the
caps, unless it has one violation or shares an object. The groups it gets from `build`
are never such: a class of the forest has grown by a hard link, so two of its violations
share an object, or by a merge, and then the caps were checked on the very class that the
merge makes.

The invariant is `Linked`: every class of the forest is kept by the split. It holds of
the single elements (`linked_ofIds`), and each turn of the two loops keeps it
(`linkPair_linked`, `mergeEdge_linked`).

Main result: `split_linkGroups`.
-/
import DRCAgent.SharedObjects

namespace DRCAgent.Regions

open Disjoint List

/-! ## The order of the seeds -/

section Order

variable {D : Type} [Doubles D] {cfg : RegionConfig D} {seeds seeds' : List Seed} {b c d : Box}

theorem Box.Within.antisymm (h : b.Within c) (h' : c.Within b) : b = c := by
  obtain ⟨hx1, hy1, hx2, hy2⟩ := h
  obtain ⟨hx1', hy1', hx2', hy2'⟩ := h'
  cases b
  cases c
  rw [Box.mk.injEq]
  exact ⟨le_antisymm hx1' hx1, le_antisymm hy1' hy1, le_antisymm hx2 hx2', le_antisymm hy2 hy2'⟩

theorem Box.union_within_iff : (b.union c).Within d ↔ b.Within d ∧ c.Within d := by
  constructor
  · exact fun h => ⟨(b.within_union_left c).trans h, (b.within_union_right c).trans h⟩
  · rintro ⟨⟨hx1, hy1, hx2, hy2⟩, hx1', hy1', hx2', hy2'⟩
    exact ⟨le_min hx1 hx1', le_min hy1 hy1', max_le hx2 hx2', max_le hy2 hy2'⟩

/-- The box of the seeds is the least box with their boxes. -/
theorem seedsBox_within_iff {first : Seed} :
    (seedsBox first seeds).Within d ↔ first.seed.Within d ∧ ∀ s ∈ seeds, s.seed.Within d := by
  unfold seedsBox
  generalize first.seed = b
  induction seeds generalizing b with
  | nil => exact ⟨fun h => ⟨h, fun s hs => nomatch hs⟩, And.left⟩
  | cons s rest ih =>
    rw [foldl_cons, ih, Box.union_within_iff, forall_mem_cons, and_assoc]

theorem seedsBox_perm {first first' : Seed} (hperm : seeds'.Perm seeds) (hfirst : first ∈ seeds)
    (hfirst' : first' ∈ seeds') : seedsBox first' seeds' = seedsBox first seeds := by
  -- the box of either order is within that of the other
  have hle : ∀ {s t : Seed} {l l' : List Seed}, l'.Perm l → t ∈ l' →
      (seedsBox t l').Within (seedsBox s l) := by
    intro s t l l' hl ht
    have hall : s.seed.Within (seedsBox s l) ∧ ∀ r ∈ l, r.seed.Within (seedsBox s l) :=
      seedsBox_within_iff.1 (.refl _)
    refine seedsBox_within_iff.2 ⟨hall.2 t (hl.mem_iff.1 ht), ?_⟩
    intro r hr
    exact hall.2 r (hl.mem_iff.1 hr)
  exact (hle hperm hfirst').antisymm (hle hperm.symm hfirst)

/-- The caps do not depend on the order. -/
theorem capOk_perm (hperm : seeds'.Perm seeds) : capOk cfg seeds' = capOk cfg seeds := by
  cases seeds' with
  | nil =>
    rw [nil_perm.1 hperm]
  | cons first' rest' =>
    cases seeds with
    | nil => exact absurd (nil_perm.1 hperm.symm) (cons_ne_nil _ _)
    | cons first rest =>
      have hids : (seedsObjectIds (first' :: rest')).Perm (seedsObjectIds (first :: rest)) :=
        (hperm.flatMap_right _).dedup
      show withinCaps cfg _ _ (seedsBox first' (first' :: rest')) =
        withinCaps cfg _ _ (seedsBox first (first :: rest))
      rw [seedsBox_perm hperm mem_cons_self mem_cons_self, hids.length_eq, hperm.length_eq]

theorem sharesObject_perm (hperm : seeds'.Perm seeds) :
    sharesObject seeds' = true ↔ sharesObject seeds = true := by
  rw [sharesObject_iff, sharesObject_iff, (hperm.flatMap_right _).nodup_iff]

/-- Why a group is not cut does not depend on the order. -/
theorem kept_perm (hperm : seeds'.Perm seeds) : Kept cfg seeds' ↔ Kept cfg seeds := by
  unfold Kept
  rw [capOk_perm hperm, hperm.length_eq, sharesObject_perm hperm]

/-- A group that is not to be cut is one part. -/
theorem split_of_kept (hne : seeds ≠ []) (h : Kept cfg seeds) : split cfg seeds = [seeds] := by
  obtain ⟨n, hn⟩ : ∃ n, seeds.length = n + 1 :=
    Nat.exists_eq_succ_of_ne_zero (length_pos_iff.2 hne).ne'
  unfold split
  rw [hn, splitTo_kept n h]
  rfl

end Order

/-! ## The classes of the forest -/

section Classes

variable {D : Type} [Doubles D] {cfg : RegionConfig D} {seeds : List (String × Seed)}
  {uf uf' : UnionFind String} {u v : String}

/-- The seeds in the class of an element. -/
def classSeeds (seeds : List (String × Seed)) (uf : UnionFind String) (id : String) : List Seed :=
  (seeds.filter fun entry => uf.root entry.1 = uf.root id).map (·.2)

/-- The seeds in the classes of two elements. -/
def joinedSeeds (seeds : List (String × Seed)) (uf : UnionFind String) (u v : String) : List Seed :=
  (seeds.filter fun entry =>
    uf.root entry.1 = uf.root u ∨ uf.root entry.1 = uf.root v).map (·.2)

/-- **The invariant of the linking**: the classes are kept by the split. -/
structure Linked (cfg : RegionConfig D) (seeds : List (String × Seed)) (uf : UnionFind String) :
    Prop where
  ids : uf.ids = seeds.map (·.1)
  closed : uf.Closed
  kept : ∀ id ∈ uf.ids, Kept cfg (classSeeds seeds uf id)

theorem Linked.mem (h : Linked cfg seeds uf) {entry : String × Seed} (hentry : entry ∈ seeds) :
    entry.1 ∈ uf.ids := by
  rw [h.ids]
  exact mem_map_of_mem hentry

/-- At first a class has one seed. -/
theorem linked_ofIds (hnodup : (seeds.map (·.1)).Nodup) :
    Linked cfg seeds (.ofIds (seeds.map (·.1))) := by
  refine ⟨rfl, UnionFind.closed_ofIds _, ?_⟩
  intro id _
  right
  left
  have hroot : ∀ x, (UnionFind.ofIds (seeds.map (·.1))).root x = x :=
    fun x => UnionFind.root_of_parent_eq rfl
  have hkeys : ((seeds.filter fun entry => entry.1 = id).map (·.1)).Nodup :=
    (filter_sublist.map _).nodup hnodup
  have hsame : (seeds.filter fun entry => entry.1 = id).map (·.1) =
      List.replicate (seeds.filter fun entry => entry.1 = id).length id := by
    rw [eq_replicate_iff]
    refine ⟨length_map _, ?_⟩
    intro key hkey
    obtain ⟨entry, hentry, rfl⟩ := mem_map.1 hkey
    exact of_decide_eq_true (mem_filter.1 hentry).2
  -- the keys of a class are copies of one id, and the keys are distinct
  rw [hsame, nodup_replicate] at hkeys
  unfold classSeeds
  simp only [hroot, length_map]
  exact hkeys

/-- The invariant is about the classes, not about the pointers. -/
theorem Linked.alike (h : Linked cfg seeds uf) (halike : uf.Alike uf') : Linked cfg seeds uf' := by
  refine ⟨halike.ids.trans h.ids, halike.closed, ?_⟩
  intro id hid
  rw [halike.ids] at hid
  have hclass : classSeeds seeds uf' id = classSeeds seeds uf id := by
    unfold classSeeds
    congr 1
    refine filter_congr fun entry hentry => ?_
    rw [halike.root h.closed (h.mem hentry), halike.root h.closed hid]
  rw [hclass]
  exact h.kept id hid

/-- Two classes may be joined if the split keeps what they are together. -/
theorem Linked.union (h : Linked cfg seeds uf) (hu : u ∈ uf.ids) (hv : v ∈ uf.ids)
    (hkept : Kept cfg (joinedSeeds seeds uf u v)) : Linked cfg seeds (uf.union u v) := by
  refine ⟨(UnionFind.union_ids uf u v).trans h.ids, h.closed.union hu hv, ?_⟩
  intro id hid
  rw [UnionFind.union_ids] at hid
  have hroots : ∀ entry ∈ seeds, (uf.union u v).root entry.1 = (uf.union u v).root id ↔
      uf.root entry.1 = uf.root id ∨ uf.InEither u v entry.1 ∧ uf.InEither u v id :=
    fun entry hentry => UnionFind.root_union_iff h.closed hu hv (h.mem hentry) hid
  by_cases hin : uf.InEither u v id
  · -- the class of the element is what was joined
    have hclass : classSeeds seeds (uf.union u v) id = joinedSeeds seeds uf u v := by
      unfold classSeeds joinedSeeds
      congr 1
      refine filter_congr fun entry hentry => ?_
      rw [decide_eq_decide, hroots entry hentry]
      constructor
      · rintro (hroot | ⟨hentry', -⟩)
        · exact hin.imp hroot.trans hroot.trans
        · exact hentry'
      · exact fun hentry' => .inr ⟨hentry', hin⟩
    rw [hclass]
    exact hkept
  · have hclass : classSeeds seeds (uf.union u v) id = classSeeds seeds uf id := by
      unfold classSeeds
      congr 1
      refine filter_congr fun entry hentry => ?_
      rw [decide_eq_decide, hroots entry hentry]
      exact ⟨fun hroot => hroot.resolve_right fun hboth => hin hboth.2, .inl⟩
    rw [hclass]
    exact h.kept id hid

end Classes

/-! ## The loops -/

section Loops

variable {D : Type} [Doubles D] {cfg : RegionConfig D} {seeds : List (String × Seed)}
  {uf : UnionFind String} {state : UnionFind String × List (AffinityEdge D)} {u v : String}

/-- A hard link is between seeds that share an object. -/
theorem shares_of_affinity {a b : Seed} {maxGap : ℤ} (h : (affinity (D := D) a b maxGap).1 = true) :
    a.Shares b := by
  obtain ⟨id, hid, hid'⟩ := any_eq_true.1 h
  have hobject : ∀ s : Seed, id ∈ s.editable → id ∈ s.objects.map (·.objectId) :=
    fun s hs => (filter_sublist.map _).subset hs
  exact ⟨id, hobject a hid, hobject b (contains_iff_mem.1 hid')⟩

/-- A hard link joins classes that share an object. -/
theorem linkPair_linked (hkeyed : Keyed seeds) (h : Linked cfg seeds state.1)
    {entry entry' : String × Seed} (hentry : entry ∈ seeds) (hentry' : entry' ∈ seeds)
    (hne : entry.1 ≠ entry'.1) :
    Linked cfg seeds (linkPair cfg state (entry.2, entry'.2)).1 := by
  unfold linkPair
  dsimp only
  split_ifs with hfar hhard
  · exact h
  · dsimp only
    rw [hkeyed entry hentry, hkeyed entry' hentry']
    refine h.union (h.mem hentry) (h.mem hentry') (Or.inr (Or.inr ?_))
    have hmem : ∀ e ∈ seeds, state.1.InEither entry.1 entry'.1 e.1 →
        e.2 ∈ joinedSeeds seeds state.1 entry.1 entry'.1 :=
      fun e he hin => mem_map_of_mem (mem_filter.2 ⟨he, decide_eq_true hin⟩)
    refine sharesObject_of_shares (hmem entry hentry (.inl rfl)) (hmem entry' hentry' (.inr rfl)) ?_
      (shares_of_affinity hhard)
    intro heq
    apply hne
    rw [← hkeyed entry hentry, ← hkeyed entry' hentry', heq]
  · exact h

/-- The two ends of a pair of the loop have their own keys. -/
theorem pair_entries (hnodup : (seeds.map (·.1)).Nodup) {pair : Seed × Seed}
    (hpair : pair ∈ pairs (seeds.map (·.2))) :
    ∃ entry ∈ seeds, ∃ entry' ∈ seeds, pair = (entry.2, entry'.2) ∧ entry.1 ≠ entry'.1 := by
  induction seeds with
  | nil => cases hpair
  | cons first rest ih =>
    rw [map_cons, nodup_cons] at hnodup
    rw [map_cons, pairs, map_map, mem_append] at hpair
    rcases hpair with hpair | hpair
    · obtain ⟨entry, hentry, rfl⟩ := mem_map.1 hpair
      refine ⟨first, mem_cons_self, entry, mem_cons_of_mem _ hentry, rfl, ?_⟩
      intro heq
      exact hnodup.1 (heq ▸ mem_map_of_mem hentry)
    · obtain ⟨entry, hentry, entry', hentry', hpair, hne⟩ := ih hnodup.2 hpair
      exact ⟨entry, mem_cons_of_mem _ hentry, entry', mem_cons_of_mem _ hentry', hpair, hne⟩

/-- The loop over the pairs keeps the invariant. -/
theorem linkPairs_linked (hkeyed : Keyed seeds) (hnodup : (seeds.map (·.1)).Nodup)
    {items : List (Seed × Seed)} (hitems : ∀ pair ∈ items, pair ∈ pairs (seeds.map (·.2)))
    (h : Linked cfg seeds state.1) : Linked cfg seeds (items.foldl (linkPair cfg) state).1 := by
  induction items generalizing state with
  | nil => exact h
  | cons pair rest ih =>
    refine ih (fun other hother => hitems other (mem_cons_of_mem _ hother)) ?_
    obtain ⟨entry, hentry, entry', hentry', rfl, hne⟩ :=
      pair_entries hnodup (hitems pair mem_cons_self)
    exact linkPair_linked hkeyed h hentry hentry' hne

/-- One turn of the loop over the members. -/
theorem memberStep_joined (hclosed : uf.Closed) (hu : u ∈ uf.ids) (hv : v ∈ uf.ids)
    {group : UnionFind String × List Seed} {entry : String × Seed} (hentry : entry.1 ∈ uf.ids)
    (h : uf.Alike group.1) :
    uf.Alike (memberStep u v group entry).1 ∧
      (memberStep u v group entry).2 = group.2 ++ joinedSeeds [entry] uf u v := by
  have hfirst := h.find hentry
  have hsecond := hfirst.find hu
  refine ⟨hsecond.find hv, ?_⟩
  show (if (group.1.find entry.1).1 = ((group.1.find entry.1).2.find u).1 ∨
      (group.1.find entry.1).1 = (((group.1.find entry.1).2.find u).2.find v).1
    then group.2 ++ [entry.2] else group.2) = _
  rw [h.find_eq hclosed hentry, hfirst.find_eq hclosed hu, hsecond.find_eq hclosed hv]
  unfold joinedSeeds
  split_ifs with hin
  · rw [filter_singleton, decide_eq_true hin]
    rfl
  · rw [filter_singleton, decide_eq_false hin]
    exact (append_nil _).symm

/-- The members that the caps are checked on are the two classes. -/
theorem members_joined (hclosed : uf.Closed) (hseeds : ∀ entry ∈ seeds, entry.1 ∈ uf.ids)
    (hu : u ∈ uf.ids) (hv : v ∈ uf.ids) :
    uf.Alike (members seeds u v uf).1 ∧ (members seeds u v uf).2 = joinedSeeds seeds uf u v := by
  have hloop : ∀ (items : List (String × Seed)) (group : UnionFind String × List Seed),
      (∀ entry ∈ items, entry.1 ∈ uf.ids) → uf.Alike group.1 →
        uf.Alike (items.foldl (memberStep u v) group).1 ∧
          (items.foldl (memberStep u v) group).2 = group.2 ++ joinedSeeds items uf u v := by
    intro items
    induction items with
    | nil =>
      intro group _ halike
      exact ⟨halike, (append_nil _).symm⟩
    | cons entry rest ih =>
      intro group hitems halike
      obtain ⟨hstep, hcollected⟩ :=
        memberStep_joined hclosed hu hv (hitems entry mem_cons_self) halike
      obtain ⟨hrest, hall⟩ := ih (memberStep u v group entry)
        (fun e he => hitems e (mem_cons_of_mem _ he)) hstep
      refine ⟨hrest, ?_⟩
      have happend : joinedSeeds (entry :: rest) uf u v =
          joinedSeeds [entry] uf u v ++ joinedSeeds rest uf u v := by
        unfold joinedSeeds
        rw [← map_append, ← filter_append, singleton_append]
      rw [foldl_cons, hall, hcollected, happend, append_assoc]
  rw [members_eq]
  exact hloop seeds (uf, []) hseeds (.refl hclosed)

/-- A merge checks the caps on the class that it makes. -/
theorem mergeEdge_linked {edge : AffinityEdge D} (h : Linked cfg seeds uf) (hu : edge.u ∈ uf.ids)
    (hv : edge.v ∈ uf.ids) : Linked cfg seeds (mergeEdge cfg seeds uf edge) := by
  have hfound : uf.Alike ((uf.find edge.u).2.find edge.v).2 :=
    ((UnionFind.Alike.refl h.closed).find hu).find hv
  have hlinked := h.alike hfound
  obtain ⟨halike, hgroup⟩ := members_joined hlinked.closed (fun entry => hlinked.mem)
    (hfound.mem hu) (hfound.mem hv)
  have hmembers := hlinked.alike halike
  unfold mergeEdge
  dsimp only
  -- the finds of the loop only shorten paths; the cap is checked last
  split_ifs with hmerge hroot hcap
  · exact h
  · exact hlinked
  · refine hmembers.union (halike.mem (hfound.mem hu)) (halike.mem (hfound.mem hv)) (Or.inl ?_)
    have hjoined : joinedSeeds seeds
        (members seeds edge.u edge.v ((uf.find edge.u).2.find edge.v).2).1 edge.u edge.v =
          joinedSeeds seeds ((uf.find edge.u).2.find edge.v).2 edge.u edge.v := by
      unfold joinedSeeds
      congr 1
      refine filter_congr fun entry hentry => ?_
      rw [halike.root hlinked.closed (hlinked.mem hentry),
        halike.root hlinked.closed (hfound.mem hu), halike.root hlinked.closed (hfound.mem hv)]
    rw [hjoined, ← hgroup]
    exact hcap
  · exact hmembers

/-- The loop over the edges keeps the invariant. -/
theorem mergeEdges_linked {edges : List (AffinityEdge D)} (h : Linked cfg seeds uf)
    (hedges : EdgesIn uf.ids edges) :
    Linked cfg seeds (edges.foldl (mergeEdge cfg seeds) uf) := by
  induction edges generalizing uf with
  | nil => exact h
  | cons edge rest ih =>
    obtain ⟨hu, hv⟩ := hedges edge mem_cons_self
    have hstep := mergeEdge_linked h hu hv
    refine ih hstep ?_
    rw [hstep.ids, ← h.ids]
    exact fun other hother => hedges other (mem_cons_of_mem _ hother)

/-- The seeds of a group, looked up, are those of the class. -/
theorem lookups_perm (hnodup : (seeds.map (·.1)).Nodup) (hids : uf.ids = seeds.map (·.1))
    (id : String) :
    ((((uf.ids.insertionSort (· ≤ ·)).filter fun key => uf.root key = uf.root id)).filterMap
      fun key => seeds.lookup key).Perm (classSeeds seeds uf id) := by
  refine (((perm_insertionSort _ _).filter _).filterMap _).trans ?_
  have hlookup : (seeds.filter fun entry => uf.root entry.1 = uf.root id).filterMap
      (fun entry => seeds.lookup entry.1) = classSeeds seeds uf id := by
    unfold classSeeds
    rw [← filterMap_eq_map]
    refine filterMap_congr fun entry hentry => ?_
    exact Dicts.lookup_of_mem hnodup (mem_filter.1 hentry).1
  rw [hids, filter_map, filterMap_map]
  exact Perm.of_eq hlookup

/-- Every class that the linking makes is kept. -/
theorem mergedForest_linked (hkeyed : Keyed seeds) (hnodup : (seeds.map (·.1)).Nodup) :
    Linked cfg seeds (mergedForest cfg seeds) := by
  have hlinked : Linked cfg seeds (linkedState cfg seeds).1 :=
    linkPairs_linked hkeyed hnodup (fun pair hpair => hpair) (linked_ofIds hnodup)
  have hedges : EdgesIn (seeds.map (·.1)) (linkedState cfg seeds).2 := (linkedState_grows hkeyed).2
  refine mergeEdges_linked hlinked ?_
  intro edge hedge
  rw [hlinked.ids]
  exact hedges edge ((mem_insertionSort _).1 hedge)

/-- **The groups are kept**: a single violation, or a shared object, or within the caps. -/
theorem linkGroups_kept (hkeyed : Keyed seeds) (hnodup : (seeds.map (·.1)).Nodup)
    {ids : List String} (hids : ids ∈ (linkGroups cfg seeds).1) :
    Kept cfg (ids.filterMap fun id => seeds.lookup id) := by
  have hmerged : Linked cfg seeds (mergedForest cfg seeds) := mergedForest_linked hkeyed hnodup
  obtain ⟨id, hid⟩ := exists_mem_of_ne_nil ids (linkGroups_ne_nil hids)
  have hmem : id ∈ seeds.map (·.1) :=
    (linkGroups_perm seeds).mem_iff.1 (mem_flatten.2 ⟨ids, hids, hid⟩)
  rw [linkGroups_eq] at hids
  rw [UnionFind.group_of_mem hmerged.closed hids hid]
  rw [← hmerged.ids] at hmem
  exact (kept_perm (lookups_perm hnodup hmerged.ids id)).2 (hmerged.kept id hmem)

/-- **`_split` returns each group as it is.** -/
theorem split_linkGroups (hkeyed : Keyed seeds) (hnodup : (seeds.map (·.1)).Nodup)
    {ids : List String} (hids : ids ∈ (linkGroups cfg seeds).1) :
    split cfg (ids.filterMap fun id => seeds.lookup id) =
      [ids.filterMap fun id => seeds.lookup id] := by
  have hgroups : GroupsOf seeds (linkGroups cfg seeds).1 :=
    ⟨hnodup, linkGroups_perm seeds, fun _ => linkGroups_ne_nil⟩
  obtain ⟨hne, -⟩ : _ ∧ Splits cfg _ _ := hgroups.splits hids
  exact split_of_kept hne (linkGroups_kept hkeyed hnodup hids)

end Loops

end DRCAgent.Regions
