/-
# The regions partition the violations

The split of a group ends, keeps its seeds, and cuts only where no object is shared
(`Splits`). The groups of the linking are a partition, whatever was linked or merged;
so are the parts of the split, and a region takes exactly the violations of its part.

A region exceeds the caps only where the split stopped for another reason: a single
violation, or two violations with an object in common.
-/
import Mathlib.Data.List.Flatten
import Mathlib.Data.List.Pairwise
import Mathlib.Data.Rat.Floor
import DRCAgent.RegionBuilder
import DRCAgent.Transaction

namespace DRCAgent.Regions

open Disjoint List

section Splitting

variable {D : Type} [Doubles D] {cfg : RegionConfig D} {seeds left right : List Seed}
  {groups groups' : List (List Seed)} {depth depth' : ℕ}

/-! ## The cut -/

/-- There is a best cut, and it leaves seeds on both sides. -/
theorem bestCut_bounds {axis : Axis} {ordered : List Seed} (h : 2 ≤ ordered.length) :
    1 ≤ bestCut (D := D) axis ordered ∧ bestCut (D := D) axis ordered < ordered.length := by
  unfold bestCut
  dsimp only
  cases hmin : ((range' 1 (ordered.length - 1)).map fun cut =>
      toLex ((cutScore axis ordered cut : D), cut)).min? with
  | none =>
    rw [min?_eq_none_iff, map_eq_nil_iff, range'_eq_nil_iff] at hmin
    omega
  | some best =>
    have hmem := min?_mem hmin
    obtain ⟨cut, hcut, rfl⟩ := mem_map.1 hmem
    rw [mem_range'_1] at hcut
    show 1 ≤ cut ∧ cut < ordered.length
    omega

theorem orderAlong_perm (axis : Axis) (seeds : List Seed) :
    (orderAlong (D := D) axis seeds).Perm seeds :=
  perm_insertionSort _ _

/-- The two sides have the seeds. -/
theorem bisect_perm (seeds : List Seed) :
    ((bisect (D := D) seeds).1 ++ (bisect (D := D) seeds).2).Perm seeds := by
  unfold bisect
  dsimp only
  rw [take_append_drop]
  exact orderAlong_perm _ seeds

/-- Neither side is empty or has all the seeds. -/
theorem bisect_lengths (h : 2 ≤ seeds.length) :
    (1 ≤ (bisect (D := D) seeds).1.length ∧ (bisect (D := D) seeds).1.length < seeds.length) ∧
      1 ≤ (bisect (D := D) seeds).2.length ∧ (bisect (D := D) seeds).2.length < seeds.length := by
  have hlength : (orderAlong (D := D) (splitAxis seeds) seeds).length = seeds.length :=
    (orderAlong_perm _ seeds).length_eq
  have hlong : 2 ≤ (orderAlong (D := D) (splitAxis seeds) seeds).length := by
    rw [hlength]
    exact h
  obtain ⟨hfirst, hlast⟩ : 1 ≤ bestCut (D := D) (splitAxis seeds) _ ∧ _ := bestCut_bounds hlong
  unfold bisect
  dsimp only
  rw [length_take, length_drop, hlength]
  rw [hlength] at hlast
  omega

/-! ## The split -/

/-- Why a group is not cut. -/
def Kept (cfg : RegionConfig D) (seeds : List Seed) : Prop :=
  capOk cfg seeds = true ∨ seeds.length ≤ 1 ∨ sharesObject seeds = true

/-- What `_split` does to a group: it keeps it, or cuts it where no object is shared. -/
inductive Splits (cfg : RegionConfig D) : List Seed → List (List Seed) → Prop
  | keep {seeds : List Seed} (hkept : Kept cfg seeds) : Splits cfg seeds [seeds]
  | cut {seeds left right : List Seed} {groups groups' : List (List Seed)}
      (hshare : sharesObject seeds = false) (hperm : (left ++ right).Perm seeds)
      (hnonempty : left ≠ [] ∧ right ≠ []) (hleft : Splits cfg left groups)
      (hright : Splits cfg right groups') : Splits cfg seeds (groups ++ groups')

theorem splitTo_kept (depth : ℕ) (h : Kept cfg seeds) :
    splitTo cfg (depth + 1) seeds = some [seeds] := by
  rw [splitTo]
  split_ifs with hsmall hshare
  · rfl
  · rfl
  · exfalso
    rw [Bool.or_eq_true, decide_eq_true_eq, not_or] at hsmall
    rcases h with hcap | hone | hshares
    · exact hsmall.1 hcap
    · exact hsmall.2 hone
    · exact hshare hshares

theorem splitTo_cut (depth : ℕ) (h : ¬ Kept cfg seeds) :
    splitTo cfg (depth + 1) seeds =
      (splitTo cfg depth (bisect (D := D) seeds).1).bind fun l =>
        (splitTo cfg depth (bisect (D := D) seeds).2).bind fun r => some (l ++ r) := by
  rw [splitTo]
  split_ifs with hsmall hshare
  · exfalso
    rw [Bool.or_eq_true, decide_eq_true_eq] at hsmall
    rcases hsmall with hcap | hone
    · exact h (Or.inl hcap)
    · exact h (Or.inr (Or.inl hone))
  · exact absurd (Or.inr (Or.inr hshare)) h
  · rfl

/-- What is cut has at least two seeds. -/
theorem two_le_of_not_kept (h : ¬ Kept cfg seeds) : 2 ≤ seeds.length := by
  by_contra hlt
  apply h
  right
  left
  omega

/-- **The split ends**: a depth of as many calls as there are seeds is enough, and the
depth does not change what it returns. -/
theorem splitTo_total (depth : ℕ) (seeds : List Seed) (hne : seeds ≠ [])
    (hle : seeds.length ≤ depth) :
    ∃ groups, ∀ depth', seeds.length ≤ depth' → splitTo cfg depth' seeds = some groups := by
  induction depth generalizing seeds with
  | zero =>
    have hzero : seeds.length = 0 := by omega
    exact absurd (length_eq_zero_iff.1 hzero) hne
  | succ depth ih =>
    have hpos : 1 ≤ seeds.length := length_pos_iff.2 hne
    by_cases hkept : Kept cfg seeds
    · refine ⟨[seeds], ?_⟩
      intro depth' hle'
      obtain ⟨n, rfl⟩ : ∃ n, depth' = n + 1 := ⟨depth' - 1, by omega⟩
      exact splitTo_kept n hkept
    · obtain ⟨⟨hl, hl'⟩, hr, hr'⟩ := bisect_lengths (D := D) (two_le_of_not_kept hkept)
      obtain ⟨groups, hleft⟩ := ih (bisect (D := D) seeds).1 (length_pos_iff.1 hl) (by omega)
      obtain ⟨groups', hright⟩ :=
        ih (bisect (D := D) seeds).2 (length_pos_iff.1 hr) (by omega)
      refine ⟨groups ++ groups', ?_⟩
      intro depth' hle'
      obtain ⟨n, rfl⟩ : ∃ n, depth' = n + 1 := ⟨depth' - 1, by omega⟩
      rw [splitTo_cut n hkept, hleft n (by omega), Option.bind_some, hright n (by omega),
        Option.bind_some]

/-- `_split` returns what it returns at every depth that is enough. -/
theorem splitTo_split (hne : seeds ≠ []) (hle : seeds.length ≤ depth) :
    splitTo cfg depth seeds = some (split cfg seeds) := by
  obtain ⟨groups, hgroups⟩ : ∃ groups, ∀ depth', seeds.length ≤ depth' →
      splitTo cfg depth' seeds = some groups := splitTo_total depth seeds hne hle
  unfold split
  rw [hgroups _ le_rfl, hgroups depth hle]
  rfl

/-- Every call that returns keeps the group or cuts it. -/
theorem splits_of_splitTo (h : splitTo cfg depth seeds = some groups) : Splits cfg seeds groups := by
  induction depth generalizing seeds groups with
  | zero => cases h
  | succ depth ih =>
    by_cases hkept : Kept cfg seeds
    · rw [splitTo_kept depth hkept] at h
      obtain rfl := Option.some.inj h
      exact .keep hkept
    · rw [splitTo_cut depth hkept] at h
      obtain ⟨l, hl, h⟩ := Option.bind_eq_some_iff.1 h
      obtain ⟨r, hr, h⟩ := Option.bind_eq_some_iff.1 h
      obtain rfl := Option.some.inj h
      obtain ⟨⟨hl', -⟩, hr', -⟩ := bisect_lengths (D := D) (two_le_of_not_kept hkept)
      have hshare : sharesObject seeds = false := by
        rw [Bool.eq_false_iff]
        intro hshares
        exact hkept (Or.inr (Or.inr hshares))
      exact .cut hshare (bisect_perm seeds)
        ⟨length_pos_iff.1 hl', length_pos_iff.1 hr'⟩ (ih hl) (ih hr)

theorem splits_split (hne : seeds ≠ []) : Splits cfg seeds (split cfg seeds) :=
  splits_of_splitTo (splitTo_split hne le_rfl)

/-- No seed is lost or duplicated. -/
theorem Splits.perm (h : Splits cfg seeds groups) : groups.flatten.Perm seeds := by
  induction h with
  | @keep seeds hkept =>
    rw [flatten_cons, flatten_nil, append_nil]
  | @cut seeds left right groups groups' hshare hperm hnonempty hleft hright ihl ihr =>
    rw [flatten_append]
    exact (ihl.append ihr).trans hperm

/-- A part is not empty, and it was not cut for a reason. -/
theorem Splits.part (h : Splits cfg seeds groups) (hne : seeds ≠ []) :
    ∀ group ∈ groups, group ≠ [] ∧ Kept cfg group := by
  induction h with
  | @keep seeds hkept =>
    intro group hgroup
    obtain rfl := mem_singleton.1 hgroup
    exact ⟨hne, hkept⟩
  | @cut seeds left right groups groups' hshare hperm hnonempty hleft hright ihl ihr =>
    intro group hgroup
    rcases mem_append.1 hgroup with hgroup | hgroup
    · exact ihl hnonempty.1 group hgroup
    · exact ihr hnonempty.2 group hgroup

/-- A group with a shared object is not cut. -/
theorem Splits.eq_of_shares (h : Splits cfg seeds groups) (hshare : sharesObject seeds = true) :
    groups = [seeds] := by
  cases h with
  | keep hkept => rfl
  | cut hfalse hperm hnonempty hleft hright =>
    rw [hshare] at hfalse
    cases hfalse

end Splitting

/-! ## Objects in common -/

section Sharing

variable {seeds : List Seed} {s s' : Seed}

/-- Two seeds have an object in common. -/
def Seed.Shares (s s' : Seed) : Prop :=
  ∃ id, id ∈ s.objects.map (·.objectId) ∧ id ∈ s'.objects.map (·.objectId)

theorem sharesObject_iff :
    sharesObject seeds = true ↔ ¬ (seeds.flatMap fun s => s.objects.map (·.objectId)).Nodup := by
  unfold sharesObject
  dsimp only
  rw [any_eq_true, nodup_iff_count_le_one, not_forall]
  constructor
  · rintro ⟨id, -, hcount⟩
    rw [decide_eq_true_eq] at hcount
    exact ⟨id, not_le.2 hcount⟩
  · rintro ⟨id, hcount⟩
    rw [not_le] at hcount
    exact ⟨id, count_pos_iff.1 (by omega), decide_eq_true hcount⟩

/-- Two seeds of a group that share an object make the group share one. -/
theorem sharesObject_of_shares (hs : s ∈ seeds) (hs' : s' ∈ seeds) (hne : s ≠ s')
    (h : s.Shares s') : sharesObject seeds = true := by
  rw [sharesObject_iff]
  intro hnodup
  obtain ⟨id, hid, hid'⟩ := h
  rw [nodup_flatMap] at hnodup
  have hsymm : Std.Symm (Function.onFun List.Disjoint
      fun s : Seed => s.objects.map (·.objectId)) := ⟨fun a b hab => hab.symm⟩
  have hdisjoint := hnodup.2.forall hs hs' hne
  exact hdisjoint hid hid'

/-- A group that shares an object has two seeds that share one, where no seed has an
object twice. -/
theorem exists_shares (hnodup : seeds.Nodup)
    (hobjects : ∀ s ∈ seeds, (s.objects.map (·.objectId)).Nodup) (h : sharesObject seeds = true) :
    ∃ s ∈ seeds, ∃ s' ∈ seeds, s ≠ s' ∧ s.Shares s' := by
  by_contra hnone
  rw [sharesObject_iff, nodup_flatMap] at h
  apply h
  refine ⟨hobjects, ?_⟩
  refine hnodup.pairwise_of_forall_ne ?_
  intro s hs s' hs' hne id hid hid'
  exact hnone ⟨s, hs, s', hs', hne, id, hid, hid'⟩

end Sharing

/-! ## The groups of the linking -/

section Linking

variable {D : Type} [Doubles D] {cfg : RegionConfig D}

theorem linkPair_ids (state : UnionFind String × List (AffinityEdge D)) (pair : Seed × Seed) :
    (linkPair cfg state pair).1.ids = state.1.ids := by
  unfold linkPair
  dsimp only
  split_ifs
  · rfl
  · exact UnionFind.union_ids _ _ _
  · rfl

/-- A loop whose turns keep the elements keeps them. -/
theorem foldl_ids {β σ : Type} {f : σ → β → σ} (ids : σ → List String)
    (hf : ∀ s b, ids (f s b) = ids s) (items : List β) (s : σ) : ids (items.foldl f s) = ids s := by
  induction items generalizing s with
  | nil => rfl
  | cons b rest ih => rw [foldl_cons, ih, hf]

theorem memberStep_ids (u v : String) (state : UnionFind String × List Seed)
    (entry : String × Seed) : (memberStep u v state entry).1.ids = state.1.ids := by
  show (((state.1.find entry.1).2.find u).2.find v).2.ids = state.1.ids
  rw [UnionFind.find_ids, UnionFind.find_ids, UnionFind.find_ids]

theorem members_ids (seeds : List (String × Seed)) (u v : String) (uf : UnionFind String) :
    (members seeds u v uf).1.ids = uf.ids := by
  rw [members_eq]
  exact foldl_ids (fun state : UnionFind String × List Seed => state.1.ids) (memberStep_ids u v)
    seeds (uf, [])

theorem mergeEdge_ids (seeds : List (String × Seed)) (uf : UnionFind String)
    (edge : AffinityEdge D) : (mergeEdge cfg seeds uf edge).ids = uf.ids := by
  have hids : ((uf.find edge.u).2.find edge.v).2.ids = uf.ids := by
    rw [UnionFind.find_ids, UnionFind.find_ids]
  unfold mergeEdge
  dsimp only
  split_ifs
  · rfl
  · exact hids
  · rw [UnionFind.union_ids, members_ids]
    exact hids
  · rw [members_ids]
    exact hids

/-- **The groups partition the seeds**, whatever is linked and merged. -/
theorem linkGroups_perm (seeds : List (String × Seed)) :
    (linkGroups cfg seeds).1.flatten.Perm (seeds.map (·.1)) := by
  unfold linkGroups
  dsimp only
  refine (UnionFind.groups_perm _).trans ?_
  rw [foldl_ids (fun uf : UnionFind String => uf.ids) (mergeEdge_ids seeds)]
  rw [foldl_ids (fun state : UnionFind String × List (AffinityEdge D) => state.1.ids) linkPair_ids]
  exact Perm.refl _

theorem linkGroups_ne_nil {seeds : List (String × Seed)} {ids : List String}
    (h : ids ∈ (linkGroups cfg seeds).1) : ids ≠ [] :=
  UnionFind.groups_ne_nil h

end Linking

/-! ## The seeds -/

section Seeds

variable {D : Type} {cfg : RegionConfig D} {violations : List ViolationRecord}
  {objects nearby : List LayoutObject} {v : ViolationRecord} {s : Seed}

/-- A loop over a list that returned has run on each of its members. -/
theorem forall₂_of_mapM {α β ε : Type} {f : α → Except ε β} {items : List α} {values : List β}
    (h : items.mapM f = .ok values) : List.Forall₂ (fun a b => f a = .ok b) items values := by
  induction items generalizing values with
  | nil =>
    rw [mapM_nil] at h
    cases h
    exact .nil
  | cons a rest ih =>
    rw [mapM_cons] at h
    obtain ⟨b, hb, h⟩ := except_bind_ok h
    obtain ⟨bs, hbs, h⟩ := except_bind_ok h
    cases h
    exact .cons hb (ih hbs)

theorem exists_of_forall₂ {α β : Type} {R : α → β → Prop} {items : List α} {values : List β}
    (h : List.Forall₂ R items values) : ∀ a ∈ items, ∃ b ∈ values, R a b := by
  induction h with
  | nil =>
    intro a ha
    cases ha
  | @cons x y xs ys hxy _ ih =>
    intro a ha
    rcases mem_cons.1 ha with rfl | ha
    · exact ⟨y, mem_cons_self, hxy⟩
    · obtain ⟨b, hb, hab⟩ := ih a ha
      exact ⟨b, mem_cons_of_mem y hb, hab⟩

theorem map_eq_of_forall₂ {α β γ : Type} {f : α → γ} {g : β → γ} {items : List α} {values : List β}
    (h : List.Forall₂ (fun a b => g b = f a) items values) : values.map g = items.map f := by
  induction h with
  | nil => rfl
  | cons hhead _ ih => rw [map_cons, map_cons, hhead, ih]

theorem nearbyObjects_sublist (h : nearbyObjects cfg v objects = .ok nearby) :
    nearby.Sublist objects := by
  unfold nearbyObjects at h
  dsimp only at h
  split_ifs at h
  · cases h
    exact nil_sublist _
  · obtain ⟨reach, -, h⟩ := except_bind_ok h
    cases h
    exact filter_sublist.trans filter_sublist

theorem selectObjects_sublist (v : ViolationRecord) (nearby : List LayoutObject) :
    (selectObjects v nearby).Sublist nearby := by
  unfold selectObjects
  split_ifs
  · exact take_sublist 16 nearby
  · exact filter_sublist

theorem sortObjects_perm (objects : List LayoutObject) : (sortObjects objects).Perm objects :=
  perm_insertionSort _ _

/-- The seed of a violation has its associated objects. -/
def SeedFor (cfg : RegionConfig D) (objects : List LayoutObject) (v : ViolationRecord) (s : Seed) :
    Prop :=
  ∃ nearby, nearbyObjects cfg v objects = .ok nearby ∧
    s.violation = associated v (selectObjects v nearby) ∧
      s.objects = sortObjects (selectObjects v nearby)

theorem SeedFor.violationId (h : SeedFor cfg objects v s) :
    s.violation.violationId = v.violationId := by
  obtain ⟨nearby, -, hviolation, -⟩ := h
  rw [hviolation]
  rfl

/-- The associated objects of the violation are the objects of the seed. -/
theorem SeedFor.objectIds (h : SeedFor cfg objects v s) :
    s.violation.associatedObjectIds.Perm (s.objects.map (·.objectId)) := by
  obtain ⟨nearby, -, hviolation, hobjects⟩ := h
  rw [hviolation, hobjects]
  refine (perm_insertionSort _ _).trans ?_
  exact ((sortObjects_perm _).map _).symm

/-- A seed has no object twice. -/
theorem SeedFor.nodup (h : SeedFor cfg objects v s)
    (hobjects : (objects.map (·.objectId)).Nodup) : (s.objects.map (·.objectId)).Nodup := by
  obtain ⟨nearby, hnearby, -, hsorted⟩ := h
  rw [hsorted, ((sortObjects_perm _).map _).nodup_iff]
  have hsub := (selectObjects_sublist v nearby).trans (nearbyObjects_sublist hnearby)
  exact (hsub.map _).nodup hobjects

/-- What holds of the violations and their seeds, where the ids are distinct. -/
structure SeedsOf (cfg : RegionConfig D) (violations : List ViolationRecord)
    (objects : List LayoutObject) (seeds : List (String × Seed)) : Prop where
  nodup : (seeds.map (·.1)).Nodup
  keys : (seeds.map (·.1)).Perm (violations.map (·.violationId))
  seed : ∀ entry ∈ seeds, ∃ v ∈ violations, entry.1 = v.violationId ∧ SeedFor cfg objects v entry.2
  has : ∀ v ∈ violations, ∃ s, (v.violationId, s) ∈ seeds ∧ SeedFor cfg objects v s

/-- The violations of the result are those of the seeds. -/
theorem associateAll_spec {updated : List ViolationRecord}
    (h : associateAll cfg violations objects = .ok updated) :
    List.Forall₂ (fun v w => ∀ s, SeedFor cfg objects v s → s.violation = w) violations updated := by
  unfold associateAll at h
  refine (forall₂_of_mapM h).imp ?_
  rintro v w hv s ⟨nearby, hnearby, hviolation, -⟩
  obtain ⟨⟨w', selected⟩, hassociate, hv⟩ := except_bind_ok hv
  cases hv
  unfold associate at hassociate
  rw [hnearby] at hassociate
  cases hassociate
  exact hviolation

variable [Doubles D] {catalog : RuleCatalog D} {seeds : List (String × Seed)}

theorem seedFor_of_seedOf (h : seedOf cfg catalog objects v = .ok s) : SeedFor cfg objects v s := by
  unfold seedOf at h
  obtain ⟨⟨violation, selected⟩, hassociate, h⟩ := except_bind_ok h
  unfold associate at hassociate
  obtain ⟨nearby, hnearby, hassociate⟩ := except_bind_ok hassociate
  cases hassociate
  have h : makeSeed cfg catalog (associated v (selectObjects v nearby))
      (sortObjects (selectObjects v nearby)) = .ok s := h
  unfold makeSeed at h
  obtain ⟨box, -, h⟩ := except_bind_ok h
  obtain ⟨expanded, -, h⟩ := except_bind_ok h
  cases h
  exact ⟨nearby, hnearby, rfl, rfl⟩

/-- **The seeds**: one for each violation. -/
theorem buildSeeds_spec (hdistinct : (violations.map (·.violationId)).Nodup)
    (h : buildSeeds cfg catalog violations objects = .ok seeds) :
    SeedsOf cfg violations objects seeds := by
  unfold buildSeeds at h
  obtain ⟨entries, hentries, h⟩ := except_bind_ok h
  cases h
  have hsorted := perm_insertionSort
    (fun a b : ViolationRecord => a.violationId ≤ b.violationId) violations
  have hentry := (forall₂_of_mapM hentries).imp (S := fun v entry =>
      entry.1 = v.violationId ∧ SeedFor cfg objects v entry.2) (by
    intro v entry hv
    obtain ⟨s, hs, hv⟩ := except_bind_ok hv
    cases hv
    exact ⟨rfl, seedFor_of_seedOf hs⟩)
  have hkeys := map_eq_of_forall₂ (hentry.imp fun _ _ hv => hv.1)
  have hnodup : (entries.map (·.1)).Nodup := by
    rw [hkeys, (hsorted.map _).nodup_iff]
    exact hdistinct
  rw [Dicts.ofList_of_nodup hnodup]
  refine ⟨hnodup, ?_, ?_, ?_⟩
  · rw [hkeys]
    exact hsorted.map _
  · intro entry hmem
    obtain ⟨v, hv, hspec⟩ := exists_of_forall₂ hentry.flip entry hmem
    exact ⟨v, hsorted.mem_iff.1 hv, hspec⟩
  · intro v hv
    obtain ⟨entry, hmem, hkey, hspec⟩ := exists_of_forall₂ hentry v (hsorted.mem_iff.2 hv)
    refine ⟨entry.2, ?_, hspec⟩
    rw [← hkey]
    exact hmem

end Seeds

/-! ## The regions -/

section Regions

variable {D : Type} [Doubles D] {cfg : RegionConfig D} {hash : RegionHashPart → String}
  {previous : List PreviousRegion} {seeds : List (String × Seed)} {part : List Seed}
  {region : RegionState D} {first : Seed} {rest : List Seed}

/-- The violations of a region are those of its part. -/
theorem finalize_violationIds (cfg : RegionConfig D) (hash : RegionHashPart → String)
    (previous : List PreviousRegion) (first : Seed) (rest : List Seed) :
    (finalize cfg hash previous first rest).violationIds.Perm
      ((first :: rest).map (·.violation.violationId)) := by
  have hsorted := perm_insertionSort
    (fun a b : ViolationRecord => a.violationId ≤ b.violationId)
    ((first :: rest).map (·.violation))
  have hmapped := hsorted.map (·.violationId)
  rw [map_map] at hmapped
  exact hmapped

/-- The objects of seeds by their ids. -/
def objectsById (seeds : List Seed) : List (String × LayoutObject) :=
  Dicts.ofList (seeds.flatMap fun s => s.objects.map fun obj => (obj.objectId, obj))

theorem objectsById_ids (seeds : List Seed) :
    ((objectsById seeds).map (·.2)).map (·.objectId) = (objectsById seeds).map (·.1) := by
  rw [map_map]
  refine map_congr_left fun entry hentry => ?_
  have hmem := Dicts.mem_ofList hentry
  obtain ⟨s, -, hs⟩ := mem_flatMap.1 hmem
  obtain ⟨obj, -, rfl⟩ := mem_map.1 hs
  rfl

theorem objectsById_perm (seeds : List Seed) :
    ((objectsById seeds).map (·.1)).Perm (seedsObjectIds seeds) := by
  have hids : (seeds.flatMap fun s => s.objects.map fun obj => (obj.objectId, obj)).map (·.1) =
      seeds.flatMap fun s => s.objects.map (·.objectId) := by
    rw [map_flatMap]
    refine flatMap_congr fun s _ => ?_
    rw [map_map]
    rfl
  refine (perm_ext_iff_of_nodup (Dicts.nodup_keys_ofList _) (nodup_dedup _)).2 ?_
  intro id
  show id ∈ (Dicts.ofList _).map (·.1) ↔ id ∈ dedup _
  rw [Dicts.mem_keys_ofList, hids, mem_dedup]

/-- The objects of a region are those of its part, each once. -/
theorem finalize_objectIds (cfg : RegionConfig D) (hash : RegionHashPart → String)
    (previous : List PreviousRegion) (first : Seed) (rest : List Seed) :
    (finalize cfg hash previous first rest).objectIds.Perm (seedsObjectIds (first :: rest)) := by
  refine (perm_insertionSort _ _).trans ?_
  show (((objectsById (first :: rest)).map (·.2)).map (·.objectId)).Perm _
  rw [objectsById_ids]
  exact objectsById_perm _

theorem Box.union_self (b : Box) : b.union b = b := by
  cases b
  simp [Box.union]

theorem seedsBox_self (first : Seed) (rest : List Seed) :
    seedsBox first (first :: rest) = seedsBox first rest := by
  show rest.foldl _ (first.seed.union first.seed) = rest.foldl _ first.seed
  rw [Box.union_self]

/-- The caps, on the data of a region. -/
def RegionState.WithinCaps (cfg : RegionConfig D) (r : RegionState D) : Prop :=
  withinCaps cfg r.violationIds.length r.objectIds.length r.bboxDbu = true

/-- A region is within the caps if its part is. -/
theorem finalize_withinCaps :
    (finalize cfg hash previous first rest).WithinCaps cfg ↔ capOk cfg (first :: rest) = true := by
  have hviolations := (finalize_violationIds cfg hash previous first rest).length_eq
  have hobjects := (finalize_objectIds cfg hash previous first rest).length_eq
  rw [length_map] at hviolations
  have hcap : capOk cfg (first :: rest) = withinCaps cfg (first :: rest).length
      (seedsObjectIds (first :: rest)).length (seedsBox first rest) := by
    rw [← seedsBox_self]
    rfl
  unfold RegionState.WithinCaps
  rw [hviolations, hobjects, hcap]
  rfl

/-- **The flag**: a region is flagged as oversized if it exceeds the caps. -/
theorem finalize_oversized :
    (finalize cfg hash previous first rest).status = .oversized ↔
      ¬ (finalize cfg hash previous first rest).WithinCaps cfg := by
  rw [finalize_withinCaps]
  show (if (!capOk cfg (first :: rest)) = true then RegionStatus.oversized else .active) =
    .oversized ↔ _
  cases hcap : capOk cfg (first :: rest) with
  | true => simp
  | false => simp

/-- The parts of the groups. -/
def partsOf (cfg : RegionConfig D) (seeds : List (String × Seed)) (groups : List (List String)) :
    List (List Seed) :=
  groups.flatMap fun ids => split cfg (ids.filterMap fun id => seeds.lookup id)

theorem mem_buildRegions {groups : List (List String)} :
    region ∈ buildRegions cfg hash previous seeds groups ↔
      ∃ part ∈ partsOf cfg seeds groups, regionOf cfg hash previous part = some region := by
  show region ∈ insertionSort _ ((partsOf cfg seeds groups).filterMap _) ↔ _
  rw [mem_insertionSort, mem_filterMap]

/-- The seeds of the groups, looked up. -/
theorem lookup_perm {groups : List (List String)} (hnodup : (seeds.map (·.1)).Nodup)
    (hgroups : groups.flatten.Perm (seeds.map (·.1))) :
    (groups.flatten.filterMap fun id => seeds.lookup id).Perm (seeds.map (·.2)) := by
  refine (hgroups.filterMap _).trans ?_
  rw [Dicts.filterMap_lookup hnodup]

/-- A group that is not empty has seeds. -/
theorem lookups_ne_nil {ids : List String} (hne : ids ≠ [])
    (hids : ∀ id ∈ ids, id ∈ seeds.map (·.1)) (hnodup : (seeds.map (·.1)).Nodup) :
    (ids.filterMap fun id => seeds.lookup id) ≠ [] := by
  obtain ⟨id, hid⟩ := exists_mem_of_ne_nil ids hne
  obtain ⟨entry, hentry, rfl⟩ := mem_map.1 (hids id hid)
  refine ne_nil_of_mem (a := entry.2) ?_
  exact mem_filterMap.2 ⟨entry.1, hid, Dicts.lookup_of_mem hnodup hentry⟩

/-- What holds of the groups of a build: they are not empty and partition the seeds. -/
structure GroupsOf (seeds : List (String × Seed)) (groups : List (List String)) : Prop where
  nodup : (seeds.map (·.1)).Nodup
  perm : groups.flatten.Perm (seeds.map (·.1))
  nonempty : ∀ ids ∈ groups, ids ≠ []

variable {groups : List (List String)}

/-- A group has seeds, and the split of them ends. -/
theorem GroupsOf.splits (h : GroupsOf seeds groups) {ids : List String} (hids : ids ∈ groups) :
    (ids.filterMap fun id => seeds.lookup id) ≠ [] ∧
      Splits cfg (ids.filterMap fun id => seeds.lookup id)
        (split cfg (ids.filterMap fun id => seeds.lookup id)) := by
  have hkeys : ∀ id ∈ ids, id ∈ seeds.map (·.1) := by
    intro id hid
    exact h.perm.mem_iff.1 (mem_flatten.2 ⟨ids, hids, hid⟩)
  have hne := lookups_ne_nil (h.nonempty ids hids) hkeys h.nodup
  exact ⟨hne, splits_split hne⟩

/-- **The parts partition the seeds.** -/
theorem GroupsOf.parts_perm (h : GroupsOf seeds groups) :
    (partsOf cfg seeds groups).flatten.Perm (seeds.map (·.2)) := by
  refine Perm.trans ?_ (lookup_perm h.nodup h.perm)
  have hgroups : ∀ ids ∈ groups,
      (split cfg (ids.filterMap fun id => seeds.lookup id)).flatten.Perm
        (ids.filterMap fun id => seeds.lookup id) :=
    fun ids hids => (h.splits hids).2.perm
  clear h
  unfold partsOf
  induction groups with
  | nil => exact Perm.refl _
  | cons ids rest ih =>
    rw [flatMap_cons, flatten_append, flatten_cons, filterMap_append]
    exact (hgroups ids mem_cons_self).append
      (ih fun ids' hids' => hgroups ids' (mem_cons_of_mem ids hids'))

/-- A part is not empty, and it was not cut for a reason. -/
theorem GroupsOf.kept (h : GroupsOf seeds groups) (hpart : part ∈ partsOf cfg seeds groups) :
    part ≠ [] ∧ Kept cfg part := by
  obtain ⟨ids, hids, hpart⟩ := mem_flatMap.1 hpart
  obtain ⟨hne, hsplits⟩ : _ ∧ Splits cfg _ _ := h.splits hids
  exact hsplits.part hne part hpart

/-- The violations of the regions are those of the parts. -/
theorem flatMap_violationIds (parts : List (List Seed)) (hne : ∀ part ∈ parts, part ≠ []) :
    ((parts.filterMap (regionOf cfg hash previous)).flatMap (·.violationIds)).Perm
      (parts.flatten.map (·.violation.violationId)) := by
  induction parts with
  | nil => exact Perm.refl _
  | cons part rest ih =>
    cases part with
    | nil => exact absurd rfl (hne [] mem_cons_self)
    | cons first tail =>
      have hrest := ih fun part hpart => hne part (mem_cons_of_mem _ hpart)
      rw [filterMap_cons_some (show regionOf cfg hash previous (first :: tail) =
        some (finalize cfg hash previous first tail) from rfl), flatMap_cons,
        flatten_cons, map_append]
      exact (finalize_violationIds cfg hash previous first tail).append hrest

/-- The violations of the regions of a build. -/
theorem GroupsOf.regions_perm (h : GroupsOf seeds groups)
    (hids : ∀ entry ∈ seeds, entry.2.violation.violationId = entry.1) :
    ((buildRegions cfg hash previous seeds groups).flatMap (·.violationIds)).Perm
      (seeds.map (·.1)) := by
  have hsorted : (buildRegions cfg hash previous seeds groups).Perm
      ((partsOf cfg seeds groups).filterMap (regionOf cfg hash previous)) :=
    perm_insertionSort _ _
  refine (hsorted.flatMap_right _).trans ?_
  refine (flatMap_violationIds _ fun part hpart => (h.kept hpart).1).trans ?_
  refine (h.parts_perm.map _).trans ?_
  have hkeys : (seeds.map (·.2)).map (·.violation.violationId) = seeds.map (·.1) := by
    rw [map_map]
    exact map_congr_left hids
  rw [hkeys]

/-- A group in which two seeds share an object is one region. -/
theorem region_of_shares (h : GroupsOf seeds groups) {ids : List String} (hids : ids ∈ groups)
    {entry entry' : String × Seed} (hentry : entry ∈ seeds) (hentry' : entry' ∈ seeds)
    (hmem : entry.1 ∈ ids) (hmem' : entry'.1 ∈ ids) (hne : entry.2 ≠ entry'.2)
    (hshares : entry.2.Shares entry'.2) :
    ∃ r ∈ buildRegions cfg hash previous seeds groups,
      entry.2.violation.violationId ∈ r.violationIds ∧
        entry'.2.violation.violationId ∈ r.violationIds := by
  have hseed : entry.2 ∈ ids.filterMap fun id => seeds.lookup id :=
    mem_filterMap.2 ⟨entry.1, hmem, Dicts.lookup_of_mem h.nodup hentry⟩
  have hseed' : entry'.2 ∈ ids.filterMap fun id => seeds.lookup id :=
    mem_filterMap.2 ⟨entry'.1, hmem', Dicts.lookup_of_mem h.nodup hentry'⟩
  obtain ⟨hnonempty, hsplits⟩ : _ ∧ Splits cfg _ _ := h.splits hids
  have hone := hsplits.eq_of_shares (sharesObject_of_shares hseed hseed' hne hshares)
  cases hgroup : ids.filterMap fun id => seeds.lookup id with
  | nil => exact absurd hgroup hnonempty
  | cons first rest =>
    rw [hgroup] at hseed hseed' hone
    have hpart : first :: rest ∈ partsOf cfg seeds groups := by
      refine mem_flatMap.2 ⟨ids, hids, ?_⟩
      rw [hgroup, hone]
      exact mem_singleton_self _
    have hviolations := finalize_violationIds cfg hash previous first rest
    refine ⟨finalize cfg hash previous first rest, mem_buildRegions.2 ⟨_, hpart, rfl⟩, ?_, ?_⟩
    · exact hviolations.mem_iff.2 (mem_map_of_mem hseed)
    · exact hviolations.mem_iff.2 (mem_map_of_mem hseed')

end Regions

/-! ## The build -/

section Build

variable {D : Type} [Doubles D] {cfg : RegionConfig D} {hash : RegionHashPart → String}
  {catalog : RuleCatalog D} {violations : List ViolationRecord} {objects : List LayoutObject}
  {previous : List PreviousRegion} {result : RegionBuildResult D}

/-- Two violations have an associated object in common. -/
def ViolationRecord.SharesObject (v w : ViolationRecord) : Prop :=
  ∃ id ∈ v.associatedObjectIds, id ∈ w.associatedObjectIds

/-- What a build that returned has done. -/
structure Built (cfg : RegionConfig D) (hash : RegionHashPart → String)
    (violations : List ViolationRecord) (objects : List LayoutObject)
    (previous : List PreviousRegion) (seeds : List (String × Seed))
    (result : RegionBuildResult D) : Prop where
  seedsOf : SeedsOf cfg violations objects seeds
  groupsOf : GroupsOf seeds (linkGroups cfg seeds).1
  regions : result.regions = buildRegions cfg hash previous seeds (linkGroups cfg seeds).1
  updated : List.Forall₂ (fun v w => ∀ s, SeedFor cfg objects v s → s.violation = w)
    violations result.violations

theorem build_ok (hdistinct : (violations.map (·.violationId)).Nodup)
    (h : build cfg hash catalog violations objects previous = .ok result) :
    ∃ seeds, buildSeeds cfg catalog violations objects = .ok seeds ∧
      Built cfg hash violations objects previous seeds result := by
  unfold build at h
  obtain ⟨seeds, hseeds, h⟩ := except_bind_ok h
  have hspec := buildSeeds_spec hdistinct hseeds
  refine ⟨seeds, hseeds, ?_⟩
  dsimp only at h
  split_ifs at h
  · cases h
  · obtain ⟨updated, hupdated, h⟩ := except_bind_ok h
    cases h
    exact ⟨hspec, ⟨hspec.nodup, linkGroups_perm seeds, fun _ => linkGroups_ne_nil⟩, rfl,
      associateAll_spec hupdated⟩

variable {seeds : List (String × Seed)}

/-- The seed of an entry has the violation of its key. -/
theorem Built.key (h : Built cfg hash violations objects previous seeds result)
    {entry : String × Seed} (hentry : entry ∈ seeds) : entry.2.violation.violationId = entry.1 := by
  obtain ⟨v, -, hkey, hseed⟩ := h.seedsOf.seed entry hentry
  rw [hkey]
  exact hseed.violationId

/-- The violation of a seed is one of the result. -/
theorem Built.violation (h : Built cfg hash violations objects previous seeds result)
    {entry : String × Seed} (hentry : entry ∈ seeds) : entry.2.violation ∈ result.violations := by
  obtain ⟨v, hv, -, hseed⟩ := h.seedsOf.seed entry hentry
  obtain ⟨w, hw, hsame⟩ := exists_of_forall₂ h.updated v hv
  rw [hsame entry.2 hseed]
  exact hw

/-- A violation of the result is that of a seed. -/
theorem Built.entry (h : Built cfg hash violations objects previous seeds result)
    {w : ViolationRecord} (hw : w ∈ result.violations) :
    ∃ entry ∈ seeds, entry.2.violation = w ∧ entry.1 = w.violationId := by
  obtain ⟨v, hv, hsame⟩ := exists_of_forall₂ h.updated.flip w hw
  obtain ⟨s, hentry, hseed⟩ := h.seedsOf.has v hv
  refine ⟨(v.violationId, s), hentry, hsame s hseed, ?_⟩
  rw [← hsame s hseed, hseed.violationId]

/-- The violations of seeds share an associated object if the seeds share one. -/
theorem Built.shares_iff (h : Built cfg hash violations objects previous seeds result)
    {entry entry' : String × Seed} (hentry : entry ∈ seeds) (hentry' : entry' ∈ seeds) :
    entry.2.violation.SharesObject entry'.2.violation ↔ entry.2.Shares entry'.2 := by
  obtain ⟨v, -, -, hseed⟩ := h.seedsOf.seed entry hentry
  obtain ⟨v', -, -, hseed'⟩ := h.seedsOf.seed entry' hentry'
  constructor
  · rintro ⟨id, hid, hid'⟩
    exact ⟨id, hseed.objectIds.mem_iff.1 hid, hseed'.objectIds.mem_iff.1 hid'⟩
  · rintro ⟨id, hid, hid'⟩
    exact ⟨id, hseed.objectIds.mem_iff.2 hid, hseed'.objectIds.mem_iff.2 hid'⟩

/-- The regions' violations are the violations. -/
theorem Built.partition (h : Built cfg hash violations objects previous seeds result) :
    (result.regions.flatMap (·.violationIds)).Perm (violations.map (·.violationId)) := by
  rw [h.regions]
  exact (h.groupsOf.regions_perm fun entry hentry => h.key hentry).trans h.seedsOf.keys

/-- A list of lists without duplicates has an element in one of them only. -/
theorem countP_eq_one {β : Type} {ids : β → List String} {items : List β} {id : String}
    (hnodup : (items.flatMap ids).Nodup) (hmem : id ∈ items.flatMap ids) :
    items.countP (fun b => decide (id ∈ ids b)) = 1 := by
  induction items with
  | nil => cases hmem
  | cons b rest ih =>
    rw [flatMap_cons, nodup_append] at hnodup
    obtain ⟨-, hrest, hdisjoint⟩ := hnodup
    rw [flatMap_cons, mem_append] at hmem
    by_cases hb : id ∈ ids b
    · have hzero : rest.countP (fun b => decide (id ∈ ids b)) = 0 := by
        rw [List.countP_eq_zero]
        intro c hc
        rw [decide_eq_true_eq]
        intro hid
        exact hdisjoint id hb id (mem_flatMap.2 ⟨c, hc, hid⟩) rfl
      rw [countP_cons, if_pos (decide_eq_true hb), hzero]
    · have hnot : ¬ decide (id ∈ ids b) = true := by
        rw [decide_eq_true_eq]
        exact hb
      rw [countP_cons, if_neg hnot]
      exact ih hrest (hmem.resolve_left hb)

/-- A seed of a part is a seed of the build. -/
theorem Built.entry_of_part (h : Built cfg hash violations objects previous seeds result)
    {part : List Seed} (hpart : part ∈ partsOf cfg seeds (linkGroups cfg seeds).1) {s : Seed}
    (hs : s ∈ part) : ∃ entry ∈ seeds, entry.2 = s := by
  have hmem := h.groupsOf.parts_perm.mem_iff.1 (mem_flatten.2 ⟨part, hpart, hs⟩)
  exact mem_map.1 hmem

/-- A part has no seed twice. -/
theorem Built.part_nodup (h : Built cfg hash violations objects previous seeds result)
    {part : List Seed} (hpart : part ∈ partsOf cfg seeds (linkGroups cfg seeds).1) :
    part.Nodup := by
  have hkeys : (seeds.map (·.2)).map (·.violation.violationId) = seeds.map (·.1) := by
    rw [map_map]
    exact map_congr_left fun entry hentry => h.key hentry
  have hnodup : (seeds.map (·.2)).Nodup := by
    refine Nodup.of_map (·.violation.violationId) ?_
    rw [hkeys]
    exact h.seedsOf.nodup
  have hflatten : (partsOf cfg seeds (linkGroups cfg seeds).1).flatten.Nodup :=
    h.groupsOf.parts_perm.nodup_iff.2 hnodup
  exact (nodup_flatten.1 hflatten).1 part hpart

/-- **Oversized regions**: a single violation, or two that share an object. -/
theorem Built.oversized (h : Built cfg hash violations objects previous seeds result)
    (hobjects : (objects.map (·.objectId)).Nodup) {r : RegionState D} (hr : r ∈ result.regions) :
    (r.status = .oversized ↔ ¬ r.WithinCaps cfg) ∧
      (r.status = .oversized → (∃ id, r.violationIds = [id]) ∨
        ∃ v ∈ result.violations, ∃ w ∈ result.violations, v.violationId ∈ r.violationIds ∧
          w.violationId ∈ r.violationIds ∧ v.violationId ≠ w.violationId ∧ v.SharesObject w) := by
  rw [h.regions, mem_buildRegions] at hr
  obtain ⟨part, hpart, hr⟩ := hr
  obtain ⟨-, hkept⟩ := h.groupsOf.kept hpart
  cases part with
  | nil => cases hr
  | cons first rest =>
    obtain rfl := Option.some.inj hr
    refine ⟨finalize_oversized, ?_⟩
    intro hover
    rw [finalize_oversized, finalize_withinCaps] at hover
    have hids := finalize_violationIds cfg hash previous first rest
    rcases hkept with hcap | hone | hshares
    · exact absurd hcap hover
    · left
      have hlength := hids.length_eq
      rw [length_map, length_cons] at hlength
      rw [length_cons] at hone
      exact length_eq_one_iff.1 (by omega)
    · right
      have hnodup : ∀ s ∈ first :: rest, (s.objects.map (·.objectId)).Nodup := by
        intro s hs
        obtain ⟨entry, hentry, rfl⟩ := h.entry_of_part hpart hs
        obtain ⟨v, -, -, hseed⟩ := h.seedsOf.seed entry hentry
        exact hseed.nodup hobjects
      obtain ⟨s, hs, s', hs', hne, hshare⟩ := exists_shares (h.part_nodup hpart) hnodup hshares
      obtain ⟨entry, hentry, rfl⟩ := h.entry_of_part hpart hs
      obtain ⟨entry', hentry', rfl⟩ := h.entry_of_part hpart hs'
      refine ⟨entry.2.violation, h.violation hentry, entry'.2.violation, h.violation hentry',
        hids.mem_iff.2 (mem_map_of_mem hs), hids.mem_iff.2 (mem_map_of_mem hs'), ?_,
        (h.shares_iff hentry hentry').2 hshare⟩
      rw [h.key hentry, h.key hentry']
      intro hkey
      have hlookup := Dicts.lookup_of_mem h.seedsOf.nodup hentry
      rw [hkey, Dicts.lookup_of_mem h.seedsOf.nodup hentry'] at hlookup
      exact hne (Option.some.inj hlookup).symm

/-- Two violations of a group that share an object are in one region. -/
theorem Built.together (h : Built cfg hash violations objects previous seeds result)
    {ids : List String} (hids : ids ∈ (linkGroups cfg seeds).1) {v w : ViolationRecord}
    (hv : v ∈ result.violations) (hw : w ∈ result.violations) (hvid : v.violationId ∈ ids)
    (hwid : w.violationId ∈ ids) (hshares : v.SharesObject w) :
    ∃ r ∈ result.regions, v.violationId ∈ r.violationIds ∧ w.violationId ∈ r.violationIds := by
  obtain ⟨entry, hentry, rfl, hkey⟩ := h.entry hv
  obtain ⟨entry', hentry', rfl, hkey'⟩ := h.entry hw
  by_cases hsame : entry.2 = entry'.2
  · have hmem : entry.2.violation.violationId ∈ result.regions.flatMap (·.violationIds) := by
      refine h.partition.mem_iff.2 (h.seedsOf.keys.mem_iff.1 ?_)
      rw [← hkey]
      exact mem_map_of_mem hentry
    obtain ⟨r, hr, hmem⟩ := mem_flatMap.1 hmem
    rw [← hsame]
    exact ⟨r, hr, hmem, hmem⟩
  · rw [h.regions]
    rw [← hkey] at hvid
    rw [← hkey'] at hwid
    exact region_of_shares h.groupsOf hids hentry hentry' hvid hwid hsame
      ((h.shares_iff hentry hentry').1 hshares)

/-- **The regions partition the violations.**  Each violation is in one region; a region
is flagged as oversized if it exceeds the caps, and then it is a single violation or has
two that share an object; the split does not part violations that share an object, and
it ends. -/
theorem region_partition (hviolations : (violations.map (·.violationId)).Nodup)
    (hobjects : (objects.map (·.objectId)).Nodup)
    (h : build cfg hash catalog violations objects previous = .ok result) :
    ((result.regions.flatMap (·.violationIds)).Perm (violations.map (·.violationId)) ∧
      ∀ v ∈ violations,
        result.regions.countP (fun r => decide (v.violationId ∈ r.violationIds)) = 1) ∧
    (∀ r ∈ result.regions, (r.status = .oversized ↔ ¬ r.WithinCaps cfg) ∧
      (r.status = .oversized → (∃ id, r.violationIds = [id]) ∨
        ∃ v ∈ result.violations, ∃ w ∈ result.violations, v.violationId ∈ r.violationIds ∧
          w.violationId ∈ r.violationIds ∧ v.violationId ≠ w.violationId ∧ v.SharesObject w)) ∧
    (∃ seeds, buildSeeds cfg catalog violations objects = .ok seeds ∧
      ∀ ids ∈ (linkGroups cfg seeds).1, ∀ v ∈ result.violations, ∀ w ∈ result.violations,
        v.violationId ∈ ids → w.violationId ∈ ids → v.SharesObject w →
          ∃ r ∈ result.regions, v.violationId ∈ r.violationIds ∧ w.violationId ∈ r.violationIds) ∧
    (∀ (seeds : List Seed) (depth : ℕ), seeds ≠ [] → seeds.length ≤ depth →
      splitTo cfg depth seeds = some (split cfg seeds)) := by
  obtain ⟨seeds, hseeds, hbuilt⟩ := build_ok hviolations h
  have hperm := hbuilt.partition
  refine ⟨⟨hperm, ?_⟩, ?_, ⟨seeds, hseeds, ?_⟩, ?_⟩
  · intro v hv
    refine countP_eq_one (hperm.nodup_iff.2 hviolations) ?_
    exact hperm.mem_iff.2 (mem_map_of_mem hv)
  · intro r hr
    exact hbuilt.oversized hobjects hr
  · intro ids hids v hv w hw hvid hwid hshares
    exact hbuilt.together hids hv hw hvid hwid hshares
  · intro seeds depth hne hle
    exact splitTo_split hne hle

end Build

/-! ## A build -/

/-- Rational arithmetic, which doubles follow where nothing is rounded; the roots of
squares and `exp(0.0)` are exact. -/
@[reducible] def exactDoubles : Doubles ℚ where
  lit := id
  ofInt := fun n => n
  trueDiv := fun a b => a / b
  neg := fun a => -a
  sub := fun a b => a - b
  mul := fun a b => a * b
  div := fun a b => a / b
  root := fun n => (Nat.sqrt n.toNat : ℚ)
  exp := fun a => if a = 0 then 1 else 0
  trunc := fun a => if a < 0 then ⌈a⌉ else ⌊a⌋
  compareInt := fun a n => compare a n

/-- The defaults, with room for one marker in a region. -/
def oneMarkerConfig : RegionConfig ℚ := {
  seedWindowUm := 2, maxRegionMarkers := 1, maxRegionSpanUm := 4 }

/-- A violation whose marker is a small square on the diagonal. -/
def markerAt (id : String) (at_ : ℤ) : ViolationRecord := {
  violationId := id, reportIteration := 1, ruleId := "M2.S.1", ruleFamily := .spacing
  markerBboxDbu := ⟨at_, at_, at_ + 4, at_ + 4, by omega, by omega⟩ }

/-- An editable square of ten units on the diagonal. -/
def squareAt (id : String) (at_ : ℤ) : LayoutObject := {
  objectId := id, kind := .polygon, layer := "M2", editability := .A
  bboxDbu := ⟨at_, at_, at_ + 10, at_ + 10, by omega, by omega⟩ }

/-- Two violations at one object, and one far away. -/
def sampleBuild : Except String (RegionBuildResult ℚ) :=
  @build ℚ exactDoubles oneMarkerConfig (fun _ => "hash") { fallback := { haloMultiplier := 2 } }
    [markerAt "b" 6, markerAt "a" 0, markerAt "c" 90000] [squareAt "o" 0] []

theorem region_partition_sample :
    ∃ result, sampleBuild = .ok result ∧
      (result.regions.flatMap (·.violationIds)).Perm ["b", "a", "c"] ∧
        ∃ r ∈ result.regions, r.status = .oversized := by
  have hreturns : (sampleBuild.toOption.any
      fun result => result.regions.any (·.status == .oversized)) = true := by
    decide +kernel
  obtain ⟨result, hresult, hoversized⟩ := Option.any_eq_true _ _ |>.1 hreturns
  have hbuild : sampleBuild = .ok result := by
    cases hsample : sampleBuild with
    | error e =>
      rw [hsample] at hresult
      cases hresult
    | ok value =>
      rw [hsample] at hresult
      obtain rfl := Option.some.inj hresult
      rfl
  obtain ⟨⟨hperm, -⟩, -⟩ := @region_partition ℚ exactDoubles _ _ _ _ _ _ _ (by decide) (by decide)
    hbuild
  obtain ⟨r, hr, hstatus⟩ := any_eq_true.1 hoversized
  exact ⟨result, hbuild, hperm, r, hr, of_decide_eq_true hstatus⟩

end DRCAgent.Regions
