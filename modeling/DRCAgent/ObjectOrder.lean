/-
# The order of the layout objects

Whether the regions depend on the order in which the objects are listed. After the
association they do not: the linking, the caps, the split and the regions read the
objects of a seed as a collection (`Seed.Same`), so a seed can be replaced by any
representative of its class in every step of the build.

The association itself takes the first sixteen objects near a marker that intersects
none, before it sorts them. So the regions are the same for every order of the objects
as long as no violation has more than sixteen such objects; with more of them the order
decides which are left out, and the regions change unless other violations have them
(`regions_order_free`, `regions_depend_on_order`).
-/
import DRCAgent.RegionPartition

namespace DRCAgent.Regions

open Disjoint List

/-! ## Seeds up to the order of their objects -/

/-- The seeds differ in the order of their objects only. -/
structure Seed.Same (s s' : Seed) : Prop where
  violation : s.violation = s'.violation
  objects : s.objects.Perm s'.objects
  seed : s.seed = s'.seed
  halo : s.halo = s'.halo
  unknownRule : s.unknownRule = s'.unknownRule

/-- The classes of such seeds. -/
def seedClasses : Setoid Seed where
  r := Seed.Same
  iseqv := {
    refl := fun _ => ⟨rfl, .refl _, rfl, rfl, rfl⟩
    symm := fun h => ⟨h.violation.symm, h.objects.symm, h.seed.symm, h.halo.symm, h.unknownRule.symm⟩
    trans := fun h h' => ⟨h.violation.trans h'.violation, h.objects.trans h'.objects,
      h.seed.trans h'.seed, h.halo.trans h'.halo, h.unknownRule.trans h'.unknownRule⟩ }

/-- A choice of a representative for each class. -/
noncomputable def representative (s : Seed) : Seed := (Quotient.mk seedClasses s).out

theorem representative_same (s : Seed) : (representative s).Same s :=
  Quotient.exact (s := seedClasses) (Quotient.out_eq _)

theorem representative_eq {s s' : Seed} (h : s.Same s') : representative s = representative s' := by
  unfold representative
  rw [Quotient.sound (s := seedClasses) h]

/-! ## The steps on representatives -/

section Representatives

variable {D : Type} [Doubles D] {cfg : RegionConfig D} {p : Seed → Seed}

/-- The links of a pair depend on the classes of the two seeds. -/
theorem affinity_same {a a' b b' : Seed} (ha : a'.Same a) (hb : b'.Same b) (maxGap : ℤ) :
    affinity (D := D) a' b' maxGap = affinity a b maxGap := by
  have heditable : (a'.editable.any b'.editable.contains) = a.editable.any b.editable.contains := by
    have hpa : a'.editable.Perm a.editable := (ha.objects.filter _).map _
    have hpb : b'.editable.Perm b.editable := (hb.objects.filter _).map _
    rw [hpa.any_eq]
    have hcontains : b'.editable.contains = b.editable.contains := by
      funext id
      rw [Bool.eq_iff_iff, contains_iff_mem, contains_iff_mem]
      exact hpb.mem_iff
    rw [hcontains]
  unfold affinity
  rw [heditable, ha.violation, hb.violation, ha.halo, hb.halo]

variable (hp : ∀ s, (p s).Same s)

include hp

/-- The object ids of a list of seeds. -/
theorem flatMap_ids_same (seeds : List Seed) :
    ((seeds.map p).flatMap fun s => s.objects.map (·.objectId)).Perm
      (seeds.flatMap fun s => s.objects.map (·.objectId)) := by
  induction seeds with
  | nil => exact Perm.refl _
  | cons s rest ih =>
    rw [map_cons, flatMap_cons, flatMap_cons]
    exact ((hp s).objects.map _).append ih

theorem seedsObjectIds_same (seeds : List Seed) :
    (seedsObjectIds (seeds.map p)).Perm (seedsObjectIds seeds) :=
  (flatMap_ids_same hp seeds).dedup

theorem seedsBox_same (first : Seed) (rest : List Seed) :
    seedsBox (p first) (rest.map p) = seedsBox first rest := by
  unfold seedsBox
  rw [foldl_map, (hp first).seed]
  simp only [(hp _).seed]

theorem capOk_same (seeds : List Seed) : capOk cfg (seeds.map p) = capOk cfg seeds := by
  cases seeds with
  | nil => rfl
  | cons first rest =>
    show withinCaps cfg ((first :: rest).map p).length (seedsObjectIds ((first :: rest).map p)).length
      (seedsBox (p first) ((first :: rest).map p)) = _
    rw [length_map, (seedsObjectIds_same hp _).length_eq, seedsBox_same hp]
    rfl

theorem sharesObject_same (seeds : List Seed) : sharesObject (seeds.map p) = sharesObject seeds := by
  rw [Bool.eq_iff_iff, sharesObject_iff, sharesObject_iff, (flatMap_ids_same hp seeds).nodup_iff]

/-! ### The linking -/

omit hp in
theorem pairs_map {α β : Type} (f : α → β) (items : List α) :
    pairs (items.map f) = (pairs items).map (Prod.map f f) := by
  induction items with
  | nil => rfl
  | cons a rest ih =>
    show (rest.map f).map _ ++ pairs (rest.map f) = (rest.map _ ++ pairs rest).map _
    rw [ih, map_append, map_map, map_map]
    rfl

theorem linkPair_same (state : UnionFind String × List (AffinityEdge D)) (pair : Seed × Seed) :
    linkPair cfg state (Prod.map p p pair) = linkPair cfg state pair := by
  unfold linkPair
  dsimp only [Prod.map]
  rw [affinity_same (hp pair.1) (hp pair.2), (hp pair.1).halo, (hp pair.2).halo,
    (hp pair.1).violation, (hp pair.2).violation]

omit hp in
theorem memberStep_map (u v : String) (state : UnionFind String × List Seed)
    (entry : String × Seed) : memberStep u v (Prod.map id (·.map p) state) (Prod.map id p entry) =
      Prod.map id (·.map p) (memberStep u v state entry) := by
  dsimp only [memberStep, Prod.map, id]
  split_ifs
  · rw [map_append]
    rfl
  · rfl

omit hp in
theorem members_map (seeds : List (String × Seed)) (u v : String) (uf : UnionFind String) :
    members (seeds.map (Prod.map id p)) u v uf =
      ((members seeds u v uf).1, (members seeds u v uf).2.map p) := by
  rw [members_eq, members_eq]
  have hfold : ∀ state : UnionFind String × List Seed,
      (seeds.map (Prod.map id p)).foldl (memberStep u v) (Prod.map id (·.map p) state) =
        Prod.map id (·.map p) (seeds.foldl (memberStep u v) state) := by
    induction seeds with
    | nil => exact fun _ => rfl
    | cons entry rest ih =>
      intro state
      rw [map_cons, foldl_cons, foldl_cons, ← ih, memberStep_map]
  exact hfold (uf, [])

theorem mergeEdge_same (seeds : List (String × Seed)) (uf : UnionFind String)
    (edge : AffinityEdge D) :
    mergeEdge cfg (seeds.map (Prod.map id p)) uf edge = mergeEdge cfg seeds uf edge := by
  unfold mergeEdge
  dsimp only
  rw [members_map, capOk_same hp]

/-- **The linking** depends on the classes of the seeds. -/
theorem linkGroups_same (seeds : List (String × Seed)) :
    linkGroups cfg (seeds.map (Prod.map id p)) = linkGroups cfg seeds := by
  have hkeys : (seeds.map (Prod.map id p)).map (·.1) = seeds.map (·.1) := by
    rw [map_map]
    rfl
  have hvalues : (seeds.map (Prod.map id p)).map (·.2) = (seeds.map (·.2)).map p := by
    rw [map_map, map_map]
    rfl
  have hmerge : mergeEdge cfg (seeds.map (Prod.map id p)) = mergeEdge cfg seeds := by
    funext uf edge
    exact mergeEdge_same hp seeds uf edge
  have hlink : ∀ start, ((pairs (seeds.map (·.2))).map (Prod.map p p)).foldl (linkPair cfg) start =
      (pairs (seeds.map (·.2))).foldl (linkPair cfg) start := by
    intro start
    rw [foldl_map]
    simp only [linkPair_same hp]
  unfold linkGroups
  dsimp only
  rw [hkeys, hvalues, pairs_map, hlink, hmerge]

/-! ### The split -/

theorem splitAxis_same (seeds : List Seed) : splitAxis (seeds.map p) = splitAxis seeds := by
  cases seeds with
  | nil => rfl
  | cons first rest =>
    show (if (seedsBox (p first) (rest.map p)).height ≤ (seedsBox (p first) (rest.map p)).width
      then Axis.x else .y) = _
    rw [seedsBox_same hp]
    rfl

theorem orderAlong_same (axis : Axis) (seeds : List Seed) :
    orderAlong (D := D) axis (seeds.map p) = (orderAlong (D := D) axis seeds).map p := by
  refine (map_insertionSort _ _ p seeds ?_).symm
  intro a _ b _
  rw [(hp a).seed, (hp a).violation, (hp b).seed, (hp b).violation]

theorem cutScore_same (axis : Axis) (ordered : List Seed) (cut : ℕ) :
    cutScore (D := D) axis (ordered.map p) cut = cutScore axis ordered cut := by
  unfold cutScore
  dsimp only
  rw [← map_take, ← map_drop, length_map, length_map, head?_map, getLast?_map]
  cases (ordered.drop cut).head? with
  | none => rfl
  | some r =>
    cases (ordered.take cut).getLast? with
    | none => rfl
    | some l =>
      dsimp only [Option.map_some]
      rw [(hp r).seed, (hp l).seed]

theorem bestCut_same (axis : Axis) (ordered : List Seed) :
    bestCut (D := D) axis (ordered.map p) = bestCut (D := D) axis ordered := by
  unfold bestCut
  rw [length_map]
  simp only [cutScore_same hp]

theorem bisect_same (seeds : List Seed) :
    bisect (D := D) (seeds.map p) =
      ((bisect (D := D) seeds).1.map p, (bisect (D := D) seeds).2.map p) := by
  unfold bisect
  dsimp only
  rw [splitAxis_same hp, orderAlong_same hp, bestCut_same hp, map_take, map_drop]

theorem kept_same (seeds : List Seed) : Kept cfg (seeds.map p) ↔ Kept cfg seeds := by
  unfold Kept
  rw [capOk_same hp, sharesObject_same hp, length_map]

/-- The split depends on the classes of the seeds. -/
theorem splitTo_same (depth : ℕ) (seeds : List Seed) :
    splitTo cfg depth (seeds.map p) = (splitTo cfg depth seeds).map (·.map (·.map p)) := by
  induction depth generalizing seeds with
  | zero => rfl
  | succ depth ih =>
    by_cases hkept : Kept cfg seeds
    · rw [splitTo_kept depth hkept, splitTo_kept depth ((kept_same hp seeds).2 hkept)]
      rfl
    · have hcut : ¬ Kept cfg (seeds.map p) := fun h => hkept ((kept_same hp seeds).1 h)
      rw [splitTo_cut depth hkept, splitTo_cut depth hcut, bisect_same hp, ih, ih]
      cases splitTo cfg depth (bisect (D := D) seeds).1 with
      | none => rfl
      | some l =>
        cases splitTo cfg depth (bisect (D := D) seeds).2 with
        | none => rfl
        | some r =>
          simp only [Option.map_some, Option.bind_some, map_append]

theorem split_same (seeds : List Seed) :
    split cfg (seeds.map p) = (split cfg seeds).map (·.map p) := by
  unfold split
  rw [length_map, splitTo_same hp]
  cases splitTo cfg seeds.length seeds with
  | none => rfl
  | some groups => rfl

/-! ### The regions -/

omit hp in
theorem lookup_map (seeds : List (String × Seed)) (id : String) :
    (seeds.map (Prod.map (fun key => key) p)).lookup id = (seeds.lookup id).map p := by
  induction seeds with
  | nil => rfl
  | cons entry rest ih =>
    rw [map_cons]
    show (match id == entry.1 with
      | true => some (p entry.2)
      | false => (rest.map _).lookup id) = Option.map p (match id == entry.1 with
      | true => some entry.2
      | false => rest.lookup id)
    cases id == entry.1 with
    | true => rfl
    | false => exact ih

theorem partsOf_same (seeds : List (String × Seed)) (groups : List (List String)) :
    partsOf cfg (seeds.map (Prod.map id p)) groups = (partsOf cfg seeds groups).map (·.map p) := by
  unfold partsOf
  rw [map_flatMap]
  refine flatMap_congr fun ids _ => ?_
  have hlookups : (ids.filterMap fun id => (seeds.map (Prod.map (fun key => key) p)).lookup id) =
      (ids.filterMap fun id => seeds.lookup id).map p := by
    simp only [lookup_map, map_filterMap]
  rw [← split_same hp, ← hlookups]
  rfl

/-- The id of a region, its violations and its objects. -/
def RegionState.membership (r : RegionState D) : String × List String × List String :=
  (r.regionId, r.violationIds, r.objectIds)

variable {hash : RegionHashPart → String} {previous : List PreviousRegion}

theorem finalize_same (first : Seed) (rest : List Seed) :
    (finalize cfg hash previous (p first) (rest.map p)).membership =
      (finalize cfg hash previous first rest).membership := by
  have hviolations : ((p first :: rest.map p).map (·.violation)) =
      (first :: rest).map (·.violation) := by
    rw [← map_cons, map_map]
    exact map_congr_left fun s _ => (hp s).violation
  have hids : (finalize cfg hash previous (p first) (rest.map p)).violationIds =
      (finalize cfg hash previous first rest).violationIds := by
    show ((List.map _ (p first :: rest.map p)).insertionSort _).map _ = _
    rw [hviolations]
    rfl
  have hobjects : (finalize cfg hash previous (p first) (rest.map p)).objectIds =
      (finalize cfg hash previous first rest).objectIds := by
    have hperm : (finalize cfg hash previous (p first) (rest.map p)).objectIds.Perm
        (finalize cfg hash previous first rest).objectIds :=
      (finalize_objectIds cfg hash previous (p first) (rest.map p)).trans
        ((seedsObjectIds_same hp (first :: rest)).trans
          (finalize_objectIds cfg hash previous first rest).symm)
    exact hperm.eq_of_pairwise' (pairwise_insertionSort _ _) (pairwise_insertionSort _ _)
  have hregion : (finalize cfg hash previous (p first) (rest.map p)).regionId =
      (finalize cfg hash previous first rest).regionId := by
    show "region_" ++ String.ofList ((hash (.ids (finalize cfg hash previous (p first)
      (rest.map p)).violationIds)).toList.take 16) = _
    rw [hids]
    rfl
  unfold RegionState.membership
  rw [hids, hobjects, hregion]

theorem regionOf_same (part : List Seed) :
    (regionOf cfg hash previous (part.map p)).map (·.membership) =
      (regionOf cfg hash previous part).map (·.membership) := by
  cases part with
  | nil => rfl
  | cons first rest => exact congrArg some (finalize_same hp first rest)

/-- **The regions** depend on the classes of the seeds, in their ids, violations and
objects. -/
theorem buildRegions_same (seeds : List (String × Seed)) (groups : List (List String)) :
    (buildRegions cfg hash previous (seeds.map (Prod.map id p)) groups).map (·.membership) =
      (buildRegions cfg hash previous seeds groups).map (·.membership) := by
  have hmap : ∀ regions : List (RegionState D),
      (regions.insertionSort fun a b => a.regionId ≤ b.regionId).map (·.membership) =
        (regions.map (·.membership)).insertionSort fun a b => a.1 ≤ b.1 :=
    fun regions => map_insertionSort _ _ _ regions fun a _ b _ => Iff.rfl
  have hregions : ((partsOf cfg (seeds.map (Prod.map id p)) groups).filterMap
        (regionOf cfg hash previous)).map (·.membership) =
      ((partsOf cfg seeds groups).filterMap (regionOf cfg hash previous)).map (·.membership) := by
    rw [partsOf_same hp, filterMap_map, map_filterMap, map_filterMap]
    refine filterMap_congr fun part _ => ?_
    exact regionOf_same hp part
  show (insertionSort _ ((partsOf cfg _ groups).filterMap _)).map _ =
    (insertionSort _ ((partsOf cfg seeds groups).filterMap _)).map _
  rw [hmap, hmap, hregions]

end Representatives

/-! ## The association -/

section Association

variable {D : Type} {cfg : RegionConfig D} {v : ViolationRecord}
  {objects objects' nearby nearby' : List LayoutObject}

/-- A loop whose steps commute does not depend on the order of the list. -/
theorem foldlM_perm {ε α β : Type} {f : β → α → Except ε β}
    (hcomm : ∀ b x y, (do f (← f b x) y) = (do f (← f b y) x)) {items items' : List α}
    (hperm : items'.Perm items) (b : β) : items'.foldlM f b = items.foldlM f b := by
  induction hperm generalizing b with
  | nil => rfl
  | cons x _ ih =>
    rw [foldlM_cons, foldlM_cons]
    simp only [ih]
  | swap x y rest =>
    simp only [foldlM_cons]
    rw [← bind_assoc, ← bind_assoc, hcomm]
  | trans _ _ ih₁ ih₂ => rw [ih₁, ih₂]

/-- An object near the marker, on a layer of the violation. -/
def Reaches (cfg : RegionConfig D) (v : ViolationRecord) (obj : LayoutObject) : Bool :=
  (v.layers.isEmpty || v.layers.contains obj.layer) &&
    match v.markerBboxDbu.expand cfg.affinityMaxGapDbu with
    | .ok reach => reach.intersects obj.bboxDbu
    | .error _ => false

/-- A violation is near enough objects that intersect its marker, or near few objects. -/
def FewNearby (cfg : RegionConfig D) (objects : List LayoutObject) (v : ViolationRecord) : Prop :=
  (∃ obj ∈ objects, Reaches cfg v obj = true ∧ v.markerBboxDbu.intersects obj.bboxDbu = true) ∨
    objects.countP (Reaches cfg v) ≤ 16

/-- The objects near the marker, unless the marker cannot be expanded. -/
theorem nearbyObjects_cases (cfg : RegionConfig D) (v : ViolationRecord)
    (objects : List LayoutObject) :
    nearbyObjects cfg v objects = .ok (objects.filter (Reaches cfg v)) ∨
      ∃ e, v.markerBboxDbu.expand cfg.affinityMaxGapDbu = .error e ∧
        (∃ obj ∈ objects, (v.layers.isEmpty || v.layers.contains obj.layer) = true) ∧
          nearbyObjects cfg v objects = .error e := by
  unfold nearbyObjects
  dsimp only
  split_ifs with hempty
  · left
    rw [List.isEmpty_iff, filter_eq_nil_iff] at hempty
    have hnone : objects.filter (Reaches cfg v) = [] := by
      rw [filter_eq_nil_iff]
      intro obj hobj hreaches
      exact hempty obj hobj (Bool.and_eq_true_iff.1 hreaches).1
    rw [hnone]
  · cases hexpand : v.markerBboxDbu.expand cfg.affinityMaxGapDbu with
    | error e =>
      right
      rw [List.isEmpty_iff, filter_eq_nil_iff] at hempty
      push Not at hempty
      exact ⟨e, rfl, hempty, rfl⟩
    | ok reach =>
      left
      show Except.ok ((objects.filter _).filter _) = _
      rw [filter_filter]
      congr 1
      refine filter_congr fun obj _ => ?_
      unfold Reaches
      rw [hexpand, Bool.and_comm]

/-- The nearby objects of a list in another order. -/
theorem nearbyObjects_perm (cfg : RegionConfig D) (v : ViolationRecord)
    (hperm : objects'.Perm objects) :
    (∃ e, nearbyObjects cfg v objects = .error e ∧ nearbyObjects cfg v objects' = .error e) ∨
      (nearbyObjects cfg v objects = .ok (objects.filter (Reaches cfg v)) ∧
        nearbyObjects cfg v objects' = .ok (objects'.filter (Reaches cfg v))) := by
  have herror : ∀ {l l' : List LayoutObject} {e : String}, l'.Perm l →
      v.markerBboxDbu.expand cfg.affinityMaxGapDbu = .error e →
      (∃ obj ∈ l, (v.layers.isEmpty || v.layers.contains obj.layer) = true) →
      nearbyObjects cfg v l' = .error e := by
    intro l l' e hperm hexpand ⟨obj, hobj, hlayer⟩
    unfold nearbyObjects
    dsimp only
    rw [if_neg, hexpand]
    · rfl
    · rw [List.isEmpty_iff]
      exact ne_nil_of_mem (mem_filter.2 ⟨hperm.mem_iff.2 hobj, hlayer⟩)
  rcases nearbyObjects_cases cfg v objects with h | ⟨e, hexpand, hlayer, h⟩
  · rcases nearbyObjects_cases cfg v objects' with h' | ⟨e, hexpand, hlayer, h'⟩
    · exact Or.inr ⟨h, h'⟩
    · exact Or.inl ⟨e, herror hperm.symm hexpand hlayer, h'⟩
  · exact Or.inl ⟨e, h, herror hperm hexpand hlayer⟩

/-- Where nothing is cut off, the selected objects are the same. -/
theorem selectObjects_perm (hperm : objects'.Perm objects) (hfew : FewNearby cfg objects v) :
    (selectObjects v (objects'.filter (Reaches cfg v))).Perm
      (selectObjects v (objects.filter (Reaches cfg v))) := by
  have hnearby := hperm.filter (Reaches cfg v)
  have hexact : (exactObjects v (objects'.filter (Reaches cfg v))).Perm
      (exactObjects v (objects.filter (Reaches cfg v))) := hnearby.filter _
  have hempty : (exactObjects v (objects'.filter (Reaches cfg v))).isEmpty =
      (exactObjects v (objects.filter (Reaches cfg v))).isEmpty := by
    rw [Bool.eq_iff_iff, isEmpty_iff_length_eq_zero, isEmpty_iff_length_eq_zero, hexact.length_eq]
  unfold selectObjects
  rw [hempty]
  split_ifs with hnone
  · rcases hfew with ⟨obj, hobj, hreaches, hmarker⟩ | hfew
    · rw [List.isEmpty_iff] at hnone
      have hmem : obj ∈ exactObjects v (objects.filter (Reaches cfg v)) :=
        mem_filter.2 ⟨mem_filter.2 ⟨hobj, hreaches⟩, hmarker⟩
      rw [hnone] at hmem
      cases hmem
    · rw [countP_eq_length_filter] at hfew
      rw [take_of_length_le hfew, take_of_length_le (hnearby.length_eq ▸ hfew)]
      exact hnearby
  · exact hexact

/-- The associated violation does not depend on the order of what was selected. -/
theorem associated_perm (hperm : nearby'.Perm nearby) :
    associated v nearby' = associated v nearby := by
  have hids : (nearby'.map (·.objectId)).insertionSort (· ≤ ·) =
      (nearby.map (·.objectId)).insertionSort (· ≤ ·) := by
    have hsorted : ((nearby'.map (·.objectId)).insertionSort (· ≤ ·)).Perm
        ((nearby.map (·.objectId)).insertionSort (· ≤ ·)) :=
      (perm_insertionSort _ _).trans
        ((hperm.map _).trans (perm_insertionSort _ _).symm)
    exact hsorted.eq_of_pairwise' (pairwise_insertionSort _ _) (pairwise_insertionSort _ _)
  have hempty : nearby'.isEmpty = nearby.isEmpty := by
    rw [Bool.eq_iff_iff, isEmpty_iff_length_eq_zero, isEmpty_iff_length_eq_zero, hperm.length_eq]
  unfold associated
  rw [hids, hempty]

/-- **The association** where nothing is cut off. -/
theorem associate_perm (hperm : objects'.Perm objects) (hfew : FewNearby cfg objects v) :
    (∃ e, associate cfg v objects = .error e ∧ associate cfg v objects' = .error e) ∨
      ∃ w selected selected', associate cfg v objects = .ok (w, selected) ∧
        associate cfg v objects' = .ok (w, selected') ∧ selected'.Perm selected := by
  unfold associate
  rcases nearbyObjects_perm cfg v hperm with ⟨e, h, h'⟩ | ⟨h, h'⟩
  · left
    rw [h, h']
    exact ⟨e, rfl, rfl⟩
  · right
    have hselected := selectObjects_perm hperm hfew
    rw [h, h']
    refine ⟨_, _, _, rfl, ?_, ((sortObjects_perm _).trans hselected).trans (sortObjects_perm _).symm⟩
    rw [← associated_perm hselected]
    rfl

end Association

/-! ## The seeds -/

section Seeds

variable {D : Type} [Doubles D] {cfg : RegionConfig D} {catalog : RuleCatalog D}
  {v : ViolationRecord} {violations : List ViolationRecord} {objects objects' : List LayoutObject}

/-- A box fails in one way. -/
theorem localBox_error {obj : LayoutObject} {e : String} (h : localBox cfg v obj = .error e) :
    e = "box coordinates must be ordered" := by
  unfold localBox Box.make at h
  dsimp only at h
  split_ifs at h
  cases h
  rfl

theorem Box.union_right_comm (b c d : Box) : (b.union c).union d = (b.union d).union c := by
  unfold Box.union
  simp only [Box.mk.injEq]
  exact ⟨min_right_comm _ _ _, min_right_comm _ _ _, max_right_comm _ _ _, max_right_comm _ _ _⟩

/-- The box of a seed does not depend on the order of its objects. -/
theorem seedBox_perm (hperm : objects'.Perm objects) (b : Box) :
    (objects'.foldlM (fun seed obj => do
        let window ← localBox cfg v obj
        return seed.union window) b : Except String Box) =
      objects.foldlM (fun seed obj => do
        let window ← localBox cfg v obj
        return seed.union window) b := by
  refine foldlM_perm ?_ hperm b
  intro b x y
  cases hx : localBox cfg v x with
  | error e =>
    cases hy : localBox cfg v y with
    | error e' =>
      exact congrArg Except.error ((localBox_error hx).trans (localBox_error hy).symm)
    | ok window => rfl
  | ok window =>
    cases hy : localBox cfg v y with
    | error e => rfl
    | ok window' =>
      show Except.ok ((b.union window).union window') = .ok ((b.union window').union window)
      rw [Box.union_right_comm]

/-- A seed depends on its objects up to their order. -/
theorem makeSeed_perm (catalog : RuleCatalog D) (hperm : objects'.Perm objects) :
    (makeSeed cfg catalog v objects').map representative =
      (makeSeed cfg catalog v objects).map representative := by
  unfold makeSeed
  rw [seedBox_perm hperm]
  cases objects.foldlM (fun seed obj => do
      let window ← localBox cfg v obj
      return seed.union window) v.markerBboxDbu with
  | error e => rfl
  | ok seed =>
    dsimp only [bind, Except.bind]
    cases seed.expand _ with
    | error e => rfl
    | ok expanded =>
      refine congrArg Except.ok (representative_eq ?_)
      exact ⟨rfl, hperm, rfl, rfl, rfl⟩

/-- **The seed of a violation** where nothing is cut off. -/
theorem seedOf_perm (catalog : RuleCatalog D) (hperm : objects'.Perm objects) (hfew : FewNearby cfg objects v) :
    (seedOf cfg catalog objects' v).map representative =
      (seedOf cfg catalog objects v).map representative := by
  unfold seedOf
  rcases associate_perm hperm hfew with ⟨e, h, h'⟩ | ⟨w, selected, selected', h, h', hselected⟩
  · rw [h, h']
  · rw [h, h']
    exact makeSeed_perm catalog hselected

/-- A map of the results of a loop. -/
theorem map_mapM {α β γ ε : Type} (f : α → Except ε β) (g : β → γ) (items : List α) :
    (items.mapM f).map (List.map g) = items.mapM fun a => (f a).map g := by
  induction items with
  | nil => rfl
  | cons a rest ih =>
    rw [mapM_cons, mapM_cons, ← ih]
    cases f a with
    | error e => rfl
    | ok b =>
      cases rest.mapM f with
      | error e => rfl
      | ok bs => rfl

theorem mapM_congr {α β ε : Type} {f f' : α → Except ε β} {items : List α}
    (h : ∀ a ∈ items, f' a = f a) : items.mapM f' = items.mapM f := by
  induction items with
  | nil => rfl
  | cons a rest ih =>
    rw [mapM_cons, mapM_cons, h a mem_cons_self, ih fun b hb => h b (mem_cons_of_mem a hb)]

/-- The representatives of the seeds. -/
theorem buildSeeds_representatives (violations : List ViolationRecord)
    (objects : List LayoutObject) :
    (buildSeeds cfg catalog violations objects).map (List.map (Prod.map id representative)) =
      ((violations.insertionSort fun a b => a.violationId ≤ b.violationId).mapM fun v =>
        ((seedOf cfg catalog objects v).map representative).map (Prod.mk v.violationId)).map
          Dicts.ofList := by
  have hentry : ∀ v : ViolationRecord,
      ((seedOf cfg catalog objects v).map representative).map (Prod.mk v.violationId) =
        (do let seed ← seedOf cfg catalog objects v
            return (v.violationId, seed) : Except String (String × Seed)).map
              (Prod.map id representative) := by
    intro v
    cases seedOf cfg catalog objects v with
    | error e => rfl
    | ok s => rfl
  simp only [hentry]
  rw [← map_mapM]
  unfold buildSeeds
  cases (violations.insertionSort fun a b => a.violationId ≤ b.violationId).mapM fun v => do
      let seed ← seedOf cfg catalog objects v
      return (v.violationId, seed) with
  | error e => rfl
  | ok entries => exact congrArg Except.ok (Dicts.ofList_map representative entries).symm

/-- The seeds of the violations where nothing is cut off. -/
theorem buildSeeds_perm (hperm : objects'.Perm objects)
    (hfew : ∀ v ∈ violations, FewNearby cfg objects v) :
    (buildSeeds cfg catalog violations objects').map (List.map (Prod.map id representative)) =
      (buildSeeds cfg catalog violations objects).map (List.map (Prod.map id representative)) := by
  rw [buildSeeds_representatives, buildSeeds_representatives]
  congr 1
  refine mapM_congr fun v hv => ?_
  rw [seedOf_perm catalog hperm (hfew v ((mem_insertionSort _).1 hv))]

omit [Doubles D] in
/-- The violations of the result where nothing is cut off. -/
theorem associateAll_perm (hperm : objects'.Perm objects)
    (hfew : ∀ v ∈ violations, FewNearby cfg objects v) :
    associateAll cfg violations objects' = associateAll cfg violations objects := by
  refine mapM_congr fun v hv => ?_
  rcases associate_perm hperm (hfew v hv) with ⟨e, h, h'⟩ | ⟨w, _, _, h, h', -⟩
  · rw [h, h']
  · rw [h, h']
    rfl

end Seeds

/-! ## The build -/

section Build

variable {D : Type} [Doubles D] {cfg : RegionConfig D} {hash : RegionHashPart → String}
  {catalog : RuleCatalog D} {violations : List ViolationRecord}
  {objects objects' : List LayoutObject} {previous : List PreviousRegion}

/-- The ids, violations and objects of the regions of a build. -/
def memberships (result : RegionBuildResult D) : List (String × List String × List String) :=
  result.regions.map (·.membership)

/-- The rest of the build, after the seeds. -/
def buildFrom (cfg : RegionConfig D) (hash : RegionHashPart → String)
    (violations : List ViolationRecord) (previous : List PreviousRegion)
    (updated : Except String (List ViolationRecord)) (seeds : List (String × Seed)) :
    Except String (RegionBuildResult D) := do
  let (groups, edges) := linkGroups cfg seeds
  let regions := buildRegions cfg hash previous seeds groups
  let owned := ownership regions
  if (owned.map (·.1)).toFinset ≠ (violations.map (·.violationId)).toFinset then
    throw "violation coverage invariant failed"
  let updated ← updated
  return ⟨updated, regions, edges, owned⟩

theorem build_eq (objects : List LayoutObject) :
    build cfg hash catalog violations objects previous =
      (do let seeds ← buildSeeds cfg catalog violations objects
          buildFrom cfg hash violations previous (associateAll cfg violations objects) seeds) := rfl

omit [Doubles D] in
/-- The owners of the violations are read off the memberships. -/
theorem ownership_memberships (regions : List (RegionState D)) :
    ownership regions = Dicts.ofList ((regions.map (·.membership)).flatMap fun region =>
      region.2.1.map fun id => (id, region.1)) := by
  unfold ownership
  rw [flatMap_map]
  rfl

/-- The rest of the build depends on the classes of the seeds. -/
theorem buildFrom_same (updated : Except String (List ViolationRecord))
    (seeds : List (String × Seed)) :
    (buildFrom cfg hash violations previous updated
        (seeds.map (Prod.map id representative))).map memberships =
      (buildFrom cfg hash violations previous updated seeds).map memberships := by
  have hregions : (buildRegions cfg hash previous (seeds.map (Prod.map id representative))
        (linkGroups cfg seeds).1).map (·.membership) =
      (buildRegions cfg hash previous seeds (linkGroups cfg seeds).1).map (·.membership) :=
    buildRegions_same representative_same seeds (linkGroups cfg seeds).1
  have howned : ownership (buildRegions cfg hash previous
        (seeds.map (Prod.map id representative)) (linkGroups cfg seeds).1) =
      ownership (buildRegions cfg hash previous seeds (linkGroups cfg seeds).1) := by
    rw [ownership_memberships, ownership_memberships, hregions]
  unfold buildFrom
  rw [linkGroups_same representative_same]
  dsimp only
  rw [howned]
  split_ifs
  · rfl
  · cases updated with
    | error e => rfl
    | ok updated => exact congrArg Except.ok hregions

/-- A computation that does not see a map of its argument. -/
theorem map_bind_same {ε α β γ : Type} {x : Except ε α} {p : α → α} {g : α → Except ε β}
    {f : β → γ} (h : ∀ a, (g (p a)).map f = (g a).map f) :
    (do let a ← x.map p
        g a).map f = (do let a ← x
                         g a).map f := by
  cases x with
  | error e => rfl
  | ok a => exact h a

/-- The memberships of a build, from the representatives of its seeds. -/
theorem build_representatives (objects : List LayoutObject) :
    (build cfg hash catalog violations objects previous).map memberships =
      (do let seeds ← (buildSeeds cfg catalog violations objects).map
            (List.map (Prod.map id representative))
          buildFrom cfg hash violations previous (associateAll cfg violations objects) seeds).map
        memberships := by
  rw [build_eq]
  exact (map_bind_same fun seeds => buildFrom_same _ seeds).symm

/-- **The build** where nothing is cut off. -/
theorem build_perm (hperm : objects'.Perm objects)
    (hfew : ∀ v ∈ violations, FewNearby cfg objects v) :
    (build cfg hash catalog violations objects' previous).map memberships =
      (build cfg hash catalog violations objects previous).map memberships := by
  rw [build_representatives, build_representatives, buildSeeds_perm hperm hfew,
    associateAll_perm hperm hfew]

/-- The regions of the build are the same for every order of the objects. -/
def OrderFree (cfg : RegionConfig D) (hash : RegionHashPart → String) (catalog : RuleCatalog D)
    (violations : List ViolationRecord) (objects : List LayoutObject)
    (previous : List PreviousRegion) : Prop :=
  ∀ objects' : List LayoutObject, objects'.Perm objects →
    (build cfg hash catalog violations objects' previous).map memberships =
      (build cfg hash catalog violations objects previous).map memberships

variable {result : RegionBuildResult D} {seeds : List (String × Seed)} {v : ViolationRecord}

/-- The objects of the regions are those of the seeds. -/
theorem Built.objects_iff (h : Built cfg hash violations objects previous seeds result)
    {id : String} :
    (∃ r ∈ result.regions, id ∈ r.objectIds) ↔
      ∃ entry ∈ seeds, id ∈ entry.2.objects.map (·.objectId) := by
  have hpart : ∀ {first : Seed} {rest : List Seed},
      id ∈ (finalize cfg hash previous first rest).objectIds ↔
        ∃ s ∈ first :: rest, id ∈ s.objects.map (·.objectId) := by
    intro first rest
    rw [(finalize_objectIds cfg hash previous first rest).mem_iff]
    unfold seedsObjectIds
    rw [mem_dedup, mem_flatMap]
  constructor
  · rintro ⟨r, hr, hid⟩
    rw [h.regions, mem_buildRegions] at hr
    obtain ⟨part, hmem, hregion⟩ := hr
    cases part with
    | nil => cases hregion
    | cons first rest =>
      obtain rfl := Option.some.inj hregion
      obtain ⟨s, hs, hid⟩ := hpart.1 hid
      obtain ⟨entry, hentry, rfl⟩ := h.entry_of_part hmem hs
      exact ⟨entry, hentry, hid⟩
  · rintro ⟨entry, hentry, hid⟩
    have hflat : entry.2 ∈ (partsOf cfg seeds (linkGroups cfg seeds).1).flatten :=
      h.groupsOf.parts_perm.mem_iff.2 (mem_map_of_mem hentry)
    obtain ⟨part, hmem, hs⟩ := mem_flatten.1 hflat
    cases part with
    | nil => cases hs
    | cons first rest =>
      refine ⟨finalize cfg hash previous first rest, ?_, hpart.2 ⟨entry.2, hs, hid⟩⟩
      rw [h.regions]
      exact mem_buildRegions.2 ⟨_, hmem, rfl⟩

omit [Doubles D] in
/-- The objects of a seed are the selected ones. -/
theorem SeedFor.objects_perm {s : Seed} (h : SeedFor cfg objects v s) :
    s.objects.Perm (selectObjects v (objects.filter (Reaches cfg v))) := by
  obtain ⟨nearby, hnearby, -, hobjects⟩ := h
  rcases nearbyObjects_cases cfg v objects with heq | ⟨e, -, -, heq⟩
  · rw [heq] at hnearby
    rw [hobjects, ← Except.ok.inj hnearby]
    exact sortObjects_perm _
  · rw [heq] at hnearby
    cases hnearby

/-- **The objects of the regions** are those that the violations select. -/
theorem build_objects_iff (hviolations : (violations.map (·.violationId)).Nodup)
    (h : build cfg hash catalog violations objects previous = .ok result) {id : String} :
    (∃ m ∈ memberships result, id ∈ m.2.2) ↔
      ∃ v ∈ violations, ∃ obj ∈ selectObjects v (objects.filter (Reaches cfg v)),
        obj.objectId = id := by
  obtain ⟨seeds, -, hbuilt⟩ := build_ok hviolations h
  have hmemberships : (∃ m ∈ memberships result, id ∈ m.2.2) ↔
      ∃ r ∈ result.regions, id ∈ r.objectIds := by
    constructor
    · rintro ⟨m, hm, hid⟩
      obtain ⟨r, hr, rfl⟩ := mem_map.1 hm
      exact ⟨r, hr, hid⟩
    · rintro ⟨r, hr, hid⟩
      exact ⟨r.membership, mem_map_of_mem hr, hid⟩
  rw [hmemberships, hbuilt.objects_iff]
  constructor
  · rintro ⟨entry, hentry, hid⟩
    obtain ⟨v, hv, -, hseed⟩ := hbuilt.seedsOf.seed entry hentry
    obtain ⟨obj, hobj, hid⟩ := mem_map.1 hid
    exact ⟨v, hv, obj, hseed.objects_perm.mem_iff.1 hobj, hid⟩
  · rintro ⟨v, hv, obj, hobj, rfl⟩
    obtain ⟨s, hentry, hseed⟩ := hbuilt.seedsOf.has v hv
    exact ⟨_, hentry, mem_map_of_mem (hseed.objects_perm.mem_iff.2 hobj)⟩

/-- An object that only one violation is near. -/
def NearOnly (cfg : RegionConfig D) (violations : List ViolationRecord) (v : ViolationRecord)
    (obj : LayoutObject) : Prop :=
  Reaches cfg v obj = true ∧ ∀ w ∈ violations, Reaches cfg w obj = true → w = v

omit [Doubles D] in
/-- Where no object near the marker intersects it, the first sixteen are selected. -/
theorem selectObjects_take (hexact : ∀ obj ∈ objects, Reaches cfg v obj = true →
      v.markerBboxDbu.intersects obj.bboxDbu = false) :
    selectObjects v (objects.filter (Reaches cfg v)) = (objects.filter (Reaches cfg v)).take 16 := by
  have hnone : exactObjects v (objects.filter (Reaches cfg v)) = [] := by
    unfold exactObjects
    rw [filter_eq_nil_iff]
    intro obj hobj
    obtain ⟨hobj, hreaches⟩ := mem_filter.1 hobj
    rw [hexact obj hobj hreaches]
    exact Bool.false_ne_true
  unfold selectObjects
  rw [hnone]
  rfl

/-- **The order matters** to a violation with many nearby objects, one of them near no
other violation. -/
theorem fewNearby_of_orderFree (hviolations : (violations.map (·.violationId)).Nodup)
    (hobjects : (objects.map (·.objectId)).Nodup)
    (h : build cfg hash catalog violations objects previous = .ok result)
    (hfree : OrderFree cfg hash catalog violations objects previous) (hv : v ∈ violations)
    {obj : LayoutObject} (hobj : obj ∈ objects) (honly : NearOnly cfg violations v obj) :
    FewNearby cfg objects v := by
  by_contra hfew
  unfold FewNearby at hfew
  rw [not_or, not_le] at hfew
  obtain ⟨hexact, hmany⟩ := hfew
  have hexact : ∀ o ∈ objects, Reaches cfg v o = true →
      v.markerBboxDbu.intersects o.bboxDbu = false := by
    intro o ho hreaches
    by_contra hmarker
    exact hexact ⟨o, ho, hreaches, Bool.eq_true_of_not_eq_false hmarker⟩
  -- the object first, and the object last
  have hfirst : (obj :: objects.erase obj).Perm objects := (perm_cons_erase hobj).symm
  have hlast : (objects.erase obj ++ [obj]).Perm objects :=
    (perm_append_singleton obj _).trans hfirst
  have hbuild : ∀ {l : List LayoutObject}, l.Perm objects →
      ∃ r, build cfg hash catalog violations l previous = .ok r ∧
        memberships r = memberships result := by
    intro l hl
    have hsame := hfree l hl
    rw [h] at hsame
    cases hr : build cfg hash catalog violations l previous with
    | error e =>
      rw [hr] at hsame
      cases hsame
    | ok r =>
      rw [hr] at hsame
      exact ⟨r, rfl, Except.ok.inj hsame⟩
  obtain ⟨r₁, h₁, hm₁⟩ := hbuild hfirst
  obtain ⟨r₂, h₂, hm₂⟩ := hbuild hlast
  have hin : ∃ m ∈ memberships r₁, obj.objectId ∈ m.2.2 := by
    rw [build_objects_iff hviolations h₁]
    refine ⟨v, hv, obj, ?_, rfl⟩
    rw [selectObjects_take fun o ho => hexact o (hfirst.mem_iff.1 ho), filter_cons_of_pos honly.1]
    exact mem_cons_self
  rw [hm₁, ← hm₂, build_objects_iff hviolations h₂] at hin
  obtain ⟨w, hw, o, ho, hid⟩ := hin
  have hsub := (selectObjects_sublist w _).subset ho
  obtain ⟨hmem, hreaches⟩ := mem_filter.1 hsub
  obtain rfl : o = obj := inj_on_of_nodup_map hobjects (hlast.mem_iff.1 hmem) hobj hid
  obtain rfl : w = v := honly.2 w hw hreaches
  rw [selectObjects_take fun o' ho' => hexact o' (hlast.mem_iff.1 ho'), filter_append] at ho
  have hlength : 16 ≤ ((objects.erase o).filter (Reaches cfg w)).length := by
    have hcount := hfirst.countP_eq (Reaches cfg w)
    rw [countP_cons_of_pos honly.1, countP_eq_length_filter] at hcount
    omega
  rw [take_append_of_le_length hlength] at ho
  have hleft := mem_of_mem_filter (mem_of_mem_take ho)
  exact (Nodup.not_mem_erase (Nodup.of_map _ hobjects)) hleft

/-- **The regions and the order of the objects.**  They are the same for every order if
each violation has an object at its marker or at most sixteen nearby. A violation with
more makes them depend on the order, if one of its objects is near no other violation. -/
theorem regions_order_free (cfg : RegionConfig D) (hash : RegionHashPart → String)
    (catalog : RuleCatalog D) (violations : List ViolationRecord) (objects : List LayoutObject)
    (previous : List PreviousRegion) :
    ((∀ v ∈ violations, FewNearby cfg objects v) →
      OrderFree cfg hash catalog violations objects previous) ∧
    (∀ result, (violations.map (·.violationId)).Nodup → (objects.map (·.objectId)).Nodup →
      build cfg hash catalog violations objects previous = .ok result →
      (∀ v ∈ violations, ¬ FewNearby cfg objects v →
        ∃ obj ∈ objects, NearOnly cfg violations v obj) →
      (OrderFree cfg hash catalog violations objects previous ↔
        ∀ v ∈ violations, FewNearby cfg objects v)) := by
  have hsufficient : (∀ v ∈ violations, FewNearby cfg objects v) →
      OrderFree cfg hash catalog violations objects previous :=
    fun hfew objects' hperm => build_perm hperm hfew
  refine ⟨hsufficient, fun result hviolations hobjects h honly => ⟨?_, hsufficient⟩⟩
  intro hfree v hv
  by_contra hmany
  obtain ⟨obj, hobj, hnear⟩ := honly v hv hmany
  apply hmany
  exact fewNearby_of_orderFree hviolations hobjects h hfree hv hobj hnear

end Build

/-! ## Seventeen objects near a marker -/

/-- A marker at the origin, and seventeen squares near it that do not intersect it. -/
def nearbySquares : List LayoutObject :=
  ["a", "b", "c", "d", "e", "f", "g", "h", "i", "j", "k", "l", "m", "n", "o", "p", "q"].map
    fun id => squareAt id 100

/-- The build of the marker with squares. -/
def buildWith (objects : List LayoutObject) : Except String (RegionBuildResult ℚ) :=
  @build ℚ exactDoubles oneMarkerConfig (fun _ => "hash") { fallback := { haloMultiplier := 2 } }
    [markerAt "v" 0] objects []

theorem regions_depend_on_order :
    nearbySquares.reverse.Perm nearbySquares ∧
      (buildWith nearbySquares.reverse).map memberships ≠
        (buildWith nearbySquares).map memberships := by
  refine ⟨reverse_perm _, ?_⟩
  decide +kernel

theorem regions_order_free_sample :
    (buildWith (nearbySquares.take 16).reverse).map memberships =
        (buildWith (nearbySquares.take 16)).map memberships ∧
      ¬ @OrderFree ℚ exactDoubles oneMarkerConfig (fun _ => "hash")
        { fallback := { haloMultiplier := 2 } } [markerAt "v" 0] nearbySquares [] := by
  constructor
  · have hfew : ∀ v ∈ [markerAt "v" 0], FewNearby oneMarkerConfig (nearbySquares.take 16) v := by
      intro v hv
      obtain rfl := mem_singleton.1 hv
      exact Or.inr (by decide +kernel)
    exact (@regions_order_free ℚ exactDoubles _ _ _ _ _ _).1 hfew _ (reverse_perm _)
  · have hreturns : (buildWith nearbySquares).toOption.isSome = true := by decide +kernel
    obtain ⟨result, hresult⟩ : ∃ result, buildWith nearbySquares = .ok result := by
      cases hbuild : buildWith nearbySquares with
      | error e =>
        rw [hbuild] at hreturns
        cases hreturns
      | ok result => exact ⟨result, rfl⟩
    have honly : ∀ v ∈ [markerAt "v" 0], ¬ FewNearby oneMarkerConfig nearbySquares v →
        ∃ obj ∈ nearbySquares, NearOnly oneMarkerConfig [markerAt "v" 0] v obj := by
      intro v hv _
      obtain rfl := mem_singleton.1 hv
      refine ⟨squareAt "a" 100, by decide +kernel, by decide +kernel, ?_⟩
      intro w hw _
      exact mem_singleton.1 hw
    rw [(@regions_order_free ℚ exactDoubles _ _ _ _ _ _).2 result (by decide) (by decide) hresult
      honly]
    intro hfew
    rcases hfew _ (mem_singleton_self _) with ⟨obj, hobj, -, hmarker⟩ | hcount
    · revert obj
      decide +kernel
    · revert hcount
      decide +kernel

end DRCAgent.Regions
