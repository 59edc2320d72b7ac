/-
# When a region build returns

`RegionBuilder.build` raises where a window is inverted, where a number is too large for a
float, or where one is too long for a text. The split of a group is never reached
(`linkGroups_kept`), so neither are the centroids that it computes; and the check of the
covered violations at the end never fails (`SeedsBuilt.covered`).

* `Checked.build_refines`: a build that raises nothing returns what `build` returns.
* `build_returns_iff`: the build returns exactly when no window is inverted and the
  numbers fit.
-/
import DRCAgent.CheckerTotality
import DRCAgent.RegionWindows

namespace DRCAgent.Regions

open Disjoint Failures List
open Candidates.CheckedDoubles BuilderDoubles

/-! ## Linking -/

section Linking

variable {D : Type} [BuilderDoubles D] {cfg : RegionConfig D}
  {seeds : List (String × Seed)} {state : UnionFind String × List (AffinityEdge D)}

/-- `int / int` raises where the quotient is too large: not below one. -/
def RatiosFit (D : Type) [BuilderDoubles D] : Prop :=
  ∀ a b : ℤ, 0 ≤ a → a ≤ b → 0 < b → trueDivRaises D a b = false

/-- The distance of two halos is a float, and so is what it is divided by, unless they are
too far apart for an edge. -/
def PairFits (cfg : RegionConfig D) (w w' : Window) : Prop :=
  rootRaises D (w.gapSquare w') = false ∧
    (Doubles.compareInt (Doubles.root (w.gapSquare w') : D) cfg.affinityMaxGapDbu ≠ .gt →
      ofIntRaises D (max cfg.affinityMaxGapDbu 1) = false)

/-- The span of a region is a finite float. -/
def SpanFits (cfg : RegionConfig D) : Prop :=
  ofIntRaises D cfg.dbuPerUm = false ∧
    truncError (Doubles.mul cfg.maxRegionSpanUm (Doubles.ofInt cfg.dbuPerUm)) = none

theorem Window.gapSquare_comm (w w' : Window) : w.gapSquare w' = w'.gapSquare w := by
  unfold Window.gapSquare
  rw [max_comm (w.x1 - w'.x2), max_comm (w.y1 - w'.y2)]

theorem PairFits.symm {w w' : Window} (h : PairFits cfg w w') : PairFits cfg w' w := by
  unfold PairFits
  rw [Window.gapSquare_comm]
  exact h

theorem Box.area_nonneg (b : Box) : 0 ≤ b.area :=
  mul_nonneg (sub_nonneg.2 b.ordered.1) (sub_nonneg.2 b.ordered.2)

theorem Box.intersectionArea_nonneg (b c : Box) : 0 ≤ b.intersectionArea c :=
  mul_nonneg (le_max_left _ _) (le_max_left _ _)

theorem Box.intersectionArea_comm (b c : Box) : b.intersectionArea c = c.intersectionArea b := by
  unfold Box.intersectionArea
  rw [min_comm b.x2, max_comm b.x1, min_comm b.y2, max_comm b.y1]

theorem Box.intersectionArea_le (b c : Box) : b.intersectionArea c ≤ b.area := by
  have hwidth : max 0 (min b.x2 c.x2 - max b.x1 c.x1) ≤ b.width :=
    max_le (sub_nonneg.2 b.ordered.1) (sub_le_sub (min_le_left _ _) (le_max_left _ _))
  have hheight : max 0 (min b.y2 c.y2 - max b.y1 c.y1) ≤ b.height :=
    max_le (sub_nonneg.2 b.ordered.2) (sub_le_sub (min_le_left _ _) (le_max_left _ _))
  exact mul_le_mul hwidth hheight (le_max_left _ _) (sub_nonneg.2 b.ordered.1)

/-- The overlap of two boxes is a part of the smaller one. -/
theorem overlapRaises_false (hratio : RatiosFit D) (a b : Box) :
    Checked.overlapRaises (D := D) a b = false := by
  unfold Checked.overlapRaises
  by_cases hzero : min a.area b.area = 0
  · rw [hzero]
    rfl
  · have ha := a.area_nonneg
    have hb := b.area_nonneg
    have hinter : a.intersectionArea b ≤ min a.area b.area :=
      le_min (a.intersectionArea_le b) (a.intersectionArea_comm b ▸ b.intersectionArea_le a)
    rw [hratio _ _ (a.intersectionArea_nonneg b) hinter (by omega), Bool.and_false]

/-- What the checks of a pair let through. -/
theorem Checked.linkPair_eq_ok (hratio : RatiosFit D) (pair : Seed × Seed)
    (state' : UnionFind String × List (AffinityEdge D)) :
    Checked.linkPair cfg state pair = .ok state' ↔
      PairFits cfg pair.1.halo.window pair.2.halo.window ∧
        state' = Regions.linkPair cfg state pair := by
  obtain ⟨a, b⟩ := pair
  unfold Checked.linkPair PairFits
  dsimp only
  rw [overflow_bind_ok, and_assoc]
  refine and_congr_right fun _ => ?_
  rw [← Box.gap_eq]
  by_cases hfar : Doubles.compareInt (a.halo.gap b.halo : D) cfg.affinityMaxGapDbu = .gt
  · have hskip : Regions.linkPair cfg state (a, b) = state := by
      unfold Regions.linkPair
      exact if_pos hfar
    rw [if_pos hfar, hskip]
    exact ⟨fun h => ⟨fun hnear => absurd hfar hnear, (Except.ok.inj h).symm⟩,
      fun h => congrArg _ h.2.symm⟩
  · rw [if_neg hfar, overflow_bind_ok, overflow_bind_ok]
    refine ⟨fun h => ⟨fun _ => h.2.1, (Except.ok.inj h.2.2).symm⟩, fun h => ?_⟩
    exact ⟨overlapRaises_false hratio _ _, h.1 hfar, congrArg _ h.2.symm⟩

theorem span_bind_ok {α : Type} {x : Except BuilderError α} {a : α} :
    (Checked.span cfg >>= fun _ => x) = .ok a ↔ SpanFits cfg ∧ x = .ok a := by
  unfold Checked.span SpanFits
  rw [bind_assoc, overflow_bind_ok, raising_bind_ok, and_assoc]

theorem Checked.capOk_eq_ok {group : List Seed} {ok : Bool} :
    Checked.capOk cfg group = .ok ok ↔ SpanFits cfg ∧ ok = Regions.capOk cfg group := by
  unfold Checked.capOk
  rw [span_bind_ok]
  exact and_congr_right fun _ => ⟨fun h => (Except.ok.inj h).symm, fun h => congrArg _ h.symm⟩

/-- A merge that raises nothing is the merge. -/
theorem Checked.mergeEdge_ok {uf uf' : UnionFind String} {edge : AffinityEdge D}
    (h : Checked.mergeEdge cfg seeds uf edge = .ok uf') :
    uf' = Regions.mergeEdge cfg seeds uf edge := by
  unfold Checked.mergeEdge at h
  unfold Regions.mergeEdge
  dsimp only at h ⊢
  split_ifs at h ⊢ with hmerge hroot hcap
  · exact (Except.ok.inj h).symm
  · exact (Except.ok.inj h).symm
  · obtain ⟨ok, hok, h⟩ := bind_eq_ok.1 h
    obtain ⟨-, rfl⟩ := Checked.capOk_eq_ok.1 hok
    exact (Except.ok.inj h).symm.trans (if_pos hcap)
  · obtain ⟨ok, hok, h⟩ := bind_eq_ok.1 h
    obtain ⟨-, rfl⟩ := Checked.capOk_eq_ok.1 hok
    exact (Except.ok.inj h).symm.trans (if_neg hcap)

/-- A merge raises nothing where the span fits. -/
theorem Checked.mergeEdge_eq (hspan : SpanFits cfg) (uf : UnionFind String)
    (edge : AffinityEdge D) :
    Checked.mergeEdge cfg seeds uf edge = .ok (Regions.mergeEdge cfg seeds uf edge) := by
  unfold Checked.mergeEdge Regions.mergeEdge
  dsimp only
  have hcap : ∀ group : List Seed, Checked.capOk cfg group = .ok (Regions.capOk cfg group) :=
    fun group => Checked.capOk_eq_ok.2 ⟨hspan, rfl⟩
  split_ifs with hmerge hroot hok
  · rfl
  · rfl
  · rw [hcap, hok]
    rfl
  · rw [Bool.not_eq_true] at hok
    rw [hcap, hok]
    rfl

/-- **A linking that raises nothing** is the linking, and its pairs fit. -/
theorem Checked.linkGroups_ok (hratio : RatiosFit D)
    {result : List (List String) × List (AffinityEdge D)}
    (h : Checked.linkGroups cfg seeds = .ok result) :
    (∀ pair ∈ pairs (seeds.map (·.2)), PairFits cfg pair.1.halo.window pair.2.halo.window) ∧
      result = Regions.linkGroups cfg seeds := by
  unfold Checked.linkGroups at h
  obtain ⟨linked, hlinked, h⟩ := bind_eq_ok.1 h
  obtain ⟨merged, hmerged, h⟩ := bind_eq_ok.1 h
  obtain ⟨hpairs, rfl⟩ := (foldlM_eq_ok
    (fun state pair state' => Checked.linkPair_eq_ok hratio pair state') _ _).1 hlinked
  refine ⟨hpairs, (Except.ok.inj h).symm.trans ?_⟩
  -- a merge that raises nothing is the merge, turn by turn
  have hforest : merged = mergedForest cfg seeds := by
    have hloop : ∀ (edges : List (AffinityEdge D)) (uf uf' : UnionFind String),
        edges.foldlM (Checked.mergeEdge cfg seeds) uf = .ok uf' →
          uf' = edges.foldl (Regions.mergeEdge cfg seeds) uf := by
      intro edges
      induction edges with
      | nil => exact fun uf uf' h => (Except.ok.inj h).symm
      | cons edge rest ih =>
        intro uf uf' h
        rw [foldlM_cons] at h
        obtain ⟨middle, hmiddle, h⟩ := bind_eq_ok.1 h
        rw [foldl_cons, ← Checked.mergeEdge_ok hmiddle]
        exact ih _ _ h
    exact hloop _ _ _ hmerged
  rw [hforest]
  rfl

/-- The linking raises nothing where the pairs and the span fit. -/
theorem Checked.linkGroups_eq (hratio : RatiosFit D) (hspan : SpanFits cfg)
    (hpairs : ∀ pair ∈ pairs (seeds.map (·.2)),
      PairFits cfg pair.1.halo.window pair.2.halo.window) :
    Checked.linkGroups cfg seeds = .ok (Regions.linkGroups cfg seeds) := by
  unfold Checked.linkGroups
  refine bind_eq_ok.2 ⟨linkedState cfg seeds, ?_, ?_⟩
  · exact (foldlM_eq_ok
      (fun state pair state' => Checked.linkPair_eq_ok hratio pair state') _ _).2 ⟨hpairs, rfl⟩
  · refine bind_eq_ok.2 ⟨mergedForest cfg seeds, ?_, rfl⟩
    refine (foldlM_eq_ok (P := fun _ => True) (fun uf edge uf' => ?_) _ _).2
      ⟨fun _ _ => trivial, rfl⟩
    rw [Checked.mergeEdge_eq hspan]
    exact ⟨fun h => ⟨trivial, (Except.ok.inj h).symm⟩, fun h => congrArg _ h.2.symm⟩

end Linking

/-! ## The regions -/

section Regions

variable {D : Type} [BuilderDoubles D] {cfg : RegionConfig D} {hash : RegionHashPart → String}
  {previous : List PreviousRegion} {group : List Seed} {seeds : List (String × Seed)}
  {groups : List (List String)}

/-- A group that is not to be cut is one part, where the span fits. -/
theorem Checked.split_eq_ok (hne : group ≠ []) (hkept : Kept cfg group)
    {parts : List (List Seed)} :
    Checked.split cfg group = .ok parts ↔ SpanFits cfg ∧ parts = [group] := by
  obtain ⟨n, hn⟩ : ∃ n, group.length = n + 1 :=
    Nat.exists_eq_succ_of_ne_zero (length_pos_iff.2 hne).ne'
  unfold Checked.split
  rw [hn, Checked.splitTo]
  -- a kept group ends the recursion before anything is bisected
  have hkeep : ∀ x : Except BuilderError (Option (List (List Seed))),
      (if Regions.capOk cfg group || decide (group.length ≤ 1) then return some [group]
        else if sharesObject group then return some [group] else x) = .ok (some [group]) := by
    intro x
    split_ifs with hsmall hshare
    · rfl
    · rfl
    · exfalso
      rw [Bool.or_eq_true, decide_eq_true_eq, not_or] at hsmall
      rcases hkept with hcap | hone | hshares
      · exact hsmall.1 hcap
      · exact hsmall.2 hone
      · exact hshare hshares
  constructor
  · intro h
    obtain ⟨found, hfound, h⟩ := bind_eq_ok.1 h
    obtain ⟨ok, hok, hfound⟩ := bind_eq_ok.1 hfound
    obtain ⟨hspan, rfl⟩ := Checked.capOk_eq_ok.1 hok
    rw [hkeep] at hfound
    cases hfound
    exact ⟨hspan, (Except.ok.inj h).symm⟩
  · rintro ⟨hspan, rfl⟩
    refine bind_eq_ok.2 ⟨some [group], ?_, rfl⟩
    exact bind_eq_ok.2 ⟨_, Checked.capOk_eq_ok.2 ⟨hspan, rfl⟩, hkeep _⟩

/-- The numbers of a region fit: its density is a float, and the numbers in the names of
its bins and in its content have texts. -/
structure RegionFits (cfg : RegionConfig D) (first : Seed) (rest : List Seed) : Prop where
  bins : ∀ n ∈ Checked.regionBins cfg (first :: rest), longText n = false
  density : Checked.densityRaises (D := D) first rest = false
  content : ∀ n ∈ Checked.contentNumbers first rest, longText n = false

/-- The numbers of the region of a group fit. -/
def GroupFits (cfg : RegionConfig D) : List Seed → Prop
  | [] => True
  | first :: rest => RegionFits cfg first rest

/-- The share of the lineage is a ratio. -/
theorem lineageRaises_false (hratio : RatiosFit D) (ids : List String) :
    Checked.lineageRaises (D := D) previous ids = false := by
  unfold Checked.lineageRaises
  cases bestPrevious previous ids with
  | none => rfl
  | some region =>
    refine hratio _ _ (Int.natCast_nonneg _) ?_ (by positivity)
    rw [Nat.cast_le]
    refine le_max_of_le_left (Finset.card_le_card ?_)
    exact Finset.inter_subset_left.trans Finset.subset_union_left

/-- What the checks of a region let through. -/
theorem Checked.finalize_eq_ok (hratio : RatiosFit D) {first : Seed} {rest : List Seed}
    {region : RegionState D} :
    Checked.finalize cfg hash previous first rest = .ok region ↔
      SpanFits cfg ∧ RegionFits cfg first rest ∧
        region = Regions.finalize cfg hash previous first rest := by
  unfold Checked.finalize
  dsimp only
  rw [overflow_bind_ok, span_bind_ok, texts_bind_ok, overflow_bind_ok, texts_bind_ok,
    lineageRaises_false hratio]
  constructor
  · rintro ⟨-, hspan, hbins, hdensity, hcontent, h⟩
    exact ⟨hspan, ⟨hbins, hdensity, hcontent⟩, (Except.ok.inj h).symm⟩
  · rintro ⟨hspan, hfits, rfl⟩
    exact ⟨rfl, hspan, hfits.bins, hfits.density, hfits.content, rfl⟩

theorem Checked.regionOf_eq_ok (hratio : RatiosFit D) (hne : group ≠ [])
    {region : Option (RegionState D)} :
    Checked.regionOf cfg hash previous group = .ok region ↔
      (SpanFits cfg ∧ GroupFits cfg group) ∧ region = Regions.regionOf cfg hash previous group := by
  cases group with
  | nil => exact absurd rfl hne
  | cons first rest =>
    unfold Checked.regionOf
    constructor
    · intro h
      obtain ⟨r, hr, h⟩ := bind_eq_ok.1 h
      obtain ⟨hspan, hfits, rfl⟩ := (Checked.finalize_eq_ok hratio).1 hr
      exact ⟨⟨hspan, hfits⟩, (Except.ok.inj h).symm⟩
    · rintro ⟨⟨hspan, hfits⟩, rfl⟩
      exact bind_eq_ok.2 ⟨_, (Checked.finalize_eq_ok hratio).2 ⟨hspan, hfits, rfl⟩, rfl⟩

/-- The seeds of a group. -/
def lookups (seeds : List (String × Seed)) (ids : List String) : List Seed :=
  ids.filterMap fun id => seeds.lookup id

/-- What the checks of the regions let through, where every group is kept. -/
theorem Checked.buildRegions_eq_ok (hratio : RatiosFit D)
    (hgroups : ∀ ids ∈ groups, lookups seeds ids ≠ [] ∧ Kept cfg (lookups seeds ids))
    {regions : List (RegionState D)} :
    Checked.buildRegions cfg hash previous seeds groups = .ok regions ↔
      (∀ ids ∈ groups, SpanFits cfg ∧ GroupFits cfg (lookups seeds ids)) ∧
        regions = Regions.buildRegions cfg hash previous seeds groups := by
  -- each group is one part, so the parts are the groups
  have hparts : ∀ parts, groups.mapM (fun ids => Checked.split cfg (lookups seeds ids)) =
      .ok parts ↔ (∀ ids ∈ groups, SpanFits cfg) ∧
        parts = groups.map fun ids => [lookups seeds ids] :=
    mapM_eq_ok_iff fun ids hids parts =>
      Checked.split_eq_ok (hgroups ids hids).1 (hgroups ids hids).2
  have hflatten : (groups.map fun ids => [lookups seeds ids]).flatten =
      groups.map (lookups seeds) := by
    rw [← flatMap_def]
    exact map_eq_flatMap.symm
  have hregions : ∀ out, (groups.map (lookups seeds)).mapM (Checked.regionOf cfg hash previous) =
      .ok out ↔ (∀ group ∈ groups.map (lookups seeds), SpanFits cfg ∧ GroupFits cfg group) ∧
        out = (groups.map (lookups seeds)).map (Regions.regionOf cfg hash previous) := by
    refine mapM_eq_ok_iff fun group hgroup region => ?_
    obtain ⟨ids, hids, rfl⟩ := mem_map.1 hgroup
    exact Checked.regionOf_eq_ok hratio (hgroups ids hids).1
  have hresult : Regions.buildRegions cfg hash previous seeds groups =
      (((groups.map (lookups seeds)).map
        (Regions.regionOf cfg hash previous)).reduceOption).insertionSort
          fun a b => a.regionId ≤ b.regionId := by
    have hsplit : groups.flatMap (fun ids => Regions.split cfg (lookups seeds ids)) =
        groups.map (lookups seeds) := by
      rw [map_eq_flatMap]
      exact flatMap_congr fun ids hids =>
        split_of_kept (hgroups ids hids).1 (hgroups ids hids).2
    unfold Regions.buildRegions reduceOption
    rw [filterMap_map]
    exact congrArg (fun parts => (filterMap _ parts).insertionSort _) hsplit
  unfold Checked.buildRegions
  rw [hresult]
  constructor
  · intro h
    obtain ⟨parts, hmapped, h⟩ := bind_eq_ok.1 h
    obtain ⟨out, hout, h⟩ := bind_eq_ok.1 h
    obtain ⟨-, rfl⟩ := (hparts parts).1 hmapped
    rw [hflatten] at hout
    obtain ⟨hfits, rfl⟩ := (hregions out).1 hout
    exact ⟨fun ids hids => hfits _ (mem_map_of_mem hids), (Except.ok.inj h).symm⟩
  · rintro ⟨hfits, rfl⟩
    refine bind_eq_ok.2 ⟨_, (hparts _).2 ⟨fun ids hids => (hfits ids hids).1, rfl⟩, ?_⟩
    rw [hflatten]
    refine bind_eq_ok.2 ⟨_, (hregions _).2 ⟨?_, rfl⟩, rfl⟩
    intro group hgroup
    obtain ⟨ids, hids, rfl⟩ := mem_map.1 hgroup
    exact hfits ids hids

end Regions

/-! ## The build -/

section Build

variable {D : Type} [BuilderDoubles D] {cfg : RegionConfig D} {hash : RegionHashPart → String}
  {catalog : RuleCatalog D} {violations : List ViolationRecord} {objects : List LayoutObject}
  {previous : List PreviousRegion} {seeds : List (String × Seed)}

/-- **What a build needs to return**: no window of a violation is inverted, and the numbers
of the rules, of the pairs of violations, of the span and of the regions fit. -/
structure BuildDefined (cfg : RegionConfig D) (catalog : RuleCatalog D)
    (violations : List ViolationRecord) (objects : List LayoutObject) : Prop where
  boxes : ∀ v ∈ violations, BoxesOrdered cfg catalog objects v
  influence : ∀ v ∈ violations, InfluenceFits cfg catalog v
  pairs : ∀ v ∈ lastOf violations, ∀ w ∈ lastOf violations, v.violationId ≠ w.violationId →
    PairFits cfg (haloWindow cfg catalog objects v) (haloWindow cfg catalog objects w)
  span : violations ≠ [] → SpanFits cfg
  regions : ∀ seeds, buildSeeds cfg catalog violations objects = .ok seeds →
    ∀ ids ∈ (linkGroups cfg seeds).1, GroupFits cfg (lookups seeds ids)

/-- The pairs of seeds are the pairs of last violations. -/
theorem SeedsBuilt.pairs_iff (h : SeedsBuilt cfg catalog violations objects seeds) :
    (∀ pair ∈ pairs (seeds.map (·.2)), PairFits cfg pair.1.halo.window pair.2.halo.window) ↔
      ∀ v ∈ lastOf violations, ∀ w ∈ lastOf violations, v.violationId ≠ w.violationId →
        PairFits cfg (haloWindow cfg catalog objects v) (haloWindow cfg catalog objects w) := by
  constructor
  · intro hpairs v hv w hw hne
    obtain ⟨entry, hentry, hkey, hwindow⟩ := h.seed_of_last hv
    obtain ⟨entry', hentry', hkey', hwindow'⟩ := h.seed_of_last hw
    have hdistinct : entry.2 ≠ entry'.2 := by
      intro heq
      apply hne
      rw [← hkey, ← hkey', ← h.keyed entry hentry, ← h.keyed entry' hentry', heq]
    rw [← hwindow, ← hwindow']
    have hmem : ∀ e ∈ seeds, e.2 ∈ seeds.map (·.2) := fun e he => mem_map_of_mem he
    rcases mem_pairs (hmem entry hentry) (hmem entry' hentry') hdistinct with hpair | hpair
    · exact hpairs (entry.2, entry'.2) hpair
    · exact (hpairs (entry'.2, entry.2) hpair).symm
  · intro hlast pair hpair
    obtain ⟨entry, hentry, entry', hentry', rfl, hne⟩ := pair_entries h.nodup hpair
    obtain ⟨v, hv, hkey, hwindow⟩ := h.last_of_seed hentry
    obtain ⟨w, hw, hkey', hwindow'⟩ := h.last_of_seed hentry'
    rw [hwindow, hwindow']
    refine hlast v hv w hw ?_
    rw [← hkey, ← hkey']
    exact hne

theorem SeedsBuilt.groupsOf (h : SeedsBuilt cfg catalog violations objects seeds) :
    GroupsOf seeds (linkGroups cfg seeds).1 :=
  ⟨h.nodup, linkGroups_perm seeds, fun _ => linkGroups_ne_nil⟩

theorem SeedsBuilt.kept (h : SeedsBuilt cfg catalog violations objects seeds) :
    ∀ ids ∈ (linkGroups cfg seeds).1,
      lookups seeds ids ≠ [] ∧ Kept cfg (lookups seeds ids) := by
  intro ids hids
  obtain ⟨hne, -⟩ : _ ∧ Splits cfg _ _ := h.groupsOf.splits hids
  exact ⟨hne, linkGroups_kept h.keyed h.nodup hids⟩

omit [BuilderDoubles D] in
/-- The violations that have an owner are those of the regions. -/
theorem ownership_keys (regions : List (RegionState D)) (id : String) :
    id ∈ (ownership regions).map (·.1) ↔ id ∈ regions.flatMap (·.violationIds) := by
  unfold ownership
  rw [Dicts.mem_keys_ofList, map_flatMap]
  simp only [map_map, Function.comp_def, map_id']

/-- The check at the end of the build never fails. -/
theorem SeedsBuilt.covered (h : SeedsBuilt cfg catalog violations objects seeds) :
    ((ownership (buildRegions cfg hash previous seeds (linkGroups cfg seeds).1)).map
      (·.1)).toFinset = (violations.map (·.violationId)).toFinset := by
  have hperm : ((buildRegions cfg hash previous seeds (linkGroups cfg seeds).1).flatMap
      (·.violationIds)).Perm (seeds.map (·.1)) := h.groupsOf.regions_perm h.keyed
  ext id
  rw [mem_toFinset, mem_toFinset, ownership_keys, hperm.mem_iff, h.keys]
  exact violationsById_keys id

/-- The violations of the result, where no marker was inverted. -/
theorem associateAll_returns (h : ∀ v ∈ violations, BoxesOrdered cfg catalog objects v) :
    ∃ updated, associateAll cfg violations objects = .ok updated := by
  refine mapM_returns fun v hv => ?_
  exact ⟨_, bind_eq_ok.2 ⟨_, associate_eq_ok.2 ⟨(h v hv).reach, rfl⟩, rfl⟩⟩

/-- **A build that raises nothing** is the build. -/
theorem Checked.build_refines (hratio : RatiosFit D) {result : RegionBuildResult D}
    (h : Checked.build cfg hash catalog violations objects previous = .ok result) :
    BuildDefined cfg catalog violations objects ∧
      Regions.build cfg hash catalog violations objects previous = .ok result := by
  unfold Checked.build at h
  obtain ⟨seeds, hseeds, h⟩ := bind_eq_ok.1 h
  obtain ⟨linked, hlinked, h⟩ := bind_eq_ok.1 h
  obtain ⟨regions, hregions, h⟩ := bind_eq_ok.1 h
  obtain ⟨hnumbers, hseeds⟩ := Checked.buildSeeds_eq_ok.1 hseeds
  have hbuilt := seedsBuilt_of_buildSeeds hseeds
  obtain ⟨hpairs, rfl⟩ := Checked.linkGroups_ok hratio hlinked
  obtain ⟨hfits, rfl⟩ := (Checked.buildRegions_eq_ok hratio hbuilt.kept).1 hregions
  dsimp only at h
  rw [if_neg (not_not.2 hbuilt.covered)] at h
  obtain ⟨updated, hupdated, h⟩ := bind_eq_ok.1 h
  constructor
  · refine ⟨hbuilt.ordered, fun v hv => (hnumbers v hv).2, hbuilt.pairs_iff.1 hpairs, ?_, ?_⟩
    · intro hne
      -- a first seed is in some group, whose split computes the span
      obtain ⟨entry, hentry⟩ := exists_mem_of_ne_nil seeds (hbuilt.ne_nil hne)
      have hkey : entry.1 ∈ (Regions.linkGroups cfg seeds).1.flatten :=
        (linkGroups_perm seeds).mem_iff.2 (mem_map_of_mem hentry)
      obtain ⟨ids, hids, -⟩ := mem_flatten.1 hkey
      exact (hfits ids hids).1
    · intro seeds' hseeds'
      rw [hseeds] at hseeds'
      cases hseeds'
      exact fun ids hids => (hfits ids hids).2
  · unfold Regions.build
    refine bind_eq_ok.2 ⟨seeds, hseeds, ?_⟩
    dsimp only
    rw [if_neg (not_not.2 hbuilt.covered)]
    exact bind_eq_ok.2 ⟨updated, validated_eq_ok.1 hupdated, congrArg _ (Except.ok.inj h)⟩

/-- **When a build returns.**  The build returns exactly when no window that it makes is
inverted and the numbers that it computes fit. -/
theorem build_returns_iff (hratio : RatiosFit D) :
    (∃ result, Checked.build cfg hash catalog violations objects previous = .ok result) ↔
      BuildDefined cfg catalog violations objects := by
  constructor
  · rintro ⟨result, h⟩
    exact (Checked.build_refines hratio h).1
  · intro h
    obtain ⟨seeds, hseeds⟩ := buildSeeds_returns h.boxes
    have hbuilt := seedsBuilt_of_buildSeeds hseeds
    obtain ⟨updated, hupdated⟩ := associateAll_returns h.boxes
    -- without violations no float is converted
    by_cases hnone : violations = []
    · subst hnone
      exact ⟨_, rfl⟩
    · have hspan := h.span hnone
      have hlinked : Checked.linkGroups cfg seeds = .ok (linkGroups cfg seeds) :=
        Checked.linkGroups_eq hratio hspan (hbuilt.pairs_iff.2 h.pairs)
      have hregions : Checked.buildRegions cfg hash previous seeds (linkGroups cfg seeds).1 =
          .ok (buildRegions cfg hash previous seeds (linkGroups cfg seeds).1) :=
        (Checked.buildRegions_eq_ok hratio hbuilt.kept).2
          ⟨fun ids hids => ⟨hspan, h.regions seeds hseeds ids hids⟩, rfl⟩
      have hchecked : Checked.buildSeeds cfg catalog violations objects = .ok seeds :=
        Checked.buildSeeds_eq_ok.2
          ⟨fun v hv => ⟨fun _ => hspan.1, h.influence v hv⟩, hseeds⟩
      set regions := buildRegions cfg hash previous seeds (linkGroups cfg seeds).1
      refine ⟨⟨updated, regions, (linkGroups cfg seeds).2, ownership regions⟩, ?_⟩
      unfold Checked.build
      refine bind_eq_ok.2 ⟨seeds, hchecked, bind_eq_ok.2 ⟨_, hlinked, ?_⟩⟩
      refine bind_eq_ok.2 ⟨_, hregions, ?_⟩
      rw [if_neg (not_not.2 hbuilt.covered)]
      exact bind_eq_ok.2 ⟨updated, validated_eq_ok.2 hupdated, rfl⟩

end Build

/-! ## Builds that return and builds that raise -/

/-- Rational arithmetic, where nothing is too large. -/
@[reducible] def exactBuilderDoubles : BuilderDoubles ℚ where
  __ := Candidates.exactCheckedDoubles
  ofIntRaises := fun _ => false
  truncError := fun _ => none

/-- The exception of a computation. -/
def raised {α : Type} : Except BuilderError α → Option BuilderError
  | .error e => some e
  | .ok _ => none

theorem eq_error_of_raised {α : Type} {x : Except BuilderError α} {e : BuilderError}
    (h : raised x = some e) : x = .error e := by
  cases x with
  | error e' => exact congrArg _ (Option.some.inj h)
  | ok a => cases h

theorem exists_of_not_raised {α : Type} {x : Except BuilderError α} (h : raised x = none) :
    ∃ a, x = .ok a := by
  cases x with
  | error e => cases h
  | ok a => exact ⟨a, rfl⟩

/-- Objects are looked for at twice the distance at which they are clipped. -/
def wideGapConfig : RegionConfig ℚ := { oneMarkerConfig with affinityMaxGapDbu := 8000 }

/-- A wire of five microns whose near end is one and a half microns from the origin. -/
def farWire : LayoutObject := {
  objectId := "o", kind := .path, layer := "M2", editability := .A
  bboxDbu := ⟨6000, 0, 26000, 10, by decide, by decide⟩ }

/-- The wire is associated with the violation, and what is kept of it is inverted. -/
theorem build_raises_farWire :
    @Checked.build ℚ exactBuilderDoubles wideGapConfig (fun _ => "hash")
      { fallback := { haloMultiplier := 2 } } [markerAt "a" 0] [farWire] [] =
        .error .validationError :=
  eq_error_of_raised (by decide +kernel)

/-- A build of three violations is defined. -/
theorem buildDefined_sample : @BuildDefined ℚ exactBuilderDoubles oneMarkerConfig
    { fallback := { haloMultiplier := 2 } } [markerAt "b" 6, markerAt "a" 0, markerAt "c" 90000]
    [squareAt "o" 0] := by
  refine (@build_returns_iff ℚ exactBuilderDoubles _ (fun _ => "hash") _ _ _ []
    (fun _ _ _ _ _ => rfl)).1 ?_
  have hreturns : raised (@Checked.build ℚ exactBuilderDoubles oneMarkerConfig (fun _ => "hash")
      { fallback := { haloMultiplier := 2 } } [markerAt "b" 6, markerAt "a" 0, markerAt "c" 90000]
      [squareAt "o" 0] []) = none := by
    decide +kernel
  exact exists_of_not_raised hreturns

end DRCAgent.Regions
