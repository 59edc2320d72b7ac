/-
# What a specialization reports

The before and after lists of `compile_instance_layer_specializations` against the
polygons of the source cell. A polygon of the result that the source does not have is
always reported, as its hash is not among those of the originals. A removed one is
found by comparing the polygons at the same index, and the loop runs over the
replacements: an original beyond their number is compared with nothing.

Main result:

* `diff_complete_iff`: the report is complete and the other layers are carried over
  exactly when every original without a counterpart is kept or reported elsewhere, and
  every layer of the cell is legal or replaced.
-/
import DRCAgent.SpecializationCompiler

namespace DRCAgent.EditAuthority

open List

namespace CompileContext

variable {ctx : CompileContext}

/-! ## One polygon -/

section Polygon

variable {r : InstanceLayerReplacement} {localFragment : Bool} {s s' : PolygonState}
  {entry : List Point × ℕ} {entries : List (List Point × ℕ)}

/-- What an index adds to the polygons of before. -/
def reportedAt (ctx : CompileContext) (r : InstanceLayerReplacement)
    (entry : List Point × ℕ) : List (List Point) :=
  ((ctx.changedOriginal r (canonicalPolygon entry.1) entry.2).map
    (·.map r.transform.transform)).toList

/-- **One polygon** adds its original to before where that changed, and itself to after
where its hash is not left. -/
theorem polygonStep_spec (h : ctx.polygonStep r localFragment s entry = .ok s') :
    s'.before = s.before ++ ctx.reportedAt r entry ∧
      s'.localAfter = s.localAfter ++ [canonicalPolygon entry.1] ∧
      (∀ p ∈ s.after, p ∈ s'.after) ∧
      (∀ hash ∈ s'.unchanged, hash ∈ s.unchanged) ∧
      (ctx.stableHash (canonicalPolygon entry.1) ∉ s.unchanged →
        (canonicalPolygon entry.1).map r.transform.transform ∈ s'.after) := by
  rw [polygonStep] at h
  have herase : ∀ hash ∈ s.unchanged.erase (ctx.stableHash (canonicalPolygon entry.1)),
      hash ∈ s.unchanged := fun hash hmem => mem_of_mem_erase hmem
  split_ifs at h with hinvalid hhash hadd hadd
  · obtain ⟨_, -, h⟩ := except_bind_ok h
    obtain rfl := Except.ok.inj h
    exact ⟨rfl, rfl, fun p hp => mem_append_left _ hp, herase, fun hnot => absurd hhash hnot⟩
  · obtain ⟨_, -, h⟩ := except_bind_ok h
    obtain rfl := Except.ok.inj h
    exact ⟨rfl, rfl, fun p hp => hp, herase, fun hnot => absurd hhash hnot⟩
  · exact absurd (mem_append_right _ (mem_singleton_self _)) hadd.2
  · obtain ⟨_, -, h⟩ := except_bind_ok h
    obtain rfl := Except.ok.inj h
    exact ⟨rfl, rfl, fun p hp => mem_append_left _ hp, herase,
      fun _ => mem_append_right _ (mem_singleton_self _)⟩

/-- **All polygons of a replacement.** -/
theorem foldlM_polygonStep (h : entries.foldlM (ctx.polygonStep r localFragment) s = .ok s') :
    s'.before = s.before ++ entries.flatMap (ctx.reportedAt r) ∧
      s'.localAfter = s.localAfter ++ entries.map (fun entry => canonicalPolygon entry.1) ∧
      (∀ p ∈ s.after, p ∈ s'.after) ∧
      ∀ entry ∈ entries, ctx.stableHash (canonicalPolygon entry.1) ∉ s.unchanged →
        (canonicalPolygon entry.1).map r.transform.transform ∈ s'.after := by
  induction entries generalizing s with
  | nil =>
    obtain rfl := Except.ok.inj h
    simp
  | cons entry entries ih =>
    rw [foldlM_cons] at h
    obtain ⟨middle, hfirst, hrest⟩ := except_bind_ok h
    obtain ⟨hbefore, hlocal, hafter, hunchanged, hnew⟩ := polygonStep_spec hfirst
    obtain ⟨hbefore', hlocal', hafter', hnew'⟩ := ih hrest
    refine ⟨?_, ?_, fun p hp => hafter' p (hafter p hp), fun e he hhash => ?_⟩
    · rw [hbefore', hbefore, append_assoc]
      rfl
    · rw [hlocal', hlocal, append_assoc]
      rfl
    · rcases mem_cons.1 he with rfl | he
      · exact hafter' _ (hnew hhash)
      · exact hnew' e he fun hmem => hhash (hunchanged _ hmem)

end Polygon

/-! ## One replacement -/

section Layer

variable {r : InstanceLayerReplacement} {localFragment : Bool} {s s' : GroupState}
  {group : List InstanceLayerReplacement}

/-- The polygons of a replacement, in canonical form. -/
def resultPolygons (r : InstanceLayerReplacement) : List (List Point) :=
  r.replacementPolygonsLocalDbu.map canonicalPolygon

/-- The originals of a replacement, in canonical form. -/
def originalPolygons (r : InstanceLayerReplacement) : List (List Point) :=
  r.originalPolygonsLocalDbu.map canonicalPolygon

/-- The polygons of a replacement whose hashes are compared. -/
def hashedPolygons (ctx : CompileContext) (r : InstanceLayerReplacement) : List (List Point) :=
  ctx.sourcePolygons r.sourceCell r.layer ++ (originalPolygons r ++ resultPolygons r)

/-- No two of them collide. -/
def HashesApart (ctx : CompileContext) (r : InstanceLayerReplacement) : Prop :=
  ∀ p ∈ ctx.hashedPolygons r, ∀ q ∈ ctx.hashedPolygons r,
    ctx.stableHash p = ctx.stableHash q → p = q

theorem mem_hashed_source {p : List Point} (h : p ∈ ctx.sourcePolygons r.sourceCell r.layer) :
    p ∈ ctx.hashedPolygons r := mem_append_left _ h

theorem mem_hashed_original {p : List Point} (h : p ∈ originalPolygons r) :
    p ∈ ctx.hashedPolygons r := mem_append_right _ (mem_append_left _ h)

theorem mem_hashed_result {p : List Point} (h : p ∈ resultPolygons r) :
    p ∈ ctx.hashedPolygons r := mem_append_right _ (mem_append_right _ h)

/-- Lists of polygons that do not collide have the same hashes only if they are the same. -/
theorem eq_of_map_stableHash {ps qs : List (List Point)}
    (h : ∀ p ∈ ps, ∀ q ∈ qs, ctx.stableHash p = ctx.stableHash q → p = q)
    (heq : ps.map ctx.stableHash = qs.map ctx.stableHash) : ps = qs := by
  induction ps generalizing qs with
  | nil => exact (map_eq_nil_iff.1 heq.symm).symm
  | cons p ps ih =>
    cases qs with
    | nil => cases heq
    | cons q qs =>
      obtain ⟨hfirst, hrest⟩ := cons.inj heq
      rw [h p mem_cons_self q mem_cons_self hfirst, ih (fun a ha b hb =>
          h a (mem_cons_of_mem _ ha) b (mem_cons_of_mem _ hb)) hrest]

/-- What a replacement adds to the polygons of before. -/
def reportedBefore (ctx : CompileContext) (r : InstanceLayerReplacement) : List (List Point) :=
  r.replacementPolygonsLocalDbu.zipIdx.flatMap (ctx.reportedAt r)

/-- The original and the replacement at the index differ. -/
def ChangedAt (r : InstanceLayerReplacement) (index : ℕ) (original : List Point) : Prop :=
  ∃ g replacement, r.originalPolygonsLocalDbu[index]? = some g ∧
    r.replacementPolygonsLocalDbu[index]? = some replacement ∧
    original = canonicalPolygon g ∧ canonicalPolygon g ≠ canonicalPolygon replacement

/-- **What is reported of a replacement** are its originals that change at their index. -/
theorem mem_reportedBefore (hhash : ctx.HashesApart r) {p : List Point} :
    p ∈ ctx.reportedBefore r ↔
      ∃ index original, ChangedAt r index original ∧ p = original.map r.transform.transform := by
  rw [reportedBefore, mem_flatMap]
  constructor
  · rintro ⟨⟨replacement, index⟩, hentry, hp⟩
    have hreplacement := mem_zipIdx_iff_getElem?.1 hentry
    rw [reportedAt, Option.mem_toList, Option.map_eq_some_iff] at hp
    obtain ⟨original, hchanged, rfl⟩ := hp
    rw [changedOriginal, Option.filter_eq_some_iff, Option.map_eq_some_iff] at hchanged
    obtain ⟨⟨g, hg, rfl⟩, hne⟩ := hchanged
    rw [decide_eq_true_eq] at hne
    refine ⟨index, _, ⟨g, replacement, hg, hreplacement, rfl, fun heq => hne ?_⟩, rfl⟩
    rw [heq]
  · rintro ⟨index, original, ⟨g, replacement, hg, hreplacement, rfl, hne⟩, rfl⟩
    refine ⟨(replacement, index), mem_zipIdx_iff_getElem?.2 hreplacement, ?_⟩
    rw [reportedAt, Option.mem_toList, Option.map_eq_some_iff]
    refine ⟨_, ?_, rfl⟩
    rw [changedOriginal, Option.filter_eq_some_iff, Option.map_eq_some_iff]
    refine ⟨⟨g, hg, rfl⟩, decide_eq_true fun heq => hne ?_⟩
    refine hhash _ (mem_hashed_original ?_) _ (mem_hashed_result ?_) heq
    · exact mem_map_of_mem (mem_of_getElem? hg)
    · exact mem_map_of_mem (mem_of_getElem? hreplacement)

theorem perm_byHash (polygons : List (List Point)) : (ctx.byHash polygons).Perm polygons :=
  perm_insertionSort _ _

/-- **One replacement.**  It replaces the known layer completely. -/
theorem layerStep_spec (hhash : ctx.HashesApart r)
    (h : ctx.layerStep localFragment s r = .ok s') :
    r.layer ∉ s.changedLayers.map (·.1) ∧
      (ctx.sourcePolygons r.sourceCell r.layer).Perm (originalPolygons r) ∧
      s'.before = s.before ++ ctx.reportedBefore r ∧
      s'.changedLayers = s.changedLayers ++ [(r.layer, resultPolygons r)] ∧
      s'.completeByLayer = Dicts.insert r.layer (resultPolygons r) s.completeByLayer ∧
      (∀ p ∈ s.after, p ∈ s'.after) ∧
      ∀ p ∈ resultPolygons r, p ∉ originalPolygons r →
        p.map r.transform.transform ∈ s'.after := by
  rw [layerStep] at h
  split_ifs at h with hduplicate hcomplete
  obtain ⟨polygons, hpolygons, h⟩ := except_bind_ok h
  obtain rfl := Except.ok.inj h
  obtain ⟨hbefore, hlocal, hafter, hnew⟩ := foldlM_polygonStep hpolygons
  have hresult : polygons.localAfter = resultPolygons r := by
    rw [hlocal, nil_append, resultPolygons]
    conv_rhs => rw [← zipIdx_map_fst 0 r.replacementPolygonsLocalDbu, map_map]
    rfl
  have hsame : ctx.byHash (ctx.sourcePolygons r.sourceCell r.layer) =
      ctx.byHash (originalPolygons r) := by
    refine eq_of_map_stableHash (fun p hp q hq => ?_) (not_not.1 hcomplete)
    exact hhash p (mem_hashed_source ((perm_byHash _).mem_iff.1 hp)) q
      (mem_hashed_original ((perm_byHash _).mem_iff.1 hq))
  refine ⟨hduplicate, ?_, hbefore, ?_, ?_, hafter, fun p hp hnot => ?_⟩
  · have hsource : (ctx.sourcePolygons r.sourceCell r.layer).Perm
        (ctx.byHash (ctx.sourcePolygons r.sourceCell r.layer)) := (perm_byHash _).symm
    rw [hsame] at hsource
    exact hsource.trans (perm_byHash _)
  · dsimp only
    rw [Dicts.insert_of_notMem hduplicate, hresult]
  · dsimp only
    rw [hresult]
  · obtain ⟨replacement, hreplacement, rfl⟩ := mem_map.1 hp
    obtain ⟨index, hindex⟩ := mem_iff_getElem?.1 hreplacement
    refine hnew (replacement, index) (mem_zipIdx_iff_getElem?.2 hindex) fun hmem => hnot ?_
    obtain ⟨original, horiginal, heq⟩ := mem_map.1 hmem
    have horiginal : original ∈ originalPolygons r := (perm_byHash _).mem_iff.1 horiginal
    rw [← hhash _ (mem_hashed_original horiginal) _ (mem_hashed_result hp) heq]
    exact horiginal

/-- **The replacements of a group.** -/
theorem foldlM_layerStep (hhash : ∀ r ∈ group, ctx.HashesApart r)
    (h : group.foldlM (ctx.layerStep localFragment) s = .ok s') :
    s'.before = s.before ++ group.flatMap ctx.reportedBefore ∧
      s'.changedLayers = s.changedLayers ++ group.map (fun r => (r.layer, resultPolygons r)) ∧
      (∀ p ∈ s.after, p ∈ s'.after) ∧
      (∀ r ∈ group, r.layer ∉ s.changedLayers.map (·.1)) ∧
      (∀ layer ∉ group.map (·.layer),
        s'.completeByLayer.lookup layer = s.completeByLayer.lookup layer) ∧
      ((s.completeByLayer.map (·.1)).Nodup → (s'.completeByLayer.map (·.1)).Nodup) ∧
      ∀ r ∈ group, (ctx.sourcePolygons r.sourceCell r.layer).Perm (originalPolygons r) ∧
        s'.completeByLayer.lookup r.layer = some (resultPolygons r) ∧
        ∀ p ∈ resultPolygons r, p ∉ originalPolygons r →
          p.map r.transform.transform ∈ s'.after := by
  induction group generalizing s with
  | nil =>
    obtain rfl := Except.ok.inj h
    simp
  | cons r group ih =>
    rw [foldlM_cons] at h
    obtain ⟨middle, hfirst, hrest⟩ := except_bind_ok h
    obtain ⟨hnew, hsource, hbefore, hchanged, hcomplete, hafter, hadded⟩ :=
      layerStep_spec (hhash r mem_cons_self) hfirst
    obtain ⟨hbefore', hchanged', hafter', hnew', hother', hnodup', hdone'⟩ :=
      ih (fun other hother => hhash other (mem_cons_of_mem _ hother)) hrest
    have hdistinct : r.layer ∉ group.map (·.layer) := by
      intro hmem
      obtain ⟨other, hother, heq⟩ := mem_map.1 hmem
      refine hnew' other hother ?_
      rw [hchanged, heq]
      simp
    refine ⟨?_, ?_, fun p hp => hafter' p (hafter p hp), fun other hother => ?_,
      fun layer hlayer => ?_, fun hnodup => ?_, fun other hother => ?_⟩
    · rw [hbefore', hbefore, append_assoc]
      rfl
    · rw [hchanged', hchanged, append_assoc]
      rfl
    · rcases mem_cons.1 hother with rfl | hother
      · exact hnew
      · intro hmem
        refine hnew' other hother ?_
        rw [hchanged, map_append]
        exact mem_append_left _ hmem
    · rw [map_cons, mem_cons, not_or] at hlayer
      rw [hother' layer hlayer.2, hcomplete, Dicts.lookup_insert, if_neg hlayer.1]
    · refine hnodup' ?_
      rw [hcomplete]
      exact Dicts.nodup_keys_insert hnodup
    · rcases mem_cons.1 hother with rfl | hother
      · refine ⟨hsource, ?_, fun p hp hnot => hafter' _ (hadded p hp hnot)⟩
        rw [hother' _ hdistinct, hcomplete, Dicts.lookup_insert, if_pos rfl]
      · exact hdone' other hother

end Layer

/-! ## One group -/

section Group

variable {group : List InstanceLayerReplacement} {spec : InstanceGeometrySpecialization}
  {s s' : CompileState} {entry : GroupKey × List InstanceLayerReplacement}

/-- A specialization and the group it is compiled from, beside the polygons of after. -/
structure SpecializationOf (ctx : CompileContext) (group : List InstanceLayerReplacement)
    (spec : InstanceGeometrySpecialization) (after : List (List Point)) : Prop where
  nonempty : group ≠ []
  key : ∀ r ∈ group, r.instanceAnchorId = spec.instanceAnchorId ∧
    r.parentCell = spec.parentCell ∧ r.sourceCell = spec.sourceCell ∧ r.transform = spec.transform
  replaced : ∀ layer, layer ∈ spec.replacedLayers ↔ ∃ r ∈ group, r.layer = layer
  source : ∀ r ∈ group, (ctx.sourcePolygons r.sourceCell r.layer).Perm (originalPolygons r)
  result : ∀ r ∈ group,
    (layerOf r.layer spec.completePolygonsByLayerLocalDbu).Perm (resultPolygons r)
  carried : ∀ layer ∉ spec.replacedLayers,
    (layerOf layer spec.completePolygonsByLayerLocalDbu).Perm
      (layerOf layer (ctx.legalPolygons spec.sourceCell))
  added : ∀ r ∈ group, ∀ p ∈ resultPolygons r, p ∉ originalPolygons r →
    p.map r.transform.transform ∈ after

theorem SpecializationOf.mono {after after' : List (List Point)}
    (h : SpecializationOf ctx group spec after) (hafter : ∀ p ∈ after, p ∈ after') :
    SpecializationOf ctx group spec after' :=
  { h with added := fun r hr p hp hnot => hafter _ (h.added r hr p hp hnot) }

/-- The polygons of a layer of the specialization, up to order. -/
theorem layerOf_sorted {polygons : List (String × List (List Point))}
    (hnodup : (polygons.map (·.1)).Nodup) (layer : String) :
    (layerOf layer ((polygons.insertionSort fun a b => a.1 ≤ b.1).map
      fun entry => (entry.1, ctx.byHash entry.2))).Perm (layerOf layer polygons) := by
  have hsorted := Dicts.lookup_perm hnodup
    (perm_insertionSort (fun a b : String × List (List Point) => a.1 ≤ b.1) polygons).symm layer
  rw [layerOf, Dicts.lookup_map_value, hsorted, layerOf]
  cases polygons.lookup layer with
  | none => exact Perm.refl _
  | some found => exact perm_byHash found

/-- What a step on a group runs: the group in the order of its layers, all in the mode of
the first replacement. -/
theorem groupStep_ok (hne : entry.2 ≠ []) (h : ctx.groupStep s entry = .ok s') :
    ∃ representative rest layers spec, (representative :: rest).Perm entry.2 ∧
      (∀ r ∈ representative :: rest,
        r.occurrenceLocalFragment = representative.occurrenceLocalFragment) ∧
      (representative :: rest).foldlM (ctx.layerStep representative.occurrenceLocalFragment)
          { before := s.before
            after := s.after
            completeByLayer := ctx.legalPolygons representative.sourceCell } = .ok layers ∧
      ctx.specialization entry.1 representative layers = .ok spec ∧
      s' = ⟨s.compiled ++ [spec], layers.before, layers.after⟩ := by
  have hsorted := perm_insertionSort
    (fun a b : InstanceLayerReplacement => a.layer ≤ b.layer) entry.2
  rw [groupStep] at h
  cases hgroup : entry.2.insertionSort fun a b => a.layer ≤ b.layer with
  | nil =>
    rw [hgroup] at hsorted
    exact absurd hsorted.symm.eq_nil hne
  | cons representative rest =>
    rw [hgroup] at hsorted h
    dsimp only at h
    split_ifs at h with hmixed hunbounded hfragment
    all_goals
      have hmode : ∀ r ∈ representative :: rest,
          r.occurrenceLocalFragment = representative.occurrenceLocalFragment := by
        intro r hr
        by_contra hother
        exact hmixed (any_eq_true.2 ⟨r, hr, decide_eq_true hother⟩)
      obtain ⟨layers, hlayers, h⟩ := except_bind_ok h
    · obtain ⟨_, -, h⟩ := except_bind_ok h
      obtain ⟨spec, hspec, h⟩ := except_bind_ok h
      exact ⟨representative, rest, layers, spec, hsorted, hmode, hlayers, hspec,
        (Except.ok.inj h).symm⟩
    · obtain ⟨spec, hspec, h⟩ := except_bind_ok h
      exact ⟨representative, rest, layers, spec, hsorted, hmode, hlayers, hspec,
        (Except.ok.inj h).symm⟩

/-- **One group** becomes one specialization. -/
theorem groupStep_spec (hhash : ∀ r ∈ entry.2, ctx.HashesApart r) (hne : entry.2 ≠ [])
    (hkey : ∀ r ∈ entry.2, r.groupKey = entry.1) (h : ctx.groupStep s entry = .ok s') :
    ∃ spec, s'.compiled = s.compiled ++ [spec] ∧
      (∀ p, p ∈ s'.before ↔ p ∈ s.before ∨ ∃ r ∈ entry.2, p ∈ ctx.reportedBefore r) ∧
      (∀ p ∈ s.after, p ∈ s'.after) ∧ SpecializationOf ctx entry.2 spec s'.after := by
  obtain ⟨representative, rest, layers, spec, hsorted, -, hlayers, hspec, rfl⟩ :=
    groupStep_ok hne h
  obtain ⟨hbefore, hchanged, hafter, -, hother, hnodup, hdone⟩ :=
    foldlM_layerStep (fun r hr => hhash r (hsorted.mem_iff.1 hr)) hlayers
  have hcomplete : (layers.completeByLayer.map (·.1)).Nodup :=
    hnodup (Dicts.nodup_keys_collect _)
  have hmem : ∀ r, r ∈ entry.2 ↔ r ∈ representative :: rest := fun r => hsorted.mem_iff.symm
  refine ⟨spec, rfl, fun p => ?_, hafter, ?_⟩
  · dsimp only
    rw [hbefore, mem_append, mem_flatMap]
    simp only [hmem]
  · rw [specialization] at hspec
    split_ifs at hspec
    obtain rfl := Except.ok.inj hspec
    have hreplaced : ∀ layer, layer ∈ (layers.changedLayers.map (·.1)).insertionSort (· ≤ ·) ↔
        ∃ r ∈ entry.2, r.layer = layer := by
      intro layer
      rw [mem_insertionSort, hchanged]
      simp only [nil_append, map_map, mem_map, Function.comp_apply, hmem]
    refine ⟨hne, fun r hr => ?_, hreplaced, fun r hr => ?_, fun r hr => ?_,
      fun layer hlayer => ?_, fun r hr p hp hnot => ?_⟩
    · have heq := hkey r hr
      rw [← hkey representative ((hmem _).2 mem_cons_self)] at heq
      have hanchor := congrArg GroupKey.instanceAnchorId heq
      have hparent := congrArg GroupKey.parentCell heq
      have hcell := congrArg GroupKey.sourceCell heq
      have htransform := congrArg GroupKey.transform heq
      exact ⟨hanchor, hparent, hcell, htransform⟩
    · exact (hdone r ((hmem r).1 hr)).1
    · refine (layerOf_sorted hcomplete r.layer).trans ?_
      rw [layerOf, (hdone r ((hmem r).1 hr)).2.1]
      exact Perm.refl _
    · refine (layerOf_sorted hcomplete layer).trans ?_
      have hnot : layer ∉ (representative :: rest).map (·.layer) := by
        intro hlayer'
        obtain ⟨r, hr, rfl⟩ := mem_map.1 hlayer'
        exact hlayer ((hreplaced _).2 ⟨r, (hmem r).2 hr, rfl⟩)
      rw [layerOf, hother layer hnot]
      exact Perm.refl _
    · exact (hdone r ((hmem r).1 hr)).2.2 p hp hnot

end Group

/-! ## The whole compilation -/

section Compile

variable {replacements : List InstanceLayerReplacement} {state : CompileState}
  {entries : List (GroupKey × List InstanceLayerReplacement)} {s s' : CompileState}

/-- **All groups.** -/
theorem foldlM_groupStep (hhash : ∀ entry ∈ entries, ∀ r ∈ entry.2, ctx.HashesApart r)
    (hentries : ∀ entry ∈ entries, entry.2 ≠ [] ∧ ∀ r ∈ entry.2, r.groupKey = entry.1)
    (h : entries.foldlM ctx.groupStep s = .ok s') :
    ∃ compiled, s'.compiled = s.compiled ++ compiled ∧
      (∀ p, p ∈ s'.before ↔
        p ∈ s.before ∨ ∃ entry ∈ entries, ∃ r ∈ entry.2, p ∈ ctx.reportedBefore r) ∧
      (∀ p ∈ s.after, p ∈ s'.after) ∧
      (∀ spec ∈ compiled, ∃ entry ∈ entries, SpecializationOf ctx entry.2 spec s'.after) ∧
      ∀ entry ∈ entries, ∃ spec ∈ compiled, SpecializationOf ctx entry.2 spec s'.after := by
  induction entries generalizing s with
  | nil =>
    obtain rfl := Except.ok.inj h
    exact ⟨[], by simp, by simp, fun _ hp => hp, fun _ h => (nomatch h), fun _ h => (nomatch h)⟩
  | cons entry entries ih =>
    rw [foldlM_cons] at h
    obtain ⟨middle, hfirst, hrest⟩ := except_bind_ok h
    obtain ⟨hne, hkey⟩ := hentries entry mem_cons_self
    obtain ⟨spec, hspec, hbefore, hafter, hof⟩ :=
      groupStep_spec (hhash entry mem_cons_self) hne hkey hfirst
    obtain ⟨compiled, hcompiled, hbefore', hafter', hfrom, hto⟩ :=
      ih (fun e he => hhash e (mem_cons_of_mem _ he))
        (fun e he => hentries e (mem_cons_of_mem _ he)) hrest
    refine ⟨spec :: compiled, ?_, fun p => ?_, fun p hp => hafter' p (hafter p hp),
      fun other hother => ?_, fun other hother => ?_⟩
    · rw [hcompiled, hspec, append_assoc]
      rfl
    · rw [hbefore', hbefore, or_assoc]
      simp only [mem_cons, exists_eq_or_imp]
    · rcases mem_cons.1 hother with rfl | hother
      · exact ⟨entry, mem_cons_self, hof.mono hafter'⟩
      · obtain ⟨e, he, hof'⟩ := hfrom other hother
        exact ⟨e, mem_cons_of_mem _ he, hof'⟩
    · rcases mem_cons.1 hother with rfl | hother
      · exact ⟨spec, mem_cons_self, hof.mono hafter'⟩
      · obtain ⟨found, hfound, hof'⟩ := hto other hother
        exact ⟨found, mem_cons_of_mem _ hfound, hof'⟩

/-- The groups of the replacements: one for each key that occurs. -/
theorem mem_sortedGroups (replacements : List InstanceLayerReplacement) :
    (∀ entry ∈ sortedGroups replacements, entry.2 ≠ [] ∧
        ∀ r, r ∈ entry.2 ↔ r ∈ replacements ∧ r.groupKey = entry.1) ∧
      ∀ r ∈ replacements, ∃ entry ∈ sortedGroups replacements, entry.1 = r.groupKey := by
  refine ⟨fun entry hentry => ?_, fun r hr => ?_⟩
  · have hmem := (mem_insertionSort _).1 hentry
    refine ⟨Dicts.ne_nil_of_mem_collect hmem, fun r => ?_⟩
    rw [Dicts.values_of_mem_collect hmem, filter_map, map_map]
    simp
  · have hself : r ∈ ((Dicts.collect (replacements.map fun r => (r.groupKey, r))).lookup
        r.groupKey).getD [] := by
      rw [Dicts.lookup_collect, mem_map]
      refine ⟨(r.groupKey, r), ?_, rfl⟩
      exact mem_filter.2 ⟨mem_map_of_mem hr, decide_eq_true rfl⟩
    cases hfound : (Dicts.collect (replacements.map fun r => (r.groupKey, r))).lookup
        r.groupKey with
    | none =>
      rw [hfound] at hself
      cases hself
    | some group =>
      have hgroup := Dicts.mem_of_lookup hfound
      exact ⟨(r.groupKey, group), (mem_insertionSort _).2 hgroup, rfl⟩

/-- The polygons that a layer starts from. -/
theorem layerOf_legalPolygons (ctx : CompileContext) (sourceCell layer : String) :
    layerOf layer (ctx.legalPolygons sourceCell) =
      if layer ∈ ctx.legalLayers then ctx.sourcePolygons sourceCell layer else [] := by
  rw [layerOf, legalPolygons, Dicts.lookup_collect, sourcePolygons]
  induction ctx.objects with
  | nil => simp
  | cons obj objects ih =>
    by_cases hcell : obj.sourceCell = some sourceCell
    · by_cases hlayer : obj.layer = layer
      · subst hlayer
        by_cases hlegal : obj.layer ∈ ctx.legalLayers
        · cases hgeometry : obj.geometry? with
          | none => simpa [hcell, hlegal, hgeometry] using ih
          | some geometry => simpa [hcell, hlegal, hgeometry] using ih
        · simpa [hcell, hlegal] using ih
      · by_cases hlegal : obj.layer ∈ ctx.legalLayers
        · cases hgeometry : obj.geometry? with
          | none => simpa [hcell, hlegal, hlayer, hgeometry] using ih
          | some geometry => simpa [hcell, hlegal, hlayer, hgeometry] using ih
        · simpa [hcell, hlegal, hlayer] using ih
    · simpa [hcell] using ih

/-- What the lists of before and after, and the complete layers, are to be. -/
structure DiffComplete (ctx : CompileContext) (replacements : List InstanceLayerReplacement)
    (state : CompileState) : Prop where
  /-- Every replacement is in the specialization of its occurrence. -/
  replaced : ∀ r ∈ replacements, ∃ spec ∈ state.compiled,
    spec.instanceAnchorId = r.instanceAnchorId ∧ spec.parentCell = r.parentCell ∧
      spec.sourceCell = r.sourceCell ∧ spec.transform = r.transform ∧
      r.layer ∈ spec.replacedLayers ∧
      (layerOf r.layer spec.completePolygonsByLayerLocalDbu).Perm (resultPolygons r)
  /-- A source polygon that is not in the result is reported in before. -/
  removed : ∀ spec ∈ state.compiled, ∀ layer ∈ spec.replacedLayers,
    ∀ p ∈ ctx.sourcePolygons spec.sourceCell layer,
      p ∉ layerOf layer spec.completePolygonsByLayerLocalDbu →
        p.map spec.transform.transform ∈ state.before
  /-- A polygon of the result that the source does not have is reported in after. -/
  added : ∀ spec ∈ state.compiled, ∀ layer ∈ spec.replacedLayers,
    ∀ p ∈ layerOf layer spec.completePolygonsByLayerLocalDbu,
      p ∉ ctx.sourcePolygons spec.sourceCell layer →
        p.map spec.transform.transform ∈ state.after
  /-- A layer without a replacement is carried over. -/
  carried : ∀ spec ∈ state.compiled, ∀ layer ∉ spec.replacedLayers,
    (layerOf layer spec.completePolygonsByLayerLocalDbu).Perm
      (ctx.sourcePolygons spec.sourceCell layer)

/-- An original beyond the number of the replacements is among them, or coincides in the
global frame with an original that changes at its index. -/
def RemovalsSeen (replacements : List InstanceLayerReplacement) : Prop :=
  ∀ r ∈ replacements, ∀ index g, r.replacementPolygonsLocalDbu.length ≤ index →
    r.originalPolygonsLocalDbu[index]? = some g → canonicalPolygon g ∈ resultPolygons r ∨
      ∃ r' ∈ replacements, ∃ index' original, ChangedAt r' index' original ∧
        original.map r'.transform.transform = (canonicalPolygon g).map r.transform.transform

/-- Every layer of the cell of a replacement is legal, or replaced in the occurrence. -/
def LayersLegal (ctx : CompileContext) (replacements : List InstanceLayerReplacement) : Prop :=
  ∀ r ∈ replacements, ∀ layer, ctx.sourcePolygons r.sourceCell layer ≠ [] →
    layer ∈ ctx.legalLayers ∨ ∃ r' ∈ replacements, r'.groupKey = r.groupKey ∧ r'.layer = layer

/-- What a compilation that succeeds has computed. -/
theorem compile_spec (hhash : ∀ r ∈ replacements, ctx.HashesApart r)
    (h : ctx.compileInstanceLayerSpecializations replacements = .ok state) :
    (∀ p, p ∈ state.before ↔ ∃ r ∈ replacements, p ∈ ctx.reportedBefore r) ∧
      (∀ spec ∈ state.compiled, ∃ entry ∈ sortedGroups replacements,
        SpecializationOf ctx entry.2 spec state.after) ∧
      ∀ entry ∈ sortedGroups replacements, ∃ spec ∈ state.compiled,
        SpecializationOf ctx entry.2 spec state.after := by
  obtain ⟨hentries, hcover⟩ := mem_sortedGroups replacements
  obtain ⟨compiled, hcompiled, hbefore, -, hfrom, hto⟩ := foldlM_groupStep
    (fun entry hentry r hr => hhash r (((hentries entry hentry).2 r).1 hr).1)
    (fun entry hentry => ⟨(hentries entry hentry).1,
      fun r hr => (((hentries entry hentry).2 r).1 hr).2⟩) h
  rw [nil_append] at hcompiled
  rw [hcompiled]
  refine ⟨fun p => ?_, hfrom, hto⟩
  rw [hbefore]
  constructor
  · rintro (hp | ⟨entry, hentry, r, hr, hp⟩)
    · cases hp
    · exact ⟨r, (((hentries entry hentry).2 r).1 hr).1, hp⟩
  · rintro ⟨r, hr, hp⟩
    obtain ⟨entry, hentry, hkey⟩ := hcover r hr
    exact .inr ⟨entry, hentry, r, ((hentries entry hentry).2 r).2 ⟨hr, hkey.symm⟩, hp⟩

/-- An original that is not in the result is reported, where it has a counterpart or is
seen elsewhere. -/
theorem removed_iff (hhash : ∀ r ∈ replacements, ctx.HashesApart r)
    (hbefore : ∀ p, p ∈ state.before ↔ ∃ r ∈ replacements, p ∈ ctx.reportedBefore r) :
    (∀ r ∈ replacements, ∀ p ∈ originalPolygons r, p ∉ resultPolygons r →
      p.map r.transform.transform ∈ state.before) ↔ RemovalsSeen replacements := by
  constructor
  · intro h r hr index g hindex hg
    by_cases hresult : canonicalPolygon g ∈ resultPolygons r
    · exact .inl hresult
    · have horiginal : canonicalPolygon g ∈ originalPolygons r :=
        mem_map_of_mem (mem_of_getElem? hg)
      obtain ⟨r', hr', hp⟩ := (hbefore _).1 (h r hr _ horiginal hresult)
      obtain ⟨index', original, hchanged, heq⟩ := (mem_reportedBefore (hhash r' hr')).1 hp
      exact .inr ⟨r', hr', index', original, hchanged, heq.symm⟩
  · intro h r hr p hp hresult
    obtain ⟨g, hg, rfl⟩ := mem_map.1 hp
    obtain ⟨index, hindex⟩ := mem_iff_getElem?.1 hg
    rw [hbefore]
    rcases Nat.lt_or_ge index r.replacementPolygonsLocalDbu.length with hlt | hge
    · -- the replacement at the index of the original is not the original
      have hreplacement := getElem?_eq_getElem hlt
      refine ⟨r, hr, (mem_reportedBefore (hhash r hr)).2 ⟨index, canonicalPolygon g,
        ⟨g, _, hindex, hreplacement, rfl, fun heq => hresult ?_⟩, rfl⟩⟩
      rw [heq]
      exact mem_map_of_mem (getElem_mem hlt)
    · rcases h r hr index g hge hindex with hkept | ⟨r', hr', index', original, hchanged, heq⟩
      · exact absurd hkept hresult
      · refine ⟨r', hr', (mem_reportedBefore (hhash r' hr')).2 ?_⟩
        exact ⟨index', original, hchanged, heq.symm⟩

/-- The replacement behind a layer of a specialization. -/
theorem exists_replacement (hhash : ∀ r ∈ replacements, ctx.HashesApart r)
    (h : ctx.compileInstanceLayerSpecializations replacements = .ok state)
    {spec : InstanceGeometrySpecialization} (hspec : spec ∈ state.compiled) {layer : String}
    (hlayer : layer ∈ spec.replacedLayers) :
    ∃ r ∈ replacements, r.transform = spec.transform ∧
      (ctx.sourcePolygons spec.sourceCell layer).Perm (originalPolygons r) ∧
      (layerOf layer spec.completePolygonsByLayerLocalDbu).Perm (resultPolygons r) ∧
      ∀ p ∈ resultPolygons r, p ∉ originalPolygons r →
        p.map r.transform.transform ∈ state.after := by
  obtain ⟨hentries, -⟩ := mem_sortedGroups replacements
  obtain ⟨-, hfrom, -⟩ := compile_spec hhash h
  obtain ⟨entry, hentry, hof⟩ := hfrom spec hspec
  obtain ⟨r, hr, rfl⟩ := (hof.replaced layer).1 hlayer
  obtain ⟨-, -, hcell, htransform⟩ := hof.key r hr
  refine ⟨r, (((hentries entry hentry).2 r).1 hr).1, htransform, ?_, hof.result r hr,
    hof.added r hr⟩
  rw [← hcell]
  exact hof.source r hr

/-- The specialization of a replacement. -/
theorem exists_specialization (hhash : ∀ r ∈ replacements, ctx.HashesApart r)
    (h : ctx.compileInstanceLayerSpecializations replacements = .ok state)
    {r : InstanceLayerReplacement} (hr : r ∈ replacements) :
    ∃ spec ∈ state.compiled, ∃ entry ∈ sortedGroups replacements,
      entry.1 = r.groupKey ∧ r ∈ entry.2 ∧ SpecializationOf ctx entry.2 spec state.after := by
  obtain ⟨hentries, hcover⟩ := mem_sortedGroups replacements
  obtain ⟨-, -, hto⟩ := compile_spec hhash h
  obtain ⟨entry, hentry, hkey⟩ := hcover r hr
  obtain ⟨spec, hspec, hof⟩ := hto entry hentry
  exact ⟨spec, hspec, entry, hentry, hkey, ((hentries entry hentry).2 r).2 ⟨hr, hkey.symm⟩, hof⟩

/-- **The other layers are carried over** exactly when none that is neither legal nor replaced has
a polygon. -/
theorem carried_iff (hhash : ∀ r ∈ replacements, ctx.HashesApart r)
    (h : ctx.compileInstanceLayerSpecializations replacements = .ok state) :
    (∀ spec ∈ state.compiled, ∀ layer ∉ spec.replacedLayers,
      (layerOf layer spec.completePolygonsByLayerLocalDbu).Perm
        (ctx.sourcePolygons spec.sourceCell layer)) ↔ LayersLegal ctx replacements := by
  obtain ⟨hentries, -⟩ := mem_sortedGroups replacements
  obtain ⟨-, hfrom, -⟩ := compile_spec hhash h
  constructor
  · intro hcarried r hr layer hsource
    by_contra hnone
    rw [not_or] at hnone
    obtain ⟨spec, hspec, entry, hentry, hkey, hmem, hof⟩ := exists_specialization hhash h hr
    obtain ⟨-, -, hcell, -⟩ := hof.key r hmem
    have hnot : layer ∉ spec.replacedLayers := by
      intro hreplaced
      obtain ⟨other, hother, hlayer⟩ := (hof.replaced layer).1 hreplaced
      obtain ⟨hother, hkey'⟩ := ((hentries entry hentry).2 other).1 hother
      exact hnone.2 ⟨other, hother, hkey'.trans hkey, hlayer⟩
    have hempty := (hof.carried layer hnot).symm.trans (hcarried spec hspec layer hnot)
    rw [layerOf_legalPolygons, if_neg hnone.1, ← hcell] at hempty
    exact hsource hempty.symm.eq_nil
  · intro hlegal spec hspec layer hnot
    obtain ⟨entry, hentry, hof⟩ := hfrom spec hspec
    refine (hof.carried layer hnot).trans ?_
    rw [layerOf_legalPolygons]
    split_ifs with hlegalLayer
    · exact Perm.refl _
    · by_cases hsource : ctx.sourcePolygons spec.sourceCell layer = []
      · rw [hsource]
      · -- a layer that is neither legal nor replaced has no polygon
        obtain ⟨r, hr⟩ := exists_mem_of_ne_nil _ hof.nonempty
        obtain ⟨-, -, hcell, -⟩ := hof.key r hr
        obtain ⟨hmem, hkey⟩ := ((hentries entry hentry).2 r).1 hr
        rw [← hcell] at hsource
        rcases hlegal r hmem layer hsource with hin | ⟨other, hother, hkey', hlayer'⟩
        · exact absurd hin hlegalLayer
        · refine absurd ((hof.replaced layer).2 ⟨other, ?_, hlayer'⟩) hnot
          exact ((hentries entry hentry).2 other).2 ⟨hother, hkey'.trans hkey⟩

/-- **Specializations report what they change.**  In a compilation that succeeds the lists
of before and after are complete and the other layers are carried over exactly when every
original beyond the number of the replacements is kept or seen elsewhere, and every layer
of the cell is legal or replaced. -/
theorem diff_complete_iff (hhash : ∀ r ∈ replacements, ctx.HashesApart r)
    (h : ctx.compileInstanceLayerSpecializations replacements = .ok state) :
    DiffComplete ctx replacements state ↔
      RemovalsSeen replacements ∧ LayersLegal ctx replacements := by
  obtain ⟨hbefore, -, -⟩ := compile_spec hhash h
  rw [← removed_iff hhash hbefore, ← carried_iff hhash h]
  constructor
  · intro hdiff
    refine ⟨fun r hr p hp hresult => ?_, hdiff.carried⟩
    obtain ⟨spec, hspec, entry, -, -, hmem, hof⟩ := exists_specialization hhash h hr
    obtain ⟨-, -, hcell, htransform⟩ := hof.key r hmem
    have hreplaced : r.layer ∈ spec.replacedLayers := (hof.replaced _).2 ⟨r, hmem, rfl⟩
    rw [htransform]
    refine hdiff.removed spec hspec r.layer hreplaced p ?_ fun hin => hresult ?_
    · rw [← hcell]
      exact (hof.source r hmem).mem_iff.2 hp
    · exact (hof.result r hmem).mem_iff.1 hin
  · rintro ⟨hremoved, hcarried⟩
    refine ⟨fun r hr => ?_, fun spec hspec layer hreplaced p hp hnot => ?_,
      fun spec hspec layer hreplaced p hp hnot => ?_, hcarried⟩
    · obtain ⟨spec, hspec, entry, -, -, hmem, hof⟩ := exists_specialization hhash h hr
      obtain ⟨hanchor, hparent, hcell, htransform⟩ := hof.key r hmem
      exact ⟨spec, hspec, hanchor.symm, hparent.symm, hcell.symm, htransform.symm,
        (hof.replaced _).2 ⟨r, hmem, rfl⟩, hof.result r hmem⟩
    · obtain ⟨r, hr, htransform, hsource, hresult, -⟩ := exists_replacement hhash h hspec hreplaced
      rw [← htransform]
      exact hremoved r hr p (hsource.mem_iff.1 hp) fun hin => hnot (hresult.mem_iff.2 hin)
    · obtain ⟨r, -, htransform, hsource, hresult, hadded⟩ :=
        exists_replacement hhash h hspec hreplaced
      rw [← htransform]
      exact hadded p (hresult.mem_iff.1 hp) fun hin => hnot (hsource.mem_iff.2 hin)

end Compile

/-! ## A carrier of two squares -/

/-- A square of side 2. -/
def squareAt (x : ℤ) : List Point := [⟨x, 0⟩, ⟨x + 2, 0⟩, ⟨x + 2, 2⟩, ⟨x, 2⟩]

/-- A cell with squares on one layer, and polygons hashed by their text. -/
def squaresContext (corners : List ℤ) : CompileContext where
  objects := corners.map fun x =>
    { objectId := toString x, sourceAnchorId := none, sourceVariable := none
      sourceCell := some "cell_A", layer := "M1", geometryHash := toString x
      geometryDbu := some (squareAt x) }
  legalLayers := ["M1"]
  manufacturingGridDbu := 1
  dieBoundary := none
  editHaloDbu := ⟨0, 0, 100, 100, by decide⟩
  stableHash := fun polygon =>
    String.join (polygon.map fun p => toString p.x ++ "," ++ toString p.y ++ ";")
  validatePolygon := fun _ => .ok ()
  identityDigest := fun _ _ _ => "0"

/-- Squares in place of the squares of the cell, in an occurrence that is not moved. -/
def squaresReplacement (corners result : List ℤ) : InstanceLayerReplacement where
  instanceAnchorId := "i1"
  parentCell := "cell_top"
  sourceCell := "cell_A"
  layer := "M1"
  transform := .identity
  originalPolygonsLocalDbu := corners.map squareAt
  replacementPolygonsLocalDbu := result.map squareAt

/-- The specialization of the cell. -/
def squaresSpecialization (corners result : List ℤ) : InstanceGeometrySpecialization where
  instanceAnchorId := "i1"
  parentCell := "cell_top"
  sourceCell := "cell_A"
  specializedCellName := "A_drc_agent_spec_0"
  layer := "M1"
  transform := .identity
  originalPolygonsLocalDbu := corners.map squareAt
  replacementPolygonsLocalDbu := result.map squareAt
  originalPolygonsByLayerLocalDbu := [("M1", corners.map squareAt)]
  completePolygonsByLayerLocalDbu := [("M1", result.map squareAt)]
  replacedLayers := ["M1"]
  occurrenceLocalFragment := false

/-- One square in place of two: the second is in no list. -/
theorem second_square_unreported :
    (squaresContext [0, 10]).compileInstanceLayerSpecializations
        [squaresReplacement [0, 10] [20]] =
      .ok ⟨[squaresSpecialization [0, 10] [20]], [squareAt 0], [squareAt 20]⟩ ∧
    ¬ DiffComplete (squaresContext [0, 10]) [squaresReplacement [0, 10] [20]]
      ⟨[squaresSpecialization [0, 10] [20]], [squareAt 0], [squareAt 20]⟩ := by
  refine ⟨by decide +kernel, fun hdiff => ?_⟩
  have hlost := hdiff.removed _ (mem_singleton_self _) "M1" (mem_singleton_self _)
    (squareAt 10) (by decide +kernel) (by decide +kernel)
  exact absurd hlost (by decide +kernel)

/-- The condition on three squares, of which one moves. -/
theorem diff_complete_iff_squares :
    DiffComplete (squaresContext [0, 10, 20]) [squaresReplacement [0, 10, 20] [0, 12, 20]]
      ⟨[squaresSpecialization [0, 10, 20] [0, 12, 20]], [squareAt 10], [squareAt 12]⟩ ↔
    RemovalsSeen [squaresReplacement [0, 10, 20] [0, 12, 20]] ∧
      LayersLegal (squaresContext [0, 10, 20]) [squaresReplacement [0, 10, 20] [0, 12, 20]] := by
  refine diff_complete_iff ?_ (by decide +kernel)
  intro r hr
  obtain rfl := mem_singleton.1 hr
  rw [HashesApart]
  decide +kernel

end CompileContext

end DRCAgent.EditAuthority
