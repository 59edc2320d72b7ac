/-
# Degenerate polygons in a specialization

`compile_instance_layer_specializations` hands every polygon of a whole carrier to
`validate_polygon`. A polygon of a local fragment is compared with the original at its
index instead: its number of vertices, the halo and the die are checked, and its area is
not.

Main result:
* `nondegenerate_iff`: in a compilation that succeeds, every polygon written has four
  vertices and an area exactly when every new polygon of a local fragment has an area
-/
import DRCAgent.CanonicalForm
import DRCAgent.Failures
import DRCAgent.SpecializationDiff

namespace DRCAgent.EditAuthority

open List

namespace CompileContext

variable {ctx : CompileContext}

/-! ## What is checked of a polygon -/

/-- What the code checks of a replacement polygon. -/
structure Checked (ctx : CompileContext) (r : InstanceLayerReplacement) (localFragment : Bool)
    (polygon : List Point) : Prop where
  vertices : 4 ≤ (canonicalPolygon polygon).length
  validated : localFragment = false →
    ctx.validatePolygon ((canonicalPolygon polygon).map r.transform.transform) = .ok ()

theorem polygonStep_checked {r : InstanceLayerReplacement} {localFragment : Bool}
    {s s' : PolygonState} {entry : List Point × ℕ}
    (h : ctx.polygonStep r localFragment s entry = .ok s') :
    Checked ctx r localFragment entry.1 := by
  rw [polygonStep] at h
  by_cases hinvalid : (canonicalPolygon entry.1).length < 4 ∨
      ((canonicalPolygon entry.1).any fun p =>
        p.x % ctx.manufacturingGridDbu ≠ 0 || p.y % ctx.manufacturingGridDbu ≠ 0) = true
  · simp only [if_pos hinvalid] at h
    cases h
  · simp only [if_neg hinvalid] at h
    obtain ⟨_, hcheck, -⟩ := except_bind_ok h
    refine ⟨not_lt.1 fun hshort => hinvalid (.inl hshort), fun hwhole => ?_⟩
    rw [hwhole] at hcheck
    exact hcheck

theorem layerStep_checked {r : InstanceLayerReplacement} {localFragment : Bool}
    {s s' : GroupState} (h : ctx.layerStep localFragment s r = .ok s') :
    ∀ polygon ∈ r.replacementPolygonsLocalDbu, Checked ctx r localFragment polygon := by
  rw [layerStep] at h
  split_ifs at h
  obtain ⟨polygons, hpolygons, -⟩ := except_bind_ok h
  intro polygon hpolygon
  obtain ⟨index, hindex⟩ := mem_iff_getElem?.1 hpolygon
  exact Failures.foldlM_forall (P := fun entry => Checked ctx r localFragment entry.1)
    (fun _ _ _ hstep => polygonStep_checked hstep) hpolygons (polygon, index)
      (mem_zipIdx_iff_getElem?.2 hindex)

/-! ## The polygons that are written -/

/-- A replacement polygon of the specialization: of its own layer, or of a replaced one. -/
def Written (spec : InstanceGeometrySpecialization) (p : List Point) : Prop :=
  p ∈ spec.replacementPolygonsLocalDbu ∨
    ∃ layer ∈ spec.replacedLayers, p ∈ layerOf layer spec.completePolygonsByLayerLocalDbu

/-- The replacements of a group, all in one mode, and what is written of them. -/
structure WrittenFrom (ctx : CompileContext) (group : List InstanceLayerReplacement)
    (spec : InstanceGeometrySpecialization) : Prop where
  checked : ∀ r ∈ group, ∀ polygon ∈ r.replacementPolygonsLocalDbu,
    Checked ctx r r.occurrenceLocalFragment polygon
  replacement : ∃ r ∈ group, spec.replacementPolygonsLocalDbu = resultPolygons r

theorem groupStep_written {s s' : CompileState}
    {entry : GroupKey × List InstanceLayerReplacement}
    (hhash : ∀ r ∈ entry.2, ctx.HashesApart r) (hne : entry.2 ≠ [])
    (h : ctx.groupStep s entry = .ok s') :
    ∃ spec, s'.compiled = s.compiled ++ [spec] ∧ WrittenFrom ctx entry.2 spec := by
  obtain ⟨representative, rest, layers, spec, hsorted, hmode, hlayers, hspec, rfl⟩ :=
    groupStep_ok hne h
  refine ⟨spec, rfl, fun r hr polygon hpolygon => ?_, representative,
    hsorted.mem_iff.1 mem_cons_self, ?_⟩
  · have hr' := hsorted.mem_iff.2 hr
    rw [hmode r hr']
    refine Failures.foldlM_forall (P := fun r => ∀ polygon ∈ r.replacementPolygonsLocalDbu,
      Checked ctx r representative.occurrenceLocalFragment polygon)
      (fun _ _ _ hstep => layerStep_checked hstep) hlayers r hr' polygon hpolygon
  · obtain ⟨-, hchanged, -⟩ :=
      foldlM_layerStep (fun r hr => hhash r (hsorted.mem_iff.1 hr)) hlayers
    rw [specialization] at hspec
    split_ifs at hspec
    obtain rfl := Except.ok.inj hspec
    show layerOf representative.layer layers.changedLayers = _
    rw [hchanged, layerOf, nil_append, map_cons, lookup_cons_self]
    rfl

/-! ## The whole compilation -/

section Compile

variable {replacements : List InstanceLayerReplacement} {state : CompileState}

theorem foldlM_groupStep_written {entries : List (GroupKey × List InstanceLayerReplacement)}
    {s s' : CompileState} (hhash : ∀ entry ∈ entries, ∀ r ∈ entry.2, ctx.HashesApart r)
    (hne : ∀ entry ∈ entries, entry.2 ≠ [])
    (h : entries.foldlM ctx.groupStep s = .ok s') :
    (∀ entry ∈ entries, ∀ r ∈ entry.2, ∀ polygon ∈ r.replacementPolygonsLocalDbu,
      Checked ctx r r.occurrenceLocalFragment polygon) ∧
    ∀ spec ∈ s'.compiled, spec ∈ s.compiled ∨
      ∃ entry ∈ entries, ∃ r ∈ entry.2, spec.replacementPolygonsLocalDbu = resultPolygons r := by
  induction entries generalizing s with
  | nil =>
    obtain rfl := Except.ok.inj h
    exact ⟨fun _ hentry => absurd hentry not_mem_nil, fun spec hspec => .inl hspec⟩
  | cons entry entries ih =>
    rw [foldlM_cons] at h
    obtain ⟨middle, hfirst, hrest⟩ := except_bind_ok h
    obtain ⟨spec, hspec, hwritten⟩ := groupStep_written (hhash entry mem_cons_self)
      (hne entry mem_cons_self) hfirst
    obtain ⟨hchecked, hfrom⟩ := ih (fun e he => hhash e (mem_cons_of_mem _ he))
      (fun e he => hne e (mem_cons_of_mem _ he)) hrest
    refine ⟨forall_mem_cons.2 ⟨hwritten.checked, hchecked⟩, fun other hother => ?_⟩
    rcases hfrom other hother with hother | ⟨e, he, hr⟩
    · rw [hspec] at hother
      rcases mem_append.1 hother with hother | hother
      · exact .inl hother
      · rw [mem_singleton.1 hother]
        exact .inr ⟨entry, mem_cons_self, hwritten.replacement⟩
    · exact .inr ⟨e, mem_cons_of_mem _ he, hr⟩

/-- What a compilation that succeeds has checked, and what it has written. -/
theorem compile_written (hhash : ∀ r ∈ replacements, ctx.HashesApart r)
    (h : ctx.compileInstanceLayerSpecializations replacements = .ok state) :
    (∀ r ∈ replacements, ∀ polygon ∈ r.replacementPolygonsLocalDbu,
      Checked ctx r r.occurrenceLocalFragment polygon) ∧
    (∀ spec ∈ state.compiled, ∀ p, Written spec p → ∃ r ∈ replacements, p ∈ resultPolygons r) ∧
    ∀ r ∈ replacements, ∃ spec ∈ state.compiled, ∀ p ∈ resultPolygons r, Written spec p := by
  obtain ⟨hentries, hcover⟩ := mem_sortedGroups replacements
  obtain ⟨hchecked, hfrom⟩ := foldlM_groupStep_written
    (fun entry hentry r hr => hhash r (((hentries entry hentry).2 r).1 hr).1)
    (fun entry hentry => (hentries entry hentry).1) h
  refine ⟨fun r hr => ?_, fun spec hspec p hp => ?_, fun r hr => ?_⟩
  · obtain ⟨entry, hentry, hkey⟩ := hcover r hr
    exact hchecked entry hentry r (((hentries entry hentry).2 r).2 ⟨hr, hkey.symm⟩)
  · rcases hp with hp | ⟨layer, hlayer, hp⟩
    · rcases hfrom spec hspec with hnone | ⟨entry, hentry, r, hr, hsame⟩
      · exact absurd hnone not_mem_nil
      · rw [hsame] at hp
        exact ⟨r, (((hentries entry hentry).2 r).1 hr).1, hp⟩
    · obtain ⟨r, hr, -, -, hresult, -⟩ := exists_replacement hhash h hspec hlayer
      exact ⟨r, hr, hresult.mem_iff.1 hp⟩
  · obtain ⟨spec, hspec, entry, -, -, hmem, hof⟩ := exists_specialization hhash h hr
    refine ⟨spec, hspec, fun p hp => .inr ⟨r.layer, (hof.replaced _).2 ⟨r, hmem, rfl⟩, ?_⟩⟩
    exact (hof.result r hmem).mem_iff.2 hp

/-- The originals of a replacement are polygons of the source cell. -/
theorem original_mem_source (hhash : ∀ r ∈ replacements, ctx.HashesApart r)
    (h : ctx.compileInstanceLayerSpecializations replacements = .ok state)
    {r : InstanceLayerReplacement} (hr : r ∈ replacements) {p : List Point}
    (hp : p ∈ originalPolygons r) :
    ∃ obj ∈ ctx.objects, ∃ geometry, obj.geometry? = some geometry ∧
      p = canonicalPolygon geometry := by
  obtain ⟨spec, -, entry, -, -, hmem, hof⟩ := exists_specialization hhash h hr
  have hsource := (hof.source r hmem).mem_iff.2 hp
  obtain ⟨obj, hobj, hmap⟩ := mem_filterMap.1 hsource
  obtain ⟨geometry, hgeometry, rfl⟩ := Option.map_eq_some_iff.1 hmap
  exact ⟨obj, mem_of_mem_filter hobj, geometry, hgeometry, rfl⟩

/-- **Degenerate polygons in a specialization.**  Where `validate_polygon` rejects what has
no area and the cell holds no polygon without one, every polygon written has four vertices
and an area exactly when every polygon of a local fragment that is not an original has an
area. -/
theorem nondegenerate_iff (hhash : ∀ r ∈ replacements, ctx.HashesApart r)
    (hvalidate : ∀ p, ctx.validatePolygon p = .ok () → area2 p ≠ 0)
    (hcell : ∀ obj ∈ ctx.objects, ∀ geometry, obj.geometry? = some geometry → area2 geometry ≠ 0)
    (h : ctx.compileInstanceLayerSpecializations replacements = .ok state) :
    (∀ spec ∈ state.compiled, ∀ p, Written spec p → 4 ≤ p.length ∧ area2 p ≠ 0) ↔
      ∀ r ∈ replacements, r.occurrenceLocalFragment = true →
        ∀ polygon ∈ r.replacementPolygonsLocalDbu,
          canonicalPolygon polygon ∉ originalPolygons r → area2 polygon ≠ 0 := by
  obtain ⟨hchecked, hfrom, hto⟩ := compile_written hhash h
  constructor
  · intro hwritten r hr _ polygon hpolygon _
    obtain ⟨spec, hspec, hall⟩ := hto r hr
    have harea := (hwritten spec hspec _ (hall _ (mem_map_of_mem hpolygon))).2
    exact area2_canonicalPolygon_ne_zero.1 harea
  · intro hfragments spec hspec p hp
    obtain ⟨r, hr, hresult⟩ := hfrom spec hspec p hp
    obtain ⟨polygon, hpolygon, rfl⟩ := mem_map.1 hresult
    have hcheck := hchecked r hr polygon hpolygon
    refine ⟨hcheck.vertices, ?_⟩
    cases hmode : r.occurrenceLocalFragment with
    | false =>
      -- the whole carrier is validated in the global frame
      obtain ⟨σ, hσ, harea⟩ := r.transform.rigid_transform.area
      have hglobal := hvalidate _ (hcheck.validated hmode)
      rw [harea] at hglobal
      exact right_ne_zero_of_mul hglobal
    | true =>
      by_cases horiginal : canonicalPolygon polygon ∈ originalPolygons r
      · obtain ⟨obj, hobj, geometry, hgeometry, heq⟩ := original_mem_source hhash h hr horiginal
        rw [heq]
        exact area2_canonicalPolygon_ne_zero.2 (hcell obj hobj geometry hgeometry)
      · exact area2_canonicalPolygon_ne_zero.2
          (hfragments r hr hmode polygon hpolygon horiginal)

end Compile

/-! ## A square that is folded flat -/

/-- A fragment with a polygon in place of the square of the cell. -/
def squareFragment (polygon : List Point) : InstanceLayerReplacement :=
  { squaresReplacement [0] [] with
    replacementPolygonsLocalDbu := [polygon]
    occurrenceLocalFragment := true }

/-- The cell with one square, where polygons without an area are rejected. -/
def strictContext : CompileContext :=
  { squaresContext [0] with
    validatePolygon := fun polygon =>
      if area2 polygon = 0 then .error ⟨"DEGENERATE_POLYGON", "no area"⟩ else .ok () }

/-- Four vertices on a line. -/
def flatPolygon : List Point := [⟨0, 0⟩, ⟨1, 0⟩, ⟨2, 0⟩, ⟨1, 0⟩]

/-- A square with a lower top. -/
def lowSquare : List Point := [⟨0, 0⟩, ⟨2, 0⟩, ⟨2, 1⟩, ⟨0, 1⟩]

/-- The specialization of the cell by the fragment. -/
def fragmentSpecialization (polygon : List Point) : InstanceGeometrySpecialization :=
  { squaresSpecialization [0] [] with
    replacementPolygonsLocalDbu := [polygon]
    completePolygonsByLayerLocalDbu := [("M1", [polygon])]
    occurrenceLocalFragment := true }

/-- The folded square is written, and `validate_polygon` would have rejected it. -/
theorem flat_fragment_written :
    strictContext.compileInstanceLayerSpecializations [squareFragment flatPolygon] =
      .ok ⟨[fragmentSpecialization flatPolygon], [squareAt 0], [flatPolygon]⟩ ∧
    Written (fragmentSpecialization flatPolygon) flatPolygon ∧ area2 flatPolygon = 0 ∧
    strictContext.validatePolygon flatPolygon = .error ⟨"DEGENERATE_POLYGON", "no area"⟩ := by
  refine ⟨by decide +kernel, .inl ?_, by decide, by decide +kernel⟩
  exact mem_singleton_self _

/-- The condition on a fragment that keeps an area. -/
theorem nondegenerate_iff_low :
    (∀ spec ∈ [fragmentSpecialization lowSquare], ∀ p, Written spec p →
      4 ≤ p.length ∧ area2 p ≠ 0) ↔
    ∀ r ∈ [squareFragment lowSquare], r.occurrenceLocalFragment = true →
      ∀ polygon ∈ r.replacementPolygonsLocalDbu,
        canonicalPolygon polygon ∉ originalPolygons r → area2 polygon ≠ 0 := by
  have hcompile : strictContext.compileInstanceLayerSpecializations [squareFragment lowSquare] =
      .ok ⟨[fragmentSpecialization lowSquare], [squareAt 0], [lowSquare]⟩ := by decide +kernel
  refine nondegenerate_iff ?_ ?_ ?_ hcompile
  · intro r hr
    obtain rfl := mem_singleton.1 hr
    rw [HashesApart]
    decide +kernel
  · intro p hp harea
    rw [strictContext] at hp
    simp only [if_pos harea] at hp
    cases hp
  · intro obj hobj geometry hgeometry
    obtain ⟨x, hx, rfl⟩ := mem_map.1 hobj
    obtain rfl := mem_singleton.1 hx
    obtain rfl := Option.some.inj hgeometry
    decide

end CompileContext

end DRCAgent.EditAuthority
