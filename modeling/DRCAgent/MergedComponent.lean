/-
# The merged component of contact seeds

`_closed_same_layer_component` of `repair_kernel_closure/edit_authority/proposals.py` is a
capped closure by passes: of the seeds, under overlap with the geometries of their layer.

Main result:
* `closedSameLayerComponent_spec`: nothing is returned exactly when the closure has more
  than `max_members` members; otherwise the closure is returned in id order, whatever the
  order of the inputs
-/
import DRCAgent.CappedClosure
import DRCAgent.ClosedCarriers

namespace DRCAgent.EditAuthority

open CappedClosure List Regions

/-! ## The component -/

/-- A seed, or a geometry that is reached from one: each step goes to a geometry of the
same layer with a positive overlap. -/
def InComponent (seeds physical : List PhysicalGeometry) (item : PhysicalGeometry) : Prop :=
  ∃ seed ∈ seeds, Relation.ReflTransGen (fun a b => b ∈ physical ∧ b.layer = a.layer ∧
    positiveAreaOverlap a.bboxDbu b.bboxDbu = true) seed item

/-- A component depends on its members only, not on their order. -/
theorem InComponent.congr {seeds seeds' physical physical' : List PhysicalGeometry}
    (hseeds : ∀ x, x ∈ seeds ↔ x ∈ seeds') (hphysical : ∀ x, x ∈ physical ↔ x ∈ physical') :
    InComponent seeds physical = InComponent seeds' physical' := by
  funext item
  simp only [InComponent, hseeds, hphysical]

theorem positiveAreaOverlap_comm (a b : Box) :
    positiveAreaOverlap a b = positiveAreaOverlap b a := by
  simp only [positiveAreaOverlap, max_comm, min_comm]

/-! ## Entries of the dictionaries -/

/-- The entry of a geometry. -/
def idEntry (item : PhysicalGeometry) : String × PhysicalGeometry := (item.geometryId, item)

theorem idEntry_injective : Function.Injective idEntry := fun _ _ h => congrArg Prod.snd h

/-- Two entries overlap. -/
def entriesOverlap (candidate member : String × PhysicalGeometry) : Bool :=
  positiveAreaOverlap candidate.2.bboxDbu member.2.bboxDbu

/-- The loop closes the seeds under overlap. -/
theorem growComponent_eq_close (maxMembers : ℕ)
    (candidates : List (String × PhysicalGeometry)) (n : ℕ)
    (selected : List (String × PhysicalGeometry)) :
    growComponent maxMembers candidates n selected =
      close Prod.fst entriesOverlap maxMembers candidates n selected := by
  induction n generalizing selected with
  | zero => rfl
  | succ n ih =>
    rw [growComponent, close]
    have hpass : growPass maxMembers candidates selected =
        pass Prod.fst entriesOverlap maxMembers candidates selected := rfl
    rw [hpass]
    congr 1
    funext next
    rw [ih]

theorem map_fst_idEntry (items : List PhysicalGeometry) :
    (items.map idEntry).map Prod.fst = items.map (·.geometryId) := by
  rw [map_map]
  rfl

section Layer

variable {seeds physical : List PhysicalGeometry} {layer : String}

/-- The dictionary of items with distinct ids has each of them. -/
theorem ofList_idEntry {items : List PhysicalGeometry} (h : (items.map (·.geometryId)).Nodup) :
    Dicts.ofList (items.map idEntry) = items.map idEntry := by
  refine Dicts.ofList_of_nodup ?_
  rw [map_fst_idEntry]
  exact h

theorem layerCandidates_perm (h : (physical.map (·.geometryId)).Nodup) :
    (layerCandidates layer physical).Perm
      ((physical.filter fun item => item.layer = layer).map idEntry) := by
  have hnodup : ((physical.filter fun item => item.layer = layer).map (·.geometryId)).Nodup :=
    (filter_sublist.map _).nodup h
  rw [layerCandidates]
  show (Dicts.sortedItems (Dicts.ofList (List.map idEntry _))).Perm _
  rw [ofList_idEntry hnodup]
  exact Dicts.sortedItems_perm _

/-- The candidates are the items of the layer. -/
theorem mem_layerCandidates (h : (physical.map (·.geometryId)).Nodup)
    {e : String × PhysicalGeometry} :
    e ∈ layerCandidates layer physical ↔
      e.2 ∈ physical ∧ e.2.layer = layer ∧ idEntry e.2 = e := by
  rw [(layerCandidates_perm h).mem_iff, mem_map]
  constructor
  · rintro ⟨item, hitem, rfl⟩
    obtain ⟨hmem, hlayer⟩ := mem_filter.1 hitem
    exact ⟨hmem, of_decide_eq_true hlayer, rfl⟩
  · rintro ⟨hmem, hlayer, hentry⟩
    exact ⟨e.2, mem_filter.2 ⟨hmem, decide_eq_true hlayer⟩, hentry⟩

/-- The closure of the entries is the component of the geometries. -/
theorem reached_iff (hphysical : (physical.map (·.geometryId)).Nodup)
    (hlayer : ∀ seed ∈ seeds, seed.layer = layer) {e : String × PhysicalGeometry} :
    Reached entriesOverlap (layerCandidates layer physical) (seeds.map idEntry) e ↔
      ∃ item, InComponent seeds physical item ∧ idEntry item = e := by
  constructor
  · rintro ⟨s, hs, hpath⟩
    obtain ⟨seed, hseed, rfl⟩ := mem_map.1 hs
    -- along the path every entry belongs to a geometry of the layer
    have hall : ∃ item, idEntry item = e ∧ item.layer = layer ∧
        Relation.ReflTransGen (fun a b => b ∈ physical ∧ b.layer = a.layer ∧
          positiveAreaOverlap a.bboxDbu b.bboxDbu = true) seed item := by
      induction hpath with
      | refl => exact ⟨seed, rfl, hlayer seed hseed, .refl⟩
      | @tail a b _ hstep ih =>
        obtain ⟨item, rfl, hitem, hpath⟩ := ih
        obtain ⟨hmem, hoverlap⟩ := hstep
        obtain ⟨hb, hblayer, hentry⟩ := (mem_layerCandidates hphysical).1 hmem
        refine ⟨b.2, hentry, hblayer, hpath.tail ⟨hb, hblayer.trans hitem.symm, ?_⟩⟩
        rw [positiveAreaOverlap_comm]
        exact hoverlap
    obtain ⟨item, hentry, -, hpath⟩ := hall
    exact ⟨item, ⟨seed, hseed, hpath⟩, hentry⟩
  · rintro ⟨item, ⟨seed, hseed, hpath⟩, rfl⟩
    have hall : item.layer = layer ∧ Relation.ReflTransGen
        (fun a b => b ∈ layerCandidates layer physical ∧ entriesOverlap b a = true)
        (idEntry seed) (idEntry item) := by
      induction hpath with
      | refl => exact ⟨hlayer seed hseed, .refl⟩
      | @tail a b _ hstep ih =>
        obtain ⟨hmem, hsame, hoverlap⟩ := hstep
        have hblayer : b.layer = layer := hsame.trans ih.1
        refine ⟨hblayer, ih.2.tail ⟨?_, ?_⟩⟩
        · exact (mem_layerCandidates hphysical).2 ⟨hmem, hblayer, rfl⟩
        · rw [entriesOverlap, positiveAreaOverlap_comm]
          exact hoverlap
    exact ⟨idEntry seed, mem_map_of_mem hseed, hall.2⟩

/-- As many are reached as the component has members. -/
theorem ncard_reached (hphysical : (physical.map (·.geometryId)).Nodup)
    (hlayer : ∀ seed ∈ seeds, seed.layer = layer) :
    {e | Reached entriesOverlap (layerCandidates layer physical) (seeds.map idEntry) e}.ncard =
      {item | InComponent seeds physical item}.ncard := by
  rw [← Set.ncard_image_of_injective _ idEntry_injective]
  congr 1
  ext e
  exact reached_iff hphysical hlayer

end Layer

/-! ## What the function returns -/

/-- What a call of `_closed_same_layer_component` is given: distinct seeds of one layer, no
more than the cap, among geometries with distinct ids. -/
structure ComponentCall (seeds physical : List PhysicalGeometry) (maxMembers : ℕ) : Prop where
  seeds_ne_nil : seeds ≠ []
  seeds_le : seeds.length ≤ maxMembers
  one_layer : ∀ a ∈ seeds, ∀ b ∈ seeds, a.layer = b.layer
  seed_ids : (seeds.map (·.geometryId)).Nodup
  ids : (physical.map (·.geometryId)).Nodup
  seed_geometry : ∀ seed ∈ seeds, ∀ item ∈ physical,
    seed.geometryId = item.geometryId → seed = item

section Result

variable {seeds physical : List PhysicalGeometry} {maxMembers : ℕ}

/-- The call is a closure, sorted. -/
theorem ComponentCall.eq_map (h : ComponentCall seeds physical maxMembers)
    {seed : PhysicalGeometry} (hseed : seed ∈ seeds) :
    closedSameLayerComponent seeds physical maxMembers =
      (close Prod.fst entriesOverlap maxMembers (layerCandidates seed.layer physical)
        ((layerCandidates seed.layer physical).length + 1) (seeds.map idEntry)).map
          fun component => (Dicts.sortedItems component).map (·.2) := by
  cases seeds with
  | nil => exact absurd rfl h.seeds_ne_nil
  | cons first rest =>
    have hone : (first :: rest).any (fun item => item.layer ≠ first.layer) = false := by
      rw [any_eq_false]
      intro item hitem
      rw [h.one_layer item hitem first mem_cons_self]
      simp
    have hlayer : seed.layer = first.layer := h.one_layer seed hseed first mem_cons_self
    rw [closedSameLayerComponent, if_neg (by rw [hone]; exact Bool.false_ne_true), hlayer,
      ← growComponent_eq_close]
    show (growComponent _ _ _ (Dicts.ofList (List.map idEntry _))).map _ = _
    rw [ofList_idEntry h.seed_ids]

/-- Among the seeds and the candidates, the id determines the entry. -/
theorem ComponentCall.entry_eq (h : ComponentCall seeds physical maxMembers) {layer : String} :
    ∀ a ∈ seeds.map idEntry ++ layerCandidates layer physical,
      ∀ b ∈ seeds.map idEntry ++ layerCandidates layer physical, a.1 = b.1 → a = b := by
  have hentry : ∀ e ∈ seeds.map idEntry ++ layerCandidates layer physical,
      idEntry e.2 = e ∧ (e.2 ∈ seeds ∨ e.2 ∈ physical) := by
    intro e he
    rcases mem_append.1 he with he | he
    · obtain ⟨item, hitem, rfl⟩ := mem_map.1 he
      exact ⟨rfl, .inl hitem⟩
    · obtain ⟨hmem, -, hentry⟩ := (mem_layerCandidates h.ids).1 he
      exact ⟨hentry, .inr hmem⟩
  intro a ha b hb hab
  obtain ⟨ha, hamem⟩ := hentry a ha
  obtain ⟨hb, hbmem⟩ := hentry b hb
  have hid : a.2.geometryId = b.2.geometryId := by
    rw [← ha, ← hb] at hab
    exact hab
  have hsame : a.2 = b.2 := by
    rcases hamem with hamem | hamem
    · rcases hbmem with hbmem | hbmem
      · exact inj_on_of_nodup_map h.seed_ids hamem hbmem hid
      · exact h.seed_geometry _ hamem _ hbmem hid
    · rcases hbmem with hbmem | hbmem
      · exact (h.seed_geometry _ hbmem _ hamem hid.symm).symm
      · exact inj_on_of_nodup_map h.ids hamem hbmem hid
  rw [← ha, ← hb, hsame]

/-- The result, for one call. -/
theorem ComponentCall.result (h : ComponentCall seeds physical maxMembers) :
    (closedSameLayerComponent seeds physical maxMembers = none ↔
      maxMembers < {item | InComponent seeds physical item}.ncard) ∧
    ∀ component, closedSameLayerComponent seeds physical maxMembers = some component →
      component.Pairwise (fun a b => a.geometryId < b.geometryId) ∧
        ∀ item, item ∈ component ↔ InComponent seeds physical item := by
  obtain ⟨seed, hseed⟩ := exists_mem_of_ne_nil seeds h.seeds_ne_nil
  have hlayer : ∀ s ∈ seeds, s.layer = seed.layer := fun s hs => h.one_layer s hs seed hseed
  have hlength : (seeds.map idEntry).length ≤ maxMembers := by
    rw [length_map]
    exact h.seeds_le
  have hids : ((seeds.map idEntry).map Prod.fst).Nodup := by
    rw [map_fst_idEntry]
    exact h.seed_ids
  obtain ⟨hnone, hsome⟩ := @close_spec _ _ _ Prod.fst entriesOverlap maxMembers
    (layerCandidates seed.layer physical) (seeds.map idEntry) _ (Nat.lt_succ_self _) hlength hids
    h.entry_eq
  rw [h.eq_map hseed, Option.map_eq_none_iff, hnone, ncard_reached h.ids hlayer]
  refine ⟨Iff.rfl, fun component hcomponent => ?_⟩
  obtain ⟨entries, hclose, rfl⟩ := Option.map_eq_some_iff.1 hcomponent
  obtain ⟨hnodup, hmem⟩ := hsome entries hclose
  have hperm := Dicts.sortedItems_perm entries
  have hentry : ∀ e ∈ Dicts.sortedItems entries, idEntry e.2 = e := by
    intro e he
    obtain ⟨item, -, rfl⟩ := (reached_iff h.ids hlayer).1 ((hmem e).1 (hperm.mem_iff.1 he))
    rfl
  constructor
  · rw [pairwise_map]
    refine (Dicts.strict_sortedItems hnodup).imp_of_mem fun {a b} ha hb hab => ?_
    rw [← hentry a ha, ← hentry b hb] at hab
    exact hab
  · intro item
    rw [mem_map]
    constructor
    · rintro ⟨e, he, rfl⟩
      obtain ⟨item, hitem, rfl⟩ := (reached_iff h.ids hlayer).1 ((hmem e).1 (hperm.mem_iff.1 he))
      exact hitem
    · intro hitem
      exact ⟨idEntry item, hperm.mem_iff.2 ((hmem _).2
        ((reached_iff h.ids hlayer).2 ⟨item, hitem, rfl⟩)), rfl⟩

/-- The order of the arguments does not matter for a call. -/
theorem ComponentCall.perm (h : ComponentCall seeds physical maxMembers)
    {seeds' physical' : List PhysicalGeometry} (hseeds : seeds.Perm seeds')
    (hphysical : physical.Perm physical') : ComponentCall seeds' physical' maxMembers where
  seeds_ne_nil hnil := h.seeds_ne_nil (Perm.eq_nil (hnil ▸ hseeds))
  seeds_le := hseeds.length_eq ▸ h.seeds_le
  one_layer a ha b hb := h.one_layer a (hseeds.mem_iff.2 ha) b (hseeds.mem_iff.2 hb)
  seed_ids := (hseeds.map _).nodup_iff.1 h.seed_ids
  ids := (hphysical.map _).nodup_iff.1 h.ids
  seed_geometry seed hseed item hitem :=
    h.seed_geometry seed (hseeds.mem_iff.2 hseed) item (hphysical.mem_iff.2 hitem)

/-- **The merged component.**  The passes end; nothing is returned exactly when the closure
of the seeds under overlap is larger than the cap, and otherwise the closure in id order,
whatever the order of the inputs. -/
theorem closedSameLayerComponent_spec (h : ComponentCall seeds physical maxMembers) :
    (closedSameLayerComponent seeds physical maxMembers = none ↔
      maxMembers < {item | InComponent seeds physical item}.ncard) ∧
    (∀ component, closedSameLayerComponent seeds physical maxMembers = some component →
      component.Pairwise (fun a b => a.geometryId < b.geometryId) ∧
        ∀ item, item ∈ component ↔ InComponent seeds physical item) ∧
    (∀ seeds' physical', seeds.Perm seeds' → physical.Perm physical' →
      closedSameLayerComponent seeds' physical' maxMembers =
        closedSameLayerComponent seeds physical maxMembers) ∧
    ∀ seed ∈ seeds, ∀ n, (layerCandidates seed.layer physical).length < n →
      growComponent maxMembers (layerCandidates seed.layer physical) n (seeds.map idEntry) =
        growComponent maxMembers (layerCandidates seed.layer physical) (n + 1)
          (seeds.map idEntry) := by
  refine ⟨h.result.1, h.result.2, fun seeds' physical' hseeds hphysical => ?_,
    fun seed _ n hn => ?_⟩
  · obtain ⟨hnone', hsome'⟩ := (h.perm hseeds hphysical).result
    obtain ⟨hnone, hsome⟩ := h.result
    have hsame : InComponent seeds' physical' = InComponent seeds physical :=
      InComponent.congr (fun _ => hseeds.symm.mem_iff) (fun _ => hphysical.symm.mem_iff)
    rw [hsame] at hnone' hsome'
    cases hresult : closedSameLayerComponent seeds physical maxMembers with
    | none => exact hnone'.2 (hnone.1 hresult)
    | some component =>
      obtain ⟨hsorted, hmem⟩ := hsome component hresult
      cases hresult' : closedSameLayerComponent seeds' physical' maxMembers with
      | none => exact absurd (hnone.2 (hnone'.1 hresult')) (by rw [hresult]; simp)
      | some component' =>
        obtain ⟨hsorted', hmem'⟩ := hsome' component' hresult'
        -- sorted lists with the same members are the same
        have hnodup : ∀ {l : List PhysicalGeometry},
            l.Pairwise (fun a b => a.geometryId < b.geometryId) → l.Nodup :=
          fun hl => hl.imp fun hlt heq => absurd (heq ▸ hlt) (lt_irrefl _)
        have hperm : component'.Perm component :=
          (perm_ext_iff_of_nodup (hnodup hsorted') (hnodup hsorted)).2
            fun item => (hmem' item).trans (hmem item).symm
        congr 1
        exact hperm.eq_of_pairwise (fun a b _ _ hab hba => absurd hba hab.not_gt) hsorted' hsorted
  · rw [growComponent_eq_close, growComponent_eq_close]
    refine close_stable n (Grown.refl (by rw [map_fst_idEntry]; exact h.seed_ids)) ?_
    rw [length_map]
    omega

end Result

/-! ## Two shapes that touch and one apart -/

/-- A metal shape over a box of the first quadrant. -/
def metalShape (geometryId : String) (x1 x2 : ℕ) : PhysicalGeometry where
  geometryId := geometryId
  sourceObjectId := none
  sourceCell := none
  instanceAnchorId := none
  layer := "M1"
  polygonDbu := []
  bboxDbu := ⟨x1, 0, x1 + x2, 10, by omega⟩

theorem closedSameLayerComponent_spec_chain :
    ∃ component, closedSameLayerComponent [metalShape "a" 0 10]
        [metalShape "c" 40 10, metalShape "b" 5 10, metalShape "a" 0 10] 2 = some component ∧
      component.length = 2 ∧
      component.Pairwise fun a b => a.geometryId < b.geometryId := by
  have hcall : ComponentCall [metalShape "a" 0 10]
      [metalShape "c" 40 10, metalShape "b" 5 10, metalShape "a" 0 10] 2 :=
    ⟨by decide, by decide, by decide, by decide, by decide, by decide⟩
  have hresult : closedSameLayerComponent [metalShape "a" 0 10]
      [metalShape "c" 40 10, metalShape "b" 5 10, metalShape "a" 0 10] 2 =
        some [metalShape "a" 0 10, metalShape "b" 5 10] := by decide +kernel
  exact ⟨_, hresult, rfl, ((closedSameLayerComponent_spec hcall).2.1 _ hresult).1⟩

end DRCAgent.EditAuthority
