/-
# The windows of a region build

The builder expands the marker of a violation, clips the long objects and expands the
seed, with numbers of the configuration that nothing bounds (`RegionConfig` in
config/loader.py). A window that comes out inverted is rejected by `Box`, and the build
raises.

* `makeSeed_eq_ok`, `associate_eq_ok`: the seeds in terms of their windows.
* `seedsBuilt_of_buildSeeds`, `buildSeeds_returns`: there are seeds exactly where no window
  is inverted.
* `boxesOrdered_of_config`: no window is inverted where
  `0 ≤ affinity_max_gap_dbu ≤ dbu_per_um` and `0 ≤ halo_max_dbu`.
-/
import DRCAgent.Failures
import DRCAgent.ObjectOrder
import DRCAgent.RegionChecks

namespace DRCAgent.Regions

open Disjoint Failures List
open Candidates.CheckedDoubles BuilderDoubles

/-! ## Checks that pass -/

section Checks

variable {α : Type} {raises : Bool} {x : Except BuilderError α} {a : α}

theorem overflow_bind_ok :
    (overflow raises >>= fun _ => x) = .ok a ↔ raises = false ∧ x = .ok a := by
  unfold overflow
  cases raises with
  | false => exact ⟨fun h => ⟨rfl, h⟩, fun h => h.2⟩
  | true => exact ⟨fun h => (nomatch h), fun h => (nomatch h.1)⟩

theorem raising_bind_ok {e : Option BuilderError} :
    (raising e >>= fun _ => x) = .ok a ↔ e = none ∧ x = .ok a := by
  cases e with
  | none => exact ⟨fun h => ⟨rfl, h⟩, fun h => h.2⟩
  | some e => exact ⟨fun h => (nomatch h), fun h => (nomatch h.1)⟩

theorem texts_bind_ok {values : List ℤ} :
    (texts values >>= fun _ => x) = .ok a ↔ (∀ n ∈ values, longText n = false) ∧ x = .ok a := by
  unfold texts
  split_ifs with hlong
  · refine ⟨fun h => (nomatch h), fun h => ?_⟩
    obtain ⟨n, hn, hlong⟩ := any_eq_true.1 hlong
    rw [h.1 n hn] at hlong
    cases hlong
  · refine ⟨fun h => ⟨?_, h⟩, fun h => h.2⟩
    intro n hn
    rw [Bool.eq_false_iff]
    intro hn'
    exact hlong (any_eq_true.2 ⟨n, hn, hn'⟩)

theorem validated_eq_ok {x : Except String α} : validated x = .ok a ↔ x = .ok a := by
  cases x with
  | ok b => exact ⟨fun h => congrArg _ (Except.ok.inj h), fun h => congrArg _ (Except.ok.inj h)⟩
  | error e => exact ⟨fun h => (nomatch h), fun h => (nomatch h)⟩

end Checks

/-! ## Windows -/

section Windows

theorem Box.make_eq_ok {x1 y1 x2 y2 : ℤ} {b : Box} :
    Box.make x1 y1 x2 y2 = .ok b ↔
      (Window.mk x1 y1 x2 y2).Ordered ∧ b.window = ⟨x1, y1, x2, y2⟩ := by
  unfold Box.make Window.Ordered
  constructor
  · intro h
    split_ifs at h with hordered
    cases h
    exact ⟨hordered, rfl⟩
  · rintro ⟨hordered, hwindow⟩
    rw [dif_pos hordered]
    cases b
    cases hwindow
    rfl

theorem Box.expand_eq_ok {b c : Box} {amount : ℤ} :
    b.expand amount = .ok c ↔ (b.window.grow amount).Ordered ∧ c.window = b.window.grow amount :=
  Box.make_eq_ok

theorem exists_box {w : Window} (h : w.Ordered) : ∃ b : Box, b.window = w :=
  ⟨⟨w.x1, w.y1, w.x2, w.y2, h⟩, rfl⟩

variable {D : Type} [Doubles D] (cfg : RegionConfig D) (v : ViolationRecord)

/-- The window that the seed takes of an object. -/
def localWindow (obj : LayoutObject) : Window :=
  let marker := v.markerBboxDbu
  if Doubles.compareInt (Doubles.mul (Doubles.ofInt cfg.dbuPerUm) cfg.seedWindowUm)
      obj.bboxDbu.extent = .lt then
    ⟨max obj.bboxDbu.x1 (marker.x1 - cfg.dbuPerUm), max obj.bboxDbu.y1 (marker.y1 - cfg.dbuPerUm),
      min obj.bboxDbu.x2 (marker.x2 + cfg.dbuPerUm), min obj.bboxDbu.y2 (marker.y2 + cfg.dbuPerUm)⟩
  else obj.bboxDbu.window

/-- The window of a seed. -/
def seedWindow (objects : List LayoutObject) : Window :=
  objects.foldl (fun w obj => w.union (localWindow cfg v obj)) v.markerBboxDbu.window

variable {cfg v} {obj : LayoutObject} {objects : List LayoutObject} {b c : Box}

theorem localBox_eq_ok :
    localBox cfg v obj = .ok b ↔
      (localWindow cfg v obj).Ordered ∧ b.window = localWindow cfg v obj := by
  unfold localBox localWindow
  dsimp only
  split_ifs
  · exact Box.make_eq_ok
  · constructor
    · intro h
      cases h
      exact ⟨obj.bboxDbu.window_ordered, rfl⟩
    · rintro ⟨-, hwindow⟩
      cases b
      cases hwindow
      rfl

/-- The loop over the objects returns where every window is ordered. -/
theorem seedLoop_eq_ok (start : Box) (c : Box) :
    (objects.foldlM (fun seed obj => do
        let window ← localBox cfg v obj
        return seed.union window) start : Except String Box) = .ok c ↔
      (∀ obj ∈ objects, (localWindow cfg v obj).Ordered) ∧
        c.window = objects.foldl (fun w obj => w.union (localWindow cfg v obj)) start.window := by
  induction objects generalizing start with
  | nil =>
    constructor
    · intro h
      cases h
      exact ⟨fun obj hobj => absurd hobj not_mem_nil, rfl⟩
    · rintro ⟨-, hwindow⟩
      cases c
      cases hwindow
      rfl
  | cons obj rest ih =>
    rw [foldlM_cons, bind_eq_ok, forall_mem_cons, foldl_cons]
    constructor
    · rintro ⟨middle, hmiddle, h⟩
      obtain ⟨window, hwindow, hmiddle⟩ := bind_eq_ok.1 hmiddle
      cases hmiddle
      obtain ⟨hordered, heq⟩ := localBox_eq_ok.1 hwindow
      obtain ⟨hrest, hc⟩ := (ih _).1 h
      rw [Box.union_window, heq] at hc
      exact ⟨⟨hordered, hrest⟩, hc⟩
    · rintro ⟨⟨hordered, hrest⟩, hc⟩
      obtain ⟨window, hwindow⟩ := exists_box hordered
      have hlocal : localBox cfg v obj = .ok window := localBox_eq_ok.2 ⟨hordered, hwindow⟩
      refine ⟨start.union window, ?_, (ih _).2 ⟨hrest, ?_⟩⟩
      · rw [hlocal]
        rfl
      · rw [Box.union_window, hwindow]
        exact hc

theorem Window.Ordered.union {w : Window} (h : w.Ordered) (other : Window) :
    (w.union other).Ordered :=
  ⟨(min_le_left _ _).trans (h.1.trans (le_max_left _ _)),
    (min_le_left _ _).trans (h.2.trans (le_max_left _ _))⟩

/-- A union of windows is ordered because the marker is. -/
theorem seedWindow_ordered (objects : List LayoutObject) : (seedWindow cfg v objects).Ordered := by
  have hloop : ∀ w : Window, w.Ordered →
      (objects.foldl (fun w obj => w.union (localWindow cfg v obj)) w).Ordered := by
    induction objects with
    | nil => exact fun w hw => hw
    | cons obj rest ih => exact fun w hw => ih _ (hw.union _)
  exact hloop _ v.markerBboxDbu.window_ordered

end Windows

/-! ## Seeds -/

section Seeds

variable {D : Type} [BuilderDoubles D] (cfg : RegionConfig D) (catalog : RuleCatalog D)
  (objects : List LayoutObject) (v : ViolationRecord)

/-- The objects that a violation is associated with. -/
def selectedObjects : List LayoutObject :=
  sortObjects (selectObjects v (objects.filter (Reaches cfg v)))

/-- The rule of a violation. -/
def ruleOf : RuleSpec D := (catalog.lookup v.ruleId).1

/-- The window of the halo of a violation. -/
def haloWindow : Window :=
  (seedWindow cfg v (selectedObjects cfg objects v)).grow (Checked.haloOf cfg (ruleOf catalog v) v)

/-- **No window of a violation is inverted**: not the marker expanded to look for objects,
where one is on a layer of the violation; not what the seed takes of an object; and not
the seed expanded by its halo. -/
structure BoxesOrdered : Prop where
  reach : (∃ obj ∈ objects, (v.layers.isEmpty || v.layers.contains obj.layer) = true) →
    (v.markerBboxDbu.window.grow cfg.affinityMaxGapDbu).Ordered
  windows : ∀ obj ∈ selectedObjects cfg objects v, (localWindow cfg v obj).Ordered
  halo : (haloWindow cfg catalog objects v).Ordered

/-- The halo that the rule asks for is a finite float. -/
def InfluenceFits : Prop :=
  trueDivRaises D (Checked.influence cfg (ruleOf catalog v)) 1000 = false ∧
    truncError (Checked.ruleHalo cfg (ruleOf catalog v)) = none

variable {cfg catalog objects v} {s : Seed}

omit [BuilderDoubles D] in
/-- The violation is associated where its marker can be expanded, if that is needed. -/
theorem associate_eq_ok {r : ViolationRecord × List LayoutObject} :
    associate cfg v objects = .ok r ↔
      ((∃ obj ∈ objects, (v.layers.isEmpty || v.layers.contains obj.layer) = true) →
        (v.markerBboxDbu.window.grow cfg.affinityMaxGapDbu).Ordered) ∧
      r = (associated v (selectObjects v (objects.filter (Reaches cfg v))),
        selectedObjects cfg objects v) := by
  unfold associate
  -- the window is expanded only if an object is on a layer of the violation
  rcases nearbyObjects_cases cfg v objects with hnearby | ⟨e, hexpand, hlayer, hnearby⟩
  · rw [hnearby]
    constructor
    · intro h
      refine ⟨?_, (Except.ok.inj h).symm⟩
      rintro ⟨obj, hobj, hlayer⟩
      unfold nearbyObjects at hnearby
      dsimp only at hnearby
      rw [if_neg] at hnearby
      · obtain ⟨reach, hreach, -⟩ := bind_eq_ok.1 hnearby
        exact (Box.expand_eq_ok.1 hreach).1
      · rw [List.isEmpty_iff]
        exact ne_nil_of_mem (mem_filter.2 ⟨hobj, hlayer⟩)
    · rintro ⟨-, rfl⟩
      rfl
  · rw [hnearby]
    constructor
    · intro h
      cases h
    · rintro ⟨hordered, -⟩
      obtain ⟨b, hb⟩ := exists_box (hordered hlayer)
      rw [Box.expand_eq_ok.2 ⟨hordered hlayer, hb⟩] at hexpand
      cases hexpand

/-- The seed of some objects, where no window of them is inverted. -/
theorem makeSeed_eq_ok {selected : List LayoutObject} :
    makeSeed cfg catalog v selected = .ok s ↔
      (∀ obj ∈ selected, (localWindow cfg v obj).Ordered) ∧
      ((seedWindow cfg v selected).grow (Checked.haloOf cfg (ruleOf catalog v) v)).Ordered ∧
      s.violation = v ∧ s.objects = selected ∧ s.seed.window = seedWindow cfg v selected ∧
      s.halo.window =
        (seedWindow cfg v selected).grow (Checked.haloOf cfg (ruleOf catalog v) v) ∧
      s.unknownRule = !(catalog.lookup v.ruleId).2 := by
  unfold makeSeed
  constructor
  · intro h
    obtain ⟨seed, hseed, h⟩ := bind_eq_ok.1 h
    obtain ⟨expanded, hexpanded, h⟩ := bind_eq_ok.1 h
    cases h
    obtain ⟨hwindows, hwindow⟩ := (seedLoop_eq_ok _ _).1 hseed
    obtain ⟨hordered, hhalo⟩ := Box.expand_eq_ok.1 hexpanded
    rw [hwindow] at hordered hhalo
    exact ⟨hwindows, hordered, rfl, rfl, hwindow, hhalo, rfl⟩
  · rintro ⟨hwindows, hordered, hviolation, hobjects, hseed, hhalo, hunknown⟩
    refine bind_eq_ok.2 ⟨s.seed, (seedLoop_eq_ok _ _).2 ⟨hwindows, hseed⟩, ?_⟩
    refine bind_eq_ok.2 ⟨s.halo, Box.expand_eq_ok.2 ?_, ?_⟩
    · rw [hseed]
      exact ⟨hordered, hhalo⟩
    · cases s
      cases hviolation
      cases hobjects
      dsimp only at hunknown
      rw [hunknown]
      rfl

/-- The seed of a violation has the window of its halo, and no window was inverted. -/
theorem seedOf_window (h : seedOf cfg catalog objects v = .ok s) :
    BoxesOrdered cfg catalog objects v ∧ s.halo.window = haloWindow cfg catalog objects v := by
  unfold seedOf at h
  obtain ⟨r, hr, h⟩ := bind_eq_ok.1 h
  obtain ⟨hreach, rfl⟩ := associate_eq_ok.1 hr
  obtain ⟨hwindows, hordered, -, -, -, hhalo, -⟩ := makeSeed_eq_ok.1 h
  exact ⟨⟨hreach, hwindows, hordered⟩, hhalo⟩

/-- Where no window is inverted there is a seed. -/
theorem BoxesOrdered.seed (h : BoxesOrdered cfg catalog objects v) :
    ∃ s, seedOf cfg catalog objects v = .ok s := by
  obtain ⟨seed, hseed⟩ : ∃ b : Box, b.window = seedWindow cfg v (selectedObjects cfg objects v) :=
    exists_box (seedWindow_ordered _)
  obtain ⟨halo, hhalo⟩ := exists_box h.halo
  refine ⟨⟨associated v (selectObjects v (objects.filter (Reaches cfg v))),
    selectedObjects cfg objects v, seed, halo, !(catalog.lookup v.ruleId).2⟩, ?_⟩
  unfold seedOf
  refine bind_eq_ok.2 ⟨_, associate_eq_ok.2 ⟨h.reach, rfl⟩, ?_⟩
  exact makeSeed_eq_ok.2 ⟨h.windows, h.halo, rfl, rfl, hseed, hhalo, rfl⟩

/-- The loop over the objects raises where one of them does. -/
theorem Checked.seedLoop_eq_ok {selected : List LayoutObject} (start c : Box) :
    (selected.foldlM (fun seed obj => do
        let window ← Checked.localBox cfg v obj
        return seed.union window) start : Except BuilderError Box) = .ok c ↔
      (selected ≠ [] → ofIntRaises D cfg.dbuPerUm = false) ∧
        (selected.foldlM (fun seed obj => do
          let window ← Regions.localBox cfg v obj
          return seed.union window) start : Except String Box) = .ok c := by
  -- the scale is converted once for each object, so not at all without one
  induction selected generalizing start with
  | nil =>
    constructor
    · intro h
      cases h
      exact ⟨fun hne => absurd rfl hne, rfl⟩
    · rintro ⟨-, h⟩
      cases h
      rfl
  | cons obj rest ih =>
    rw [foldlM_cons, foldlM_cons, bind_eq_ok, bind_eq_ok]
    constructor
    · rintro ⟨middle, hmiddle, h⟩
      obtain ⟨window, hwindow, hmiddle⟩ := bind_eq_ok.1 hmiddle
      cases hmiddle
      obtain ⟨hscale, hwindow⟩ := overflow_bind_ok.1 hwindow
      refine ⟨fun _ => hscale, start.union window, ?_, ((ih _).1 h).2⟩
      exact bind_eq_ok.2 ⟨window, validated_eq_ok.1 hwindow, rfl⟩
    · rintro ⟨hscale, middle, hmiddle, h⟩
      have hscale := hscale (cons_ne_nil obj rest)
      obtain ⟨window, hwindow, hmiddle⟩ := bind_eq_ok.1 hmiddle
      cases hmiddle
      refine ⟨start.union window, bind_eq_ok.2 ⟨window, ?_, rfl⟩, (ih _).2 ⟨fun _ => hscale, h⟩⟩
      exact overflow_bind_ok.2 ⟨hscale, validated_eq_ok.2 hwindow⟩

/-- What the checks of the seed of some objects let through. -/
theorem Checked.makeSeed_eq_ok {selected : List LayoutObject} :
    Checked.makeSeed cfg catalog v selected = .ok s ↔
      (selected ≠ [] → ofIntRaises D cfg.dbuPerUm = false) ∧ InfluenceFits cfg catalog v ∧
        Regions.makeSeed cfg catalog v selected = .ok s := by
  unfold Checked.makeSeed Regions.makeSeed
  constructor
  · intro h
    obtain ⟨seed, hseed, h⟩ := bind_eq_ok.1 h
    obtain ⟨hdivision, h⟩ := overflow_bind_ok.1 h
    obtain ⟨htrunc, h⟩ := raising_bind_ok.1 h
    obtain ⟨expanded, hexpanded, h⟩ := bind_eq_ok.1 h
    cases h
    obtain ⟨hscale, hseed⟩ := (Checked.seedLoop_eq_ok _ _).1 hseed
    refine ⟨hscale, ⟨hdivision, htrunc⟩, bind_eq_ok.2 ⟨seed, hseed, ?_⟩⟩
    exact bind_eq_ok.2 ⟨expanded, validated_eq_ok.1 hexpanded, rfl⟩
  · rintro ⟨hscale, ⟨hdivision, htrunc⟩, h⟩
    obtain ⟨seed, hseed, h⟩ := bind_eq_ok.1 h
    obtain ⟨expanded, hexpanded, h⟩ := bind_eq_ok.1 h
    cases h
    refine bind_eq_ok.2 ⟨seed, (Checked.seedLoop_eq_ok _ _).2 ⟨hscale, hseed⟩, ?_⟩
    refine overflow_bind_ok.2 ⟨hdivision, raising_bind_ok.2 ⟨htrunc, ?_⟩⟩
    exact bind_eq_ok.2 ⟨expanded, validated_eq_ok.2 hexpanded, rfl⟩

/-- What the checks of the seed of a violation let through. -/
theorem Checked.seedOf_eq_ok :
    Checked.seedOf cfg catalog objects v = .ok s ↔
      (selectedObjects cfg objects v ≠ [] → ofIntRaises D cfg.dbuPerUm = false) ∧
        InfluenceFits cfg catalog v ∧ Regions.seedOf cfg catalog objects v = .ok s := by
  unfold Checked.seedOf Regions.seedOf
  constructor
  · intro h
    obtain ⟨r, hr, h⟩ := bind_eq_ok.1 h
    rw [validated_eq_ok] at hr
    obtain ⟨-, rfl⟩ := associate_eq_ok.1 hr
    obtain ⟨hscale, hinfluence, h⟩ := Checked.makeSeed_eq_ok.1 h
    exact ⟨hscale, hinfluence, bind_eq_ok.2 ⟨_, hr, h⟩⟩
  · rintro ⟨hscale, hinfluence, h⟩
    obtain ⟨r, hr, h⟩ := bind_eq_ok.1 h
    obtain ⟨-, rfl⟩ := associate_eq_ok.1 hr
    exact bind_eq_ok.2 ⟨_, validated_eq_ok.2 hr, Checked.makeSeed_eq_ok.2 ⟨hscale, hinfluence, h⟩⟩

end Seeds

/-! ## All seeds -/

section AllSeeds

variable {D : Type} [BuilderDoubles D] {cfg : RegionConfig D} {catalog : RuleCatalog D}
  {violations : List ViolationRecord} {objects : List LayoutObject} {seeds : List (String × Seed)}

/-- The violations by their ids, in order; of those with one id the last. -/
def violationsById (violations : List ViolationRecord) : List (String × ViolationRecord) :=
  Dicts.ofList ((violations.insertionSort fun a b => a.violationId ≤ b.violationId).map fun v =>
    (v.violationId, v))

/-- The violations that have a seed of their own. -/
def lastOf (violations : List ViolationRecord) : List ViolationRecord :=
  (violationsById violations).map (·.2)

theorem violationsById_key {entry : String × ViolationRecord}
    (h : entry ∈ violationsById violations) :
    entry.1 = entry.2.violationId ∧ entry.2 ∈ violations := by
  obtain ⟨v, hv, rfl⟩ := mem_map.1 (Dicts.mem_ofList h)
  exact ⟨rfl, (mem_insertionSort _).1 hv⟩

theorem violationsById_keys (id : String) :
    id ∈ (violationsById violations).map (·.1) ↔ id ∈ violations.map (·.violationId) := by
  unfold violationsById
  rw [Dicts.mem_keys_ofList, map_map]
  exact ((perm_insertionSort _ violations).map _).mem_iff

/-- A loop for a list returns where each of its steps does. -/
theorem mapM_returns {ε α β : Type} {f : α → Except ε β} {items : List α}
    (h : ∀ a ∈ items, ∃ b, f a = .ok b) : ∃ out, items.mapM f = .ok out := by
  refine never_anything.1 (never_mapM.2 fun a ha => ?_)
  exact never_anything.2 (h a ha.mem)

/-- The seeds of a build: each is that of the last violation of its id. -/
structure SeedsBuilt (cfg : RegionConfig D) (catalog : RuleCatalog D)
    (violations : List ViolationRecord) (objects : List LayoutObject)
    (seeds : List (String × Seed)) : Prop where
  ordered : ∀ v ∈ violations, BoxesOrdered cfg catalog objects v
  seeds : List.Forall₂ (fun a b => a.1 = b.1 ∧ seedOf cfg catalog objects a.2 = .ok b.2)
    (violationsById violations) seeds

theorem seedsBuilt_of_buildSeeds (h : buildSeeds cfg catalog violations objects = .ok seeds) :
    SeedsBuilt cfg catalog violations objects seeds := by
  unfold buildSeeds at h
  obtain ⟨entries, hentries, h⟩ := bind_eq_ok.1 h
  cases h
  have hall := (forall₂_of_mapM hentries).imp (S := fun v entry =>
      v.violationId = entry.1 ∧ seedOf cfg catalog objects v = .ok entry.2) (by
    intro v entry hentry
    obtain ⟨s, hs, hentry⟩ := bind_eq_ok.1 hentry
    cases hentry
    exact ⟨rfl, hs⟩)
  constructor
  · intro v hv
    obtain ⟨entry, -, -, hs⟩ := exists_of_forall₂ hall v ((mem_insertionSort _).2 hv)
    exact (seedOf_window hs).1
  · refine Dicts.ofList_forall₂ (K := String)
      (R := fun v s => seedOf cfg catalog objects v = .ok s) ?_
    rw [forall₂_map_left_iff]
    exact hall

/-- Where no window is inverted there are seeds. -/
theorem buildSeeds_returns (h : ∀ v ∈ violations, BoxesOrdered cfg catalog objects v) :
    ∃ seeds, buildSeeds cfg catalog violations objects = .ok seeds := by
  obtain ⟨entries, hentries⟩ : ∃ entries,
      (violations.insertionSort fun a b => a.violationId ≤ b.violationId).mapM (fun v => do
        let seed ← seedOf cfg catalog objects v
        return (v.violationId, seed)) = .ok entries := by
    refine mapM_returns fun v hv => ?_
    obtain ⟨s, hs⟩ := (h v ((mem_insertionSort _).1 hv)).seed
    exact ⟨(v.violationId, s), bind_eq_ok.2 ⟨s, hs, rfl⟩⟩
  exact ⟨Dicts.ofList entries, bind_eq_ok.2 ⟨entries, hentries, rfl⟩⟩

namespace SeedsBuilt

variable (h : SeedsBuilt cfg catalog violations objects seeds)

include h

theorem keys : seeds.map (·.1) = (violationsById violations).map (·.1) :=
  map_eq_of_forall₂ (h.seeds.imp fun _ _ hentry => hentry.1.symm)

theorem nodup : (seeds.map (·.1)).Nodup := by
  rw [h.keys]
  exact Dicts.nodup_keys_ofList _

theorem keyed : Keyed seeds := by
  intro entry hentry
  obtain ⟨⟨id, v⟩, hv, hid, hseed⟩ := exists_of_forall₂ h.seeds.flip entry hentry
  obtain ⟨hkey, -⟩ := violationsById_key hv
  rw [(seedFor_of_seedOf hseed).violationId, ← hid]
  exact hkey.symm

/-- The seed of a last violation. -/
theorem seed_of_last {v : ViolationRecord} (hv : v ∈ lastOf violations) :
    ∃ entry ∈ seeds, entry.1 = v.violationId ∧
      entry.2.halo.window = haloWindow cfg catalog objects v := by
  obtain ⟨⟨id, v⟩, hentry, rfl⟩ := mem_map.1 hv
  obtain ⟨entry, hmem, hid, hseed⟩ := exists_of_forall₂ h.seeds _ hentry
  obtain ⟨hkey, -⟩ := violationsById_key hentry
  exact ⟨entry, hmem, hid.symm.trans hkey, (seedOf_window hseed).2⟩

/-- The last violation of a seed. -/
theorem last_of_seed {entry : String × Seed} (hentry : entry ∈ seeds) :
    ∃ v ∈ lastOf violations, entry.1 = v.violationId ∧
      entry.2.halo.window = haloWindow cfg catalog objects v := by
  obtain ⟨⟨id, v⟩, hmem, hid, hseed⟩ := exists_of_forall₂ h.seeds.flip entry hentry
  obtain ⟨hkey, -⟩ := violationsById_key hmem
  exact ⟨v, mem_map_of_mem hmem, hid.symm.trans hkey, (seedOf_window hseed).2⟩

/-- There are seeds where there are violations. -/
theorem ne_nil (hne : violations ≠ []) : seeds ≠ [] := by
  rintro rfl
  obtain ⟨v, hv⟩ := exists_mem_of_ne_nil violations hne
  have hkey := (violationsById_keys v.violationId).2 (mem_map_of_mem hv)
  rw [← h.keys] at hkey
  cases hkey

end SeedsBuilt

/-- A loop for a list whose steps are those of another loop, after a check. -/
theorem mapM_checked {ε ε' α β : Type} {f : α → Except ε β} {f' : α → Except ε' β} {P : α → Prop}
    (hstep : ∀ a b, f' a = .ok b ↔ P a ∧ f a = .ok b) (items : List α) (out : List β) :
    items.mapM f' = .ok out ↔ (∀ a ∈ items, P a) ∧ items.mapM f = .ok out := by
  induction items generalizing out with
  | nil =>
    rw [mapM_nil, mapM_nil]
    constructor
    · intro h
      cases h
      exact ⟨fun a ha => absurd ha not_mem_nil, rfl⟩
    · rintro ⟨-, h⟩
      cases h
      rfl
  | cons a rest ih =>
    rw [mapM_cons, mapM_cons, bind_eq_ok, bind_eq_ok, forall_mem_cons]
    constructor
    · rintro ⟨b, hb, h⟩
      obtain ⟨bs, hbs, h⟩ := bind_eq_ok.1 h
      cases h
      obtain ⟨hfine, hb⟩ := (hstep a b).1 hb
      obtain ⟨hall, hbs⟩ := (ih bs).1 hbs
      exact ⟨⟨hfine, hall⟩, b, hb, bind_eq_ok.2 ⟨bs, hbs, rfl⟩⟩
    · rintro ⟨⟨hfine, hall⟩, b, hb, h⟩
      obtain ⟨bs, hbs, h⟩ := bind_eq_ok.1 h
      cases h
      exact ⟨b, (hstep a b).2 ⟨hfine, hb⟩, bind_eq_ok.2 ⟨bs, (ih bs).2 ⟨hall, hbs⟩, rfl⟩⟩

/-- What the checks of the seeds let through. -/
theorem Checked.buildSeeds_eq_ok :
    Checked.buildSeeds cfg catalog violations objects = .ok seeds ↔
      (∀ v ∈ violations, (selectedObjects cfg objects v ≠ [] → ofIntRaises D cfg.dbuPerUm = false) ∧
          InfluenceFits cfg catalog v) ∧
        Regions.buildSeeds cfg catalog violations objects = .ok seeds := by
  have hstep : ∀ (v : ViolationRecord) (entry : String × Seed),
      (do
        let seed ← Checked.seedOf cfg catalog objects v
        return (v.violationId, seed) : Except BuilderError (String × Seed)) = .ok entry ↔
      ((selectedObjects cfg objects v ≠ [] → ofIntRaises D cfg.dbuPerUm = false) ∧
          InfluenceFits cfg catalog v) ∧
        (do
          let seed ← Regions.seedOf cfg catalog objects v
          return (v.violationId, seed) : Except String (String × Seed)) = .ok entry := by
    intro v entry
    rw [bind_eq_ok, bind_eq_ok]
    constructor
    · rintro ⟨s, hs, h⟩
      cases h
      obtain ⟨hscale, hinfluence, hs⟩ := Checked.seedOf_eq_ok.1 hs
      exact ⟨⟨hscale, hinfluence⟩, s, hs, rfl⟩
    · rintro ⟨⟨hscale, hinfluence⟩, s, hs, h⟩
      cases h
      exact ⟨s, Checked.seedOf_eq_ok.2 ⟨hscale, hinfluence, hs⟩, rfl⟩
  have hsorted : ∀ v, v ∈ violations.insertionSort (fun a b => a.violationId ≤ b.violationId) ↔
      v ∈ violations := fun v => mem_insertionSort _
  unfold Checked.buildSeeds Regions.buildSeeds
  rw [bind_eq_ok, bind_eq_ok]
  constructor
  · rintro ⟨entries, hentries, h⟩
    cases h
    obtain ⟨hall, hentries⟩ := (mapM_checked hstep _ _).1 hentries
    exact ⟨fun v hv => hall v ((hsorted v).2 hv), entries, hentries, rfl⟩
  · rintro ⟨hall, entries, hentries, h⟩
    cases h
    have hloop := (mapM_checked hstep _ _).2 ⟨fun v hv => hall v ((hsorted v).1 hv), hentries⟩
    exact ⟨entries, hloop, rfl⟩

end AllSeeds

/-! ## Configurations -/

section Configurations

variable {D : Type} [BuilderDoubles D] {cfg : RegionConfig D} {catalog : RuleCatalog D}
  {objects : List LayoutObject} {v : ViolationRecord} {obj : LayoutObject}

theorem Window.Ordered.grow {w : Window} (h : w.Ordered) {amount : ℤ} (hamount : 0 ≤ amount) :
    (w.grow amount).Ordered := by
  obtain ⟨hx, hy⟩ := h
  constructor
  · show w.x1 - amount ≤ w.x2 + amount
    omega
  · show w.y1 - amount ≤ w.y2 + amount
    omega

omit [BuilderDoubles D] in
/-- A selected object is within the gap of the marker. -/
theorem near_of_selected (h : obj ∈ selectedObjects cfg objects v) :
    obj.bboxDbu.x1 ≤ v.markerBboxDbu.x2 + cfg.affinityMaxGapDbu ∧
      v.markerBboxDbu.x1 - cfg.affinityMaxGapDbu ≤ obj.bboxDbu.x2 ∧
        obj.bboxDbu.y1 ≤ v.markerBboxDbu.y2 + cfg.affinityMaxGapDbu ∧
          v.markerBboxDbu.y1 - cfg.affinityMaxGapDbu ≤ obj.bboxDbu.y2 := by
  have hmem := (sortObjects_perm _).mem_iff.1 h
  have hreaches := (mem_filter.1 ((selectObjects_sublist _ _).subset hmem)).2
  unfold Reaches at hreaches
  rw [Bool.and_eq_true] at hreaches
  obtain ⟨-, hreach⟩ := hreaches
  cases hexpand : v.markerBboxDbu.expand cfg.affinityMaxGapDbu with
  | error e =>
    rw [hexpand] at hreach
    cases hreach
  | ok reach =>
    rw [hexpand] at hreach
    obtain ⟨hx1, hy1, hx2, hy2⟩ := Box.make_ok hexpand
    simp only [Box.intersects, Bool.not_eq_true', Bool.or_eq_false_iff, decide_eq_false_iff_not,
      not_lt, hx1, hy1, hx2, hy2] at hreach
    obtain ⟨⟨⟨h1, h2⟩, h3⟩, h4⟩ := hreach
    exact ⟨h1, h2, h3, h4⟩

/-- **Where the objects that are looked for lie within the window that is kept of them**,
and the halo is not negative, no window is inverted. -/
theorem boxesOrdered_of_config (hgap : 0 ≤ cfg.affinityMaxGapDbu)
    (hwindow : cfg.affinityMaxGapDbu ≤ cfg.dbuPerUm) (hhalo : 0 ≤ cfg.haloMaxDbu) :
    BoxesOrdered cfg catalog objects v := by
  obtain ⟨hmx, hmy⟩ := v.markerBboxDbu.ordered
  refine ⟨fun _ => v.markerBboxDbu.window_ordered.grow hgap, fun obj hobj => ?_, ?_⟩
  · obtain ⟨hx1, hx2, hy1, hy2⟩ := near_of_selected hobj
    obtain ⟨hox, hoy⟩ := obj.bboxDbu.ordered
    unfold localWindow
    dsimp only
    split_ifs
    · constructor
      · refine max_le (le_min hox ?_) (le_min ?_ ?_) <;> omega
      · refine max_le (le_min hoy ?_) (le_min ?_ ?_) <;> omega
    · exact obj.bboxDbu.window_ordered
  · refine (seedWindow_ordered _).grow (le_min (le_max_of_le_left (le_max_of_le_right ?_)) hhalo)
    have hwidth : 0 ≤ v.markerBboxDbu.width := sub_nonneg.2 v.markerBboxDbu.ordered.1
    exact Int.ediv_nonneg (le_max_of_le_left hwidth) (by decide)

end Configurations

end DRCAgent.Regions
