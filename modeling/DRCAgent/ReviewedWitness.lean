/-
# The witness of a reviewed via rule

`_current_reviewed_witness`, `_target_via`, `_local_physical` and `_inside`
(src/drc_agent/repair_kernel_multistep_repair/current_context.py): the via at a marker, the
metals of each layer that meet it, whether it lies inside them, and by how much.

What the via is compared with is one box around all the metals of a layer, so a via may count
as inside where they leave a part of it open. `currentReviewedWitness_sound_iff` says when
what a witness reports is so.
-/
import DRCAgent.RectangleCovers
import DRCAgent.RegionBuilder
import Mathlib.Algebra.Order.Archimedean.Real.Basic

namespace DRCAgent.Reviewed

open Regions (Box ViolationRecord)
open List RectangleCovers

/-! ## The source -/

/-- `FlattenedPhysicalGeometry`: what is read of it. -/
structure FlattenedPhysicalGeometry where
  geometryId : String
  sourceAnchorId : Option String
  instanceAnchorId : Option String
  layer : String
  bboxDbu : Box
  deriving DecidableEq

structure CurrentRulePredicate where
  predicateId : String
  relationType : String
  involvedLayers : List String
  deckLines : List ℤ

inductive SemanticFidelity
  | exact | reviewed | approximate | unavailable
  deriving DecidableEq

/-- `measurements[f"{layer}_enclosure"]` -/
structure Enclosure where
  left : ℤ
  right : ℤ
  bottom : ℤ
  top : ℤ

structure CurrentRuleWitness where
  witnessId : String
  violationId : String
  ruleId : String
  predicateId : String
  relationType : String
  participatingPhysicalGeometryIds : List String
  sourceAnchorIds : List String
  instanceAnchorIds : List String
  physicalGeometries : List FlattenedPhysicalGeometry
  currentMeasurements : List (String × Enclosure)
  reviewedDeckLines : List ℤ
  /-- `relation_details["inside_by_layer"]`, where it is there. -/
  insideByLayer : Option (List (String × Bool))
  fidelity : SemanticFidelity
  unresolvedReasons : List String

/-- `_inside` -/
def inside (inner outer : Box) : Bool :=
  (outer.x1 ≤ inner.x1 && inner.x2 ≤ outer.x2) && (outer.y1 ≤ inner.y1 && inner.y2 ≤ outer.y2)

/-- `marker_bbox_dbu.expand(256)` -/
def halo (marker : Box) : Box where
  x1 := marker.x1 - 256
  y1 := marker.y1 - 256
  x2 := marker.x2 + 256
  y2 := marker.y2 + 256
  ordered := by
    have h := marker.ordered
    omega

/-- `_local_physical` -/
def localPhysical (violation : ViolationRecord) (physical : List FlattenedPhysicalGeometry)
    (layers : List String) : List FlattenedPhysicalGeometry :=
  (physical.filter fun item =>
    item.layer ∈ layers && item.bboxDbu.intersects (halo violation.markerBboxDbu)).insertionSort
      fun a b => a.geometryId ≤ b.geometryId

/-- The item overlaps the marker, or has its box. -/
def meetsMarker (violation : ViolationRecord) (item : FlattenedPhysicalGeometry) : Bool :=
  0 < item.bboxDbu.intersectionArea violation.markerBboxDbu ||
    item.bboxDbu = violation.markerBboxDbu

/-- The key of the choice between vias: the overlap, the larger first, and the id. -/
def ViaKey : Type := ℤ ×ₗ String

instance : LinearOrder ViaKey := inferInstanceAs (LinearOrder (ℤ ×ₗ String))

def viaKey (violation : ViolationRecord) (item : FlattenedPhysicalGeometry) : ViaKey :=
  toLex (-item.bboxDbu.intersectionArea violation.markerBboxDbu, item.geometryId)

/-- `_target_via` -/
def targetVia (violation : ViolationRecord) (found : List FlattenedPhysicalGeometry)
    (viaLayer : String) : Option FlattenedPhysicalGeometry × List String :=
  let vias := found.filter fun item => item.layer = viaLayer
  let hits := vias.filter fun item => meetsMarker violation item
  let reasons := if hits.length ≠ 1 then [s!"CURRENT_VIA_MULTIPLICITY_{hits.length}"] else []
  let via := (if hits = [] then vias else hits).argmin (viaKey violation)
  (via, reasons ++ if via = none then ["CURRENT_VIA_UNAVAILABLE"] else [])

/-- The box around the boxes. -/
def boundingBox (first : Box) (rest : List Box) : Box := rest.foldl Box.union first

/-- What is gathered for the layers: the metals, the reasons, whether the via is inside, and
the measurements. -/
structure Gathered where
  selected : List FlattenedPhysicalGeometry
  reasons : List String
  insideByLayer : List (String × Bool)
  measurements : List (String × Enclosure)

/-- The metals of a layer that meet the via. -/
def metalsAt (found : List FlattenedPhysicalGeometry) (via : FlattenedPhysicalGeometry)
    (layer : String) : List FlattenedPhysicalGeometry :=
  found.filter fun item => item.layer = layer && item.bboxDbu.intersects via.bboxDbu

/-- How far a box reaches over another one on each side. -/
def enclosureOf (via union : Box) : Enclosure where
  left := via.x1 - union.x1
  right := union.x2 - via.x2
  bottom := via.y1 - union.y1
  top := union.y2 - via.y2

/-- The turn of a layer. -/
def gatherLayer (found : List FlattenedPhysicalGeometry) (via : FlattenedPhysicalGeometry)
    (gathered : Gathered) (layer : String) : Gathered :=
  let metals := metalsAt found via layer
  let gathered := { gathered with selected := gathered.selected ++ metals }
  match metals with
  | [] => { gathered with
      reasons := gathered.reasons ++ [s!"CURRENT_{layer}_CONTRIBUTOR_UNAVAILABLE"]
      insideByLayer := gathered.insideByLayer ++ [(layer, false)] }
  | first :: rest =>
    let union := boundingBox first.bboxDbu (rest.map FlattenedPhysicalGeometry.bboxDbu)
    { gathered with
      insideByLayer := gathered.insideByLayer ++ [(layer, inside via.bboxDbu union)]
      measurements := gathered.measurements ++
        [(layer ++ "_enclosure", enclosureOf via.bboxDbu union)] }

/-- `metal_layers` -/
def metalLayers (ruleId : String) : List String :=
  if ruleId = "V3.AUX.1" then ["M3", "M4"] else ["M3"]

/-- What is selected for a violation, with the reasons, and what is reported of the metals. -/
def gather (violation : ViolationRecord) (found : List FlattenedPhysicalGeometry) :
    Gathered × Option (List (String × Bool)) :=
  if violation.ruleId = "V3.AUX.1" ∨ violation.ruleId = "V3.M3.EN.1" then
    let (via, reasons) := targetVia violation found "V3"
    match via with
    | none => (⟨[], reasons, [], []⟩, none)
    | some via =>
      let gathered := (metalLayers violation.ruleId).foldl (gatherLayer found via)
        ⟨[via], reasons, [], []⟩
      (gathered, some gathered.insideByLayer)
  else (⟨found, [], [], []⟩, none)

/-- The anchors that are neither missing nor empty. -/
def anchors (ids : List (Option String)) : List String :=
  sortedSet ((ids.filterMap id).filter fun id => id ≠ "")

/-- `_current_reviewed_witness`; `witnessHash` stands for the id of a violation, a predicate,
the selected geometries and the measurements. -/
def currentReviewedWitness
    (witnessHash : String → String → List String → List (String × Enclosure) → String)
    (violation : ViolationRecord) (predicate : CurrentRulePredicate)
    (physical : List FlattenedPhysicalGeometry) : CurrentRuleWitness :=
  let (gathered, insideByLayer) :=
    gather violation (localPhysical violation physical predicate.involvedLayers)
  let selected := gathered.selected
  { witnessId := witnessHash violation.violationId predicate.predicateId
      (selected.map FlattenedPhysicalGeometry.geometryId) gathered.measurements
    violationId := violation.violationId
    ruleId := violation.ruleId
    predicateId := predicate.predicateId
    relationType := predicate.relationType
    participatingPhysicalGeometryIds := selected.map FlattenedPhysicalGeometry.geometryId
    sourceAnchorIds := anchors (selected.map FlattenedPhysicalGeometry.sourceAnchorId)
    instanceAnchorIds := anchors (selected.map FlattenedPhysicalGeometry.instanceAnchorId)
    physicalGeometries := selected
    currentMeasurements := gathered.measurements
    reviewedDeckLines := predicate.deckLines
    insideByLayer
    fidelity := if selected ≠ [] ∧ gathered.reasons = [] then .reviewed
      else if selected ≠ [] then .approximate else .unavailable
    unresolvedReasons := gathered.reasons }

/-! ## What is gathered -/

section Gather

variable {violation : ViolationRecord} {found : List FlattenedPhysicalGeometry}
  {via : FlattenedPhysicalGeometry} {layer : String} {layers : List String}

/-- The box around the metals of a layer, where there are any. -/
def unionAt (found : List FlattenedPhysicalGeometry) (via : FlattenedPhysicalGeometry)
    (layer : String) : Option Box :=
  match metalsAt found via layer with
  | [] => none
  | first :: rest =>
    some (boundingBox first.bboxDbu (rest.map FlattenedPhysicalGeometry.bboxDbu))

/-- What is reported of a layer. -/
def insideAt (found : List FlattenedPhysicalGeometry) (via : FlattenedPhysicalGeometry)
    (layer : String) : Bool :=
  (unionAt found via layer).any (inside via.bboxDbu)

def measurementAt (found : List FlattenedPhysicalGeometry) (via : FlattenedPhysicalGeometry)
    (layer : String) : List (String × Enclosure) :=
  ((unionAt found via layer).map fun union =>
    (layer ++ "_enclosure", enclosureOf via.bboxDbu union)).toList

theorem gatherLayer_spec (found : List FlattenedPhysicalGeometry)
    (via : FlattenedPhysicalGeometry) (gathered : Gathered) (layer : String) :
    (gatherLayer found via gathered layer).selected =
        gathered.selected ++ metalsAt found via layer ∧
      (gatherLayer found via gathered layer).insideByLayer =
        gathered.insideByLayer ++ [(layer, insideAt found via layer)] ∧
      (gatherLayer found via gathered layer).measurements =
        gathered.measurements ++ measurementAt found via layer ∧
      ∃ reasons, (gatherLayer found via gathered layer).reasons =
        gathered.reasons ++ reasons := by
  rw [gatherLayer, insideAt, measurementAt, unionAt]
  cases metalsAt found via layer with
  | nil => exact ⟨rfl, rfl, (append_nil _).symm, _, rfl⟩
  | cons first rest => exact ⟨rfl, rfl, rfl, [], (append_nil _).symm⟩

/-- **What is gathered** for the layers, one after the other. -/
theorem gatherLayers_spec (gathered : Gathered) :
    (layers.foldl (gatherLayer found via) gathered).selected =
        gathered.selected ++ layers.flatMap (metalsAt found via) ∧
      (layers.foldl (gatherLayer found via) gathered).insideByLayer =
        gathered.insideByLayer ++ layers.map (fun layer => (layer, insideAt found via layer)) ∧
      (layers.foldl (gatherLayer found via) gathered).measurements =
        gathered.measurements ++ layers.flatMap (measurementAt found via) ∧
      ∃ reasons, (layers.foldl (gatherLayer found via) gathered).reasons =
        gathered.reasons ++ reasons := by
  induction layers generalizing gathered with
  | nil =>
    simp only [foldl_nil, flatMap_nil, map_nil, append_nil, true_and]
    exact ⟨[], (append_nil _).symm⟩
  | cons layer layers ih =>
    obtain ⟨hselected, hinside, hmeasurements, reasons, hreasons⟩ :=
      gatherLayer_spec found via gathered layer
    obtain ⟨hselected', hinside', hmeasurements', reasons', hreasons'⟩ :=
      ih (gatherLayer found via gathered layer)
    rw [foldl_cons, hselected', hinside', hmeasurements', hreasons', hselected, hinside,
      hmeasurements, hreasons]
    simp only [flatMap_cons, map_cons, append_assoc, cons_append, nil_append, true_and]
    exact ⟨_, rfl⟩

theorem mem_metalsAt {item : FlattenedPhysicalGeometry} : item ∈ metalsAt found via layer ↔
    item ∈ found ∧ item.layer = layer ∧ item.bboxDbu.intersects via.bboxDbu = true := by
  rw [metalsAt, mem_filter, Bool.and_eq_true, decide_eq_true_eq]

/-- The vias of the layer that meet the marker. -/
def viaHits (violation : ViolationRecord) (found : List FlattenedPhysicalGeometry)
    (viaLayer : String) : List FlattenedPhysicalGeometry :=
  found.filter fun item => item.layer = viaLayer && meetsMarker violation item

theorem targetVia_hits (viaLayer : String) :
    ((found.filter fun item => item.layer = viaLayer).filter fun item =>
      meetsMarker violation item) = viaHits violation found viaLayer := by
  rw [filter_filter, viaHits]
  refine filter_congr fun item _ => ?_
  rw [Bool.and_comm]

theorem targetVia_layer {viaLayer : String}
    (h : (targetVia violation found viaLayer).1 = some via) : via.layer = viaLayer := by
  have hmem := argmin_mem h
  have hvia : via ∈ found.filter fun item => item.layer = viaLayer := by
    split at hmem
    · exact hmem
    · exact mem_of_mem_filter hmem
  exact of_decide_eq_true (mem_filter.1 hvia).2

/-- Without a reason the via is the only one that meets the marker. -/
theorem viaHits_of_no_reason {viaLayer : String}
    (h : (targetVia violation found viaLayer).1 = some via)
    (hreasons : (targetVia violation found viaLayer).2 = []) :
    viaHits violation found viaLayer = [via] := by
  rw [targetVia] at h hreasons
  dsimp only at h hreasons
  rw [targetVia_hits] at h hreasons
  obtain ⟨hone, -⟩ := append_eq_nil_iff.1 hreasons
  have hlength : (viaHits violation found viaLayer).length = 1 := by
    by_contra hne
    rw [if_pos hne] at hone
    cases hone
  obtain ⟨hit, hhit⟩ := length_eq_one_iff.1 hlength
  rw [hhit, if_neg (cons_ne_nil _ _), argmin_singleton] at h
  rw [hhit, Option.some.inj h]

end Gather

/-! ## What a witness says -/

/-- The rectangle of a box. -/
def rect (box : Box) : Rectangle := ⟨box.x1, box.y1, box.x2, box.y2⟩

inductive Side
  | left | right | bottom | top

def Enclosure.margin (enclosure : Enclosure) : Side → ℤ
  | .left => enclosure.left
  | .right => enclosure.right
  | .bottom => enclosure.bottom
  | .top => enclosure.top

/-- The box of the via with the margin on a side. -/
def extended (via : Box) (enclosure : Enclosure) : Side → Rectangle
  | .left => ⟨via.x1 - enclosure.left, via.y1, via.x2, via.y2⟩
  | .right => ⟨via.x1, via.y1, via.x2 + enclosure.right, via.y2⟩
  | .bottom => ⟨via.x1, via.y1 - enclosure.bottom, via.x2, via.y2⟩
  | .top => ⟨via.x1, via.y1, via.x2, via.y2 + enclosure.top⟩

/-- The band of the box around the metals at the height of the via. -/
def acrossBand (via union : Box) : Rectangle := ⟨union.x1, via.y1, union.x2, via.y2⟩

/-- The band at its width. -/
def upBand (via union : Box) : Rectangle := ⟨via.x1, union.y1, via.x2, union.y2⟩

theorem inside_iff {inner outer : Box} : inside inner outer = true ↔
    (outer.x1 ≤ inner.x1 ∧ inner.x2 ≤ outer.x2) ∧ outer.y1 ≤ inner.y1 ∧ inner.y2 ≤ outer.y2 := by
  simp only [inside, Bool.and_eq_true, decide_eq_true_eq]

/-- Where the via lies inside the box around the metals, they cover the via and its extensions
exactly when they fill the two bands. -/
theorem covers_extended_iff {pieces : List Rectangle} {via union : Box}
    (hinside : inside via union = true) :
    (Covers ℝ pieces (rect via) ∧ ∀ side, 0 < (enclosureOf via union).margin side →
        Covers ℝ pieces (extended via (enclosureOf via union) side)) ↔
      fills pieces (acrossBand via union) = true ∧ fills pieces (upBand via union) = true := by
  obtain ⟨⟨hleft, hright⟩, hbottom, htop⟩ := inside_iff.1 hinside
  have hx : (via.x1 : ℝ) ≤ via.x2 := Int.cast_le.2 via.ordered.1
  have hy : (via.y1 : ℝ) ≤ via.y2 := Int.cast_le.2 via.ordered.2
  have hleft' : (union.x1 : ℝ) ≤ via.x1 := Int.cast_le.2 hleft
  have hright' : (via.x2 : ℝ) ≤ union.x2 := Int.cast_le.2 hright
  have hbottom' : (union.y1 : ℝ) ≤ via.y1 := Int.cast_le.2 hbottom
  have htop' : (via.y2 : ℝ) ≤ union.y2 := Int.cast_le.2 htop
  rw [fills_iff (K := ℝ), fills_iff (K := ℝ)]
  constructor
  · rintro ⟨hvia, hextended⟩
    -- a side without a margin adds nothing to the via
    have hside : ∀ side, Covers ℝ pieces (extended via (enclosureOf via union) side) := by
      intro side
      by_cases hmargin : 0 < (enclosureOf via union).margin side
      · exact hextended side hmargin
      · refine fun p hp => hvia p ?_
        cases side <;>
          simp only [extended, Enclosure.margin, enclosureOf, Rectangle.Contains, rect,
            not_lt, sub_sub_cancel, add_sub_cancel, tsub_le_iff_right, zero_add] at hmargin hp ⊢
        · have hle : (via.x1 : ℝ) ≤ union.x1 := Int.cast_le.2 hmargin
          exact ⟨⟨hle.trans hp.1.1, hp.1.2⟩, hp.2⟩
        · have hle : (union.x2 : ℝ) ≤ via.x2 := Int.cast_le.2 hmargin
          exact ⟨⟨hp.1.1, hp.1.2.trans hle⟩, hp.2⟩
        · have hle : (via.y1 : ℝ) ≤ union.y1 := Int.cast_le.2 hmargin
          exact ⟨hp.1, hle.trans hp.2.1, hp.2.2⟩
        · have hle : (union.y2 : ℝ) ≤ via.y2 := Int.cast_le.2 hmargin
          exact ⟨hp.1, hp.2.1, hp.2.2.trans hle⟩
    constructor
    · rintro p ⟨⟨hp1, hp2⟩, hp⟩
      rcases le_total p.1 via.x2 with hle | hle
      · refine hside .left p ⟨⟨?_, hle⟩, hp⟩
        simpa [extended, enclosureOf, acrossBand] using hp1
      · refine hside .right p ⟨⟨hx.trans hle, ?_⟩, hp⟩
        simpa [extended, enclosureOf, acrossBand] using hp2
    · rintro p ⟨hp, hp1, hp2⟩
      rcases le_total p.2 via.y2 with hle | hle
      · refine hside .bottom p ⟨hp, ?_, hle⟩
        simpa [extended, enclosureOf, upBand] using hp1
      · refine hside .top p ⟨hp, hy.trans hle, ?_⟩
        simpa [extended, enclosureOf, upBand] using hp2
  · rintro ⟨hacross, hup⟩
    constructor
    · rintro p ⟨⟨hp1, hp2⟩, hp⟩
      exact hacross p ⟨⟨hleft'.trans hp1, hp2.trans hright'⟩, hp⟩
    · rintro side - p ⟨⟨hp1, hp2⟩, hp3, hp4⟩
      cases side <;>
        simp only [extended, enclosureOf, sub_sub_cancel, add_sub_cancel] at hp1 hp2 hp3 hp4
      · exact hacross p ⟨⟨hp1, hp2.trans hright'⟩, hp3, hp4⟩
      · exact hacross p ⟨⟨hleft'.trans hp1, hp2⟩, hp3, hp4⟩
      · exact hup p ⟨⟨hp1, hp2⟩, hp3, hp4.trans htop'⟩
      · exact hup p ⟨⟨hp1, hp2⟩, hbottom'.trans hp3, hp4⟩

/-- The rules about a via and the metals around it. -/
def ViaMetal (ruleId : String) : Prop :=
  (ruleId = "V3.AUX.1" ∨ ruleId = "V3.M3.EN.1") ∨ ruleId = "V1.AUX.1"

/-- The layer of the vias of a rule. -/
def viaLayer (ruleId : String) : String := if ruleId = "V1.AUX.1" then "V1" else "V3"

/-- The rectangles of the geometries of a layer. -/
def layerRects (items : List FlattenedPhysicalGeometry) (layer : String) : List Rectangle :=
  (items.filter fun item => item.layer = layer).map fun item => rect item.bboxDbu

section Witness

variable (violation : ViolationRecord) (predicate : CurrentRulePredicate)
  (physical : List FlattenedPhysicalGeometry)

/-- The geometries that the witness is made from. -/
def foundOf : List FlattenedPhysicalGeometry :=
  localPhysical violation physical predicate.involvedLayers

/-- The via that the metals are compared with. -/
def viaOf : Option FlattenedPhysicalGeometry :=
  (targetVia violation (foundOf violation predicate physical) "V3").1

/-- **What a witness says is so**: a layer that it reports to contain the via covers the box
of the via, and the box with each margin that it reports; and a reviewed witness has the
one via of the rule that meets the marker. -/
structure Sound (witness : CurrentRuleWitness) : Prop where
  covered : ∀ via ∈ viaOf violation predicate physical, ∀ reported ∈ witness.insideByLayer,
    ∀ layer, (layer, true) ∈ reported →
      Covers ℝ (layerRects witness.physicalGeometries layer) (rect via.bboxDbu)
  margins : ∀ via ∈ viaOf violation predicate physical, ∀ reported ∈ witness.insideByLayer,
    ∀ layer, (layer, true) ∈ reported → ∀ enclosure,
      (layer ++ "_enclosure", enclosure) ∈ witness.currentMeasurements →
        ∀ side, 0 < enclosure.margin side →
          Covers ℝ (layerRects witness.physicalGeometries layer)
            (extended via.bboxDbu enclosure side)
  reviewed : witness.fidelity = .reviewed → ∃ via ∈ witness.physicalGeometries,
    viaHits violation physical (viaLayer violation.ruleId) = [via]

/-- The rectangles of the metals of a layer that meet the via. -/
def metalRects (found : List FlattenedPhysicalGeometry) (via : FlattenedPhysicalGeometry)
    (layer : String) : List Rectangle :=
  (metalsAt found via layer).map fun item => rect item.bboxDbu

/-- The condition on the geometries: where the box around the metals of a layer contains the
via, they fill its two bands at the via; and for the rule that has no turn of its own, one
via meets the marker and is found, if anything is. -/
structure Filled : Prop where
  bands : violation.ruleId = "V3.AUX.1" ∨ violation.ruleId = "V3.M3.EN.1" →
    ∀ via ∈ viaOf violation predicate physical, ∀ layer ∈ metalLayers violation.ruleId,
      ∀ union ∈ unionAt (foundOf violation predicate physical) via layer,
        inside via.bboxDbu union = true →
          fills (metalRects (foundOf violation predicate physical) via layer)
              (acrossBand via.bboxDbu union) = true ∧
            fills (metalRects (foundOf violation predicate physical) via layer)
              (upBand via.bboxDbu union) = true
  marker : violation.ruleId = "V1.AUX.1" → foundOf violation predicate physical ≠ [] →
    ∃ via ∈ foundOf violation predicate physical, viaHits violation physical "V1" = [via]

variable {violation predicate physical}

theorem intersects_iff {b other : Box} : b.intersects other = true ↔
    (other.x1 ≤ b.x2 ∧ b.x1 ≤ other.x2) ∧ other.y1 ≤ b.y2 ∧ b.y1 ≤ other.y2 := by
  simp only [Box.intersects, Bool.not_eq_true', Bool.or_eq_false_iff, decide_eq_false_iff_not,
    not_lt, and_assoc]

/-- What overlaps the marker lies in its halo. -/
theorem intersects_halo {item : FlattenedPhysicalGeometry}
    (h : meetsMarker violation item = true) :
    item.bboxDbu.intersects (halo violation.markerBboxDbu) = true := by
  have hitem := item.bboxDbu.ordered
  have hmarker := violation.markerBboxDbu.ordered
  rw [meetsMarker, Bool.or_eq_true, decide_eq_true_eq, decide_eq_true_eq] at h
  rw [intersects_iff]
  dsimp only [halo]
  rcases h with harea | hbox
  · rw [Box.intersectionArea] at harea
    obtain ⟨hwidth, hheight⟩ : 0 < min item.bboxDbu.x2 violation.markerBboxDbu.x2 -
        max item.bboxDbu.x1 violation.markerBboxDbu.x1 ∧
        0 < min item.bboxDbu.y2 violation.markerBboxDbu.y2 -
          max item.bboxDbu.y1 violation.markerBboxDbu.y1 := by
      by_contra hnot
      rw [not_and_or, not_lt, not_lt] at hnot
      rcases hnot with hnone | hnone
      · rw [max_eq_left hnone, zero_mul] at harea
        exact lt_irrefl 0 harea
      · rw [max_eq_left hnone, mul_zero] at harea
        exact lt_irrefl 0 harea
    omega
  · rw [hbox]
    omega

/-- The vias that meet the marker are found, where their layer is one of the predicate's. -/
theorem viaHits_perm (violation : ViolationRecord) (physical : List FlattenedPhysicalGeometry)
    {layer : String} (hlayer : layer ∈ predicate.involvedLayers) :
    (viaHits violation (foundOf violation predicate physical) layer).Perm
      (viaHits violation physical layer) := by
  rw [viaHits, foundOf, localPhysical]
  refine ((perm_insertionSort _ _).filter _).trans ?_
  rw [filter_filter, viaHits]
  refine Perm.of_eq (filter_congr fun item _ => ?_)
  by_cases hitem : item.layer = layer
  · by_cases hmeets : meetsMarker violation item = true
    · simp [hitem, hmeets, hlayer, intersects_halo hmeets]
    · simp [hmeets]
  · simp [hitem]

theorem viaHits_physical {via : FlattenedPhysicalGeometry} {layer : String}
    (h : viaHits violation (foundOf violation predicate physical) layer = [via]) :
    viaHits violation physical layer = [via] := by
  have hmem : via ∈ viaHits violation (foundOf violation predicate physical) layer := by
    rw [h]
    exact mem_singleton_self via
  obtain ⟨hfound, hvia⟩ := mem_filter.1 hmem
  obtain ⟨hlayer, -⟩ := Bool.and_eq_true_iff.1 hvia
  have hinvolved : layer ∈ predicate.involvedLayers := by
    rw [foundOf, localPhysical, mem_insertionSort] at hfound
    have hboth := (mem_filter.1 hfound).2
    rw [Bool.and_eq_true, decide_eq_true_eq, of_decide_eq_true hlayer] at hboth
    exact hboth.1
  have hperm := viaHits_perm violation physical hinvolved
  rw [h] at hperm
  exact perm_singleton.1 hperm.symm

variable
  {witnessHash : String → String → List String → List (String × Enclosure) → String}

variable (witnessHash) in
/-- The fields of a witness are what was gathered. -/
theorem witness_of_gather {gathered : Gathered} {reported : Option (List (String × Bool))}
    (h : gather violation (foundOf violation predicate physical) = (gathered, reported)) :
    let witness := currentReviewedWitness witnessHash violation predicate physical
    witness.physicalGeometries = gathered.selected ∧
      witness.currentMeasurements = gathered.measurements ∧
      witness.insideByLayer = reported ∧
      (witness.fidelity = .reviewed → gathered.selected ≠ [] ∧ gathered.reasons = []) := by
  rw [foundOf] at h
  rw [currentReviewedWitness, h]
  refine ⟨rfl, rfl, rfl, fun hreviewed => ?_⟩
  by_contra hnot
  replace hreviewed : (if gathered.selected ≠ [] ∧ gathered.reasons = [] then
      SemanticFidelity.reviewed else if gathered.selected ≠ [] then .approximate
      else .unavailable) = .reviewed := hreviewed
  rw [if_neg hnot] at hreviewed
  split at hreviewed <;> cases hreviewed

theorem gather_of_via
    (hrule : violation.ruleId = "V3.AUX.1" ∨ violation.ruleId = "V3.M3.EN.1")
    {found : List FlattenedPhysicalGeometry} {via : FlattenedPhysicalGeometry}
    (hvia : (targetVia violation found "V3").1 = some via) :
    gather violation found =
      ((metalLayers violation.ruleId).foldl (gatherLayer found via)
          ⟨[via], (targetVia violation found "V3").2, [], []⟩,
        some ((metalLayers violation.ruleId).foldl (gatherLayer found via)
          ⟨[via], (targetVia violation found "V3").2, [], []⟩).insideByLayer) := by
  rw [gather, if_pos hrule]
  dsimp only
  rw [hvia]

theorem gather_of_no_via
    (hrule : violation.ruleId = "V3.AUX.1" ∨ violation.ruleId = "V3.M3.EN.1")
    {found : List FlattenedPhysicalGeometry}
    (hvia : (targetVia violation found "V3").1 = none) :
    gather violation found = (⟨[], (targetVia violation found "V3").2, [], []⟩, none) := by
  rw [gather, if_pos hrule]
  dsimp only
  rw [hvia]

theorem ne_viaLayer_of_mem_metalLayers {ruleId layer : String} (h : layer ∈ metalLayers ruleId) :
    layer ≠ "V3" := by
  rintro rfl
  rw [metalLayers] at h
  split at h <;> exact absurd h (by decide)

/-- The selected geometries of a metal layer are its metals that meet the via. -/
theorem mem_layerRects {found : List FlattenedPhysicalGeometry}
    {via : FlattenedPhysicalGeometry} {layers : List String} {layer : String}
    (hlayer : layer ∈ layers) (hvia : via.layer ≠ layer) (piece : Rectangle) :
    piece ∈ layerRects ([via] ++ layers.flatMap (metalsAt found via)) layer ↔
      piece ∈ metalRects found via layer := by
  rw [layerRects, metalRects, mem_map, mem_map]
  refine exists_congr fun item => and_congr_left fun _ => ?_
  rw [mem_filter, decide_eq_true_eq, mem_append, mem_singleton, mem_flatMap]
  constructor
  · rintro ⟨rfl | ⟨other, -, hitem⟩, hitemLayer⟩
    · exact absurd hitemLayer hvia
    · obtain ⟨hfound, -, hmeets⟩ := mem_metalsAt.1 hitem
      exact mem_metalsAt.2 ⟨hfound, hitemLayer, hmeets⟩
  · intro hitem
    exact ⟨Or.inr ⟨layer, hlayer, hitem⟩, (mem_metalsAt.1 hitem).2.1⟩

theorem covers_congr {pieces pieces' : List Rectangle}
    (h : ∀ piece, piece ∈ pieces ↔ piece ∈ pieces') (r : Rectangle) :
    Covers ℝ pieces r ↔ Covers ℝ pieces' r := by
  refine forall_congr' fun p => imp_congr_right fun _ => ?_
  exact exists_congr fun piece => and_congr_left fun _ => h piece

/-- A layer is reported to contain the via where the box around its metals does. -/
theorem mem_reported {found : List FlattenedPhysicalGeometry} {via : FlattenedPhysicalGeometry}
    {layers : List String} {layer : String} :
    (layer, true) ∈ layers.map (fun layer => (layer, insideAt found via layer)) ↔
      layer ∈ layers ∧
        ∃ union ∈ unionAt found via layer, inside via.bboxDbu union = true := by
  rw [mem_map]
  constructor
  · rintro ⟨other, hother, heq⟩
    obtain ⟨rfl, hinside⟩ := Prod.mk.inj heq
    exact ⟨hother, (Option.any_eq_true _ _).1 hinside⟩
  · rintro ⟨hlayer, hinside⟩
    refine ⟨layer, hlayer, ?_⟩
    rw [insideAt, (Option.any_eq_true _ _).2 hinside]

theorem mem_measurements {found : List FlattenedPhysicalGeometry}
    {via : FlattenedPhysicalGeometry} {layers : List String} {layer : String}
    {enclosure : Enclosure} (hlayer : layer ∈ layers) :
    (layer ++ "_enclosure", enclosure) ∈ layers.flatMap (measurementAt found via) ↔
      ∃ union ∈ unionAt found via layer, enclosureOf via.bboxDbu union = enclosure := by
  rw [mem_flatMap]
  constructor
  · rintro ⟨other, -, hmem⟩
    rw [measurementAt, Option.mem_toList, Option.map_eq_some_iff] at hmem
    obtain ⟨union, hunion, heq⟩ := hmem
    obtain ⟨hname, rfl⟩ := Prod.mk.inj heq
    obtain rfl := (String.append_left_inj _).1 hname
    exact ⟨union, hunion, rfl⟩
  · rintro ⟨union, hunion, rfl⟩
    refine ⟨layer, hlayer, ?_⟩
    rw [measurementAt, Option.mem_toList, Option.map_eq_some_iff]
    exact ⟨union, hunion, rfl⟩

/-! ## When a witness is sound -/

/-- Without a via there is nothing to be said. -/
theorem sound_of_no_via
    (hrule : violation.ruleId = "V3.AUX.1" ∨ violation.ruleId = "V3.M3.EN.1")
    (hvia : viaOf violation predicate physical = none) :
    Sound violation predicate physical
      (currentReviewedWitness witnessHash violation predicate physical) := by
  obtain ⟨-, -, -, hreviewed⟩ :=
    witness_of_gather witnessHash (gather_of_no_via hrule hvia)
  refine ⟨?_, ?_, fun h => absurd rfl (hreviewed h).1⟩
  · intro via hmem
    rw [hvia] at hmem
    cases hmem
  · intro via hmem
    rw [hvia] at hmem
    cases hmem

/-- With a via, the witness is sound exactly when the metals that the box is drawn around fill
its bands: the part about a reviewed witness holds of itself. -/
theorem sound_of_via_iff
    (hrule : violation.ruleId = "V3.AUX.1" ∨ violation.ruleId = "V3.M3.EN.1")
    {via : FlattenedPhysicalGeometry} (hvia : viaOf violation predicate physical = some via) :
    Sound violation predicate physical
        (currentReviewedWitness witnessHash violation predicate physical) ↔
      ∀ layer ∈ metalLayers violation.ruleId,
        ∀ union ∈ unionAt (foundOf violation predicate physical) via layer,
          inside via.bboxDbu union = true →
            fills (metalRects (foundOf violation predicate physical) via layer)
                (acrossBand via.bboxDbu union) = true ∧
              fills (metalRects (foundOf violation predicate physical) via layer)
                (upBand via.bboxDbu union) = true := by
  obtain ⟨hselected, hmeasurements, hreported, hreviewed⟩ :=
    witness_of_gather witnessHash (gather_of_via hrule hvia)
  obtain ⟨hselected', hinside', hmeasurements', reasons, hreasons⟩ :=
    @gatherLayers_spec (foundOf violation predicate physical) via (metalLayers violation.ruleId)
      ⟨[via], (targetVia violation (foundOf violation predicate physical) "V3").2, [], []⟩
  rw [hselected'] at hselected
  rw [hmeasurements', nil_append] at hmeasurements
  rw [hinside', nil_append] at hreported
  -- what is selected of a metal layer is what its box is drawn around
  have hpieces : ∀ layer ∈ metalLayers violation.ruleId, ∀ r : Rectangle,
      Covers ℝ (layerRects (currentReviewedWitness witnessHash violation predicate
          physical).physicalGeometries layer) r ↔
        Covers ℝ (metalRects (foundOf violation predicate physical) via layer) r := by
    intro layer hlayer r
    rw [hselected]
    refine covers_congr (mem_layerRects hlayer ?_) r
    rw [targetVia_layer hvia]
    exact (ne_viaLayer_of_mem_metalLayers hlayer).symm
  constructor
  · intro h layer hlayer union hunion hinside
    have hmem := mem_reported.2 ⟨hlayer, union, hunion, hinside⟩
    rw [← covers_extended_iff hinside]
    constructor
    · exact (hpieces layer hlayer _).1 (h.covered via hvia _ hreported layer hmem)
    · intro side hside
      refine (hpieces layer hlayer _).1 (h.margins via hvia _ hreported layer hmem _ ?_ side hside)
      rw [hmeasurements]
      exact (mem_measurements hlayer).2 ⟨union, hunion, rfl⟩
  · intro h
    refine ⟨?_, ?_, ?_⟩
    · intro via' hvia' reported hmemReported layer hmem
      obtain rfl := Option.some.inj (hvia.symm.trans hvia')
      obtain rfl := Option.some.inj (hreported.symm.trans hmemReported)
      obtain ⟨hlayer, union, hunion, hinside⟩ := mem_reported.1 hmem
      exact (hpieces layer hlayer _).2
        ((covers_extended_iff hinside).2 (h layer hlayer union hunion hinside)).1
    · intro via' hvia' reported hmemReported layer hmem enclosure henclosure side hside
      obtain rfl := Option.some.inj (hvia.symm.trans hvia')
      obtain rfl := Option.some.inj (hreported.symm.trans hmemReported)
      obtain ⟨hlayer, union, hunion, hinside⟩ := mem_reported.1 hmem
      rw [hmeasurements, mem_measurements hlayer] at henclosure
      obtain ⟨union', hunion', rfl⟩ := henclosure
      obtain rfl := Option.some.inj (hunion.symm.trans hunion')
      exact (hpieces layer hlayer _).2
        (((covers_extended_iff hinside).2 (h layer hlayer union hunion hinside)).2 side hside)
    · intro hfidelity
      have hnone := (hreviewed hfidelity).2
      rw [hreasons] at hnone
      have hhits := viaHits_of_no_reason hvia (append_eq_nil_iff.1 hnone).1
      have hlayer : viaLayer violation.ruleId = "V3" := by
        rcases hrule with hrule | hrule <;> rw [hrule] <;> rfl
      refine ⟨via, ?_, ?_⟩
      · rw [hselected]
        exact mem_append_left _ (mem_singleton_self via)
      · rw [hlayer]
        exact viaHits_physical hhits

/-- The rule that has no turn of its own reports no layer, and is reviewed wherever there is
anything around the marker. -/
theorem sound_of_other_iff (hrule : violation.ruleId = "V1.AUX.1") :
    Sound violation predicate physical
        (currentReviewedWitness witnessHash violation predicate physical) ↔
      (foundOf violation predicate physical ≠ [] →
        ∃ via ∈ foundOf violation predicate physical, viaHits violation physical "V1" = [via]) := by
  have hgather : gather violation (foundOf violation predicate physical) =
      (⟨foundOf violation predicate physical, [], [], []⟩, none) := by
    rw [gather, hrule, if_neg (by decide)]
  obtain ⟨hselected, -, hreported, -⟩ :=
    witness_of_gather witnessHash hgather
  have hfidelity : (currentReviewedWitness witnessHash violation predicate physical).fidelity =
      .reviewed ↔ foundOf violation predicate physical ≠ [] := by
    rw [currentReviewedWitness, ← foundOf, hgather]
    by_cases hfound : foundOf violation predicate physical = [] <;> simp [hfound]
  have hlayer : viaLayer violation.ruleId = "V1" := by
    rw [hrule]
    rfl
  -- no layer is reported, so only the part about a reviewed witness is left
  constructor
  · intro h hfound
    have hreviewed := h.reviewed (hfidelity.2 hfound)
    rwa [hselected, hlayer] at hreviewed
  · intro h
    refine ⟨?_, ?_, ?_⟩
    · intro via _ reported hmem
      rw [hreported] at hmem
      cases hmem
    · intro via _ reported hmem
      rw [hreported] at hmem
      cases hmem
    · intro hreviewed
      rw [hselected, hlayer]
      exact h (hfidelity.1 hreviewed)

/-- **When the witness of a via rule is sound**: exactly when the metals of a layer whose box
contains the via fill the two bands of that box at the via, and, for the rule whose geometries
are taken as they are found, one via of theirs meets the marker. -/
theorem currentReviewedWitness_sound_iff
    (witnessHash : String → String → List String → List (String × Enclosure) → String)
    (violation : ViolationRecord) (predicate : CurrentRulePredicate)
    (physical : List FlattenedPhysicalGeometry) (hrule : ViaMetal violation.ruleId) :
    Sound violation predicate physical
        (currentReviewedWitness witnessHash violation predicate physical) ↔
      Filled violation predicate physical := by
  rcases hrule with hrule | hrule
  · have hother : violation.ruleId ≠ "V1.AUX.1" := by
      rcases hrule with hrule | hrule <;> rw [hrule] <;> decide
    cases hvia : viaOf violation predicate physical with
    | none =>
      refine iff_of_true (sound_of_no_via hrule hvia) ⟨fun _ via hmem => ?_,
        fun h => absurd h hother⟩
      rw [hvia] at hmem
      cases hmem
    | some via =>
      rw [sound_of_via_iff hrule hvia]
      constructor
      · intro h
        refine ⟨fun _ via' hmem => ?_, fun h => absurd h hother⟩
        obtain rfl := Option.some.inj (hvia.symm.trans hmem)
        exact h
      · intro h
        exact h.bands hrule via hvia
  · rw [sound_of_other_iff hrule]
    constructor
    · intro h
      refine ⟨fun hthree => ?_, fun _ => h⟩
      rw [hrule] at hthree
      rcases hthree with hthree | hthree <;> exact absurd hthree (by decide)
    · intro h
      exact h.marker hrule

end Witness

/-! ## Two arrangements of metals -/

/-- A violation of a rule, marked at the box of the sample via. -/
def sampleViolation (ruleId : String) (ruleFamily : Regions.RuleFamily) : ViolationRecord where
  violationId := "v"
  reportIteration := 1
  ruleId
  ruleFamily
  markerBboxDbu := ⟨0, 0, 2, 2, by decide⟩

def samplePredicate (relationType : String) (layers : List String) : CurrentRulePredicate where
  predicateId := "p"
  relationType
  involvedLayers := layers
  deckLines := [828, 828]

def samplePiece (geometryId layer : String) (box : Box) : FlattenedPhysicalGeometry where
  geometryId
  sourceAnchorId := some "a"
  instanceAnchorId := none
  layer
  bboxDbu := box

/-- A via under a metal of each layer that reaches over it by one on every side. -/
def coveredVia : List FlattenedPhysicalGeometry :=
  [samplePiece "m4" "M4" ⟨-1, -1, 3, 3, by decide⟩, samplePiece "via" "V3" ⟨0, 0, 2, 2, by decide⟩,
    samplePiece "m3" "M3" ⟨-1, -1, 3, 3, by decide⟩]

/-- A via under two metals that touch at its middle: the box around them contains it, and two
of its corners are open. -/
def openVia : List FlattenedPhysicalGeometry :=
  [samplePiece "low" "M3" ⟨-1, -1, 1, 1, by decide⟩,
    samplePiece "via" "V3" ⟨0, 0, 2, 2, by decide⟩,
    samplePiece "high" "M3" ⟨1, 1, 3, 3, by decide⟩]

/-- The witness of the covered via is reviewed, reports both layers, and is sound. -/
theorem currentReviewedWitness_covered :
    (currentReviewedWitness (fun _ _ _ _ => "w") (sampleViolation "V3.AUX.1" .via)
        (samplePredicate "VIA_METAL_INSIDE" ["V3", "M3", "M4"]) coveredVia).insideByLayer =
        some [("M3", true), ("M4", true)] ∧
      (currentReviewedWitness (fun _ _ _ _ => "w") (sampleViolation "V3.AUX.1" .via)
        (samplePredicate "VIA_METAL_INSIDE" ["V3", "M3", "M4"]) coveredVia).fidelity = .reviewed ∧
      Sound (sampleViolation "V3.AUX.1" .via)
        (samplePredicate "VIA_METAL_INSIDE" ["V3", "M3", "M4"]) coveredVia
        (currentReviewedWitness (fun _ _ _ _ => "w") (sampleViolation "V3.AUX.1" .via)
          (samplePredicate "VIA_METAL_INSIDE" ["V3", "M3", "M4"]) coveredVia) := by
  refine ⟨by decide +kernel, by decide +kernel, ?_⟩
  refine (currentReviewedWitness_sound_iff _ _ _ _ (Or.inl (Or.inl rfl))).2 ⟨?_, ?_⟩
  · decide +kernel
  · decide +kernel

/-- The open via is reported inside the layer whose metals leave its corners open, in a
reviewed witness; and a witness is reviewed where there is no via at all. -/
theorem currentReviewedWitness_open :
    ((currentReviewedWitness (fun _ _ _ _ => "w") (sampleViolation "V3.M3.EN.1" .via)
          (samplePredicate "VIA_ENCLOSURE" ["V3", "M3"]) openVia).insideByLayer =
          some [("M3", true)] ∧
        (currentReviewedWitness (fun _ _ _ _ => "w") (sampleViolation "V3.M3.EN.1" .via)
          (samplePredicate "VIA_ENCLOSURE" ["V3", "M3"]) openVia).fidelity = .reviewed ∧
        ¬ Sound (sampleViolation "V3.M3.EN.1" .via)
          (samplePredicate "VIA_ENCLOSURE" ["V3", "M3"]) openVia
          (currentReviewedWitness (fun _ _ _ _ => "w") (sampleViolation "V3.M3.EN.1" .via)
            (samplePredicate "VIA_ENCLOSURE" ["V3", "M3"]) openVia)) ∧
      ¬ Sound (sampleViolation "V1.AUX.1" .via)
        (samplePredicate "VIA_METAL_INSIDE" ["V1", "M1", "M2"])
        [samplePiece "m1" "M1" ⟨-1, -1, 3, 3, by decide⟩]
        (currentReviewedWitness (fun _ _ _ _ => "w") (sampleViolation "V1.AUX.1" .via)
          (samplePredicate "VIA_METAL_INSIDE" ["V1", "M1", "M2"])
          [samplePiece "m1" "M1" ⟨-1, -1, 3, 3, by decide⟩]) := by
  refine ⟨⟨by decide +kernel, by decide +kernel, fun h => ?_⟩, fun h => ?_⟩
  · have hcovers := h.covered (samplePiece "via" "V3" ⟨0, 0, 2, 2, by decide⟩)
      (by decide +kernel) [("M3", true)] (by decide +kernel) "M3" (mem_singleton_self _)
    exact absurd (fills_iff.2 hcovers) (by decide +kernel)
  · exact absurd (h.reviewed (by decide +kernel)) (by decide +kernel)

end DRCAgent.Reviewed
