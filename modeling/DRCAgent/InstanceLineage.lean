/-
# The lineage of instances

`_instance_lineage` of `repair_kernel_multistep_repair/current_context.py`: for each
instance of the current layout, the instance of the parent snapshot it comes from. The loop
runs over the geometries; each geometry of an instance has a record of its own, and the
last one is the record of the instance.

So the order of the geometries does not matter exactly if the records of all geometries of
an instance agree (`instance_lineage_order_iff`); the id of a record covers the id of its
geometry, so two geometries of one instance already disagree in it unless the hashes collide.
-/
import DRCAgent.KeyedLoops
import DRCAgent.SourceLineage

namespace DRCAgent.Lineage

open Connectivity Failures List Option

/-! ## The records -/

structure OccurrenceProvenance where
  statementAstHash : String
  parentCell : String
  transform : ℤ × Bool × ℤ × ℤ

/-- The fields of a flattened geometry that its lineage reads. -/
structure PhysicalGeometry where
  geometryId : String
  occurrenceProvenance : Option OccurrenceProvenance := none
  sourceObjectId : Option String := none
  sourceAnchorId : Option String := none
  sourceCell : Option String := none
  instanceAnchorId : Option String := none
  layer : String
  bboxDbu : Regions.Box

/-! ## The instance of a geometry -/

/-- A key of `root_by_layer_bbox`. -/
structure LayerBox where
  layer : String
  bbox : Regions.Box
  deriving DecidableEq

/-- `root_by_layer_bbox` -/
def rootByLayerBox (rootPhysical : List PhysicalGeometry) :
    List (LayerBox × List PhysicalGeometry) :=
  Dicts.collect (rootPhysical.map fun item => (⟨item.layer, item.bboxDbu⟩, item))

/-- `root_by_instance_anchor` -/
def rootByInstanceAnchor (rootPhysical : List PhysicalGeometry) :
    List (String × PhysicalGeometry) :=
  Dicts.ofList (rootPhysical.filterMap fun item =>
    if isTrue item.instanceAnchorId then item.instanceAnchorId.map fun anchor => (anchor, item)
    else none)

/-- Whether two geometries are of the same occurrence. -/
def sameOccurrence (item current : PhysicalGeometry) : Bool :=
  match item.occurrenceProvenance, current.occurrenceProvenance with
  | some p, some q =>
    p.statementAstHash = q.statementAstHash && p.parentCell = q.parentCell &&
      p.transform = q.transform
  | _, _ => false

/-- `exact`: the geometries of the parent snapshot at the same place, in the same cell or the
one that was specialized, of the same occurrence. -/
def exactRoots (rootPhysical : List PhysicalGeometry) (current : PhysicalGeometry) :
    List PhysicalGeometry :=
  let aliases := originCellAliases (originCell current.sourceCell)
  (((rootByLayerBox rootPhysical).lookup ⟨current.layer, current.bboxDbu⟩).getD []).filter
    fun item =>
      (item.sourceCell = current.sourceCell || item.sourceCell.any aliases.contains) &&
        sameOccurrence item current

/-- The first of the geometries, if all are of one instance. -/
def soleInstance (roots : List PhysicalGeometry) : Option PhysicalGeometry :=
  match (roots.map (·.instanceAnchorId)).dedup with
  | [_] => roots.head?
  | _ => none

/-- The receipt of an instance; an empty one is none. -/
def instanceReceipt (receipts : Receipts) (anchor : String) : Option Receipt :=
  (receipts.lookup anchor).filter fun receipt => !receipt.isEmpty

/-- What is found out about a geometry. `oldAnchor` is what a receipt says. -/
structure Correspondence where
  origin : Json
  parent : Option PhysicalGeometry
  oldAnchor : Option Json

/-- `origin`, `parent` and `receipt` of a geometry. -/
def correspond (rootPhysical : List PhysicalGeometry) (receipts : Receipts)
    (current : PhysicalGeometry) (anchor : String) : Except LineageError Correspondence :=
  match instanceReceipt receipts anchor with
  | some receipt => do
    let origin ← receipt.item "old_source_cell"
    let oldAnchor ← receipt.item "old_instance_anchor_id"
    let parent ← getValue (rootByInstanceAnchor rootPhysical) oldAnchor
    return ⟨origin, parent, some oldAnchor⟩
  | none =>
    return ⟨jsonText (originCell current.sourceCell),
      soleInstance (exactRoots rootPhysical current), none⟩

/-- The reason code of a record. -/
def instanceReason (receipted parented specialized : Bool) : String :=
  if receipted then "VERIFIED_COMPILER_OCCURRENCE_RECEIPT"
  else if parented then "INSTANCE_GEOMETRY_CORRESPONDENCE"
  else if specialized then "SPECIALIZED_INSTANCE_CURRENT_OCCURRENCE"
  else "PARENT_INSTANCE_UNAVAILABLE"

/-- Without a receipt, the reason says whether there is a parent. -/
theorem instanceReason_inj {p p' o o' : Bool}
    (h : instanceReason false p o = instanceReason false p' o') : p = p' := by
  revert p p' o o'
  decide

section Lineage

variable (stableHash : Json → String)

/-- The id of a record. -/
def instanceLineageId (parent : Option PhysicalGeometry) (anchor geometryId : String) : String :=
  "instance_lineage_" ++ String.ofList ((stableHash (.array [
    jsonText (parent.bind (·.instanceAnchorId)), .string anchor,
    .string geometryId])).toList.take 20)

/-- The record of a geometry of an instance. -/
def instanceRecord (rootPhysical : List PhysicalGeometry) (receipts : Receipts)
    (current : PhysicalGeometry) (anchor : String) : Except LineageError SourceLineageRecord := do
  let found ← correspond rootPhysical receipts current anchor
  let oldAnchor ← optionalText (found.oldAnchor.getD
    (jsonText (found.parent.bind (·.instanceAnchorId))))
  let origin ← optionalText found.origin
  return {
    lineageId := instanceLineageId stableHash found.parent anchor current.geometryId
    parentSnapshotSourceObjectId := found.parent.bind (·.sourceObjectId)
    childSnapshotSourceObjectId := current.sourceObjectId.getD ""
    oldSourceAnchorId := found.parent.bind (·.sourceAnchorId)
    newSourceAnchorId := current.sourceAnchorId
    oldInstanceAnchorId := oldAnchor
    newInstanceAnchorId := some anchor
    specializedCellOrigin := origin
    currentSpecializedCell := if isTrue origin then current.sourceCell else none
    lineageConfidence :=
      if found.oldAnchor.isSome || found.parent.isSome then .exact
      else if isTrue origin then .reviewed
      else .unavailable
    reasonCodes :=
      [instanceReason found.oldAnchor.isSome found.parent.isSome (isTrue origin)] }

/-- The instance of a geometry, if it has one. -/
def instanceOf (current : PhysicalGeometry) : Option String :=
  current.instanceAnchorId.filter (· ≠ "")

/-- The geometries of instances, with the instances. -/
def instanceGeometries (currentPhysical : List PhysicalGeometry) :
    List (String × PhysicalGeometry) :=
  currentPhysical.filterMap fun current => (instanceOf current).map fun anchor => (anchor, current)

/-- `_instance_lineage` -/
def instanceLineage (rootPhysical currentPhysical : List PhysicalGeometry) (receipts : Receipts) :
    Except LineageError (List (String × SourceLineageRecord)) := do
  let entries ← (instanceGeometries currentPhysical).mapM fun entry => do
    let record ← instanceRecord stableHash rootPhysical receipts entry.2 entry.1
    return (entry.1, record)
  return Dicts.ofList entries

/-! ## What a record depends on -/

/-- The receipt of an instance, if there is one, has the two values that are read, and they
are strings or `None`. -/
def ReceiptRead (receipts : Receipts) (anchor : String) : Prop :=
  ∀ receipt, instanceReceipt receipts anchor = some receipt →
    ∃ oldCell oldAnchor : Option String,
      receipt.lookup "old_source_cell" = some (jsonText oldCell) ∧
        receipt.lookup "old_instance_anchor_id" = some (jsonText oldAnchor)

/-- The cell that was specialized: what the receipt says, else what the name of the cell says. -/
def originOf (receipts : Receipts) (anchor : String) (current : PhysicalGeometry) : Option String :=
  match instanceReceipt receipts anchor with
  | some receipt => (receipt.get "old_source_cell").textOf
  | none => originCell current.sourceCell

/-- The old instance that the receipt names. -/
def receiptAnchor (receipts : Receipts) (anchor : String) : Option (Option String) :=
  (instanceReceipt receipts anchor).map fun receipt => (receipt.get "old_instance_anchor_id").textOf

/-- The geometry of the parent snapshot: of the instance that the receipt names, else of the
only instance with a geometry that corresponds. -/
def parentOf (rootPhysical : List PhysicalGeometry) (receipts : Receipts) (anchor : String)
    (current : PhysicalGeometry) : Option PhysicalGeometry :=
  match receiptAnchor receipts anchor with
  | some oldAnchor => oldAnchor.bind fun old => (rootByInstanceAnchor rootPhysical).lookup old
  | none => soleInstance (exactRoots rootPhysical current)

/-- What a record has of a geometry of the parent snapshot. -/
def parentIds (parent : PhysicalGeometry) : Option String × Option String × Option String :=
  (parent.sourceObjectId, parent.sourceAnchorId, parent.instanceAnchorId)

/-- Two geometries of an instance agree in all that their records depend on. -/
structure SameRecord (rootPhysical : List PhysicalGeometry) (receipts : Receipts) (anchor : String)
    (a b : PhysicalGeometry) : Prop where
  child : a.sourceObjectId.getD "" = b.sourceObjectId.getD ""
  sourceAnchor : a.sourceAnchorId = b.sourceAnchorId
  parent : (parentOf rootPhysical receipts anchor a).map parentIds =
    (parentOf rootPhysical receipts anchor b).map parentIds
  origin : originOf receipts anchor a = originOf receipts anchor b
  cell : isTrue (originOf receipts anchor a) = true → a.sourceCell = b.sourceCell
  lineageId : instanceLineageId stableHash (parentOf rootPhysical receipts anchor a) anchor
      a.geometryId =
    instanceLineageId stableHash (parentOf rootPhysical receipts anchor b) anchor b.geometryId

variable {rootPhysical currentPhysical : List PhysicalGeometry} {receipts : Receipts}
  {anchor : String} {a b current : PhysicalGeometry}

omit stableHash in
theorem optionalText_jsonText (text : Option String) : optionalText (jsonText text) = .ok text := by
  cases text with
  | none => rfl
  | some text => rfl

omit stableHash in
theorem optionalText_eq_ok {value : Json} {text : Option String}
    (h : optionalText value = .ok text) : value = jsonText text := by
  cases value with
  | null =>
    rw [← Except.ok.inj h]
    rfl
  | string value =>
    rw [← Except.ok.inj h]
    rfl
  | bool _ => cases h
  | number _ => cases h
  | infinity _ => cases h
  | nan => cases h
  | array _ => cases h
  | object _ => cases h

omit stableHash in
theorem textOf_jsonText (text : Option String) : (jsonText text).textOf = text := by
  cases text with
  | none => rfl
  | some text => rfl

omit stableHash in
theorem getValue_jsonText {A : Type} (dictionary : List (String × A)) (text : Option String) :
    getValue dictionary (jsonText text) = .ok (text.bind fun key => dictionary.lookup key) := by
  cases text with
  | none => rfl
  | some text => rfl

/-- The record of a geometry whose receipt can be read. -/
def readRecord (rootPhysical : List PhysicalGeometry) (receipts : Receipts) (anchor : String)
    (current : PhysicalGeometry) : SourceLineageRecord :=
  let parent := parentOf rootPhysical receipts anchor current
  let origin := originOf receipts anchor current
  let receipted := (receiptAnchor receipts anchor).isSome
  { lineageId := instanceLineageId stableHash parent anchor current.geometryId
    parentSnapshotSourceObjectId := parent.bind (·.sourceObjectId)
    childSnapshotSourceObjectId := current.sourceObjectId.getD ""
    oldSourceAnchorId := parent.bind (·.sourceAnchorId)
    newSourceAnchorId := current.sourceAnchorId
    oldInstanceAnchorId := (receiptAnchor receipts anchor).getD (parent.bind (·.instanceAnchorId))
    newInstanceAnchorId := some anchor
    specializedCellOrigin := origin
    currentSpecializedCell := if isTrue origin then current.sourceCell else none
    lineageConfidence :=
      if receipted || parent.isSome then .exact
      else if isTrue origin then .reviewed
      else .unavailable
    reasonCodes := [instanceReason receipted parent.isSome (isTrue origin)] }

/-- The record of a geometry, where the receipt can be read. -/
theorem instanceRecord_eq (h : ReceiptRead receipts anchor) :
    instanceRecord stableHash rootPhysical receipts current anchor =
      .ok (readRecord stableHash rootPhysical receipts anchor current) := by
  unfold instanceRecord correspond readRecord parentOf originOf receiptAnchor
  cases hreceipt : instanceReceipt receipts anchor with
  | none =>
    show (optionalText (jsonText ((soleInstance _).bind (·.instanceAnchorId))) >>= _) = _
    rw [optionalText_jsonText]
    show (optionalText (jsonText (originCell current.sourceCell)) >>= _) = _
    rw [optionalText_jsonText]
    rfl
  | some receipt =>
    obtain ⟨oldCell, oldAnchor, hcell, hanchor⟩ := h receipt hreceipt
    have hcellItem : receipt.item "old_source_cell" = .ok (jsonText oldCell) := by
      rw [Receipt.item, hcell]
    have hanchorItem : receipt.item "old_instance_anchor_id" = .ok (jsonText oldAnchor) := by
      rw [Receipt.item, hanchor]
    dsimp only
    rw [hcellItem, hanchorItem]
    show (getValue (rootByInstanceAnchor rootPhysical) (jsonText oldAnchor) >>= _) >>= _ = _
    rw [getValue_jsonText]
    show (optionalText (jsonText oldAnchor) >>= _) = _
    rw [optionalText_jsonText]
    show (optionalText (jsonText oldCell) >>= _) = _
    rw [optionalText_jsonText]
    simp only [Receipt.get, hcell, hanchor, getD_some, textOf_jsonText, map_some]
    rfl

/-- A geometry has a record exactly if the receipt can be read. -/
theorem instanceRecord_returns_iff :
    (∃ record, instanceRecord stableHash rootPhysical receipts current anchor = .ok record) ↔
      ReceiptRead receipts anchor := by
  constructor
  · rintro ⟨record, h⟩ receipt hreceipt
    unfold instanceRecord correspond at h
    rw [hreceipt] at h
    obtain ⟨found, hfound, h⟩ := bind_eq_ok.1 h
    obtain ⟨origin, horigin, hfound⟩ := bind_eq_ok.1 hfound
    obtain ⟨oldAnchor, holdAnchor, hfound⟩ := bind_eq_ok.1 hfound
    obtain ⟨parent, -, hfound⟩ := bind_eq_ok.1 hfound
    obtain rfl := Except.ok.inj hfound
    obtain ⟨anchorText, hanchorText, h⟩ := bind_eq_ok.1 h
    obtain ⟨cellText, hcellText, -⟩ := bind_eq_ok.1 h
    have hcell : origin = jsonText cellText := optionalText_eq_ok hcellText
    have hold : oldAnchor = jsonText anchorText := optionalText_eq_ok hanchorText
    subst hcell hold
    exact ⟨cellText, anchorText, item_eq_ok horigin, item_eq_ok holdAnchor⟩
  · intro h
    exact ⟨_, instanceRecord_eq stableHash h⟩

/-- **When the records of two geometries are equal.** -/
theorem readRecord_eq_iff :
    readRecord stableHash rootPhysical receipts anchor a =
        readRecord stableHash rootPhysical receipts anchor b ↔
      SameRecord stableHash rootPhysical receipts anchor a b := by
  constructor
  · intro h
    have horigin : originOf receipts anchor a = originOf receipts anchor b :=
      congrArg SourceLineageRecord.specializedCellOrigin h
    refine ⟨congrArg SourceLineageRecord.childSnapshotSourceObjectId h,
      congrArg SourceLineageRecord.newSourceAnchorId h, ?_, horigin, ?_,
      congrArg SourceLineageRecord.lineageId h⟩
    · have hobject := congrArg SourceLineageRecord.parentSnapshotSourceObjectId h
      have hanchor := congrArg SourceLineageRecord.oldSourceAnchorId h
      have hold := congrArg SourceLineageRecord.oldInstanceAnchorId h
      have hreason := congrArg SourceLineageRecord.reasonCodes h
      cases hreceipt : receiptAnchor receipts anchor with
      | some old =>
        -- the receipt names one parent for both
        unfold parentOf
        rw [hreceipt]
      | none =>
        dsimp only [readRecord] at hobject hanchor hold hreason
        rw [hreceipt] at hold hreason
        have hsome := instanceReason_inj (singleton_injective hreason)
        cases hparent : parentOf rootPhysical receipts anchor a with
        | none =>
          rw [hparent] at hsome
          rw [isSome_eq_false_iff.1 hsome.symm |> isNone_iff_eq_none.1]
        | some p =>
          rw [hparent] at hsome
          obtain ⟨q, hparent'⟩ := isSome_iff_exists.1 hsome.symm
          rw [hparent, hparent'] at hobject hanchor hold
          rw [hparent']
          exact congrArg some (Prod.ext hobject (Prod.ext hanchor hold))
    · intro htrue
      have hcell := congrArg SourceLineageRecord.currentSpecializedCell h
      dsimp only [readRecord] at hcell
      rwa [← horigin, if_pos htrue, if_pos htrue] at hcell
  · intro h
    have hobject : ∀ g, (parentOf rootPhysical receipts anchor g).bind (·.sourceObjectId) =
        ((parentOf rootPhysical receipts anchor g).map parentIds).bind (·.1) := by
      intro g
      cases parentOf rootPhysical receipts anchor g <;> rfl
    have hanchor : ∀ g, (parentOf rootPhysical receipts anchor g).bind (·.sourceAnchorId) =
        ((parentOf rootPhysical receipts anchor g).map parentIds).bind (·.2.1) := by
      intro g
      cases parentOf rootPhysical receipts anchor g <;> rfl
    have hold : ∀ g, (parentOf rootPhysical receipts anchor g).bind (·.instanceAnchorId) =
        ((parentOf rootPhysical receipts anchor g).map parentIds).bind (·.2.2) := by
      intro g
      cases parentOf rootPhysical receipts anchor g <;> rfl
    have hsome : ∀ g, (parentOf rootPhysical receipts anchor g).isSome =
        ((parentOf rootPhysical receipts anchor g).map parentIds).isSome := by
      intro g
      cases parentOf rootPhysical receipts anchor g <;> rfl
    have hcell : (if isTrue (originOf receipts anchor a) then a.sourceCell else none) =
        if isTrue (originOf receipts anchor a) then b.sourceCell else none := by
      split_ifs with htrue
      · exact h.cell htrue
      · rfl
    unfold readRecord
    dsimp only
    rw [hobject, hobject, hanchor, hanchor, hold, hold, hsome, hsome, h.parent, h.child,
      h.sourceAnchor, h.lineageId, hcell, h.origin]

/-! ## The order of the geometries -/

theorem instanceLineage_eq (rootPhysical currentPhysical : List PhysicalGeometry)
    (receipts : Receipts) :
    instanceLineage stableHash rootPhysical currentPhysical receipts =
      KeyedLoops.run (fun entry => instanceRecord stableHash rootPhysical receipts entry.2 entry.1)
        (instanceGeometries currentPhysical) := rfl

omit stableHash in
theorem mem_instanceGeometries {entry : String × PhysicalGeometry} :
    entry ∈ instanceGeometries currentPhysical ↔
      entry.2 ∈ currentPhysical ∧ instanceOf entry.2 = some entry.1 := by
  rw [instanceGeometries, mem_filterMap]
  constructor
  · rintro ⟨current, hcurrent, hentry⟩
    obtain ⟨anchor, hanchor, rfl⟩ := map_eq_some_iff.1 hentry
    exact ⟨hcurrent, hanchor⟩
  · rintro ⟨hcurrent, hinstance⟩
    exact ⟨entry.2, hcurrent, by rw [hinstance]; rfl⟩

omit stableHash in
/-- An order of the geometries of instances is one of an order of all geometries. -/
theorem exists_perm_of_instanceGeometries {entries : List (String × PhysicalGeometry)}
    (h : (instanceGeometries currentPhysical).Perm entries) :
    ∃ currentPhysical', currentPhysical.Perm currentPhysical' ∧
      instanceGeometries currentPhysical' = entries := by
  have hself : ∀ l : List (String × PhysicalGeometry),
      (∀ entry ∈ l, instanceOf entry.2 = some entry.1) →
        instanceGeometries (l.map (·.2)) = l := by
    intro l hl
    rw [instanceGeometries, filterMap_map]
    calc l.filterMap ((fun current => (instanceOf current).map fun anchor => (anchor, current)) ∘
          (·.2))
        = l.filterMap some := by
          refine filterMap_congr fun entry hentry => ?_
          show (instanceOf entry.2).map _ = _
          rw [hl entry hentry]
          rfl
      _ = l := filterMap_some
  have hsplit : (instanceGeometries currentPhysical).map (·.2) =
      currentPhysical.filter fun g => (instanceOf g).isSome := by
    rw [instanceGeometries, map_filterMap, ← filterMap_eq_filter]
    refine filterMap_congr fun g _ => ?_
    cases hinstance : instanceOf g with
    | none => simp [Option.guard, hinstance]
    | some anchor => simp [Option.guard, hinstance]
  refine ⟨entries.map (·.2) ++ currentPhysical.filter fun g => !(instanceOf g).isSome, ?_, ?_⟩
  · have hgeometries : (entries.map (·.2)).Perm
        (currentPhysical.filter fun g => (instanceOf g).isSome) := by
      rw [← hsplit]
      exact (h.map _).symm
    exact (filter_append_perm _ currentPhysical).symm.trans (hgeometries.symm.append_right _)
  · have hrest : instanceGeometries (currentPhysical.filter fun g => !(instanceOf g).isSome) =
        [] := by
      rw [instanceGeometries, filterMap_eq_nil_iff]
      intro g hg
      have hnone := (mem_filter.1 hg).2
      rw [Bool.not_eq_true', isSome_eq_false_iff, isNone_iff_eq_none] at hnone
      rw [hnone]
      rfl
    have happend : ∀ l l' : List PhysicalGeometry,
        instanceGeometries (l ++ l') = instanceGeometries l ++ instanceGeometries l' :=
      fun _ _ => filterMap_append
    rw [happend, hrest, append_nil]
    apply hself
    intro entry hentry
    exact (mem_instanceGeometries.1 (h.mem_iff.2 hentry)).2

/-- **When the order of the geometries does not matter** to the lineage of the instances:
exactly if the receipt of some instance cannot be read, so that no order has a lineage, or
the geometries of every instance agree in all that their records depend on. -/
theorem instance_lineage_order_iff (stableHash : Json → String)
    (rootPhysical currentPhysical : List PhysicalGeometry) (receipts : Receipts) :
    (∀ currentPhysical', currentPhysical.Perm currentPhysical' →
      KeyedLoops.SameFinds (instanceLineage stableHash rootPhysical currentPhysical receipts)
        (instanceLineage stableHash rootPhysical currentPhysical' receipts)) ↔
      ((∃ current ∈ currentPhysical, ∃ anchor, instanceOf current = some anchor ∧
          ¬ ReceiptRead receipts anchor) ∨
        ∀ a ∈ currentPhysical, ∀ b ∈ currentPhysical, ∀ anchor, instanceOf a = some anchor →
          instanceOf b = some anchor →
            SameRecord stableHash rootPhysical receipts anchor a b) := by
  have hloop : (∀ currentPhysical', currentPhysical.Perm currentPhysical' →
      KeyedLoops.SameFinds (instanceLineage stableHash rootPhysical currentPhysical receipts)
        (instanceLineage stableHash rootPhysical currentPhysical' receipts)) ↔
      ∀ entries, (instanceGeometries currentPhysical).Perm entries → KeyedLoops.SameFinds
        (instanceLineage stableHash rootPhysical currentPhysical receipts)
        (KeyedLoops.run
          (fun entry => instanceRecord stableHash rootPhysical receipts entry.2 entry.1)
          entries) := by
    constructor
    · intro h entries hentries
      obtain ⟨currentPhysical', hperm, rfl⟩ := exists_perm_of_instanceGeometries hentries
      exact h currentPhysical' hperm
    · intro h currentPhysical' hperm
      exact h _ (hperm.filterMap _)
  rw [hloop, instanceLineage_eq, KeyedLoops.order_free_iff]
  by_cases hread : ∀ current ∈ currentPhysical, ∀ anchor, instanceOf current = some anchor →
      ReceiptRead receipts anchor
  · -- every geometry of an instance has its record
    have hrecord : ∀ entry ∈ instanceGeometries currentPhysical,
        instanceRecord stableHash rootPhysical receipts entry.2 entry.1 =
          .ok (readRecord stableHash rootPhysical receipts entry.1 entry.2) := by
      intro entry hentry
      obtain ⟨hcurrent, hinstance⟩ := mem_instanceGeometries.1 hentry
      exact instanceRecord_eq stableHash (hread _ hcurrent _ hinstance)
    rw [or_iff_right, or_iff_right]
    · constructor
      · intro h a ha b hb anchor hinstance hinstance'
        have hentry : (anchor, a) ∈ instanceGeometries currentPhysical :=
          mem_instanceGeometries.2 ⟨ha, hinstance⟩
        have hentry' : (anchor, b) ∈ instanceGeometries currentPhysical :=
          mem_instanceGeometries.2 ⟨hb, hinstance'⟩
        have hsame := h _ hentry _ hentry' rfl
        rw [hrecord _ hentry, hrecord _ hentry'] at hsame
        exact (readRecord_eq_iff stableHash).1 (Except.ok.inj hsame)
      · intro h entry hentry entry' hentry' hkey
        obtain ⟨ha, hinstance⟩ := mem_instanceGeometries.1 hentry
        obtain ⟨hb, hinstance'⟩ := mem_instanceGeometries.1 hentry'
        rw [hrecord _ hentry, hrecord _ hentry', ← hkey]
        rw [← hkey] at hinstance'
        rw [(readRecord_eq_iff stableHash).2 (h _ ha _ hb _ hinstance hinstance')]
    · rintro ⟨current, hcurrent, anchor, hinstance, hnot⟩
      exact hnot (hread current hcurrent anchor hinstance)
    · rintro ⟨entry, hentry, hfails⟩
      exact hfails _ (hrecord entry hentry)
  · push Not at hread
    obtain ⟨current, hcurrent, anchor, hinstance, hnot⟩ := hread
    refine iff_of_true (Or.inl ⟨(anchor, current), ?_, fun r hr => ?_⟩)
      (Or.inl ⟨current, hcurrent, anchor, hinstance, hnot⟩)
    · exact mem_instanceGeometries.2 ⟨hcurrent, hinstance⟩
    · exact hnot ((instanceRecord_returns_iff stableHash).1 ⟨r, hr⟩)

end Lineage

/-! ## An instance with two geometries -/

/-- The two shapes of an instance, on two layers. -/
def lowerShape : PhysicalGeometry := {
  geometryId := "g1", sourceObjectId := some "o1", instanceAnchorId := some "instance"
  layer := "M1", bboxDbu := ⟨0, 0, 12, 12, by decide, by decide⟩ }

def upperShape : PhysicalGeometry :=
  { lowerShape with geometryId := "g2", sourceObjectId := some "o2", layer := "M2" }

/-- The record of the instance is that of the shape that comes last. -/
theorem instance_lineage_depends_on_order :
    [lowerShape, upperShape].Perm [upperShape, lowerShape] ∧
      ¬ KeyedLoops.SameFinds
        (instanceLineage (fun _ => "hash") [] [lowerShape, upperShape] [])
        (instanceLineage (fun _ => "hash") [] [upperShape, lowerShape] []) := by
  refine ⟨Perm.swap _ _ _, fun h => ?_⟩
  have hfirst : instanceLineage (fun _ => "hash") [] [lowerShape, upperShape] [] =
      .ok [("instance", readRecord (fun _ => "hash") [] [] "instance" upperShape)] := rfl
  have hsecond : instanceLineage (fun _ => "hash") [] [upperShape, lowerShape] [] =
      .ok [("instance", readRecord (fun _ => "hash") [] [] "instance" lowerShape)] := rfl
  rw [hfirst, hsecond] at h
  have hrecord := some.inj (h "instance")
  have hchild := congrArg SourceLineageRecord.childSnapshotSourceObjectId hrecord
  exact absurd hchild (by decide)

end DRCAgent.Lineage
