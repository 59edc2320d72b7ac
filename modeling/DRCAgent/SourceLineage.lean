/-
# The lineage of source objects

`_source_lineage` of `repair_kernel_multistep_repair/current_context.py`: for each object
of the current source, the object of the parent snapshot it comes from. A receipt of the
compiler names the parent; without one it is the object with the same anchor, if nothing
about it has changed; an object of a specialized cell without such a parent may be the one
object of its layer in the cell that was specialized.

A recorded parent is one of these three, and only the first two are recorded as exact
(`source_lineage_sound`).
-/
import DRCAgent.Connectivity
import DRCAgent.ExecutionEnv
import DRCAgent.Failures

namespace DRCAgent.Lineage

open Connectivity Failures Option

/-! ## The records -/

inductive SemanticFidelity
  | exact | reviewed | approximate | unavailable
  deriving DecidableEq

structure SourceLineageRecord where
  lineageId : String
  parentSnapshotSourceObjectId : Option String := none
  childSnapshotSourceObjectId : String
  oldSourceAnchorId : Option String := none
  newSourceAnchorId : Option String := none
  oldInstanceAnchorId : Option String := none
  newInstanceAnchorId : Option String := none
  specializedCellOrigin : Option String := none
  currentSpecializedCell : Option String := none
  parentSnapshotId : Option String := none
  childSnapshotId : Option String := none
  compilerOperation : Option String := none
  beforeSourceIdentity : Option String := none
  afterSourceIdentity : Option String := none
  beforePhysicalGeometryIdentity : Option String := none
  afterPhysicalGeometryIdentity : Option String := none
  verificationStatus : Option String := none
  lineageConfidence : SemanticFidelity
  reasonCodes : List String := []

structure SourceSpan where
  sourceHash : String

/-- The fields of a layout object that its lineage reads. -/
structure LayoutObject extends toNamed : DRCAgent.LayoutObject where
  bboxDbu : Regions.Box
  sourceSpan : Option SourceSpan := none

inductive LineageError
  | keyError | typeError | validationError
  /-- `IntegrityFailure`, with its `failure_code` and `failure_stage`. -/
  | integrityFailure (code stage : String)

/-! ## Values of a receipt -/

/-- A receipt, and the receipts by the id of the current object. -/
abbrev Receipt := List (String × Json)

abbrev Receipts := List (String × Receipt)

/-- `receipt[key]` -/
def Receipt.item (receipt : Receipt) (key : String) : Except LineageError Json :=
  match receipt.lookup key with
  | some value => .ok value
  | none => .error .keyError

/-- `receipt.get(key)` -/
def Receipt.get (receipt : Receipt) (key : String) : Json := (receipt.lookup key).getD .null

/-- `value == text` -/
def isText : Json → Option String → Bool
  | .null, none => true
  | .string value, some text => value = text
  | _, _ => false

/-- A field of a record, which is `None` or a string. -/
def optionalText : Json → Except LineageError (Option String)
  | .null => .ok none
  | .string text => .ok (some text)
  | _ => .error .validationError

/-- `dictionary.get(value)` for a dictionary whose keys are strings. -/
def getValue {A : Type} (dictionary : List (String × A)) : Json → Except LineageError (Option A)
  | .string key => .ok (dictionary.lookup key)
  | .array _ => .error .typeError
  | .object _ => .error .typeError
  | _ => .ok none

theorem isText_iff {value : Json} {text : Option String} :
    isText value text = true ↔ value = (text.map Json.string).getD .null := by
  cases text with
  | none =>
    cases value <;> simp [isText]
  | some text =>
    cases value <;> simp [isText]

/-! ## Cells and identities -/

/-- The characters before the first occurrence of a marker. -/
def before (marker : List Char) : List Char → Option (List Char)
  | [] => if marker.isPrefixOf [] then some [] else none
  | c :: rest =>
    if marker.isPrefixOf (c :: rest) then some []
    else (before marker rest).map (c :: ·)

/-- `_origin_cell` -/
def originCell (name : Option String) : Option String :=
  name.bind fun text => (before "_drc_agent_spec_".toList text.toList).map String.ofList

/-- A string that Python counts as true. -/
def isTrue (value : Option String) : Bool := value.any (· ≠ "")

/-- `_origin_cell_aliases` -/
def originCellAliases (origin : Option String) : List String :=
  match origin with
  | none => []
  | some cell =>
    if cell = "" then []
    else if "cell_".toList.isPrefixOf cell.toList then [cell]
    else [cell, "cell_" ++ cell]

/-- A string, or `None`. -/
def jsonText (value : Option String) : Json := (value.map Json.string).getD .null

section Lineage

variable (stableHash : Json → String)

/-- `_source_object_identity` -/
def sourceObjectIdentity (item : LayoutObject) : String :=
  stableHash (.object [
    ("object_id", .string item.objectId),
    ("source_anchor_id", jsonText item.sourceAnchorId),
    ("source_variable", jsonText item.sourceVariable),
    ("source_cell", jsonText item.sourceCell),
    ("layer", .string item.layer),
    ("source_span_sha256", jsonText (item.sourceSpan.map (·.sourceHash)))])

/-! ## The parent of an object -/

/-- `by_anchor` -/
def byAnchor (rootObjects : List LayoutObject) : List (String × LayoutObject) :=
  Dicts.ofList (rootObjects.filterMap fun item =>
    if isTrue item.sourceAnchorId then item.sourceAnchorId.map fun anchor => (anchor, item)
    else none)

/-- `by_id` -/
def byId (rootObjects : List LayoutObject) : List (String × LayoutObject) :=
  Dicts.ofList (rootObjects.map fun item => (item.objectId, item))

/-- A key of `by_cell_layer`. -/
structure CellLayer where
  cell : String
  layer : String
  deriving DecidableEq

/-- `by_cell_layer` -/
def byCellLayer (rootObjects : List LayoutObject) : List (CellLayer × List LayoutObject) :=
  Dicts.collect (rootObjects.filterMap fun item =>
    if isTrue item.sourceCell then
      item.sourceCell.map fun cell => (⟨cell, item.layer⟩, item)
    else none)

/-- The receipt of the object, if it names an old object. -/
def directReceipt (receipts : Receipts) (current : LayoutObject) : Option Receipt :=
  (receipts.lookup current.objectId).filter fun receipt =>
    (Receipt.get receipt "old_source_object_id").truthy

/-- Whether the parent that a receipt names is not the one that it describes. -/
def receiptMismatch (parent : Option LayoutObject) (current : LayoutObject) (direct : Receipt) :
    Except LineageError Bool :=
  match parent with
  | none => return true
  | some parent => do
    let oldAnchor ← direct.item "old_source_anchor_id"
    if !isText oldAnchor parent.sourceAnchorId then return true
    let identity ← direct.item "before_source_identity"
    if !isText identity (some (sourceObjectIdentity stableHash parent)) then return true
    let geometry ← direct.item "before_physical_geometry_identity"
    if !isText geometry (some parent.geometryHash) then return true
    let childAnchor ← direct.item "child_source_anchor_id"
    return !isText childAnchor current.sourceAnchorId

/-- The key by which the candidates of the origin cell are sorted. -/
def sizeDifference (current item : LayoutObject) : ℤ ×ₗ String :=
  toLex (|item.bboxDbu.width - current.bboxDbu.width| +
    |item.bboxDbu.height - current.bboxDbu.height|, item.objectId)

/-- The objects on the layer in the origin cell. -/
def originCandidates (rootObjects : List LayoutObject) (current : LayoutObject) :
    List LayoutObject :=
  ((originCellAliases (originCell current.sourceCell)).flatMap fun cell =>
    ((byCellLayer rootObjects).lookup ⟨cell, current.layer⟩).getD []).insertionSort
      fun a b => sizeDifference current a ≤ sizeDifference current b

/-- What is found out about an object. -/
structure Resolution where
  parent : Option LayoutObject
  confidence : SemanticFidelity
  reasons : List String

/-- The parent of an object without a receipt. -/
def resolveUnreceipted (rootObjects : List LayoutObject) (current : LayoutObject) : Resolution :=
  match current.sourceAnchorId.bind fun anchor => (byAnchor rootObjects).lookup anchor with
  | some parent =>
    if parent.objectId ≠ current.objectId ∨ parent.geometryHash ≠ current.geometryHash ∨
        sourceObjectIdentity stableHash parent ≠ sourceObjectIdentity stableHash current then
      ⟨none, .unavailable, ["CURRENT_SOURCE_CHANGED_WITHOUT_VERIFIED_CORRESPONDENCE"]⟩
    else ⟨some parent, .exact, ["SOURCE_ANCHOR_STABLE"]⟩
  | none =>
    if isTrue (originCell current.sourceCell) then
      let parent :=
        match originCandidates rootObjects current with
        | [candidate] => some candidate
        | _ => none
      ⟨parent, .reviewed, ["SPECIALIZED_CELL_ORIGIN_RECONSTRUCTED"]⟩
    else ⟨none, .unavailable, ["PARENT_SOURCE_UNAVAILABLE"]⟩

/-- The parent of an object. -/
def resolve (rootObjects : List LayoutObject) (direct : Option Receipt) (current : LayoutObject) :
    Except LineageError Resolution :=
  match direct with
  | some direct => do
    let parent ← getValue (byId rootObjects) (← direct.item "old_source_object_id")
    if ← receiptMismatch stableHash parent current direct then
      throw (.integrityFailure "DIRECT_LINEAGE_PARENT_IDENTITY_MISMATCH" "CURRENT_CONTEXT_LINEAGE")
    return ⟨parent, .exact, ["VERIFIED_COMPILER_DIRECT_MUTATION_RECEIPT"]⟩
  | none => return resolveUnreceipted stableHash rootObjects current

/-- `direct.get(key) if direct else None`, as a field of the record. -/
def receiptField (direct : Option Receipt) (key : String) : Except LineageError (Option String) :=
  optionalText ((direct.map fun receipt => receipt.get key).getD .null)

/-- The record of an object. -/
def sourceRecord (rootObjects : List LayoutObject) (receipts : Receipts)
    (current : LayoutObject) : Except LineageError SourceLineageRecord := do
  let direct := directReceipt receipts current
  let found ← resolve stableHash rootObjects direct current
  let origin := originCell current.sourceCell
  let digest := stableHash (.array [
    jsonText (found.parent.map (·.objectId)), .string current.objectId, jsonText origin,
    (direct.map Json.object).getD .null])
  let parentSnapshotId ← receiptField direct "parent_snapshot_id"
  let childSnapshotId ← receiptField direct "child_snapshot_id"
  let compilerOperation ← receiptField direct "compiler_operation"
  let beforeSourceIdentity ← receiptField direct "before_source_identity"
  let afterSourceIdentity ← receiptField direct "after_source_identity"
  let beforeGeometry ← receiptField direct "before_physical_geometry_identity"
  let afterGeometry ← receiptField direct "after_physical_geometry_identity"
  let verificationStatus ← receiptField direct "verification_status"
  return {
    lineageId := "source_lineage_" ++ String.ofList (digest.toList.take 20)
    parentSnapshotSourceObjectId := found.parent.map (·.objectId)
    childSnapshotSourceObjectId := current.objectId
    oldSourceAnchorId := found.parent.bind (·.sourceAnchorId)
    newSourceAnchorId := current.sourceAnchorId
    specializedCellOrigin := origin
    currentSpecializedCell := if isTrue origin then current.sourceCell else none
    parentSnapshotId := parentSnapshotId
    childSnapshotId := childSnapshotId
    compilerOperation := compilerOperation
    beforeSourceIdentity := beforeSourceIdentity
    afterSourceIdentity := afterSourceIdentity
    beforePhysicalGeometryIdentity := beforeGeometry
    afterPhysicalGeometryIdentity := afterGeometry
    verificationStatus := verificationStatus
    lineageConfidence := found.confidence
    reasonCodes := found.reasons }

/-- `_source_lineage` -/
def sourceLineage (rootObjects currentObjects : List LayoutObject) (receipts : Receipts) :
    Except LineageError (List (String × SourceLineageRecord)) := do
  let entries ← currentObjects.mapM fun current => do
    let record ← sourceRecord stableHash rootObjects receipts current
    return (current.objectId, record)
  return Dicts.ofList entries

/-! ## What a parent is -/

/-- The object is the same in the parent snapshot: the same ids, geometry and identity. -/
structure SameSource (parent current : LayoutObject) : Prop where
  objectId : parent.objectId = current.objectId
  anchor : parent.sourceAnchorId = current.sourceAnchorId
  geometry : parent.geometryHash = current.geometryHash
  identity : sourceObjectIdentity stableHash parent = sourceObjectIdentity stableHash current

/-- A receipt of the object names the parent and describes it as it is. -/
structure NamedByReceipt (receipts : Receipts) (parent current : LayoutObject) (receipt : Receipt) :
    Prop where
  filed : receipts.lookup current.objectId = some receipt
  old : receipt.lookup "old_source_object_id" = some (.string parent.objectId)
  oldAnchor : receipt.lookup "old_source_anchor_id" = some (jsonText parent.sourceAnchorId)
  identity : receipt.lookup "before_source_identity" =
    some (.string (sourceObjectIdentity stableHash parent))
  geometry : receipt.lookup "before_physical_geometry_identity" =
    some (.string parent.geometryHash)
  childAnchor : receipt.lookup "child_source_anchor_id" = some (jsonText current.sourceAnchorId)

/-- The object is on the layer in the cell that was specialized. -/
def InOriginCell (current item : LayoutObject) : Prop :=
  (∃ cell ∈ originCellAliases (originCell current.sourceCell), item.sourceCell = some cell) ∧
    item.layer = current.layer

/-- It is the only such object. -/
def OnlyInOriginCell (rootObjects : List LayoutObject) (current parent : LayoutObject) : Prop :=
  InOriginCell current parent ∧ ∀ item ∈ rootObjects, InOriginCell current item → item = parent

variable {rootObjects : List LayoutObject} {receipts : Receipts} {current parent : LayoutObject}

omit stableHash in
theorem mem_byAnchor {anchor : String} (h : (byAnchor rootObjects).lookup anchor = some parent) :
    parent ∈ rootObjects ∧ parent.sourceAnchorId = some anchor := by
  have hmem : (anchor, parent) ∈ byAnchor rootObjects := Dicts.mem_of_lookup h
  obtain ⟨item, hitem, hentry⟩ := List.mem_filterMap.1 (Dicts.mem_ofList hmem)
  split_ifs at hentry with htrue
  obtain ⟨own, hown, hpair⟩ := map_eq_some_iff.1 hentry
  cases hpair
  exact ⟨hitem, hown⟩

omit stableHash in
theorem mem_byId {id : String} (h : (byId rootObjects).lookup id = some parent) :
    parent ∈ rootObjects ∧ parent.objectId = id := by
  have hmem : (id, parent) ∈ byId rootObjects := Dicts.mem_of_lookup h
  obtain ⟨item, hitem, hentry⟩ := List.mem_map.1 (Dicts.mem_ofList hmem)
  cases hentry
  exact ⟨hitem, rfl⟩

omit stableHash in
/-- The aliases of an origin are not empty. -/
theorem ne_empty_of_alias {origin : Option String} {cell : String}
    (h : cell ∈ originCellAliases origin) : cell ≠ "" := by
  cases origin with
  | none => cases h
  | some name =>
    rw [originCellAliases] at h
    split_ifs at h with hempty hprefix
    · cases h
    · rw [List.mem_singleton.1 h]
      exact hempty
    · rcases List.mem_cons.1 h with rfl | h
      · exact hempty
      · rw [List.mem_singleton.1 h]
        intro heq
        have hlength := congrArg String.length heq
        have hprefix : "cell_".length = 5 := by decide
        rw [String.length_append, hprefix, String.length_empty] at hlength
        omega

omit stableHash in
/-- The objects that are collected under a cell and a layer. -/
theorem mem_byCellLayer {cell layer : String} (hcell : cell ≠ "") {item : LayoutObject} :
    item ∈ ((byCellLayer rootObjects).lookup ⟨cell, layer⟩).getD [] ↔
      item ∈ rootObjects ∧ item.sourceCell = some cell ∧ item.layer = layer := by
  rw [byCellLayer, Dicts.lookup_collect]
  simp only [List.mem_map, List.mem_filter, List.mem_filterMap, decide_eq_true_eq]
  constructor
  · rintro ⟨entry, ⟨⟨object, hobject, hentry⟩, hkey⟩, rfl⟩
    split_ifs at hentry with htrue
    obtain ⟨own, hown, rfl⟩ := map_eq_some_iff.1 hentry
    cases hkey
    exact ⟨hobject, hown, rfl⟩
  · rintro ⟨hitem, hsource, rfl⟩
    refine ⟨(⟨cell, item.layer⟩, item), ⟨⟨item, hitem, ?_⟩, rfl⟩, rfl⟩
    rw [hsource, if_pos]
    · rfl
    · simp [isTrue, hcell]

omit stableHash in
theorem mem_originCandidates {item : LayoutObject} :
    item ∈ originCandidates rootObjects current ↔
      item ∈ rootObjects ∧ InOriginCell current item := by
  rw [originCandidates, List.mem_insertionSort, List.mem_flatMap]
  constructor
  · rintro ⟨cell, hcell, hitem⟩
    obtain ⟨hroot, hsource, hlayer⟩ := (mem_byCellLayer (ne_empty_of_alias hcell)).1 hitem
    exact ⟨hroot, ⟨cell, hcell, hsource⟩, hlayer⟩
  · rintro ⟨hroot, ⟨cell, hcell, hsource⟩, hlayer⟩
    exact ⟨cell, hcell, (mem_byCellLayer (ne_empty_of_alias hcell)).2 ⟨hroot, hsource, hlayer⟩⟩

/-! ## What is resolved -/

/-- What is resolved for an object is sound: a parent is of one of the three kinds, and it is
exact only if it is of the first two. -/
inductive Resolution.Sound (rootObjects : List LayoutObject) (receipts : Receipts)
    (current : LayoutObject) : Resolution → Prop
  | same {parent reasons} : parent ∈ rootObjects → SameSource stableHash parent current →
      Sound rootObjects receipts current ⟨some parent, .exact, reasons⟩
  | receipt {parent receipt reasons} : parent ∈ rootObjects →
      NamedByReceipt stableHash receipts parent current receipt →
      Sound rootObjects receipts current ⟨some parent, .exact, reasons⟩
  | origin {parent reasons} : parent ∈ rootObjects → OnlyInOriginCell rootObjects current parent →
      Sound rootObjects receipts current ⟨some parent, .reviewed, reasons⟩
  | missing {confidence reasons} : confidence ≠ .exact →
      Sound rootObjects receipts current ⟨none, confidence, reasons⟩

/-- Without a receipt. -/
theorem resolveUnreceipted_sound :
    Resolution.Sound stableHash rootObjects receipts current
      (resolveUnreceipted stableHash rootObjects current) := by
  rw [resolveUnreceipted]
  cases hanchor : current.sourceAnchorId.bind fun anchor =>
      (byAnchor rootObjects).lookup anchor with
  | some parent =>
    obtain ⟨anchor, hown, hlookup⟩ := bind_eq_some_iff.1 hanchor
    obtain ⟨hroot, hparent⟩ := mem_byAnchor hlookup
    dsimp only
    split_ifs with hchanged
    · exact .missing (by decide)
    · push Not at hchanged
      obtain ⟨hid, hgeometry, hidentity⟩ := hchanged
      exact .same hroot ⟨hid, hparent.trans hown.symm, hgeometry, hidentity⟩
  | none =>
    dsimp only
    split_ifs with horigin
    · cases hcandidates : originCandidates rootObjects current with
      | nil => exact .missing (by decide)
      | cons candidate rest =>
        cases rest with
        | cons _ _ => exact .missing (by decide)
        | nil =>
          have hmem : ∀ item, item ∈ rootObjects ∧ InOriginCell current item ↔
              item = candidate := by
            intro item
            rw [← mem_originCandidates, hcandidates, List.mem_singleton]
          obtain ⟨hroot, hin⟩ := (hmem candidate).2 rfl
          exact .origin hroot ⟨hin, fun item hitem hcell => (hmem item).1 ⟨hitem, hcell⟩⟩
    · exact .missing (by decide)

omit stableHash in
theorem item_eq_ok {receipt : Receipt} {key : String} {value : Json}
    (h : receipt.item key = .ok value) : receipt.lookup key = some value := by
  unfold Receipt.item at h
  cases hlookup : receipt.lookup key with
  | none =>
    rw [hlookup] at h
    cases h
  | some found =>
    rw [hlookup] at h
    rw [Except.ok.inj h]

/-- A parent that is not rejected is the one that the receipt describes. -/
theorem receiptMismatch_false {parent : Option LayoutObject} {direct : Receipt}
    (h : receiptMismatch stableHash parent current direct = .ok false) :
    ∃ p, parent = some p ∧
      direct.lookup "old_source_anchor_id" = some (jsonText p.sourceAnchorId) ∧
      direct.lookup "before_source_identity" =
        some (.string (sourceObjectIdentity stableHash p)) ∧
      direct.lookup "before_physical_geometry_identity" = some (.string p.geometryHash) ∧
      direct.lookup "child_source_anchor_id" = some (jsonText current.sourceAnchorId) := by
  cases parent with
  | none => cases h
  | some p =>
    unfold receiptMismatch at h
    obtain ⟨oldAnchor, hold, h⟩ := bind_eq_ok.1 h
    split_ifs at h with holdText
    · cases h
    obtain ⟨identity, hidentity, h⟩ := bind_eq_ok.1 h
    split_ifs at h with hidentityText
    · cases h
    obtain ⟨geometry, hgeometry, h⟩ := bind_eq_ok.1 h
    split_ifs at h with hgeometryText
    · cases h
    obtain ⟨childAnchor, hchild, h⟩ := bind_eq_ok.1 h
    have hchildText := Except.ok.inj h
    simp only [Bool.not_eq_true', Bool.not_eq_false, Bool.not_eq_false', isText_iff]
      at holdText hidentityText hgeometryText hchildText
    subst holdText hidentityText hgeometryText hchildText
    exact ⟨p, rfl, item_eq_ok hold, item_eq_ok hidentity, item_eq_ok hgeometry, item_eq_ok hchild⟩

/-- With a receipt or without one. -/
theorem resolve_sound {found : Resolution}
    (h : resolve stableHash rootObjects (directReceipt receipts current) current = .ok found) :
    found.Sound stableHash rootObjects receipts current := by
  cases hdirect : directReceipt receipts current with
  | none =>
    rw [hdirect] at h
    obtain rfl := Except.ok.inj h
    exact resolveUnreceipted_sound stableHash
  | some direct =>
    rw [hdirect] at h
    obtain ⟨old, hold, h⟩ := bind_eq_ok.1 h
    obtain ⟨parent, hparent, h⟩ := bind_eq_ok.1 h
    obtain ⟨mismatch, hmismatch, h⟩ := bind_eq_ok.1 h
    cases mismatch with
    | true => cases h
    | false =>
      obtain rfl := Except.ok.inj h
      obtain ⟨p, rfl, hanchor, hidentity, hgeometry, hchild⟩ :=
        receiptMismatch_false stableHash hmismatch
      have hreceipt := (filter_eq_some_iff.1 hdirect).1
      cases old with
      | string id =>
        obtain ⟨hroot, hid⟩ := mem_byId (Except.ok.inj hparent)
        subst hid
        exact .receipt hroot ⟨hreceipt, item_eq_ok hold, hanchor, hidentity, hgeometry, hchild⟩
      | null => cases hparent
      | bool _ => cases hparent
      | number _ => cases hparent
      | infinity _ => cases hparent
      | nan => cases hparent
      | array _ => cases hparent
      | object _ => cases hparent

/-! ## The lineage -/

/-- The record of an object has what was resolved for it. -/
theorem sourceRecord_eq_ok {record : SourceLineageRecord}
    (h : sourceRecord stableHash rootObjects receipts current = .ok record) :
    ∃ found, resolve stableHash rootObjects (directReceipt receipts current) current = .ok found ∧
      record.parentSnapshotSourceObjectId = found.parent.map (·.objectId) ∧
      record.oldSourceAnchorId = found.parent.bind (·.sourceAnchorId) ∧
      record.childSnapshotSourceObjectId = current.objectId ∧
      record.lineageConfidence = found.confidence := by
  unfold sourceRecord at h
  obtain ⟨found, hfound, h⟩ := bind_eq_ok.1 h
  obtain ⟨_, -, h⟩ := bind_eq_ok.1 h
  obtain ⟨_, -, h⟩ := bind_eq_ok.1 h
  obtain ⟨_, -, h⟩ := bind_eq_ok.1 h
  obtain ⟨_, -, h⟩ := bind_eq_ok.1 h
  obtain ⟨_, -, h⟩ := bind_eq_ok.1 h
  obtain ⟨_, -, h⟩ := bind_eq_ok.1 h
  obtain ⟨_, -, h⟩ := bind_eq_ok.1 h
  obtain ⟨_, -, h⟩ := bind_eq_ok.1 h
  rw [← Except.ok.inj h]
  exact ⟨found, hfound, rfl, rfl, rfl, rfl⟩

/-- The records are those of current objects, under their ids. -/
theorem sourceLineage_lookup {currentObjects : List LayoutObject}
    {result : List (String × SourceLineageRecord)} {id : String} {record : SourceLineageRecord}
    (h : sourceLineage stableHash rootObjects currentObjects receipts = .ok result)
    (hrecord : result.lookup id = some record) :
    ∃ current ∈ currentObjects, current.objectId = id ∧
      sourceRecord stableHash rootObjects receipts current = .ok record := by
  obtain ⟨entries, hentries, h⟩ := bind_eq_ok.1 h
  obtain rfl := Except.ok.inj h
  have hmem : (id, record) ∈ entries := Dicts.mem_ofList (Dicts.mem_of_lookup hrecord)
  obtain ⟨current, hcurrent, hentry⟩ := (mem_mapM hentries _).1 hmem
  obtain ⟨own, hown, hentry⟩ := bind_eq_ok.1 hentry
  cases Except.ok.inj hentry
  exact ⟨current, hcurrent, rfl, hown⟩

/-- **The lineage of source objects is sound.**  A parent that is recorded for an object is an
object of the parent snapshot, and is the same source object, or is named by a receipt that
describes it, or is the only object of the layer in the origin cell. A lineage is exact only
in the first two cases. -/
theorem source_lineage_sound (stableHash : Json → String)
    (rootObjects currentObjects : List LayoutObject) (receipts : Receipts)
    (result : List (String × SourceLineageRecord)) (id : String) (record : SourceLineageRecord)
    (h : sourceLineage stableHash rootObjects currentObjects receipts = .ok result)
    (hrecord : result.lookup id = some record) :
    ∃ current ∈ currentObjects, current.objectId = id ∧
      (∀ parentId, record.parentSnapshotSourceObjectId = some parentId →
        ∃ parent ∈ rootObjects, parent.objectId = parentId ∧
          record.oldSourceAnchorId = parent.sourceAnchorId ∧
          (SameSource stableHash parent current ∨
            (∃ receipt, NamedByReceipt stableHash receipts parent current receipt) ∨
            OnlyInOriginCell rootObjects current parent)) ∧
      (record.lineageConfidence = .exact →
        ∃ parent ∈ rootObjects, record.parentSnapshotSourceObjectId = some parent.objectId ∧
          (SameSource stableHash parent current ∨
            ∃ receipt, NamedByReceipt stableHash receipts parent current receipt)) := by
  obtain ⟨current, hcurrent, hid, hsource⟩ := sourceLineage_lookup stableHash h hrecord
  obtain ⟨found, hfound, hparent, hanchor, -, hconfidence⟩ := sourceRecord_eq_ok stableHash hsource
  refine ⟨current, hcurrent, hid, ?_⟩
  rw [hparent, hanchor, hconfidence]
  have hsound := resolve_sound stableHash hfound
  cases hsound with
  | @same parent reasons hroot hsame =>
    constructor
    · rintro _ hname
      exact ⟨parent, hroot, some.inj hname, rfl, Or.inl hsame⟩
    · intro _
      exact ⟨parent, hroot, rfl, Or.inl hsame⟩
  | @receipt parent receipt reasons hroot hnamed =>
    constructor
    · rintro _ hname
      exact ⟨parent, hroot, some.inj hname, rfl, Or.inr (Or.inl ⟨receipt, hnamed⟩)⟩
    · intro _
      exact ⟨parent, hroot, rfl, Or.inr ⟨receipt, hnamed⟩⟩
  | @origin parent reasons hroot honly =>
    constructor
    · rintro _ hname
      exact ⟨parent, hroot, some.inj hname, rfl, Or.inr (Or.inr honly)⟩
    · intro hexact
      cases hexact
  | missing hnot =>
    constructor
    · rintro _ hname
      cases hname
    · intro hexact
      exact absurd hexact hnot

end Lineage

/-! ## A lineage -/

/-- A square in the cell `cell_A`, and the same in a specialization of the cell. -/
def cellSquare : LayoutObject := {
  objectId := "o", sourceAnchorId := some "anchor", sourceVariable := none
  sourceCell := some "cell_A", layer := "M1", geometryHash := "g"
  bboxDbu := ⟨0, 0, 10, 10, by decide, by decide⟩ }

def specializedSquare : LayoutObject :=
  { cellSquare with
    objectId := "s", sourceAnchorId := some "other"
    sourceCell := some "cell_A_drc_agent_spec_1" }

/-- The parent of the unchanged square is the square; that of the specialized one is the only
square of its layer in the cell. -/
theorem source_lineage_sound_sample :
    ∃ result record, sourceLineage (fun _ => "hash") [cellSquare] [cellSquare, specializedSquare]
        [] = .ok result ∧ result.lookup "s" = some record ∧
      record.parentSnapshotSourceObjectId = some "o" ∧ record.lineageConfidence = .reviewed ∧
      ∃ current ∈ [cellSquare, specializedSquare], current.objectId = "s" ∧
        ∃ parent ∈ [cellSquare], parent.objectId = "o" ∧
          (SameSource (fun _ => "hash") parent current ∨
            (∃ receipt, NamedByReceipt (fun _ => "hash") [] parent current receipt) ∨
            OnlyInOriginCell [cellSquare] current parent) := by
  have hreturns : ((sourceLineage (fun _ => "hash") [cellSquare] [cellSquare, specializedSquare]
      []).toOption.bind (·.lookup "s")).any (fun record =>
        record.parentSnapshotSourceObjectId == some "o" &&
          record.lineageConfidence == .reviewed) = true := by
    decide +kernel
  obtain ⟨record, hlookup, hfields⟩ := Option.any_eq_true _ _ |>.1 hreturns
  obtain ⟨result, hresult, hrecord⟩ := bind_eq_some_iff.1 hlookup
  have hreturned : sourceLineage (fun _ => "hash") [cellSquare] [cellSquare, specializedSquare]
      [] = .ok result := by
    cases hrun : sourceLineage (fun _ => "hash") [cellSquare] [cellSquare, specializedSquare] []
      with
    | error e =>
      rw [hrun] at hresult
      cases hresult
    | ok value =>
      rw [hrun] at hresult
      exact congrArg _ (some.inj hresult)
  rw [Bool.and_eq_true, beq_iff_eq, beq_iff_eq] at hfields
  refine ⟨result, record, hreturned, hrecord, hfields.1, hfields.2, ?_⟩
  obtain ⟨current, hcurrent, hid, hparents, -⟩ :=
    source_lineage_sound _ _ _ _ _ _ _ hreturned hrecord
  obtain ⟨parent, hroot, hparent, -, hkind⟩ := hparents "o" hfields.1
  exact ⟨current, hcurrent, hid, parent, hroot, hparent, hkind⟩

end DRCAgent.Lineage
