/-
# What the checks read

The helpers of `CandidateChecker.validate` that may raise, each with the condition on its
input under which it does not. A condition follows the helper: it asks for a value only
where the helper comes to read it.

Main results:

* `never_provenLocalDecomposition`: for the proof of a local decomposition.
* `never_predicateIssue`: for a semantic predicate.
* `never_localityIssue` and `never_objectEffect`: for the locality and the heuristic effect.
-/
import DRCAgent.CandidateChecker
import DRCAgent.Failures

namespace DRCAgent.Candidates

open Failures List Option
open Connectivity (Json PyError)
open Regions (Box RuleFamily EditabilityClass ViolationRecord Doubles)

/-! ## Values -/

section Values

variable {ext : Externals} {design : DesignState} {predicate : Predicate} {value : Json}
  {α : Type} {read : Json → Except PyError α}

/-- The parameter is there and is read as the value. -/
def Predicate.Has (predicate : Predicate) (key : String) (read : Json → Except PyError α)
    (a : α) : Prop :=
  ∃ value, predicate.parameters.lookup key = some value ∧ read value = .ok a

/-- `parameters[key]`, read. -/
theorem item_read_eq_ok {key : String} {a : α} :
    predicate.item key >>= read = .ok a ↔ predicate.Has key read a := by
  rw [bind_eq_ok, Predicate.Has, Predicate.item]
  cases predicate.parameters.lookup key with
  | none =>
    constructor
    · rintro ⟨_, h, -⟩
      cases h
    · rintro ⟨_, h, -⟩
      cases h
  | some found =>
    constructor
    · rintro ⟨value, h, hread⟩
      exact ⟨value, congrArg some (Except.ok.inj h), hread⟩
    · rintro ⟨value, h, hread⟩
      exact ⟨value, congrArg Except.ok (some.inj h), hread⟩

theorem box_eq_ok {box : Box} : ext.box value = .ok box ↔ ext.boxOf value = some box := by
  rw [Externals.box]
  cases ext.boxOf value with
  | none => exact ⟨fun h => (nomatch h), fun h => (nomatch h)⟩
  | some found => exact ⟨fun h => congrArg some (Except.ok.inj h), fun h => congrArg Except.ok
      (some.inj h)⟩

/-- `design.objects` has a valid object of the id. -/
def Readable (design : DesignState) (objectId : String) : Prop :=
  ∃ obj, design.objects.lookup objectId = some (.record obj)

theorem record_eq_ok {objectId : String} {obj : LayoutObject} :
    design.record objectId = .ok obj ↔ design.objects.lookup objectId = some (.record obj) := by
  rw [DesignState.record]
  cases design.objects.lookup objectId with
  | none => exact ⟨fun h => (nomatch h), fun h => (nomatch h)⟩
  | some raw =>
    cases raw with
    | record found =>
      constructor
      · exact fun h => by rw [Except.ok.inj h]
      · exact fun h => by rw [RawObject.record.inj (some.inj h)]
    | _ => exact ⟨fun h => (nomatch h), fun h => (nomatch h)⟩

theorem never_record {objectId : String} :
    Never anything (design.record objectId) ↔ Readable design objectId := by
  rw [never_anything]
  exact exists_congr fun _ => record_eq_ok

theorem record?_eq_some {objectId : String} {obj : LayoutObject} :
    design.record? objectId = .ok (some obj) ↔
      design.objects.lookup objectId = some (.record obj) := by
  rw [DesignState.record?]
  cases design.objects.lookup objectId with
  | none => exact ⟨fun h => (nomatch h), fun h => (nomatch h)⟩
  | some raw =>
    cases raw with
    | record found =>
      constructor
      · exact fun h => by rw [some.inj (Except.ok.inj h)]
      · exact fun h => by rw [RawObject.record.inj (some.inj h)]
    | _ => exact ⟨fun h => (nomatch h), fun h => (nomatch h)⟩

theorem never_record? {objectId : String} :
    Never anything (design.record? objectId) ↔
      design.objects.lookup objectId ≠ some .invalid := by
  rw [DesignState.record?]
  cases design.objects.lookup objectId with
  | none => exact ⟨fun _ h => (nomatch h), fun _ => never_ok _⟩
  | some raw =>
    cases raw with
    | invalid => exact ⟨fun h => absurd h not_never_error, fun h => absurd rfl h⟩
    | _ => exact ⟨fun _ h => (nomatch h), fun _ => never_ok _⟩

/-- `str` of the integer does not exceed the limit. -/
def Printable (value : ℤ) : Prop := value.natAbs < 10 ^ 4300

theorem never_intText {value : ℤ} : Never anything (intText value) ↔ Printable value := by
  rw [intText, never_ite]
  constructor
  · intro h
    by_contra hlong
    exact not_never_error (h.2 hlong)
  · exact fun h => ⟨fun _ => never_ok _, fun hlong => absurd h hlong⟩

/-- A message with two integers. -/
theorem never_message {β : Type} {left right : ℤ} {message : String → String → β} :
    Never anything (do
      let leftText ← intText left
      let rightText ← intText right
      return message leftText rightText) ↔ Printable left ∧ Printable right := by
  rw [never_anything_both, never_intText, never_intText]

/-- The box does not turn inside out. -/
def Grows (box : Box) (amount : ℤ) : Prop :=
  box.x1 - amount ≤ box.x2 + amount ∧ box.y1 - amount ≤ box.y2 + amount

theorem never_expandBox {box : Box} {amount : ℤ} :
    Never anything (expandBox box amount) ↔ Grows box amount := by
  rw [expandBox, Box.expand, Box.make]
  by_cases h : box.x1 - amount ≤ box.x2 + amount ∧ box.y1 - amount ≤ box.y2 + amount
  · rw [dif_pos h]
    exact ⟨fun _ => h, fun _ => never_ok _⟩
  · rw [dif_neg h]
    exact ⟨fun hn => absurd hn not_never_error, fun hg => absurd hg h⟩

theorem grows_of_nonneg {box : Box} {amount : ℤ} (h : 0 ≤ amount) : Grows box amount := by
  have hordered := box.ordered
  exact ⟨by omega, by omega⟩

theorem never_geometryBox {polygon : List Point} :
    Never anything (geometryBox polygon) ↔ polygon ≠ [] := by
  cases polygon with
  | nil => exact ⟨fun h => absurd h not_never_error, fun h => absurd rfl h⟩
  | cons p points => exact ⟨fun _ h => (nomatch h), fun _ => never_ok _⟩

end Values

/-! ## Local decompositions -/

section Decomposition

variable (ext : Externals) (candidate : RepairCandidate) (design : DesignState)

/-- The fragment can be looked up. -/
def FragmentBound (fragmentId : Json) : Prop :=
  design.localTopology = [] ∨ ∃ fragments,
    ((design.localTopology.lookup "fragments").getD .null).orEmpty = .object fragments ∧
      hashable fragmentId = true

/-- The parent can be looked up, and is valid where it is there. -/
def ParentReadable (parentId : Json) : Prop :=
  hashable parentId = true ∧
    ∀ id, parentId = .string id → design.objects.lookup id ≠ some .invalid

/-- The number of the pieces is an integer, and they have the polygons that are looked at. -/
def PiecesDefined (predicate : Predicate) (fragmentBox : Box) (parentId : String)
    (parent : LayoutObject) : Prop :=
  ∀ delete replacement, deletesOf candidate parentId = [delete] →
    replacementsOf candidate parentId = [replacement] →
      ∃ count, ((predicate.parameters.lookup "side_piece_count").getD (.number (-1))).toInt
          ext.intOfText = .ok count ∧
        ((sidesOf candidate).length = count → oneGroup candidate parent = true →
          ∃ box, geometryBox replacement.firstPolygon = .ok box ∧
            (box.intersects fragmentBox = true →
              ∀ side ∈ sidesOf candidate, side.firstPolygon ≠ []))

/-- The boxes of the predicate and of the fragment are boxes. -/
def BoxesDefined (predicate : Predicate) (fragment : List (String × Json)) (parentId : String)
    (parent : LayoutObject) : Prop :=
  ∃ changed, ext.boxOf (predicate.get "changed_footprint_dbu") = some changed ∧
    (changed = candidate.editFootprintDbu →
      ∃ value fragmentBox given, fragment.lookup "bbox_dbu" = some value ∧
        ext.boxOf value = some fragmentBox ∧
        ext.boxOf (predicate.get "fragment_bbox_dbu") = some given ∧
        (given = fragmentBox → PiecesDefined ext candidate predicate fragmentBox parentId parent))

/-- **The decomposition can be read**, where the candidate has exactly one. -/
def DecompositionDefined : Prop :=
  ∀ predicate, fragmentPredicates candidate = [predicate] →
    FragmentBound design (predicate.get "fragment_id") ∧
    ∀ fragment, boundFragment design (predicate.get "fragment_id") = .ok fragment →
      fragment.truthy = true →
        ParentReadable design (predicate.get "parent_object_id") ∧
        ∀ parentId parent,
          parentOf design (predicate.get "parent_object_id") = .ok (some (parentId, parent)) →
            ∃ entries, fragment = .object entries ∧
              (ownsFragment predicate entries parentId parent = true →
                BoxesDefined ext candidate predicate entries parentId parent)

/-- The ids of the violations of the fragment are a collection of values with a hash. -/
def NamesDefined (predicate : Predicate) : Prop :=
  FragmentBound design (predicate.get "fragment_id") ∧
  ∀ fragment, boundFragment design (predicate.get "fragment_id") = .ok fragment →
    fragment.truthy = true → ∃ entries, fragment = .object entries ∧
      (((entries.lookup "violation_ids").getD .null).truthy = true →
        ∃ items, ((entries.lookup "violation_ids").getD .null).items = .ok items ∧
          items.all hashable = true)

/-- The decomposition can be read, and so can the ids where it is proven. -/
def TargetsDefined : Prop :=
  DecompositionDefined ext candidate design ∧
    (provenLocalDecomposition ext candidate design = .ok true →
      ∀ predicate, fragmentPredicates candidate = [predicate] → NamesDefined design predicate)

variable {ext candidate design} {predicate : Predicate}

theorem never_boundFragment {fragmentId : Json} :
    Never anything (boundFragment design fragmentId) ↔ FragmentBound design fragmentId := by
  rw [boundFragment, FragmentBound, never_ite, List.isEmpty_iff]
  by_cases hempty : design.localTopology = []
  · exact ⟨fun _ => .inl hempty, fun _ => ⟨fun _ => never_ok _, fun h => absurd hempty h⟩⟩
  · rw [or_iff_right hempty, and_iff_right (fun h => absurd h hempty), forall_prop_of_true hempty]
    cases ((design.localTopology.lookup "fragments").getD .null).orEmpty with
    | object fragments =>
      have hentry : (∃ entries, Json.object fragments = .object entries ∧
          hashable fragmentId = true) ↔ hashable fragmentId = true :=
        ⟨fun ⟨_, _, h⟩ => h, fun h => ⟨fragments, rfl, h⟩⟩
      rw [hentry]
      cases fragmentId with
      | array _ => exact ⟨fun h => absurd h not_never_error, fun h => (nomatch h)⟩
      | object _ => exact ⟨fun h => absurd h not_never_error, fun h => (nomatch h)⟩
      | _ => exact ⟨fun _ => rfl, fun _ => never_ok _⟩
    | _ =>
      refine ⟨fun h => absurd h not_never_error, ?_⟩
      rintro ⟨_, h, -⟩
      cases h

theorem never_parentOf {parentId : Json} :
    Never anything (parentOf design parentId) ↔ ParentReadable design parentId := by
  cases parentId with
  | string id =>
    rw [ParentReadable, parentOf, never_bind, never_record?]
    constructor
    · rintro ⟨h, -⟩
      refine ⟨rfl, fun other hother => ?_⟩
      rwa [← Json.string.inj hother]
    · exact fun h => ⟨h.2 id rfl, fun _ _ => never_ok _⟩
  | array _ => exact ⟨fun h => absurd h not_never_error, fun h => (nomatch h.1)⟩
  | object _ => exact ⟨fun h => absurd h not_never_error, fun h => (nomatch h.1)⟩
  | _ => exact ⟨fun _ => ⟨rfl, fun _ h => (nomatch h)⟩, fun _ => never_ok _⟩

theorem never_provenPieces {fragmentBox : Box} {parentId : String} {parent : LayoutObject} :
    Never anything (provenPieces ext candidate predicate fragmentBox parentId parent) ↔
      PiecesDefined ext candidate predicate fragmentBox parentId parent := by
  rw [provenPieces, PiecesDefined]
  rcases deletesOf candidate parentId with _ | ⟨delete, _ | ⟨_, _⟩⟩
  · exact iff_of_true (never_ok _) fun _ _ h => absurd h (by simp)
  · rcases replacementsOf candidate parentId with _ | ⟨replacement, _ | ⟨_, _⟩⟩
    · exact iff_of_true (never_ok _) fun _ _ _ h => absurd h (by simp)
    · have hsides : (∃ boxes, ((sidesOf candidate).mapM fun edit =>
          geometryBox edit.firstPolygon) = .ok boxes) ↔
            ∀ side ∈ sidesOf candidate, side.firstPolygon ≠ [] := by
        rw [← never_anything, never_anything_mapM]
        exact forall₂_congr fun _ _ => never_geometryBox
      simp only [never_anything_bind, never_ite, never_pure, implies_true, true_and, and_true,
        not_or, not_not, ne_eq, Bool.not_eq_true', Bool.not_eq_false, and_imp, hsides]
      constructor
      · intro h _ other _ hother
        rwa [← singleton_inj.1 hother]
      · exact fun h => h delete replacement rfl rfl
    · exact iff_of_true (never_ok _) fun _ _ _ h => absurd h (by simp)
  · exact iff_of_true (never_ok _) fun _ _ h => absurd h (by simp)

theorem never_provenBoxes {fragment : List (String × Json)} {parentId : String}
    {parent : LayoutObject} :
    Never anything (provenBoxes ext candidate predicate fragment parentId parent) ↔
      BoxesDefined ext candidate predicate fragment parentId parent := by
  have hfield : ∀ {box : Box}, ((Json.object fragment).field "bbox_dbu" >>= ext.box) = .ok box ↔
      ∃ value, fragment.lookup "bbox_dbu" = some value ∧ ext.boxOf value = some box := by
    intro box
    rw [bind_eq_ok, Json.field]
    cases fragment.lookup "bbox_dbu" with
    | none => simp
    | some value => simp [box_eq_ok]
  rw [provenBoxes, BoxesDefined]
  simp only [never_anything_bind, never_ite, never_pure, implies_true, true_and, ne_eq, not_not,
    box_eq_ok, hfield, never_provenPieces]
  refine exists_congr fun changed => and_congr_right fun _ => forall_congr' fun _ => ?_
  constructor
  · rintro ⟨fragmentBox, ⟨value, hvalue, hbox⟩, given, hgiven, h⟩
    exact ⟨value, fragmentBox, given, hvalue, hbox, hgiven, h⟩
  · rintro ⟨value, fragmentBox, given, hvalue, hbox, hgiven, h⟩
    exact ⟨fragmentBox, ⟨value, hvalue, hbox⟩, given, hgiven, h⟩

theorem never_provenBy : Never anything (provenBy ext candidate design predicate) ↔
    FragmentBound design (predicate.get "fragment_id") ∧
    ∀ fragment, boundFragment design (predicate.get "fragment_id") = .ok fragment →
      fragment.truthy = true →
        ParentReadable design (predicate.get "parent_object_id") ∧
        ∀ parentId parent,
          parentOf design (predicate.get "parent_object_id") = .ok (some (parentId, parent)) →
            ∃ entries, fragment = .object entries ∧
              (ownsFragment predicate entries parentId parent = true →
                BoxesDefined ext candidate predicate entries parentId parent) := by
  rw [provenBy, never_bind, never_boundFragment]
  refine and_congr_right fun _ => forall₂_congr fun fragment _ => ?_
  rw [never_ite, and_iff_right (fun _ => never_pure _), Bool.not_eq_true', Bool.not_eq_false,
    never_bind, never_parentOf]
  refine forall_congr' fun _ => and_congr_right fun _ => ?_
  constructor
  · intro h parentId parent hparent
    have hrest := h _ hparent
    cases fragment with
    | object entries =>
      refine ⟨entries, rfl, fun howns => ?_⟩
      rw [← never_provenBoxes]
      dsimp only at hrest
      rw [never_ite] at hrest
      refine hrest.2 ?_
      rw [howns]
      exact Bool.false_ne_true
    | _ => exact absurd hrest not_never_error
  · intro h found hfound
    match found, hfound with
    | none, _ => exact never_ok _
    | some (parentId, parent), hparent =>
      obtain ⟨entries, rfl, hboxes⟩ := h parentId parent hparent
      dsimp only
      rw [never_ite]
      refine ⟨fun _ => never_ok _, fun howns => ?_⟩
      rw [Bool.not_eq_true', Bool.not_eq_false] at howns
      exact never_provenBoxes.2 (hboxes howns)

/-- **The proof of a local decomposition returns** exactly when it can be read. -/
theorem never_provenLocalDecomposition :
    Never anything (provenLocalDecomposition ext candidate design) ↔
      DecompositionDefined ext candidate design := by
  rw [provenLocalDecomposition, DecompositionDefined]
  match fragmentPredicates candidate with
  | [predicate] =>
    dsimp only
    rw [never_provenBy]
    constructor
    · intro h other hother
      rwa [← singleton_inj.1 hother]
    · exact fun h => h predicate rfl
  | [] => exact ⟨fun _ _ h => (nomatch h), fun _ => never_ok _⟩
  | _ :: _ :: _ => exact ⟨fun _ _ h => (nomatch h), fun _ => never_ok _⟩

theorem never_setOf {value : Json} : Never anything (setOf value) ↔
    ∃ items, value.items = .ok items ∧ items.all hashable = true := by
  rw [setOf, never_anything_bind]
  refine exists_congr fun items => and_congr_right fun _ => ?_
  rw [never_ite, and_iff_right (fun _ => never_pure _)]
  constructor
  · intro h
    by_contra hnot
    exact not_never_error (h hnot)
  · exact fun h hnot => absurd h hnot

theorem never_fragmentNames {violationId : String} :
    Never anything (fragmentNames design predicate violationId) ↔ NamesDefined design predicate := by
  rw [fragmentNames, NamesDefined, never_bind, never_boundFragment]
  refine and_congr_right fun _ => forall₂_congr fun fragment _ => ?_
  rw [never_ite, and_iff_right (fun _ => never_pure _), Bool.not_eq_true', Bool.not_eq_false]
  refine forall_congr' fun _ => ?_
  cases fragment with
  | object entries =>
    have hentries : ∀ (P : List (String × Json) → Prop),
        (∃ other, Json.object entries = .object other ∧ P other) ↔ P entries := by
      intro P
      constructor
      · rintro ⟨other, heq, h⟩
        rwa [Json.object.inj heq]
      · exact fun h => ⟨entries, rfl, h⟩
    rw [hentries]
    dsimp only
    rw [never_anything_bind_ok fun _ => never_pure _, never_setOf]
    split_ifs with htruthy
    · exact ⟨fun h _ => h, fun h => h htruthy⟩
    · exact ⟨fun _ h => absurd h htruthy, fun _ => ⟨[], rfl, rfl⟩⟩
  | _ =>
    refine ⟨fun h => absurd h not_never_error, ?_⟩
    rintro ⟨_, h, -⟩
    cases h

/-- **The test whether the decomposition is for a violation.** -/
theorem never_localDecompositionTargetsViolation {violationId : String} :
    Never anything (localDecompositionTargetsViolation ext candidate design violationId) ↔
      TargetsDefined ext candidate design := by
  rw [localDecompositionTargetsViolation, TargetsDefined, never_bind,
    never_provenLocalDecomposition]
  refine and_congr_right fun _ => ?_
  constructor
  · intro h hproven predicate hpredicate
    have hnames := h true hproven
    rw [if_pos rfl, hpredicate] at hnames
    exact never_fragmentNames.1 hnames
  · intro h proven hproven
    cases proven with
    | false => exact never_ok _
    | true =>
      rw [if_pos rfl]
      match hpredicates : fragmentPredicates candidate with
      | [] => exact never_ok _
      | [predicate] => exact never_fragmentNames.2 (h hproven predicate hpredicates)
      | _ :: _ :: _ =>
        rw [provenLocalDecomposition, hpredicates] at hproven
        cases hproven

end Decomposition

/-! ## Semantic predicates -/

section Semantics

variable (ext : Externals) (candidate : RepairCandidate) (design : DesignState)
  (predicate : Predicate)

/-- `int` of a value. -/
abbrev readInt : Json → Except PyError ℤ := Json.toInt ext.intOfText

/-- The reference width is an integer, and the message on a mismatch can be written. -/
def WidthDefined : Prop :=
  ∃ expected, readInt ext
      ((predicate.parameters.lookup "reference_width_dbu").getD (.number (-1))) = .ok expected ∧
    ∀ polygon box, targetPolygons candidate = [polygon] → geometryBox polygon = .ok box →
      (if isText (predicate.get "axis") "Y" then box.height else box.width) ≠ expected →
        Printable (if isText (predicate.get "axis") "Y" then box.height else box.width) ∧
          Printable expected

/-- The parameters are there and are a box, an integer and a text; the parent is valid where
it is there, and the marker grows by the enclosure. -/
def EnclosureDefined : Prop :=
  ∃ marker required parentId, predicate.Has "marker_bbox_dbu" ext.box marker ∧
    predicate.Has "minimum_enclosure_dbu" (readInt ext) required ∧
    predicate.Has "parent_object_id" ext.text parentId ∧
    design.objects.lookup parentId ≠ some .invalid ∧
    (Readable design parentId → patchPolygons candidate ≠ [] → Grows marker required)

/-- The parameters are there and are a text and integers, and the period is not zero where
the edge is at the target. -/
def AlignmentDefined : Prop :=
  ∃ axis period origin target, predicate.Has "axis" ext.text axis ∧
    predicate.Has "period_dbu" (readInt ext) period ∧
    predicate.Has "origin_dbu" (readInt ext) origin ∧
    predicate.Has "target_coordinate_dbu" (readInt ext) target ∧
    ∀ polygon box, targetPolygons candidate = [polygon] → geometryBox polygon = .ok box →
      (if axis = "Y" then box.y1 else box.x1) = target → period ≠ 0

/-- **The parameters of a predicate can be read**, by its kind. -/
def PredicateDefined : Prop :=
  (predicate.kind = "local_fragment_decomposition" → DecompositionDefined ext candidate design) ∧
    (predicate.kind = "match_reference_width" → WidthDefined ext candidate predicate) ∧
    (predicate.kind = "ensure_enclosure" → EnclosureDefined ext candidate design predicate) ∧
    (predicate.kind = "snap_edge_to_legal_alignment" → AlignmentDefined ext candidate predicate)

variable {ext candidate design predicate}

/-- The boxes of polygons with vertices. -/
theorem exists_boxes {polygons : List (List Point)} (h : ∀ polygon ∈ polygons, polygon ≠ []) :
    ∃ boxes, polygons.mapM geometryBox = .ok boxes := by
  rw [← never_anything, never_anything_mapM]
  exact fun polygon hpolygon => never_geometryBox.2 (h polygon hpolygon)

/-- A test of the only box, where there is one polygon. -/
theorem forall_only_box {polygons : List (List Point)} {boxes : List Box} {P : Box → Prop}
    (h : polygons.mapM geometryBox = .ok boxes) :
    (∀ box, boxes = [box] → P box) ↔
      ∀ polygon box, polygons = [polygon] → geometryBox polygon = .ok box → P box := by
  have hall := mapM_eq_ok h
  constructor
  · rintro hboxes polygon box rfl hbox
    cases hall with
    | cons hfirst hrest =>
      cases hrest
      rw [hbox] at hfirst
      exact hboxes box (by rw [Except.ok.inj hfirst])
  · rintro hpolygons box rfl
    cases hall with
    | cons hfirst hrest =>
      cases hrest
      exact hpolygons _ _ rfl hfirst

theorem never_widthIssue (hpolygons : ∀ polygon ∈ targetPolygons candidate, polygon ≠ []) :
    Never anything (widthIssue ext candidate predicate) ↔ WidthDefined ext candidate predicate := by
  obtain ⟨boxes, hboxes⟩ := exists_boxes hpolygons
  rw [widthIssue, WidthDefined, never_anything_bind]
  refine exists_congr fun expected => and_congr_right fun _ => ?_
  rw [← forall_only_box hboxes, hboxes]
  rcases boxes with _ | ⟨box, _ | ⟨_, _⟩⟩
  · exact ⟨fun _ _ h => (nomatch h), fun _ => never_ok _⟩
  · show Never anything (if _ then _ else _) ↔ _
    rw [never_ite, and_iff_left (fun _ => never_pure _), never_message]
    constructor
    · intro h other hother
      rwa [← singleton_inj.1 hother]
    · exact fun h => h box rfl
  · exact ⟨fun _ _ h => (nomatch h), fun _ => never_ok _⟩

/-- A parameter that is read before the rest. -/
theorem never_item_bind {β γ : Type} {key : String} {read : Json → Except PyError β}
    {rest : β → Except PyError γ} : Never anything (predicate.item key >>= read >>= rest) ↔
      ∃ b, predicate.Has key read b ∧ Never anything (rest b) := by
  rw [never_anything_bind]
  exact exists_congr fun _ => and_congr_left fun _ => item_read_eq_ok

theorem never_alignmentIssue (hpolygons : ∀ polygon ∈ targetPolygons candidate, polygon ≠ []) :
    Never anything (alignmentIssue ext candidate predicate) ↔
      AlignmentDefined ext candidate predicate := by
  obtain ⟨boxes, hboxes⟩ := exists_boxes hpolygons
  rw [alignmentIssue, AlignmentDefined]
  simp only [never_item_bind, hboxes, exists_and_left]
  refine exists_congr fun axis => and_congr_right fun _ => exists_congr fun period =>
    and_congr_right fun _ => exists_congr fun origin => and_congr_right fun _ =>
      exists_congr fun target => and_congr_right fun _ => ?_
  rw [← forall_only_box hboxes]
  rcases boxes with _ | ⟨box, _ | ⟨_, _⟩⟩
  · exact ⟨fun _ _ h => (nomatch h), fun _ => never_ok _⟩
  · show Never anything (if _ then _ else _) ↔ _
    rw [never_ite, never_ite, and_iff_left fun _ => ⟨fun _ => never_pure _, fun _ => never_pure _⟩]
    constructor
    · intro h other hother htarget hperiod
      rw [← singleton_inj.1 hother] at htarget
      exact not_never_error (h ⟨htarget, hperiod⟩)
    · rintro h ⟨htarget, hperiod⟩
      exact absurd hperiod (h box rfl htarget)
  · exact ⟨fun _ _ h => (nomatch h), fun _ => never_ok _⟩

theorem never_patchIssue (hpolygons : ∀ polygon ∈ patchPolygons candidate, polygon ≠ [])
    {marker : Box} {required : ℤ} {parent : LayoutObject} :
    Never anything (patchIssue candidate marker required parent) ↔
      (patchPolygons candidate ≠ [] → Grows marker required) := by
  obtain ⟨patches, hpatches⟩ := exists_boxes hpolygons
  have hempty : patches.isEmpty = true ↔ patchPolygons candidate = [] := by
    rw [List.isEmpty_iff, ← length_eq_zero_iff, ← length_eq_zero_iff,
      (mapM_eq_ok hpatches).length_eq]
  have hlast : ∀ requiredBox, Never anything
      (if patches.any fun patch => encloses patch requiredBox parent.bboxDbu then
        (pure none : Except PyError (Option (String × String)))
      else pure (some ("SEMANTIC_ENCLOSURE_MISMATCH",
        "local patch does not both enclose the marker and overlap its parent route"))) :=
    fun _ => never_ite.2 ⟨fun _ => never_pure _, fun _ => never_pure _⟩
  rw [patchIssue, hpatches]
  show Never anything (if patches.isEmpty = true then _ else _) ↔ _
  rw [never_ite, and_iff_right fun _ => never_pure _, hempty, never_anything_bind_ok hlast,
    never_expandBox]

theorem never_enclosureIssue (hpolygons : ∀ polygon ∈ patchPolygons candidate, polygon ≠ []) :
    Never anything (enclosureIssue ext candidate design predicate) ↔
      EnclosureDefined ext candidate design predicate := by
  rw [enclosureIssue, EnclosureDefined]
  simp only [never_item_bind, exists_and_left]
  refine exists_congr fun marker => and_congr_right fun _ => exists_congr fun required =>
    and_congr_right fun _ => exists_congr fun parentId => and_congr_right fun _ => ?_
  rw [never_bind, never_record?]
  refine and_congr_right fun _ => ?_
  constructor
  · rintro h ⟨parent, hparent⟩
    exact (never_patchIssue hpolygons).1 (h (some parent) (record?_eq_some.2 hparent))
  · intro h found hfound
    match found, hfound with
    | none, _ => exact never_ok _
    | some parent, hparent =>
      exact (never_patchIssue hpolygons).2 (h ⟨parent, record?_eq_some.1 hparent⟩)

theorem never_fragmentIssue : Never anything (fragmentIssue ext candidate design) ↔
    DecompositionDefined ext candidate design := by
  rw [fragmentIssue, never_anything_bind_ok, never_provenLocalDecomposition]
  intro proven
  exact never_ite.2 ⟨fun _ => never_pure _, fun _ => never_pure _⟩

/-- The after polygons all have vertices. -/
def PolygonsDrawn (candidate : RepairCandidate) : Prop :=
  ∀ edit ∈ candidate.edits, ∀ polygon ∈ edit.afterPolygons, polygon ≠ []

/-- So have those of some of the edits. -/
theorem PolygonsDrawn.filter (hdrawn : PolygonsDrawn candidate) {p : LayoutEdit → Bool} :
    ∀ polygon ∈ (candidate.edits.filter p).flatMap (·.afterPolygons), polygon ≠ [] := by
  intro polygon hpolygon
  obtain ⟨edit, hedit, hmem⟩ := mem_flatMap.1 hpolygon
  exact hdrawn edit (mem_filter.1 hedit).1 polygon hmem

/-- **The report of a predicate returns** exactly when its parameters can be read. -/
theorem never_predicateIssue (hdrawn : PolygonsDrawn candidate) :
    Never anything (predicateIssue ext candidate design predicate) ↔
      PredicateDefined ext candidate design predicate := by
  have htargets : ∀ polygon ∈ targetPolygons candidate, polygon ≠ [] := hdrawn.filter
  have hpatches : ∀ polygon ∈ patchPolygons candidate, polygon ≠ [] := hdrawn.filter
  rw [predicateIssue, PredicateDefined, never_ite, never_ite, never_ite, never_ite,
    never_fragmentIssue, never_widthIssue htargets, never_enclosureIssue hpatches,
    never_alignmentIssue htargets]
  by_cases hfragment : predicate.kind = "local_fragment_decomposition"
  · simp [hfragment]
  · by_cases hwidth : predicate.kind = "match_reference_width"
    · simp [hwidth]
    · by_cases henclosure : predicate.kind = "ensure_enclosure"
      · simp [henclosure]
      · simp [hfragment, hwidth, henclosure]

end Semantics

/-! ## Locality and effects -/

section Locality

variable (ext : Externals) (candidate : RepairCandidate) (design : DesignState)
  (region : RegionState) (violations : List (String × ViolationRecord))

/-- The decomposition can be read where a local footprint is admitted but misses its target. -/
def LocalityDefined : Prop :=
  candidate.semanticObjective ∈ localObjectives →
    ∀ marker markers, targetMarkers candidate violations = marker :: markers →
    ∀ influence,
      expandBox (markers.foldl Box.union marker) (max (design.manufacturingGridDbu * 4) 1) =
        .ok influence →
    ∀ localScope,
      expandBox region.bboxDbu (max (design.manufacturingGridDbu * 4) 1) = .ok localScope →
      within candidate.editFootprintDbu region.editHaloDbu = true →
      candidate.editFootprintDbu.area ≤ max (max (influence.area * 16) (localScope.area * 4))
        (max (design.manufacturingGridDbu * 4) 1 * max (design.manufacturingGridDbu * 4) 1 * 16) →
      candidate.editFootprintDbu.intersects influence = false → TargetsDefined ext candidate design

variable {ext candidate design region violations}

/-- The decomposition is tested for every target, with the first of them. -/
theorem never_allM_targets (hne : candidate.targetViolationIds ≠ []) :
    Never anything (candidate.targetViolationIds.allM
      (localDecompositionTargetsViolation ext candidate design)) ↔
        TargetsDefined ext candidate design := by
  rw [never_allM]
  constructor
  · intro h
    obtain ⟨first, rest, heq⟩ := exists_cons_of_ne_nil hne
    refine never_localDecompositionTargetsViolation.1 (h first ?_)
    rw [heq]
    exact reachedIn_cons.2 (.inl rfl)
  · exact fun h _ _ => never_localDecompositionTargetsViolation.2 h

theorem never_localityIssue :
    Never anything (localityIssue ext candidate design region violations) ↔
      LocalityDefined ext candidate design region violations := by
  have hmargin : 0 ≤ max (design.manufacturingGridDbu * 4) 1 := le_max_of_le_right Int.one_nonneg
  have hexpand : ∀ box : Box,
      Never anything (expandBox box (max (design.manufacturingGridDbu * 4) 1)) :=
    fun box => never_expandBox.2 (grows_of_nonneg hmargin)
  rw [localityIssue, LocalityDefined, never_ite, and_iff_right fun _ => never_ok _, not_not]
  refine forall_congr' fun _ => ?_
  match hmarkers : targetMarkers candidate violations with
  | [] => exact ⟨fun _ _ _ h => (nomatch h), fun _ => never_ok _⟩
  | marker :: markers =>
    have hne : candidate.targetViolationIds ≠ [] := by
      intro hnil
      rw [targetMarkers, hnil] at hmarkers
      cases hmarkers
    dsimp only
    simp only [never_bind, hexpand, true_and, never_ite, never_pure, implies_true, true_and,
      and_true, never_allM_targets hne, Bool.not_eq_true', Bool.not_eq_false, not_lt,
      Bool.not_eq_true]
    constructor
    · intro h other others heq
      obtain ⟨rfl, rfl⟩ := cons.inj heq
      exact h
    · exact fun h => h marker markers rfl

end Locality

section Effects

variable (D : Type) [CheckedDoubles D] (candidate : RepairCandidate)

/-- The centre of the box is not too large a number. -/
def CentroidDefined (box : Box) : Prop :=
  CheckedDoubles.trueDivRaises D (box.x1 + box.x2) 2 = false ∧
    CheckedDoubles.trueDivRaises D (box.y1 + box.y2) 2 = false

/-- The squares of the distances on the axes are not too large. -/
def DistanceDefined (left right : Box) : Prop :=
  CentroidDefined D left ∧ CentroidDefined D right ∧
    CheckedDoubles.squareRaises (Doubles.sub (Doubles.trueDiv (left.x1 + left.x2) 2 : D)
      (Doubles.trueDiv (right.x1 + right.x2) 2)) = false ∧
    CheckedDoubles.squareRaises (Doubles.sub (Doubles.trueDiv (left.y1 + left.y2) 2 : D)
      (Doubles.trueDiv (right.y1 + right.y2) 2)) = false

/-- The square of the gap is not too large. -/
def GapDefined (left right : Box) : Prop :=
  CheckedDoubles.rootRaises D
    (max (max (left.x1 - right.x2) (right.x1 - left.x2)) 0 *
        max (max (left.x1 - right.x2) (right.x1 - left.x2)) 0 +
      max (max (left.y1 - right.y2) (right.y1 - left.y2)) 0 *
        max (max (left.y1 - right.y2) (right.y1 - left.y2)) 0) = false

/-- The distances that the effect on an object compares are not too large. -/
def EffectDefined (violation : ViolationRecord) (after before : Box) : Prop :=
  match violation.ruleFamily with
  | .spacing | .short =>
    GapDefined D after violation.markerBboxDbu ∧ GapDefined D before violation.markerBboxDbu
  | .alignment =>
    DistanceDefined D after violation.markerBboxDbu ∧ DistanceDefined D before violation.markerBboxDbu
  | _ => True

/-- The objects that are reached have effects that can be computed. -/
def HeuristicDefined (violation : ViolationRecord) (objects : List LayoutObject) : Prop :=
  ∀ obj, ReachedIn (fun other => effectOn D candidate violation other = .ok false) objects obj →
    ∀ after, afterBox candidate obj.objectId = some after →
      EffectDefined D violation after obj.bboxDbu

variable {D candidate} {violation : ViolationRecord}

theorem never_checkedGap {left right : Box} :
    Never anything (checkedGap left right : Except PyError D) ↔ GapDefined D left right := by
  rw [checkedGap, GapDefined, ← Bool.not_eq_true]
  exact never_anything_guard

theorem checkedCentroid_eq_ok {low high : ℤ} {c : D} : checkedCentroid low high = .ok c ↔
    CheckedDoubles.trueDivRaises D (low + high) 2 = false ∧ c = Doubles.trueDiv (low + high) 2 := by
  rw [checkedCentroid]
  split_ifs with h
  · simp [h]
  · simp [h, eq_comm]

theorem checkedSquare_eq_ok {value c : D} : checkedSquare value = .ok c ↔
    CheckedDoubles.squareRaises value = false ∧ c = CheckedDoubles.square value := by
  rw [checkedSquare]
  split_ifs with h
  · simp [h]
  · simp [h, eq_comm]

theorem never_centroidDistance {left right : Box} :
    Never anything (centroidDistance left right : Except PyError D) ↔
      DistanceDefined D left right := by
  rw [centroidDistance, DistanceDefined, CentroidDefined, CentroidDefined]
  simp only [never_anything_bind, checkedCentroid_eq_ok, checkedSquare_eq_ok, and_assoc,
    exists_and_left, exists_eq_left, exists_eq, never_pure, and_true]

/-- **The effect on one object can be computed** exactly when its distances can. -/
theorem never_objectEffect {after before : Box} :
    Never anything (objectEffect D candidate violation after before) ↔
      EffectDefined D violation after before := by
  rw [objectEffect, EffectDefined]
  cases violation.ruleFamily with
  | spacing | short =>
    dsimp only
    rw [never_anything_both, never_checkedGap, never_checkedGap]
  | alignment =>
    dsimp only
    rw [never_anything_both, never_centroidDistance, never_centroidDistance]
  | _ => exact ⟨fun _ => trivial, fun _ => never_ok _⟩

/-- **The heuristic effect can be computed** exactly when those on the objects it reaches can. -/
theorem never_heuristicEffect {objects : List LayoutObject} :
    Never anything (heuristicEffect D candidate violation objects) ↔
      HeuristicDefined D candidate violation objects := by
  rw [heuristicEffect, HeuristicDefined, never_anyM]
  refine forall₂_congr fun obj _ => ?_
  rw [effectOn]
  cases afterBox candidate obj.objectId with
  | none => exact ⟨fun _ _ h => (nomatch h), fun _ => never_ok _⟩
  | some after =>
    dsimp only
    rw [never_objectEffect]
    constructor
    · intro h other hother
      rwa [← some.inj hother]
    · exact fun h => h after rfl

end Effects

end DRCAgent.Candidates
