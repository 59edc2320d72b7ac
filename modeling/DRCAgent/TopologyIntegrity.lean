/-
# The topology is complete and refers to itself

The guarantee of `LocalTopologyBuilder.build` (src/drc_agent/regions/topology.py): one
fragment for each violation and eligible object that meet, within both boxes; endpoints,
indexes and adjacencies that name fragments and landings that are there; and one adjacency
for each two fragments, or landing and fragment, that are near, and no others.

The ids are shortened hashes, so this takes violations and objects with distinct ids and
hashes that keep the fragments and the endpoints apart in the digits of the ids; then no
record replaces another. All of this is counted in lists that a partial function makes from
a list without duplicates: the pairs of violations and objects, the pairs of fragments, and
the pairs of landings and fragments (`countP_filterMap_of_unique`).

Main result: `build_complete`.
-/
import DRCAgent.GroupedSlices
import DRCAgent.TopologyRecords

namespace DRCAgent.Topology

open List
open Connectivity (PyError)
open Dicts (sortedItems sortedItems_perm)
open Groups (mem_collect)
open Regions (Box ViolationRecord pairs mem_pairs mem_of_mem_pairs)

/-! ## Counting -/

section Counting

variable {α β : Type}

/-- Where at most one element can give a value with a property, there is one such value if it
does. -/
theorem countP_filterMap_of_unique {l : List α} (hnodup : l.Nodup) {f : α → Option β}
    {p : β → Prop} [DecidablePred p] {x : α} {c : Prop} [Decidable c]
    (hx : c ↔ x ∈ l ∧ ∃ b, f x = some b ∧ p b)
    (honly : ∀ y ∈ l, ∀ b, f y = some b → p b → y = x) :
    (l.filterMap f).countP (fun b => p b) = if c then 1 else 0 := by
  classical
  have hgives : ∀ y, ((f y).map (fun b => decide (p b))).getD false = true ↔
      ∃ b, f y = some b ∧ p b := by
    intro y
    cases f y with
    | none => simp
    | some b => simp
  rw [countP_filterMap]
  -- the elements that give such a value are the copies of one, and there is one copy
  split_ifs with h
  · obtain ⟨hmem, b, hb, hp⟩ := hx.1 h
    rw [← count_eq_one_of_mem hnodup hmem, List.count]
    refine countP_congr fun y hy => ?_
    rw [hgives, beq_iff_eq]
    constructor
    · rintro ⟨b', hb', hp'⟩
      exact honly y hy b' hb' hp'
    · rintro rfl
      exact ⟨b, hb, hp⟩
  · refine countP_eq_zero.2 fun y hy hp => h (hx.2 ?_)
    obtain ⟨b, hb, hp⟩ := (hgives y).1 hp
    obtain rfl := honly y hy b hb hp
    exact ⟨hy, b, hb, hp⟩

variable {items : List α} {x y : α}

/-- Two members of a list without duplicates are a pair of it in one order only. -/
theorem pairs_asymm (hnodup : items.Nodup) (h : (x, y) ∈ pairs items) :
    (y, x) ∉ pairs items := by
  induction items with
  | nil => cases h
  | cons first rest ih =>
    obtain ⟨hfirst, hrest⟩ := nodup_cons.1 hnodup
    rw [pairs, mem_append] at h ⊢
    rintro h'
    have hcase : ∀ {a b : α}, (a, b) ∈ rest.map (fun other => (first, other)) →
        a = first ∧ b ∈ rest := by
      intro a b hmem
      obtain ⟨other, hother, heq⟩ := mem_map.1 hmem
      obtain ⟨rfl, rfl⟩ := Prod.mk.inj heq
      exact ⟨rfl, hother⟩
    -- the first element is in no pair of the rest
    rcases h with h | h <;> rcases h' with h' | h'
    · exact hfirst ((hcase h').1 ▸ (hcase h).2)
    · exact hfirst ((hcase h).1 ▸ (mem_of_mem_pairs h').2)
    · exact hfirst ((hcase h').1 ▸ (mem_of_mem_pairs h).2)
    · exact ih hrest h h'

theorem nodup_pairs (hnodup : items.Nodup) : (pairs items).Nodup := by
  induction items with
  | nil => exact nodup_nil
  | cons first rest ih =>
    obtain ⟨hfirst, hrest⟩ := nodup_cons.1 hnodup
    rw [pairs]
    refine Nodup.append ?_ (ih hrest) ?_
    · exact hrest.map fun a b h => (Prod.mk.inj h).2
    · intro pair hleft hright
      obtain ⟨other, -, rfl⟩ := mem_map.1 hleft
      exact hfirst (mem_of_mem_pairs hright).1

end Counting

/-! ## Indexes -/

section Indexes

variable {entries : List (String × String)}

/-- An entry of an index has ids, and all of them under its key. -/
theorem mem_sortedIndex {entry : String × List String}
    (h : entry ∈ sortedIndex (Dicts.collect entries)) :
    entry.2 ≠ [] ∧ ∀ id ∈ entry.2, (entry.1, id) ∈ entries := by
  obtain ⟨group, hgroup, rfl⟩ := mem_map.1 h
  have hgroup := (sortedItems_perm _).mem_iff.1 hgroup
  constructor
  · intro hnil
    obtain ⟨id, hid⟩ := exists_mem_of_ne_nil _ (Dicts.ne_nil_of_mem_collect hgroup)
    have hid : id ∈ sortedSet group.2 := mem_sortedSet.2 hid
    rw [show sortedSet group.2 = [] from hnil] at hid
    cases hid
  · intro id hid
    have hid : id ∈ group.2 := mem_sortedSet.1 hid
    exact mem_collect.1 ⟨group, hgroup, rfl, hid⟩

/-- Every id is reached from its key. -/
theorem lookup_sortedIndex {key id : String} (h : (key, id) ∈ entries) :
    ∃ ids, (sortedIndex (Dicts.collect entries)).lookup key = some ids ∧ id ∈ ids := by
  obtain ⟨group, hgroup, rfl, hid⟩ := mem_collect.2 h
  have hsorted : group ∈ sortedItems (Dicts.collect entries) :=
    (sortedItems_perm _).mem_iff.2 hgroup
  have hnodup : ((sortedItems (Dicts.collect entries)).map (·.1)).Nodup :=
    (((sortedItems_perm _).map _).nodup_iff).2 (Dicts.nodup_keys_collect entries)
  refine ⟨sortedSet group.2, ?_, mem_sortedSet.2 hid⟩
  rw [sortedIndex, Dicts.lookup_map_value, Dicts.lookup_of_mem hnodup hsorted]
  rfl

end Indexes

/-! ## Hashes that are apart -/

section Hashes

variable (stableHash : HashInput → String) (builder : Builder)

/-- What is hashed to the id of the fragment of a piece. -/
def Piece.value (piece : Piece) : HashInput :=
  fragmentValue piece.violation piece.obj piece.box

/-- What is hashed to the ids of the endpoints of a piece. -/
def Piece.endpointValues (piece : Piece) : List HashInput :=
  (ends piece.obj piece.box).zipIdx.map fun entry =>
    .pointed (piece.fragment stableHash).fragmentId entry.2 entry.1.1

/-- The values that the build hashes for fragments and endpoints. -/
def hashedValues (violations : List ViolationRecord) (objects : List LayoutObject) :
    List HashInput :=
  let all := pieces builder violations (objects.filter isSource)
  all.map Piece.value ++ all.flatMap (Piece.endpointValues stableHash)

/-- No two values that the build hashes for fragments and endpoints have the same digits in
the ids. -/
def HashesApart (violations : List ViolationRecord) (objects : List LayoutObject) : Prop :=
  ∀ a ∈ hashedValues stableHash builder violations objects,
    ∀ b ∈ hashedValues stableHash builder violations objects,
      (stableHash a).toList.take 20 = (stableHash b).toList.take 20 → a = b

instance (violations : List ViolationRecord) (objects : List LayoutObject) :
    Decidable (HashesApart stableHash builder violations objects) :=
  inferInstanceAs (Decidable (∀ a ∈ _, ∀ b ∈ _, _ → _))

variable {stableHash} {builder} {violations : List ViolationRecord}
  {objects : List LayoutObject}

/-- An id tells the digits of the hash. -/
theorem shortId_injective {kind : String} {a b : HashInput}
    (h : shortId stableHash kind a = shortId stableHash kind b) :
    (stableHash a).toList.take 20 = (stableHash b).toList.take 20 := by
  have h := congrArg String.toList h
  rw [shortId, shortId, String.toList_append, String.toList_append, String.toList_ofList,
    String.toList_ofList] at h
  exact append_cancel_left h

theorem sortViolations_perm : (sortViolations violations).Perm violations :=
  perm_insertionSort _ violations

/-- A piece is of a violation and an eligible object of the source. -/
theorem mem_pieces {piece : Piece}
    (h : piece ∈ pieces builder violations (objects.filter isSource)) :
    piece.violation ∈ violations ∧ piece.obj ∈ objects ∧
      Eligible piece.violation piece.obj ∧ intersection piece.obj.bboxDbu
        (influenceWindow builder piece.violation.markerBboxDbu) = some piece.box := by
  obtain ⟨⟨violation, obj⟩, hpair, hpiece⟩ := mem_filterMap.1 h
  obtain ⟨hviolation, hobj⟩ := mem_product.1 hpair
  obtain ⟨hobj, hsource⟩ := mem_filter.1 hobj
  obtain ⟨box, hbox, rfl⟩ := Option.map_eq_some_iff.1 hpiece
  obtain ⟨heligible, hbox⟩ := (clippedOf_eq_some hsource).1 hbox
  exact ⟨hviolation, hobj, heligible, hbox⟩

/-- The order of the violations does not matter to the pieces there are. -/
theorem mem_pieces_sorted {piece : Piece} :
    piece ∈ pieces builder (sortViolations violations) (objects.filter isSource) ↔
      piece ∈ pieces builder violations (objects.filter isSource) := by
  rw [pieces, pieces, mem_filterMap, mem_filterMap]
  refine exists_congr fun pair => and_congr_left fun _ => ?_
  rw [mem_product, mem_product, sortViolations_perm.mem_iff]

/-- A piece is known by the ids of its violation and its object. -/
theorem piece_unique (hviolations : (violations.map (·.violationId)).Nodup)
    (hobjects : (objects.map (·.objectId)).Nodup) {p q : Piece}
    (hp : p ∈ pieces builder violations (objects.filter isSource))
    (hq : q ∈ pieces builder violations (objects.filter isSource))
    (hviolation : p.violation.violationId = q.violation.violationId)
    (hobj : p.obj.objectId = q.obj.objectId) : p = q := by
  obtain ⟨hpv, hpo, -, hpbox⟩ := mem_pieces hp
  obtain ⟨hqv, hqo, -, hqbox⟩ := mem_pieces hq
  have hsameViolation := inj_on_of_nodup_map hviolations hpv hqv hviolation
  have hsameObj := inj_on_of_nodup_map hobjects hpo hqo hobj
  obtain ⟨violation, obj, box⟩ := p
  obtain ⟨violation', obj', box'⟩ := q
  dsimp only at hsameViolation hsameObj hpbox hqbox
  subst hsameViolation hsameObj
  rw [hpbox] at hqbox
  rw [Option.some.inj hqbox]

/-- A fragment id tells its piece. -/
theorem HashesApart.eq_of_fragmentId (happart : HashesApart stableHash builder violations objects)
    (hviolations : (violations.map (·.violationId)).Nodup)
    (hobjects : (objects.map (·.objectId)).Nodup) {p q : Piece}
    (hp : p ∈ pieces builder violations (objects.filter isSource))
    (hq : q ∈ pieces builder violations (objects.filter isSource))
    (h : (p.fragment stableHash).fragmentId = (q.fragment stableHash).fragmentId) : p = q := by
  have hvalue : p.value = q.value :=
    happart _ (mem_append_left _ (mem_map_of_mem hp)) _
      (mem_append_left _ (mem_map_of_mem hq)) (shortId_injective h)
  injection hvalue with hobj hviolation
  exact piece_unique hviolations hobjects hp hq hviolation hobj

/-- An endpoint id tells its fragment. -/
theorem HashesApart.eq_of_endpointId (happart : HashesApart stableHash builder violations objects)
    {p q : Piece} (hp : p ∈ pieces builder violations (objects.filter isSource))
    (hq : q ∈ pieces builder violations (objects.filter isSource)) {e e' : RouteEndpoint}
    (he : e ∈ p.endpoints stableHash) (he' : e' ∈ q.endpoints stableHash)
    (h : e.endpointId = e'.endpointId) : e.fragmentId = e'.fragmentId := by
  obtain ⟨entry, hentry, rfl⟩ := mem_map.1 he
  obtain ⟨entry', hentry', rfl⟩ := mem_map.1 he'
  have hvalue := happart _
    (mem_append_right _ (mem_flatMap.2 ⟨p, hp, mem_map_of_mem hentry⟩)) _
    (mem_append_right _ (mem_flatMap.2 ⟨q, hq, mem_map_of_mem hentry'⟩))
    (shortId_injective h)
  injection hvalue

/-- The pieces are distinct. -/
theorem nodup_pieces (hviolations : (violations.map (·.violationId)).Nodup)
    (hobjects : (objects.map (·.objectId)).Nodup) :
    (pieces builder (sortViolations violations) (objects.filter isSource)).Nodup := by
  refine Nodup.filterMap ?_ (Nodup.product ?_ ?_)
  · intro pair pair' piece hpair hpair'
    exact (eq_of_pieceOf hpair).symm.trans (eq_of_pieceOf hpair')
  · exact sortViolations_perm.nodup_iff.2 hviolations.of_map
  · exact hobjects.of_map.filter _

end Hashes

/-! ## Adjacencies -/

section Adjacencies

variable (builder : Builder)

/-- The fragments are on one layer, of distinct objects, and near. -/
def SameLayer (a b : RouteFragment) : Prop :=
  a.layer = b.layer ∧ a.parentObjectId ≠ b.parentObjectId ∧
    Near builder.minimumWindowDbu a.bboxDbu b.bboxDbu

instance (a b : RouteFragment) : Decidable (SameLayer builder a b) :=
  inferInstanceAs (Decidable (_ ∧ _ ∧ _))

/-- The fragment is on a metal of the via, of the violation of the landing, and overlaps the
landing or is near. -/
def ViaMetal (metals : List String) (landing : ViaLanding) (fragment : RouteFragment) : Prop :=
  fragment.layer ∈ metals ∧ landing.violationId ∈ fragment.violationIds ∧
    (0 < landing.bboxDbu.intersectionArea fragment.bboxDbu ∨
      Near builder.minimumWindowDbu landing.bboxDbu fragment.bboxDbu)

instance (metals : List String) (landing : ViaLanding) (fragment : RouteFragment) :
    Decidable (ViaMetal builder metals landing fragment) :=
  inferInstanceAs (Decidable (_ ∧ _ ∧ _))

variable {builder} {stableHash : HashInput → String} {a b : RouteFragment}

theorem SameLayer.symm (h : SameLayer builder a b) : SameLayer builder b a := by
  obtain ⟨hlayer, hparent, hw, hnear⟩ := h
  refine ⟨hlayer.symm, hparent.symm, hw, ?_⟩
  rwa [gapSquared_comm]

/-- Two fragments have an adjacency exactly when they are near on one layer. -/
theorem isSome_sameLayerAdjacency :
    (sameLayerAdjacency stableHash builder (a, b)).isSome ↔ SameLayer builder a b := by
  rw [sameLayerAdjacency, SameLayer, ← outwardBoxGapDbu_le_iff]
  dsimp only
  by_cases hpair : a.layer ≠ b.layer ∨ a.parentObjectId = b.parentObjectId
  · rw [if_pos hpair]
    refine iff_of_false Bool.false_ne_true fun h => ?_
    rcases hpair with hlayer | hparent
    · exact hlayer h.1
    · exact h.2.1 hparent
  rw [if_neg hpair]
  by_cases hgap : outwardBoxGapDbu a.bboxDbu b.bboxDbu > builder.minimumWindowDbu
  · rw [if_pos hgap]
    exact iff_of_false Bool.false_ne_true fun h => absurd h.2.2 (not_le.2 hgap)
  · rw [if_neg hgap]
    rw [not_or, not_not] at hpair
    exact iff_of_true rfl ⟨hpair.1, hpair.2, not_lt.1 hgap⟩

/-- An adjacency of two fragments names them. -/
theorem eq_of_sameLayerAdjacency {adjacency : SameLayerAdjacency}
    (h : sameLayerAdjacency stableHash builder (a, b) = some adjacency) :
    adjacency.aFragmentId = a.fragmentId ∧ adjacency.bFragmentId = b.fragmentId ∧
      adjacency.layer = a.layer ∧ adjacency.gapDbu = outwardBoxGapDbu a.bboxDbu b.bboxDbu := by
  rw [sameLayerAdjacency] at h
  dsimp only at h
  split at h
  · cases h
  split at h
  · cases h
  rw [← Option.some.inj h]
  exact ⟨rfl, rfl, rfl, rfl⟩

variable {metals : List String} {landing : ViaLanding} {fragment : RouteFragment}

/-- A landing and a fragment have an adjacency exactly when they overlap or are near. -/
theorem isSome_viaMetalAdjacency :
    (viaMetalAdjacency stableHash builder landing metals fragment).isSome ↔
      ViaMetal builder metals landing fragment := by
  rw [viaMetalAdjacency, ViaMetal, ← outwardBoxGapDbu_le_iff]
  dsimp only
  by_cases hlayer : fragment.layer ∈ metals
  swap
  · rw [if_pos (by simpa using hlayer)]
    exact iff_of_false Bool.false_ne_true fun h => hlayer h.1
  by_cases hviolation : landing.violationId ∈ fragment.violationIds
  swap
  · rw [if_neg (by simpa using hlayer), if_pos (by simpa using hviolation)]
    exact iff_of_false Bool.false_ne_true fun h => hviolation h.2.1
  rw [if_neg (by simpa using hlayer), if_neg (by simpa using hviolation)]
  by_cases hgap : landing.bboxDbu.intersectionArea fragment.bboxDbu = 0 ∧
      outwardBoxGapDbu landing.bboxDbu fragment.bboxDbu > builder.minimumWindowDbu
  · rw [if_pos hgap]
    refine iff_of_false Bool.false_ne_true fun h => ?_
    rcases h.2.2 with h | h
    · exact h.ne' hgap.1
    · exact absurd h (not_le.2 hgap.2)
  · rw [if_neg hgap]
    refine iff_of_true rfl ⟨hlayer, hviolation, ?_⟩
    rcases not_and_or.1 hgap with harea | hgap
    · exact Or.inl (intersectionArea_nonneg.lt_of_ne (Ne.symm harea))
    · exact Or.inr (not_lt.1 hgap)

/-- An adjacency of a landing and a fragment names them. -/
theorem eq_of_viaMetalAdjacency {adjacency : ViaMetalAdjacency}
    (h : viaMetalAdjacency stableHash builder landing metals fragment = some adjacency) :
    adjacency.viaLandingId = landing.landingId ∧
      adjacency.routeFragmentId = fragment.fragmentId ∧
      adjacency.overlapAreaDbu2 = landing.bboxDbu.intersectionArea fragment.bboxDbu ∧
      adjacency.gapDbu = outwardBoxGapDbu landing.bboxDbu fragment.bboxDbu := by
  rw [viaMetalAdjacency] at h
  dsimp only at h
  split at h
  · cases h
  split at h
  · cases h
  split at h
  · cases h
  rw [← Option.some.inj h]
  exact ⟨rfl, rfl, rfl, rfl⟩

/-- The adjacency is of the two fragments, in either order. -/
def SameLayerAdjacency.Joins (adjacency : SameLayerAdjacency) (id id' : String) : Prop :=
  adjacency.aFragmentId = id ∧ adjacency.bFragmentId = id' ∨
    adjacency.aFragmentId = id' ∧ adjacency.bFragmentId = id

instance (adjacency : SameLayerAdjacency) (id id' : String) :
    Decidable (adjacency.Joins id id') :=
  inferInstanceAs (Decidable (_ ∨ _))

theorem SameLayerAdjacency.joins_comm {adjacency : SameLayerAdjacency} {id id' : String} :
    adjacency.Joins id id' ↔ adjacency.Joins id' id :=
  or_comm

section Count

variable {fragments : List RouteFragment}

/-- The adjacencies of a pair. -/
theorem countP_of_mem_pairs (hnodup : (fragments.map (·.fragmentId)).Nodup)
    (hpair : (a, b) ∈ pairs fragments) :
    ((pairs fragments).filterMap (sameLayerAdjacency stableHash builder)).countP
      (fun adjacency => adjacency.Joins a.fragmentId b.fragmentId) =
        if SameLayer builder a b then 1 else 0 := by
  obtain ⟨ha, hb⟩ := mem_of_mem_pairs hpair
  have hids := inj_on_of_nodup_map hnodup
  refine countP_filterMap_of_unique (x := (a, b)) (nodup_pairs hnodup.of_map) ?_ ?_
  · have hnear : (sameLayerAdjacency stableHash builder (a, b)).isSome ↔ SameLayer builder a b :=
      isSome_sameLayerAdjacency
    rw [← hnear, and_iff_right hpair, Option.isSome_iff_exists]
    refine exists_congr fun adjacency => (and_iff_left_of_imp fun hsome => ?_).symm
    obtain ⟨hfirst, hsecond, -, -⟩ := eq_of_sameLayerAdjacency hsome
    exact Or.inl ⟨hfirst, hsecond⟩
  · rintro ⟨c, d⟩ hmem adjacency hsome hjoins
    obtain ⟨hc, hd⟩ : c ∈ fragments ∧ d ∈ fragments := mem_of_mem_pairs hmem
    obtain ⟨hfirst, hsecond, -, -⟩ := eq_of_sameLayerAdjacency hsome
    -- the other order of the ids would be the other order of the pair
    rcases hjoins with ⟨h, h'⟩ | ⟨h, h'⟩
    · rw [hids hc ha (hfirst.symm.trans h), hids hd hb (hsecond.symm.trans h')]
    · rw [hids hc hb (hfirst.symm.trans h), hids hd ha (hsecond.symm.trans h')] at hmem
      exact absurd hmem (pairs_asymm hnodup.of_map hpair)

/-- **One adjacency for each two fragments that are near on one layer**, and none for
others. -/
theorem countP_sameLayer (hnodup : (fragments.map (·.fragmentId)).Nodup) (ha : a ∈ fragments)
    (hb : b ∈ fragments) :
    ((pairs fragments).filterMap (sameLayerAdjacency stableHash builder)).countP
      (fun adjacency => adjacency.Joins a.fragmentId b.fragmentId) =
        if SameLayer builder a b then 1 else 0 := by
  by_cases hab : a = b
  -- an adjacency with one id twice would be of a fragment with itself
  · rw [if_neg fun h => h.2.1 (hab ▸ rfl), List.countP_eq_zero]
    intro adjacency hadjacency hjoins
    obtain ⟨⟨c, d⟩, hmem, hsome⟩ := mem_filterMap.1 hadjacency
    obtain ⟨hc, hd⟩ := mem_of_mem_pairs hmem
    obtain ⟨hfirst, hsecond, -, -⟩ := eq_of_sameLayerAdjacency hsome
    have hcd : c = d := by
      refine inj_on_of_nodup_map hnodup hc hd ?_
      rw [← hfirst, ← hsecond]
      rcases of_decide_eq_true hjoins with ⟨h, h'⟩ | ⟨h, h'⟩
      · rw [h, h', hab]
      · rw [h, h', hab]
    have hnear : SameLayer builder c d :=
      isSome_sameLayerAdjacency.1 (Option.isSome_iff_exists.2 ⟨adjacency, hsome⟩)
    exact hnear.2.1 (hcd ▸ rfl)
  · rcases mem_pairs ha hb hab with hpair | hpair
    · exact countP_of_mem_pairs hnodup hpair
    · have hswap : ∀ adjacency : SameLayerAdjacency, adjacency.Joins a.fragmentId b.fragmentId ↔
          adjacency.Joins b.fragmentId a.fragmentId := fun _ => SameLayerAdjacency.joins_comm
      simp only [hswap]
      rw [countP_of_mem_pairs hnodup hpair]
      exact if_congr ⟨SameLayer.symm, SameLayer.symm⟩ rfl rfl

/-- **One adjacency for each landing and fragment that overlap or are near**, and none for
others. -/
theorem countP_viaMetal {landings : List ViaLanding} {legal : String → List String}
    (hlandings : (landings.map (·.landingId)).Nodup)
    (hfragments : (fragments.map (·.fragmentId)).Nodup) (hl : landing ∈ landings)
    (hf : fragment ∈ fragments) :
    ((landings ×ˢ fragments).filterMap fun pair =>
        viaMetalAdjacency stableHash builder pair.1 (legal pair.1.layer) pair.2).countP
      (fun adjacency => adjacency.viaLandingId = landing.landingId ∧
        adjacency.routeFragmentId = fragment.fragmentId) =
        if ViaMetal builder (legal landing.layer) landing fragment then 1 else 0 := by
  refine countP_filterMap_of_unique (x := (landing, fragment))
    (Nodup.product hlandings.of_map hfragments.of_map) ?_ ?_
  · have hnear : (viaMetalAdjacency stableHash builder landing (legal landing.layer)
        fragment).isSome ↔ ViaMetal builder (legal landing.layer) landing fragment :=
      isSome_viaMetalAdjacency
    rw [← hnear, and_iff_right (mem_product.2 ⟨hl, hf⟩), Option.isSome_iff_exists]
    refine exists_congr fun adjacency => (and_iff_left_of_imp fun hsome => ?_).symm
    obtain ⟨hlanding, hfragment, -, -⟩ := eq_of_viaMetalAdjacency hsome
    exact ⟨hlanding, hfragment⟩
  · rintro ⟨l, f⟩ hmem adjacency hsome hnames
    obtain ⟨hl', hf'⟩ := mem_product.1 hmem
    obtain ⟨hlanding, hfragment, -, -⟩ := eq_of_viaMetalAdjacency hsome
    obtain ⟨h, h'⟩ := hnames
    rw [inj_on_of_nodup_map hlandings hl' hl (hlanding.symm.trans h),
      inj_on_of_nodup_map hfragments hf' hf (hfragment.symm.trans h')]

end Count

end Adjacencies

/-! ## What the build returns -/

section Build

variable {stableHash : HashInput → String} {builder : Builder} {text : TextFunctions}
  {violations : List ViolationRecord} {objects : List LayoutObject}
  {topology : LocalRoutingTopology}

/-- The metals of a via layer; none where reading its number raises. -/
def legalMetals (text : TextFunctions) (layer : String) : List String :=
  match viaAdjacentMetals text layer with
  | .ok metals => metals
  | .error _ => []

/-- A topology that is returned, from the dictionaries after the loop. -/
structure Built (stableHash : HashInput → String) (builder : Builder) (text : TextFunctions)
    (state : BuildState) (topology : LocalRoutingTopology) : Prop where
  fragments : topology.fragments = sortedItems state.fragments
  endpoints : topology.endpoints = sortedItems state.endpoints
  viaLandings : topology.viaLandings = sortedItems state.landings
  parentIndex : topology.parentToFragmentIds = sortedIndex state.byParent
  anchorIndex : topology.sourceAnchorToFragmentIds = sortedIndex state.byAnchor
  sameLayer : topology.sameLayerAdjacencies.Perm
    (sameLayerAdjacencies stableHash builder (state.fragments.map (·.2)))
  metals : ∀ entry ∈ state.landings,
    viaAdjacentMetals text entry.2.layer = .ok (legalMetals text entry.2.layer)
  viaMetal : topology.viaMetalAdjacencies.Perm
    ((state.landings.map (·.2) ×ˢ state.fragments.map (·.2)).filterMap fun pair =>
      viaMetalAdjacency stableHash builder pair.1 (legalMetals text pair.1.layer) pair.2)

theorem built_of_build (h : build stableHash builder text violations objects = .ok topology) :
    Built stableHash builder text (collected stableHash builder violations objects) topology := by
  rw [build] at h
  obtain ⟨perLanding, hlandings, h⟩ := Failures.bind_eq_ok.1 h
  -- the loop over the landings raises exactly where the number of a via layer is not read
  have hstep : ∀ landing ∈ (collected stableHash builder violations objects).landings.map (·.2),
      ∀ found, landingAdjacencies stableHash builder text
          ((collected stableHash builder violations objects).fragments.map (·.2)) landing =
            .ok found ↔
        viaAdjacentMetals text landing.layer = .ok (legalMetals text landing.layer) ∧
        found = ((collected stableHash builder violations objects).fragments.map (·.2)).filterMap
          (viaMetalAdjacency stableHash builder landing (legalMetals text landing.layer)) := by
    intro landing _ found
    rw [landingAdjacencies, legalMetals]
    cases viaAdjacentMetals text landing.layer with
    | error e => exact ⟨fun h => (nomatch h), fun h => nomatch h.1⟩
    | ok metals => exact ⟨fun h => ⟨rfl, (Except.ok.inj h).symm⟩, fun h => congrArg _ h.2.symm⟩
  obtain ⟨hmetals, rfl⟩ := (Failures.mapM_eq_ok_iff hstep perLanding).1 hlandings
  rw [← Except.ok.inj h]
  refine ⟨rfl, rfl, rfl, rfl, rfl, perm_insertionSort _ _, ?_, ?_⟩
  · exact fun entry hentry => hmetals entry.2 (mem_map_of_mem hentry)
  · refine (perm_insertionSort _ _).trans (Perm.of_eq ?_)
    show flatten _ = filterMap _ (flatMap _ _)
    rw [filterMap_flatMap, flatMap]
    simp only [filterMap_map]
    rfl

/-- A landing is the via, or else the marker. -/
theorem mem_landingsOf {source : List LayoutObject} {violation : ViolationRecord}
    {layer : String} {landing : ViaLanding}
    (h : landing ∈ landingsOf stableHash source violation layer) :
    landing.violationId = violation.violationId ∧ landing.layer = layer ∧
      ((∃ obj ∈ source, obj.layer = layer ∧ landing.parentObjectId = some obj.objectId ∧
          landing.parentSourceAnchorId = obj.sourceAnchorId ∧ landing.bboxDbu = obj.bboxDbu) ∨
        landing.parentObjectId = none ∧ landing.parentSourceAnchorId = none ∧
          landing.bboxDbu = violation.markerBboxDbu) := by
  rw [landingsOf] at h
  split at h
  · cases h
  dsimp only at h
  split at h
  · rw [mem_singleton.1 h]
    exact ⟨rfl, rfl, Or.inr ⟨rfl, rfl, rfl⟩⟩
  · obtain ⟨obj, hobj, rfl⟩ := mem_map.1 h
    obtain ⟨hobj, hmatch⟩ := mem_filter.1 hobj
    rw [Bool.and_eq_true, beq_iff_eq] at hmatch
    exact ⟨rfl, rfl, Or.inl ⟨obj, hobj, hmatch.1, rfl, rfl, rfl⟩⟩

/-- The fragment is what the violation and the object give. -/
structure FragmentOf (builder : Builder) (violation : ViolationRecord) (obj : LayoutObject)
    (fragment : RouteFragment) : Prop where
  violationIds : fragment.violationIds = [violation.violationId]
  parent : fragment.parentObjectId = obj.objectId
  anchor : obj.sourceAnchorId = some fragment.parentSourceAnchorId
  layer : fragment.layer = obj.layer
  withinObject : fragment.bboxDbu.Within obj.bboxDbu
  withinWindow : fragment.bboxDbu.Within (influenceWindow builder violation.markerBboxDbu)

/-- The landing is of the violation, and of a via of the source if it has a parent. -/
structure LandingOf (violation : ViolationRecord) (objects : List LayoutObject)
    (landing : ViaLanding) : Prop where
  violationId : landing.violationId = violation.violationId
  layer : landing.layer ∈ violation.layers
  parent : (∃ obj ∈ objects, isSource obj ∧ obj.layer = landing.layer ∧
      landing.parentObjectId = some obj.objectId ∧
      landing.parentSourceAnchorId = obj.sourceAnchorId ∧ landing.bboxDbu = obj.bboxDbu) ∨
    landing.parentObjectId = none ∧ landing.parentSourceAnchorId = none ∧
      landing.bboxDbu = violation.markerBboxDbu

/-- The topology has what it should have once, and nothing else, and what it names is there. -/
structure Complete (builder : Builder) (text : TextFunctions) (violations : List ViolationRecord)
    (objects : List LayoutObject) (topology : LocalRoutingTopology) : Prop where
  /-- One fragment for each violation and eligible object that meet. -/
  fragment_count : ∀ violation ∈ violations, ∀ obj ∈ objects,
    topology.fragments.countP (fun entry => entry.2.parentObjectId = obj.objectId ∧
        entry.2.violationIds = [violation.violationId]) =
      if Eligible violation obj ∧ MeetsWindow builder violation obj then 1 else 0
  fragment_of : ∀ entry ∈ topology.fragments, entry.1 = entry.2.fragmentId ∧
    ∃ violation ∈ violations, ∃ obj ∈ objects, Eligible violation obj ∧
      MeetsWindow builder violation obj ∧ FragmentOf builder violation obj entry.2
  endpoint_of : ∀ entry ∈ topology.endpoints, entry.1 = entry.2.endpointId ∧
    ∃ fragment, topology.fragments.lookup entry.2.fragmentId = some fragment ∧
      entry.1 ∈ fragment.endpointIds ∧ entry.2.parentObjectId = fragment.parentObjectId
  /-- The endpoints of a fragment are there, and are its own. -/
  fragment_endpoints : ∀ entry ∈ topology.fragments, ∀ id ∈ entry.2.endpointIds,
    ∃ endpoint, topology.endpoints.lookup id = some endpoint ∧ endpoint.fragmentId = entry.1
  landing_of : ∀ entry ∈ topology.viaLandings, entry.1 = entry.2.landingId ∧
    ∃ violation ∈ violations, LandingOf violation objects entry.2
  parent_index : ∀ entry ∈ topology.parentToFragmentIds, entry.2 ≠ [] ∧ ∀ id ∈ entry.2,
    ∃ fragment, topology.fragments.lookup id = some fragment ∧ fragment.parentObjectId = entry.1
  anchor_index : ∀ entry ∈ topology.sourceAnchorToFragmentIds, entry.2 ≠ [] ∧ ∀ id ∈ entry.2,
    ∃ fragment, topology.fragments.lookup id = some fragment ∧
      fragment.parentSourceAnchorId = entry.1
  parent_reaches : ∀ entry ∈ topology.fragments,
    ∃ ids, topology.parentToFragmentIds.lookup entry.2.parentObjectId = some ids ∧ entry.1 ∈ ids
  anchor_reaches : ∀ entry ∈ topology.fragments,
    ∃ ids, topology.sourceAnchorToFragmentIds.lookup entry.2.parentSourceAnchorId = some ids ∧
      entry.1 ∈ ids
  /-- One adjacency for each two fragments that are near on one layer. -/
  same_layer_count : ∀ entry ∈ topology.fragments, ∀ entry' ∈ topology.fragments,
    topology.sameLayerAdjacencies.countP (fun adjacency => adjacency.Joins entry.1 entry'.1) =
      if SameLayer builder entry.2 entry'.2 then 1 else 0
  same_layer_of : ∀ adjacency ∈ topology.sameLayerAdjacencies,
    ∃ a b, topology.fragments.lookup adjacency.aFragmentId = some a ∧
      topology.fragments.lookup adjacency.bFragmentId = some b ∧ SameLayer builder a b ∧
      adjacency.layer = a.layer ∧ adjacency.gapDbu = outwardBoxGapDbu a.bboxDbu b.bboxDbu
  /-- One adjacency for each landing and fragment on a metal of its via that overlap or are
  near. -/
  via_metal_count : ∀ entry ∈ topology.viaLandings,
    ∃ metals, viaAdjacentMetals text entry.2.layer = .ok metals ∧
      ∀ entry' ∈ topology.fragments, topology.viaMetalAdjacencies.countP (fun adjacency =>
          adjacency.viaLandingId = entry.1 ∧ adjacency.routeFragmentId = entry'.1) =
        if ViaMetal builder metals entry.2 entry'.2 then 1 else 0
  via_metal_of : ∀ adjacency ∈ topology.viaMetalAdjacencies,
    ∃ landing fragment metals,
      topology.viaLandings.lookup adjacency.viaLandingId = some landing ∧
      topology.fragments.lookup adjacency.routeFragmentId = some fragment ∧
      viaAdjacentMetals text landing.layer = .ok metals ∧
      ViaMetal builder metals landing fragment ∧
      adjacency.overlapAreaDbu2 = landing.bboxDbu.intersectionArea fragment.bboxDbu ∧
      adjacency.gapDbu = outwardBoxGapDbu landing.bboxDbu fragment.bboxDbu

/-! ## The proof -/

theorem mem_endpoints {piece : Piece} {endpoint : RouteEndpoint}
    (h : endpoint ∈ piece.endpoints stableHash) :
    endpoint.fragmentId = (piece.fragment stableHash).fragmentId ∧
      endpoint.parentObjectId = piece.obj.objectId ∧
      endpoint.endpointId ∈ (piece.fragment stableHash).endpointIds := by
  have hid : endpoint.endpointId ∈ (piece.fragment stableHash).endpointIds :=
    mem_map_of_mem h
  obtain ⟨entry, -, rfl⟩ := mem_map.1 h
  exact ⟨rfl, rfl, hid⟩

/-- The fragment of a piece is what its violation and its object give. -/
theorem fragmentOf_fragment {piece : Piece}
    (h : piece ∈ pieces builder violations (objects.filter isSource)) :
    MeetsWindow builder piece.violation piece.obj ∧
      FragmentOf builder piece.violation piece.obj (piece.fragment stableHash) := by
  obtain ⟨-, -, heligible, hbox⟩ := mem_pieces h
  obtain ⟨hobj, hwindow⟩ := within_of_intersection hbox
  refine ⟨isSome_intersection.1 (Option.isSome_iff_exists.2 ⟨piece.box, hbox⟩), ?_⟩
  have hanchor : piece.obj.sourceAnchorId = some (piece.obj.sourceAnchorId.getD "") := by
    have hsource := heligible.1
    rw [isSource, Bool.and_eq_true, Bool.and_eq_true] at hsource
    cases hanchor : piece.obj.sourceAnchorId with
    | none =>
      rw [hanchor] at hsource
      cases hsource.1.1
    | some anchor => rfl
  exact ⟨rfl, rfl, hanchor, rfl, hobj, hwindow⟩

section Emitted

theorem nodup_landings :
    ((collected stableHash builder violations objects).landings.map (·.1)).Nodup := by
  rw [(collected_records violations objects).landings]
  exact Dicts.nodup_keys_ofList _

section Built

variable (hbuilt : Built stableHash builder text
  (collected stableHash builder violations objects) topology)

include hbuilt

theorem Built.nodup_fragments : (topology.fragments.map (·.1)).Nodup := by
  rw [hbuilt.fragments, ((sortedItems_perm _).map _).nodup_iff,
    (collected_records violations objects).fragments]
  exact Dicts.nodup_keys_ofList _

/-- The endpoints are those of the pieces. -/
theorem Built.mem_endpoints {entry : String × RouteEndpoint} (h : entry ∈ topology.endpoints) :
    entry.1 = entry.2.endpointId ∧
      ∃ piece ∈ pieces builder violations (objects.filter isSource),
        entry.2 ∈ piece.endpoints stableHash := by
  rw [hbuilt.endpoints, (sortedItems_perm _).mem_iff,
    (collected_records violations objects).endpoints] at h
  obtain ⟨endpoint, hendpoint, rfl⟩ := mem_map.1 (Dicts.mem_ofList h)
  obtain ⟨piece, hpiece, hendpoint⟩ := mem_flatMap.1 hendpoint
  exact ⟨rfl, piece, mem_pieces_sorted.1 hpiece, hendpoint⟩

/-- Every landing is of a violation, and of a via of the source or the marker. -/
theorem Built.landing_of : ∀ entry ∈ topology.viaLandings, entry.1 = entry.2.landingId ∧
    ∃ violation ∈ violations, LandingOf violation objects entry.2 := by
  intro entry hentry
  rw [hbuilt.viaLandings, (sortedItems_perm _).mem_iff,
    (collected_records violations objects).landings] at hentry
  obtain ⟨landing, hlanding, rfl⟩ := mem_map.1 (Dicts.mem_ofList hentry)
  obtain ⟨violation, hviolation, hlanding⟩ := mem_flatMap.1 hlanding
  obtain ⟨layer, hlayer, hlanding⟩ := mem_flatMap.1 hlanding
  obtain ⟨hid, rfl, hparent⟩ := mem_landingsOf hlanding
  refine ⟨rfl, violation, sortViolations_perm.mem_iff.1 hviolation, hid, hlayer, ?_⟩
  refine hparent.imp_left ?_
  rintro ⟨obj, hobj, hparent⟩
  obtain ⟨hobj, hsource⟩ := mem_filter.1 hobj
  exact ⟨obj, hobj, hsource, hparent⟩

/-- The landings that the adjacencies are made from are those of the topology. -/
theorem Built.mem_collected_landings {landing : ViaLanding} :
    landing ∈ (collected stableHash builder violations objects).landings.map (·.2) ↔
      (landing.landingId, landing) ∈ topology.viaLandings := by
  have hids := hbuilt.landing_of
  rw [hbuilt.viaLandings] at hids ⊢
  rw [(sortedItems_perm _).mem_iff, mem_map]
  constructor
  · rintro ⟨entry, hentry, rfl⟩
    rw [← (hids entry ((sortedItems_perm _).mem_iff.2 hentry)).1]
    exact hentry
  · exact fun h => ⟨_, h, rfl⟩

/-- The metals of a landing's via are those that the adjacencies are made with. -/
theorem Built.metals_of : ∀ entry ∈ topology.viaLandings,
    viaAdjacentMetals text entry.2.layer = .ok (legalMetals text entry.2.layer) := by
  intro entry hentry
  rw [hbuilt.viaLandings, (sortedItems_perm _).mem_iff] at hentry
  exact hbuilt.metals entry hentry

end Built

/-- A topology that is returned for distinct ids, by hashes that are apart. -/
structure Returned (stableHash : HashInput → String) (builder : Builder) (text : TextFunctions)
    (violations : List ViolationRecord) (objects : List LayoutObject)
    (topology : LocalRoutingTopology) : Prop where
  violationIds : (violations.map (·.violationId)).Nodup
  objectIds : (objects.map (·.objectId)).Nodup
  apart : HashesApart stableHash builder violations objects
  built : Built stableHash builder text (collected stableHash builder violations objects) topology

variable (hret : Returned stableHash builder text violations objects topology)

include hret

/-- No fragment replaces another. -/
theorem Returned.collected_fragments : (collected stableHash builder violations objects).fragments =
    (pieces builder (sortViolations violations) (objects.filter isSource)).map fun piece =>
      ((piece.fragment stableHash).fragmentId, piece.fragment stableHash) := by
  rw [(collected_records violations objects).fragments]
  refine Dicts.ofList_of_nodup ?_
  rw [map_map]
  refine Nodup.map_on ?_ (nodup_pieces hret.violationIds hret.objectIds)
  intro piece hpiece piece' hpiece' hid
  exact hret.apart.eq_of_fragmentId hret.violationIds hret.objectIds (mem_pieces_sorted.1 hpiece)
    (mem_pieces_sorted.1 hpiece') hid

theorem Returned.fragments_perm : topology.fragments.Perm
    ((pieces builder (sortViolations violations) (objects.filter isSource)).map fun piece =>
      ((piece.fragment stableHash).fragmentId, piece.fragment stableHash)) := by
  rw [hret.built.fragments, ← hret.collected_fragments]
  exact sortedItems_perm _

/-- The fragments are those of the pieces. -/
theorem Returned.mem_fragments {entry : String × RouteFragment} : entry ∈ topology.fragments ↔
    ∃ piece ∈ pieces builder violations (objects.filter isSource),
      ((piece.fragment stableHash).fragmentId, piece.fragment stableHash) = entry := by
  rw [hret.fragments_perm.mem_iff, mem_map]
  exact exists_congr fun piece => and_congr_left fun _ => mem_pieces_sorted

/-- A piece is found under its fragment id. -/
theorem Returned.lookup_fragment {piece : Piece}
    (h : piece ∈ pieces builder violations (objects.filter isSource)) :
    topology.fragments.lookup (piece.fragment stableHash).fragmentId =
      some (piece.fragment stableHash) := by
  have hmem := hret.mem_fragments.2 ⟨piece, h, rfl⟩
  exact Dicts.lookup_of_mem hret.built.nodup_fragments hmem

/-- **One fragment for each violation and eligible object that meet.** -/
theorem Returned.fragment_count {violation : ViolationRecord} (hviolation : violation ∈ violations)
    {obj : LayoutObject} (hobj : obj ∈ objects) :
    topology.fragments.countP (fun entry => entry.2.parentObjectId = obj.objectId ∧
        entry.2.violationIds = [violation.violationId]) =
      if Eligible violation obj ∧ MeetsWindow builder violation obj then 1 else 0 := by
  have hnodup : (sortViolations violations ×ˢ objects.filter isSource).Nodup :=
    (sortViolations_perm.nodup_iff.2 hret.violationIds.of_map).product
      (hret.objectIds.of_map.filter _)
  rw [hret.fragments_perm.countP_eq, countP_map]
  -- count over the pairs of violations and objects instead
  refine countP_filterMap_of_unique (p := fun piece : Piece => piece.obj.objectId = obj.objectId ∧
    [piece.violation.violationId] = [violation.violationId]) (x := (violation, obj)) hnodup ?_ ?_
  · rw [mem_product, sortViolations_perm.mem_iff, and_iff_right hviolation, mem_filter,
      and_iff_right hobj]
    constructor
    · intro h
      obtain ⟨piece, hpiece⟩ := Option.isSome_iff_exists.1 ((isSome_pieceOf h.1.1).2 h)
      obtain ⟨rfl, rfl⟩ := Prod.mk.inj (eq_of_pieceOf hpiece)
      exact ⟨h.1.1, piece, hpiece, rfl, rfl⟩
    · rintro ⟨hsource, piece, hpiece, -⟩
      exact (isSome_pieceOf hsource).1 (Option.isSome_iff_exists.2 ⟨piece, hpiece⟩)
  · rintro ⟨violation', obj'⟩ hmem piece hpiece ⟨hsameObj, hsameViolation⟩
    obtain ⟨hviolation', hobj'⟩ := mem_product.1 hmem
    obtain ⟨rfl, rfl⟩ := Prod.mk.inj (eq_of_pieceOf hpiece)
    have hviolation' := sortViolations_perm.mem_iff.1 hviolation'
    rw [inj_on_of_nodup_map hret.violationIds hviolation' hviolation
        (cons.inj hsameViolation).1,
      inj_on_of_nodup_map hret.objectIds (mem_of_mem_filter hobj') hobj hsameObj]

/-- Every fragment is of a violation and an eligible object that meet. -/
theorem Returned.fragment_of : ∀ entry ∈ topology.fragments, entry.1 = entry.2.fragmentId ∧
    ∃ violation ∈ violations, ∃ obj ∈ objects, Eligible violation obj ∧
      MeetsWindow builder violation obj ∧ FragmentOf builder violation obj entry.2 := by
  intro entry hentry
  obtain ⟨piece, hpiece, rfl⟩ := hret.mem_fragments.1 hentry
  obtain ⟨hviolation, hobj, heligible, -⟩ := mem_pieces hpiece
  exact ⟨rfl, _, hviolation, _, hobj, heligible, fragmentOf_fragment hpiece⟩

/-- Every endpoint is of a fragment that is there. -/
theorem Returned.endpoint_of : ∀ entry ∈ topology.endpoints, entry.1 = entry.2.endpointId ∧
    ∃ fragment, topology.fragments.lookup entry.2.fragmentId = some fragment ∧
      entry.1 ∈ fragment.endpointIds ∧ entry.2.parentObjectId = fragment.parentObjectId := by
  intro entry hentry
  obtain ⟨hid, piece, hpiece, hendpoint⟩ := hret.built.mem_endpoints hentry
  obtain ⟨hfragment, hparent, hlisted⟩ := Topology.mem_endpoints hendpoint
  refine ⟨hid, piece.fragment stableHash, ?_, ?_, hparent⟩
  · rw [hfragment]
    exact hret.lookup_fragment hpiece
  · rw [hid]
    exact hlisted

/-- The endpoints of a fragment are there, and are its own. -/
theorem Returned.fragment_endpoints :
    ∀ entry ∈ topology.fragments, ∀ id ∈ entry.2.endpointIds,
      ∃ endpoint, topology.endpoints.lookup id = some endpoint ∧
        endpoint.fragmentId = entry.1 := by
  intro entry hentry id hid
  obtain ⟨piece, hpiece, rfl⟩ := hret.mem_fragments.1 hentry
  obtain ⟨own, hown, rfl⟩ : ∃ own ∈ piece.endpoints stableHash, own.endpointId = id :=
    mem_map.1 hid
  have hnodup : (topology.endpoints.map (·.1)).Nodup := by
    rw [hret.built.endpoints, ((sortedItems_perm _).map _).nodup_iff,
      (collected_records violations objects).endpoints]
    exact Dicts.nodup_keys_ofList _
  -- the id is a key, and what is under it has the same hash
  have hkey : own.endpointId ∈ topology.endpoints.map (·.1) := by
    rw [hret.built.endpoints, ((sortedItems_perm _).map _).mem_iff,
      (collected_records violations objects).endpoints, Dicts.mem_keys_ofList, map_map]
    refine mem_map_of_mem (f := fun endpoint : RouteEndpoint => endpoint.endpointId) ?_
    exact mem_flatMap.2 ⟨piece, mem_pieces_sorted.2 hpiece, hown⟩
  obtain ⟨found, hfound, hsame⟩ := mem_map.1 hkey
  obtain ⟨hfoundId, piece', hpiece', hendpoint⟩ := hret.built.mem_endpoints hfound
  refine ⟨found.2, ?_, ?_⟩
  · rw [← hsame]
    exact Dicts.lookup_of_mem hnodup hfound
  · rw [hret.apart.eq_of_endpointId hpiece' hpiece hendpoint hown (hfoundId.symm.trans hsame)]
    exact (Topology.mem_endpoints hown).1

/-- What an index has under a key are fragments of the parent it names. -/
theorem Returned.index_of {key : Piece → String} {entry : String × List String}
    (hentry : entry ∈ sortedIndex (Dicts.collect
      ((pieces builder (sortViolations violations) (objects.filter isSource)).map fun piece =>
        (key piece, (piece.fragment stableHash).fragmentId)))) :
    entry.2 ≠ [] ∧ ∀ id ∈ entry.2, ∃ piece : Piece,
      topology.fragments.lookup id = some (piece.fragment stableHash) ∧ key piece = entry.1 := by
  obtain ⟨hne, hids⟩ := mem_sortedIndex hentry
  refine ⟨hne, fun id hid => ?_⟩
  obtain ⟨piece, hpiece, heq⟩ := mem_map.1 (hids id hid)
  obtain ⟨hkey, rfl⟩ := Prod.mk.inj heq
  exact ⟨piece, hret.lookup_fragment (mem_pieces_sorted.1 hpiece), hkey⟩

/-- The ids of the fragments that the adjacencies are made from are distinct. -/
theorem Returned.nodup_fragmentIds :
    (((collected stableHash builder violations objects).fragments.map (·.2)).map
      (·.fragmentId)).Nodup := by
  have hkeys := hret.built.nodup_fragments
  rw [(hret.fragments_perm.map _).nodup_iff, map_map] at hkeys
  rw [hret.collected_fragments, map_map, map_map]
  exact hkeys

/-- The fragments that the adjacencies are made from are those of the topology. -/
theorem Returned.mem_collected_fragments {fragment : RouteFragment} :
    fragment ∈ (collected stableHash builder violations objects).fragments.map (·.2) ↔
      (fragment.fragmentId, fragment) ∈ topology.fragments := by
  have hentries : ∀ entry ∈ (collected stableHash builder violations objects).fragments,
      entry.1 = entry.2.fragmentId := by
    rw [hret.collected_fragments]
    intro entry hentry
    obtain ⟨piece, -, rfl⟩ := mem_map.1 hentry
    rfl
  rw [hret.built.fragments, (sortedItems_perm _).mem_iff, mem_map]
  constructor
  · rintro ⟨entry, hentry, rfl⟩
    rw [← hentries entry hentry]
    exact hentry
  · exact fun h => ⟨_, h, rfl⟩

/-- **One adjacency for each two fragments that are near on one layer.** -/
theorem Returned.same_layer_count {entry entry' : String × RouteFragment}
    (hentry : entry ∈ topology.fragments) (hentry' : entry' ∈ topology.fragments) :
    topology.sameLayerAdjacencies.countP (fun adjacency => adjacency.Joins entry.1 entry'.1) =
      if SameLayer builder entry.2 entry'.2 then 1 else 0 := by
  have hids := hret.nodup_fragmentIds
  have hsort := perm_insertionSort (fun a b : RouteFragment => a.fragmentId ≤ b.fragmentId)
    ((collected stableHash builder violations objects).fragments.map (·.2))
  have hmem : ∀ entry ∈ topology.fragments, entry.1 = entry.2.fragmentId ∧
      entry.2 ∈ ((collected stableHash builder violations objects).fragments.map
        (·.2)).insertionSort (fun a b => a.fragmentId ≤ b.fragmentId) := by
    intro entry hentry
    have hid := (hret.fragment_of entry hentry).1
    rw [hsort.mem_iff, hret.mem_collected_fragments, ← hid]
    exact ⟨rfl, hentry⟩
  rw [hret.built.sameLayer.countP_eq, (hmem entry hentry).1, (hmem entry' hentry').1]
  exact countP_sameLayer ((hsort.map _).nodup_iff.2 hids) (hmem entry hentry).2
    (hmem entry' hentry').2

/-- Every adjacency on a layer is of two fragments that are there. -/
theorem Returned.same_layer_of : ∀ adjacency ∈ topology.sameLayerAdjacencies,
    ∃ a b, topology.fragments.lookup adjacency.aFragmentId = some a ∧
      topology.fragments.lookup adjacency.bFragmentId = some b ∧ SameLayer builder a b ∧
      adjacency.layer = a.layer ∧ adjacency.gapDbu = outwardBoxGapDbu a.bboxDbu b.bboxDbu := by
  intro adjacency hadjacency
  obtain ⟨⟨a, b⟩, hpair, hsome⟩ :=
    mem_filterMap.1 (hret.built.sameLayer.mem_iff.1 hadjacency)
  have hlookup : ∀ fragment ∈ ((collected stableHash builder violations objects).fragments.map
      (·.2)).insertionSort (fun a b => a.fragmentId ≤ b.fragmentId),
      topology.fragments.lookup fragment.fragmentId = some fragment := by
    intro fragment hfragment
    rw [(perm_insertionSort _ _).mem_iff, hret.mem_collected_fragments] at hfragment
    exact Dicts.lookup_of_mem hret.built.nodup_fragments hfragment
  obtain ⟨hfirst, hsecond, hlayer, hgap⟩ := eq_of_sameLayerAdjacency hsome
  refine ⟨a, b, ?_, ?_, ?_, hlayer, hgap⟩
  · rw [hfirst]
    exact hlookup a (mem_of_mem_pairs hpair).1
  · rw [hsecond]
    exact hlookup b (mem_of_mem_pairs hpair).2
  · exact isSome_sameLayerAdjacency.1 (Option.isSome_iff_exists.2 ⟨adjacency, hsome⟩)

/-- **One adjacency for each landing and fragment that overlap or are near.** -/
theorem Returned.via_metal_count {entry : String × ViaLanding} {entry' : String × RouteFragment}
    (hentry : entry ∈ topology.viaLandings) (hentry' : entry' ∈ topology.fragments) :
    topology.viaMetalAdjacencies.countP (fun adjacency =>
        adjacency.viaLandingId = entry.1 ∧ adjacency.routeFragmentId = entry'.1) =
      if ViaMetal builder (legalMetals text entry.2.layer) entry.2 entry'.2 then 1 else 0 := by
  have hlanding := (hret.built.landing_of entry hentry).1
  have hfragment := (hret.fragment_of entry' hentry').1
  have hlandings : (((collected stableHash builder violations objects).landings.map (·.2)).map
      (·.landingId)).Nodup := by
    have hkeys : (collected stableHash builder violations objects).landings.map
        (fun entry => entry.2.landingId) =
        (collected stableHash builder violations objects).landings.map (·.1) := by
      refine map_congr_left fun entry hentry => ?_
      have hentry : entry ∈ topology.viaLandings := by
        rw [hret.built.viaLandings]
        exact (sortedItems_perm _).mem_iff.2 hentry
      exact (hret.built.landing_of entry hentry).1.symm
    rw [map_map]
    exact hkeys ▸ nodup_landings
  rw [hret.built.viaMetal.countP_eq, hlanding, hfragment]
  refine countP_viaMetal hlandings
    hret.nodup_fragmentIds ?_ ?_
  · rw [hret.built.mem_collected_landings, ← hlanding]
    exact hentry
  · rw [hret.mem_collected_fragments, ← hfragment]
    exact hentry'

/-- Every adjacency of a via is of a landing and a fragment that are there. -/
theorem Returned.via_metal_of : ∀ adjacency ∈ topology.viaMetalAdjacencies,
    ∃ landing fragment metals,
      topology.viaLandings.lookup adjacency.viaLandingId = some landing ∧
      topology.fragments.lookup adjacency.routeFragmentId = some fragment ∧
      viaAdjacentMetals text landing.layer = .ok metals ∧
      ViaMetal builder metals landing fragment ∧
      adjacency.overlapAreaDbu2 = landing.bboxDbu.intersectionArea fragment.bboxDbu ∧
      adjacency.gapDbu = outwardBoxGapDbu landing.bboxDbu fragment.bboxDbu := by
  intro adjacency hadjacency
  obtain ⟨⟨landing, fragment⟩, hpair, hsome⟩ :=
    mem_filterMap.1 (hret.built.viaMetal.mem_iff.1 hadjacency)
  obtain ⟨hlanding, hfragment⟩ := mem_product.1 hpair
  rw [hret.built.mem_collected_landings] at hlanding
  rw [hret.mem_collected_fragments] at hfragment
  have hnodup : (topology.viaLandings.map (·.1)).Nodup := by
    rw [hret.built.viaLandings, ((sortedItems_perm _).map _).nodup_iff]
    exact nodup_landings
  have hmetals : viaAdjacentMetals text landing.layer = .ok (legalMetals text landing.layer) :=
    hret.built.metals_of (landing.landingId, landing) hlanding
  obtain ⟨hfirst, hsecond, harea, hgap⟩ := eq_of_viaMetalAdjacency hsome
  refine ⟨landing, fragment, legalMetals text landing.layer, ?_, ?_, hmetals, ?_, harea, hgap⟩
  · rw [hfirst]
    exact Dicts.lookup_of_mem hnodup hlanding
  · rw [hsecond]
    exact Dicts.lookup_of_mem hret.built.nodup_fragments hfragment
  · exact isSome_viaMetalAdjacency.1 (Option.isSome_iff_exists.2 ⟨adjacency, hsome⟩)

end Emitted

/-- **The local topology is complete and refers to itself**: for violations and objects with
distinct ids, and hashes that keep the fragments and the endpoints apart, a topology that is
returned has one fragment for each violation and eligible object that meet, within both
boxes; its endpoints, indexes and adjacencies name what is there, and every fragment is
reached; and it has one adjacency for each two fragments, or landing and fragment, that are
near. -/
theorem build_complete (hviolations : (violations.map (·.violationId)).Nodup)
    (hobjects : (objects.map (·.objectId)).Nodup)
    (happart : HashesApart stableHash builder violations objects)
    (h : build stableHash builder text violations objects = .ok topology) :
    Complete builder text violations objects topology := by
  have hret : Returned stableHash builder text violations objects topology :=
    ⟨hviolations, hobjects, happart, built_of_build h⟩
  have hrecords := @collected_records stableHash builder violations objects
  exact {
    fragment_count := fun violation hviolation obj hobj => hret.fragment_count hviolation hobj
    fragment_of := hret.fragment_of
    endpoint_of := hret.endpoint_of
    fragment_endpoints := hret.fragment_endpoints
    landing_of := hret.built.landing_of
    parent_index := by
      intro entry hentry
      rw [hret.built.parentIndex, hrecords.byParent] at hentry
      obtain ⟨hne, hids⟩ := hret.index_of hentry
      refine ⟨hne, fun id hid => ?_⟩
      obtain ⟨piece, hlookup, hkey⟩ := hids id hid
      exact ⟨_, hlookup, hkey⟩
    anchor_index := by
      intro entry hentry
      rw [hret.built.anchorIndex, hrecords.byAnchor] at hentry
      obtain ⟨hne, hids⟩ := hret.index_of hentry
      refine ⟨hne, fun id hid => ?_⟩
      obtain ⟨piece, hlookup, hkey⟩ := hids id hid
      exact ⟨_, hlookup, hkey⟩
    parent_reaches := by
      intro entry hentry
      obtain ⟨piece, hpiece, rfl⟩ := hret.mem_fragments.1 hentry
      rw [hret.built.parentIndex, hrecords.byParent]
      exact lookup_sortedIndex (mem_map_of_mem (mem_pieces_sorted.2 hpiece))
    anchor_reaches := by
      intro entry hentry
      obtain ⟨piece, hpiece, rfl⟩ := hret.mem_fragments.1 hentry
      rw [hret.built.anchorIndex, hrecords.byAnchor]
      exact lookup_sortedIndex (mem_map_of_mem (mem_pieces_sorted.2 hpiece))
    same_layer_count := fun entry hentry entry' hentry' => hret.same_layer_count hentry hentry'
    same_layer_of := hret.same_layer_of
    via_metal_count := fun entry hentry =>
      ⟨_, hret.built.metals_of entry hentry, fun _ hentry' => hret.via_metal_count hentry hentry'⟩
    via_metal_of := hret.via_metal_of }

end Build

/-! ## A sample -/

section Sample

/-- A hash that tells the ids of what is hashed. -/
def sampleHash : HashInput → String
  | .texts first second => first ++ "." ++ second
  | .boxed first second _ => first ++ "." ++ second
  | .pointed id index _ => toString index ++ id

def sampleText : TextFunctions where
  isDigit text := text == "1"
  intOf text := if text = "1" then some 1 else none

def sampleObject (id layer : String) (box : Box) : LayoutObject where
  objectId := id
  sourceAnchorId := some ("anchor_" ++ id)
  kind := .polygon
  layer := layer
  bboxDbu := box
  routingType := some "routing"
  editability := .A
  geometryDbu := some (polygon box)

theorem sampleBox_ordered (x1 y1 : ℤ) (width height : ℕ) :
    x1 ≤ x1 + width ∧ y1 ≤ y1 + height := by
  omega

def sampleBox (x1 y1 : ℤ) (width height : ℕ) : Box where
  x1 := x1
  y1 := y1
  x2 := x1 + width
  y2 := y1 + height
  ordered := sampleBox_ordered x1 y1 width height

/-- Two wires and a via. -/
def sampleObjects : List LayoutObject :=
  [sampleObject "w1" "M1" (sampleBox 0 0 1000 20), sampleObject "w2" "M1" (sampleBox 0 50 1000 20),
    sampleObject "x1" "V1" (sampleBox 400 0 20 20)]

def sampleViolation : ViolationRecord where
  violationId := "v"
  layers := ["M1", "V1"]
  reportIteration := 0
  ruleId := "M1.S.1"
  ruleFamily := .spacing
  markerBboxDbu := sampleBox 400 20 20 30

/-- The wires have fragments on both sides of the marker, and the via lands on them. -/
theorem build_complete_sample : ∃ topology,
    build sampleHash ⟨1000, 256⟩ sampleText [sampleViolation] sampleObjects = .ok topology ∧
      topology.fragments.length = 3 ∧ topology.endpoints.length = 4 ∧
      topology.sameLayerAdjacencies.length = 1 ∧ topology.viaMetalAdjacencies.length = 2 ∧
      Complete ⟨1000, 256⟩ sampleText [sampleViolation] sampleObjects topology := by
  have hbuild : (build sampleHash ⟨1000, 256⟩ sampleText [sampleViolation]
      sampleObjects).toOption.map (fun topology => (topology.fragments.length,
        topology.endpoints.length, topology.sameLayerAdjacencies.length,
        topology.viaMetalAdjacencies.length)) = some (3, 4, 1, 2) := by
    decide +kernel
  cases h : build sampleHash ⟨1000, 256⟩ sampleText [sampleViolation] sampleObjects with
  | error e =>
    rw [h] at hbuild
    cases hbuild
  | ok topology =>
    rw [h] at hbuild
    injection hbuild with hcounts
    injection hcounts with hfragments hcounts
    injection hcounts with hendpoints hcounts
    injection hcounts with hsameLayer hviaMetal
    refine ⟨topology, rfl, hfragments, hendpoints, hsameLayer, hviaMetal, ?_⟩
    exact build_complete (by decide) (by decide) (by decide +kernel) h

end Sample

end DRCAgent.Topology
