/-
# The mapping of connectivity components is exact

`map_connectivity_components` against its purpose. The loop over the paths has a closed
form (`foldlM_matchPath`): the bound objects of the endpoints, and the counts. The
classes of the forest are then those that the bound paths generate, so the component of
an object depends on the set of the paths only.

Main result:

* `maps_components_iff`: the mapping is the one the paths describe, and independent of
  their order and direction, exactly when no endpoint escapes.
-/
import DRCAgent.Connectivity
import DRCAgent.Failures

namespace DRCAgent.Connectivity

open Disjoint Failures List

/-! ## Rings -/

section Rings

variable {l m : List Point}

theorem SameRing.symm (h : SameRing l m) : SameRing m l := by
  rcases h with h | h
  · exact .inl h.symm
  · have hreverse := h.reverse
    rw [reverse_reverse] at hreverse
    exact .inr hreverse.symm

theorem sameRing_canonicalRing (l : List Point) : SameRing l (canonicalRing l) := by
  rcases min_choice (Necklace.least l) (Necklace.least l.reverse) with h | h
  · rw [canonicalRing, h]
    exact .inl (Necklace.isRotated_least l)
  · rw [canonicalRing, h]
    exact .inr (Necklace.isRotated_least l.reverse)

theorem canonicalRing_congr (h : SameRing l m) : canonicalRing l = canonicalRing m := by
  rcases h with h | h
  · rw [canonicalRing, canonicalRing, Necklace.least_eq_iff.2 h, Necklace.least_eq_iff.2 h.reverse]
  · have hreverse := h.reverse
    rw [reverse_reverse] at hreverse
    rw [canonicalRing, canonicalRing, Necklace.least_eq_iff.2 h,
      Necklace.least_eq_iff.2 hreverse, min_comm]

/-- **The canonical form decides equality up to rotation and reversal.** -/
theorem canonicalRing_eq_iff : canonicalRing l = canonicalRing m ↔ SameRing l m := by
  refine ⟨fun h => ?_, canonicalRing_congr⟩
  have hl := sameRing_canonicalRing l
  have hm := (sameRing_canonicalRing m).symm
  rw [← h] at hm
  rcases hl with hl | hl
  · rcases hm with hm | hm
    · exact .inl (hl.trans hm)
    · exact .inr (hl.reverse.trans hm)
  · rcases hm with hm | hm
    · exact .inr (hl.trans hm)
    · have hreverse := hl.reverse
      rw [reverse_reverse] at hreverse
      exact .inl (hreverse.trans hm)

end Rings

/-! ## The exceptions that are not caught -/

/-- The reading raises an exception that the loop does not catch. -/
def Uncaught {β : Type} (result : Except PyError β) : Prop :=
  ∃ e, result = .error e ∧ e.caught = false

section Uncaught

variable {β γ : Type} {intOfText : String → Option ℤ}

theorem not_uncaught_ok {value : β} : ¬ Uncaught (.ok value : Except PyError β) :=
  fun ⟨_, h, _⟩ => nomatch h

theorem uncaught_error {e : PyError} : Uncaught (.error e : Except PyError β) ↔ e.caught = false :=
  ⟨fun ⟨_, h, hcaught⟩ => Except.error.inj h ▸ hcaught, fun h => ⟨e, rfl, h⟩⟩

theorem uncaught_iff {x : Except PyError β} :
    Uncaught x ↔ ¬ Never (fun e => e.caught = false) x := by
  simp only [Uncaught, Never, not_forall, not_not, exists_prop]

theorem uncaught_bind {x : Except PyError β} {f : β → Except PyError γ} :
    Uncaught (x >>= f) ↔ Uncaught x ∨ ∃ value, x = .ok value ∧ Uncaught (f value) := by
  simp only [uncaught_iff, never_bind, not_and_or, not_forall, exists_prop]

theorem uncaught_mapM {f : β → Except PyError γ} {l : List β} :
    Uncaught (l.mapM f) ↔ ∃ before value after, l = before ++ value :: after ∧
      (∀ b ∈ before, ∃ c, f b = .ok c) ∧ Uncaught (f value) := by
  rw [uncaught_iff, never_mapM]
  constructor
  · intro h
    obtain ⟨value, h⟩ := not_forall.1 h
    obtain ⟨⟨before, after, rfl, hbefore⟩, hvalue⟩ := Classical.not_imp.1 h
    exact ⟨before, value, after, rfl, hbefore, uncaught_iff.2 hvalue⟩
  · rintro ⟨before, value, after, rfl, hbefore, hvalue⟩ h
    exact uncaught_iff.1 hvalue (h value ⟨before, after, rfl, hbefore⟩)

theorem uncaught_toInt {value : Json} : Uncaught (value.toInt intOfText) ↔ value.Infinite := by
  cases value with
  | infinity negative => exact ⟨fun _ => trivial, fun _ => ⟨_, rfl, rfl⟩⟩
  | string text =>
    refine ⟨fun h => ?_, fun h => h.elim⟩
    rw [Json.toInt] at h
    split at h
    · exact absurd h not_uncaught_ok
    · exact absurd (uncaught_error.1 h) (by decide)
  | null => exact ⟨fun h => absurd (uncaught_error.1 h) (by decide), fun h => h.elim⟩
  | bool b => exact ⟨fun h => absurd h not_uncaught_ok, fun h => h.elim⟩
  | number q => exact ⟨fun h => absurd h not_uncaught_ok, fun h => h.elim⟩
  | nan => exact ⟨fun h => absurd (uncaught_error.1 h) (by decide), fun h => h.elim⟩
  | array items => exact ⟨fun h => absurd (uncaught_error.1 h) (by decide), fun h => h.elim⟩
  | object entries => exact ⟨fun h => absurd (uncaught_error.1 h) (by decide), fun h => h.elim⟩

theorem not_uncaught_field {value : Json} {key : String} : ¬ Uncaught (value.field key) := by
  rintro ⟨e, h, hcaught⟩
  cases value with
  | object entries =>
    rw [Json.field] at h
    split at h
    · cases h
    · cases h
      cases hcaught
  | _ =>
    cases h
    cases hcaught

theorem not_uncaught_items {value : Json} : ¬ Uncaught value.items := by
  rintro ⟨e, h, hcaught⟩
  cases value with
  | array items => cases h
  | string text => cases h
  | object entries => cases h
  | _ =>
    cases h
    cases hcaught

/-- The entry of a point at an index. -/
theorem item_of_entries {point : Json} {entries : List Json} (h : point.entries? = some entries)
    (index : ℕ) : point.item index =
      match entries[index]? with
      | some value => .ok value
      | none => .error .indexError := by
  cases point with
  | array items =>
    obtain rfl := Option.some.inj h
    rfl
  | string text =>
    obtain rfl := Option.some.inj h
    rfl
  | _ => cases h

theorem not_uncaught_item {point : Json} (h : point.entries? = none) (index : ℕ) :
    ¬ Uncaught (point.item index) ∧ ∀ value, point.item index ≠ .ok value := by
  cases point with
  | array items => cases h
  | string text => cases h
  | _ =>
    refine ⟨?_, fun _ heq => nomatch heq⟩
    rintro ⟨_, heq, hcaught⟩
    cases heq
    cases hcaught

theorem uncaught_readPoint {point : Json} :
    Uncaught (readPoint intOfText point) ↔ PointEscapes intOfText point := by
  have hlast : ∀ {x y : ℤ}, ¬ Uncaught (pure ⟨x, y⟩ : Except PyError Point) := not_uncaught_ok
  rw [readPoint, PointEscapes]
  match hentries : point.entries? with
  | none =>
    obtain ⟨hcaught, hnone⟩ := not_uncaught_item hentries 0
    rw [uncaught_bind]
    exact ⟨fun h => h.elim hcaught fun ⟨value, heq, _⟩ => hnone value heq, fun h => h.elim⟩
  | some [] =>
    rw [item_of_entries hentries 0]
    exact ⟨fun _ => trivial, fun _ => ⟨_, rfl, rfl⟩⟩
  | some [x] =>
    rw [item_of_entries hentries 0, item_of_entries hentries 1]
    show Uncaught (x.toInt intOfText >>= fun _ => Except.error PyError.indexError) ↔
      (x.Infinite ∨ ∃ n, x.toInt intOfText = .ok n)
    rw [uncaught_bind, uncaught_toInt]
    constructor
    · rintro (h | ⟨n, hn, -⟩)
      · exact .inl h
      · exact .inr ⟨n, hn⟩
    · rintro (h | ⟨n, hn⟩)
      · exact .inl h
      · exact .inr ⟨n, hn, _, rfl, rfl⟩
  | some (x :: y :: rest) =>
    rw [item_of_entries hentries 0, item_of_entries hentries 1]
    show Uncaught (x.toInt intOfText >>= fun a => y.toInt intOfText >>= fun b =>
      (pure ⟨a, b⟩ : Except PyError Point)) ↔ _
    simp only [uncaught_bind, uncaught_toInt, Readable, hlast, and_false, exists_false, or_false]
    constructor
    · rintro (h | ⟨n, hn, hy⟩)
      · exact .inl h
      · exact .inr ⟨⟨n, hn⟩, hy⟩
    · rintro (h | ⟨⟨n, hn⟩, hy⟩)
      · exact .inl h
      · exact .inr ⟨n, hn, hy⟩

/-- **The endpoints that escape** are those whose reading raises what is not caught. -/
theorem uncaught_endpointKey {endpoint : Json} :
    Uncaught (endpointKey intOfText endpoint) ↔ EndpointEscapes intOfText endpoint := by
  have hpure : ∀ {β : Type} {value : β}, ¬ Uncaught (pure value : Except PyError β) :=
    not_uncaught_ok
  rw [endpointKey, endpointShape]
  simp only [bind_assoc, pure_bind, uncaught_bind, uncaught_toInt, uncaught_mapM, hpure,
    not_uncaught_field, not_uncaught_items, uncaught_readPoint, and_false, exists_false, or_false,
    false_or]
  constructor
  · rintro ⟨layer, hlayer, h⟩
    refine ⟨layer, hlayer, ?_⟩
    rcases h with h | ⟨n, hn, points, hpoints, items, hitems, before, point, after, rfl, hbefore, hpoint⟩
    · exact .inl h
    · exact .inr ⟨⟨n, hn⟩, points, before, point, after, hpoints, hitems, hbefore, hpoint⟩
  · rintro ⟨layer, hlayer, h⟩
    refine ⟨layer, hlayer, ?_⟩
    rcases h with h | ⟨⟨n, hn⟩, points, before, point, after, hpoints, hitems, hbefore, hpoint⟩
    · exact .inl h
    · exact .inr ⟨n, hn, points, hpoints, _, hitems, before, point, after, rfl, hbefore, hpoint⟩

end Uncaught

/-! ## The matches of an endpoint -/

section Matches

variable {intOfText : String → Option ℤ} {objects : List LayoutObject} {endpoint : Json}

theorem routingKey_eq_some {item : LayoutObject} {key : EndpointKey} :
    routingKey item = some key ↔ item.routingType = some "routing" ∧
      item.layerNumber = some key.layer ∧ ∃ geometry, item.geometryDbu = some geometry ∧
        geometry ≠ [] ∧ canonicalRing geometry = key.ring := by
  rw [routingKey]
  by_cases hrouting : item.routingType = some "routing"
  · rw [if_pos hrouting]
    match hlayer : item.layerNumber, hgeometry : item.geometryDbu with
    | none, _ => simp
    | some layer, none => simp
    | some layer, some [] => simp
    | some layer, some (first :: rest) =>
      simp only [hrouting, true_and, Option.some.injEq]
      constructor
      · rintro rfl
        exact ⟨rfl, _, rfl, cons_ne_nil _ _, rfl⟩
      · rintro ⟨rfl, geometry, rfl, -, hring⟩
        rw [hring]
  · rw [if_neg hrouting]
    simp [hrouting]

/-- An endpoint matches an object when the keys are the same. -/
theorem endpointMatches_iff {item : LayoutObject} : EndpointMatches intOfText endpoint item ↔
    ∃ key, endpointKey intOfText endpoint = .ok key ∧ routingKey item = some key := by
  constructor
  · rintro ⟨layer, values, geometry, hshape, hrouting, hlayer, hgeometry, hne, hring⟩
    refine ⟨⟨layer, canonicalRing values⟩, ?_, ?_⟩
    · rw [endpointKey, hshape]
      rfl
    · rw [routingKey_eq_some]
      exact ⟨hrouting, hlayer, geometry, hgeometry, hne, (canonicalRing_congr hring).symm⟩
  · rintro ⟨key, hkey, hitem⟩
    rw [endpointKey] at hkey
    cases hshape : endpointShape intOfText endpoint with
    | error e =>
      rw [hshape] at hkey
      cases hkey
    | ok shape =>
      rw [hshape] at hkey
      obtain rfl := Except.ok.inj hkey
      obtain ⟨hrouting, hlayer, geometry, hgeometry, hne, hring⟩ := routingKey_eq_some.1 hitem
      exact ⟨shape.1, shape.2, geometry, hshape, hrouting, hlayer, hgeometry, hne,
        canonicalRing_eq_iff.1 hring.symm⟩

/-- What the index holds under a key. -/
theorem lookup_endpointIndex (objects : List LayoutObject) (key : EndpointKey) :
    ((endpointIndex objects).lookup key).getD [] =
      (objects.filter fun item => routingKey item = some key).map (·.objectId) := by
  rw [endpointIndex, Dicts.lookup_collect]
  induction objects with
  | nil => rfl
  | cons item objects ih =>
    rw [filterMap_cons, filter_cons]
    cases hkey : routingKey item with
    | none => simpa using ih
    | some k =>
      by_cases hk : k = key
      · simpa [hk] using ih
      · simpa [hk] using ih

variable (intOfText objects)

/-- The ids of the objects that an endpoint matches. -/
def endpointIds (endpoint : Json) : List String :=
  match endpointKey intOfText endpoint with
  | .ok key => (objects.filter fun item => routingKey item = some key).map (·.objectId)
  | .error _ => []

/-- The object an endpoint is bound to. -/
def boundObject (endpoint : Json) : Option String :=
  (recordMatches {} (endpointIds intOfText objects endpoint)).2

/-- The endpoint matches several objects. -/
def isAmbiguous (endpoint : Json) : Bool := 1 < (endpointIds intOfText objects endpoint).length

variable {intOfText objects}

theorem mem_endpointIds {objectId : String} : objectId ∈ endpointIds intOfText objects endpoint ↔
    ∃ item ∈ objects, EndpointMatches intOfText endpoint item ∧ item.objectId = objectId := by
  rw [endpointIds]
  cases hkey : endpointKey intOfText endpoint with
  | error e =>
    refine ⟨fun h => absurd h not_mem_nil, ?_⟩
    rintro ⟨item, -, hmatches, -⟩
    obtain ⟨key, heq, -⟩ := endpointMatches_iff.1 hmatches
    rw [hkey] at heq
    cases heq
  | ok key =>
    simp only [mem_map, mem_filter, decide_eq_true_eq, endpointMatches_iff, hkey]
    constructor
    · rintro ⟨item, ⟨hitem, hrouting⟩, rfl⟩
      exact ⟨item, hitem, ⟨key, rfl, hrouting⟩, rfl⟩
    · rintro ⟨item, hitem, ⟨_, heq, hrouting⟩, rfl⟩
      obtain rfl := Except.ok.inj heq
      exact ⟨item, ⟨hitem, hrouting⟩, rfl⟩

theorem nodup_endpointIds (hids : (objects.map (·.objectId)).Nodup) :
    (endpointIds intOfText objects endpoint).Nodup := by
  rw [endpointIds]
  split
  · exact hids.sublist (filter_sublist.map _)
  · exact nodup_nil

theorem boundObject_eq_some {objectId : String} :
    boundObject intOfText objects endpoint = some objectId ↔
      endpointIds intOfText objects endpoint = [objectId] := by
  rw [boundObject]
  match endpointIds intOfText objects endpoint with
  | [] => simp [recordMatches]
  | [id] => simp [recordMatches]
  | a :: b :: rest => simp [recordMatches]

/-- An object is determined by its id. -/
theorem eq_of_objectId (hids : (objects.map (·.objectId)).Nodup) {a b : LayoutObject}
    (ha : a ∈ objects) (hb : b ∈ objects) (h : a.objectId = b.objectId) : a = b :=
  inj_on_of_nodup_map hids ha hb h

/-- **The bound object is the one the endpoint matches uniquely.** -/
theorem boundObject_iff (hids : (objects.map (·.objectId)).Nodup) {objectId : String} :
    boundObject intOfText objects endpoint = some objectId ↔
      ∃ item, UniquelyMatches intOfText objects endpoint item ∧ item.objectId = objectId := by
  rw [boundObject_eq_some]
  constructor
  · intro heq
    have hmem : objectId ∈ endpointIds intOfText objects endpoint := by
      rw [heq]
      exact mem_singleton_self _
    obtain ⟨item, hitem, hmatches, rfl⟩ := mem_endpointIds.1 hmem
    refine ⟨item, ⟨hitem, hmatches, fun other hother hother' => ?_⟩, rfl⟩
    have hid : other.objectId ∈ endpointIds intOfText objects endpoint :=
      mem_endpointIds.2 ⟨other, hother, hother', rfl⟩
    rw [heq, mem_singleton] at hid
    exact eq_of_objectId hids hother hitem hid
  · rintro ⟨item, ⟨hitem, hmatches, honly⟩, rfl⟩
    refine perm_singleton.1 ((perm_ext_iff_of_nodup (nodup_endpointIds hids)
      (nodup_singleton _)).2 fun id => ?_)
    rw [mem_endpointIds, mem_singleton]
    constructor
    · rintro ⟨other, hother, hother', rfl⟩
      rw [honly other hother hother']
    · rintro rfl
      exact ⟨item, hitem, hmatches, rfl⟩

/-! ## The loop over the paths -/

/-- The state after the paths, from a state before them. -/
def MatchState.after (intOfText : String → Option ℤ) (objects : List LayoutObject)
    (state : MatchState) (paths : List GoldenPath) : MatchState where
  matchedPaths := state.matchedPaths ++ paths.map fun path =>
    (boundObject intOfText objects path.start.orEmpty,
      boundObject intOfText objects path.finish.orEmpty)
  matchedIds := state.matchedIds ++ (endpoints paths).filterMap (boundObject intOfText objects)
  ambiguous := state.ambiguous + (endpoints paths).countP (isAmbiguous intOfText objects)
  endpointCount := state.endpointCount + (endpoints paths).length
  uniqueEndpointCount := state.uniqueEndpointCount +
    ((endpoints paths).filterMap (boundObject intOfText objects)).length

/-- What is recorded of the matches. -/
theorem recordMatches_eq (state : MatchState) (ids : List String) : recordMatches state ids =
    ({ matchedPaths := state.matchedPaths
       matchedIds := state.matchedIds ++ (recordMatches {} ids).2.toList
       ambiguous := state.ambiguous + if 1 < ids.length then 1 else 0
       endpointCount := state.endpointCount
       uniqueEndpointCount := state.uniqueEndpointCount + (recordMatches {} ids).2.toList.length },
      (recordMatches {} ids).2) := by
  match ids with
  | [] => simp [recordMatches]
  | [id] => simp [recordMatches]
  | a :: b :: rest => simp [recordMatches]

/-- One endpoint that does not escape. -/
theorem matchEndpoint_eq {state : MatchState} (h : ¬ EndpointEscapes intOfText endpoint) :
    matchEndpoint intOfText (endpointIndex objects) state endpoint = .ok
      ({ matchedPaths := state.matchedPaths
         matchedIds := state.matchedIds ++ (boundObject intOfText objects endpoint).toList
         ambiguous := state.ambiguous + if isAmbiguous intOfText objects endpoint then 1 else 0
         endpointCount := state.endpointCount + 1
         uniqueEndpointCount := state.uniqueEndpointCount +
           (boundObject intOfText objects endpoint).toList.length },
        boundObject intOfText objects endpoint) := by
  rw [← uncaught_endpointKey] at h
  rw [matchEndpoint, boundObject, isAmbiguous, endpointIds]
  cases hkey : endpointKey intOfText endpoint with
  | error e =>
    have hcaught : e.caught = true := by
      rw [hkey, uncaught_error, Bool.not_eq_false] at h
      exact h
    simp [hcaught, recordMatches]
  | ok key =>
    show Except.ok (recordMatches _ (((endpointIndex objects).lookup key).getD [])) = _
    rw [lookup_endpointIndex, recordMatches_eq]
    simp only [decide_eq_true_eq]

/-- One endpoint that escapes. -/
theorem uncaught_matchEndpoint {index : List (EndpointKey × List String)} {state : MatchState}
    (h : EndpointEscapes intOfText endpoint) :
    Uncaught (matchEndpoint intOfText index state endpoint) := by
  obtain ⟨e, hkey, hcaught⟩ := uncaught_endpointKey.2 h
  rw [matchEndpoint, hkey]
  exact ⟨e, by simp [hcaught], hcaught⟩

theorem endpoints_cons (path : GoldenPath) (paths : List GoldenPath) :
    endpoints (path :: paths) = path.start.orEmpty :: path.finish.orEmpty :: endpoints paths := rfl

/-- One path none of whose endpoints escapes. -/
theorem matchPath_eq {state : MatchState} {path : GoldenPath}
    (hstart : ¬ EndpointEscapes intOfText path.start.orEmpty)
    (hend : ¬ EndpointEscapes intOfText path.finish.orEmpty) :
    matchPath intOfText (endpointIndex objects) state path =
      .ok (state.after intOfText objects [path]) := by
  rw [matchPath, matchEndpoint_eq hstart]
  show (matchEndpoint intOfText _ _ _ >>= _) = _
  rw [matchEndpoint_eq hend]
  show Except.ok _ = Except.ok _
  rw [MatchState.after, endpoints_cons]
  congr 1
  cases hs : boundObject intOfText objects path.start.orEmpty with
  | none =>
    cases he : boundObject intOfText objects path.finish.orEmpty <;>
      simp [endpoints, hs, he, countP_cons, Nat.add_assoc, Nat.add_comm] <;> omega
  | some a =>
    cases he : boundObject intOfText objects path.finish.orEmpty <;>
      simp [endpoints, hs, he, countP_cons, Nat.add_assoc, Nat.add_comm] <;> omega

/-- The state after one path and then the rest. -/
theorem MatchState.after_cons (state : MatchState) (path : GoldenPath) (paths : List GoldenPath) :
    (state.after intOfText objects [path]).after intOfText objects paths =
      state.after intOfText objects (path :: paths) := by
  have hsplit : endpoints (path :: paths) = endpoints [path] ++ endpoints paths := rfl
  rw [MatchState.after, MatchState.after, MatchState.after, hsplit]
  simp [Nat.add_assoc]

/-- **The closed form of the loop.** -/
theorem foldlM_matchPath {paths : List GoldenPath} (state : MatchState)
    (h : ∀ endpoint ∈ endpoints paths, ¬ EndpointEscapes intOfText endpoint) :
    paths.foldlM (matchPath intOfText (endpointIndex objects)) state =
      .ok (state.after intOfText objects paths) := by
  induction paths generalizing state with
  | nil => simp [MatchState.after, endpoints, pure, Except.pure]
  | cons path paths ih =>
    simp only [endpoints_cons, mem_cons, forall_eq_or_imp] at h
    rw [foldlM_cons, matchPath_eq h.1 h.2.1]
    show paths.foldlM _ _ = _
    rw [ih _ h.2.2, MatchState.after_cons]

/-- An endpoint that escapes ends the loop. -/
theorem uncaught_foldlM {paths : List GoldenPath} (state : MatchState)
    (h : ∃ endpoint ∈ endpoints paths, EndpointEscapes intOfText endpoint) :
    Uncaught (paths.foldlM (matchPath intOfText (endpointIndex objects)) state) := by
  induction paths generalizing state with
  | nil =>
    obtain ⟨endpoint, hmem, -⟩ := h
    cases hmem
  | cons path paths ih =>
    rw [foldlM_cons, uncaught_bind]
    by_cases hstart : EndpointEscapes intOfText path.start.orEmpty
    · refine .inl ?_
      rw [matchPath, uncaught_bind]
      exact .inl (uncaught_matchEndpoint hstart)
    · by_cases hend : EndpointEscapes intOfText path.finish.orEmpty
      · refine .inl ?_
        rw [matchPath, uncaught_bind]
        refine .inr ⟨_, matchEndpoint_eq hstart, ?_⟩
        rw [uncaught_bind]
        exact .inl (uncaught_matchEndpoint hend)
      · refine .inr ⟨_, matchPath_eq hstart hend, ih _ ?_⟩
        obtain ⟨endpoint, hmem, hescapes⟩ := h
        rw [endpoints_cons, mem_cons, mem_cons] at hmem
        rcases hmem with rfl | rfl | hmem
        · exact absurd hescapes hstart
        · exact absurd hescapes hend
        · exact ⟨endpoint, hmem, hescapes⟩

end Matches

/-! ## The forest of the paths -/

section Forest

variable (intOfText : String → Option ℤ) (objects : List LayoutObject)

/-- The ids that some endpoint is bound to. -/
def boundIds (paths : List GoldenPath) : List String :=
  (endpoints paths).filterMap (boundObject intOfText objects)

/-- The pairs that the paths join. -/
def boundPairs (paths : List GoldenPath) : List (String × String) :=
  (paths.map fun path => (boundObject intOfText objects path.start.orEmpty,
    boundObject intOfText objects path.finish.orEmpty)).filterMap boundPair

/-- The forest after the loop. -/
def pathForest (paths : List GoldenPath) : UnionFind String :=
  (UnionFind.ofIds (sortedSet (boundIds intOfText objects paths))).unions
    (boundPairs intOfText objects paths)

variable {intOfText objects} {paths paths' : List GoldenPath}

theorem boundPair_eq_some {ends : Option String × Option String} {left right : String} :
    boundPair ends = some (left, right) ↔ ends.1 = some left ∧ ends.2 = some right := by
  obtain ⟨a, b⟩ := ends
  cases a with
  | none => simp [boundPair]
  | some a =>
    cases b with
    | none => simp [boundPair]
    | some b => simp [boundPair]

theorem mem_boundPairs {left right : String} : (left, right) ∈ boundPairs intOfText objects paths ↔
    ∃ path ∈ paths, boundObject intOfText objects path.start.orEmpty = some left ∧
      boundObject intOfText objects path.finish.orEmpty = some right := by
  rw [boundPairs, mem_filterMap]
  simp only [mem_map, exists_exists_and_eq_and]
  exact exists_congr fun path => and_congr_right fun _ => boundPair_eq_some

theorem mem_boundIds {objectId : String} : objectId ∈ boundIds intOfText objects paths ↔
    ∃ endpoint ∈ endpoints paths, boundObject intOfText objects endpoint = some objectId :=
  mem_filterMap

theorem start_mem_endpoints {path : GoldenPath} (h : path ∈ paths) :
    path.start.orEmpty ∈ endpoints paths :=
  mem_flatMap.2 ⟨path, h, mem_cons_self⟩

theorem end_mem_endpoints {path : GoldenPath} (h : path ∈ paths) :
    path.finish.orEmpty ∈ endpoints paths :=
  mem_flatMap.2 ⟨path, h, mem_cons_of_mem _ mem_cons_self⟩

/-- The joined objects are bound. -/
theorem within_boundPairs : UnionFind.Within (sortedSet (boundIds intOfText objects paths))
    (boundPairs intOfText objects paths) := by
  rintro ⟨left, right⟩ hpair
  obtain ⟨path, hpath, hleft, hright⟩ := mem_boundPairs.1 hpair
  rw [mem_sortedSet, mem_sortedSet, mem_boundIds, mem_boundIds]
  exact ⟨⟨_, start_mem_endpoints hpath, hleft⟩, ⟨_, end_mem_endpoints hpath, hright⟩⟩

theorem pathForest_ids :
    (pathForest intOfText objects paths).ids = sortedSet (boundIds intOfText objects paths) :=
  UnionFind.unions_ids _ _

theorem closed_pathForest : (pathForest intOfText objects paths).Closed :=
  (UnionFind.closed_ofIds _).unions within_boundPairs

theorem nodup_pathForest_ids : (pathForest intOfText objects paths).ids.Nodup := by
  rw [pathForest_ids]
  exact nodup_sortedSet _

/-- **The classes of the forest** are generated by the paths that link two objects. -/
theorem same_pathForest (hids : (objects.map (·.objectId)).Nodup) (a b : String) :
    (pathForest intOfText objects paths).Same a b ↔ Linked intOfText objects paths a b := by
  rw [pathForest, UnionFind.same_unions_ofIds within_boundPairs, Linked]
  have hlinks : (fun c d => (c, d) ∈ boundPairs intOfText objects paths) =
      PathLinks intOfText objects paths := by
    funext c d
    refine propext ?_
    rw [mem_boundPairs, PathLinks]
    refine exists_congr fun path => and_congr_right fun _ => ?_
    rw [boundObject_iff hids, boundObject_iff hids]
    constructor
    · rintro ⟨⟨x, hx, rfl⟩, ⟨y, hy, rfl⟩⟩
      exact ⟨x, y, hx, hy, rfl, rfl⟩
    · rintro ⟨x, y, hx, hy, rfl, rfl⟩
      exact ⟨⟨x, hx, rfl⟩, ⟨y, hy, rfl⟩⟩
  rw [hlinks]

end Forest

/-! ## The components of a forest -/

section Components

variable {stableHash : List String → String} {uf : UnionFind String} {x y : String}

theorem componentByObject_eq (hnodup : uf.ids.Nodup) :
    componentByObject stableHash uf.groups = uf.groups.flatMap fun values =>
      values.map fun objectId => (objectId, componentId stableHash values) := by
  rw [componentByObject, Dicts.ofList_of_nodup]
  rw [map_flatMap]
  simp only [map_map, Function.comp_def, map_id']
  rw [flatMap_id']
  exact (UnionFind.groups_perm uf).nodup_iff.2 hnodup

/-- The objects with a component are the elements of the forest. -/
theorem keys_componentByObject_perm (hnodup : uf.ids.Nodup) :
    ((componentByObject stableHash uf.groups).map (·.1)).Perm uf.ids := by
  rw [componentByObject_eq hnodup, map_flatMap]
  simp only [map_map, Function.comp_def, map_id']
  rw [flatMap_id']
  exact UnionFind.groups_perm uf

theorem nodup_keys_componentByObject (hnodup : uf.ids.Nodup) :
    ((componentByObject stableHash uf.groups).map (·.1)).Nodup :=
  (keys_componentByObject_perm hnodup).nodup_iff.2 hnodup

/-- The component of an element is the one of its group. -/
theorem lookup_componentByObject (hnodup : uf.ids.Nodup) {group : List String}
    (hgroup : group ∈ uf.groups) (hx : x ∈ group) :
    (componentByObject stableHash uf.groups).lookup x = some (componentId stableHash group) := by
  have hentry : (x, componentId stableHash group) ∈ componentByObject stableHash uf.groups := by
    rw [componentByObject_eq hnodup, mem_flatMap]
    exact ⟨group, hgroup, mem_map_of_mem hx⟩
  exact Dicts.lookup_of_mem (nodup_keys_componentByObject hnodup) hentry

theorem isSome_lookup_componentByObject (hnodup : uf.ids.Nodup) :
    ((componentByObject stableHash uf.groups).lookup x).isSome ↔ x ∈ uf.ids := by
  have hkeys : ((componentByObject stableHash uf.groups).map (·.1)).Perm uf.ids :=
    keys_componentByObject_perm hnodup
  rw [← hkeys.mem_iff, lookup_isSome_iff, mem_map]
  constructor
  · rintro ⟨entry, hentry, heq⟩
    exact ⟨entry, hentry, (beq_iff_eq.1 heq).symm⟩
  · rintro ⟨entry, hentry, rfl⟩
    exact ⟨entry, hentry, beq_self_eq_true _⟩

/-- **Two elements have one component exactly when they are in one class**, where the
ids of the groups do not collide. -/
theorem same_component (hclosed : uf.Closed) (hnodup : uf.ids.Nodup)
    (hhash : ∀ g ∈ uf.groups, ∀ g' ∈ uf.groups,
      componentId stableHash g = componentId stableHash g' → g = g')
    (hx : x ∈ uf.ids) (hy : y ∈ uf.ids) :
    (componentByObject stableHash uf.groups).lookup x =
      (componentByObject stableHash uf.groups).lookup y ↔ uf.Same x y := by
  obtain ⟨g, hg, hxg⟩ := UnionFind.exists_group hx
  obtain ⟨g', hg', hyg'⟩ := UnionFind.exists_group hy
  rw [lookup_componentByObject hnodup hg hxg, lookup_componentByObject hnodup hg' hyg',
    UnionFind.same_iff_root hclosed hx hy]
  have hclass := UnionFind.group_of_mem hclosed hg hxg
  have hclass' := UnionFind.group_of_mem hclosed hg' hyg'
  constructor
  · intro heq
    obtain rfl := hhash g hg g' hg' (Option.some.inj heq)
    rw [hclass', mem_filter, decide_eq_true_eq] at hxg
    exact hxg.2
  · intro hroot
    rw [hclass, hclass', hroot]

end Components

/-! ## The result -/

section Result

variable (intOfText : String → Option ℤ) (stableHash : List String → String)
  (objects : List LayoutObject)

/-- `component_by_object` of the paths. -/
def pathComponents (paths : List GoldenPath) : List (String × String) :=
  componentByObject stableHash (pathForest intOfText objects paths).groups

/-- The report of the paths. -/
def pathReport (paths : List GoldenPath) : ConnectivityMappingReport :=
  let components := pathComponents intOfText stableHash objects paths
  { objectCount := objects.length
    endpointCount := (endpoints paths).length
    uniquelyMatchedEndpointCount := (boundIds intOfText objects paths).length
    ambiguousEndpointCount := (endpoints paths).countP (isAmbiguous intOfText objects)
    mappedObjectCount := components.length
    unavailableObjectCount := (objects.length : ℤ) - components.length
    componentCount := (components.map (·.2)).dedup.length
    mappedObjectIds := sortedSet (components.map (·.1)) }

/-- The objects after the mapping. -/
def pathObjects (paths : List GoldenPath) : List LayoutObject :=
  objects.map fun item =>
    receive ((pathComponents intOfText stableHash objects paths).lookup item.objectId) item

variable {intOfText stableHash objects} {paths paths' : List GoldenPath}

/-- **The closed form of the mapping.** -/
theorem mapConnectivityComponents_eq
    (h : ∀ endpoint ∈ endpoints paths, ¬ EndpointEscapes intOfText endpoint) :
    mapConnectivityComponents intOfText stableHash objects paths =
      .ok (pathObjects intOfText stableHash objects paths,
        pathReport intOfText stableHash objects paths) := by
  rw [mapConnectivityComponents, foldlM_matchPath _ h]
  show Except.ok _ = Except.ok _
  simp [MatchState.after, pathObjects, pathReport, pathComponents, pathForest, componentForest,
    boundIds, boundPairs]

/-- With an endpoint that escapes there is no mapping. -/
theorem mapConnectivityComponents_ne_ok {result : List LayoutObject × ConnectivityMappingReport}
    (h : ∃ endpoint ∈ endpoints paths, EndpointEscapes intOfText endpoint) :
    mapConnectivityComponents intOfText stableHash objects paths ≠ .ok result := by
  have huncaught : Uncaught (paths.foldlM (matchPath intOfText (endpointIndex objects)) {}) :=
    uncaught_foldlM {} h
  obtain ⟨e, herror, -⟩ := huncaught
  rw [mapConnectivityComponents, herror]
  exact fun heq => nomatch heq

theorem length_endpoints (paths : List GoldenPath) :
    (endpoints paths).length = 2 * paths.length := by
  induction paths with
  | nil => rfl
  | cons path paths ih =>
    rw [endpoints_cons, length_cons, length_cons, ih, length_cons]
    omega

/-- No endpoint is both bound and ambiguous. -/
theorem bound_add_ambiguous_le (l : List Json) :
    (l.filterMap (boundObject intOfText objects)).length +
      l.countP (isAmbiguous intOfText objects) ≤ l.length := by
  induction l with
  | nil => exact le_rfl
  | cons endpoint l ih =>
    rw [countP_cons, length_cons]
    cases hbound : boundObject intOfText objects endpoint with
    | none =>
      rw [filterMap_cons_none hbound]
      split
      · omega
      · omega
    | some id =>
      have hsingle : isAmbiguous intOfText objects endpoint = false := by
        rw [isAmbiguous, boundObject_eq_some.1 hbound]
        rfl
      rw [filterMap_cons_some hbound, length_cons, hsingle]
      simp only [Bool.false_eq_true, if_false]
      omega

/-- The objects with a component. -/
theorem mem_pathForest_ids (hids : (objects.map (·.objectId)).Nodup) {objectId : String} :
    objectId ∈ (pathForest intOfText objects paths).ids ↔ ∃ item ∈ objects,
      item.objectId = objectId ∧
        ∃ endpoint ∈ endpoints paths, UniquelyMatches intOfText objects endpoint item := by
  rw [pathForest_ids, mem_sortedSet, mem_boundIds]
  constructor
  · rintro ⟨endpoint, hendpoint, hbound⟩
    obtain ⟨item, hitem, rfl⟩ := (boundObject_iff hids).1 hbound
    exact ⟨item, hitem.1, rfl, endpoint, hendpoint, hitem⟩
  · rintro ⟨item, -, rfl, endpoint, hendpoint, hitem⟩
    exact ⟨endpoint, hendpoint, (boundObject_iff hids).2 ⟨item, hitem, rfl⟩⟩

/-- The objects with a component, by their ids, are the elements of the forest. -/
theorem mapped_perm (hids : (objects.map (·.objectId)).Nodup) :
    ((objects.filter fun item =>
      ((pathComponents intOfText stableHash objects paths).lookup item.objectId).isSome).map
        (·.objectId)).Perm ((pathComponents intOfText stableHash objects paths).map (·.1)) := by
  refine (perm_ext_iff_of_nodup (hids.sublist (filter_sublist.map _))
    (nodup_keys_componentByObject nodup_pathForest_ids)).2 fun id => ?_
  rw [pathComponents, (keys_componentByObject_perm nodup_pathForest_ids).mem_iff]
  simp only [mem_map, mem_filter, isSome_lookup_componentByObject nodup_pathForest_ids]
  constructor
  · rintro ⟨item, ⟨-, hitem⟩, rfl⟩
    exact hitem
  · intro hid
    obtain ⟨item, hitem, rfl, -⟩ := (mem_pathForest_ids hids).1 hid
    exact ⟨item, ⟨hitem, hid⟩, rfl⟩

/-- There are as many objects with a component as there are components assigned. -/
theorem length_mapped (hids : (objects.map (·.objectId)).Nodup) :
    (objects.filter fun item =>
      ((pathComponents intOfText stableHash objects paths).lookup item.objectId).isSome).length =
      (pathComponents intOfText stableHash objects paths).length := by
  rw [← length_map (·.objectId), (mapped_perm hids).length_eq, length_map]

/-- The component ids that are assigned. -/
theorem mem_component_ids (hids : (objects.map (·.objectId)).Nodup) {component : String} :
    component ∈ (pathComponents intOfText stableHash objects paths).map (·.2) ↔
      component ∈ objects.filterMap fun item =>
        (pathComponents intOfText stableHash objects paths).lookup item.objectId := by
  have hnodup : ((pathComponents intOfText stableHash objects paths).map (·.1)).Nodup :=
    nodup_keys_componentByObject nodup_pathForest_ids
  rw [mem_map, mem_filterMap]
  constructor
  · rintro ⟨entry, hentry, rfl⟩
    have hkey : entry.1 ∈ (pathComponents intOfText stableHash objects paths).map (·.1) :=
      mem_map_of_mem hentry
    obtain ⟨item, hitem, hid⟩ := mem_map.1 ((mapped_perm hids).mem_iff.2 hkey)
    refine ⟨item, (mem_filter.1 hitem).1, ?_⟩
    rw [hid]
    exact Dicts.lookup_of_mem hnodup hentry
  · rintro ⟨item, -, hlookup⟩
    exact ⟨(item.objectId, component), Dicts.mem_of_lookup hlookup, rfl⟩

/-- **The mapping is the one the paths describe.** -/
theorem mapsComponents (hids : (objects.map (·.objectId)).Nodup)
    (hhash : ∀ g ∈ (pathForest intOfText objects paths).groups,
      ∀ g' ∈ (pathForest intOfText objects paths).groups,
        componentId stableHash g = componentId stableHash g' → g = g') :
    MapsComponents intOfText objects paths
      (fun id => (pathComponents intOfText stableHash objects paths).lookup id)
      (pathObjects intOfText stableHash objects paths)
      (pathReport intOfText stableHash objects paths) where
  mapped_eq := rfl
  receives_iff := by
    intro item hitem
    rw [pathComponents, isSome_lookup_componentByObject nodup_pathForest_ids,
      mem_pathForest_ids hids]
    constructor
    · rintro ⟨other, hother, heq, hmatched⟩
      rwa [← eq_of_objectId hids hother hitem heq]
    · exact fun hmatched => ⟨item, hitem, rfl, hmatched⟩
  same_component_iff := by
    intro a _ b _ ha hb
    rw [pathComponents, isSome_lookup_componentByObject nodup_pathForest_ids] at ha hb
    rw [← same_pathForest hids]
    exact same_component closed_pathForest nodup_pathForest_ids hhash ha hb
  objectCount := rfl
  endpointCount := length_endpoints paths
  endpoints_le := bound_add_ambiguous_le (endpoints paths)
  mappedObjectCount := (length_mapped hids).symm
  unavailableObjectCount := by
    have hlength : (objects.filter fun item =>
        ((pathComponents intOfText stableHash objects paths).lookup item.objectId).isSome).length =
        (pathComponents intOfText stableHash objects paths).length := length_mapped hids
    have hsplit := length_eq_length_filter_add (l := objects) fun item =>
      ((pathComponents intOfText stableHash objects paths).lookup item.objectId).isSome
    simp only [Option.not_isSome] at hsplit
    show (objects.length : ℤ) - (pathComponents intOfText stableHash objects paths).length = _
    omega
  componentCount := by
    refine Perm.length_eq ((perm_ext_iff_of_nodup (nodup_dedup _)
      (nodup_dedup _)).2 fun component => ?_)
    rw [mem_dedup, mem_dedup]
    exact mem_component_ids hids
  mappedObjectIds := sortedSet_congr fun _ => (mapped_perm hids).mem_iff.symm

/-! ## The order and the direction of the paths -/

theorem flip_flip (path : GoldenPath) : path.flip.flip = path := rfl

theorem endpoints_flip_perm {path path' : GoldenPath} (h : path' = path ∨ path' = path.flip) :
    (endpoints [path']).Perm (endpoints [path]) := by
  rcases h with rfl | rfl
  · exact Perm.refl _
  · exact Perm.swap _ _ _

/-- What rearranged paths have in common. -/
theorem Rearranged.spec (h : Rearranged paths paths') :
    (endpoints paths').Perm (endpoints paths) ∧
      (∀ path' ∈ paths', ∃ path ∈ paths, path' = path ∨ path' = path.flip) ∧
      ∀ path ∈ paths, ∃ path' ∈ paths', path = path' ∨ path = path'.flip := by
  obtain ⟨turned, hturned, hperm⟩ := h
  have hturn : (endpoints turned).Perm (endpoints paths) ∧
      (∀ path' ∈ turned, ∃ path ∈ paths, path' = path ∨ path' = path.flip) ∧
      ∀ path ∈ paths, ∃ path' ∈ turned, path = path' ∨ path = path'.flip := by
    clear hperm
    induction hturned with
    | nil => exact ⟨Perm.refl _, fun _ h => (nomatch h), fun _ h => (nomatch h)⟩
    | @cons path path' paths turned hpath _ ih =>
      obtain ⟨hend, hto, hfrom⟩ := ih
      refine ⟨(endpoints_flip_perm hpath).append hend, fun p hp => ?_, fun p hp => ?_⟩
      · rcases mem_cons.1 hp with rfl | hp
        · exact ⟨path, mem_cons_self, hpath⟩
        · obtain ⟨q, hq, heq⟩ := hto p hp
          exact ⟨q, mem_cons_of_mem _ hq, heq⟩
      · rcases mem_cons.1 hp with rfl | hp
        · refine ⟨path', mem_cons_self, hpath.imp Eq.symm fun heq => ?_⟩
          rw [heq, flip_flip]
        · obtain ⟨q, hq, heq⟩ := hfrom p hp
          exact ⟨q, mem_cons_of_mem _ hq, heq⟩
  obtain ⟨hend, hto, hfrom⟩ := hturn
  refine ⟨(hperm.symm.flatMap_right _).trans hend, fun p hp => hto p (hperm.mem_iff.2 hp),
    fun p hp => ?_⟩
  obtain ⟨q, hq, heq⟩ := hfrom p hp
  exact ⟨q, hperm.mem_iff.1 hq, heq⟩

/-- The links of one list of paths are links of the other, in some direction. -/
theorem linked_le
    (h : ∀ path' ∈ paths', ∃ path ∈ paths, path' = path ∨ path' = path.flip) {a b : String}
    (hab : Linked intOfText objects paths' a b) : Linked intOfText objects paths a b := by
  have hequiv : IsEquiv String (Linked intOfText objects paths) :=
    Relation.EqvGen.is_equivalence _ |>.isEquiv
  refine @Relation.EqvGen.eqvGen_le _ _ (Linked intOfText objects paths) _ (fun c d hcd => ?_) a b hab
  obtain ⟨path', hpath', x, y, hx, hy, hc, hd⟩ := hcd
  obtain ⟨path, hpath, rfl | rfl⟩ := h path' hpath'
  · exact .rel _ _ ⟨path', hpath, x, y, hx, hy, hc, hd⟩
  · exact .symm _ _ (.rel _ _ ⟨path, hpath, y, x, hy, hx, hd, hc⟩)

/-- **The components depend on the paths only up to order and direction.** -/
theorem pathComponents_rearranged (hids : (objects.map (·.objectId)).Nodup)
    (h : Rearranged paths paths') : pathComponents intOfText stableHash objects paths' =
      pathComponents intOfText stableHash objects paths := by
  obtain ⟨hend, hto, hfrom⟩ := h.spec
  have hforest : (pathForest intOfText objects paths').ids =
      (pathForest intOfText objects paths).ids := by
    rw [pathForest_ids, pathForest_ids]
    exact sortedSet_congr fun id => (hend.filterMap _).mem_iff
  have hsame : ∀ a b, (pathForest intOfText objects paths').Same a b ↔
      (pathForest intOfText objects paths).Same a b := by
    intro a b
    rw [same_pathForest hids, same_pathForest hids]
    exact ⟨linked_le hto, linked_le hfrom⟩
  have halike : (pathForest intOfText objects paths).Alike (pathForest intOfText objects paths') :=
    ⟨hforest, closed_pathForest, hsame⟩
  rw [pathComponents, pathComponents, halike.groups_eq closed_pathForest]

/-- The whole result depends on the paths only up to order and direction. -/
theorem mapConnectivityComponents_rearranged (hids : (objects.map (·.objectId)).Nodup)
    (hescapes : ∀ endpoint ∈ endpoints paths, ¬ EndpointEscapes intOfText endpoint)
    (h : Rearranged paths paths') :
    mapConnectivityComponents intOfText stableHash objects paths' =
      .ok (pathObjects intOfText stableHash objects paths,
        pathReport intOfText stableHash objects paths) := by
  have hend := h.spec.1
  have hcomponents : pathComponents intOfText stableHash objects paths' =
      pathComponents intOfText stableHash objects paths := pathComponents_rearranged hids h
  rw [mapConnectivityComponents_eq fun e he => hescapes e (hend.mem_iff.1 he)]
  congr 2
  · rw [pathObjects, hcomponents, pathObjects]
  · rw [pathReport, pathReport, hcomponents, hend.length_eq, hend.countP_eq, boundIds, boundIds,
      (hend.filterMap _).length_eq]

/-- **The mapping is exact unless an endpoint escapes.**  It gives every object the
component that the paths describe, whatever their order and direction, exactly when no
endpoint raises what the loop does not catch. -/
theorem maps_components_iff (hids : (objects.map (·.objectId)).Nodup)
    (hhash : ∀ g ∈ (pathForest intOfText objects paths).groups,
      ∀ g' ∈ (pathForest intOfText objects paths).groups,
        componentId stableHash g = componentId stableHash g' → g = g') :
    (∃ mapped report component,
      mapConnectivityComponents intOfText stableHash objects paths = .ok (mapped, report) ∧
        MapsComponents intOfText objects paths component mapped report ∧
        ∀ paths', Rearranged paths paths' →
          mapConnectivityComponents intOfText stableHash objects paths' = .ok (mapped, report)) ↔
      ∀ endpoint ∈ endpoints paths, ¬ EndpointEscapes intOfText endpoint := by
  constructor
  · rintro ⟨mapped, report, -, hresult, -⟩ endpoint hendpoint hescapes
    exact mapConnectivityComponents_ne_ok ⟨endpoint, hendpoint, hescapes⟩ hresult
  · intro hescapes
    exact ⟨_, _, _, mapConnectivityComponents_eq hescapes, mapsComponents hids hhash,
      fun paths' h => mapConnectivityComponents_rearranged hids hescapes h⟩

end Result

/-! ## Two paths on a design with two objects -/

/-- A routing object with one vertex list. -/
def routingObject (objectId : String) (geometry : List Point) : LayoutObject where
  objectId := objectId
  kind := .polygon
  layer := "M1"
  bboxDbu := ⟨0, 0, 0, 0, by decide⟩
  routingType := some "routing"
  editability := .A
  geometryDbu := some geometry
  layerNumber := some 1

def twoObjects : List LayoutObject :=
  [routingObject "o1" [⟨0, 0⟩, ⟨4, 0⟩, ⟨4, 2⟩], routingObject "o2" [⟨9, 0⟩, ⟨9, 3⟩, ⟨7, 3⟩]]

def jsonPoint (x y : ℚ) : Json := .array [.number x, .number y]

/-- The endpoint of `o1`, from another vertex and the other way around. -/
def firstEndpoint : Json := .object [("layer", .number 1),
  ("points", .array [jsonPoint 4 2, jsonPoint 4 0, jsonPoint 0 0])]

def secondEndpoint : Json := .object [("layer", .number 1),
  ("points", .array [jsonPoint 9 0, jsonPoint 9 3, jsonPoint 7 3])]

/-- An endpoint with a point of one coordinate. -/
def shortEndpoint : Json := .object [("layer", .number 1), ("points", .array [.array [.number 0]])]

/-- An endpoint that is read does not escape. -/
theorem not_escapes_of_ok {intOfText : String → Option ℤ} {endpoint : Json} {key : EndpointKey}
    (h : endpointKey intOfText endpoint = .ok key) : ¬ EndpointEscapes intOfText endpoint := by
  rw [← uncaught_endpointKey, h]
  exact not_uncaught_ok

theorem maps_components_iff_two : ∃ mapped report component,
    mapConnectivityComponents (fun _ => none) (",".intercalate ·) twoObjects
        [⟨firstEndpoint, secondEndpoint⟩] = .ok (mapped, report) ∧
      MapsComponents (fun _ => none) twoObjects [⟨firstEndpoint, secondEndpoint⟩] component mapped
        report ∧
      ∀ paths', Rearranged [⟨firstEndpoint, secondEndpoint⟩] paths' →
        mapConnectivityComponents (fun _ => none) (",".intercalate ·) twoObjects paths' =
          .ok (mapped, report) := by
  refine (maps_components_iff (by decide +kernel) (by decide +kernel)).2 fun endpoint h => ?_
  rcases mem_pair.1 h with rfl | rfl
  · exact not_escapes_of_ok rfl
  · exact not_escapes_of_ok rfl

/-- `o1` is matched uniquely, and gets no component: the other endpoint of its path has a
point of one coordinate. -/
theorem short_point_escapes :
    (∃ item ∈ twoObjects, UniquelyMatches (fun _ => none) twoObjects firstEndpoint item) ∧
      ∀ result, mapConnectivityComponents (fun _ => none) (",".intercalate ·) twoObjects
        [⟨firstEndpoint, shortEndpoint⟩] ≠ .ok result := by
  constructor
  · have hbound : boundObject (fun _ => none) twoObjects firstEndpoint = some "o1" := by
      decide +kernel
    obtain ⟨item, hitem, -⟩ := (boundObject_iff (by decide +kernel)).1 hbound
    exact ⟨item, hitem.1, hitem⟩
  · intro result
    refine mapConnectivityComponents_ne_ok ⟨shortEndpoint, ?_, ?_⟩
    · exact mem_cons_of_mem _ mem_cons_self
    · refine ⟨.number 1, rfl, .inr ⟨⟨1, rfl⟩, ?_⟩⟩
      exact ⟨_, [], .array [.number 0], [], rfl, rfl, fun _ h => (nomatch h), .inr ⟨0, rfl⟩⟩

end DRCAgent.Connectivity
