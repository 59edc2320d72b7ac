/-
# Which lessons are kept

The lessons of a blueprint are the first eight values of a dictionary that is filled from the
lowest-ranked item up. Filling it so lets the highest-ranked item decide the lesson of a
prototype (`symbolicLessons_best`), but it also puts the prototypes in the order in which they
are met from below, and the first eight of that order are kept.

`build_keeps_best_iff` says when these are the eight prototypes that the ranking puts first.
-/
import DRCAgent.BlueprintBuilder

namespace DRCAgent.Blueprint

open FirstOccurrences List

variable (query : ExperienceQuery)

/-- The prototypes of the lessons of an item that count. -/
def itemPrototypes (item : RetrievedExperience) : List String :=
  (lessonEntries query item).map (·.1)

/-- The prototypes of a ranked list, as they are met. -/
def prototypes (items : List RetrievedExperience) : List String :=
  items.flatMap (itemPrototypes query)

/-- The applicable prototypes of a ranked list, in the order of their first occurrences. -/
def rankedPrototypes (items : List RetrievedExperience) : List String :=
  firsts (prototypes query items)

/-- The lesson is one of the highest-ranked item that has its prototype. -/
def OfHighestRanked (items : List RetrievedExperience) (lesson : SymbolicLesson) : Prop :=
  ∃ higher item lower, items = higher ++ item :: lower ∧
    (lesson.prototypeId, lesson) ∈ lessonEntries query item ∧
    ∀ above ∈ higher, lesson.prototypeId ∉ itemPrototypes query above

/-- **The best-ranked lessons are kept**: one for each of the eight prototypes that come first
in the ranked list, from the highest-ranked item that has it. -/
structure KeepsBest (ranked : List RetrievedExperience) (lessons : List SymbolicLesson) :
    Prop where
  prototypes : (lessons.map SymbolicLesson.prototypeId).Perm
    ((rankedPrototypes query ranked).take 8)
  highest : ∀ lesson ∈ lessons, OfHighestRanked query ranked lesson

/-- From below, the one prototype is met before the other: an item has it, before the other
one if that is in the item at all, and no lower-ranked item has the other one. -/
def MetFromBelow (items : List RetrievedExperience) (prototype other : String) : Prop :=
  ∃ higher item lower, items = higher ++ item :: lower ∧
    (∀ below ∈ lower, other ∉ itemPrototypes query below) ∧
    (itemPrototypes query item).idxOf prototype < (itemPrototypes query item).idxOf other

/-- Each of the first eight prototypes of the ranked list is met from below before every
other prototype, what is appended included. -/
def BestMetFirst (ranked lower : List RetrievedExperience) : Prop :=
  ∀ p ∈ (rankedPrototypes query ranked).take 8,
    ∀ q ∈ prototypes query (ranked ++ lower), q ∉ (rankedPrototypes query ranked).take 8 →
      MetFromBelow query (ranked ++ lower) p q

variable {query}

/-! ## The prototypes that are kept -/

theorem prototypeId_of_mem_lessonEntries {item : RetrievedExperience}
    {entry : String × SymbolicLesson} (h : entry ∈ lessonEntries query item) :
    entry.2.prototypeId = entry.1 := by
  rw [lessonEntries] at h
  split at h
  · obtain ⟨lesson, -, rfl⟩ := mem_map.1 h
    rfl
  · cases h

theorem map_entries (items : List RetrievedExperience) :
    (items.flatMap (lessonEntries query)).map (·.1) = prototypes query items := by
  rw [map_flatMap]
  rfl

theorem mem_prototypes {items : List RetrievedExperience} {p : String} :
    p ∈ prototypes query items ↔ ∃ item ∈ items, p ∈ itemPrototypes query item :=
  mem_flatMap

/-- The prototypes of the lessons are the first eight from below. -/
theorem symbolicLessons_prototypes (items : List RetrievedExperience) :
    (symbolicLessons query items).map SymbolicLesson.prototypeId =
      (firsts (prototypes query items.reverse)).take 8 := by
  have hkeys : ((Dicts.ofList (items.reverse.flatMap (lessonEntries query))).map (·.2)).map
      SymbolicLesson.prototypeId =
        (Dicts.ofList (items.reverse.flatMap (lessonEntries query))).map (·.1) := by
    rw [map_map]
    refine map_congr_left fun entry hentry => ?_
    obtain ⟨item, -, hitem⟩ := mem_flatMap.1 (Dicts.mem_ofList hentry)
    exact prototypeId_of_mem_lessonEntries hitem
  rw [symbolicLessons, map_take, hkeys, keys_ofList, map_entries]

/-- A list split under a map is split itself. -/
theorem split_of_map {α β : Type} {f : α → β} {l : List α} {before after : List β} {b : β}
    (h : l.map f = before ++ b :: after) :
    ∃ higher a lower, l = higher ++ a :: lower ∧ higher.map f = before ∧ f a = b ∧
      lower.map f = after := by
  obtain ⟨higher, rest, rfl, hhigher, hrest⟩ := map_eq_append_iff.1 h
  obtain ⟨a, lower, rfl, ha, hlower⟩ := map_eq_cons_iff.1 hrest
  exact ⟨higher, a, lower, rfl, hhigher, ha, hlower⟩

/-- **Every lesson that is kept** is one of the highest-ranked item with its prototype. -/
theorem symbolicLessons_best {items : List RetrievedExperience} {lesson : SymbolicLesson}
    (h : lesson ∈ symbolicLessons query items) : OfHighestRanked query items lesson := by
  obtain ⟨entry, hentry, rfl⟩ := mem_map.1 (mem_of_mem_take h)
  obtain ⟨item, -, hitem⟩ := mem_flatMap.1 (Dicts.mem_ofList hentry)
  have hprototype := prototypeId_of_mem_lessonEntries hitem
  have hlookup := Dicts.lookup_of_mem (Dicts.nodup_keys_ofList _) hentry
  -- what is assigned last comes from the highest-ranked item
  rw [Dicts.lookup_ofList, reverse_flatMap, reverse_reverse, flatMap_def] at hlookup
  obtain ⟨before, group, after, hsplit, hmem, hbefore⟩ := lookup_flatten hlookup
  obtain ⟨higher, item, lower, rfl, hhigher, rfl, -⟩ := split_of_map hsplit
  refine ⟨higher, item, lower, rfl, ?_, fun above habove hbelow => ?_⟩
  · rw [hprototype]
    exact mem_reverse.1 hmem
  · refine hbefore _ (hhigher ▸ mem_map_of_mem habove) ?_
    rw [← hprototype]
    exact mem_map.2 (by simpa [itemPrototypes] using hbelow)

theorem metFromBelow_iff {items : List RetrievedExperience} {p q : String} :
    (prototypes query items.reverse).idxOf p < (prototypes query items.reverse).idxOf q ↔
      MetFromBelow query items p q := by
  rw [prototypes, flatMap_def, idxOf_flatten_lt_iff]
  constructor
  · rintro ⟨before, group, after, heq, hbefore, hlt⟩
    obtain ⟨lower, item, higher, hitems, rfl, rfl, -⟩ := split_of_map heq
    refine ⟨higher.reverse, item, lower.reverse, ?_, fun below hbelow => ?_, hlt⟩
    · rw [reverse_eq_iff.1 hitems]
      simp
    · exact hbefore _ (mem_map_of_mem (mem_reverse.1 hbelow))
  · rintro ⟨higher, item, lower, rfl, hlower, hlt⟩
    refine ⟨lower.reverse.map (itemPrototypes query), itemPrototypes query item,
      higher.reverse.map (itemPrototypes query), by simp, ?_, hlt⟩
    intro group hgroup
    obtain ⟨below, hbelow, rfl⟩ := mem_map.1 hgroup
    exact hlower below (mem_reverse.1 hbelow)

/-- The highest-ranked item of a prototype is not one of those that were appended. -/
theorem OfHighestRanked.of_append {ranked lower : List RetrievedExperience}
    {lesson : SymbolicLesson} (h : OfHighestRanked query (ranked ++ lower) lesson)
    (hranked : lesson.prototypeId ∈ prototypes query ranked) :
    OfHighestRanked query ranked lesson := by
  obtain ⟨higher, item, rest, heq, hmem, hhigher⟩ := h
  rcases append_eq_append_iff.1 heq with ⟨extra, rfl, -⟩ | ⟨extra, rfl, hextra⟩
  · -- the item would come after all of the ranked ones
    obtain ⟨above, habove, hprototype⟩ := mem_prototypes.1 hranked
    exact absurd hprototype (hhigher above (mem_append_left _ habove))
  · cases extra with
    | nil =>
      rw [append_nil] at hranked
      obtain ⟨above, habove, hprototype⟩ := mem_prototypes.1 hranked
      exact absurd hprototype (hhigher above habove)
    | cons first extra =>
      obtain ⟨rfl, -⟩ := cons.inj hextra
      exact ⟨higher, item, extra, rfl, hmem, hhigher⟩

/-- **When the best are kept**, whatever is appended below the ranked items. -/
theorem symbolicLessons_keepsBest_iff {ranked lower : List RetrievedExperience}
    (hmany : 8 < (rankedPrototypes query ranked).length) :
    KeepsBest query ranked (symbolicLessons query (ranked ++ lower)) ↔
      BestMetFirst query ranked lower := by
  have hreverse : ∀ p, p ∈ prototypes query (ranked ++ lower).reverse ↔
      p ∈ prototypes query (ranked ++ lower) := by
    intro p
    simp only [mem_prototypes, mem_reverse]
  have hsub : (rankedPrototypes query ranked).take 8 ⊆
      prototypes query (ranked ++ lower).reverse := by
    intro p hp
    obtain ⟨item, hitem, hprototype⟩ :=
      mem_prototypes.1 (mem_firsts.1 (mem_of_mem_take hp))
    exact (hreverse p).2 (mem_prototypes.2 ⟨item, mem_append_left _ hitem, hprototype⟩)
  -- what is kept are the prototypes that the reversed list meets first
  have hfirst : ((symbolicLessons query (ranked ++ lower)).map SymbolicLesson.prototypeId).Perm
      ((rankedPrototypes query ranked).take 8) ↔ BestMetFirst query ranked lower := by
    have hnodup : ((rankedPrototypes query ranked).take 8).Nodup :=
      (nodup_firsts _).sublist (take_sublist _ _)
    have hlength : ((rankedPrototypes query ranked).take 8).length = 8 := by
      rw [length_take]
      omega
    rw [symbolicLessons_prototypes, take_firsts_perm_iff hnodup hlength hsub]
    simp only [hreverse, metFromBelow_iff, BestMetFirst]
  rw [← hfirst]
  constructor
  · exact fun h => h.prototypes
  · intro h
    refine ⟨h, fun lesson hlesson => (symbolicLessons_best hlesson).of_append ?_⟩
    have hmem := h.mem_iff.1 (mem_map_of_mem hlesson)
    exact mem_firsts.1 (mem_of_mem_take hmem)

/-- A lower-ranked item with a prototype of its own takes the place of one of the best, unless
it has all of them too. -/
theorem not_keepsBest_of_lower {ranked : List RetrievedExperience} {item : RetrievedExperience}
    {p q : String} (hmany : 8 < (rankedPrototypes query ranked).length)
    (hp : p ∈ (rankedPrototypes query ranked).take 8) (hlower : p ∉ itemPrototypes query item)
    (hq : q ∈ itemPrototypes query item) (hother : q ∉ (rankedPrototypes query ranked).take 8) :
    ¬ KeepsBest query ranked (symbolicLessons query (ranked ++ [item])) := by
  rw [symbolicLessons_keepsBest_iff hmany]
  intro h
  have hmem : q ∈ prototypes query (ranked ++ [item]) :=
    mem_prototypes.2 ⟨item, mem_append_right _ (mem_singleton_self _), hq⟩
  have hmet := metFromBelow_iff.2 (h p hp q hmem hother)
  rw [reverse_append, reverse_singleton, singleton_append, prototypes,
    flatMap_cons, idxOf_append_of_mem hq, idxOf_append_of_notMem hlower] at hmet
  have hlt := idxOf_lt_length_of_mem hq
  omega

/-! ## The blueprint returns -/

section Returns

variable {evidence : EvidencePack} {ids : List String} {items : List RetrievedExperience}
  {action : String} {hash : ExperienceQuery → EvidencePack → String}

/-- A citation is well formed where it names some of the items. -/
def Cites (items : List RetrievedExperience) (ids : List String) : Prop :=
  ids ≠ [] ∧ ids ⊆ experienceIds items

theorem cites_take {chosen : List RetrievedExperience} (hchosen : chosen ≠ [])
    (hsub : chosen ⊆ items) (n : ℕ) : Cites items (experienceIds (chosen.take (n + 1))) := by
  obtain ⟨first, rest, rfl⟩ := exists_cons_of_ne_nil hchosen
  refine ⟨by simp [experienceIds], map_subset _ ?_⟩
  exact Subset.trans (take_subset _ _) hsub

theorem cites_firsts {chosen : List RetrievedExperience} (hchosen : chosen ≠ [])
    (hsub : chosen ⊆ items) (n : ℕ) :
    Cites items ((firsts (experienceIds chosen)).take (n + 1)) := by
  constructor
  · obtain ⟨first, rest, rfl⟩ := exists_cons_of_ne_nil hchosen
    have hmem : first.experienceId ∈ firsts (experienceIds (first :: rest)) :=
      mem_firsts.2 mem_cons_self
    obtain ⟨id, ids, hids⟩ := exists_cons_of_ne_nil (ne_nil_of_mem hmem)
    rw [hids]
    exact cons_ne_nil _ _
  · intro id hid
    exact map_subset _ hsub (mem_firsts.1 (mem_of_mem_take hid))

theorem distinctPredicates_ne_nil {predicates : List Predicate} (h : predicates ≠ []) :
    distinctPredicates predicates ≠ [] := by
  obtain ⟨first, rest, rfl⟩ := exists_cons_of_ne_nil h
  have hkey : first.predicateId ∈ (Dicts.ofList ((first :: rest).map fun predicate =>
      (predicate.predicateId, predicate))).map (·.1) :=
    Dicts.mem_keys_ofList.2 (mem_map_of_mem (mem_map_of_mem mem_cons_self))
  intro hnil
  rw [distinctPredicates, map_eq_nil_iff] at hnil
  rw [hnil] at hkey
  cases hkey

/-- The turn of an action returns: its support says when it applies. -/
theorem blueprintAction_returns (action : String) {support : List RetrievedExperience}
    (hsub : support ⊆ items) : ∃ out, blueprintAction action support = .ok out ∧
      ∀ entry ∈ out, entry.2.actionFamily = action ∧ Cites items entry.2.evidenceIds := by
  have hstatus : ∀ status, supportWith status support ⊆ items ∧
      ∀ item ∈ supportWith status support, item.applicability ≠ [] := by
    intro status
    refine ⟨Subset.trans (filter_subset_self _) hsub, fun item hitem => ?_⟩
    have hboth := (mem_filter.1 hitem).2
    rw [Bool.and_eq_true, decide_eq_true_eq, decide_eq_true_eq] at hboth
    exact hboth.2
  rw [blueprintAction]
  dsimp only
  -- the items that apply, or else those that apply on a condition
  set chosen := if supportWith .applicable support ≠ [] then supportWith .applicable support
    else supportWith .conditional support with hdef
  have hchosen : chosen ⊆ items ∧ ∀ item ∈ chosen, item.applicability ≠ [] := by
    rw [hdef]
    split
    · exact hstatus .applicable
    · exact hstatus .conditional
  clear_value chosen
  cases chosen with
  | nil => exact ⟨none, rfl, fun _ h => by cases h⟩
  | cons first rest =>
    have happlies : (first :: rest).flatMap RetrievedExperience.applicability ≠ [] := by
      rw [flatMap_cons]
      exact append_ne_nil_of_left_ne_nil (hchosen.2 first mem_cons_self) _
    dsimp only
    rw [dif_neg (distinctPredicates_ne_nil happlies)]
    refine ⟨_, rfl, fun entry hentry => ?_⟩
    obtain rfl := Option.some.inj hentry
    exact ⟨rfl, cites_firsts (cons_ne_nil _ _) hchosen.1 3⟩

/-- What is collected for an action are items that support it, and the action is allowed. -/
theorem mem_actionEvidence {support : List RetrievedExperience}
    {entry : String × List RetrievedExperience} (h : entry ∈ actionEvidence query support) :
    entry.1 ∈ query.allowedActionFamilies ∧ entry.2 ⊆ support := by
  rw [actionEvidence, Dicts.mem_sortedItems] at h
  have hpairs : ∀ pair ∈ support.flatMap (fun item =>
      (item.actionFamilies.filter fun action => action ∈ query.allowedActionFamilies).map
        fun action => (action, item)),
      pair.1 ∈ query.allowedActionFamilies ∧ pair.2 ∈ support := by
    intro pair hpair
    obtain ⟨item, hitem, hpair⟩ := mem_flatMap.1 hpair
    obtain ⟨action, haction, rfl⟩ := mem_map.1 hpair
    exact ⟨of_decide_eq_true (mem_filter.1 haction).2, hitem⟩
  have hvalues := Dicts.values_of_mem_collect h
  constructor
  · obtain ⟨item, hitem⟩ := exists_mem_of_ne_nil _ (Dicts.ne_nil_of_mem_collect h)
    rw [hvalues] at hitem
    obtain ⟨pair, hpair, -⟩ := mem_map.1 hitem
    obtain ⟨hmem, hkey⟩ := mem_filter.1 hpair
    rw [← of_decide_eq_true hkey]
    exact (hpairs pair hmem).1
  · intro item hitem
    rw [hvalues] at hitem
    obtain ⟨pair, hpair, rfl⟩ := mem_map.1 hitem
    exact (hpairs pair (mem_filter.1 hpair).1).2

theorem cites_rootCauses {priors successes : List RetrievedExperience} (hpriors : priors ⊆ items)
    (hsuccesses : successes ⊆ items) {claim : BlueprintClaim}
    (h : claim ∈ rootCauses priors successes) : Cites items claim.evidenceIds := by
  rw [rootCauses, mem_append] at h
  rcases h with h | h
  · split at h
    · rename_i hne
      rw [mem_singleton.1 h]
      exact cites_take hne hpriors 3
    · cases h
  · split at h
    · rename_i hne
      rw [mem_singleton.1 h]
      exact cites_take hne hsuccesses 2
    · cases h

theorem cites_warnings {failures priors : List RetrievedExperience} (hfailures : failures ⊆ items)
    (hpriors : priors ⊆ items) {warning : BlueprintWarning}
    (h : warning ∈ warnings failures priors) : Cites items warning.evidenceIds := by
  rw [warnings, mem_append] at h
  rcases h with h | h
  · split at h
    · rename_i hne
      rw [mem_singleton.1 h]
      dsimp only
      split
      · rename_i hdirect
        exact cites_take hdirect (Subset.trans (filter_subset_self _) hfailures) 3
      · exact cites_take hne hfailures 3
    · cases h
  · split at h
    · rename_i hne
      rw [mem_singleton.1 h]
      exact cites_take hne (Subset.trans (filter_subset_self _) hpriors) 3
    · cases h

/-- Every citation of a blueprint is one of some items, or one of the query's. -/
theorem cites_of_mem_citations {actions : List (Bool × BlueprintAction)}
    (hactions : ∀ entry ∈ actions, Cites evidence.items entry.2.evidenceIds)
    (h : ids ∈ (blueprintOf hash query evidence actions).citations) :
    Cites evidence.items ids ∨
      ids ∈ query.currentCoordinationRequirements.map CoordinationRequirement.evidenceIds := by
  have hfilter : ∀ p : RetrievedExperience → Bool, evidence.items.filter p ⊆ evidence.items :=
    fun p => filter_subset_self _
  have hkept : ∀ p : Bool × BlueprintAction → Bool,
      ids ∈ (((actions.filter p).map (·.2)).take 3).map BlueprintAction.evidenceIds →
        Cites evidence.items ids := by
    intro p hids
    obtain ⟨action, haction, rfl⟩ := mem_map.1 hids
    obtain ⟨entry, hentry, rfl⟩ := mem_map.1 (mem_of_mem_take haction)
    exact hactions entry (mem_of_mem_filter hentry)
  simp only [RepairBlueprint.citations, mem_append, blueprintOf] at h
  rcases h with (((hroot | hpreferred) | hconditional) | hwarning) | hcoordination
  · obtain ⟨claim, hclaim, rfl⟩ := mem_map.1 hroot
    exact Or.inl (cites_rootCauses (hfilter _) (hfilter _) hclaim)
  · exact Or.inl (hkept _ hpreferred)
  · exact Or.inl (hkept _ hconditional)
  · obtain ⟨warning, hmem, rfl⟩ := mem_map.1 hwarning
    exact Or.inl (cites_warnings (hfilter _) (hfilter _) hmem)
  · exact Or.inr hcoordination

/-- The validation passes where the citations are known and the actions are allowed. -/
theorem validateCitations_of {actions : List (Bool × BlueprintAction)}
    (hcitations : ∀ ids ∈ (blueprintOf hash query evidence actions).citations,
      ids ≠ [] ∧ ids ⊆ evidence.evidenceIds)
    (hactions : ∀ entry ∈ actions, entry.2.actionFamily ∈ query.allowedActionFamilies) :
    (blueprintOf hash query evidence actions).validateCitations evidence.evidenceIds
      query.allowedActionFamilies = .ok ⟨⟩ := by
  have hcited : [] ∉ (blueprintOf hash query evidence actions).citations :=
    fun hmem => (hcitations [] hmem).1 rfl
  have hknown : ((blueprintOf hash query evidence actions).citations.flatten.filter
      fun id => id ∉ evidence.evidenceIds) = [] := by
    refine filter_eq_nil_iff.2 fun id hid => ?_
    obtain ⟨ids, hids, hmem⟩ := mem_flatten.1 hid
    simpa using (hcitations ids hids).2 hmem
  have hallowed : (((blueprintOf hash query evidence actions).preferredActions ++
      (blueprintOf hash query evidence actions).conditionalActions).map
        BlueprintAction.actionFamily).filter
          (fun family => family ∉ query.allowedActionFamilies) = [] := by
    refine filter_eq_nil_iff.2 fun family hfamily => ?_
    obtain ⟨action, haction, rfl⟩ := mem_map.1 hfamily
    obtain ⟨entry, hentry, rfl⟩ : ∃ entry ∈ actions, entry.2 = action := by
      rcases mem_append.1 haction with hkept | hkept
      all_goals
        obtain ⟨entry, hentry, heq⟩ := mem_map.1 (mem_of_mem_take hkept)
        exact ⟨entry, mem_of_mem_filter hentry, heq⟩
    simpa using hactions entry hentry
  rw [RepairBlueprint.validateCitations, if_neg hcited, hknown, hallowed]
  rfl

variable (query evidence hash) in
/-- **The blueprint is built**: what `build` writes is validated, where the items are known
evidence and the requirements of the query cite some of it. -/
theorem build_returns (hitems : experienceIds evidence.items ⊆ evidence.evidenceIds)
    (hcoordination : ∀ requirement ∈ query.currentCoordinationRequirements,
      requirement.evidenceIds ≠ [] ∧ requirement.evidenceIds ⊆ evidence.evidenceIds) :
    ∃ blueprint, build hash query evidence = .ok blueprint := by
  rw [build]
  split
  · exact ⟨_, rfl⟩
  · dsimp only
    have hsupport : evidence.items.filter RetrievedExperience.succeeded ++
        (evidence.items.filter fun item => item.kind = .prior) ⊆ evidence.items :=
      append_subset.2
        ⟨filter_subset_self _, filter_subset_self _⟩
    have hturn : ∀ entry ∈ actionEvidence query (evidence.items.filter
        RetrievedExperience.succeeded ++ evidence.items.filter fun item => item.kind = .prior),
        ∃ out, blueprintAction entry.1 entry.2 = .ok out ∧ ∀ action ∈ out,
          action.2.actionFamily = entry.1 ∧ Cites evidence.items action.2.evidenceIds :=
      fun entry hentry => blueprintAction_returns entry.1
        (Subset.trans (mem_actionEvidence hentry).2 hsupport)
    obtain ⟨actions, hactions⟩ := Failures.never_anything.1
      (Failures.never_anything_mapM.2 fun entry hentry => by
        obtain ⟨out, hout, -⟩ := hturn entry hentry
        exact Failures.never_anything.2 ⟨out, hout⟩)
    rw [hactions]
    -- each action is allowed and cites items
    have haction : ∀ action ∈ actions.filterMap id,
        action.2.actionFamily ∈ query.allowedActionFamilies ∧
          Cites evidence.items action.2.evidenceIds := by
      intro action hmem
      obtain ⟨out, hout, heq⟩ := mem_filterMap.1 hmem
      obtain ⟨entry, hentry, hvalue⟩ := (Failures.mem_mapM hactions out).1 hout
      obtain ⟨out', hout', hspec⟩ := hturn entry hentry
      obtain rfl := Except.ok.inj (hvalue.symm.trans hout')
      obtain ⟨hfamily, hcites⟩ := hspec action heq
      exact ⟨hfamily ▸ (mem_actionEvidence hentry).1, hcites⟩
    have hcitations : ∀ ids ∈ (blueprintOf hash query evidence (actions.filterMap id)).citations,
        ids ≠ [] ∧ ids ⊆ evidence.evidenceIds := by
      intro ids hids
      rcases cites_of_mem_citations (fun action hmem => (haction action hmem).2) hids with
        hcites | hrequired
      · exact ⟨hcites.1, Subset.trans hcites.2 hitems⟩
      · obtain ⟨requirement, hrequirement, rfl⟩ := mem_map.1 hrequired
        exact hcoordination requirement hrequirement
    refine ⟨_, Failures.bind_eq_ok.2 ⟨_, rfl, Failures.bind_eq_ok.2 ⟨⟨⟩, ?_, rfl⟩⟩⟩
    exact validateCitations_of hcitations fun action hmem => (haction action hmem).1

/-- The lessons of a blueprint are those of its items. -/
theorem symbolicLessons_of_build {blueprint : RepairBlueprint}
    (h : build hash query evidence = .ok blueprint) (hitems : evidence.items ≠ []) :
    blueprint.symbolicLessons = symbolicLessons query evidence.items := by
  rw [build, if_neg (fun hempty => hitems hempty.1)] at h
  obtain ⟨actions, -, h⟩ := Failures.bind_eq_ok.1 h
  obtain ⟨_, -, h⟩ := Failures.bind_eq_ok.1 h
  rw [← Except.ok.inj h]
  rfl

end Returns

/-- **Which lessons a blueprint keeps.**  Where a ranked list has more than eight applicable
prototypes, whatever is appended below it, the blueprint has the best eight exactly when each
of them is met from below before every other one. -/
theorem build_keeps_best_iff (hash : ExperienceQuery → EvidencePack → String)
    (query : ExperienceQuery) (evidence : EvidencePack) (ranked lower : List RetrievedExperience)
    (blueprint : RepairBlueprint) (h : build hash query evidence = .ok blueprint)
    (hitems : evidence.items = ranked ++ lower)
    (hmany : 8 < (rankedPrototypes query ranked).length) :
    KeepsBest query ranked blueprint.symbolicLessons ↔ BestMetFirst query ranked lower := by
  have hne : evidence.items ≠ [] := by
    rw [hitems]
    rintro hnil
    rw [(append_eq_nil_iff.1 hnil).1] at hmany
    cases hmany
  rw [symbolicLessons_of_build h hne, hitems]
  exact symbolicLessons_keepsBest_iff hmany

/-! ## Nine prototypes -/

def sampleQuery : ExperienceQuery where
  subgraphId := "s"
  knowledgeCutoff := none
  planningScopeId := none
  planningScopeType := .flatSubgraph
  viewIds := []
  ruleHistogram := [("M1.W.1", 2)]
  allowedActionFamilies := []
  currentCoordinationRequirements := []

/-- A prior with a lesson for each prototype. -/
def sampleItem (experienceId : String) (prototypeIds : List String) : RetrievedExperience where
  experienceId
  symbolicLessons := prototypeIds.map fun prototype =>
    ⟨experienceId ++ prototype, prototype, ["M1.W.1"]⟩
  kind := .prior
  outcome := none
  actionFamilies := []
  transferRisks := []
  applicabilityStatus := .applicable
  applicability := []
  avoidConditions := []
  expectedSecondaryRisks := []
  attributionQuality := none

def samplePack (items : List RetrievedExperience) : EvidencePack where
  queryHash := "q"
  items
  evidenceIds := experienceIds items

def ninePrototypes : List String := ["a", "b", "c", "d", "e", "f", "g", "h", "i"]

/-- Nine prototypes of one item keep the order of the item. -/
theorem build_keeps_best_oneItem : ∃ blueprint,
    build (fun _ _ => "0") sampleQuery (samplePack [sampleItem "x" ninePrototypes]) =
        .ok blueprint ∧
      KeepsBest sampleQuery [sampleItem "x" ninePrototypes] blueprint.symbolicLessons := by
  obtain ⟨blueprint, h⟩ := build_returns sampleQuery (samplePack [sampleItem "x" ninePrototypes])
    (fun _ _ => "0") (Subset.refl _) (fun _ hmem => by cases hmem)
  refine ⟨blueprint, h, (build_keeps_best_iff _ _ _ _ [] _ h rfl (by decide +kernel)).2 ?_⟩
  have hmet : ∀ p ∈ (rankedPrototypes sampleQuery [sampleItem "x" ninePrototypes]).take 8,
      ∀ q ∈ prototypes sampleQuery [sampleItem "x" ninePrototypes],
        q ∉ (rankedPrototypes sampleQuery [sampleItem "x" ninePrototypes]).take 8 →
          (itemPrototypes sampleQuery (sampleItem "x" ninePrototypes)).idxOf p <
            (itemPrototypes sampleQuery (sampleItem "x" ninePrototypes)).idxOf q := by
    decide +kernel
  intro p hp q hq hother
  refine ⟨[], sampleItem "x" ninePrototypes, [], rfl, ?_, hmet p hp q hq hother⟩
  intro below hbelow
  cases hbelow

/-- Nine prototypes of nine items lose the first one, and keep the last. -/
theorem build_drops_best : ∃ blueprint,
    build (fun _ _ => "0") sampleQuery
        (samplePack (ninePrototypes.map fun prototype => sampleItem prototype [prototype])) =
          .ok blueprint ∧
      blueprint.symbolicLessons.map SymbolicLesson.prototypeId =
        ["i", "h", "g", "f", "e", "d", "c", "b"] ∧
      ¬ KeepsBest sampleQuery
        (ninePrototypes.map fun prototype => sampleItem prototype [prototype])
        blueprint.symbolicLessons := by
  obtain ⟨blueprint, h⟩ := build_returns sampleQuery
    (samplePack (ninePrototypes.map fun prototype => sampleItem prototype [prototype]))
    (fun _ _ => "0") (Subset.refl _) (fun _ hmem => by cases hmem)
  have hlessons : blueprint.symbolicLessons.map SymbolicLesson.prototypeId =
      ["i", "h", "g", "f", "e", "d", "c", "b"] := by
    rw [symbolicLessons_of_build h (by decide +kernel)]
    decide +kernel
  refine ⟨blueprint, h, hlessons, fun hkeeps => ?_⟩
  have hperm := hkeeps.prototypes
  rw [hlessons] at hperm
  exact absurd (hperm.mem_iff.2 (by decide +kernel : "a" ∈ _)) (by decide +kernel)

end DRCAgent.Blueprint
