/-
# When the active window is closed under hard dependencies

The window grows in two phases. The first closes the seed under the hard
relation. The second admits soft neighbours one at a time and never closes
again, so an admitted neighbour can bring a hard dependency that stays outside.

Main result:

* `window_hardClosed_iff`: the window is closed if no path of soft dependencies that leads
  away from the seed's hard closure, and fits the budgets with it, ends in a subgraph that
  has hard dependencies. It is closed under every choice of the budgets exactly when no
  such path at all does.
-/
import DRCAgent.ActiveWindow

namespace DRCAgent

open List Option

/-! ## The dependency relation -/

theorem mem_partners {pairs : List (String × String)} {x y : String} :
    y ∈ partners pairs x ↔ (x, y) ∈ pairs ∨ (y, x) ∈ pairs := by
  rw [partners, mem_sortedSet, mem_flatMap]
  constructor
  · rintro ⟨⟨a, b⟩, hpair, hmem⟩
    rcases mem_append.1 hmem with hleft | hright
    · split_ifs at hleft with hx
      · obtain rfl : a = x := hx
        obtain rfl : y = b := mem_singleton.1 hleft
        exact .inl hpair
      · exact absurd hleft not_mem_nil
    · split_ifs at hright with hx
      · obtain rfl : b = x := hx
        obtain rfl : y = a := mem_singleton.1 hright
        exact .inr hpair
      · exact absurd hright not_mem_nil
  · rintro (hpair | hpair)
    · exact ⟨(x, y), hpair, mem_append_left _ (by simp)⟩
    · exact ⟨(y, x), hpair, mem_append_right _ (by simp)⟩

theorem byId_isSome_iff {subgraphs : List AgentSubgraph} {id : String} :
    (byId subgraphs id).isSome ↔ id ∈ subgraphs.map (·.subgraphId) := by
  simp [byId, find?_isSome]

theorem subgraphId_of_byId {subgraphs : List AgentSubgraph} {id : String} {s : AgentSubgraph}
    (h : byId subgraphs id = some s) : s ∈ subgraphs ∧ s.subgraphId = id := by
  refine ⟨?_, ?_⟩
  · exact mem_reverse.1 (mem_of_find?_eq_some h)
  · simpa using find?_some h

namespace WindowRequest

variable {req : WindowRequest}

/-- Two subgraphs that depend on each other are not the same. -/
theorem ne_of_mem_dependencyPair {left right : Option String} {pair : String × String}
    (h : dependencyPair left right = some pair) : pair.1 ≠ pair.2 := by
  unfold dependencyPair at h
  split at h
  · split_ifs at h with hne
    obtain rfl := some.inj h
    exact hne
  · cases h

/-- No subgraph depends on itself. -/
theorem ne_of_mem_hard {x y : String} (h : y ∈ req.hard x) : y ≠ x := by
  have hpairs : ∀ pair ∈ dependencyPairs req.graph req.subgraphs true, pair.1 ≠ pair.2 := by
    intro pair hpair
    rw [dependencyPairs, if_pos rfl, mem_append, mem_append] at hpair
    rcases hpair with (hedge | hboundary) | hsolver
    · obtain ⟨edge, -, hedge⟩ := mem_filterMap.1 hedge
      exact ne_of_mem_dependencyPair hedge
    · obtain ⟨⟨dependency, other⟩, hkept, rfl⟩ := mem_map.1 hboundary
      have hboundary := mem_of_mem_filter hkept
      obtain ⟨_, -, hsome⟩ := mem_filterMap.1 hboundary
      obtain ⟨_, hother, hpair⟩ := map_eq_some_iff.1 hsome
      obtain ⟨-, rfl⟩ := Prod.mk.inj hpair
      exact ne_of_mem_dependencyPair hother
    · obtain ⟨left, -, hleft⟩ := mem_flatMap.1 hsolver
      obtain ⟨right, -, hright⟩ := mem_filterMap.1 hleft
      split_ifs at hright with hless
      obtain rfl := some.inj hright
      exact hless.1.ne
  rw [hard, hardNeighbours, mem_partners] at h
  rcases h with h | h
  · exact (hpairs _ h).symm
  · exact hpairs _ h

/-- The hard relation is symmetric. -/
theorem hard_symm {x y : String} (h : y ∈ req.hard x) : x ∈ req.hard y := by
  rw [hard, hardNeighbours, mem_partners] at h ⊢
  exact h.symm

/-- The ids of the supplied subgraphs. -/
def supplied (req : WindowRequest) : Finset String :=
  (req.subgraphs.map (·.subgraphId)).toFinset

theorem mem_supplied {id : String} :
    id ∈ req.supplied ↔ id ∈ req.subgraphs.map (·.subgraphId) :=
  mem_toFinset

theorem mem_hardSupplied {x y : String} :
    y ∈ req.hardSupplied x ↔ y ∈ req.hard x ∧ y ∈ req.supplied := by
  rw [hardSupplied, mem_filter, byId_isSome_iff, mem_supplied]

theorem card_supplied_le : req.supplied.card ≤ req.subgraphs.length := by
  have h := toFinset_card_le (req.subgraphs.map (·.subgraphId))
  rwa [length_map] at h

/-- `ids` is closed under the hard relation on the supplied subgraphs. -/
def HardClosed (req : WindowRequest) (ids : List String) : Prop :=
  ∀ x ∈ ids, ∀ y ∈ req.hard x, y ∈ req.supplied → y ∈ ids

instance (req : WindowRequest) (ids : List String) : Decidable (req.HardClosed ids) :=
  inferInstanceAs (Decidable (∀ x ∈ ids, ∀ y ∈ req.hard x, y ∈ req.supplied → y ∈ ids))

/-! ## The first phase -/

/-- The seed is a supplied subgraph. -/
theorem seed_mem {seed : AgentSubgraph} (h : req.seed = some seed) :
    seed.subgraphId ∈ req.supplied := by
  have hmem : seed ∈ req.eligible := argmin_mem h
  exact mem_supplied.2 (mem_map_of_mem (mem_of_mem_filter hmem))

section Seed

variable {seedId : String} (hseed : seedId ∈ req.supplied)
include hseed

theorem hardClosure_subset : ∀ x ∈ req.hardClosure seedId, x ∈ req.supplied := by
  apply Worklist.mem_of_mem_closure
  · intro x y hy
    exact (mem_hardSupplied.1 hy).2
  · intro x hx
    rwa [mem_singleton.1 hx]

/-- The first phase ends closed. -/
theorem hardClosed_hardClosure : req.HardClosed (req.hardClosure seedId) := by
  intro x hx y hy hsupplied
  refine Worklist.closed_closure req.supplied ?_ (nodup_singleton seedId) ?_
    card_supplied_le x hx y (mem_hardSupplied.2 ⟨hy, hsupplied⟩)
  · intro x y hy
    exact (mem_hardSupplied.1 hy).2
  · intro x hx
    rwa [mem_singleton.1 hx]

end Seed

theorem nodup_hardClosure (req : WindowRequest) (seedId : String) :
    (req.hardClosure seedId).Nodup :=
  Worklist.nodup_run _ (nodup_singleton seedId)

/-! ## The budgets -/

/-- The parameters that only the budget tests read. -/
structure WindowBudgets where
  maxParallelSubgraphs : ℤ
  maxActiveRegions : ℤ
  topKCandidatesIncludingNoop : ℤ
  maxNonNoopActionsPerBatch : ℤ

/-- The same request under other budgets. -/
def withBudgets (req : WindowRequest) (budgets : WindowBudgets) : WindowRequest :=
  { req with
    maxParallelSubgraphs := budgets.maxParallelSubgraphs
    maxActiveRegions := budgets.maxActiveRegions
    topKCandidatesIncludingNoop := budgets.topKCandidatesIncludingNoop
    maxNonNoopActionsPerBatch := budgets.maxNonNoopActionsPerBatch }

/-- More subgraphs have more regions. -/
theorem regionCount_mono {ids ids' : List String} (h : ids ⊆ ids') :
    req.regionCount ids ≤ req.regionCount ids' := by
  rw [regionCount, regionCount, ← List.card_toFinset, ← List.card_toFinset]
  refine Finset.card_le_card fun regionId hregion => ?_
  rw [List.mem_toFinset, mem_flatMap] at hregion ⊢
  obtain ⟨id, hid, hregion⟩ := hregion
  exact ⟨id, h hid, hregion⟩

/-- Fewer subgraphs fit the budgets too. -/
theorem fitsBudget_of_subset {ids ids' : List String} (hnodup : ids.Nodup) (h : ids ⊆ ids')
    (hfits : req.fitsBudget ids' = true) : req.fitsBudget ids = true := by
  obtain ⟨hparallel, hregions, hactions⟩ := of_decide_eq_true hfits
  have hlength : ids.length ≤ ids'.length := (subperm_of_subset hnodup h).length_le
  have hcount : (req.regionCount ids : ℤ) ≤ req.regionCount ids' :=
    Int.ofNat_le.2 (regionCount_mono h)
  have hestimate : req.estimate ids ≤ req.estimate ids' :=
    Int.mul_le_mul_of_nonneg_right hcount (le_max_right _ _)
  exact decide_eq_true ⟨by omega, by omega, hestimate.trans hactions⟩

/-- A path of soft dependencies that leads away from `start`, with its end. -/
inductive SoftPath (req : WindowRequest) (start : List String) : List String → String → Prop
  | first {z x : String} (hz : z ∈ start) (hsoft : x ∈ req.soft z) (hsupplied : x ∈ req.supplied)
      (hout : x ∉ start) : SoftPath req start [x] x
  | next {path : List String} {z x : String} (hpath : SoftPath req start path z)
      (hsoft : x ∈ req.soft z) (hsupplied : x ∈ req.supplied) (hout : x ∉ start ++ path) :
      SoftPath req start (path ++ [x]) x

/-- A path visits no subgraph twice. -/
theorem SoftPath.nodup {start path : List String} {x : String} (hstart : start.Nodup)
    (h : SoftPath req start path x) : (start ++ path).Nodup := by
  induction h with
  | first hz hsoft hsupplied hout =>
    rw [← concat_eq_append]
    exact hstart.concat hout
  | next hpath hsoft hsupplied hout ih =>
    rw [← append_assoc, ← concat_eq_append]
    exact ih.concat hout

/-- It has no hard dependency among the supplied subgraphs. -/
def Free (req : WindowRequest) (x : String) : Prop := ∀ y ∈ req.hard x, y ∉ req.supplied

/-- No soft path from the seed's hard closure ends in a subgraph with hard dependencies. -/
def PathsFree (req : WindowRequest) : Prop :=
  ∀ seed, req.seed = some seed → ∀ path x, SoftPath req (req.hardClosure seed.subgraphId) path x →
    req.Free x

/-- The same of the paths that fit the budgets together with the closure. -/
def FittingPathsFree (req : WindowRequest) : Prop :=
  ∀ seed, req.seed = some seed → ∀ path x, SoftPath req (req.hardClosure seed.subgraphId) path x →
    req.fitsBudget (req.hardClosure seed.subgraphId ++ path) = true → req.Free x

/-! ## The second phase -/

/-- A pick of the second phase is a soft neighbour of the selection, outside of it and
supplied, that fits the budgets. -/
theorem softPick_spec {chosen : List String} {added : String}
    (h : req.softPick chosen = some added) :
    (added ∈ req.supplied ∧ added ∉ chosen) ∧ (∃ z ∈ chosen, added ∈ req.soft z) ∧
      req.fitsBudget (chosen ++ [added]) = true := by
  rw [softPick, map_eq_some_iff] at h
  obtain ⟨s, hfind, rfl⟩ := h
  have hordered : s ∈ req.orderedCandidates chosen := mem_of_find?_eq_some hfind
  rw [orderedCandidates, mem_insertionSort, mem_filterMap] at hordered
  obtain ⟨id, hid, hby⟩ := hordered
  obtain ⟨hmem, rfl⟩ := subgraphId_of_byId hby
  rw [softCandidates, mem_filter, mem_dedup, mem_flatMap] at hid
  have hfits := find?_some hfind
  exact ⟨⟨mem_supplied.2 (mem_map_of_mem hmem), by simpa using hid.2⟩, hid.1, hfits⟩

/-- What holds while the second phase grows the closure: each admitted subgraph is the end of
a soft path of admitted ones, and all of them fit the budgets. -/
structure Growing (req : WindowRequest) (start chosen : List String) : Prop where
  subset : start ⊆ chosen
  path : ∀ x ∈ chosen, x ∉ start → ∃ path, SoftPath req start path x ∧ path ⊆ chosen
  fits : chosen ≠ start → req.fitsBudget chosen = true

/-- **One turn of the second phase.** -/
theorem Growing.pick {start chosen : List String} {added : String}
    (h : Growing req start chosen) (hpick : req.softPick chosen = some added) :
    Growing req start (chosen ++ [added]) := by
  obtain ⟨⟨hsupplied, hfresh⟩, ⟨z, hz, hsoft⟩, hfits⟩ := softPick_spec hpick
  have hold : chosen ⊆ chosen ++ [added] := subset_append_left _ _
  refine ⟨Subset.trans h.subset hold, ?_, fun _ => hfits⟩
  intro x hx hout
  rcases mem_append.1 hx with hx | hx
  · obtain ⟨path, hpath, hsub⟩ := h.path x hx hout
    exact ⟨path, hpath, Subset.trans hsub hold⟩
  obtain rfl := mem_singleton.1 hx
  by_cases hstart : z ∈ start
  · refine ⟨[x], .first hstart hsoft hsupplied hout, ?_⟩
    exact subset_append_right _ _
  · obtain ⟨path, hpath, hsub⟩ := h.path z hz hstart
    refine ⟨path ++ [x], .next hpath hsoft hsupplied ?_, ?_⟩
    · exact fun hmem => hfresh ((append_subset.2 ⟨h.subset, hsub⟩) hmem)
    · exact append_subset.2 ⟨Subset.trans hsub hold, subset_append_right _ _⟩

/-- **The second phase.** -/
theorem growing_selected (req : WindowRequest) (seedId : String) :
    Growing req (req.hardClosure seedId) (req.selected seedId) := by
  refine Greedy.invariant_grow (Growing req (req.hardClosure seedId))
    (fun _ _ h hpick => h.pick hpick) _ ⟨Subset.refl _, ?_, fun hne => absurd rfl hne⟩
  exact fun x hx hout => absurd hx hout

/-- A selection is closed where the fitting paths are free. -/
theorem hardClosed_selected {seed : AgentSubgraph} (hseed : req.seed = some seed)
    (hfree : req.FittingPathsFree) : req.HardClosed (req.selected seed.subgraphId) := by
  have hgrowing := growing_selected req seed.subgraphId
  intro x hx y hy hsupplied
  by_cases hin : x ∈ req.hardClosure seed.subgraphId
  · exact hgrowing.subset (hardClosed_hardClosure (seed_mem hseed) x hin y hy hsupplied)
  · obtain ⟨path, hpath, hsub⟩ := hgrowing.path x hx hin
    have hgrown : req.selected seed.subgraphId ≠ req.hardClosure seed.subgraphId :=
      fun hsame => hin (hsame ▸ hx)
    have hfits : req.fitsBudget (req.hardClosure seed.subgraphId ++ path) = true :=
      fitsBudget_of_subset (hpath.nodup (nodup_hardClosure req _))
        (append_subset.2 ⟨hgrowing.subset, hsub⟩) (hgrowing.fits hgrown)
    exact absurd hsupplied (hfree seed hseed path x hpath hfits y hy)

/-! ## All budgets -/

/-- Budgets under which only the number of subgraphs counts. -/
def wide (req : WindowRequest) (count : ℕ) : WindowBudgets where
  maxParallelSubgraphs := count
  maxActiveRegions := (req.subgraphs.flatMap (·.regionIds)).length
  topKCandidatesIncludingNoop := 1
  maxNonNoopActionsPerBatch := 0

/-- The first candidate, whether it fits or not. -/
def softNext (req : WindowRequest) (chosen : List String) : Option String :=
  (req.orderedCandidates chosen).head?.map (·.subgraphId)

theorem fitsBudget_wide (count : ℕ) (proposal : List String) :
    (req.withBudgets (req.wide count)).fitsBudget proposal = decide (proposal.length ≤ count) := by
  have hregions : req.regionCount proposal ≤ (req.subgraphs.flatMap (·.regionIds)).length := by
    have hsub : (proposal.flatMap fun id =>
        ((byId req.subgraphs id).map (·.regionIds)).getD []) ⊆
          req.subgraphs.flatMap (·.regionIds) := by
      intro regionId hregion
      obtain ⟨id, -, hregion⟩ := mem_flatMap.1 hregion
      cases hby : byId req.subgraphs id with
      | none =>
        rw [hby] at hregion
        cases hregion
      | some s =>
        rw [hby] at hregion
        exact mem_flatMap.2 ⟨s, (subgraphId_of_byId hby).1, hregion⟩
    refine (subperm_of_subset (nodup_dedup _) ?_).length_le
    exact fun regionId hregion => hsub (mem_dedup.1 hregion)
  refine decide_eq_decide.2 ?_
  have hestimate : (req.withBudgets (req.wide count)).estimate proposal = 0 := Int.mul_zero _
  have hcount : (req.withBudgets (req.wide count)).regionCount proposal =
    req.regionCount proposal := rfl
  rw [hestimate, hcount]
  show ((proposal.length : ℤ) ≤ count ∧
    (req.regionCount proposal : ℤ) ≤ ((req.subgraphs.flatMap (·.regionIds)).length : ℕ) ∧
      (0 : ℤ) ≤ 0 * 1) ↔ _
  omega

theorem softPick_wide (count : ℕ) (chosen : List String) :
    (req.withBudgets (req.wide count)).softPick chosen =
      if chosen.length < count then req.softNext chosen else none := by
  show (((req.orderedCandidates chosen).find? fun s =>
    (req.withBudgets (req.wide count)).fitsBudget (chosen ++ [s.subgraphId])).map _) = _
  simp only [fitsBudget_wide, length_append, length_singleton, Nat.succ_le_iff]
  split_ifs with hless
  · simp only [hless, decide_true, softNext]
    cases req.orderedCandidates chosen <;> rfl
  · rw [find?_eq_none.2 fun _ _ => by simp [hless], map_none]

/-- The budgets let the second phase go on for any number of turns. -/
theorem selected_wide (seedId : String) {turns : ℕ} (h : turns ≤ req.subgraphs.length) :
    (req.withBudgets (req.wide ((req.hardClosure seedId).length + turns))).selected seedId =
      Greedy.grow req.softNext turns (req.hardClosure seedId) := by
  show Greedy.grow _ req.subgraphs.length (req.hardClosure seedId) = _
  rw [Greedy.grow_capped (softPick_wide _)]
  congr 1
  omega

theorem softNext_fresh (chosen : List String) (added : String)
    (h : req.softNext chosen = some added) : added ∈ req.supplied ∧ added ∉ chosen := by
  have hpick : (req.withBudgets (req.wide (chosen.length + 1))).softPick chosen = some added := by
    rw [softPick_wide, if_pos (Nat.lt_succ_self _), h]
  exact (softPick_spec hpick).1

/-- Without a further candidate, the supplied soft neighbours are all selected. -/
theorem mem_of_softNext_none {chosen : List String} {x z : String}
    (h : req.softNext chosen = none) (hz : z ∈ chosen) (hsoft : x ∈ req.soft z)
    (hsupplied : x ∈ req.supplied) : x ∈ chosen := by
  by_contra hout
  rw [softNext, map_eq_none_iff, head?_eq_none_iff] at h
  obtain ⟨s, hs⟩ := isSome_iff_exists.1 (byId_isSome_iff.2 (mem_supplied.1 hsupplied))
  have hcandidate : x ∈ req.softCandidates chosen :=
    mem_filter.2 ⟨mem_dedup.2 (mem_flatMap.2 ⟨z, hz, hsoft⟩), decide_eq_true hout⟩
  have hmem : s ∈ req.orderedCandidates chosen :=
    (mem_insertionSort _).2 (mem_filterMap.2 ⟨x, hcandidate, hs⟩)
  rw [h] at hmem
  cases hmem

/-- If the second phase is closed whenever it may be stopped, what it admits is free. -/
theorem free_of_closed {start : List String} {n : ℕ} (hsub : ∀ x ∈ start, x ∈ req.supplied)
    (hclosed : ∀ k ≤ n, req.HardClosed (Greedy.grow req.softNext k start)) {k : ℕ} (hk : k ≤ n) :
    ∀ x ∈ Greedy.grow req.softNext k start, x ∈ req.supplied ∧ (x ∉ start → req.Free x) := by
  induction k with
  | zero => exact fun x hx => ⟨hsub x hx, fun hout => absurd hx hout⟩
  | succ k ih =>
    have hbefore := ih (Nat.le_of_succ_le hk)
    have hclosedNow := hclosed (k + 1) hk
    intro x hx
    rw [Greedy.grow_succ] at hx hclosedNow
    rcases mem_append.1 hx with hx | hx
    · exact hbefore x hx
    obtain ⟨hsupplied, hfresh⟩ := softNext_fresh _ _ (mem_toList.1 hx)
    refine ⟨hsupplied, fun _ y hy hys => ?_⟩
    -- the dependency was selected before, when the selection was closed without `x`
    have hmem := hclosedNow x (mem_append_right _ hx) y hy hys
    rcases mem_append.1 hmem with hmem | hmem
    · exact hfresh (hclosed k (Nat.le_of_succ_le hk) y hmem x (hard_symm hy) hsupplied)
    · rw [mem_toList] at hx hmem
      exact ne_of_mem_hard hy (some.inj (hmem.symm.trans hx))

/-- **Every subgraph on a soft path** is admitted in the end, so it is free. -/
theorem pathsFree_of_closed {seed : AgentSubgraph} (hseed : req.seed = some seed)
    (hclosed : ∀ budgets, req.HardClosed ((req.withBudgets budgets).selected seed.subgraphId)) :
    req.PathsFree := by
  have hsub := hardClosure_subset (seed_mem hseed)
  have hstages : ∀ k ≤ req.subgraphs.length, req.HardClosed
      (Greedy.grow req.softNext k (req.hardClosure seed.subgraphId)) :=
    fun k hk => selected_wide _ hk ▸ hclosed (req.wide _)
  have hend : req.softNext (Greedy.grow req.softNext req.subgraphs.length
      (req.hardClosure seed.subgraphId)) = none := by
    refine Greedy.pick_grow req.supplied softNext_fresh _ (nodup_hardClosure req _) hsub ?_
    have hcard : req.supplied.card ≤ req.subgraphs.length := card_supplied_le
    omega
  intro other hother path x hpath
  obtain rfl : seed = other := some.inj (hseed.symm.trans hother)
  have hreached : x ∈ Greedy.grow req.softNext req.subgraphs.length
      (req.hardClosure seed.subgraphId) ∧ x ∉ req.hardClosure seed.subgraphId := by
    induction hpath with
    | first hz hsoft hsupplied hout =>
      exact ⟨mem_of_softNext_none hend ((Greedy.prefix_grow _ _).subset hz) hsoft hsupplied, hout⟩
    | next hpath hsoft hsupplied hout ih =>
      exact ⟨mem_of_softNext_none hend ih.1 hsoft hsupplied,
        fun hmem => hout (mem_append_left _ hmem)⟩
  exact (free_of_closed hsub hstages le_rfl x hreached.1).2 hreached.2

end WindowRequest

open WindowRequest

/-! ## The window -/

theorem mem_window_subgraphIds {stableHash : WindowIdentity → String} {req : WindowRequest}
    {chosen : List String} {x : String} :
    x ∈ (req.window stableHash chosen).subgraphIds ↔ x ∈ chosen := by
  exact mem_sortedSet

theorem hardClosed_window_iff {stableHash : WindowIdentity → String} {req req' : WindowRequest}
    {chosen : List String} :
    req.HardClosed (req'.window stableHash chosen).subgraphIds ↔ req.HardClosed chosen := by
  simp only [HardClosed, mem_window_subgraphIds]

/-- A window is selected under all budgets or under none. -/
theorem selectActiveWindow_withBudgets {stableHash : WindowIdentity → String} {req : WindowRequest}
    {w : ActiveWindow} (h : selectActiveWindow stableHash req = .ok (some w))
    (budgets : WindowBudgets) :
    ∃ w', selectActiveWindow stableHash (req.withBudgets budgets) = .ok (some w') := by
  obtain ⟨seed, hseed, -⟩ := selectActiveWindow_some h
  rw [selectActiveWindow] at h
  by_cases hpending : req.pending = ∅
  · rw [if_pos hpending] at h
    cases h
  rw [if_neg hpending] at h
  split_ifs at h with hmissing
  have hsame : (req.withBudgets budgets).seed = some seed := hseed
  refine ⟨(req.withBudgets budgets).window stableHash
    ((req.withBudgets budgets).selected seed.subgraphId), ?_⟩
  rw [selectActiveWindow, hsame]
  exact (if_neg hpending).trans (if_neg hmissing)

/-- **Closure of the active window.**  A selected window is closed under the hard relation if
the soft paths that fit the budgets are free of hard dependencies. It is closed under all
budgets exactly when all soft paths are. -/
theorem window_hardClosed_iff (stableHash : WindowIdentity → String) (req : WindowRequest)
    (w : ActiveWindow) (h : selectActiveWindow stableHash req = .ok (some w)) :
    (req.FittingPathsFree → req.HardClosed w.subgraphIds) ∧
      ((∀ budgets w', selectActiveWindow stableHash (req.withBudgets budgets) = .ok (some w') →
        req.HardClosed w'.subgraphIds) ↔ req.PathsFree) := by
  obtain ⟨seed, hseed, rfl⟩ := selectActiveWindow_some h
  refine ⟨fun hfree => hardClosed_window_iff.2 (hardClosed_selected hseed hfree), ?_, ?_⟩
  · intro hclosed
    refine pathsFree_of_closed hseed fun budgets => ?_
    obtain ⟨w', hw'⟩ := selectActiveWindow_withBudgets h budgets
    obtain ⟨seed', hseed', rfl⟩ := selectActiveWindow_some hw'
    obtain rfl : seed = seed' := some.inj (hseed.symm.trans hseed')
    exact hardClosed_window_iff.1 (hclosed budgets _ hw')
  · intro hfree budgets w' hw'
    obtain ⟨seed', hseed', rfl⟩ := selectActiveWindow_some hw'
    have hpaths : (req.withBudgets budgets).PathsFree := fun other hother path x hpath => by
      refine hfree other hother path x ?_
      induction hpath with
      | first hz hsoft hsupplied hout => exact .first hz hsoft hsupplied hout
      | next _ hsoft hsupplied hout ih => exact .next ih hsoft hsupplied hout
    refine hardClosed_window_iff.2 ?_
    have hclosed := hardClosed_selected hseed' fun other hother path x hpath _ =>
      hpaths other hother path x hpath
    exact hclosed

/-- Three subgraphs in a row: the first two share a soft edge, the last two a
hard one. Only the first has a pending violation. -/
def rowRequest : WindowRequest where
  graph := {
    edges := [{ edgeId := "e1", u := "r1", v := "r2", hard := false },
      { edgeId := "e2", u := "r2", v := "r3", hard := true }]
    regions := [("r1", ["v1"]), ("r2", []), ("r3", [])] }
  subgraphs := [{ subgraphId := "A", regionIds := ["r1"] },
    { subgraphId := "B", regionIds := ["r2"] }, { subgraphId := "C", regionIds := ["r3"] }]
  iterationFrontierViolationIds := {"v1"}
  currentViolationIds := {"v1"}
  maxParallelSubgraphs := 2
  maxActiveRegions := 8
  topKCandidatesIncludingNoop := 3
  maxNonNoopActionsPerBatch := 8

/-- The second subgraph is admitted next to the first, and its hard dependency
stays outside a window that declares the closure. -/
theorem rowRequest_window_open :
    ∃ w, selectActiveWindow (fun _ => "0") rowRequest = .ok (some w) ∧
      w.subgraphIds = ["A", "B"] ∧ w.hardDependencyClosure = true ∧
      "C" ∈ rowRequest.hard "B" ∧ "C" ∈ rowRequest.supplied ∧
      ¬ rowRequest.HardClosed w.subgraphIds := by
  refine ⟨_, rfl, ?_⟩
  decide

/-- The row, with no hard edge between the last two. -/
def softRowRequest : WindowRequest :=
  { rowRequest with
    graph := {
      edges := [{ edgeId := "e1", u := "r1", v := "r2", hard := false },
        { edgeId := "e2", u := "r2", v := "r3", hard := false }]
      regions := [("r1", ["v1"]), ("r2", []), ("r3", [])] } }

theorem window_hardClosed_iff_row :
    ∃ w, selectActiveWindow (fun _ => "0") softRowRequest = .ok (some w) ∧
      w.subgraphIds = ["A", "B"] ∧ softRowRequest.HardClosed w.subgraphIds ∧
      ∀ budgets w', selectActiveWindow (fun _ => "0") (softRowRequest.withBudgets budgets) =
        .ok (some w') → softRowRequest.HardClosed w'.subgraphIds := by
  have hclosed := window_hardClosed_iff (fun _ => "0") softRowRequest _ rfl
  have hfree : softRowRequest.PathsFree := by
    intro seed hseed path x hpath y hy
    have hnone : dependencyPairs softRowRequest.graph softRowRequest.subgraphs true = [] := rfl
    rw [hard, hardNeighbours, hnone, mem_partners] at hy
    rcases hy with hy | hy <;> cases hy
  refine ⟨_, rfl, by decide, hclosed.1 fun seed hseed path x hpath _ => ?_, hclosed.2.2 hfree⟩
  exact hfree seed hseed path x hpath

end DRCAgent
