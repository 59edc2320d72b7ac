/-
# Caches that forget the oldest use

A small library: a cache of bounded size in the order of use, the oldest first. A hit moves
the entry to the end; a miss computes, and the oldest entries go while there are too many.

* `use`: one use of a key; `uses`: a list of them.
* `recency`: the different keys of a history, the latest first.

Where equal keys stand for equal computations, the cache cannot be told from computing every
time (`use_spec`). What it holds are the latest different keys that were computed
(`uses_keys`).
-/
import DRCAgent.InsertionDict

namespace RecencyCache

open List

universe u v w

variable {K : Type u} {V : Type v} {E : Type w} {I : Type u}

/-! ## One use -/

/-- While there are too many, the oldest goes. -/
def popOldest (capacity : ℕ) : List (K × V) → List (K × V)
  | [] => []
  | entry :: rest =>
    if capacity < (entry :: rest).length then popOldest capacity rest else entry :: rest

/-- The newest entries stay. -/
theorem popOldest_suffix (capacity : ℕ) (cache : List (K × V)) :
    popOldest capacity cache <:+ cache := by
  induction cache with
  | nil => exact suffix_refl []
  | cons entry rest ih =>
    rw [popOldest]
    split_ifs
    · exact ih.trans (suffix_cons entry rest)
    · exact suffix_refl _

theorem popOldest_eq_drop (capacity : ℕ) (cache : List (K × V)) :
    popOldest capacity cache = cache.drop (cache.length - capacity) := by
  induction cache with
  | nil => rw [popOldest, drop_nil]
  | cons entry rest ih =>
    rw [popOldest]
    split_ifs with hmany
    · have hlength : (entry :: rest).length - capacity = (rest.length - capacity) + 1 := by
        rw [length_cons] at hmany ⊢
        omega
      rw [ih, hlength, drop_succ_cons]
    · rw [Nat.sub_eq_zero_of_le (Nat.le_of_not_lt hmany), drop_zero]

/-- The keys of a cache, the latest first. -/
def latestKeys (cache : List (K × V)) : List K := (cache.map (·.1)).reverse

/-- The latest keys stay. -/
theorem latestKeys_popOldest (capacity : ℕ) (cache : List (K × V)) :
    latestKeys (popOldest capacity cache) = (latestKeys cache).take capacity := by
  rw [latestKeys, latestKeys, popOldest_eq_drop, map_drop, take_reverse, length_map]

variable [DecidableEq K]

/-- The entry moves to the end. -/
def touch (key : K) (value : V) (cache : List (K × V)) : List (K × V) :=
  cache.filter (fun entry => entry.1 ≠ key) ++ [(key, value)]

/-- One use of a key. A failed computation leaves the cache as it is. -/
def use (capacity : ℕ) (key : K) (computed : Except E V) (cache : List (K × V)) :
    Except E V × List (K × V) :=
  match cache.lookup key with
  | some value => (.ok value, touch key value cache)
  | none =>
    match computed with
    | .error error => (.error error, cache)
    | .ok value => (.ok value, popOldest capacity (cache ++ [(key, value)]))

/-- Uses in their order: what each returns, and the cache after them. -/
def uses (capacity : ℕ) (key : I → K) (compute : I → Except E V) :
    List (K × V) → List I → List (Except E V) × List (K × V)
  | cache, [] => ([], cache)
  | cache, input :: rest =>
    let (result, cache) := use capacity (key input) (compute input) cache
    let (results, cache) := uses capacity key compute cache rest
    (result :: results, cache)

/-! ## The results -/

/-- Every entry is what some input of the right kind computes. -/
def Sound (key : I → K) (compute : I → Except E V) (kind : I → Prop) (cache : List (K × V)) :
    Prop :=
  ∀ entry ∈ cache, ∃ input, kind input ∧ key input = entry.1 ∧ compute input = .ok entry.2

section Results

variable {key : I → K} {compute : I → Except E V} {kind : I → Prop}

/-- A use answers what is computed, and keeps the cache sound. -/
theorem use_spec (capacity : ℕ)
    (hkey : ∀ i j, kind i → kind j → key i = key j → compute i = compute j)
    {cache : List (K × V)} (hsound : Sound key compute kind cache) {input : I}
    (hinput : kind input) :
    (use capacity (key input) (compute input) cache).1 = compute input ∧
      Sound key compute kind (use capacity (key input) (compute input) cache).2 := by
  unfold use
  cases hlookup : cache.lookup (key input) with
  | some value =>
    have hmem := Dicts.mem_of_lookup hlookup
    obtain ⟨other, hother, hsame, hcompute⟩ := hsound _ hmem
    refine ⟨(hcompute.symm.trans (hkey other input hother hinput hsame)), ?_⟩
    intro entry hentry
    obtain hold | hnew := mem_append.1 hentry
    · exact hsound entry (mem_of_mem_filter hold)
    · rw [mem_singleton.1 hnew]
      exact hsound _ hmem
  | none =>
    cases hcompute : compute input with
    | error error => exact ⟨rfl, hsound⟩
    | ok value =>
      refine ⟨rfl, fun entry hentry => ?_⟩
      obtain hold | hnew := mem_append.1 ((popOldest_suffix _ _).subset hentry)
      · exact hsound entry hold
      · rw [mem_singleton.1 hnew]
        exact ⟨input, hinput, rfl, hcompute⟩

end Results

/-! ## The keys -/

/-- The different keys of a history, the latest first. -/
def recency : List K → List K
  | [] => []
  | key :: history => key :: (recency history).filter (· ≠ key)

theorem nodup_recency (history : List K) : (recency history).Nodup := by
  induction history with
  | nil => exact nodup_nil
  | cons key history ih =>
    refine nodup_cons.2 ⟨fun hmem => ?_, ih.filter _⟩
    exact absurd rfl (of_decide_eq_true (mem_filter.1 hmem).2)

theorem filter_take_of_mem {key : K} : ∀ {keys : List K} {n : ℕ}, keys.Nodup →
    key ∈ keys.take (n + 1) →
    (keys.take (n + 1)).filter (· ≠ key) = (keys.filter (· ≠ key)).take n
  | [], _, _, hmem => by simp at hmem
  | first :: rest, n, hnodup, hmem => by
      obtain ⟨hfirst, hrest⟩ := nodup_cons.1 hnodup
      by_cases heq : first = key
      · subst heq
        have hne : ∀ other ∈ rest, decide (other ≠ first) = true := by
          intro other hother
          exact decide_eq_true fun h => hfirst (h ▸ hother)
        rw [take_succ_cons, filter_cons_of_neg (by simp),
          filter_cons_of_neg (by simp), filter_eq_self.2 hne,
          filter_eq_self.2 fun other hother => hne other (mem_of_mem_take hother)]
      · rw [take_succ_cons] at hmem
        have hmem' : key ∈ rest.take n := (mem_cons.1 hmem).resolve_left (Ne.symm heq)
        obtain ⟨m, rfl⟩ : ∃ m, n = m + 1 := by
          cases n with
          | zero => simp at hmem'
          | succ m => exact ⟨m, rfl⟩
        rw [take_succ_cons, filter_cons_of_pos (by simpa using heq),
          filter_cons_of_pos (by simpa using heq), take_succ_cons,
          filter_take_of_mem hrest hmem']

theorem take_filter_of_not_mem {key : K} : ∀ {keys : List K} {n : ℕ},
    key ∉ keys.take n → (keys.filter (· ≠ key)).take n = keys.take n
  | [], _, _ => by simp
  | first :: rest, 0, _ => by simp
  | first :: rest, n + 1, hmem => by
      rw [take_succ_cons, mem_cons, not_or] at hmem
      rw [filter_cons_of_pos (by simpa using Ne.symm hmem.1), take_succ_cons,
        take_succ_cons, take_filter_of_not_mem hmem.2]

/-- A touched key is the latest. -/
theorem latestKeys_touch (key : K) (value : V) (cache : List (K × V)) :
    latestKeys (touch key value cache) = key :: (latestKeys cache).filter (· ≠ key) := by
  have hfilter : (cache.filter fun entry => entry.1 ≠ key).map (·.1) =
      (cache.map (·.1)).filter (· ≠ key) := by
    rw [filter_map]
    rfl
  rw [latestKeys, latestKeys, touch, map_append, reverse_append, hfilter, filter_reverse]
  rfl

/-- One successful use puts its key in front of the latest keys. -/
theorem use_keys {capacity : ℕ} {key : K} {value : V} {cache : List (K × V)} {history : List K}
    (hkeys : latestKeys cache = (recency history).take (capacity + 1)) :
    latestKeys (use (E := E) (capacity + 1) key (.ok value) cache).2 =
      (recency (key :: history)).take (capacity + 1) := by
  unfold use
  cases hlookup : cache.lookup key with
  | some found =>
    have hmem : key ∈ latestKeys cache :=
      mem_reverse.2 (mem_map_of_mem (f := (·.1)) (Dicts.mem_of_lookup hlookup))
    rw [hkeys] at hmem
    rw [latestKeys_touch, hkeys, filter_take_of_mem (nodup_recency history) hmem, recency,
      take_succ_cons]
  | none =>
    have hmem : key ∉ (recency history).take (capacity + 1) := by
      rw [← hkeys, latestKeys, mem_reverse]
      intro hmem
      obtain ⟨entry, hentry, heq⟩ := mem_map.1 hmem
      have hne := lookup_eq_none_iff.1 hlookup entry hentry
      rw [heq, bne_self_eq_false] at hne
      cases hne
    have hshort : key ∉ (recency history).take capacity := fun hshort =>
      hmem (take_subset_take_left _ (Nat.le_succ capacity) hshort)
    have happend : latestKeys (cache ++ [(key, value)]) = key :: latestKeys cache := by
      rw [latestKeys, map_append, reverse_append]
      rfl
    rw [latestKeys_popOldest, happend, hkeys, recency, take_succ_cons, take_succ_cons,
      take_filter_of_not_mem hshort, take_take, Nat.min_eq_left (Nat.le_succ capacity)]

/-- A failed use leaves the cache as it is. -/
theorem use_failed {capacity : ℕ} {key : K} {computed : Except E V} {cache : List (K × V)}
    {error : E} (h : (use capacity key computed cache).1 = .error error) :
    (use capacity key computed cache).2 = cache := by
  unfold use at h ⊢
  cases hlookup : cache.lookup key with
  | some value =>
    rw [hlookup] at h
    cases h
  | none =>
    rw [hlookup] at h
    cases computed with
    | error error => rfl
    | ok value => cases h

/-- The keys that were computed, the latest first. -/
def computedKeys (key : I → K) (compute : I → Except E V) : List I → List K → List K
  | [], history => history
  | input :: rest, history =>
    computedKeys key compute rest
      (match compute input with
        | .ok _ => key input :: history
        | .error _ => history)

/-- **What the cache holds**: the latest different keys that were computed. -/
theorem uses_keys (capacity : ℕ) {key : I → K} {compute : I → Except E V} {kind : I → Prop}
    (hkey : ∀ i j, kind i → kind j → key i = key j → compute i = compute j) (inputs : List I) :
    ∀ {cache : List (K × V)} {history : List K}, Sound key compute kind cache →
      (∀ input ∈ inputs, kind input) →
      latestKeys cache = (recency history).take (capacity + 1) →
      latestKeys (uses (capacity + 1) key compute cache inputs).2 =
        (recency (computedKeys key compute inputs history)).take (capacity + 1) := by
  induction inputs with
  | nil => exact fun _ _ hkeys => hkeys
  | cons input rest ih =>
    intro cache history hsound hinputs hkeys
    obtain ⟨hresult, hnext⟩ :=
      use_spec (capacity + 1) hkey hsound (hinputs input mem_cons_self)
    have hrest : ∀ other ∈ rest, kind other :=
      fun other hother => hinputs other (mem_cons_of_mem _ hother)
    rw [computedKeys]
    cases hcompute : compute input with
    | ok value =>
      rw [hcompute] at hnext
      have hafter : latestKeys (use (E := E) (capacity + 1) (key input) (.ok value) cache).2 =
          (recency (key input :: history)).take (capacity + 1) := use_keys hkeys
      have hlast := ih hnext hrest hafter
      rw [uses]
      rw [hcompute]
      exact hlast
    | error error =>
      rw [hcompute] at hnext hresult
      have hsame := use_failed hresult
      rw [hsame] at hnext
      have hlast := ih hnext hrest hkeys
      rw [uses, hcompute]
      simp only [hsame]
      exact hlast

end RecencyCache
