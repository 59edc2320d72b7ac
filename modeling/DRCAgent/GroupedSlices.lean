/-
# Grouping values under keys, in slices

Three parts of a grouping that is bounded in size: a dictionary whose keys may be assigned
again with the same value only, the slices of a list, and the least number of pieces of a
bounded length that hold what is grouped under each key.

Main results:

* `foldlM_assign_eq_none`: the assignments fail exactly when two of them disagree.
* `flatten_slices`: the slices are the list.
* `length_keyedSlices_le`: no fewer pieces hold the values of every key than its slices are.
-/
import Mathlib
import DRCAgent.InsertionDict

namespace Groups

open List

/-! ## Assignments that agree -/

section Assign

variable {K V : Type*}

/-- No key has two values. -/
def Agree (entries : List (K × V)) : Prop :=
  ∀ e ∈ entries, ∀ e' ∈ entries, e.1 = e'.1 → e.2 = e'.2

variable {dict next : List (K × V)} {entry : K × V} {entries : List (K × V)}

theorem agree_of_nodup (h : (dict.map (·.1)).Nodup) : Agree dict := by
  intro e he e' he' hkey
  rw [inj_on_of_nodup_map h he he' hkey]

variable [DecidableEq K] [DecidableEq V]

/-- A key is assigned for the first time, or with the value that it has. -/
def assign (dict : List (K × V)) (entry : K × V) : Option (List (K × V)) :=
  match dict.lookup entry.1 with
  | some value => if value = entry.2 then some dict else none
  | none => some (Dicts.insert entry.1 entry.2 dict)

omit [DecidableEq V] in
theorem notMem_keys_of_lookup {k : K} (h : dict.lookup k = none) : k ∉ dict.map (·.1) := by
  intro hmem
  obtain ⟨e, he, rfl⟩ := mem_map.1 hmem
  exact absurd (lookup_eq_none_iff.1 h e he) (by simp)

/-- What an assignment does. -/
theorem assign_eq_some (hnodup : (dict.map (·.1)).Nodup) (h : assign dict entry = some next) :
    (next.map (·.1)).Nodup ∧ ∀ e, e ∈ next ↔ e ∈ dict ∨ e = entry := by
  rw [assign] at h
  cases hlookup : dict.lookup entry.1 with
  | some value =>
    rw [hlookup] at h
    dsimp only at h
    split_ifs at h with hvalue
    obtain rfl := Option.some.inj h
    refine ⟨hnodup, fun e => ⟨.inl, ?_⟩⟩
    rintro (he | rfl)
    · exact he
    · have hmem := Dicts.mem_of_lookup hlookup
      rwa [hvalue] at hmem
  | none =>
    rw [hlookup] at h
    obtain rfl := Option.some.inj h
    refine ⟨Dicts.nodup_keys_insert hnodup, fun e => ?_⟩
    rw [Dicts.insert_of_notMem (notMem_keys_of_lookup hlookup), mem_append, mem_singleton]

/-- An assignment fails when the key has another value. -/
theorem assign_eq_none : assign dict entry = none ↔
    ∃ value, dict.lookup entry.1 = some value ∧ value ≠ entry.2 := by
  rw [assign]
  cases dict.lookup entry.1 with
  | some value => simp
  | none => simp

/-- **What the assignments give**: every entry, under distinct keys. -/
theorem foldlM_assign_eq_some (hnodup : (dict.map (·.1)).Nodup)
    (h : entries.foldlM assign dict = some next) :
    (next.map (·.1)).Nodup ∧ ∀ e, e ∈ next ↔ e ∈ dict ∨ e ∈ entries := by
  induction entries generalizing dict with
  | nil =>
    obtain rfl := Option.some.inj h
    exact ⟨hnodup, fun e => by simp⟩
  | cons entry entries ih =>
    rw [foldlM_cons] at h
    obtain ⟨mid, hmid, h⟩ := Option.bind_eq_some_iff.1 h
    obtain ⟨hnodup', hmem'⟩ := assign_eq_some hnodup hmid
    obtain ⟨hnext, hmem⟩ := ih hnodup' h
    refine ⟨hnext, fun e => ?_⟩
    rw [hmem, hmem', mem_cons, or_assoc]

/-- **The assignments fail** exactly when two of them disagree. -/
theorem foldlM_assign_eq_none : entries.foldlM assign [] = none ↔ ¬ Agree entries := by
  have hrun : ∀ (rest before dict : List (K × V)), (dict.map (·.1)).Nodup →
      (∀ e, e ∈ dict ↔ e ∈ before) → rest.foldlM assign dict = none →
        ¬ Agree (before ++ rest) := by
    intro rest
    induction rest with
    | nil => exact fun _ _ _ _ h => (nomatch h)
    | cons entry rest ih =>
      intro before dict hnodup hmem h hagree
      rw [foldlM_cons] at h
      cases hassign : assign dict entry with
      | none =>
        obtain ⟨value, hlookup, hne⟩ := assign_eq_none.1 hassign
        have hvalue := (hmem _).1 (Dicts.mem_of_lookup hlookup)
        exact hne (hagree (entry.1, value) (mem_append_left _ hvalue) entry (by simp) rfl)
      | some mid =>
        obtain ⟨hnodup', hmem'⟩ := assign_eq_some hnodup hassign
        rw [hassign] at h
        refine ih (before ++ [entry]) mid hnodup' (fun e => ?_) h (by simpa using hagree)
        rw [hmem', hmem, mem_append, mem_singleton]
  constructor
  · intro h
    exact hrun entries [] [] nodup_nil (fun _ => Iff.rfl) h
  · intro hagree
    rw [Option.eq_none_iff_forall_ne_some]
    intro next h
    obtain ⟨hnodup, hmem⟩ := @foldlM_assign_eq_some _ _ [] _ _ _ _ nodup_nil h
    have hentries : ∀ e ∈ entries, e ∈ next := fun e he => (hmem e).2 (.inr he)
    exact hagree fun e he e' he' =>
      agree_of_nodup hnodup e (hentries e he) e' (hentries e' he')

end Assign

/-! ## Slices -/

section Slices

variable {α : Type*} {n : ℕ} {l piece : List α}

/-- The number of the offsets `0, n, 2 * n, …` below a length. -/
def sliceCount (n length : ℕ) : ℕ := (length + (n - 1)) / n

/-- The slices of `n` values, and what is left. -/
def slices (n : ℕ) (l : List α) : List (List α) :=
  (List.range (sliceCount n l.length)).map fun i => (l.drop (n * i)).take n

theorem length_slices : (slices n l).length = sliceCount n l.length := by
  rw [slices, length_map, length_range]

theorem lt_sliceCount {i length : ℕ} (hn : 0 < n) :
    i < sliceCount n length ↔ n * i < length := by
  rw [sliceCount, Nat.lt_iff_add_one_le, Nat.le_div_iff_mul_le hn, Nat.add_mul, Nat.mul_comm i n]
  omega

/-- **The slices are the list.** -/
theorem flatten_slices (hn : 0 < n) : (slices n l).flatten = l := by
  have htake : ∀ m, ((List.range m).map fun i => (l.drop (n * i)).take n).flatten =
      l.take (n * m) := by
    intro m
    induction m with
    | zero => simp
    | succ m ih =>
      rw [range_succ, map_append, flatten_append, ih, map_singleton,
        flatten_singleton, Nat.mul_succ, take_add]
  rw [slices, htake]
  refine take_of_length_le (not_lt.1 fun hlt => ?_)
  exact lt_irrefl _ ((lt_sliceCount hn).2 hlt)

theorem mem_slices (hn : 0 < n) (h : piece ∈ slices n l) :
    piece ≠ [] ∧ piece.length ≤ n := by
  obtain ⟨i, hi, rfl⟩ := mem_map.1 h
  have hlt := (lt_sliceCount hn).1 (mem_range.1 hi)
  refine ⟨?_, length_take_le _ _⟩
  rw [ne_eq, ← length_eq_zero_iff, length_take, length_drop]
  omega

/-- Distinct values need as many pieces as there are slices. -/
theorem sliceCount_le {pieces : List (List α)} (hn : 0 < n) (hnodup : l.Nodup)
    (hpieces : ∀ piece ∈ pieces, piece.length ≤ n)
    (hcover : ∀ x ∈ l, ∃ piece ∈ pieces, x ∈ piece) : sliceCount n l.length ≤ pieces.length := by
  have hle : l.length ≤ pieces.flatten.length := by
    refine (hnodup.subperm fun x hx => ?_).length_le
    exact mem_flatten.2 (hcover x hx)
  have hflatten : pieces.flatten.length ≤ n * pieces.length := by
    rw [length_flatten, Nat.mul_comm]
    refine (sum_le_card_nsmul _ n fun k hk => ?_).trans (by simp)
    obtain ⟨piece, hpiece, rfl⟩ := mem_map.1 hk
    exact hpieces piece hpiece
  by_contra hlt
  rw [not_le, lt_sliceCount hn] at hlt
  omega

end Slices

/-! ## The pieces of each key -/

section Pieces

variable {K V : Type*} {n : ℕ} {groups pieces : List (K × List V)} {k : K} {v : V}

/-- The slices of the values of each key. -/
def keyedSlices (n : ℕ) (groups : List (K × List V)) : List (K × List V) :=
  groups.flatMap fun group => (slices n group.2).map fun piece => (group.1, piece)

theorem length_keyedSlices : (keyedSlices n groups).length =
    (groups.map fun group => sliceCount n group.2.length).sum := by
  rw [keyedSlices, length_flatMap]
  refine congrArg List.sum (map_congr_left fun group _ => ?_)
  rw [length_map, length_slices]

/-- The slices have the values of the groups, in order. -/
theorem flatMap_keyedSlices (hn : 0 < n) :
    (keyedSlices n groups).flatMap (·.2) = groups.flatMap (·.2) := by
  induction groups with
  | nil => rfl
  | cons group rest ih =>
    rw [keyedSlices, flatMap_cons, ← keyedSlices, flatMap_append, ih, flatMap_cons, flatMap_map]
    congr 1
    rw [flatMap_id', flatten_slices hn]

theorem mem_keyedSlices (hn : 0 < n) :
    (∃ piece ∈ keyedSlices n groups, piece.1 = k ∧ v ∈ piece.2) ↔
      ∃ group ∈ groups, group.1 = k ∧ v ∈ group.2 := by
  simp only [keyedSlices, mem_flatMap, mem_map]
  constructor
  · rintro ⟨_, ⟨group, hgroup, piece, hpiece, rfl⟩, hkey, hmem⟩
    refine ⟨group, hgroup, hkey, ?_⟩
    rw [← flatten_slices (l := group.2) hn]
    exact mem_flatten_of_mem hpiece hmem
  · rintro ⟨group, hgroup, hkey, hmem⟩
    rw [← flatten_slices (l := group.2) hn] at hmem
    obtain ⟨piece, hpiece, hmem⟩ := mem_flatten.1 hmem
    exact ⟨_, ⟨group, hgroup, piece, hpiece, rfl⟩, hkey, hmem⟩

theorem bounds_of_mem_keyedSlices (hn : 0 < n) {piece : K × List V}
    (h : piece ∈ keyedSlices n groups) : piece.2 ≠ [] ∧ piece.2.length ≤ n := by
  obtain ⟨group, -, h⟩ := mem_flatMap.1 h
  obtain ⟨values, hvalues, rfl⟩ := mem_map.1 h
  exact mem_slices hn hvalues

variable [DecidableEq K]

/-- What is collected under a key. -/
theorem mem_collect {entries : List (K × V)} :
    (∃ group ∈ Dicts.collect entries, group.1 = k ∧ v ∈ group.2) ↔ (k, v) ∈ entries := by
  constructor
  · rintro ⟨group, hgroup, rfl, hmem⟩
    rw [Dicts.values_of_mem_collect hgroup] at hmem
    obtain ⟨⟨key, value⟩, hentry, rfl⟩ := mem_map.1 hmem
    obtain ⟨hentry, hkey⟩ := mem_filter.1 hentry
    rwa [← of_decide_eq_true hkey]
  · intro h
    have hmem : v ∈ ((Dicts.collect entries).lookup k).getD [] := by
      rw [Dicts.lookup_collect]
      exact mem_map.2 ⟨(k, v), mem_filter.2 ⟨h, by simp⟩, rfl⟩
    cases hlookup : (Dicts.collect entries).lookup k with
    | none =>
      rw [hlookup] at hmem
      cases hmem
    | some values =>
      rw [hlookup] at hmem
      exact ⟨(k, values), Dicts.mem_of_lookup hlookup, rfl, hmem⟩

/-- The collection has the values of its entries. -/
theorem flatMap_collect_perm (entries : List (K × V)) :
    ((Dicts.collect entries).flatMap (·.2)).Perm (entries.map (·.2)) := by
  have hfold : ∀ (entries : List (K × V)) (dict : List (K × List V)),
      ((entries.foldl (fun dict entry => Dicts.append entry.1 entry.2 dict) dict).flatMap
        (·.2)).Perm (dict.flatMap (·.2) ++ entries.map (·.2)) := by
    intro entries
    induction entries with
    | nil => simp
    | cons entry entries ih =>
      intro dict
      rw [foldl_cons, map_cons]
      exact (ih _).trans (((Dicts.append_perm _ _ _).append_right _).trans perm_middle.symm)
  exact hfold entries []

/-- **No fewer pieces hold the values of every key** than its slices are, when a piece has the
values of one key only, at most `n`. -/
theorem length_keyedSlices_le (hn : 0 < n) (hkeys : (groups.map (·.1)).Nodup)
    (hnodup : ∀ group ∈ groups, group.2.Nodup) (hpieces : ∀ piece ∈ pieces, piece.2.length ≤ n)
    (hcover : ∀ group ∈ groups, ∀ x ∈ group.2, ∃ piece ∈ pieces, piece.1 = group.1 ∧ x ∈ piece.2) :
    (keyedSlices n groups).length ≤ pieces.length := by
  rw [length_keyedSlices]
  induction groups generalizing pieces with
  | nil => exact Nat.zero_le _
  | cons group rest ih =>
    rw [map_cons, nodup_cons] at hkeys
    rw [map_cons, sum_cons]
    -- the pieces of this key, and those of the others
    have hown : sliceCount n group.2.length ≤
        (pieces.filter fun piece => piece.1 = group.1).length := by
      rw [← length_map (fun piece : K × List V => piece.2)]
      refine sliceCount_le hn (hnodup group mem_cons_self) (fun piece hpiece => ?_)
        fun x hx => ?_
      · obtain ⟨keyed, hkeyed, rfl⟩ := mem_map.1 hpiece
        exact hpieces keyed (mem_filter.1 hkeyed).1
      · obtain ⟨piece, hpiece, hkey, hmem⟩ := hcover group mem_cons_self x hx
        exact ⟨piece.2, mem_map_of_mem (mem_filter.2 ⟨hpiece, decide_eq_true hkey⟩), hmem⟩
    have hothers := @ih (pieces.filter fun piece => !decide (piece.1 = group.1)) hkeys.2
      (fun other hother => hnodup other (mem_cons_of_mem _ hother))
      (fun piece hpiece => hpieces piece (mem_filter.1 hpiece).1)
      fun other hother x hx => by
        obtain ⟨piece, hpiece, hkey, hmem⟩ := hcover other (mem_cons_of_mem _ hother) x hx
        refine ⟨piece, mem_filter.2 ⟨hpiece, ?_⟩, hkey, hmem⟩
        have hne : piece.1 ≠ group.1 := fun heq => hkeys.1
          (mem_map.2 ⟨other, hother, hkey.symm.trans heq⟩)
        simp [hne]
    have hsplit := length_eq_length_filter_add (l := pieces)
      (fun piece => decide (piece.1 = group.1))
    omega

end Pieces

end Groups
