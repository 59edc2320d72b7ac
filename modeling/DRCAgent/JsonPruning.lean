/-
# Pruning a prompt

`_without_empty` (src/drc_agent/repair_kernel_integration/llm_planner.py): a dictionary loses
its `schema_version` and every entry that is `None`, `[]` or `{}`, and what stays is pruned
in turn. An entry is looked at before it is pruned, so that a dictionary of nothing but
empty entries stays as `{}`, and goes only when the whole is pruned again.

How many prunings an entry outlives is its `lifetime`, and pruning once more changes nothing
exactly when no entry that is left has a lifetime to come (`iterate_withoutEmpty_eq_iff`).
-/
import DRCAgent.Connectivity

namespace DRCAgent.Planner

open List
open Connectivity (Json)

abbrev JsonDict := List (String × Json)

/-- The keys of a dictionary. -/
abbrev keys {A : Type} (dict : List (String × A)) : List String := dict.map (·.1)

/-! ## Induction on a value -/

/-- A value that is neither a list nor a dictionary. -/
def isScalar : Json → Bool
  | .array _ => false
  | .object _ => false
  | _ => true

/-- What holds of the scalars, and of a list or a dictionary as soon as it holds of its
parts, holds of every value. -/
theorem jsonInduction {P : Json → Prop} (scalar : ∀ value, isScalar value = true → P value)
    (array : ∀ items, (∀ item ∈ items, P item) → P (.array items))
    (object : ∀ entries : List (String × Json), (∀ entry ∈ entries, P entry.2) →
      P (.object entries)) (value : Json) : P value := by
  refine @Json.rec P (fun items => ∀ item ∈ items, P item)
    (fun entries => ∀ entry ∈ entries, P entry.2) (fun entry => P entry.2)
    (scalar _ rfl) (fun _ => scalar _ rfl) (fun _ => scalar _ rfl) (fun _ => scalar _ rfl)
    (scalar _ rfl) (fun _ => scalar _ rfl) array object ?_ ?_ ?_ ?_ ?_ value
  · exact fun item hitem => absurd hitem not_mem_nil
  · exact fun head tail hhead htail => forall_mem_cons.2 ⟨hhead, htail⟩
  · exact fun entry hentry => absurd hentry not_mem_nil
  · exact fun head tail hhead htail => forall_mem_cons.2 ⟨hhead, htail⟩
  · exact fun _ _ hvalue => hvalue

/-! ## Equality -/

mutual

/-- Whether two values are the same. -/
def sameJson : Json → Json → Bool
  | .null, .null => true
  | .bool a, .bool b => a = b
  | .number a, .number b => a = b
  | .infinity a, .infinity b => a = b
  | .nan, .nan => true
  | .string a, .string b => a = b
  | .array a, .array b => sameItems a b
  | .object a, .object b => sameEntries a b
  | _, _ => false

def sameItems : List Json → List Json → Bool
  | [], [] => true
  | a :: as, b :: bs => sameJson a b && sameItems as bs
  | _, _ => false

def sameEntries : List (String × Json) → List (String × Json) → Bool
  | [], [] => true
  | (k, a) :: as, (l, b) :: bs => k = l && sameJson a b && sameEntries as bs
  | _, _ => false

end

theorem sameItems_iff {items : List Json}
    (ih : ∀ item ∈ items, ∀ other, sameJson item other = true ↔ item = other) :
    ∀ others, sameItems items others = true ↔ items = others := by
  induction items with
  | nil => intro others; cases others <;> simp [sameItems]
  | cons head tail hrec =>
    obtain ⟨hhead, htail⟩ := forall_mem_cons.1 ih
    intro others
    cases others with
    | nil => simp [sameItems]
    | cons other rest => simp [sameItems, hhead, hrec htail]

theorem sameEntries_iff {entries : List (String × Json)}
    (ih : ∀ entry ∈ entries, ∀ other, sameJson entry.2 other = true ↔ entry.2 = other) :
    ∀ others, sameEntries entries others = true ↔ entries = others := by
  induction entries with
  | nil => intro others; cases others <;> simp [sameEntries]
  | cons head tail hrec =>
    obtain ⟨hhead, htail⟩ := forall_mem_cons.1 ih
    obtain ⟨key, value⟩ := head
    intro others
    cases others with
    | nil => simp [sameEntries]
    | cons other rest =>
      obtain ⟨otherKey, otherValue⟩ := other
      simp [sameEntries, hhead, hrec htail]

theorem sameJson_iff (value : Json) : ∀ other, sameJson value other = true ↔ value = other := by
  induction value using jsonInduction with
  | scalar value hvalue =>
    intro other
    cases value <;> cases other <;> simp_all [isScalar, sameJson]
  | array items ih =>
    intro other
    cases other <;> simp [sameJson, sameItems_iff ih]
  | object entries ih =>
    intro other
    cases other <;> simp [sameJson, sameEntries_iff ih]

instance : DecidableEq Json := fun a b => decidable_of_iff _ (sameJson_iff a b)

/-! ## What is pruned -/

/-- `value is None or value == [] or value == {}` -/
def absent : Json → Bool
  | .null => true
  | .array items => items.isEmpty
  | .object entries => entries.isEmpty
  | _ => false

/-- Whether pruning keeps an entry of a dictionary. -/
def kept (key : String) (value : Json) : Bool := key ≠ "schema_version" && !absent value

mutual

/-- `_without_empty` -/
def withoutEmpty : Json → Json
  | .array items => .array (withoutEmptyItems items)
  | .object entries => .object (withoutEmptyEntries entries)
  | value => value

/-- The items of a list, each of which stays. -/
def withoutEmptyItems : List Json → List Json
  | [] => []
  | item :: rest => withoutEmpty item :: withoutEmptyItems rest

/-- The entries of a dictionary. -/
def withoutEmptyEntries : List (String × Json) → List (String × Json)
  | [] => []
  | (key, value) :: rest =>
    if kept key value then (key, withoutEmpty value) :: withoutEmptyEntries rest
    else withoutEmptyEntries rest

end

theorem withoutEmpty_scalar {value : Json} (h : isScalar value = true) :
    withoutEmpty value = value := by
  cases value <;> simp_all [isScalar, withoutEmpty]

theorem withoutEmptyItems_eq (items : List Json) :
    withoutEmptyItems items = items.map withoutEmpty := by
  induction items with
  | nil => rfl
  | cons item rest ih => rw [withoutEmptyItems, ih, map_cons]

theorem withoutEmptyEntries_eq (entries : List (String × Json)) :
    withoutEmptyEntries entries =
      (entries.filter fun entry => kept entry.1 entry.2).map fun entry =>
        (entry.1, withoutEmpty entry.2) := by
  induction entries with
  | nil => rfl
  | cons entry rest ih =>
    rw [withoutEmptyEntries, ih, filter_cons]
    by_cases h : kept entry.1 entry.2 = true
    · simp only [h, if_true, map_cons]
    · simp only [h, Bool.false_eq_true, if_false]

theorem withoutEmpty_array (items : List Json) :
    withoutEmpty (.array items) = .array (items.map withoutEmpty) := by
  rw [withoutEmpty, withoutEmptyItems_eq]

/-- The entries of a pruned dictionary. -/
theorem mem_withoutEmptyEntries {entries : List (String × Json)} {entry : String × Json} :
    entry ∈ withoutEmptyEntries entries ↔
      ∃ value, (entry.1, value) ∈ entries ∧ kept entry.1 value = true ∧
        withoutEmpty value = entry.2 := by
  rw [withoutEmptyEntries_eq, mem_map]
  constructor
  · rintro ⟨old, hold, rfl⟩
    obtain ⟨hmem, hkept⟩ := mem_filter.1 hold
    exact ⟨old.2, hmem, hkept, rfl⟩
  · rintro ⟨value, hmem, hkept, hvalue⟩
    exact ⟨(entry.1, value), mem_filter.2 ⟨hmem, hkept⟩, Prod.ext rfl hvalue⟩

/-- What is under a key of a pruned dictionary. -/
theorem lookup_withoutEmptyEntries {entries : List (String × Json)}
    (hnodup : (entries.map (·.1)).Nodup) (key : String) :
    (withoutEmptyEntries entries).lookup key =
      ((entries.lookup key).filter fun value => kept key value).map withoutEmpty := by
  induction entries with
  | nil => rfl
  | cons entry rest ih =>
    obtain ⟨entryKey, value⟩ := entry
    rw [map_cons, nodup_cons] at hnodup
    have hrest := ih hnodup.2
    rw [withoutEmptyEntries, lookup_cons]
    by_cases hkey : key = entryKey
    · subst hkey
      have hnone : rest.lookup key = none := by
        rw [lookup_eq_none_iff]
        intro other hother
        have hmem : other.1 ∈ rest.map (·.1) := mem_map_of_mem hother
        have hne : other.1 ≠ key := fun h => hnodup.1 (h ▸ hmem)
        simpa using hne.symm
      by_cases hkept : kept key value = true
      · simp [hkept]
      · simp only [Bool.not_eq_true] at hkept
        simp [hkept, hrest, hnone]
    · have hbeq : (key == entryKey) = false := by simpa using hkey
      by_cases hkept : kept entryKey value = true
      · simp [hkept, lookup_cons, hbeq, hrest]
      · simp only [Bool.not_eq_true] at hkept
        simp [hkept, hbeq, hrest]

/-! ## How long an entry stays -/

mutual

/-- The number of prunings after which a value is `None`, `[]` or `{}`. -/
def lifetime : Json → Option ℕ
  | .null => some 0
  | .array items => if items.isEmpty then some 0 else none
  | .object entries => entriesLifetime entries
  | _ => none

/-- A dictionary is empty one pruning after the last of its entries. -/
def entriesLifetime : List (String × Json) → Option ℕ
  | [] => some 0
  | (key, value) :: rest =>
    match if key = "schema_version" then some 0 else lifetime value, entriesLifetime rest with
    | some head, some tail => some (max (head + 1) tail)
    | _, _ => none

end

mutual

/-- Every entry that outlives `n` prunings stays for good. -/
def Settled (n : ℕ) : Json → Prop
  | .array items => SettledItems n items
  | .object entries => SettledEntries n entries
  | _ => True

def SettledItems (n : ℕ) : List Json → Prop
  | [] => True
  | item :: rest => Settled n item ∧ SettledItems n rest

def SettledEntries (n : ℕ) : List (String × Json) → Prop
  | [] => True
  | (key, value) :: rest =>
    (key ≠ "schema_version" → (∀ r, lifetime value = some r → r < n) ∧ Settled n value) ∧
      SettledEntries n rest

end

theorem settledItems_iff (n : ℕ) (items : List Json) :
    SettledItems n items ↔ ∀ item ∈ items, Settled n item := by
  induction items with
  | nil => simp [SettledItems]
  | cons item rest ih => simp [SettledItems, ih]

theorem settledEntries_iff (n : ℕ) (entries : List (String × Json)) :
    SettledEntries n entries ↔ ∀ entry ∈ entries, entry.1 ≠ "schema_version" →
      (∀ r, lifetime entry.2 = some r → r < n) ∧ Settled n entry.2 := by
  induction entries with
  | nil => simp [SettledEntries]
  | cons entry rest ih => rw [SettledEntries, ih, forall_mem_cons]

theorem entriesLifetime_cons (key : String) (value : Json) (rest : List (String × Json)) :
    entriesLifetime ((key, value) :: rest) =
      match if key = "schema_version" then some 0 else lifetime value, entriesLifetime rest with
      | some head, some tail => some (max (head + 1) tail)
      | _, _ => none := by
  rw [entriesLifetime]

theorem entriesLifetime_ne_zero (key : String) (value : Json) (rest : List (String × Json)) :
    entriesLifetime ((key, value) :: rest) ≠ some 0 := by
  rw [entriesLifetime_cons]
  cases if key = "schema_version" then some 0 else lifetime value with
  | none => simp
  | some head => cases entriesLifetime rest <;> simp

/-- A value is absent when nothing of its lifetime is left. -/
theorem absent_iff_lifetime (value : Json) : absent value = true ↔ lifetime value = some 0 := by
  cases value with
  | array items => cases items <;> simp [absent, lifetime]
  | object entries =>
    cases entries with
    | nil => simp [absent, lifetime, entriesLifetime]
    | cons entry rest =>
      have hne := entriesLifetime_ne_zero entry.1 entry.2 rest
      simp [absent, lifetime, hne]
  | _ => simp [absent, lifetime]

/-- An entry that goes at once does not prolong the rest. -/
theorem map_pred_max (tail : Option ℕ) :
    (match some 0, tail with
      | some head, some tail => some (max (head + 1) tail)
      | _, _ => none : Option ℕ).map Nat.pred = tail.map Nat.pred := by
  cases tail with
  | none => rfl
  | some tail =>
    simp only [Option.map_some, Option.some.injEq, Nat.pred_eq_sub_one]
    omega

/-- **A pruning** takes one off every lifetime. -/
theorem lifetime_withoutEmpty (value : Json) :
    lifetime (withoutEmpty value) = (lifetime value).map Nat.pred := by
  induction value using jsonInduction with
  | scalar value hvalue => cases value <;> simp_all [isScalar, withoutEmpty, lifetime]
  | array items =>
    rw [withoutEmpty_array]
    cases items <;> simp [lifetime]
  | object entries ih =>
    rw [withoutEmpty, lifetime, lifetime]
    induction entries with
    | nil => rfl
    | cons entry rest hrec =>
      obtain ⟨key, value⟩ := entry
      obtain ⟨hvalue, hrest⟩ := forall_mem_cons.1 ih
      have htail := hrec hrest
      have habsent := absent_iff_lifetime value
      rw [withoutEmptyEntries, entriesLifetime_cons]
      by_cases hkey : key = "schema_version"
      · simp only [kept, hkey, ne_eq, not_true, decide_false, Bool.false_and,
          Bool.false_eq_true, if_false, if_true, htail]
        exact (map_pred_max _).symm
      · cases hlife : lifetime value with
        | none =>
          have hkept : kept key value = true := by
            simp [kept, hkey, ← Bool.not_eq_true, habsent, hlife]
          simp [hkept, entriesLifetime_cons, hkey, hvalue, hlife]
        | some r =>
          by_cases hzero : r = 0
          · have hkept : kept key value = false := by
              simp [kept, habsent, hlife, hzero]
            simp only [hkept, Bool.false_eq_true, if_false, hkey, htail, hzero]
            exact (map_pred_max _).symm
          · have hkept : kept key value = true := by
              simp [kept, hkey, ← Bool.not_eq_true, habsent, hlife, hzero]
            simp only [hkept, if_true, entriesLifetime_cons, hkey, if_false, hvalue, hlife,
              htail, Option.map_some]
            cases entriesLifetime rest with
            | none => simp
            | some tail =>
              simp only [Option.map_some, Option.some.injEq, Nat.pred_eq_sub_one]
              omega

/-! ## Pruning again -/

theorem kept_iff {key : String} {value : Json} :
    kept key value = true ↔ key ≠ "schema_version" ∧ lifetime value ≠ some 0 := by
  simp [kept, ← Bool.not_eq_true, absent_iff_lifetime]

theorem length_withoutEmptyEntries_le (entries : List (String × Json)) :
    (withoutEmptyEntries entries).length ≤ entries.length := by
  rw [withoutEmptyEntries_eq, length_map]
  exact length_filter_le _ _

/-- A dictionary stays as it is when all of it is kept, and stays as it is. -/
theorem withoutEmptyEntries_eq_self_iff (entries : List (String × Json)) :
    withoutEmptyEntries entries = entries ↔
      ∀ entry ∈ entries, kept entry.1 entry.2 = true ∧ withoutEmpty entry.2 = entry.2 := by
  induction entries with
  | nil => simp [withoutEmptyEntries]
  | cons entry rest ih =>
    obtain ⟨key, value⟩ := entry
    rw [withoutEmptyEntries, forall_mem_cons]
    by_cases hkept : kept key value = true
    · simp [hkept, ih]
    · simp only [hkept, Bool.false_eq_true, if_false, false_and, iff_false]
      intro heq
      have hlength := length_withoutEmptyEntries_le rest
      rw [heq, length_cons] at hlength
      omega

theorem map_eq_self_iff {items : List Json} :
    items.map withoutEmpty = items ↔ ∀ item ∈ items, withoutEmpty item = item := by
  rw [← map_inj_left, map_id']

theorem withoutEmpty_of_lifetime_zero {value : Json} (h : lifetime value = some 0) :
    withoutEmpty value = value := by
  have habsent := (absent_iff_lifetime value).2 h
  cases value with
  | array items =>
    obtain rfl := isEmpty_iff.1 habsent
    rfl
  | object entries =>
    obtain rfl := isEmpty_iff.1 habsent
    rfl
  | _ => rfl

/-- Pruning a second time changes nothing exactly when every entry that is left stays. -/
theorem withoutEmpty_idem_iff (value : Json) :
    withoutEmpty (withoutEmpty value) = withoutEmpty value ↔ Settled 1 value := by
  induction value using jsonInduction with
  | scalar value hvalue => cases value <;> simp_all [isScalar, withoutEmpty, Settled]
  | array items ih =>
    rw [withoutEmpty_array, withoutEmpty_array, Json.array.injEq, map_eq_self_iff,
      forall_mem_map, Settled, settledItems_iff]
    exact forall₂_congr ih
  | object entries ih =>
    rw [withoutEmpty, withoutEmpty, Json.object.injEq, withoutEmptyEntries_eq_self_iff, Settled,
      settledEntries_iff]
    constructor
    · intro hself entry hentry hkey
      have hvalue := ih entry hentry
      by_cases hzero : lifetime entry.2 = some 0
      · have hfix := withoutEmpty_of_lifetime_zero hzero
        refine ⟨fun r hr => ?_, hvalue.1 (congrArg withoutEmpty hfix)⟩
        rw [hzero] at hr
        obtain rfl := Option.some.inj hr
        exact Nat.zero_lt_one
      · have hkept : kept entry.1 entry.2 = true := kept_iff.2 ⟨hkey, hzero⟩
        obtain ⟨hagain, hfix⟩ := hself (entry.1, withoutEmpty entry.2)
          (mem_withoutEmptyEntries.2 ⟨entry.2, hentry, hkept, rfl⟩)
        refine ⟨fun r hr => ?_, hvalue.1 hfix⟩
        have hlife := lifetime_withoutEmpty (withoutEmpty entry.2)
        have hlate := (kept_iff.1 hagain).2
        simp only [hfix, lifetime_withoutEmpty, hr, Option.map_some, Option.some.injEq,
          Nat.pred_eq_sub_one] at hlife hlate
        simp only [ne_eq, Option.some.injEq] at hlate
        omega
    · intro hsettled entry hentry
      obtain ⟨value, hmem, hkept, hvalue⟩ := mem_withoutEmptyEntries.1 hentry
      obtain ⟨hkey, hlife⟩ := kept_iff.1 hkept
      obtain ⟨hbound, hinner⟩ := hsettled _ hmem hkey
      have hnone : lifetime value = none := by
        cases hcase : lifetime value with
        | none => rfl
        | some r =>
          have := hbound r hcase
          simp only [hcase, ne_eq, Option.some.injEq] at hlife
          omega
      rw [← hvalue, (ih _ hmem).2 hinner, kept_iff, lifetime_withoutEmpty, hnone]
      exact ⟨⟨hkey, by simp⟩, rfl⟩

theorem settled_of_lifetime_zero {n : ℕ} {value : Json} (h : lifetime value = some 0) :
    Settled n value := by
  have habsent := (absent_iff_lifetime value).2 h
  cases value with
  | array items =>
    obtain rfl := isEmpty_iff.1 habsent
    trivial
  | object entries =>
    obtain rfl := isEmpty_iff.1 habsent
    trivial
  | _ => trivial

/-- What settles after one more pruning. -/
theorem settled_succ_iff (n : ℕ) (value : Json) :
    Settled (n + 1) value ↔ Settled n (withoutEmpty value) := by
  induction value using jsonInduction with
  | scalar value hvalue => cases value <;> simp_all [isScalar, withoutEmpty, Settled]
  | array items ih =>
    rw [withoutEmpty_array, Settled, Settled, settledItems_iff, settledItems_iff, forall_mem_map]
    exact forall₂_congr ih
  | object entries ih =>
    rw [withoutEmpty, Settled, Settled, settledEntries_iff, settledEntries_iff]
    constructor
    · intro hsettled entry hentry hkey
      obtain ⟨value, hmem, hkept, hvalue⟩ := mem_withoutEmptyEntries.1 hentry
      obtain ⟨hbound, hinner⟩ := hsettled _ hmem hkey
      rw [← hvalue]
      refine ⟨fun r hr => ?_, (ih _ hmem).1 hinner⟩
      rw [lifetime_withoutEmpty, Option.map_eq_some_iff] at hr
      obtain ⟨old, hold, rfl⟩ := hr
      have hlife := (kept_iff.1 hkept).2
      rw [hold, ne_eq, Option.some.injEq] at hlife
      have hle := hbound old hold
      rw [Nat.pred_eq_sub_one]
      omega
    · intro hsettled entry hentry hkey
      by_cases hzero : lifetime entry.2 = some 0
      · refine ⟨fun r hr => ?_, settled_of_lifetime_zero hzero⟩
        rw [hzero] at hr
        obtain rfl := Option.some.inj hr
        exact Nat.succ_pos n
      · have hkept : kept entry.1 entry.2 = true := kept_iff.2 ⟨hkey, hzero⟩
        obtain ⟨hbound, hinner⟩ := hsettled (entry.1, withoutEmpty entry.2)
          (mem_withoutEmptyEntries.2 ⟨entry.2, hentry, hkept, rfl⟩) hkey
        refine ⟨fun r hr => ?_, (ih _ hentry).2 hinner⟩
        have hpred := hbound r.pred (by rw [lifetime_withoutEmpty, hr, Option.map_some])
        rw [Nat.pred_eq_sub_one] at hpred
        omega

/-- **The prunings of a value come to an end**: after `n + 1` of them, one more changes
nothing exactly when every entry that is left then stays. -/
theorem iterate_withoutEmpty_eq_iff (n : ℕ) (value : Json) :
    withoutEmpty (withoutEmpty^[n + 1] value) = withoutEmpty^[n + 1] value ↔
      Settled (n + 1) value := by
  induction n generalizing value with
  | zero => exact withoutEmpty_idem_iff value
  | succ n ih =>
    rw [Function.iterate_succ_apply, ih]
    exact (settled_succ_iff (n + 1) value).symm

/-! ## Python equality -/

/-- The order of two entries by their keys. -/
def keyLe (a b : String × Json) : Prop := a.1 ≤ b.1

instance : DecidableRel keyLe := fun a b => inferInstanceAs (Decidable (a.1 ≤ b.1))

instance : Std.Total keyLe := ⟨fun a b => le_total a.1 b.1⟩

instance : IsTrans (String × Json) keyLe := ⟨fun _ _ _ => le_trans⟩

mutual

/-- A value up to what `==` does not see: the order of the entries of a dictionary, and
that `True` and `False` are not the numbers 1 and 0. -/
def comparable : Json → Json
  | .bool value => .number (if value then 1 else 0)
  | .array items => .array (comparableItems items)
  | .object entries => .object ((comparableEntries entries).insertionSort keyLe)
  | value => value

def comparableItems : List Json → List Json
  | [] => []
  | item :: rest => comparable item :: comparableItems rest

def comparableEntries : List (String × Json) → List (String × Json)
  | [] => []
  | (key, value) :: rest => (key, comparable value) :: comparableEntries rest

end

/-- `a == b` -/
def PyEq (a b : Json) : Prop := comparable a = comparable b

instance (a b : Json) : Decidable (PyEq a b) := inferInstanceAs (Decidable (_ = _))

theorem PyEq.refl (a : Json) : PyEq a a := rfl

theorem PyEq.symm {a b : Json} (h : PyEq a b) : PyEq b a := Eq.symm h

theorem PyEq.trans {a b c : Json} (hab : PyEq a b) (hbc : PyEq b c) : PyEq a c :=
  Eq.trans hab hbc

theorem comparableItems_eq (items : List Json) : comparableItems items = items.map comparable := by
  induction items with
  | nil => rfl
  | cons item rest ih => rw [comparableItems, ih, map_cons]

theorem comparableEntries_eq (entries : List (String × Json)) :
    comparableEntries entries = entries.map fun entry => (entry.1, comparable entry.2) := by
  induction entries with
  | nil => rfl
  | cons entry rest ih => rw [comparableEntries, ih, map_cons]

theorem absent_comparable (value : Json) : absent (comparable value) = absent value := by
  cases value with
  | array items => cases items <;> rfl
  | object entries =>
    rw [comparable, absent, absent, Bool.eq_iff_iff, List.isEmpty_iff, List.isEmpty_iff,
      ← length_eq_zero_iff, length_insertionSort, comparableEntries_eq,
      length_map, length_eq_zero_iff]
  | _ => rfl

theorem kept_comparable (key : String) (value : Json) :
    kept key (comparable value) = kept key value := by
  rw [kept, kept, absent_comparable]

/-- The entries that pass a test stay in order. -/
theorem filter_orderedInsert (p : String × Json → Bool) (entry : String × Json)
    {entries : List (String × Json)} (hsorted : entries.Pairwise keyLe) :
    (entries.orderedInsert keyLe entry).filter p =
      if p entry then (entries.filter p).orderedInsert keyLe entry else entries.filter p := by
  induction entries with
  | nil => by_cases h : p entry = true <;> simp [h]
  | cons head tail ih =>
    obtain ⟨hhead, htail⟩ := pairwise_cons.1 hsorted
    have hrest := ih htail
    by_cases hle : keyLe entry head
    · rw [orderedInsert_cons_of_le keyLe _ hle]
      by_cases hentry : p entry = true
      · rw [filter_cons_of_pos hentry, if_pos hentry]
        -- what is left of the list starts no earlier than its head
        cases hkept : (head :: tail).filter p with
        | nil => rfl
        | cons first rest =>
          have hfirst : first ∈ head :: tail :=
            mem_of_mem_filter (hkept ▸ mem_cons_self)
          have hbelow : keyLe head first := by
            rcases mem_cons.1 hfirst with rfl | hmem
            · exact le_rfl
            · exact hhead first hmem
          rw [orderedInsert_cons_of_le keyLe _ (le_trans hle hbelow)]
      · rw [filter_cons_of_neg hentry, if_neg hentry]
    · rw [orderedInsert_of_not_le keyLe _ hle, filter_cons, filter_cons, hrest]
      by_cases hhead : p head = true <;> by_cases hentry : p entry = true <;>
        simp [hhead, hentry, hle]

theorem filter_insertionSort (p : String × Json → Bool) (entries : List (String × Json)) :
    (entries.insertionSort keyLe).filter p = (entries.filter p).insertionSort keyLe := by
  induction entries with
  | nil => rfl
  | cons entry rest ih =>
    rw [insertionSort_cons, filter_orderedInsert p entry (pairwise_insertionSort _ _),
      ih, filter_cons]
    split_ifs <;> rfl

/-- Pruning respects equality. -/
theorem comparable_withoutEmpty (value : Json) :
    comparable (withoutEmpty value) = withoutEmpty (comparable value) := by
  induction value using jsonInduction with
  | scalar value hvalue =>
    cases value <;> simp_all [isScalar, withoutEmpty, comparable]
  | array items ih =>
    rw [withoutEmpty_array, comparable, comparable, comparableItems_eq, comparableItems_eq,
      withoutEmpty_array, map_map, map_map]
    exact congrArg Json.array (map_congr_left ih)
  | object entries ih =>
    have hsort : ∀ (g : Json → Json) (l : List (String × Json)),
        (l.insertionSort keyLe).map (fun entry => (entry.1, g entry.2)) =
          (l.map fun entry => (entry.1, g entry.2)).insertionSort keyLe :=
      fun g l => map_insertionSort keyLe keyLe _ l fun _ _ _ _ => Iff.rfl
    rw [withoutEmpty, comparable, comparable, withoutEmpty, comparableEntries_eq,
      comparableEntries_eq, withoutEmptyEntries_eq, withoutEmptyEntries_eq, filter_insertionSort,
      hsort]
    congr 2
    rw [filter_map, map_map, map_map]
    have hfilter : entries.filter ((fun entry : String × Json => kept entry.1 entry.2) ∘
        fun entry => (entry.1, comparable entry.2)) =
          entries.filter fun entry => kept entry.1 entry.2 :=
      filter_congr fun entry _ => kept_comparable entry.1 entry.2
    rw [hfilter]
    refine map_congr_left fun entry hentry => ?_
    exact congrArg (Prod.mk entry.1) (ih entry (mem_of_mem_filter hentry))

theorem PyEq.withoutEmpty {a b : Json} (h : PyEq a b) :
    PyEq (withoutEmpty a) (withoutEmpty b) := by
  rw [PyEq, comparable_withoutEmpty, comparable_withoutEmpty, h]

theorem withoutEmpty_object_eq_self_iff (entries : List (String × Json)) :
    withoutEmpty (.object entries) = .object entries ↔
      ∀ entry ∈ entries, kept entry.1 entry.2 = true ∧ withoutEmpty entry.2 = entry.2 := by
  rw [withoutEmpty, Json.object.injEq, withoutEmptyEntries_eq_self_iff]

/-- What pruning leaves as it is does not depend on the order of the entries. -/
theorem withoutEmpty_comparable_eq_self_iff (value : Json) :
    withoutEmpty (comparable value) = comparable value ↔ withoutEmpty value = value := by
  induction value using jsonInduction with
  | scalar value hvalue => cases value <;> simp_all [isScalar, withoutEmpty, comparable]
  | array items ih =>
    rw [comparable, comparableItems_eq, withoutEmpty_array, withoutEmpty_array,
      Json.array.injEq, Json.array.injEq, map_eq_self_iff, map_eq_self_iff, forall_mem_map]
    exact forall₂_congr ih
  | object entries ih =>
    have hperm := perm_insertionSort keyLe (comparableEntries entries)
    rw [comparable, withoutEmpty_object_eq_self_iff, withoutEmpty_object_eq_self_iff,
      comparableEntries_eq]
    rw [comparableEntries_eq] at hperm
    simp only [hperm.mem_iff]
    rw [forall_mem_map]
    refine forall₂_congr fun entry hentry => ?_
    rw [kept_comparable, ih entry hentry]

theorem PyEq.eq_self_iff {a b : Json} (h : PyEq a b) :
    Planner.withoutEmpty a = a ↔ Planner.withoutEmpty b = b := by
  rw [← withoutEmpty_comparable_eq_self_iff, h, withoutEmpty_comparable_eq_self_iff]

theorem PyEq.absent_eq {a b : Json} (h : PyEq a b) : absent a = absent b := by
  rw [← absent_comparable, h, absent_comparable]

theorem all_kept_of_length {entries : List (String × Json)}
    (h : (withoutEmptyEntries entries).length = entries.length) :
    ∀ entry ∈ entries, kept entry.1 entry.2 = true := by
  rw [withoutEmptyEntries_eq, length_map, length_filter_eq_length_iff] at h
  exact h

/-- What two prunings leave as it is, one leaves as it is. -/
theorem withoutEmpty_eq_self_of_twice {value : Json}
    (h : withoutEmpty (withoutEmpty value) = value) : withoutEmpty value = value := by
  induction value using jsonInduction with
  | scalar value hvalue => exact withoutEmpty_scalar hvalue
  | array items ih =>
    rw [withoutEmpty_array, withoutEmpty_array, map_map, Json.array.injEq] at h
    rw [withoutEmpty_array, Json.array.injEq, map_eq_self_iff]
    intro item hitem
    refine ih item hitem ?_
    have hmap : items.map (withoutEmpty ∘ withoutEmpty) = items.map id := by
      rw [h, map_id]
    exact map_inj_left.1 hmap item hitem
  | object entries ih =>
    rw [withoutEmpty, withoutEmpty, Json.object.injEq] at h
    rw [withoutEmpty_object_eq_self_iff]
    intro entry hentry
    -- nothing is lost on the way, so that everything is kept
    have hlength := length_withoutEmptyEntries_le (withoutEmptyEntries entries)
    have hlength' := length_withoutEmptyEntries_le entries
    rw [h] at hlength
    have hkept := all_kept_of_length (le_antisymm hlength' hlength)
    have hmap : withoutEmptyEntries entries = entries.map fun e => (e.1, withoutEmpty e.2) := by
      rw [withoutEmptyEntries_eq, filter_eq_self.2 hkept]
    have hkeptAgain : ∀ e ∈ withoutEmptyEntries entries, kept e.1 e.2 = true :=
      all_kept_of_length (by rw [h]; exact le_antisymm hlength hlength')
    rw [withoutEmptyEntries_eq (withoutEmptyEntries entries), filter_eq_self.2 hkeptAgain,
      hmap, map_map] at h
    have hid : entries.map ((fun e => (e.1, withoutEmpty e.2)) ∘
        fun e : String × Json => (e.1, withoutEmpty e.2)) = entries.map id := by
      rw [h, map_id]
    have heq := map_inj_left.1 hid entry hentry
    exact ⟨hkept entry hentry, ih entry hentry (congrArg Prod.snd heq)⟩

/-! ## Dictionaries that are pruned -/

/-- The entries of a dictionary in a dictionary. -/
def entriesUnder (key : String) (dict : JsonDict) : JsonDict :=
  match dict.lookup key with
  | some (.object entries) => entries
  | _ => []

/-- What is under a key of a pruned dictionary is pruned. -/
theorem entriesUnder_withoutEmptyEntries {dict : JsonDict} (hnodup : (keys dict).Nodup)
    {key : String} (hkey : key ≠ "schema_version") :
    entriesUnder key (withoutEmptyEntries dict) = withoutEmptyEntries (entriesUnder key dict) := by
  rw [entriesUnder, entriesUnder, lookup_withoutEmptyEntries hnodup]
  cases hlookup : dict.lookup key with
  | none => rfl
  | some value =>
    by_cases hkept : kept key value = true
    · simp only [Option.filter, hkept, if_true, Option.map_some]
      cases value <;> rfl
    · have habsent : absent value = true := by
        simpa [kept, hkey] using hkept
      simp only [Option.filter, hkept, Bool.false_eq_true, if_false, Option.map_none]
      cases value with
      | object entries =>
        obtain rfl := isEmpty_iff.1 habsent
        rfl
      | _ => rfl

theorem nodup_withoutEmptyEntries {dict : JsonDict} (h : (keys dict).Nodup) :
    (keys (withoutEmptyEntries dict)).Nodup := by
  rw [withoutEmptyEntries_eq, keys, map_map]
  exact h.sublist (filter_sublist.map _)

theorem lifetime_eq_none_of_stays {value : Json} (hfix : withoutEmpty value = value)
    (hpresent : lifetime value ≠ some 0) : lifetime value = none := by
  have hpred := lifetime_withoutEmpty value
  rw [hfix] at hpred
  cases hlife : lifetime value with
  | none => rfl
  | some n =>
    rw [hlife] at hpred hpresent
    simp only [Option.map_some, Option.some.injEq, Nat.pred_eq_sub_one, ne_eq] at hpred hpresent
    omega

theorem lifetime_iterate_eq_none_iff (n : ℕ) (value : Json) :
    lifetime (withoutEmpty^[n] value) = none ↔ lifetime value = none := by
  induction n generalizing value with
  | zero => rfl
  | succ n ih => rw [Function.iterate_succ_apply, ih, lifetime_withoutEmpty, Option.map_eq_none_iff]

/-- A value with something in it is still found after any number of prunings. -/
theorem lookup_iterate_of_lifetime {dict : JsonDict} (hnodup : (keys dict).Nodup) {key : String}
    (hkey : key ≠ "schema_version") {value : Json} (hvalue : dict.lookup key = some value)
    (hlife : lifetime value = none) (n : ℕ) :
    (withoutEmptyEntries^[n] dict).lookup key = some (withoutEmpty^[n] value) := by
  induction n generalizing dict value with
  | zero => exact hvalue
  | succ n ih =>
    have hkept : kept key value = true := kept_iff.2 ⟨hkey, by rw [hlife]; exact nofun⟩
    rw [Function.iterate_succ_apply, Function.iterate_succ_apply]
    refine ih (nodup_withoutEmptyEntries hnodup) ?_ ?_
    · rw [lookup_withoutEmptyEntries hnodup, hvalue, Option.filter, if_pos hkept, Option.map_some]
    · rw [lifetime_withoutEmpty, hlife, Option.map_none]

theorem of_lookup_withoutEmptyEntries {dict : JsonDict} (hnodup : (keys dict).Nodup)
    {key : String} {found : Json} (h : (withoutEmptyEntries dict).lookup key = some found) :
    ∃ value, dict.lookup key = some value ∧ found = withoutEmpty value ∧
      lifetime value ≠ some 0 := by
  rw [lookup_withoutEmptyEntries hnodup, Option.map_eq_some_iff] at h
  obtain ⟨value, hvalue, rfl⟩ := h
  obtain ⟨hvalue, hkept⟩ := Option.filter_eq_some_iff.1 hvalue
  exact ⟨value, hvalue, rfl, (kept_iff.1 hkept).2⟩

/-- What is found after some prunings was there, and has been pruned as often. -/
theorem of_lookup_iterate {dict : JsonDict} (hnodup : (keys dict).Nodup) {key : String}
    {found : Json} {n : ℕ} (h : (withoutEmptyEntries^[n + 1] dict).lookup key = some found) :
    ∃ value, dict.lookup key = some value ∧ found = withoutEmpty^[n + 1] value ∧
      lifetime value ≠ some 0 := by
  induction n generalizing dict with
  | zero => exact of_lookup_withoutEmptyEntries hnodup h
  | succ n ih =>
    rw [Function.iterate_succ_apply] at h
    obtain ⟨middle, hmiddle, rfl, -⟩ := ih (nodup_withoutEmptyEntries hnodup) h
    obtain ⟨value, hvalue, rfl, hpresent⟩ := of_lookup_withoutEmptyEntries hnodup hmiddle
    exact ⟨value, hvalue, (Function.iterate_succ_apply _ _ _).symm, hpresent⟩

theorem PyEq.lifetime_eq_zero_iff {a b : Json} (h : PyEq a b) :
    lifetime a = some 0 ↔ lifetime b = some 0 := by
  rw [← absent_iff_lifetime, ← absent_iff_lifetime, h.absent_eq]

end DRCAgent.Planner
