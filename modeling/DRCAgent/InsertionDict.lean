/-
# Insertion-ordered dictionaries

A small library: a dictionary as the list of its entries in the order of their first
insertion. An assignment to a key that is there replaces the value in place; one to a
new key goes to the end.

* `ofList` of entries with distinct keys is the list itself (`ofList_of_nodup`).
* `append` collects values under keys; over a whole list it loses and duplicates
  nothing, and leaves no key without a value (`append_perm`, `append_ne_nil`); what is
  found under a key then are the values of its entries in order (`lookup_collect`).
-/
import Mathlib.Data.List.Nodup

namespace Dicts

open List

universe u v w

variable {K : Type u} {V : Type v} [DecidableEq K]

/-- `dict[key] = value` -/
def insert (key : K) (value : V) : List (K × V) → List (K × V)
  | [] => [(key, value)]
  | (k, v) :: rest => if k = key then (k, value) :: rest else (k, v) :: insert key value rest

/-- The dictionary that assignments in this order build. -/
def ofList (entries : List (K × V)) : List (K × V) :=
  entries.foldl (fun dict entry => insert entry.1 entry.2 dict) []

/-- `dict.setdefault(key, []).append(value)` -/
def append (key : K) (value : V) : List (K × List V) → List (K × List V)
  | [] => [(key, [value])]
  | (k, vs) :: rest =>
    if k = key then (k, vs ++ [value]) :: rest else (k, vs) :: append key value rest

section Insert

/-- A new key goes to the end. -/
theorem insert_of_notMem {key : K} {value : V} {dict : List (K × V)}
    (h : key ∉ dict.map (·.1)) : insert key value dict = dict ++ [(key, value)] := by
  induction dict with
  | nil => rfl
  | cons entry rest ih =>
    rw [map_cons, mem_cons, not_or] at h
    obtain ⟨hne, hrest⟩ := h
    show (if entry.1 = key then _ else entry :: insert key value rest) = _
    rw [if_neg (Ne.symm hne), ih hrest]
    rfl

/-- An assignment to a key that is there leaves the keys as they are. -/
theorem keys_insert_of_mem {key : K} {value : V} {dict : List (K × V)}
    (h : key ∈ dict.map (·.1)) : (insert key value dict).map (·.1) = dict.map (·.1) := by
  induction dict with
  | nil => cases h
  | cons entry rest ih =>
    show (if entry.1 = key then _ else entry :: insert key value rest).map (·.1) = _
    by_cases hkey : entry.1 = key
    · rw [if_pos hkey, map_cons, map_cons, hkey]
    · rw [map_cons, mem_cons] at h
      rw [if_neg hkey, map_cons, map_cons, ih (h.resolve_left (Ne.symm hkey))]

/-- The keys after an assignment. -/
theorem mem_keys_insert {key k : K} {value : V} {dict : List (K × V)} :
    k ∈ (insert key value dict).map (·.1) ↔ k = key ∨ k ∈ dict.map (·.1) := by
  induction dict with
  | nil => simp [insert]
  | cons entry rest ih =>
    show k ∈ (if entry.1 = key then _ else entry :: insert key value rest).map (·.1) ↔ _
    by_cases hkey : entry.1 = key
    · rw [if_pos hkey]
      simp only [map_cons, mem_cons, hkey]
      tauto
    · rw [if_neg hkey]
      simp only [map_cons, mem_cons, ih]
      tauto

theorem nodup_keys_insert {key : K} {value : V} {dict : List (K × V)}
    (h : (dict.map (·.1)).Nodup) : ((insert key value dict).map (·.1)).Nodup := by
  induction dict with
  | nil => simp [insert]
  | cons entry rest ih =>
    rw [map_cons, nodup_cons] at h
    obtain ⟨hnotMem, hrest⟩ := h
    show ((if entry.1 = key then _ else entry :: insert key value rest).map (·.1)).Nodup
    by_cases hkey : entry.1 = key
    · rw [if_pos hkey, map_cons, nodup_cons]
      exact ⟨hnotMem, hrest⟩
    · rw [if_neg hkey, map_cons, nodup_cons]
      refine ⟨?_, ih hrest⟩
      rw [mem_keys_insert, not_or]
      exact ⟨hkey, hnotMem⟩

/-- The keys of a dictionary are distinct. -/
theorem nodup_keys_ofList (entries : List (K × V)) : ((ofList entries).map (·.1)).Nodup := by
  have hfold : ∀ dict : List (K × V), (dict.map (·.1)).Nodup →
      ((entries.foldl (fun dict entry => insert entry.1 entry.2 dict) dict).map (·.1)).Nodup := by
    induction entries with
    | nil =>
      intro dict hdict
      exact hdict
    | cons entry rest ih =>
      intro dict hdict
      exact ih _ (nodup_keys_insert hdict)
  exact hfold [] nodup_nil

/-- The dictionary has the keys it was built with. -/
theorem mem_keys_ofList {k : K} {entries : List (K × V)} :
    k ∈ (ofList entries).map (·.1) ↔ k ∈ entries.map (·.1) := by
  have hfold : ∀ dict : List (K × V),
      k ∈ (entries.foldl (fun dict entry => insert entry.1 entry.2 dict) dict).map (·.1) ↔
        k ∈ dict.map (·.1) ∨ k ∈ entries.map (·.1) := by
    induction entries with
    | nil =>
      intro dict
      simp
    | cons entry rest ih =>
      intro dict
      rw [foldl_cons, ih, mem_keys_insert, map_cons, mem_cons]
      tauto
  have hkeys := hfold []
  rw [map_nil] at hkeys
  simpa [ofList] using hkeys

theorem mem_insert {key : K} {value : V} {dict : List (K × V)} {entry : K × V}
    (h : entry ∈ insert key value dict) : entry = (key, value) ∨ entry ∈ dict := by
  induction dict with
  | nil =>
    left
    exact mem_singleton.1 h
  | cons first rest ih =>
    have h : entry ∈ (if first.1 = key then (first.1, value) :: rest
      else first :: insert key value rest) := h
    by_cases hkey : first.1 = key
    · rw [if_pos hkey, mem_cons, hkey] at h
      rcases h with h | h
      · exact Or.inl h
      · exact Or.inr (mem_cons_of_mem first h)
    · rw [if_neg hkey, mem_cons] at h
      rcases h with h | h
      · right
        rw [h]
        exact mem_cons_self
      · rcases ih h with h | h
        · exact Or.inl h
        · exact Or.inr (mem_cons_of_mem first h)

/-- What the dictionary has was assigned. -/
theorem mem_ofList {entries : List (K × V)} {entry : K × V} (h : entry ∈ ofList entries) :
    entry ∈ entries := by
  have hfold : ∀ dict : List (K × V),
      entry ∈ entries.foldl (fun dict entry => insert entry.1 entry.2 dict) dict →
        entry ∈ dict ∨ entry ∈ entries := by
    clear h
    induction entries with
    | nil =>
      intro dict h
      exact Or.inl h
    | cons first rest ih =>
      intro dict h
      rw [foldl_cons] at h
      rcases ih _ h with h | h
      · rcases mem_insert h with h | h
        · right
          rw [h]
          exact mem_cons_self
        · exact Or.inl h
      · exact Or.inr (mem_cons_of_mem first h)
  rcases hfold [] h with h | h
  · cases h
  · exact h

/-- Entries with distinct keys are their dictionary. -/
theorem ofList_of_nodup {entries : List (K × V)} (h : (entries.map (·.1)).Nodup) :
    ofList entries = entries := by
  have hfold : ∀ dict : List (K × V), ((dict ++ entries).map (·.1)).Nodup →
      entries.foldl (fun dict entry => insert entry.1 entry.2 dict) dict = dict ++ entries := by
    clear h
    induction entries with
    | nil =>
      intro dict _
      exact (append_nil dict).symm
    | cons entry rest ih =>
      intro dict hdict
      have hnotMem : entry.1 ∉ dict.map (·.1) := by
        rw [map_append, map_cons, nodup_append] at hdict
        intro hmem
        exact hdict.2.2 _ hmem _ mem_cons_self rfl
      rw [foldl_cons, insert_of_notMem hnotMem]
      have hassoc : dict ++ entry :: rest = (dict ++ [entry]) ++ rest := by
        rw [append_assoc]
        rfl
      rw [hassoc] at hdict ⊢
      exact ih _ hdict
  exact hfold [] h

variable {W : Type*}

/-- A map of the values passes through an assignment. -/
theorem insert_map (f : V → W) (key : K) (value : V) (dict : List (K × V)) :
    insert key (f value) (dict.map (Prod.map id f)) =
      (insert key value dict).map (Prod.map id f) := by
  induction dict with
  | nil => rfl
  | cons entry rest ih =>
    show (if entry.1 = key then _ else Prod.map id f entry :: insert key (f value) (rest.map _)) =
      (if entry.1 = key then _ else entry :: insert key value rest).map _
    rw [ih]
    split_ifs
    · rfl
    · rfl

/-- A map of the values passes through the assignments. -/
theorem ofList_map (f : V → W) (entries : List (K × V)) :
    ofList (entries.map (Prod.map id f)) = (ofList entries).map (Prod.map id f) := by
  have hfold : ∀ dict : List (K × V),
      (entries.map (Prod.map id f)).foldl (fun dict entry => insert entry.1 entry.2 dict)
          (dict.map (Prod.map id f)) =
        (entries.foldl (fun dict entry => insert entry.1 entry.2 dict) dict).map
          (Prod.map id f) := by
    induction entries with
    | nil =>
      intro dict
      rfl
    | cons entry rest ih =>
      intro dict
      rw [map_cons, foldl_cons, foldl_cons, ← ih]
      congr 1
      exact insert_map f entry.1 entry.2 dict
  exact hfold []

/-- Assignments under the same keys, with values that are related. -/
theorem insert_forall₂ {R : V → W → Prop} {key : K} {value : V} {value' : W}
    (hvalue : R value value') {dict : List (K × V)} {dict' : List (K × W)}
    (h : List.Forall₂ (fun a b => a.1 = b.1 ∧ R a.2 b.2) dict dict') :
    List.Forall₂ (fun a b => a.1 = b.1 ∧ R a.2 b.2) (insert key value dict)
      (insert key value' dict') := by
  induction h with
  | nil => exact .cons ⟨rfl, hvalue⟩ .nil
  | @cons a b rest rest' hab hrest ih =>
    obtain ⟨k, v⟩ := a
    obtain ⟨k', w⟩ := b
    obtain ⟨rfl, hvw⟩ : k = k' ∧ R v w := hab
    rw [insert, insert]
    split_ifs
    · exact .cons ⟨rfl, hvalue⟩ hrest
    · exact .cons ⟨rfl, hvw⟩ ih

/-- Dictionaries of entries with the same keys, with values that are related. -/
theorem ofList_forall₂ {R : V → W → Prop} {entries : List (K × V)} {entries' : List (K × W)}
    (h : List.Forall₂ (fun a b => a.1 = b.1 ∧ R a.2 b.2) entries entries') :
    List.Forall₂ (fun a b => a.1 = b.1 ∧ R a.2 b.2) (ofList entries) (ofList entries') := by
  have hfold : ∀ (dict : List (K × V)) (dict' : List (K × W)),
      List.Forall₂ (fun a b => a.1 = b.1 ∧ R a.2 b.2) dict dict' →
        List.Forall₂ (fun a b => a.1 = b.1 ∧ R a.2 b.2)
          (entries.foldl (fun dict entry => insert entry.1 entry.2 dict) dict)
          (entries'.foldl (fun dict entry => insert entry.1 entry.2 dict) dict') := by
    induction h with
    | nil => exact fun _ _ hdict => hdict
    | @cons a b _ _ hab _ ih =>
      intro dict dict' hdict
      refine ih _ _ ?_
      show List.Forall₂ _ (insert a.1 a.2 dict) (insert b.1 b.2 dict')
      rw [← hab.1]
      exact insert_forall₂ hab.2 hdict
  exact hfold [] [] .nil

end Insert

section Lookup

theorem mem_of_lookup {dict : List (K × V)} {key : K} {value : V}
    (h : dict.lookup key = some value) : (key, value) ∈ dict := by
  obtain ⟨before, after, rfl, -⟩ := lookup_eq_some_iff.1 h
  exact mem_append_right before mem_cons_self

/-- A dictionary finds its entries. -/
theorem lookup_of_mem {dict : List (K × V)} {entry : K × V} (hnodup : (dict.map (·.1)).Nodup)
    (h : entry ∈ dict) : dict.lookup entry.1 = some entry.2 := by
  induction dict with
  | nil => cases h
  | cons first rest ih =>
    rw [map_cons, nodup_cons] at hnodup
    rcases mem_cons.1 h with rfl | h
    · exact lookup_cons_self
    · have hne : entry.1 ≠ first.1 := by
        intro heq
        apply hnodup.1
        rw [← heq]
        exact mem_map_of_mem h
      rw [lookup_cons, beq_eq_false_iff_ne.2 hne]
      exact ih hnodup.2 h

/-- What is found after an assignment. -/
theorem lookup_insert (key k : K) (value : V) (dict : List (K × V)) :
    (insert key value dict).lookup k = if k = key then some value else dict.lookup k := by
  induction dict with
  | nil =>
    rw [insert, lookup_cons, lookup_nil]
    by_cases hk : k = key
    · simp [hk]
    · simp [hk, beq_eq_false_iff_ne.2 hk]
  | cons entry rest ih =>
    obtain ⟨first, old⟩ := entry
    rw [insert]
    by_cases hfirst : k = first
    · subst hfirst
      by_cases hkey : k = key
      · rw [if_pos hkey, if_pos hkey, lookup_cons_self]
      · rw [if_neg hkey, if_neg hkey, lookup_cons_self, lookup_cons_self]
    · have hbeq : (k == first) = false := beq_eq_false_iff_ne.2 hfirst
      by_cases hkey : first = key
      · rw [if_pos hkey, lookup_cons, lookup_cons, hbeq, if_neg (hkey ▸ hfirst)]
      · rw [if_neg hkey, lookup_cons, lookup_cons, hbeq]
        exact ih

/-- What is found is what was assigned last. -/
theorem lookup_ofList (entries : List (K × V)) (k : K) :
    (ofList entries).lookup k = entries.reverse.lookup k := by
  have hfold : ∀ dict : List (K × V),
      (entries.foldl (fun dict entry => insert entry.1 entry.2 dict) dict).lookup k =
        (entries.reverse.lookup k).or (dict.lookup k) := by
    induction entries with
    | nil => exact fun _ => rfl
    | cons entry rest ih =>
      intro dict
      rw [foldl_cons, ih, lookup_insert, reverse_cons, List.lookup_append, Option.or_assoc]
      congr 1
      by_cases hk : k = entry.1
      · rw [if_pos hk, lookup_cons, beq_iff_eq.2 hk]
        rfl
      · rw [if_neg hk, lookup_cons, beq_eq_false_iff_ne.2 hk]
        rfl
  have hempty := hfold []
  rw [lookup_nil, Option.or_none] at hempty
  exact hempty

/-- The order of the entries does not matter to what is found. -/
theorem lookup_perm {dict dict' : List (K × V)} (hnodup : (dict.map (·.1)).Nodup)
    (h : dict.Perm dict') (k : K) : dict'.lookup k = dict.lookup k := by
  have hnodup' : (dict'.map (·.1)).Nodup := ((h.map _).nodup_iff).1 hnodup
  cases hlookup : dict.lookup k with
  | none =>
    cases hlookup' : dict'.lookup k with
    | none => rfl
    | some value =>
      have hmem : (k, value) ∈ dict := h.mem_iff.2 (mem_of_lookup hlookup')
      rw [lookup_of_mem hnodup hmem] at hlookup
      cases hlookup
  | some value =>
    have hmem : (k, value) ∈ dict' := h.mem_iff.1 (mem_of_lookup hlookup)
    exact lookup_of_mem hnodup' hmem

/-- The values of a dictionary through a function. -/
theorem lookup_map_value {W : Type w} (f : V → W) (dict : List (K × V)) (k : K) :
    (dict.map fun entry => (entry.1, f entry.2)).lookup k = (dict.lookup k).map f := by
  induction dict with
  | nil => rfl
  | cons entry rest ih =>
    rw [map_cons, lookup_cons, lookup_cons, ih]
    cases k == entry.1 <;> rfl

/-- The values of the keys are the values. -/
theorem filterMap_lookup {dict : List (K × V)} (hnodup : (dict.map (·.1)).Nodup) :
    ((dict.map (·.1)).filterMap fun key => dict.lookup key) = dict.map (·.2) := by
  rw [filterMap_map, ← filterMap_eq_map]
  refine filterMap_congr fun entry hentry => ?_
  exact lookup_of_mem hnodup hentry

end Lookup

section Append

/-- What is collected gains the value. -/
theorem append_perm (key : K) (value : V) (dict : List (K × List V)) :
    ((append key value dict).map (·.2)).flatten.Perm (value :: (dict.map (·.2)).flatten) := by
  induction dict with
  | nil => exact Perm.refl _
  | cons entry rest ih =>
    show ((if entry.1 = key then _ else entry :: append key value rest).map (·.2)).flatten.Perm _
    by_cases hkey : entry.1 = key
    · rw [if_pos hkey]
      simp only [map_cons, flatten_cons]
      calc (entry.2 ++ [value]) ++ (rest.map (·.2)).flatten
          = entry.2 ++ value :: (rest.map (·.2)).flatten := by
            rw [append_assoc]
            rfl
        _ |>.Perm (value :: (entry.2 ++ (rest.map (·.2)).flatten)) := perm_middle
    · rw [if_neg hkey]
      simp only [map_cons, flatten_cons]
      exact (ih.append_left entry.2).trans perm_middle

/-- No key is left without a value. -/
theorem append_ne_nil {key : K} {value : V} {dict : List (K × List V)}
    (h : ∀ entry ∈ dict, entry.2 ≠ []) : ∀ entry ∈ append key value dict, entry.2 ≠ [] := by
  induction dict with
  | nil =>
    intro entry hentry
    rw [append, mem_singleton] at hentry
    rw [hentry]
    exact cons_ne_nil value []
  | cons first rest ih =>
    intro entry hentry
    have hentry : entry ∈ (if first.1 = key then (first.1, first.2 ++ [value]) :: rest
      else first :: append key value rest) := hentry
    by_cases hkey : first.1 = key
    · rw [if_pos hkey, mem_cons] at hentry
      rcases hentry with rfl | hentry
      · exact append_ne_nil_of_right_ne_nil _ (cons_ne_nil value [])
      · exact h entry (mem_cons_of_mem _ hentry)
    · rw [if_neg hkey, mem_cons] at hentry
      rcases hentry with rfl | hentry
      · exact h entry mem_cons_self
      · exact ih (fun e he => h e (mem_cons_of_mem _ he)) entry hentry

/-- The keys after a value is collected. -/
theorem mem_keys_append {k key : K} {value : V} {dict : List (K × List V)} :
    k ∈ (append key value dict).map (·.1) ↔ k = key ∨ k ∈ dict.map (·.1) := by
  induction dict with
  | nil => simp [append]
  | cons first rest ih =>
    rw [append]
    by_cases hkey : first.1 = key
    · rw [if_pos hkey, map_cons, map_cons, mem_cons, ← hkey]
      tauto
    · rw [if_neg hkey, map_cons, mem_cons, ih, map_cons, mem_cons]
      tauto

/-- Collecting keeps the keys distinct. -/
theorem nodup_keys_append {key : K} {value : V} {dict : List (K × List V)}
    (h : (dict.map (·.1)).Nodup) : ((append key value dict).map (·.1)).Nodup := by
  induction dict with
  | nil => simp [append]
  | cons first rest ih =>
    rw [map_cons, nodup_cons] at h
    rw [append]
    by_cases hkey : first.1 = key
    · rw [if_pos hkey, map_cons, nodup_cons]
      exact h
    · rw [if_neg hkey, map_cons, nodup_cons, mem_keys_append]
      refine ⟨?_, ih h.2⟩
      rintro (heq | hmem)
      · exact hkey heq
      · exact h.1 hmem

/-- What is found under a key after a value is collected. -/
theorem lookup_append (key k : K) (value : V) (dict : List (K × List V)) :
    ((append key value dict).lookup k).getD [] =
      (dict.lookup k).getD [] ++ if key = k then [value] else [] := by
  induction dict with
  | nil =>
    rw [append, lookup_cons, lookup_nil]
    by_cases hkey : key = k
    · simp [hkey]
    · simp [hkey, beq_eq_false_iff_ne.2 (Ne.symm hkey)]
  | cons first rest ih =>
    obtain ⟨firstKey, values⟩ := first
    rw [append]
    by_cases hfirst : k = firstKey
    · subst hfirst
      by_cases hkey : k = key
      · rw [if_pos hkey, if_pos hkey.symm, lookup_cons_self, lookup_cons_self]
        rfl
      · rw [if_neg hkey, if_neg (Ne.symm hkey), lookup_cons_self, lookup_cons_self, append_nil]
    · have hbeq : (k == firstKey) = false := beq_eq_false_iff_ne.2 hfirst
      by_cases hkey : firstKey = key
      · rw [if_pos hkey, lookup_cons, lookup_cons, hbeq, if_neg (hkey ▸ Ne.symm hfirst), append_nil]
      · rw [if_neg hkey, lookup_cons, lookup_cons, hbeq]
        exact ih

/-- The values of a list collected under their keys. -/
def collect (entries : List (K × V)) : List (K × List V) :=
  entries.foldl (fun dict entry => append entry.1 entry.2 dict) []

/-- **What is found under a key** are the values of its entries, in order. -/
theorem lookup_collect (entries : List (K × V)) (k : K) :
    ((collect entries).lookup k).getD [] = (entries.filter (·.1 = k)).map (·.2) := by
  have hfold : ∀ (entries : List (K × V)) (dict : List (K × List V)),
      ((entries.foldl (fun dict entry => append entry.1 entry.2 dict) dict).lookup k).getD [] =
        (dict.lookup k).getD [] ++ (entries.filter (·.1 = k)).map (·.2) := by
    intro entries
    induction entries with
    | nil => simp
    | cons entry entries ih =>
      intro dict
      rw [foldl_cons, ih, lookup_append, append_assoc]
      by_cases hkey : entry.1 = k
      · simp [hkey]
      · simp [hkey]
  rw [collect, hfold]
  rfl

theorem nodup_keys_collect (entries : List (K × V)) : ((collect entries).map (·.1)).Nodup := by
  have hfold : ∀ (entries : List (K × V)) (dict : List (K × List V)),
      (dict.map (·.1)).Nodup →
        ((entries.foldl (fun dict entry => append entry.1 entry.2 dict) dict).map (·.1)).Nodup := by
    intro entries
    induction entries with
    | nil => exact fun _ h => h
    | cons entry entries ih => exact fun dict h => ih _ (nodup_keys_append h)
  exact hfold entries [] nodup_nil

/-- An entry of the collection has the values of its key. -/
theorem values_of_mem_collect {entries : List (K × V)} {entry : K × List V}
    (h : entry ∈ collect entries) : entry.2 = (entries.filter (·.1 = entry.1)).map (·.2) := by
  rw [← lookup_collect, lookup_of_mem (nodup_keys_collect entries) h, Option.getD_some]

/-- No key of the collection is without a value. -/
theorem ne_nil_of_mem_collect {entries : List (K × V)} {entry : K × List V}
    (h : entry ∈ collect entries) : entry.2 ≠ [] := by
  have hfold : ∀ (entries : List (K × V)) (dict : List (K × List V)),
      (∀ entry ∈ dict, entry.2 ≠ []) →
        ∀ entry ∈ entries.foldl (fun dict entry => append entry.1 entry.2 dict) dict,
          entry.2 ≠ [] := by
    intro entries
    induction entries with
    | nil => exact fun _ h => h
    | cons entry entries ih => exact fun dict h => ih _ (append_ne_nil h)
  exact hfold entries [] (fun _ h => (nomatch h)) entry h

end Append

end Dicts
