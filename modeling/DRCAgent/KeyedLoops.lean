/-
# Loops that record a value under a key

A library about a loop that computes a value for every entry of a list and assigns it to
the key of the entry in a dictionary: the last entry of a key decides what is found under
it, and the loop fails if the computation fails for some entry.

* `run_returns_iff`: the loop returns exactly if every computation does.
* `run_lookup`: what is found under a key is the value of an entry with it.
* `order_free_iff`: the order of the entries does not matter to what is found, exactly if
  some computation fails, or the entries of every key have equal values.
-/
import DRCAgent.Failures
import DRCAgent.InsertionDict
import Mathlib.Data.List.Perm.Basic

namespace KeyedLoops

open Failures List

universe u v

variable {ε : Type u} {K G R : Type v} [DecidableEq K] (value : K × G → Except ε R)

/-- The dictionary of the values by key. -/
def run (entries : List (K × G)) : Except ε (List (K × R)) := do
  let records ← entries.mapM fun entry => do
    let r ← value entry
    return (entry.1, r)
  return Dicts.ofList records

variable {value} {entries entries' : List (K × G)} {dict : List (K × R)}

omit [DecidableEq K] in
/-- The records have the keys of the entries. -/
theorem records_keys {records : List (K × R)}
    (h : List.Forall₂ (fun entry record => (do
      let r ← value entry
      return (entry.1, r)) = Except.ok record) entries records) :
    records.map (·.1) = entries.map (·.1) := by
  induction h with
  | nil => rfl
  | cons hfirst _ ih =>
    obtain ⟨r', -, hvalue⟩ := bind_eq_ok.1 hfirst
    rw [map_cons, map_cons, ih, ← Except.ok.inj hvalue]

/-- What the loop returns finds the value of some entry with the key, and every key. -/
theorem run_lookup (h : run value entries = .ok dict) (k : K) :
    (∀ r, dict.lookup k = some r → ∃ entry ∈ entries, entry.1 = k ∧ value entry = .ok r) ∧
      ((∃ entry ∈ entries, entry.1 = k) → ∃ r, dict.lookup k = some r) := by
  obtain ⟨records, hrecords, h⟩ := bind_eq_ok.1 h
  obtain rfl := Except.ok.inj h
  have hmem := mem_mapM hrecords
  constructor
  · intro r hr
    have hrecord : (k, r) ∈ records := Dicts.mem_ofList (Dicts.mem_of_lookup hr)
    obtain ⟨entry, hentry, hvalue⟩ := (hmem _).1 hrecord
    obtain ⟨r', hr', hvalue⟩ := bind_eq_ok.1 hvalue
    cases Except.ok.inj hvalue
    exact ⟨entry, hentry, rfl, hr'⟩
  · rintro ⟨entry, hentry, rfl⟩
    have hkey : entry.1 ∈ (Dicts.ofList records).map (·.1) := by
      rw [Dicts.mem_keys_ofList, records_keys (mapM_eq_ok hrecords)]
      exact mem_map_of_mem hentry
    obtain ⟨pair, hpair, hfst⟩ := mem_map.1 hkey
    exact ⟨pair.2, hfst ▸ Dicts.lookup_of_mem (Dicts.nodup_keys_ofList records) hpair⟩

/-- The loop returns where every computation does. -/
theorem run_returns_iff :
    (∃ dict, run value entries = .ok dict) ↔ ∀ entry ∈ entries, ∃ r, value entry = .ok r := by
  induction entries with
  | nil => exact ⟨fun _ _ h => (nomatch h), fun _ => ⟨[], rfl⟩⟩
  | cons entry rest ih =>
    rw [forall_mem_cons, ← ih]
    constructor
    · rintro ⟨dict, h⟩
      obtain ⟨records, hrecords, -⟩ := bind_eq_ok.1 h
      rw [mapM_cons] at hrecords
      obtain ⟨record, hrecord, hrecords⟩ := bind_eq_ok.1 hrecords
      obtain ⟨r, hr, -⟩ := bind_eq_ok.1 hrecord
      obtain ⟨others, hothers, -⟩ := bind_eq_ok.1 hrecords
      exact ⟨⟨r, hr⟩, Dicts.ofList others, bind_eq_ok.2 ⟨others, hothers, rfl⟩⟩
    · rintro ⟨⟨r, hr⟩, dict, h⟩
      obtain ⟨others, hothers, -⟩ := bind_eq_ok.1 h
      refine ⟨Dicts.ofList ((entry.1, r) :: others), bind_eq_ok.2 ⟨(entry.1, r) :: others, ?_, rfl⟩⟩
      rw [mapM_cons]
      refine bind_eq_ok.2 ⟨(entry.1, r), bind_eq_ok.2 ⟨r, hr, rfl⟩, ?_⟩
      exact bind_eq_ok.2 ⟨others, hothers, rfl⟩

/-- The last entry decides. -/
theorem run_lookup_last {entry : K × G} (h : run value (entries ++ [entry]) = .ok dict) :
    ∃ r, value entry = .ok r ∧ dict.lookup entry.1 = some r := by
  obtain ⟨records, hrecords, h⟩ := bind_eq_ok.1 h
  obtain rfl := Except.ok.inj h
  rw [mapM_append] at hrecords
  obtain ⟨front, -, hrecords⟩ := bind_eq_ok.1 hrecords
  obtain ⟨last, hlast, hrecords⟩ := bind_eq_ok.1 hrecords
  obtain rfl := Except.ok.inj hrecords
  rw [mapM_cons] at hlast
  obtain ⟨record, hrecord, hlast⟩ := bind_eq_ok.1 hlast
  obtain rfl := Except.ok.inj hlast
  obtain ⟨r, hr, hrecord⟩ := bind_eq_ok.1 hrecord
  obtain rfl := Except.ok.inj hrecord
  refine ⟨r, hr, ?_⟩
  rw [Dicts.lookup_ofList, reverse_append]
  exact lookup_cons_self

/-- Two runs fail, or both return and find the same. -/
def SameFinds : Except ε (List (K × R)) → Except ε (List (K × R)) → Prop
  | .ok dict, .ok dict' => ∀ k, dict.lookup k = dict'.lookup k
  | .error _, .error _ => True
  | _, _ => False

/-- **When the order does not matter.** -/
theorem order_free_iff :
    (∀ entries', entries.Perm entries' → SameFinds (run value entries) (run value entries')) ↔
      ((∃ entry ∈ entries, ∀ r, value entry ≠ .ok r) ∨
        ∀ a ∈ entries, ∀ b ∈ entries, a.1 = b.1 → value a = value b) := by
  by_cases hall : ∀ entry ∈ entries, ∃ r, value entry = .ok r
  · have hnot : ¬ ∃ entry ∈ entries, ∀ r, value entry ≠ .ok r := by
      rintro ⟨entry, hentry, hne⟩
      obtain ⟨r, hr⟩ := hall entry hentry
      exact hne r hr
    obtain ⟨dict, hdict⟩ := run_returns_iff.2 hall
    rw [or_iff_right hnot]
    constructor
    · intro h a ha b hb hkey
      -- the orders that end with the one and with the other
      have hends : ∀ c ∈ entries, ∃ r, value c = .ok r ∧ dict.lookup c.1 = some r := by
        intro c hc
        obtain ⟨front, back, rfl⟩ := append_of_mem hc
        have hperm : (front ++ c :: back).Perm (front ++ back ++ [c]) := by
          refine perm_middle.trans ?_
          exact (perm_append_singleton c (front ++ back)).symm
        obtain ⟨dict', hdict'⟩ := run_returns_iff.2 fun entry hentry =>
          hall entry (hperm.mem_iff.2 hentry)
        have hsame := h _ hperm
        rw [hdict, hdict'] at hsame
        obtain ⟨r, hr, hlookup⟩ := run_lookup_last hdict'
        exact ⟨r, hr, (hsame c.1).trans hlookup⟩
      obtain ⟨r, hr, hlookup⟩ := hends a ha
      obtain ⟨r', hr', hlookup'⟩ := hends b hb
      rw [hkey, hlookup'] at hlookup
      rw [hr, hr', Option.some.inj hlookup]
    · intro hagree entries' hperm
      obtain ⟨dict', hdict'⟩ := run_returns_iff.2 fun entry hentry =>
        hall entry (hperm.mem_iff.2 hentry)
      rw [hdict, hdict']
      intro k
      cases hlookup : dict.lookup k with
      | none =>
        cases hlookup' : dict'.lookup k with
        | none => rfl
        | some r =>
          obtain ⟨entry, hentry, hkey, -⟩ := (run_lookup hdict' k).1 r hlookup'
          obtain ⟨r', hr'⟩ := (run_lookup hdict k).2 ⟨entry, hperm.mem_iff.2 hentry, hkey⟩
          rw [hlookup] at hr'
          cases hr'
      | some r =>
        obtain ⟨entry, hentry, hkey, hvalue⟩ := (run_lookup hdict k).1 r hlookup
        obtain ⟨r', hr'⟩ := (run_lookup hdict' k).2 ⟨entry, hperm.mem_iff.1 hentry, hkey⟩
        obtain ⟨other, hother, hkey', hvalue'⟩ := (run_lookup hdict' k).1 r' hr'
        have hsame := hagree entry hentry other (hperm.mem_iff.2 hother) (hkey.trans hkey'.symm)
        rw [hvalue, hvalue'] at hsame
        rw [hr', Except.ok.inj hsame]
  · have hfails : ∃ entry ∈ entries, ∀ r, value entry ≠ .ok r := by
      push Not at hall
      exact hall
    refine iff_of_true (fun entries' hperm => ?_) (Or.inl hfails)
    have herror : ∀ l, l.Perm entries → ∃ e, run value l = .error e := by
      intro l hl
      cases hrun : run value l with
      | error e => exact ⟨e, rfl⟩
      | ok dict =>
        obtain ⟨entry, hentry, hne⟩ := hfails
        obtain ⟨r, hr⟩ := run_returns_iff.1 ⟨dict, hrun⟩ entry (hl.mem_iff.2 hentry)
        exact absurd hr (hne r)
    obtain ⟨e, he⟩ := herror entries (.refl _)
    obtain ⟨e', he'⟩ := herror entries' hperm.symm
    rw [he, he']
    trivial

end KeyedLoops
