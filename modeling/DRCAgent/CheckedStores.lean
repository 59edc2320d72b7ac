/-
# Dictionaries with checked writes

A dictionary that is filled value by value, where a write under a key that is taken fails
unless the old value is the same. Once a value is stored, its key leads to it (or to one
that is the same) in every later state (`Resolves.store`), and every entry comes from a write.
What a loop that may fail builds up is proved along the part of its list that is done
(`foldlM_induction`).
-/
import DRCAgent.Failures
import DRCAgent.InsertionDict

namespace CheckedStores

open Failures

universe u v w

/-! ## Loops -/

/-- What holds of the start and is carried on by each step, for the elements done so far,
holds of the result for the whole list. -/
theorem foldlM_induction {ε : Type u} {α β : Type v} {step : β → α → Except ε β}
    {P : List α → β → Prop}
    (hstep : ∀ done a s s', P done s → step s a = .ok s' → P (done ++ [a]) s') {l : List α}
    {s s' : β} (hstart : P [] s) (h : l.foldlM step s = .ok s') : P l s' := by
  have hall : ∀ (rest done : List α) (s : β), P done s → rest.foldlM step s = .ok s' →
      P (done ++ rest) s' := by
    intro rest
    induction rest with
    | nil =>
      intro done s hdone hfold
      obtain rfl := Except.ok.inj hfold
      rw [List.append_nil]
      exact hdone
    | cons a rest ih =>
      intro done s hdone hfold
      rw [List.foldlM_cons] at hfold
      obtain ⟨mid, hmid, hrest⟩ := bind_eq_ok.mp hfold
      have hnext := ih (done ++ [a]) mid (hstep done a s mid hdone hmid) hrest
      rwa [List.append_assoc, List.singleton_append] at hnext
  exact hall l [] s hstart h

/-! ## Writes -/

section Writes

variable {ε : Type u} {K : Type v} {V : Type w} [DecidableEq K] {same : V → V → Prop}
  [DecidableRel same]

/-- A write, which fails with `clash` where the key has another value. -/
def store (same : V → V → Prop) [DecidableRel same] (clash : ε) (key : K) (value : V)
    (dict : List (K × V)) : Except ε (List (K × V)) :=
  if (dict.lookup key).any fun old => ¬ same old value then .error clash
  else .ok (Dicts.insert key value dict)

/-- The key leads to the value, or to one that is the same. -/
def Resolves (same : V → V → Prop) (dict : List (K × V)) (key : K) (value : V) : Prop :=
  ∃ found, dict.lookup key = some found ∧ same found value

variable {clash : ε} {key : K} {value : V} {dict dict' : List (K × V)}

theorem store_eq_ok_iff : store same clash key value dict = .ok dict' ↔
    (∀ old, dict.lookup key = some old → same old value) ∧
      dict' = Dicts.insert key value dict := by
  rw [store, guard_eq_ok, Except.ok.injEq, eq_comm (a := dict')]
  refine and_congr_left fun _ => ?_
  cases dict.lookup key <;> simp

theorem mem_of_store (h : store same clash key value dict = .ok dict') {entry : K × V}
    (hentry : entry ∈ dict') : entry ∈ dict ∨ entry = (key, value) := by
  obtain ⟨-, rfl⟩ := store_eq_ok_iff.1 h
  rcases Dicts.mem_insert hentry with hold | hnew
  · exact Or.inr hold
  · exact Or.inl hnew

theorem nodup_store (hnodup : (dict.map (·.1)).Nodup)
    (h : store same clash key value dict = .ok dict') : (dict'.map (·.1)).Nodup := by
  obtain ⟨-, rfl⟩ := store_eq_ok_iff.1 h
  exact Dicts.nodup_keys_insert hnodup

theorem resolves_store (hsame : Equivalence same)
    (h : store same clash key value dict = .ok dict') : Resolves same dict' key value := by
  obtain ⟨-, rfl⟩ := store_eq_ok_iff.1 h
  exact ⟨value, by rw [Dicts.lookup_insert, if_pos rfl], hsame.refl value⟩

/-- A write takes nothing away. -/
theorem Resolves.store (hsame : Equivalence same) {k : K} {v : V} (hold : Resolves same dict k v)
    (h : store same clash key value dict = .ok dict') : Resolves same dict' k v := by
  obtain ⟨hclash, rfl⟩ := store_eq_ok_iff.1 h
  obtain ⟨found, hfound, hvalue⟩ := hold
  by_cases hkey : k = key
  · subst hkey
    refine ⟨value, by rw [Dicts.lookup_insert, if_pos rfl], ?_⟩
    exact hsame.trans (hsame.symm (hclash found hfound)) hvalue
  · exact ⟨found, by rw [Dicts.lookup_insert, if_neg hkey, hfound], hvalue⟩

end Writes

end CheckedStores
