/-
# Measuring by differences of a shared counter

A small library. Several processes share one counter. Each reads it when it
enters, and when it leaves it adds the difference, if positive, to a tally, unless it
is dropped.
The counter itself goes up by one with each tick.

The tally then counts a tick once for every process that was inside at the time and
left later, whoever made it. An `Audit` of the events tells how often that is too
much and how often too little: `doubled` counts the ticks of others a leaving process
has seen, `lost` the ticks of dropped processes. The tally is exact if and only if
the two are equal (`tally_exact_iff`).
-/
import Mathlib.Algebra.Order.BigOperators.Group.Finset
import DRCAgent.LabelledRuns

namespace SharedCounter

open Function Runs

universe u

variable {ι : Type u} [DecidableEq ι]

/-! ## The meter -/

/-- What a process does. -/
inductive Event (ι : Type u)
  | enter (i : ι)
  | tick (i : ι)
  | leave (i : ι)
  | drop (i : ι)

/-- The counter, the tally, and the reading each process inside made on entry. -/
structure Meter (ι : Type u) where
  count : ℕ
  tally : ℤ
  mark : ι → Option ℕ

/-- The steps of the processes. -/
inductive Step : Meter ι → Event ι → Meter ι → Prop
  | enter {m : Meter ι} {i : ι} (outside : m.mark i = none) :
      Step m (.enter i) { m with mark := update m.mark i (some m.count) }
  | tick {m : Meter ι} {i : ι} {b : ℕ} (inside : m.mark i = some b) :
      Step m (.tick i) { m with count := m.count + 1 }
  | leave {m : Meter ι} {i : ι} {b : ℕ} (inside : m.mark i = some b) :
      Step m (.leave i) { m with
        tally := m.tally + max ((m.count : ℤ) - b) 0, mark := update m.mark i none }
  | drop {m : Meter ι} {i : ι} {b : ℕ} (inside : m.mark i = some b) :
      Step m (.drop i) { m with mark := update m.mark i none }

/-- Nobody is inside. -/
def Meter.Closed (m : Meter ι) : Prop := ∀ i, m.mark i = none

/-! ## The audit -/

/-- What the events alone tell: who is inside, the ticks each has made and has seen
of others since it entered, and the three totals. -/
structure Audit (ι : Type u) where
  inside : Finset ι := ∅
  own : ι → ℕ := fun _ => 0
  foreign : ι → ℕ := fun _ => 0
  ticks : ℕ := 0
  doubled : ℕ := 0
  lost : ℕ := 0

/-- One event. -/
def Audit.observe (a : Audit ι) : Event ι → Audit ι
  | .enter i => { a with
      inside := insert i a.inside, own := update a.own i 0, foreign := update a.foreign i 0 }
  | .tick i => { a with
      own := update a.own i (a.own i + 1)
      foreign := fun j => if j = i then a.foreign j else a.foreign j + 1
      ticks := a.ticks + 1 }
  | .leave i => { a with inside := a.inside.erase i, doubled := a.doubled + a.foreign i }
  | .drop i => { a with inside := a.inside.erase i, lost := a.lost + a.own i }

/-- The audit of a list of events. -/
def audit (tr : List (Event ι)) : Audit ι := tr.foldl Audit.observe {}

theorem audit_concat (tr : List (Event ι)) (e : Event ι) :
    audit (tr ++ [e]) = (audit tr).observe e := by
  rw [audit, List.foldl_append]
  rfl

/-- A tick. -/
def Event.isTick : Event ι → Bool
  | tick _ => true
  | _ => false

theorem audit_ticks (tr : List (Event ι)) : (audit tr).ticks = tr.countP Event.isTick := by
  induction tr using List.reverseRecOn with
  | nil => rfl
  | append_singleton tr e ih =>
    rw [audit_concat, List.countP_append, ← ih]
    cases e <;> rfl

/-! ## The two agree -/

/-- The state `m` of a run from `m₀` as its audit sees it. -/
structure Agrees (m₀ m : Meter ι) (a : Audit ι) : Prop where
  inside : ∀ i, i ∈ a.inside ↔ m.mark i ≠ none
  reading : ∀ i b, m.mark i = some b → m.count = b + a.own i + a.foreign i
  count : m.count = m₀.count + a.ticks
  balance : m.tally + a.lost + ((∑ i ∈ a.inside, a.own i : ℕ) : ℤ) =
    m₀.tally + a.ticks + a.doubled

variable {m₀ m m' : Meter ι} {a : Audit ι} {e : Event ι} {tr : List (Event ι)}

theorem sum_update_of_notMem {s : Finset ι} {i : ι} (hi : i ∉ s) (f : ι → ℕ) (b : ℕ) :
    ∑ j ∈ s, update f i b j = ∑ j ∈ s, f j := by
  refine Finset.sum_congr rfl fun j hj => ?_
  rw [update_of_ne]
  rintro rfl
  exact hi hj

/-- Who is inside once `i` is gone. -/
theorem Agrees.inside_exit (h : Agrees m₀ m a) (i j : ι) :
    j ∈ a.inside.erase i ↔ update m.mark i none j ≠ none := by
  rw [Finset.mem_erase]
  by_cases hji : j = i
  · subst hji
    simp
  · rw [update_of_ne hji, h.inside j]
    simp [hji]

/-- The readings that are left once `i` is gone. -/
theorem Agrees.reading_exit (h : Agrees m₀ m a) (i j : ι) (c : ℕ)
    (hj : update m.mark i none j = some c) : m.count = c + a.own j + a.foreign j := by
  have hji : j ≠ i := by
    rintro rfl
    rw [update_self] at hj
    cases hj
  rw [update_of_ne hji] at hj
  exact h.reading j c hj

/-- Each step keeps the agreement. -/
theorem Agrees.step (h : Agrees m₀ m a) (hstep : Step m e m') : Agrees m₀ m' (a.observe e) := by
  cases hstep with
  | @enter i outside =>
    have hfresh : i ∉ a.inside := fun hi => (h.inside i).1 hi outside
    refine ⟨fun j => ?_, fun j b hj => ?_, h.count, ?_⟩
    · show j ∈ insert i a.inside ↔ update m.mark i (some m.count) j ≠ none
      rw [Finset.mem_insert]
      by_cases hji : j = i
      · subst hji
        simp
      · rw [update_of_ne hji, h.inside j]
        simp [hji]
    · show m.count = b + update a.own i 0 j + update a.foreign i 0 j
      have hj : update m.mark i (some m.count) j = some b := hj
      by_cases hji : j = i
      · subst hji
        rw [update_self] at hj
        rw [update_self, update_self, Option.some.inj hj, Nat.add_zero]
      · rw [update_of_ne hji] at hj
        rw [update_of_ne hji, update_of_ne hji]
        exact h.reading j b hj
    · show m.tally + a.lost + ((∑ j ∈ insert i a.inside, update a.own i 0 j : ℕ) : ℤ) = _
      rw [Finset.sum_insert hfresh, update_self, sum_update_of_notMem hfresh, Nat.zero_add]
      exact h.balance
  | @tick i b inside =>
    have hin : i ∈ a.inside := (h.inside i).2 (by rw [inside]; exact Option.some_ne_none b)
    refine ⟨h.inside, fun j c hj => ?_, ?_, ?_⟩
    · show m.count + 1 = c + update a.own i (a.own i + 1) j +
        (if j = i then a.foreign j else a.foreign j + 1)
      have hread := h.reading j c hj
      by_cases hji : j = i
      · subst hji
        rw [update_self, if_pos rfl]
        omega
      · rw [update_of_ne hji, if_neg hji]
        omega
    · show m.count + 1 = m₀.count + (a.ticks + 1)
      rw [h.count, Nat.add_assoc]
    · show m.tally + a.lost + ((∑ j ∈ a.inside, update a.own i (a.own i + 1) j : ℕ) : ℤ) =
        m₀.tally + ((a.ticks + 1 : ℕ) : ℤ) + a.doubled
      have hsum : ∑ j ∈ a.inside, update a.own i (a.own i + 1) j = ∑ j ∈ a.inside, a.own j + 1 := by
        rw [← Finset.add_sum_erase _ _ hin, update_self,
          sum_update_of_notMem (Finset.notMem_erase i a.inside), ← Finset.add_sum_erase _ _ hin]
        omega
      have hbalance := h.balance
      rw [hsum]
      omega
  | @leave i b inside =>
    have hin : i ∈ a.inside := (h.inside i).2 (by rw [inside]; exact Option.some_ne_none b)
    refine ⟨h.inside_exit i, h.reading_exit i, h.count, ?_⟩
    · have hread := h.reading i b inside
      have hbalance := h.balance
      rw [← Finset.add_sum_erase _ _ hin] at hbalance
      show m.tally + max ((m.count : ℤ) - b) 0 + a.lost + ((∑ j ∈ a.inside.erase i, a.own j : ℕ) : ℤ) =
        m₀.tally + a.ticks + ((a.doubled + a.foreign i : ℕ) : ℤ)
      omega
  | @drop i b inside =>
    have hin : i ∈ a.inside := (h.inside i).2 (by rw [inside]; exact Option.some_ne_none b)
    refine ⟨h.inside_exit i, h.reading_exit i, h.count, ?_⟩
    · have hbalance := h.balance
      rw [← Finset.add_sum_erase _ _ hin] at hbalance
      show m.tally + ((a.lost + a.own i : ℕ) : ℤ) + ((∑ j ∈ a.inside.erase i, a.own j : ℕ) : ℤ) =
        m₀.tally + a.ticks + a.doubled
      omega

/-- A run agrees with the audit of its events. -/
theorem agrees_of_run (hclosed : m₀.Closed) (h : Run Step m₀ tr m) : Agrees m₀ m (audit tr) := by
  induction h with
  | start =>
    refine ⟨fun i => ?_, fun i b hb => ?_, rfl, ?_⟩
    · rw [hclosed i]
      exact ⟨fun hi => absurd hi (Finset.notMem_empty i), fun hne => absurd rfl hne⟩
    · rw [hclosed i] at hb
      cases hb
    · rfl
  | next _ hlast ih =>
    rw [audit_concat]
    exact ih.step hlast

/-- The counter goes up by the number of ticks. -/
theorem count_eq (hclosed : m₀.Closed) (h : Run Step m₀ tr m) :
    m.count = m₀.count + tr.countP Event.isTick := by
  rw [(agrees_of_run hclosed h).count, audit_ticks]

/-- **When the tally is exact**, once nobody is inside any more. -/
theorem tally_exact_iff (hclosed : m₀.Closed) (h : Run Step m₀ tr m) (hdone : m.Closed) :
    m.tally - m₀.tally = (m.count : ℤ) - m₀.count ↔ (audit tr).doubled = (audit tr).lost := by
  have hagrees := agrees_of_run hclosed h
  have hempty : (audit tr).inside = ∅ := by
    rw [Finset.eq_empty_iff_forall_notMem]
    intro i hi
    exact (hagrees.inside i).1 hi (hdone i)
  have hbalance := hagrees.balance
  have hcount := hagrees.count
  rw [hempty, Finset.sum_empty] at hbalance
  omega

end SharedCounter
