/-
# Runs of grid points

A small library: finite sets of multiples of a grid as lists of intervals.

* `meet` intersects two lists of intervals, `merge` joins those that overlap or whose ends
  are neighbours on the grid. Neither changes which multiples are covered
  (`covers_meet`, `covers_merge`).
* What `merge` returns are *runs*: aligned intervals in order with a gap between any two.
  The runs of a set are its maximal runs (`Runs.mem_iff_maximalRun`), so a set of points
  has one list of runs (`Runs.eq_of_points_eq`).
-/
import Mathlib.Data.List.Sort
import Mathlib.Data.Prod.Lex
import Mathlib.Tactic.Linarith
import Mathlib.Tactic.Ring

namespace GridRuns

open List

/-! ## Multiples of the grid -/

section Multiples

variable {g : ℤ}

/-- Between neighbouring multiples there is none. -/
theorem add_le_of_lt {a b : ℤ} (ha : g ∣ a) (hb : g ∣ b) (h : a < b) : a + g ≤ b := by
  have hpositive : 0 < b - a := by omega
  have hle := Int.le_of_dvd hpositive (Int.dvd_sub hb ha)
  omega

/-- `-(-low // g) * g` -/
def alignUp (g low : ℤ) : ℤ := -((-low).fdiv g) * g

/-- `(high // g) * g` -/
def alignDown (g high : ℤ) : ℤ := high.fdiv g * g

theorem dvd_alignUp (low : ℤ) : g ∣ alignUp g low := Int.dvd_mul_left _ _

theorem dvd_alignDown (high : ℤ) : g ∣ alignDown g high := Int.dvd_mul_left _ _

/-- The same multiples lie below. -/
theorem le_alignDown_iff (hg : 0 < g) {x : ℤ} (hx : g ∣ x) (high : ℤ) :
    x ≤ alignDown g high ↔ x ≤ high := by
  obtain ⟨k, rfl⟩ := hx
  rw [alignDown, Int.fdiv_eq_ediv_of_nonneg _ hg.le, mul_comm g k, mul_le_mul_iff_left₀ hg,
    Int.le_ediv_iff_mul_le hg]

/-- The same multiples lie above. -/
theorem alignUp_le_iff (hg : 0 < g) {x : ℤ} (hx : g ∣ x) (low : ℤ) :
    alignUp g low ≤ x ↔ low ≤ x := by
  have hdown := le_alignDown_iff hg (Int.dvd_neg.2 hx) (-low)
  rw [alignDown] at hdown
  rw [alignUp, neg_mul]
  omega

end Multiples

/-! ## Lists of intervals -/

/-- Some interval contains the point. -/
def Covers (intervals : List (ℤ × ℤ)) (x : ℤ) : Prop :=
  ∃ interval ∈ intervals, interval.1 ≤ x ∧ x ≤ interval.2

theorem covers_nil (x : ℤ) : ¬ Covers [] x := by
  rintro ⟨interval, hmem, -⟩
  cases hmem

theorem covers_cons {interval : ℤ × ℤ} {rest : List (ℤ × ℤ)} {x : ℤ} :
    Covers (interval :: rest) x ↔ (interval.1 ≤ x ∧ x ≤ interval.2) ∨ Covers rest x := by
  simp [Covers]

theorem covers_perm {intervals intervals' : List (ℤ × ℤ)} (h : intervals.Perm intervals')
    (x : ℤ) : Covers intervals x ↔ Covers intervals' x := by
  simp only [Covers, h.mem_iff]

/-- The intersections of the intervals of two lists. -/
def meet (first second : List (ℤ × ℤ)) : List (ℤ × ℤ) :=
  first.flatMap fun a => (second.filter fun c => max a.1 c.1 ≤ min a.2 c.2).map fun c =>
    (max a.1 c.1, min a.2 c.2)

theorem mem_meet {first second : List (ℤ × ℤ)} {interval : ℤ × ℤ} :
    interval ∈ meet first second ↔ ∃ a ∈ first, ∃ c ∈ second,
      max a.1 c.1 ≤ min a.2 c.2 ∧ (max a.1 c.1, min a.2 c.2) = interval := by
  simp [meet, mem_flatMap, and_assoc]

/-- The points that both lists cover. -/
theorem covers_meet {first second : List (ℤ × ℤ)} {x : ℤ} :
    Covers (meet first second) x ↔ Covers first x ∧ Covers second x := by
  constructor
  · rintro ⟨interval, hmem, hlow, hhigh⟩
    obtain ⟨a, ha, c, hc, -, rfl⟩ := mem_meet.1 hmem
    have hlows := max_le_iff.1 hlow
    have hhighs := le_min_iff.1 hhigh
    exact ⟨⟨a, ha, hlows.1, hhighs.1⟩, ⟨c, hc, hlows.2, hhighs.2⟩⟩
  · rintro ⟨⟨a, ha, halow, hahigh⟩, ⟨c, hc, hclow, hchigh⟩⟩
    have hlow := max_le halow hclow
    have hhigh := le_min hahigh hchigh
    exact ⟨_, mem_meet.2 ⟨a, ha, c, hc, hlow.trans hhigh, rfl⟩, hlow, hhigh⟩

/-- The ends are multiples, and in order. -/
def Aligned (g : ℤ) (interval : ℤ × ℤ) : Prop :=
  g ∣ interval.1 ∧ g ∣ interval.2 ∧ interval.1 ≤ interval.2

theorem aligned_meet {g : ℤ} {first second : List (ℤ × ℤ)}
    (hfirst : ∀ a ∈ first, Aligned g a) (hsecond : ∀ c ∈ second, Aligned g c) :
    ∀ interval ∈ meet first second, Aligned g interval := by
  intro interval hmem
  obtain ⟨a, ha, c, hc, hle, rfl⟩ := mem_meet.1 hmem
  obtain ⟨halow, hahigh, -⟩ := hfirst a ha
  obtain ⟨hclow, hchigh, -⟩ := hsecond c hc
  refine ⟨?_, ?_, hle⟩
  · rcases max_choice a.1 c.1 with h | h <;> rw [h] <;> assumption
  · rcases min_choice a.2 c.2 with h | h <;> rw [h] <;> assumption

/-! ## Merging -/

/-- The loop over sorted intervals: the run that is still open, and the intervals that
follow. -/
def mergeFrom (g : ℤ) (current : ℤ × ℤ) : List (ℤ × ℤ) → List (ℤ × ℤ)
  | [] => [current]
  | next :: rest =>
    if next.1 ≤ current.2 + g then mergeFrom g (current.1, max next.2 current.2) rest
    else current :: mergeFrom g next rest

/-- Neighbouring and overlapping intervals of a sorted list are joined. -/
def mergeSorted (g : ℤ) : List (ℤ × ℤ) → List (ℤ × ℤ)
  | [] => []
  | first :: rest => mergeFrom g first rest

/-- `sorted(intervals)` -/
def sortIntervals (intervals : List (ℤ × ℤ)) : List (ℤ × ℤ) :=
  intervals.insertionSort fun a b => toLex a ≤ toLex b

/-- Any intervals are sorted, then joined. -/
def merge (g : ℤ) (intervals : List (ℤ × ℤ)) : List (ℤ × ℤ) :=
  mergeSorted g (sortIntervals intervals)

/-- Aligned intervals in order, with a gap between any two. -/
structure Runs (g : ℤ) (runs : List (ℤ × ℤ)) : Prop where
  aligned : ∀ run ∈ runs, Aligned g run
  separated : runs.Pairwise fun a b => a.2 + g < b.1

section Merge

variable {g : ℤ}

theorem pairwise_sortIntervals (intervals : List (ℤ × ℤ)) :
    (sortIntervals intervals).Pairwise fun a b => a.1 ≤ b.1 := by
  have hsorted := pairwise_insertionSort (fun a b : ℤ × ℤ => toLex a ≤ toLex b) intervals
  refine hsorted.imp fun {a b} hle => ?_
  rcases Prod.Lex.le_iff.1 hle with hlt | ⟨heq, -⟩
  · exact hlt.le
  · exact heq.le

/-- The open run is where the next interval is joined to it. -/
theorem covers_join {current next : ℤ × ℤ} (hcurrent : Aligned g current)
    (hstart : current.1 ≤ next.1) (hnear : next.1 ≤ current.2 + g) {x : ℤ} (hx : g ∣ x) :
    (current.1 ≤ x ∧ x ≤ max next.2 current.2) ↔
      (current.1 ≤ x ∧ x ≤ current.2) ∨ (next.1 ≤ x ∧ x ≤ next.2) := by
  rw [le_max_iff]
  constructor
  · rintro ⟨hlow, hhigh⟩
    by_cases hinside : x ≤ current.2
    · exact Or.inl ⟨hlow, hinside⟩
    · -- the first multiple behind the run is not before the start of the next interval
      have hbehind := add_le_of_lt hcurrent.2.1 hx (not_le.1 hinside)
      exact Or.inr ⟨hnear.trans hbehind, hhigh.resolve_right hinside⟩
  · rintro (⟨hlow, hhigh⟩ | ⟨hlow, hhigh⟩)
    · exact ⟨hlow, Or.inr hhigh⟩
    · exact ⟨hstart.trans hlow, Or.inl hhigh⟩

/-- The joined run is aligned again. -/
theorem Aligned.join {current next : ℤ × ℤ} (hcurrent : Aligned g current)
    (hnext : Aligned g next) : Aligned g (current.1, max next.2 current.2) := by
  refine ⟨hcurrent.1, ?_, hcurrent.2.2.trans (le_max_right _ _)⟩
  show g ∣ max next.2 current.2
  rcases max_choice next.2 current.2 with h | h
  · rw [h]
    exact hnext.2.1
  · rw [h]
    exact hcurrent.2.1

/-- **The loop** covers the same multiples. -/
theorem covers_mergeFrom {rest : List (ℤ × ℤ)} {current : ℤ × ℤ}
    (haligned : ∀ interval ∈ current :: rest, Aligned g interval)
    (hsorted : (current :: rest).Pairwise fun a b => a.1 ≤ b.1) {x : ℤ} (hx : g ∣ x) :
    Covers (mergeFrom g current rest) x ↔ Covers (current :: rest) x := by
  induction rest generalizing current with
  | nil => exact Iff.rfl
  | cons next rest ih =>
    obtain ⟨hcurrent, hnext, hrest⟩ :
        Aligned g current ∧ Aligned g next ∧ ∀ interval ∈ rest, Aligned g interval := by
      simpa using haligned
    obtain ⟨hstarts, hsortedRest⟩ := pairwise_cons.1 hsorted
    have hstart := hstarts next (mem_cons_self ..)
    rw [mergeFrom]
    split_ifs with hnear
    · have hjoined : ((current.1, max next.2 current.2) :: rest).Pairwise
          fun a b => a.1 ≤ b.1 := by
        refine pairwise_cons.2 ⟨fun interval hmem => ?_, hsortedRest.of_cons⟩
        exact hstarts interval (mem_cons_of_mem _ hmem)
      rw [ih (forall_mem_cons.2 ⟨hcurrent.join hnext, hrest⟩) hjoined, covers_cons,
        covers_cons, covers_cons, covers_join hcurrent hstart hnear hx, or_assoc]
    · rw [covers_cons, ih (forall_mem_cons.2 ⟨hnext, hrest⟩) hsortedRest]
      exact covers_cons.symm

/-- **The loop** leaves runs, of which none starts before the open one. -/
theorem runs_mergeFrom {rest : List (ℤ × ℤ)} {current : ℤ × ℤ}
    (haligned : ∀ interval ∈ current :: rest, Aligned g interval)
    (hsorted : (current :: rest).Pairwise fun a b => a.1 ≤ b.1) :
    Runs g (mergeFrom g current rest) ∧ ∀ run ∈ mergeFrom g current rest,
      current.1 ≤ run.1 := by
  induction rest generalizing current with
  | nil =>
    refine ⟨⟨haligned, pairwise_singleton _ _⟩, ?_⟩
    intro run hmem
    rw [mem_singleton.1 hmem]
  | cons next rest ih =>
    obtain ⟨hcurrent, hnext, hrest⟩ :
        Aligned g current ∧ Aligned g next ∧ ∀ interval ∈ rest, Aligned g interval := by
      simpa using haligned
    obtain ⟨hstarts, hsortedRest⟩ := pairwise_cons.1 hsorted
    rw [mergeFrom]
    split_ifs with hnear
    · refine ih (forall_mem_cons.2 ⟨hcurrent.join hnext, hrest⟩) ?_
      refine pairwise_cons.2 ⟨fun interval hmem => ?_, hsortedRest.of_cons⟩
      exact hstarts interval (mem_cons_of_mem _ hmem)
    · obtain ⟨hruns, hlower⟩ := ih (forall_mem_cons.2 ⟨hnext, hrest⟩) hsortedRest
      refine ⟨⟨forall_mem_cons.2 ⟨hcurrent, hruns.aligned⟩, ?_⟩, ?_⟩
      · refine pairwise_cons.2 ⟨fun run hmem => ?_, hruns.separated⟩
        exact (not_le.1 hnear).trans_le (hlower run hmem)
      · refine forall_mem_cons.2 ⟨le_refl _, fun run hmem => ?_⟩
        exact (hstarts next (mem_cons_self ..)).trans (hlower run hmem)

variable {intervals : List (ℤ × ℤ)}

theorem aligned_sortIntervals (h : ∀ interval ∈ intervals, Aligned g interval) :
    ∀ interval ∈ sortIntervals intervals, Aligned g interval :=
  fun interval hmem => h interval ((mem_insertionSort _).1 hmem)

theorem covers_merge (h : ∀ interval ∈ intervals, Aligned g interval) {x : ℤ}
    (hx : g ∣ x) : Covers (merge g intervals) x ↔ Covers intervals x := by
  have hperm : Covers (sortIntervals intervals) x ↔ Covers intervals x :=
    covers_perm (perm_insertionSort _ _) x
  have haligned := aligned_sortIntervals h
  have hsorted := pairwise_sortIntervals intervals
  rw [merge, ← hperm]
  cases hcase : sortIntervals intervals with
  | nil => exact Iff.rfl
  | cons first rest =>
    rw [hcase] at haligned hsorted
    exact covers_mergeFrom haligned hsorted hx

theorem runs_merge (h : ∀ interval ∈ intervals, Aligned g interval) :
    Runs g (merge g intervals) := by
  have haligned := aligned_sortIntervals h
  have hsorted := pairwise_sortIntervals intervals
  rw [merge]
  cases hcase : sortIntervals intervals with
  | nil => exact ⟨by simp [mergeSorted], Pairwise.nil⟩
  | cons first rest =>
    rw [hcase] at haligned hsorted
    exact (runs_mergeFrom haligned hsorted).1

end Merge

/-! ## One list of runs for a set -/

/-- An interval whose multiples are in the set, and neither neighbour is. -/
structure MaximalRun (g : ℤ) (points : Set ℤ) (run : ℤ × ℤ) : Prop where
  aligned : Aligned g run
  inside : ∀ x, g ∣ x → run.1 ≤ x → x ≤ run.2 → x ∈ points
  before : run.1 - g ∉ points
  behind : run.2 + g ∉ points

section Unique

variable {g : ℤ} {runs : List (ℤ × ℤ)}

/-- The multiples that the runs cover. -/
def points (g : ℤ) (runs : List (ℤ × ℤ)) : Set ℤ := {x | g ∣ x ∧ Covers runs x}

/-- Of two runs one is behind a gap behind the other. -/
theorem Runs.eq_or_apart (h : Runs g runs) {a b : ℤ × ℤ} (ha : a ∈ runs) (hb : b ∈ runs) :
    a = b ∨ a.2 + g < b.1 ∨ b.2 + g < a.1 := by
  obtain ⟨-, hseparated⟩ := h
  induction runs with
  | nil => cases ha
  | cons first rest ih =>
    obtain ⟨hfirst, hrest⟩ := pairwise_cons.1 hseparated
    rcases mem_cons.1 ha with ha' | ha' <;> rcases mem_cons.1 hb with hb' | hb'
    · exact Or.inl (ha'.trans hb'.symm)
    · exact Or.inr (Or.inl (ha' ▸ hfirst b hb'))
    · exact Or.inr (Or.inr (hb' ▸ hfirst a ha'))
    · exact ih ha' hb' hrest

/-- A run is maximal. -/
theorem Runs.maximalRun (hg : 0 < g) (h : Runs g runs) {run : ℤ × ℤ} (hrun : run ∈ runs) :
    MaximalRun g (points g runs) run where
  aligned := h.aligned run hrun
  inside := fun _ hx hlow hhigh => ⟨hx, run, hrun, hlow, hhigh⟩
  before := by
    rintro ⟨-, other, hother, hlow, hhigh⟩
    have hordered := (h.aligned run hrun).2.2
    rcases h.eq_or_apart hrun hother with rfl | hbehind | hbefore
    · omega
    · omega
    · omega
  behind := by
    rintro ⟨-, other, hother, hlow, hhigh⟩
    have hordered := (h.aligned run hrun).2.2
    rcases h.eq_or_apart hrun hother with rfl | hbehind | hbefore
    · omega
    · omega
    · omega

/-- **The runs of a set are its maximal runs.** -/
theorem Runs.mem_iff_maximalRun (hg : 0 < g) (h : Runs g runs) {run : ℤ × ℤ} :
    run ∈ runs ↔ MaximalRun g (points g runs) run := by
  refine ⟨h.maximalRun hg, fun hmaximal => ?_⟩
  obtain ⟨hlowDvd, hhighDvd, hordered⟩ := hmaximal.aligned
  obtain ⟨-, other, hother, hlow, hhigh⟩ :=
    hmaximal.inside run.1 hlowDvd (le_refl _) hordered
  obtain ⟨hotherLow, hotherHigh, -⟩ := h.aligned other hother
  have hmaximalOther := h.maximalRun hg hother
  -- both runs contain the start of the one, so neither can end before the other does
  have hstart : other.1 = run.1 := by
    by_contra hne
    have hroom := add_le_of_lt hotherLow hlowDvd (lt_of_le_of_ne hlow hne)
    exact hmaximal.before ⟨Int.dvd_sub hlowDvd (Int.dvd_refl g), other, hother, by omega,
      by omega⟩
  have hend : other.2 = run.2 := by
    rcases lt_trichotomy other.2 run.2 with hshort | heq | hlong
    · have hroom := add_le_of_lt hotherHigh hhighDvd hshort
      exact absurd (hmaximal.inside (other.2 + g) (Int.dvd_add hotherHigh (Int.dvd_refl g))
        (by omega) hroom) hmaximalOther.behind
    · exact heq
    · have hroom := add_le_of_lt hhighDvd hotherHigh hlong
      exact absurd (hmaximalOther.inside (run.2 + g) (Int.dvd_add hhighDvd (Int.dvd_refl g))
        (by omega) hroom) hmaximal.behind
  have heq : other = run := Prod.ext hstart hend
  exact heq ▸ hother

/-- **A set has one list of runs.** -/
theorem Runs.eq_of_points_eq (hg : 0 < g) {runs' : List (ℤ × ℤ)} (h : Runs g runs)
    (h' : Runs g runs') (hpoints : points g runs = points g runs') : runs = runs' := by
  have hsorted : ∀ {list : List (ℤ × ℤ)}, Runs g list →
      list.Pairwise fun a b => a.1 < b.1 := by
    intro list hlist
    refine (pairwise_iff_forall_sublist.2 fun {a b} hsub => ?_)
    have hlt := pairwise_iff_forall_sublist.1 hlist.separated hsub
    have hordered := (hlist.aligned a (hsub.subset (mem_cons_self ..))).2.2
    omega
  have hnodup : ∀ {list : List (ℤ × ℤ)}, Runs g list → list.Nodup :=
    fun hlist => (hsorted hlist).imp fun {a b} hlt heq => (heq ▸ hlt).ne rfl
  have hperm : runs.Perm runs' := by
    refine (perm_ext_iff_of_nodup (hnodup h) (hnodup h')).2 fun run => ?_
    rw [h.mem_iff_maximalRun hg, h'.mem_iff_maximalRun hg, hpoints]
  exact hperm.eq_of_pairwise (fun a b _ _ hab hba => absurd hab hba.not_gt) (hsorted h) (hsorted h')

end Unique

end GridRuns
