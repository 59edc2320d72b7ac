/-
# A search that stops at its targets

A small library about a breadth-first search from one element. A target is
recorded when it is popped and is not expanded; any other element pushes its
successors that have not been seen. Every queue entry carries the labels of the
edges it was reached by, and a recorded target adds its labels to the trail.

* `mem_found_iff`: with enough fuel, what is found are the targets that can be
  reached without passing another target.
* `trail_ne_nil`: where every edge has a label and the start is no target, a
  search that finds something leaves a trail.

As in the worklist loop, the fuel is the length of the queue plus the number of
elements of a finite universe that have not been seen.
-/
import Mathlib.Data.Finset.Card

namespace StopSearch

open List

universe u v

variable {α : Type u} {β : Type v} [DecidableEq α]

/-! ## The loop -/

/-- The queue with the labels of each entry's path, what has been seen, the
targets found and the labels of the paths to them. -/
structure State (α : Type u) (β : Type v) where
  queue : List (α × List β)
  seen : List α
  found : List α
  trail : List β

/-- The search from `a` before its first turn. -/
def State.start (a : α) : State α β := ⟨[(a, [])], [a], [], []⟩

/-- Push the end of an edge after `path`, unless it has been seen. -/
def visit (path : List β) (acc : List (α × List β) × List α) (edge : α × List β) :
    List (α × List β) × List α :=
  if edge.1 ∈ acc.2 then acc
  else (acc.1 ++ [(edge.1, path ++ edge.2)], acc.2 ++ [edge.1])

variable (stop : α → Prop) [DecidablePred stop] (next : α → List (α × List β))

/-- The search loop. -/
def run : ℕ → State α β → State α β
  | 0, s => s
  | n + 1, s =>
    match s.queue with
    | [] => s
    | (current, path) :: queue =>
      if stop current then
        run n { s with queue := queue, found := s.found ++ [current], trail := s.trail ++ path }
      else
        let acc := (next current).foldl (visit path) (queue, s.seen)
        run n { s with queue := acc.1, seen := acc.2 }

/-! ## One turn -/

omit [DecidablePred stop] in
/-- An expansion pushes the successors that were not seen, each with the path
to the expanded element and its own edge. -/
theorem foldl_visit (path : List β) (edges : List (α × List β)) (queue : List (α × List β))
    (seen : List α) :
    ∃ fresh : List (α × List β),
      edges.foldl (visit path) (queue, seen) = (queue ++ fresh, seen ++ fresh.map Prod.fst) ∧
      (fresh.map Prod.fst).Nodup ∧
      (∀ e ∈ fresh, e.1 ∉ seen ∧ ∃ labels, (e.1, labels) ∈ edges ∧ e.2 = path ++ labels) ∧
      ∀ e ∈ edges, e.1 ∈ seen ++ fresh.map Prod.fst := by
  induction edges generalizing queue seen with
  | nil => exact ⟨[], by simp, nodup_nil, by simp, by simp⟩
  | cons edge edges ih =>
    by_cases hseen : edge.1 ∈ seen
    · obtain ⟨fresh, hfold, hnodup, hfresh, hall⟩ := ih queue seen
      refine ⟨fresh, ?_, hnodup, fun e he => ?_, fun e he => ?_⟩
      · rw [foldl_cons, visit, if_pos hseen, hfold]
      · obtain ⟨hnot, labels, hmem, heq⟩ := hfresh e he
        exact ⟨hnot, labels, mem_cons_of_mem _ hmem, heq⟩
      · rcases mem_cons.1 he with rfl | he
        · exact mem_append_left _ hseen
        · exact hall e he
    · obtain ⟨fresh, hfold, hnodup, hfresh, hall⟩ :=
        ih (queue ++ [(edge.1, path ++ edge.2)]) (seen ++ [edge.1])
      refine ⟨(edge.1, path ++ edge.2) :: fresh, ?_, ?_, fun e he => ?_, fun e he => ?_⟩
      · rw [foldl_cons, visit, if_neg hseen, hfold]
        simp
      · refine nodup_cons.2 ⟨fun hmem => ?_, hnodup⟩
        obtain ⟨e, he, heq⟩ := mem_map.1 hmem
        exact (hfresh e he).1 (by simp [heq])
      · rcases mem_cons.1 he with rfl | he
        · exact ⟨hseen, edge.2, mem_cons_self, rfl⟩
        · obtain ⟨hnot, labels, hmem, heq⟩ := hfresh e he
          exact ⟨fun h => hnot (mem_append_left _ h), labels, mem_cons_of_mem _ hmem, heq⟩
      · rcases mem_cons.1 he with rfl | he
        · simp
        · have hmem := hall e he
          simpa [append_assoc] using hmem

/-- `y` follows `x`, which is no target. -/
def Expands (x y : α) : Prop := ¬ stop x ∧ y ∈ (next x).map Prod.fst

/-- `y` can be reached from `x` without passing a target. -/
def Reaches (x y : α) : Prop := Relation.ReflTransGen (Expands stop next) x y

/-- What holds between two turns of the search from `a`. -/
structure Inv (a : α) (s : State α β) : Prop where
  started : a ∈ s.seen
  nodup : s.seen.Nodup
  queued : ∀ e ∈ s.queue, e.1 ∈ s.seen
  reached : ∀ x ∈ s.seen, Reaches stop next a x
  found : ∀ x ∈ s.found, stop x ∧ x ∈ s.seen
  recorded : ∀ x ∈ s.seen, x ∉ s.queue.map Prod.fst → stop x → x ∈ s.found
  expanded : ∀ x ∈ s.seen, x ∉ s.queue.map Prod.fst → ∀ y, Expands stop next x y → y ∈ s.seen

omit [DecidableEq α] [DecidablePred stop] in
theorem Inv.start (a : α) : Inv stop next a (State.start a) where
  started := mem_singleton_self a
  nodup := nodup_singleton a
  queued e he := by
    obtain rfl := mem_singleton.1 he
    exact mem_singleton_self a
  reached x hx := by
    obtain rfl : x = a := mem_singleton.1 hx
    exact .refl
  found x hx := absurd hx not_mem_nil
  recorded x hx hnot _ := absurd hx hnot
  expanded x hx hnot _ _ := absurd hx hnot

variable {stop next} {a current : α} {path : List β} {queue fresh : List (α × List β)}
  {s : State α β}

omit [DecidableEq α] [DecidablePred stop] in
/-- A popped target is recorded. -/
theorem Inv.record (h : Inv stop next a s) (hqueue : s.queue = (current, path) :: queue)
    (hstop : stop current) :
    Inv stop next a
      { s with queue := queue, found := s.found ++ [current], trail := s.trail ++ path } where
  started := h.started
  nodup := h.nodup
  queued e he := h.queued e (by rw [hqueue]; exact mem_cons_of_mem _ he)
  reached := h.reached
  found x hx := by
    rcases mem_append.1 hx with hx | hx
    · exact h.found x hx
    · obtain rfl := mem_singleton.1 hx
      exact ⟨hstop, h.queued (x, path) (by rw [hqueue]; exact mem_cons_self)⟩
  recorded x hx hnot hx' := by
    by_cases hcurrent : x = current
    · exact mem_append_right _ (mem_singleton.2 hcurrent)
    · refine mem_append_left _ (h.recorded x hx (fun hmem => ?_) hx')
      rw [hqueue, map_cons] at hmem
      exact hnot ((mem_cons.1 hmem).resolve_left hcurrent)
  expanded x hx hnot y hy := by
    refine h.expanded x hx (fun hmem => ?_) y hy
    rw [hqueue, map_cons] at hmem
    rcases mem_cons.1 hmem with rfl | hmem
    · exact hy.1 hstop
    · exact hnot hmem

omit [DecidableEq α] [DecidablePred stop] in
/-- A popped element that is no target is expanded. -/
theorem Inv.expand (h : Inv stop next a s) (hqueue : s.queue = (current, path) :: queue)
    (hstop : ¬ stop current) (hnodup : (fresh.map Prod.fst).Nodup)
    (hfresh : ∀ e ∈ fresh, e.1 ∉ s.seen ∧
      ∃ labels, (e.1, labels) ∈ next current ∧ e.2 = path ++ labels)
    (hall : ∀ e ∈ next current, e.1 ∈ s.seen ++ fresh.map Prod.fst) :
    Inv stop next a
      { s with queue := queue ++ fresh, seen := s.seen ++ fresh.map Prod.fst } where
  started := mem_append_left _ h.started
  nodup := by
    refine nodup_append.2 ⟨h.nodup, hnodup, fun x hx y hy hxy => ?_⟩
    obtain ⟨e, he, rfl⟩ := mem_map.1 hy
    exact (hfresh e he).1 (hxy ▸ hx)
  queued e he := by
    rcases mem_append.1 he with he | he
    · exact mem_append_left _ (h.queued e (by rw [hqueue]; exact mem_cons_of_mem _ he))
    · exact mem_append_right _ (mem_map_of_mem he)
  reached x hx := by
    rcases mem_append.1 hx with hx | hx
    · exact h.reached x hx
    · obtain ⟨e, he, rfl⟩ := mem_map.1 hx
      obtain ⟨-, labels, hmem, -⟩ := hfresh e he
      have hcurrent : Reaches stop next a current :=
        h.reached current (h.queued (current, path) (by rw [hqueue]; exact mem_cons_self))
      exact hcurrent.tail ⟨hstop, mem_map.2 ⟨_, hmem, rfl⟩⟩
  found x hx := ⟨(h.found x hx).1, mem_append_left _ (h.found x hx).2⟩
  recorded x hx hnot hx' := by
    have hseen : x ∈ s.seen := (mem_append.1 hx).resolve_right fun hmem => hnot (by
      rw [map_append]
      exact mem_append_right _ hmem)
    refine h.recorded x hseen (fun hmem => ?_) hx'
    rw [hqueue, map_cons] at hmem
    rcases mem_cons.1 hmem with rfl | hmem
    · exact hstop hx'
    · exact hnot (by rw [map_append]; exact mem_append_left _ hmem)
  expanded x hx hnot y hy := by
    have hseen : x ∈ s.seen := (mem_append.1 hx).resolve_right fun hmem => hnot (by
      rw [map_append]
      exact mem_append_right _ hmem)
    by_cases hcurrent : x = current
    · obtain ⟨e, he, rfl⟩ := mem_map.1 hy.2
      exact hall e (hcurrent ▸ he)
    · refine mem_append_left _ (h.expanded x hseen (fun hmem => ?_) y hy)
      rw [hqueue, map_cons] at hmem
      refine hnot ?_
      rw [map_append]
      exact mem_append_left _ ((mem_cons.1 hmem).resolve_left hcurrent)

omit [DecidableEq α] [DecidablePred stop] in
/-- A path to a target passes a first target. -/
theorem exists_reaches {x : α} (hstop : stop x)
    (h : Relation.ReflTransGen (fun x y => y ∈ (next x).map Prod.fst) a x) :
    ∃ y, stop y ∧ Reaches stop next a y := by
  induction h using Relation.ReflTransGen.head_induction_on with
  | refl => exact ⟨x, hstop, .refl⟩
  | @head b c hedge _ ih =>
    obtain ⟨y, hy, hreach⟩ := ih
    by_cases hb : stop b
    · exact ⟨b, hb, .refl⟩
    · exact ⟨y, hy, hreach.head ⟨hb, hedge⟩⟩

/-! ## The whole search -/

/-- With enough fuel for a universe that holds every successor, the search ends
with an empty queue and the invariant. -/
theorem inv_run (U : Finset α) (hnext : ∀ x, ∀ e ∈ next x, e.1 ∈ U) (n : ℕ) {s : State α β}
    (hinv : Inv stop next a s) (hseen : ∀ x ∈ s.seen, x ∈ U)
    (hfuel : s.queue.length + (U.card - s.seen.length) ≤ n) :
    Inv stop next a (run stop next n s) ∧ (run stop next n s).queue = [] := by
  induction n generalizing s with
  | zero =>
    have hlength : s.queue.length = 0 := by omega
    exact ⟨hinv, eq_nil_of_length_eq_zero hlength⟩
  | succ n ih =>
    rw [run]
    split
    · next hnil => exact ⟨hinv, hnil⟩
    next current path queue hqueue =>
      rw [hqueue, length_cons] at hfuel
      split_ifs with hstop
      · exact ih (hinv.record hqueue hstop) hseen (by simp only; omega)
      · obtain ⟨fresh, hfold, hnodup, hfresh, hall⟩ :=
          foldl_visit path (next current) queue s.seen
        simp only [hfold]
        have hinv' := hinv.expand hqueue hstop hnodup hfresh hall
        have hseen' : ∀ x ∈ s.seen ++ fresh.map Prod.fst, x ∈ U := by
          intro x hx
          rcases mem_append.1 hx with hx | hx
          · exact hseen x hx
          · obtain ⟨e, he, rfl⟩ := mem_map.1 hx
            obtain ⟨-, labels, hmem, -⟩ := hfresh e he
            exact hnext current (_, labels) hmem
        -- the fresh elements are paid for by the universe
        have hcard : (s.seen ++ fresh.map Prod.fst).length ≤ U.card := by
          rw [← toFinset_card_of_nodup hinv'.nodup]
          exact Finset.card_le_card fun x hx => hseen' x (mem_toFinset.1 hx)
        refine ih hinv' hseen' ?_
        simp only [length_append, length_map] at hcard ⊢
        omega

/-- **What is found.**  The search records the targets that it can reach without
passing another one. -/
theorem mem_found_iff (U : Finset α) (hnext : ∀ x, ∀ e ∈ next x, e.1 ∈ U) (ha : a ∈ U) {n : ℕ}
    (hfuel : U.card ≤ n) (x : α) :
    x ∈ (run stop next n (State.start a)).found ↔ stop x ∧ Reaches stop next a x := by
  obtain ⟨hinv, hempty⟩ := inv_run U hnext n (Inv.start stop next a)
    (fun x hx => by rwa [mem_singleton.1 hx]) (by
      have hpos : 0 < U.card := Finset.card_pos.2 ⟨a, ha⟩
      simp only [State.start, length_singleton]
      omega)
  have hqueue : ∀ y, y ∉ ((run stop next n (State.start a)).queue.map Prod.fst) := by
    rw [hempty]
    exact fun y => not_mem_nil
  have hseen : ∀ y, Reaches stop next a y → y ∈ (run stop next n (State.start a)).seen := by
    intro y hreach
    induction hreach with
    | refl => exact hinv.started
    | tail _ hlast ih => exact hinv.expanded _ ih (hqueue _) _ hlast
  constructor
  · intro hx
    obtain ⟨hstop, hmem⟩ := hinv.found x hx
    exact ⟨hstop, hinv.reached x hmem⟩
  · rintro ⟨hstop, hreach⟩
    exact hinv.recorded x (hseen x hreach) (hqueue x) hstop

/-- The labels in the queue and on the trail: only the start has no labels. -/
structure Labelled (a : α) (s : State α β) : Prop where
  queued : ∀ e ∈ s.queue, e.2 = [] → e.1 = a
  trail : s.found ≠ [] → s.trail ≠ []

/-- **The trail.** -/
theorem trail_ne_nil (hlabels : ∀ x, ∀ e ∈ next x, e.2 ≠ []) (ha : ¬ stop a) (n : ℕ)
    {s : State α β} (h : Labelled a s) :
    (run stop next n s).found ≠ [] → (run stop next n s).trail ≠ [] := by
  induction n generalizing s with
  | zero => exact h.trail
  | succ n ih =>
    rw [run]
    split
    · exact h.trail
    next current path queue hqueue =>
      split_ifs with hstop
      · refine ih ⟨fun e he => h.queued e (by rw [hqueue]; exact mem_cons_of_mem _ he),
          fun _ => ?_⟩
        have hpath : path ≠ [] := fun hnil => by
          have hcurrent := h.queued (current, path) (by rw [hqueue]; exact mem_cons_self) hnil
          exact ha (hcurrent ▸ hstop)
        simp [hpath]
      · obtain ⟨fresh, hfold, -, hfresh, -⟩ := foldl_visit path (next current) queue s.seen
        simp only [hfold]
        refine ih ⟨fun e he hnil => ?_, h.trail⟩
        rcases mem_append.1 he with he | he
        · exact h.queued e (by rw [hqueue]; exact mem_cons_of_mem _ he) hnil
        · obtain ⟨-, labels, hmem, heq⟩ := hfresh e he
          rw [heq] at hnil
          exact absurd (append_eq_nil_iff.1 hnil).2 (hlabels current _ hmem)

omit [DecidableEq α] in
theorem Labelled.start (a : α) : Labelled a (State.start a : State α β) where
  queued e he _ := by rw [mem_singleton.1 he]
  trail h := absurd rfl h

end StopSearch
