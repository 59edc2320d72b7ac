/-
# Closing a set with a worklist

A small library about the breadth-first loop that pops an element off a queue
and pushes its successors that have not been seen. Over a finite universe the
loop ends with a closed set, and with the least one: an element is seen at the
end exactly when it can be reached from the start.

The loop runs on fuel. Each turn pops one element and every push is paid for by
an element of the universe that becomes seen, so the length of the queue plus
the number of unseen elements is enough fuel.
-/
import Mathlib.Data.Finset.Card

namespace Worklist

open List

universe u

variable {α : Type u} [DecidableEq α]

/-! ## The loop -/

/-- Push `x`, unless it has been seen. The state is the seen list and the queue. -/
def visit (s : List α × List α) (x : α) : List α × List α :=
  if x ∈ s.1 then s else (s.1 ++ [x], s.2 ++ [x])

/-- The worklist loop: queue, then seen. -/
def run (next : α → List α) : ℕ → List α → List α → List α
  | 0, _, seen => seen
  | _ + 1, [], seen => seen
  | n + 1, current :: queue, seen =>
    let s := (next current).foldl visit (seen, queue)
    run next n s.2 s.1

/-- The elements seen when the loop starts with `start` queued and seen. -/
def closure (next : α → List α) (n : ℕ) (start : List α) : List α := run next n start start

/-! ## One turn -/

/-- A turn appends the same fresh elements to both lists: the successors that
were not seen. -/
theorem foldl_visit (xs seen queue : List α) :
    ∃ fresh, xs.foldl visit (seen, queue) = (seen ++ fresh, queue ++ fresh) ∧
      fresh.Nodup ∧ (∀ x ∈ fresh, x ∉ seen ∧ x ∈ xs) ∧ ∀ x ∈ xs, x ∈ seen ++ fresh := by
  induction xs generalizing seen queue with
  | nil => exact ⟨[], by simp, nodup_nil, by simp, by simp⟩
  | cons x xs ih =>
    by_cases hx : x ∈ seen
    · obtain ⟨fresh, hfold, hnodup, hfresh, hall⟩ := ih seen queue
      refine ⟨fresh, ?_, hnodup, fun y hy => ⟨(hfresh y hy).1, ?_⟩, fun y hy => ?_⟩
      · rw [foldl_cons, visit, if_pos hx, hfold]
      · exact mem_cons_of_mem x (hfresh y hy).2
      · rcases mem_cons.1 hy with rfl | hy
        · exact mem_append_left fresh hx
        · exact hall y hy
    · obtain ⟨fresh, hfold, hnodup, hfresh, hall⟩ := ih (seen ++ [x]) (queue ++ [x])
      refine ⟨x :: fresh, ?_, ?_, fun y hy => ?_, fun y hy => ?_⟩
      · rw [foldl_cons, visit, if_neg hx, hfold]
        simp
      · refine nodup_cons.2 ⟨fun hmem => ?_, hnodup⟩
        exact (hfresh x hmem).1 (by simp)
      · rcases mem_cons.1 hy with rfl | hy
        · exact ⟨hx, mem_cons_self⟩
        · obtain ⟨hnot, hmem⟩ := hfresh y hy
          exact ⟨fun h => hnot (mem_append_left _ h), mem_cons_of_mem x hmem⟩
      · rcases mem_cons.1 hy with rfl | hy
        · simp
        · have hmem := hall y hy
          simpa [append_assoc] using hmem

/-- What holds between two turns: queued elements are seen, and the successors
of an element that is no longer queued are seen. -/
structure Inv (next : α → List α) (queue seen : List α) : Prop where
  queued : ∀ x ∈ queue, x ∈ seen
  expanded : ∀ x ∈ seen, x ∉ queue → ∀ y ∈ next x, y ∈ seen

omit [DecidableEq α] in
theorem Inv.start (next : α → List α) (start : List α) : Inv next start start :=
  ⟨fun _ h => h, fun _ h hnot => absurd h hnot⟩

/-- A turn keeps the invariant. -/
theorem Inv.turn {next : α → List α} {current : α} {queue seen fresh : List α}
    (h : Inv next (current :: queue) seen)
    (hall : ∀ x ∈ next current, x ∈ seen ++ fresh) :
    Inv next (queue ++ fresh) (seen ++ fresh) := by
  refine ⟨fun x hx => ?_, fun x hx hnot y hy => ?_⟩
  · rcases mem_append.1 hx with hx | hx
    · exact mem_append_left _ (h.queued x (mem_cons_of_mem _ hx))
    · exact mem_append_right _ hx
  · have hqueue : x ∉ queue := fun hq => hnot (mem_append_left _ hq)
    have hseen : x ∈ seen :=
      (mem_append.1 hx).resolve_right fun hf => hnot (mem_append_right _ hf)
    by_cases hcurrent : x = current
    · exact hall y (hcurrent ▸ hy)
    · refine mem_append_left _ (h.expanded x hseen (fun hq => ?_) y hy)
      exact hqueue ((mem_cons.1 hq).resolve_left hcurrent)

/-! ## The whole loop -/

variable {next : α → List α}

/-- Nothing that was seen is lost. -/
theorem subset_run (n : ℕ) (queue seen : List α) : ∀ x ∈ seen, x ∈ run next n queue seen := by
  induction n generalizing queue seen with
  | zero => exact fun x hx => hx
  | succ n ih =>
    cases queue with
    | nil => exact fun x hx => hx
    | cons current queue =>
      obtain ⟨fresh, hfold, -⟩ := foldl_visit (next current) seen queue
      intro x hx
      simp only [run, hfold]
      exact ih _ _ x (mem_append_left _ hx)

/-- Everything seen is reached from the start. -/
theorem reached_of_mem_run (n : ℕ) {queue seen : List α} (hqueued : ∀ x ∈ queue, x ∈ seen) :
    ∀ y ∈ run next n queue seen, ∃ x ∈ seen, Relation.ReflTransGen (fun a b => b ∈ next a) x y := by
  induction n generalizing queue seen with
  | zero => exact fun y hy => ⟨y, hy, .refl⟩
  | succ n ih =>
    cases queue with
    | nil => exact fun y hy => ⟨y, hy, .refl⟩
    | cons current queue =>
      obtain ⟨fresh, hfold, -, hfresh, -⟩ := foldl_visit (next current) seen queue
      intro y hy
      simp only [run, hfold] at hy
      have hqueued' : ∀ x ∈ queue ++ fresh, x ∈ seen ++ fresh := by
        intro x hx
        rcases mem_append.1 hx with hx | hx
        · exact mem_append_left _ (hqueued x (mem_cons_of_mem _ hx))
        · exact mem_append_right _ hx
      obtain ⟨x, hx, hreach⟩ := ih hqueued' y hy
      rcases mem_append.1 hx with hx | hx
      · exact ⟨x, hx, hreach⟩
      · exact ⟨current, hqueued current mem_cons_self, .head (hfresh x hx).2 hreach⟩

/-- **Closure.**  With enough fuel for a finite universe that holds every
successor, the loop ends with a closed set. -/
theorem closed_run (U : Finset α) (hnext : ∀ x, ∀ y ∈ next x, y ∈ U) (n : ℕ)
    {queue seen : List α} (hinv : Inv next queue seen) (hnodup : seen.Nodup)
    (hseen : ∀ x ∈ seen, x ∈ U) (hfuel : queue.length + (U.card - seen.length) ≤ n) :
    ∀ x ∈ run next n queue seen, ∀ y ∈ next x, y ∈ run next n queue seen := by
  induction n generalizing queue seen with
  | zero =>
    have hnil : queue = [] := eq_nil_of_length_eq_zero (by omega)
    subst hnil
    exact fun x hx y hy => hinv.expanded x hx not_mem_nil y hy
  | succ n ih =>
    cases queue with
    | nil => exact fun x hx y hy => hinv.expanded x hx not_mem_nil y hy
    | cons current queue =>
      obtain ⟨fresh, hfold, hfreshNodup, hfresh, hall⟩ :=
        foldl_visit (next current) seen queue
      simp only [run, hfold]
      have hnodup' : (seen ++ fresh).Nodup := by
        refine nodup_append.2 ⟨hnodup, hfreshNodup, fun x hx y hy hxy => ?_⟩
        exact (hfresh y hy).1 (hxy ▸ hx)
      have hseen' : ∀ x ∈ seen ++ fresh, x ∈ U := by
        intro x hx
        rcases mem_append.1 hx with hx | hx
        · exact hseen x hx
        · exact hnext current x (hfresh x hx).2
      -- the fresh elements are paid for by the universe
      have hcard : (seen ++ fresh).length ≤ U.card := by
        rw [← toFinset_card_of_nodup hnodup']
        exact Finset.card_le_card fun x hx => hseen' x (mem_toFinset.1 hx)
      refine ih (hinv.turn hall) hnodup' hseen' ?_
      simp only [length_append, length_cons] at hcard hfuel ⊢
      omega

/-- The seen list never repeats an element. -/
theorem nodup_run (n : ℕ) {queue seen : List α} (hnodup : seen.Nodup) :
    (run next n queue seen).Nodup := by
  induction n generalizing queue seen with
  | zero => exact hnodup
  | succ n ih =>
    cases queue with
    | nil => exact hnodup
    | cons current queue =>
      obtain ⟨fresh, hfold, hfreshNodup, hfresh, -⟩ :=
        foldl_visit (next current) seen queue
      simp only [run, hfold]
      apply ih
      refine nodup_append.2 ⟨hnodup, hfreshNodup, fun x hx y hy hxy => ?_⟩
      exact (hfresh y hy).1 (hxy ▸ hx)

/-- What is seen stays inside a universe that is closed under successors. -/
theorem mem_of_mem_closure {P : α → Prop} (hnext : ∀ x, ∀ y ∈ next x, P y) {n : ℕ}
    {start : List α} (hstart : ∀ x ∈ start, P x) : ∀ y ∈ closure next n start, P y := by
  intro y hy
  obtain ⟨x, hx, hreach⟩ := reached_of_mem_run n (fun _ h => h) y hy
  rcases hreach.cases_tail with rfl | ⟨z, -, hstep⟩
  · exact hstart _ hx
  · exact hnext z y hstep

/-- The closure is closed. -/
theorem closed_closure (U : Finset α) (hnext : ∀ x, ∀ y ∈ next x, y ∈ U) {n : ℕ}
    {start : List α} (hnodup : start.Nodup) (hstart : ∀ x ∈ start, x ∈ U) (hfuel : U.card ≤ n) :
    ∀ x ∈ closure next n start, ∀ y ∈ next x, y ∈ closure next n start := by
  have hlength : start.length ≤ U.card := by
    rw [← toFinset_card_of_nodup hnodup]
    exact Finset.card_le_card fun x hx => hstart x (mem_toFinset.1 hx)
  exact closed_run U hnext n (Inv.start next start) hnodup hstart (by omega)

/-- **The loop computes reachability.** -/
theorem mem_closure_iff (U : Finset α) (hnext : ∀ x, ∀ y ∈ next x, y ∈ U) {n : ℕ}
    {start : List α} (hnodup : start.Nodup) (hstart : ∀ x ∈ start, x ∈ U) (hfuel : U.card ≤ n)
    (y : α) :
    y ∈ closure next n start ↔
      ∃ x ∈ start, Relation.ReflTransGen (fun a b => b ∈ next a) x y := by
  have hclosed := closed_closure U hnext hnodup hstart hfuel
  constructor
  · intro hy
    exact reached_of_mem_run n (fun _ h => h) y hy
  · rintro ⟨x, hx, hreach⟩
    induction hreach with
    | refl => exact subset_run n start start x hx
    | tail _ hbc ih => exact hclosed _ ih _ hbc

end Worklist
