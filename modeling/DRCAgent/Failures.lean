/-
# Computations that must not fail

A computation in `Except` fails with an error, and some errors are of a kind that must not
occur. `Never` says that they do not, and its rules follow a computation through binds,
branches and loops. A loop runs over a list until an element ends it, so an element
matters only if it is reached.

Main result:

* `never_run`: a loop never fails badly exactly when no element that it reaches does.
-/
import Mathlib.Data.List.Forall2

namespace Failures

open List

universe u v w

variable {ε : Type u} {α β γ : Type v} {bad : ε → Prop}

/-- The computation does not fail with an error of the kind. -/
def Never (bad : ε → Prop) (x : Except ε α) : Prop := ∀ e, x = .error e → ¬ bad e

/-! ## One step -/

@[simp]
theorem never_ok (a : α) : Never bad (.ok a) := fun _ h => nomatch h

@[simp]
theorem never_pure (a : α) : Never bad (pure a : Except ε α) := never_ok a

@[simp]
theorem never_error (e : ε) : Never bad (.error e : Except ε α) ↔ ¬ bad e :=
  ⟨fun h => h e rfl, fun h _ heq => Except.error.inj heq ▸ h⟩

theorem never_bind {x : Except ε α} {f : α → Except ε β} :
    Never bad (x >>= f) ↔ Never bad x ∧ ∀ a, x = .ok a → Never bad (f a) := by
  cases x with
  | error e =>
    show Never bad (.error e) ↔ _
    rw [never_error, never_error]
    exact ⟨fun h => ⟨h, fun _ heq => nomatch heq⟩, fun h => h.1⟩
  | ok a =>
    show Never bad (f a) ↔ _
    constructor
    · intro h
      refine ⟨never_ok a, fun b hb => ?_⟩
      rwa [← Except.ok.inj hb]
    · exact fun h => h.2 a rfl

theorem never_ite {c : Prop} [Decidable c] {x y : Except ε α} :
    Never bad (if c then x else y) ↔ (c → Never bad x) ∧ (¬ c → Never bad y) := by
  by_cases hc : c
  · rw [if_pos hc]
    exact ⟨fun h => ⟨fun _ => h, fun hn => absurd hc hn⟩, fun h => h.1 hc⟩
  · rw [if_neg hc]
    exact ⟨fun h => ⟨fun hp => absurd hp hc, fun _ => h⟩, fun h => h.2 hc⟩

/-- Every error. -/
def anything (_ : ε) : Prop := True

theorem not_never_error {e : ε} : ¬ Never anything (.error e : Except ε α) :=
  fun h => h e rfl trivial

/-- Where no error at all may occur, the computation returns. -/
theorem never_anything {x : Except ε α} : Never anything x ↔ ∃ a, x = .ok a := by
  cases x with
  | error e =>
    rw [never_error, anything, not_true]
    constructor
    · exact False.elim
    · rintro ⟨_, h⟩
      cases h
  | ok a => exact ⟨fun _ => ⟨a, rfl⟩, fun _ => never_ok a⟩

/-- An error that a condition guards. -/
theorem never_anything_guard {c : Prop} [Decidable c] {e : ε} {a : α} :
    Never anything (if c then .error e else .ok a : Except ε α) ↔ ¬ c := by
  by_cases hc : c
  · rw [if_pos hc]
    exact ⟨fun h => absurd h not_never_error, fun h => absurd hc h⟩
  · rw [if_neg hc]
    exact ⟨fun _ => hc, fun _ => never_ok a⟩

/-- The rule for binds where no error at all may occur. -/
theorem never_anything_bind {x : Except ε α} {f : α → Except ε β} :
    Never anything (x >>= f) ↔ ∃ a, x = .ok a ∧ Never anything (f a) := by
  rw [never_bind]
  constructor
  · rintro ⟨hx, hf⟩
    obtain ⟨a, ha⟩ := never_anything.1 hx
    exact ⟨a, ha, hf a ha⟩
  · rintro ⟨a, rfl, hf⟩
    refine ⟨never_ok a, fun b hb => ?_⟩
    rwa [← Except.ok.inj hb]

/-- A value that is only handed on. -/
theorem never_anything_bind_ok {x : Except ε α} {f : α → Except ε β}
    (hf : ∀ a, Never anything (f a)) : Never anything (x >>= f) ↔ Never anything x := by
  rw [never_bind]
  exact and_iff_left fun a _ => hf a

/-- Two values that do not depend on each other. -/
theorem never_anything_both {x : Except ε α} {y : Except ε β} {f : α → β → γ} :
    Never anything (x >>= fun a => y >>= fun b => (pure (f a b) : Except ε γ)) ↔
      Never anything x ∧ Never anything y := by
  rw [never_bind]
  refine and_congr_right fun hx => ?_
  obtain ⟨a, ha⟩ := never_anything.1 hx
  have hy : ∀ a, Never anything (y >>= fun b => (pure (f a b) : Except ε γ)) ↔
      Never anything y := fun a => never_anything_bind_ok fun _ => never_pure _
  exact ⟨fun h => (hy a).1 (h a ha), fun h a _ => (hy a).2 h⟩

/-- A bind returns where both of its parts do. -/
theorem bind_eq_ok {x : Except ε α} {f : α → Except ε β} {b : β} :
    (x >>= f) = .ok b ↔ ∃ a, x = .ok a ∧ f a = .ok b := by
  cases x with
  | error e => exact ⟨fun h => (nomatch h), fun ⟨_, h, _⟩ => nomatch h⟩
  | ok a =>
    show f a = .ok b ↔ _
    constructor
    · exact fun h => ⟨a, rfl, h⟩
    · rintro ⟨a', ha, h⟩
      rwa [Except.ok.inj ha]

/-- An error that a condition guards, before what else there is. -/
theorem guard_eq_ok {c : Prop} [Decidable c] {e : ε} {x : Except ε α} {a : α} :
    (if c then .error e else x) = .ok a ↔ ¬ c ∧ x = .ok a := by
  by_cases hc : c
  · rw [if_pos hc]
    exact ⟨fun h => (nomatch h), fun h => absurd hc h.1⟩
  · rw [if_neg hc]
    exact ⟨fun h => ⟨hc, h⟩, fun h => h.2⟩

/-! ## Loops -/

section Loops

variable {κ : Type w} {l : List κ} {a b : κ} {goes : κ → Prop}

/-- The element is reached: what stands before it lets the loop go on. -/
def ReachedIn (goes : κ → Prop) (l : List κ) (a : κ) : Prop :=
  ∃ before after, l = before ++ a :: after ∧ ∀ b ∈ before, goes b

theorem not_reachedIn_nil : ¬ ReachedIn goes [] a := by
  rintro ⟨before, after, h, -⟩
  cases before <;> cases h

theorem reachedIn_cons : ReachedIn goes (b :: l) a ↔ a = b ∨ goes b ∧ ReachedIn goes l a := by
  constructor
  · rintro ⟨before, after, h, hgoes⟩
    cases before with
    | nil => exact .inl (cons.inj h).1.symm
    | cons c before =>
      obtain ⟨rfl, rfl⟩ := cons.inj h
      refine .inr ⟨hgoes b mem_cons_self, before, after, rfl, fun d hd => ?_⟩
      exact hgoes d (mem_cons_of_mem _ hd)
  · rintro (rfl | ⟨hb, before, after, rfl, hgoes⟩)
    · exact ⟨[], l, rfl, fun _ h => nomatch h⟩
    · refine ⟨b :: before, after, rfl, fun d hd => ?_⟩
      rcases mem_cons.1 hd with rfl | hd
      · exact hb
      · exact hgoes d hd

theorem ReachedIn.mem (h : ReachedIn goes l a) : a ∈ l := by
  obtain ⟨before, after, rfl, -⟩ := h
  exact mem_append_right _ mem_cons_self

/-- **A loop never fails badly exactly when no element that it reaches does.** -/
theorem never_run (run : List κ → Except ε β) {fine : κ → Prop} (hnil : Never bad (run []))
    (hcons : ∀ a l, Never bad (run (a :: l)) ↔ fine a ∧ (goes a → Never bad (run l))) :
    Never bad (run l) ↔ ∀ a, ReachedIn goes l a → fine a := by
  induction l with
  | nil => exact ⟨fun _ a ha => absurd ha not_reachedIn_nil, fun _ => hnil⟩
  | cons b l ih =>
    rw [hcons]
    constructor
    · rintro ⟨hfine, hrest⟩ a ha
      rcases reachedIn_cons.1 ha with rfl | ⟨hgoes, ha⟩
      · exact hfine
      · exact ih.1 (hrest hgoes) a ha
    · intro h
      refine ⟨h b (reachedIn_cons.2 (.inl rfl)), fun hgoes => ih.2 fun a ha => ?_⟩
      exact h a (reachedIn_cons.2 (.inr ⟨hgoes, ha⟩))

/-- A loop for its effect goes on while the steps return. -/
theorem never_forM {f : κ → Except ε PUnit} :
    Never bad (l.forM f) ↔ ∀ a, ReachedIn (fun b => f b = .ok ⟨⟩) l a → Never bad (f a) := by
  refine never_run (fun l => l.forM f) (never_ok _) fun a l => ?_
  show Never bad (f a >>= fun _ => l.forM f) ↔ _
  rw [never_bind]
  refine and_congr_right fun _ => ⟨fun h hok => h _ hok, fun h _ hok => h hok⟩

/-- A loop on a state whose steps never fail badly. -/
theorem never_foldlM {f : β → κ → Except ε β} (h : ∀ s a, Never bad (f s a)) (s : β) :
    Never bad (l.foldlM f s) := by
  induction l generalizing s with
  | nil => exact never_ok s
  | cons a l ih =>
    rw [foldlM_cons, never_bind]
    exact ⟨h s a, fun s' _ => ih s'⟩

/-- In a loop that returned, every element was stepped over, so it has what a step that
returns checks. -/
theorem foldlM_forall {f : β → κ → Except ε β} {P : κ → Prop}
    (hstep : ∀ s a s', f s a = .ok s' → P a) {s s' : β} (h : l.foldlM f s = .ok s') :
    ∀ a ∈ l, P a := by
  induction l generalizing s with
  | nil => exact fun a ha => absurd ha not_mem_nil
  | cons a l ih =>
    rw [foldlM_cons] at h
    cases hfirst : f s a with
    | error e =>
      rw [hfirst] at h
      cases h
    | ok middle =>
      rw [hfirst] at h
      exact forall_mem_cons.2 ⟨hstep s a middle hfirst, ih h⟩

/-- A loop whose steps return where the elements are fine returns where all are, with what
the steps compute. -/
theorem foldlM_eq_ok {f : β → κ → Except ε β} {g : β → κ → β} {P : κ → Prop}
    (hstep : ∀ s a s', f s a = .ok s' ↔ P a ∧ s' = g s a) (s s' : β) :
    l.foldlM f s = .ok s' ↔ (∀ a ∈ l, P a) ∧ s' = l.foldl g s := by
  induction l generalizing s with
  | nil =>
    refine ⟨fun h => ⟨fun a ha => absurd ha not_mem_nil, (Except.ok.inj h).symm⟩, ?_⟩
    rintro ⟨-, rfl⟩
    rfl
  | cons a l ih =>
    rw [foldlM_cons, bind_eq_ok, forall_mem_cons, foldl_cons]
    constructor
    · rintro ⟨middle, hmiddle, h⟩
      obtain ⟨hfine, rfl⟩ := (hstep s a middle).1 hmiddle
      obtain ⟨hrest, heq⟩ := (ih (g s a)).1 h
      exact ⟨⟨hfine, hrest⟩, heq⟩
    · rintro ⟨⟨hfine, hrest⟩, heq⟩
      exact ⟨g s a, (hstep s a _).2 ⟨hfine, rfl⟩, (ih _).2 ⟨hrest, heq⟩⟩

/-- A loop for a list goes on while the steps return. -/
theorem never_mapM {f : κ → Except ε γ} :
    Never bad (l.mapM f) ↔ ∀ a, ReachedIn (fun b => ∃ c, f b = .ok c) l a → Never bad (f a) := by
  refine never_run (fun l => l.mapM f) (never_ok _) fun a l => ?_
  simp only [mapM_cons, never_bind, never_pure, implies_true, and_true]
  exact and_congr_right fun _ => ⟨fun h ⟨_, hok⟩ => h _ hok, fun h _ hok => h ⟨_, hok⟩⟩

/-- A search goes on while the elements give nothing. -/
theorem never_findSomeM? {f : κ → Except ε (Option γ)} :
    Never bad (l.findSomeM? f) ↔
      ∀ a, ReachedIn (fun b => f b = .ok none) l a → Never bad (f a) := by
  refine never_run (fun l => l.findSomeM? f) (never_ok _) fun a l => ?_
  rw [findSomeM?_cons, never_bind]
  refine and_congr_right fun _ => ⟨fun h hok => h _ hok, fun h c hok => ?_⟩
  cases c with
  | none => exact h hok
  | some c => exact never_ok _

/-- A loop for a list that returns has returned on every element. -/
theorem mapM_eq_ok {f : κ → Except ε γ} {out : List γ} (h : l.mapM f = .ok out) :
    List.Forall₂ (fun a c => f a = .ok c) l out := by
  induction l generalizing out with
  | nil =>
    rw [← Except.ok.inj h]
    exact .nil
  | cons b l ih =>
    rw [mapM_cons, bind_eq_ok] at h
    obtain ⟨c, hc, h⟩ := h
    obtain ⟨rest, hrest, h⟩ := bind_eq_ok.1 h
    rw [← Except.ok.inj h]
    exact .cons hc (ih hrest)

/-- A loop for a list whose steps return where the elements are fine. -/
theorem mapM_eq_ok_iff {f : κ → Except ε γ} {g : κ → γ} {P : κ → Prop}
    (hstep : ∀ a ∈ l, ∀ c, f a = .ok c ↔ P a ∧ c = g a) (out : List γ) :
    l.mapM f = .ok out ↔ (∀ a ∈ l, P a) ∧ out = l.map g := by
  induction l generalizing out with
  | nil =>
    refine ⟨fun h => ⟨fun a ha => absurd ha not_mem_nil, (Except.ok.inj h).symm⟩, ?_⟩
    rintro ⟨-, rfl⟩
    rfl
  | cons a l ih =>
    have hrest := ih fun b hb => hstep b (mem_cons_of_mem a hb)
    rw [mapM_cons, bind_eq_ok, forall_mem_cons, map_cons]
    constructor
    · rintro ⟨c, hc, h⟩
      obtain ⟨hfine, rfl⟩ := (hstep a mem_cons_self c).1 hc
      obtain ⟨cs, hcs, h⟩ := bind_eq_ok.1 h
      obtain ⟨hall, rfl⟩ := (hrest cs).1 hcs
      exact ⟨⟨hfine, hall⟩, (Except.ok.inj h).symm⟩
    · rintro ⟨⟨hfine, hall⟩, rfl⟩
      refine ⟨g a, (hstep a mem_cons_self _).2 ⟨hfine, rfl⟩, ?_⟩
      exact bind_eq_ok.2 ⟨l.map g, (hrest _).2 ⟨hall, rfl⟩, rfl⟩

/-- The values of a loop for a list are those of its elements. -/
theorem mem_mapM {f : κ → Except ε γ} {out : List γ} (h : l.mapM f = .ok out) (c : γ) :
    c ∈ out ↔ ∃ a ∈ l, f a = .ok c := by
  have hall := mapM_eq_ok h
  clear h
  induction hall with
  | nil => exact ⟨fun h => (nomatch h), fun ⟨_, h, _⟩ => (nomatch h)⟩
  | cons hfirst _ ih =>
    simp only [mem_cons, exists_eq_or_imp]
    refine or_congr ?_ ih
    rw [hfirst]
    exact ⟨fun heq => congrArg _ heq.symm, fun heq => (Except.ok.inj heq).symm⟩

/-- A loop for a list has a value for each of its elements. -/
theorem exists_of_mapM {f : κ → Except ε γ} {out : List γ} (h : l.mapM f = .ok out)
    (ha : a ∈ l) : ∃ c ∈ out, f a = .ok c := by
  have hall := mapM_eq_ok h
  clear h
  induction hall with
  | nil => cases ha
  | @cons b c _ _ hfirst _ ih =>
    obtain rfl | ha := mem_cons.1 ha
    · exact ⟨c, mem_cons_self, hfirst⟩
    · obtain ⟨d, hd, hvalue⟩ := ih ha
      exact ⟨d, mem_cons_of_mem c hd, hvalue⟩

/-- A loop for a list returns where every element does. -/
theorem never_anything_mapM {f : κ → Except ε γ} :
    Never anything (l.mapM f) ↔ ∀ a ∈ l, Never anything (f a) := by
  rw [never_mapM]
  constructor
  · intro h
    induction l with
    | nil => exact fun _ ha => (nomatch ha)
    | cons b l ih =>
      rw [forall_mem_cons]
      have hb := h b (reachedIn_cons.2 (.inl rfl))
      refine ⟨hb, ih fun a ha => h a (reachedIn_cons.2 (.inr ⟨never_anything.1 hb, ha⟩))⟩
  · exact fun h a ha => h a ha.mem

theorem forM_eq_ok {f : κ → Except ε PUnit} :
    l.forM f = .ok ⟨⟩ ↔ ∀ a ∈ l, f a = .ok ⟨⟩ := by
  induction l with
  | nil => exact ⟨fun _ _ h => (nomatch h), fun _ => rfl⟩
  | cons b l ih =>
    show (f b >>= fun _ => l.forM f) = _ ↔ _
    rw [bind_eq_ok, forall_mem_cons]
    constructor
    · rintro ⟨_, hb, hrest⟩
      exact ⟨hb, ih.1 hrest⟩
    · rintro ⟨hb, hrest⟩
      exact ⟨_, hb, ih.2 hrest⟩

theorem findSomeM?_eq_none {f : κ → Except ε (Option γ)} :
    l.findSomeM? f = .ok none ↔ ∀ a ∈ l, f a = .ok none := by
  induction l with
  | nil => exact ⟨fun _ _ h => (nomatch h), fun _ => rfl⟩
  | cons b l ih =>
    rw [findSomeM?_cons, bind_eq_ok, forall_mem_cons]
    constructor
    · rintro ⟨c, hb, hrest⟩
      cases c with
      | none => exact ⟨hb, ih.1 hrest⟩
      | some c => cases hrest
    · rintro ⟨hb, hrest⟩
      exact ⟨none, hb, ih.2 hrest⟩

end Loops

/-- A search for an element that a test accepts goes on while the test rejects. -/
theorem never_anyM {κ : Type w} {l : List κ} {p : κ → Except ε Bool} :
    Never bad (l.anyM p) ↔ ∀ a, ReachedIn (fun b => p b = .ok false) l a → Never bad (p a) := by
  refine never_run (fun l => l.anyM p) (never_ok _) fun a l => ?_
  rw [anyM_cons, never_bind]
  refine and_congr_right fun _ => ⟨fun h hok => h _ hok, fun h c hok => ?_⟩
  cases c with
  | false => exact h hok
  | true => exact never_ok _

/-- A test of all elements goes on while it accepts. -/
theorem never_allM {κ : Type w} {l : List κ} {p : κ → Except ε Bool} :
    Never bad (l.allM p) ↔ ∀ a, ReachedIn (fun b => p b = .ok true) l a → Never bad (p a) := by
  refine never_run (fun l => l.allM p) (never_ok _) fun a l => ?_
  rw [allM_cons, never_bind]
  refine and_congr_right fun _ => ⟨fun h hok => h _ hok, fun h c hok => ?_⟩
  cases c with
  | true => exact h hok
  | false => exact never_ok _

end Failures
