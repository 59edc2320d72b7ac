/-
# Programs with a state and exceptions

A small language-independent library for code whose effects stay in place when
it raises: a program maps a state to an outcome (a value or an exception) and
the state it leaves behind. `tryCatch` and `tryFinally` are the two handlers
of the usual exception semantics: the state reached by the body is kept, and an
exception of the clean-up code replaces the one it was running for.

`Spec P m Q E` is partial correctness with one postcondition per outcome:
started in `P`, the program `m` returns in `Q` or raises in `E`. `Keeps I m`
is the special case in which `I` holds on both outcomes, which is what a long
straight-line program is usually checked for.
-/
import Mathlib.Tactic.Common

universe u v w

/-- A program over the state `σ` that may raise an `ε`. The state reached is
part of both outcomes. -/
def ExcState (σ : Type u) (ε : Type v) (α : Type w) : Type (max u v w) :=
  σ → Except ε α × σ

namespace ExcState

variable {σ : Type u} {ε : Type v} {α β : Type w}

/-! ## The operations -/

/-- Return a value, leave the state alone. -/
protected def pure (a : α) : ExcState σ ε α := fun s => (.ok a, s)

/-- Run `m`, then `f` on its value; an exception of `m` skips `f`. -/
protected def bind (m : ExcState σ ε α) (f : α → ExcState σ ε β) : ExcState σ ε β := fun s =>
  match m s with
  | (.ok a, s') => f a s'
  | (.error e, s') => (.error e, s')

instance : Monad (ExcState σ ε) where
  pure := ExcState.pure
  bind := ExcState.bind

/-- Raise `e`. -/
def raise (e : ε) : ExcState σ ε α := fun s => (.error e, s)

/-- Perform an outcome decided elsewhere. -/
def lift (r : Except ε α) : ExcState σ ε α := fun s => (r, s)

/-- Read a value off the state. -/
def gets (f : σ → α) : ExcState σ ε α := fun s => (.ok (f s), s)

/-- Change the state. -/
def modify (f : σ → σ) : ExcState σ ε PUnit := fun s => (.ok ⟨⟩, f s)

/-- Run `m`; on an exception run the handler from the state `m` left. -/
def tryCatch (m : ExcState σ ε α) (handler : ε → ExcState σ ε α) : ExcState σ ε α := fun s =>
  match m s with
  | (.ok a, s') => (.ok a, s')
  | (.error e, s') => handler e s'

/-- Run `m`, then `fin` on either outcome; an exception of `fin` wins. -/
def tryFinally (m : ExcState σ ε α) (fin : ExcState σ ε PUnit) : ExcState σ ε α := fun s =>
  match m s with
  | (r, s') =>
    match fin s' with
    | (.ok _, s'') => (r, s'')
    | (.error e, s'') => (.error e, s'')

/-- Run `m` if the condition holds. -/
def runIf (c : Bool) (m : ExcState σ ε PUnit) : ExcState σ ε PUnit :=
  if c then m else pure ⟨⟩

/-- Run `f` on each element in turn; the first exception ends the loop. -/
def forEach (f : β → ExcState σ ε PUnit) : List β → ExcState σ ε PUnit
  | [] => pure ⟨⟩
  | b :: rest => do f b; forEach f rest

/-! ## Evaluation -/

@[simp] theorem pure_apply (a : α) (s : σ) :
    (pure a : ExcState σ ε α) s = (.ok a, s) := rfl

@[simp] theorem bind_apply (m : ExcState σ ε α) (f : α → ExcState σ ε β) (s : σ) :
    (m >>= f) s = match m s with
      | (.ok a, s') => f a s'
      | (.error e, s') => (.error e, s') := rfl

@[simp] theorem raise_apply (e : ε) (s : σ) :
    (raise e : ExcState σ ε α) s = (.error e, s) := rfl

@[simp] theorem lift_apply (r : Except ε α) (s : σ) : lift r s = (r, s) := rfl

@[simp] theorem gets_apply (f : σ → α) (s : σ) :
    (gets f : ExcState σ ε α) s = (.ok (f s), s) := rfl

@[simp] theorem modify_apply (f : σ → σ) (s : σ) :
    (modify f : ExcState σ ε PUnit) s = (.ok ⟨⟩, f s) := rfl

/-- The clean-up runs from the state the body left, on either outcome. -/
theorem tryFinally_snd (m : ExcState σ ε α) (fin : ExcState σ ε PUnit) (s : σ) :
    (tryFinally m fin s).2 = (fin (m s).2).2 := by
  unfold tryFinally
  rcases m s with ⟨r, s'⟩
  rcases hfin : fin s' with ⟨e | a, s''⟩ <;> simp [hfin]

/-! ## Specifications -/

/-- Started in `P`, the program returns in `Q` or raises in `E`. -/
def Spec (P : σ → Prop) (m : ExcState σ ε α) (Q : α → σ → Prop) (E : ε → σ → Prop) : Prop :=
  ∀ s, P s → (∀ a s', m s = (.ok a, s') → Q a s') ∧ (∀ e s', m s = (.error e, s') → E e s')

/-- `I` holds after the program, whatever its outcome, if it held before. -/
def Keeps (I : σ → Prop) (m : ExcState σ ε α) : Prop :=
  Spec I m (fun _ => I) (fun _ => I)

namespace Spec

variable {P P' : σ → Prop} {Q Q' : α → σ → Prop} {E E' : ε → σ → Prop} {R : β → σ → Prop}

/-- The postcondition of a run that returned. -/
theorem ok {m : ExcState σ ε α} (h : Spec P m Q E) {s s' : σ} {a : α} (hs : P s)
    (hrun : m s = (.ok a, s')) : Q a s' :=
  (h s hs).1 a s' hrun

/-- The postcondition of a run that raised. -/
theorem error {m : ExcState σ ε α} (h : Spec P m Q E) {s s' : σ} {e : ε} (hs : P s)
    (hrun : m s = (.error e, s')) : E e s' :=
  (h s hs).2 e s' hrun

theorem conseq {m : ExcState σ ε α} (h : Spec P m Q E) (hP : ∀ s, P' s → P s)
    (hQ : ∀ a s, Q a s → Q' a s) (hE : ∀ e s, E e s → E' e s) : Spec P' m Q' E' := by
  intro s hs
  obtain ⟨hok, herr⟩ := h s (hP s hs)
  exact ⟨fun a s' hrun => hQ a s' (hok a s' hrun), fun e s' hrun => hE e s' (herr e s' hrun)⟩

theorem pure {a : α} (h : ∀ s, P s → Q a s) :
    Spec P (pure a : ExcState σ ε α) Q E := by
  intro s hs
  refine ⟨fun a' s' hrun => ?_, fun e s' hrun => ?_⟩
  · simp only [pure_apply, Prod.mk.injEq, Except.ok.injEq] at hrun
    obtain ⟨rfl, rfl⟩ := hrun
    exact h s hs
  · simp at hrun

theorem raise {e : ε} (h : ∀ s, P s → E e s) :
    Spec P (raise e : ExcState σ ε α) Q E := by
  intro s hs
  refine ⟨fun a' s' hrun => ?_, fun e' s' hrun => ?_⟩
  · simp at hrun
  · simp only [raise_apply, Prod.mk.injEq, Except.error.injEq] at hrun
    obtain ⟨rfl, rfl⟩ := hrun
    exact h s hs

theorem lift {r : Except ε α} (hok : ∀ a, r = .ok a → ∀ s, P s → Q a s)
    (herr : ∀ e, r = .error e → ∀ s, P s → E e s) : Spec P (lift r) Q E := by
  intro s hs
  refine ⟨fun a s' hrun => ?_, fun e s' hrun => ?_⟩
  · simp only [lift_apply, Prod.mk.injEq] at hrun
    obtain ⟨hr, rfl⟩ := hrun
    exact hok a hr s hs
  · simp only [lift_apply, Prod.mk.injEq] at hrun
    obtain ⟨hr, rfl⟩ := hrun
    exact herr e hr s hs

theorem gets {f : σ → α} (h : ∀ s, P s → Q (f s) s) :
    Spec P (gets f : ExcState σ ε α) Q E := by
  intro s hs
  refine ⟨fun a s' hrun => ?_, fun e s' hrun => ?_⟩
  · simp only [gets_apply, Prod.mk.injEq, Except.ok.injEq] at hrun
    obtain ⟨rfl, rfl⟩ := hrun
    exact h s hs
  · simp at hrun

theorem modify {f : σ → σ} {Q : PUnit → σ → Prop} (h : ∀ s, P s → Q ⟨⟩ (f s)) :
    Spec P (modify f : ExcState σ ε PUnit) Q E := by
  intro s hs
  refine ⟨fun a s' hrun => ?_, fun e s' hrun => ?_⟩
  · simp only [modify_apply, Prod.mk.injEq] at hrun
    obtain ⟨-, rfl⟩ := hrun
    exact h s hs
  · simp at hrun

/-- **Sequencing.**  The second program starts where the first returned. -/
theorem bind {m : ExcState σ ε α} {f : α → ExcState σ ε β} (hm : Spec P m Q E)
    (hf : ∀ a, Spec (Q a) (f a) R E) : Spec P (m >>= f) R E := by
  intro s hs
  rcases hrun : m s with ⟨a | a, s'⟩
  · have he := hm.error hs hrun
    refine ⟨fun b t h => ?_, fun e t h => ?_⟩
    · simp [hrun] at h
    · simp only [bind_apply, hrun, Prod.mk.injEq, Except.error.injEq] at h
      obtain ⟨rfl, rfl⟩ := h
      exact he
  · have hq := hm.ok hs hrun
    have hf' := hf a s' hq
    refine ⟨fun b t h => hf'.1 b t ?_, fun e t h => hf'.2 e t ?_⟩
    · simpa [hrun] using h
    · simpa [hrun] using h

/-- **Handlers.**  The handler starts where the body raised. -/
theorem tryCatch {m : ExcState σ ε α} {handler : ε → ExcState σ ε α} (hm : Spec P m Q E)
    (hh : ∀ e, Spec (E e) (handler e) Q E') : Spec P (tryCatch m handler) Q E' := by
  intro s hs
  rcases hrun : m s with ⟨e | a, s'⟩
  · have hh' := hh e s' (hm.error hs hrun)
    refine ⟨fun b t h => hh'.1 b t ?_, fun e' t h => hh'.2 e' t ?_⟩
    · simpa [ExcState.tryCatch, hrun] using h
    · simpa [ExcState.tryCatch, hrun] using h
  · have hq := hm.ok hs hrun
    refine ⟨fun b t h => ?_, fun e' t h => ?_⟩
    · simp only [ExcState.tryCatch, hrun, Prod.mk.injEq, Except.ok.injEq] at h
      obtain ⟨rfl, rfl⟩ := h
      exact hq
    · simp [ExcState.tryCatch, hrun] at h

/-- A property of the final state, whatever the outcome. -/
theorem of_state {R : σ → Prop} {m : ExcState σ ε α} (h : ∀ s, P s → R (m s).2) :
    Spec P m (fun _ => R) (fun _ => R) := by
  intro s hs
  have hstate := h s hs
  exact ⟨fun a s' hrun => by rw [hrun] at hstate; exact hstate,
    fun e s' hrun => by rw [hrun] at hstate; exact hstate⟩

theorem state {R : σ → Prop} {m : ExcState σ ε α} (h : Spec P m (fun _ => R) (fun _ => R)) {s : σ}
    (hs : P s) : R (m s).2 := by
  rcases hrun : m s with ⟨e | a, s'⟩
  · exact h.error hs hrun
  · exact h.ok hs hrun

/-- A fact about values in the precondition may be assumed. -/
theorem assume {m : ExcState σ ε α} {φ : Prop} (h : φ → Spec P m Q E) :
    Spec (fun s => P s ∧ φ) m Q E :=
  fun s hs => h hs.2 s hs.1

end Spec

/-! ## Programs that keep an invariant -/

namespace Keeps

variable {I : σ → Prop}

theorem pure {a : α} : Keeps I (pure a : ExcState σ ε α) := Spec.pure fun _ h => h

theorem raise {e : ε} : Keeps I (raise e : ExcState σ ε α) := Spec.raise fun _ h => h

theorem lift {r : Except ε α} : Keeps I (lift r) :=
  Spec.lift (fun _ _ _ h => h) fun _ _ _ h => h

theorem gets {f : σ → α} : Keeps I (gets f : ExcState σ ε α) := Spec.gets fun _ h => h

theorem bind {m : ExcState σ ε α} {f : α → ExcState σ ε β} (hm : Keeps I m)
    (hf : ∀ a, Keeps I (f a)) : Keeps I (m >>= f) :=
  Spec.bind hm hf

theorem tryCatch {m : ExcState σ ε α} {handler : ε → ExcState σ ε α} (hm : Keeps I m)
    (hh : ∀ e, Keeps I (handler e)) : Keeps I (tryCatch m handler) :=
  Spec.tryCatch hm hh

theorem modify {f : σ → σ} (h : ∀ s, I s → I (f s)) :
    Keeps I (modify f : ExcState σ ε PUnit) :=
  Spec.modify h

theorem runIf {c : Bool} {m : ExcState σ ε PUnit} (hm : Keeps I m) : Keeps I (runIf c m) := by
  cases c with
  | true => exact hm
  | false => exact Keeps.pure

theorem forEach {f : β → ExcState σ ε PUnit} {bs : List β} (hf : ∀ b ∈ bs, Keeps I (f b)) :
    Keeps I (forEach f bs) := by
  induction bs with
  | nil => exact Keeps.pure
  | cons b rest ih =>
    exact Keeps.bind (hf b List.mem_cons_self) fun _ =>
      ih fun b' hb' => hf b' (List.mem_cons_of_mem b hb')

/-- A program keeps what its final state keeps. -/
theorem of_state {m : ExcState σ ε α} (h : ∀ s, I s → I (m s).2) : Keeps I m :=
  Spec.of_state h

/-- The state after a run that started in the invariant is in the invariant. -/
theorem state {m : ExcState σ ε α} (h : Keeps I m) {s : σ} (hs : I s) : I (m s).2 :=
  Spec.state h hs

end Keeps

/-! ## Programs whose values satisfy a property -/

/-- Every value `m` returns satisfies `Q`, from whatever state. -/
def Yields (m : ExcState σ ε α) (Q : α → Prop) : Prop :=
  ∀ s a s', m s = (.ok a, s') → Q a

namespace Yields

variable {Q Q' : α → Prop} {R : β → Prop}

theorem mono {m : ExcState σ ε α} (h : Yields m Q) (hQ : ∀ a, Q a → Q' a) : Yields m Q' :=
  fun s a s' hrun => hQ a (h s a s' hrun)

theorem any {m : ExcState σ ε α} : Yields m fun _ => True := fun _ _ _ _ => trivial

theorem pure {a : α} (h : Q a) : Yields (pure a : ExcState σ ε α) Q := by
  intro s a' s' hrun
  simp only [pure_apply, Prod.mk.injEq, Except.ok.injEq] at hrun
  exact hrun.1 ▸ h

theorem raise {e : ε} : Yields (raise e : ExcState σ ε α) Q := by
  intro s a s' hrun
  simp at hrun

theorem lift {r : Except ε α} (h : ∀ a, r = .ok a → Q a) :
    Yields (lift r : ExcState σ ε α) Q := by
  intro s a s' hrun
  simp only [lift_apply, Prod.mk.injEq] at hrun
  exact h a hrun.1

theorem bind {m : ExcState σ ε α} {f : α → ExcState σ ε β} (hm : Yields m Q)
    (hf : ∀ a, Q a → Yields (f a) R) : Yields (m >>= f) R := by
  intro s b s' hrun
  rcases hm' : m s with ⟨e | a, s₁⟩
  · simp [hm'] at hrun
  · exact hf a (hm s a s₁ hm') s₁ b s' (by simpa [hm'] using hrun)

/-- A program whose value is not used. -/
theorem seq {m : ExcState σ ε PUnit} {n : ExcState σ ε β} (h : Yields n R) :
    Yields (m >>= fun _ => n) R :=
  bind any fun _ _ => h

theorem tryCatch {m : ExcState σ ε α} {handler : ε → ExcState σ ε α} (hm : Yields m Q)
    (hh : ∀ e, Yields (handler e) Q) : Yields (tryCatch m handler) Q := by
  intro s a s' hrun
  unfold ExcState.tryCatch at hrun
  rcases hm' : m s with ⟨e | b, s₁⟩
  · rw [hm'] at hrun
    exact hh e s₁ a s' hrun
  · rw [hm'] at hrun
    simp only [Prod.mk.injEq, Except.ok.injEq] at hrun
    exact hrun.1 ▸ hm s b s₁ hm'

end Yields

/-! ## Programs whose outcome does not depend on the state -/

/-- The exception of an outcome, if it is one. -/
def errorOf : Except ε α → Option ε
  | .ok _ => none
  | .error e => some e

/-- From every state, `m` raises exactly `o`, and returns if `o` is `none`. -/
def Throws (m : ExcState σ ε α) (o : Option ε) : Prop :=
  ∀ s, errorOf (m s).1 = o

namespace Throws

variable {o o' : Option ε}

theorem error {m : ExcState σ ε α} {e : ε} (h : Throws m (some e)) (s : σ) :
    ∃ s', m s = (.error e, s') := by
  have hs := h s
  rcases hrun : m s with ⟨e' | a, s'⟩
  · rw [hrun] at hs
    exact ⟨s', by rw [Option.some.inj hs]⟩
  · simp [hrun, errorOf] at hs

theorem ok {m : ExcState σ ε α} (h : Throws m none) (s : σ) : ∃ a s', m s = (.ok a, s') := by
  have hs := h s
  rcases hrun : m s with ⟨e | a, s'⟩
  · simp [hrun, errorOf] at hs
  · exact ⟨a, s', rfl⟩

theorem pure {a : α} : Throws (pure a : ExcState σ ε α) none := fun _ => rfl

theorem raise {e : ε} : Throws (raise e : ExcState σ ε α) (some e) := fun _ => rfl

theorem modify {f : σ → σ} : Throws (modify f : ExcState σ ε PUnit) none := fun _ => rfl

/-- The first of two programs that raises decides. -/
theorem bind {m : ExcState σ ε α} {f : α → ExcState σ ε β} (hm : Throws m o)
    (hf : ∀ a, Throws (f a) o') : Throws (m >>= f) (o <|> o') := by
  intro s
  cases o with
  | some e =>
    obtain ⟨s', hrun⟩ := hm.error s
    simp [hrun, errorOf]
  | none =>
    obtain ⟨a, s', hrun⟩ := hm.ok s
    simpa [hrun] using hf a s'

/-- A first program that returns does not decide. -/
theorem after {m : ExcState σ ε α} {f : α → ExcState σ ε β} (hm : Throws m none)
    (hf : ∀ a, Throws (f a) o') : Throws (m >>= f) o' :=
  bind hm hf

theorem runIf {c : Bool} {m : ExcState σ ε PUnit} (hm : Throws m o) :
    Throws (runIf c m) (if c then o else none) := by
  cases c with
  | true => exact hm
  | false => exact Throws.pure

/-- A loop raises what the first raising element raises. -/
theorem forEach {f : β → ExcState σ ε PUnit} {g : β → Option ε} (hf : ∀ b, Throws (f b) (g b))
    (bs : List β) : Throws (forEach f bs) (bs.findSome? g) := by
  induction bs with
  | nil => exact Throws.pure
  | cons b rest ih =>
    have h := Throws.bind (hf b) fun _ => ih
    rw [List.findSome?_cons]
    show Throws (do f b; ExcState.forEach f rest) _
    cases hb : g b with
    | none => simpa [hb] using h
    | some e => simpa [hb] using h

/-- A handler that raises again only translates the exception. -/
theorem tryCatch {m : ExcState σ ε α} {handler : ε → ExcState σ ε α} {g : ε → ε}
    (hm : Throws m o) (hh : ∀ e, Throws (handler e) (some (g e))) :
    Throws (tryCatch m handler) (o.map g) := by
  intro s
  cases o with
  | some e =>
    obtain ⟨s', hrun⟩ := hm.error s
    simpa [ExcState.tryCatch, hrun] using hh e s'
  | none =>
    obtain ⟨a, s', hrun⟩ := hm.ok s
    simp [ExcState.tryCatch, hrun, errorOf]

/-- A second program that returns does not decide. -/
theorem before {m : ExcState σ ε α} {f : α → ExcState σ ε β} (hm : Throws m o)
    (hf : ∀ a, Throws (f a) none) : Throws (m >>= f) o := by
  have h := bind hm hf
  cases o with
  | none => exact h
  | some e => exact h

/-- A program that raises returns nothing. -/
theorem yields_raising {m : ExcState σ ε α} {e : ε} {Q : α → Prop} (hm : Throws m (some e)) :
    Yields m Q := by
  intro s a s' hrun
  obtain ⟨s₁, hraise⟩ := hm.error s
  rw [hraise] at hrun
  cases (Prod.mk.inj hrun).1

/-- What follows a program runs only if that returned. -/
theorem yields_seq {m : ExcState σ ε PUnit} {n : ExcState σ ε β} {Q : β → Prop} (hm : Throws m o)
    (h : o = none → Yields n Q) : Yields (m >>= fun _ => n) Q := by
  cases o with
  | none => exact Yields.seq (h rfl)
  | some e =>
    have hraises : Throws (m >>= fun _ => n) (some e) := by
      intro s
      obtain ⟨s', hrun⟩ := hm.error s
      simp [hrun, errorOf]
    exact yields_raising hraises

/-- The handler gets the exception of the body. -/
theorem yields_tryCatch {m : ExcState σ ε α} {handler : ε → ExcState σ ε α} {Q : α → Prop}
    (hm : Throws m o) (hok : o = none → Yields m Q) (herr : ∀ e, o = some e → Yields (handler e) Q) :
    Yields (ExcState.tryCatch m handler) Q := by
  cases o with
  | none =>
    intro s a s' hrun
    obtain ⟨b, s₁, hbody⟩ := hm.ok s
    unfold ExcState.tryCatch at hrun
    rw [hbody] at hrun
    exact hok rfl s a s' (hbody.trans hrun)
  | some e =>
    intro s a s' hrun
    obtain ⟨s₁, hbody⟩ := hm.error s
    unfold ExcState.tryCatch at hrun
    rw [hbody] at hrun
    exact herr e rfl s₁ a s' hrun

end Throws

end ExcState

/-! ## Outcomes without a state -/

/-- A bind that returned: its first part returned, and so did the rest on its value. -/
theorem except_bind_ok {ε α β : Type} {x : Except ε α} {f : α → Except ε β} {b : β}
    (h : (x >>= f) = .ok b) : ∃ a, x = .ok a ∧ f a = .ok b := by
  cases x with
  | error e => exact absurd h (by simp [bind, Except.bind])
  | ok a => exact ⟨a, rfl, h⟩
