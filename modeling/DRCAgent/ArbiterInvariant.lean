/-
# The invariant of the resource arbiter

What holds in every state that the calls of `acquire`, their leases and the operating
system can reach together (`PoolInv`). It ties three things to each other: the phase
of every call, the holder of every lock, and the text of the files.

A step of one call leaves alone what another call relies on, since it writes only to
the slot whose lock it holds; the operating system takes the locks of a process away
together with its calls.
-/
import DRCAgent.ArbiterPhases

namespace DRCAgent

open Function Option Processes Runs

/-! ## The invariant -/

/-- What holds in every reachable state of the pool. -/
structure PoolInv (σ : Pool) : Prop where
  table : σ.table.WellFormed
  /-- A call holds the lock of the slot its phase names, -/
  holds : ∀ a att i, σ.attempts a = some att → att.phase.slot? = some i →
    (σ.slots att.kind i).holder = some a
  /-- and nobody else holds a lock. -/
  held : ∀ k i a, (σ.slots k i).holder = some a →
    ∃ att, σ.attempts a = some att ∧ att.kind = k ∧ att.phase.slot? = some i
  bound : ∀ a att i, σ.attempts a = some att → att.phase.slot? = some i →
    i < att.limits att.kind
  policy : ∀ a att, σ.attempts a = some att → σ.policy = some att.limits
  alive : ∀ a att, σ.attempts a = some att → att.phase ≠ .gone → σ.table.Alive att.process
  knownText : ∀ k i m, (σ.slots k i).text = .object m → m.Known σ.table
  knownPhase : ∀ a att m, σ.attempts a = some att → att.phase.metadata? = some m →
    m.Known σ.table
  phases : ∀ a att, σ.attempts a = some att →
    att.phase.Holds σ.table att.process fun i => (σ.slots att.kind i).text

section Invariant

variable {σ σ' : Pool} {a b : ℕ} {att : Attempt} {k : ResourceKind} {i : ℕ} {e : AttemptEvent}
  {phase : AcquirePhase} {eff : SlotEffect} {ose : OsEvent}

theorem PoolInv.start (bootId : String → String) : PoolInv (Pool.start bootId) where
  table := by
    intro h pid entry hentry
    cases hentry
  holds := by
    intro a att i hatt
    cases hatt
  held := by
    intro k i a ha
    cases ha
  bound := by
    intro a att i hatt
    cases hatt
  policy := by
    intro a att hatt
    cases hatt
  alive := by
    intro a att hatt
    cases hatt
  knownText := by
    intro k i m hm
    cases hm
  knownPhase := by
    intro a att m hatt
    cases hatt
  phases := by
    intro a att hatt
    cases hatt

/-- Two calls do not hold the same lock. -/
theorem PoolInv.slot_inj (h : PoolInv σ) {att' : Attempt} (ha : σ.attempts a = some att)
    (hb : σ.attempts b = some att') (hkind : att.kind = att'.kind)
    (hi : att.phase.slot? = some i) (hi' : att'.phase.slot? = some i) : a = b := by
  have hholda := h.holds a att i ha hi
  have hholdb := h.holds b att' i hb hi'
  rw [hkind, hholdb] at hholda
  exact (some.inj hholda).symm

/-! ### The operating system -/

/-- A call after an event of the operating system: over, or as it was. -/
theorem Pool.processStep_attempt {att' : Attempt}
    (h : (σ.processStep ose).attempts a = some att') :
    ∃ att, σ.attempts a = some att ∧
      ((ose.Ends att.process ∧ att' = { att with phase := .gone }) ∨
        (¬ ose.Ends att.process ∧ att' = att)) := by
  have h : (σ.attempts a).map _ = some att' := h
  obtain ⟨att, hatt, heq⟩ := map_eq_some_iff.1 h
  refine ⟨att, hatt, ?_⟩
  by_cases hends : ose.Ends att.process
  · rw [if_pos hends] at heq
    exact Or.inl ⟨hends, heq.symm⟩
  · rw [if_neg hends] at heq
    exact Or.inr ⟨hends, heq.symm⟩

/-- A call that keeps a lock was not ended. -/
theorem Pool.processStep_attempt_of_slot {att' : Attempt}
    (h : (σ.processStep ose).attempts a = some att') (hphase : att'.phase ≠ .gone) :
    σ.attempts a = some att' ∧ ¬ ose.Ends att'.process := by
  obtain ⟨att, hatt, ⟨hends, rfl⟩ | ⟨hends, rfl⟩⟩ := Pool.processStep_attempt h
  · exact absurd rfl hphase
  · exact ⟨hatt, hends⟩

theorem Pool.processStep_of_not_ends (hatt : σ.attempts a = some att)
    (hends : ¬ ose.Ends att.process) : (σ.processStep ose).attempts a = some att := by
  show (σ.attempts a).map _ = some att
  rw [hatt, map_some, if_neg hends]

/-- A lock after an event of the operating system. -/
theorem Pool.processStep_holder :
    ((σ.processStep ose).slots k i).holder = some a ↔
      (σ.slots k i).holder = some a ∧ σ.endsAttempt ose a = false := by
  show ((σ.slots k i).holder.filter _) = some a ↔ _
  rw [filter_eq_some_iff, Bool.not_eq_true']

theorem endsAttempt_eq (hatt : σ.attempts a = some att) :
    σ.endsAttempt ose a = decide (ose.Ends att.process) := by
  unfold Pool.endsAttempt
  rw [hatt]
  rfl

theorem PoolInv.processStep (h : PoolInv σ) (he : ose.Enabled σ.table) :
    PoolInv (σ.processStep ose) where
  table := h.table.apply he
  holds := by
    intro a att' i hatt' hslot
    have hphase : att'.phase ≠ .gone := by
      intro hover
      rw [hover] at hslot
      cases hslot
    obtain ⟨hatt, hends⟩ := Pool.processStep_attempt_of_slot hatt' hphase
    rw [Pool.processStep_holder, endsAttempt_eq hatt, decide_eq_false_iff_not]
    exact ⟨h.holds a att' i hatt hslot, hends⟩
  held := by
    intro k i a ha
    obtain ⟨hholder, hends⟩ := Pool.processStep_holder.1 ha
    obtain ⟨att, hatt, hkind, hslot⟩ := h.held k i a hholder
    rw [endsAttempt_eq hatt, decide_eq_false_iff_not] at hends
    exact ⟨att, Pool.processStep_of_not_ends hatt hends, hkind, hslot⟩
  bound := by
    intro a att' i hatt' hslot
    have hphase : att'.phase ≠ .gone := by
      intro hover
      rw [hover] at hslot
      cases hslot
    obtain ⟨hatt, -⟩ := Pool.processStep_attempt_of_slot hatt' hphase
    exact h.bound a att' i hatt hslot
  policy := by
    intro a att' hatt'
    obtain ⟨att, hatt, ⟨-, rfl⟩ | ⟨-, rfl⟩⟩ := Pool.processStep_attempt hatt'
    · exact h.policy a att hatt
    · exact h.policy a att' hatt
  alive := by
    intro a att' hatt' hphase
    obtain ⟨hatt, hends⟩ := Pool.processStep_attempt_of_slot hatt' hphase
    exact alive_apply he hends (h.alive a att' hatt hphase)
  knownText := by
    intro k i m hm
    exact (h.knownText k i m hm).apply
  knownPhase := by
    intro a att' m hatt' hm
    have hphase : att'.phase ≠ .gone := by
      intro hover
      rw [hover] at hm
      cases hm
    obtain ⟨hatt, -⟩ := Pool.processStep_attempt_of_slot hatt' hphase
    exact (h.knownPhase a att' m hatt hm).apply
  phases := by
    intro a att' hatt'
    obtain ⟨att, hatt, ⟨-, rfl⟩ | ⟨-, rfl⟩⟩ := Pool.processStep_attempt hatt'
    · trivial
    · exact (h.phases a att' hatt).apply he (h.knownText att'.kind)

/-! ### A new call -/

/-- The policy agrees with the limits of every arbiter that is made. -/
theorem initializePolicy_eq_some {policy : Option ResourceLimits} {limits policy' : ResourceLimits}
    (h : initializePolicy policy limits = some policy') :
    policy' = limits ∧ (policy = none ∨ policy = some limits) := by
  unfold initializePolicy at h
  cases policy with
  | none => exact ⟨(some.inj h).symm, Or.inl rfl⟩
  | some current =>
    have h : (if current .http = limits .http ∧ current .eda = limits .eda then some current
      else none) = some policy' := h
    split_ifs at h with hsame
    have hcurrent : current = limits := by
      funext k
      cases k
      · exact hsame.1
      · exact hsame.2
    obtain rfl := some.inj h
    exact ⟨hcurrent, Or.inr (congrArg some hcurrent)⟩

theorem PoolInv.construct (h : PoolInv σ) {p : OsProcess} {limits policy : ResourceLimits}
    {request : LeaseRequest} (hnew : σ.attempts a = none) (halive : σ.table.Alive p)
    (hpolicy : initializePolicy σ.policy limits = some policy) :
    PoolInv { σ with
      policy := some policy
      attempts := update σ.attempts a (some ⟨p, k, limits, request, .scanning 0⟩) } := by
  obtain ⟨rfl, hprior⟩ := initializePolicy_eq_some hpolicy
  have hother : ∀ b att', update σ.attempts a (some ⟨p, k, policy, request, .scanning 0⟩) b =
      some att' → (b = a ∧ att' = ⟨p, k, policy, request, .scanning 0⟩) ∨
        (b ≠ a ∧ σ.attempts b = some att') := by
    intro b att' hb
    by_cases hba : b = a
    · subst hba
      rw [update_self] at hb
      exact Or.inl ⟨rfl, (some.inj hb).symm⟩
    · rw [update_of_ne hba] at hb
      exact Or.inr ⟨hba, hb⟩
  refine ⟨h.table, ?_, ?_, ?_, ?_, ?_, h.knownText, ?_, ?_⟩
  · intro b att' i hb hslot
    obtain ⟨-, rfl⟩ | ⟨-, hb⟩ := hother b att' hb
    · cases hslot
    · exact h.holds b att' i hb hslot
  · intro k' i b hholder
    obtain ⟨att', hb, hkind, hslot⟩ := h.held k' i b hholder
    have hba : b ≠ a := by
      rintro rfl
      rw [hnew] at hb
      cases hb
    refine ⟨att', ?_, hkind, hslot⟩
    show update σ.attempts a _ b = some att'
    rw [update_of_ne hba]
    exact hb
  · intro b att' i hb hslot
    obtain ⟨-, rfl⟩ | ⟨-, hb⟩ := hother b att' hb
    · cases hslot
    · exact h.bound b att' i hb hslot
  · intro b att' hb
    obtain ⟨-, rfl⟩ | ⟨-, hb⟩ := hother b att' hb
    · rfl
    · have hlimits := h.policy b att' hb
      rcases hprior with hnone | hsome
      · rw [hnone] at hlimits
        cases hlimits
      · rw [hsome] at hlimits
        exact hlimits
  · intro b att' hb hphase
    obtain ⟨-, rfl⟩ | ⟨-, hb⟩ := hother b att' hb
    · exact halive
    · exact h.alive b att' hb hphase
  · intro b att' m hb hm
    obtain ⟨-, rfl⟩ | ⟨-, hb⟩ := hother b att' hb
    · cases hm
    · exact h.knownPhase b att' m hb hm
  · intro b att' hb
    obtain ⟨-, rfl⟩ | ⟨-, hb⟩ := hother b att' hb
    · trivial
    · exact h.phases b att' hb

/-! ### A step of a call -/

theorem Pool.after_self :
    (σ.after a att phase eff).attempts a = some { att with phase := phase } :=
  update_self ..

theorem Pool.after_of_ne (hba : b ≠ a) :
    (σ.after a att phase eff).attempts b = σ.attempts b :=
  update_of_ne hba ..

theorem Pool.after_slots_self :
    (σ.after a att phase eff).slots att.kind = eff.apply a (σ.slots att.kind) :=
  update_self ..

theorem Pool.after_slots_of_ne (hkind : k ≠ att.kind) :
    (σ.after a att phase eff).slots k = σ.slots k :=
  update_of_ne hkind ..

/-- A call after a step of call `a`. -/
theorem Pool.after_attempt {att' : Attempt} (h : (σ.after a att phase eff).attempts b = some att') :
    (b = a ∧ att' = { att with phase := phase }) ∨ (b ≠ a ∧ σ.attempts b = some att') := by
  by_cases hba : b = a
  · subst hba
    rw [Pool.after_self] at h
    exact Or.inl ⟨rfl, (some.inj h).symm⟩
  · rw [Pool.after_of_ne hba] at h
    exact Or.inr ⟨hba, h⟩

/-- The text of a slot whose lock call `a` does not hold is not touched by its step. -/
theorem Pool.after_text (hmoves : eff.Moves (σ.slots att.kind) (att.limits att.kind)
    att.phase.slot? phase.slot?) (hne : ¬ (k = att.kind ∧ att.phase.slot? = some i)) :
    ((σ.after a att phase eff).slots k i).text = (σ.slots k i).text := by
  by_cases hkind : k = att.kind
  · subst hkind
    rw [Pool.after_slots_self, SlotEffect.apply_text]
    exact SlotEffect.texts_of_ne hmoves fun hslot => hne ⟨rfl, hslot⟩
  · rw [Pool.after_slots_of_ne hkind]

/-- A lock that another call holds is not touched either. -/
theorem Pool.after_holder (h : PoolInv σ) (hatt : σ.attempts a = some att)
    (hmoves : eff.Moves (σ.slots att.kind) (att.limits att.kind) att.phase.slot? phase.slot?)
    (hba : b ≠ a) (hholder : (σ.slots k i).holder = some b) :
    ((σ.after a att phase eff).slots k i).holder = some b := by
  by_cases hkind : k = att.kind
  · subst hkind
    rw [Pool.after_slots_self]
    have hslot : att.phase.slot? ≠ some i := by
      intro hslot
      rw [h.holds a att i hatt hslot] at hholder
      exact hba (some.inj hholder).symm
    cases eff with
    | untouched => exact hholder
    | lock j =>
      have hij : i ≠ j := by
        rintro rfl
        have hfree := hmoves.2.2.2
        rw [hfree] at hholder
        cases hholder
      show (update (σ.slots att.kind) j _ i).holder = some b
      rw [update_of_ne hij]
      exact hholder
    | unlock j =>
      have hij : i ≠ j := by
        rintro rfl
        exact hslot hmoves.1
      show (update (σ.slots att.kind) j _ i).holder = some b
      rw [update_of_ne hij]
      exact hholder
    | write j new =>
      have hij : i ≠ j := by
        rintro rfl
        exact hslot hmoves.1
      show (update (σ.slots att.kind) j _ i).holder = some b
      rw [update_of_ne hij]
      exact hholder
  · rw [Pool.after_slots_of_ne hkind]
    exact hholder

/-- The slot a call names after its step is its own. -/
theorem Pool.after_holds (h : PoolInv σ) (hatt : σ.attempts a = some att)
    (hmoves : eff.Moves (σ.slots att.kind) (att.limits att.kind) att.phase.slot? phase.slot?)
    (hslot : phase.slot? = some i) :
    ((σ.after a att phase eff).slots att.kind i).holder = some a := by
  rw [Pool.after_slots_self]
  cases eff with
  | untouched =>
    have hsame : phase.slot? = att.phase.slot? := hmoves
    rw [hsame] at hslot
    exact h.holds a att i hatt hslot
  | lock j =>
    have hij : j = i := by
      have hafter := hmoves.2.1
      rw [hslot] at hafter
      exact (some.inj hafter).symm
    subst hij
    show (update (σ.slots att.kind) j _ j).holder = some a
    rw [update_self]
  | unlock j =>
    have hnone := hmoves.2
    rw [hslot] at hnone
    cases hnone
  | write j new =>
    have hij : j = i := by
      have hafter := hmoves.2
      rw [hslot] at hafter
      exact (some.inj hafter).symm
    subst hij
    show (update (σ.slots att.kind) j _ j).holder = some a
    rw [update_self]
    exact h.holds a att j hatt hmoves.1

/-- Who holds a lock after a step of call `a`: the call, of the slot it names, or who
held it before. -/
theorem Pool.after_held (h : PoolInv σ) (hatt : σ.attempts a = some att)
    (hmoves : eff.Moves (σ.slots att.kind) (att.limits att.kind) att.phase.slot? phase.slot?)
    (hholder : ((σ.after a att phase eff).slots k i).holder = some b) :
    (b = a ∧ k = att.kind ∧ phase.slot? = some i) ∨ (b ≠ a ∧ (σ.slots k i).holder = some b) := by
  by_cases hkind : k = att.kind
  · subst hkind
    rw [Pool.after_slots_self] at hholder
    -- a lock that is not the step's own is as before, and `a` still has what it had
    have hbefore : (σ.slots att.kind i).holder = some b → phase.slot? = att.phase.slot? →
        (b = a ∧ att.kind = att.kind ∧ phase.slot? = some i) ∨
          (b ≠ a ∧ (σ.slots att.kind i).holder = some b) := by
      intro hb hsame
      by_cases hba : b = a
      · subst hba
        obtain ⟨att', hatt', -, hslot⟩ := h.held att.kind i b hb
        rw [hatt] at hatt'
        obtain rfl := some.inj hatt'
        exact Or.inl ⟨rfl, rfl, hsame.trans hslot⟩
      · exact Or.inr ⟨hba, hb⟩
    cases eff with
    | untouched => exact hbefore hholder hmoves
    | lock j =>
      have hupd : (update (σ.slots att.kind) j _ i).holder = some b := hholder
      by_cases hij : i = j
      · subst hij
        rw [update_self] at hupd
        exact Or.inl ⟨(some.inj hupd).symm, rfl, hmoves.2.1⟩
      · rw [update_of_ne hij] at hupd
        by_cases hba : b = a
        · subst hba
          obtain ⟨att', hatt', -, hslot⟩ := h.held att.kind i b hupd
          rw [hatt] at hatt'
          obtain rfl := some.inj hatt'
          rw [hmoves.1] at hslot
          cases hslot
        · exact Or.inr ⟨hba, hupd⟩
    | unlock j =>
      have hupd : (update (σ.slots att.kind) j _ i).holder = some b := hholder
      by_cases hij : i = j
      · subst hij
        rw [update_self] at hupd
        cases hupd
      · rw [update_of_ne hij] at hupd
        by_cases hba : b = a
        · subst hba
          obtain ⟨att', hatt', -, hslot⟩ := h.held att.kind i b hupd
          rw [hatt] at hatt'
          obtain rfl := some.inj hatt'
          rw [hmoves.1] at hslot
          exact absurd (some.inj hslot).symm hij
        · exact Or.inr ⟨hba, hupd⟩
    | write j new =>
      have hupd : (update (σ.slots att.kind) j _ i).holder = some b := hholder
      have hsame : phase.slot? = att.phase.slot? := hmoves.2.trans hmoves.1.symm
      by_cases hij : i = j
      · subst hij
        rw [update_self] at hupd
        exact hbefore hupd hsame
      · rw [update_of_ne hij] at hupd
        exact hbefore hupd hsame
  · rw [Pool.after_slots_of_ne hkind] at hholder
    by_cases hba : b = a
    · subst hba
      obtain ⟨att', hatt', hkind', -⟩ := h.held k i b hholder
      rw [hatt] at hatt'
      obtain rfl := some.inj hatt'
      exact absurd hkind'.symm hkind
    · exact Or.inr ⟨hba, hholder⟩

/-- The slot a call names after its step is below its limit. -/
theorem SlotEffect.Moves.bound {before after : Option ℕ} {limit : ℕ} {slots : ℕ → ArbiterSlot}
    (h : eff.Moves slots limit before after) (hbefore : ∀ i, before = some i → i < limit)
    (hafter : after = some i) : i < limit := by
  cases eff with
  | untouched =>
    have hsame : after = before := h
    exact hbefore i (hsame ▸ hafter)
  | lock j =>
    obtain ⟨-, hj, hlt, -⟩ := h
    rw [hafter] at hj
    obtain rfl := some.inj hj
    exact hlt
  | unlock j =>
    obtain ⟨-, hnone⟩ := h
    rw [hafter] at hnone
    cases hnone
  | write j new =>
    obtain ⟨hj, hj'⟩ := h
    rw [hafter] at hj'
    obtain rfl := some.inj hj'
    exact hbefore i hj

theorem PoolInv.act (h : PoolInv σ) (hatt : σ.attempts a = some att)
    (hstep : AttemptStep σ.table (σ.slots att.kind) att e phase eff) :
    PoolInv (σ.after a att phase eff) := by
  have hmoves := hstep.moves
  refine ⟨h.table, ?_, ?_, ?_, ?_, ?_, ?_, ?_, ?_⟩
  · intro b att' i hb hslot
    obtain ⟨rfl, rfl⟩ | ⟨hba, hb⟩ := Pool.after_attempt hb
    · exact Pool.after_holds h hatt hmoves hslot
    · exact Pool.after_holder h hatt hmoves hba (h.holds b att' i hb hslot)
  · intro k i b hholder
    obtain ⟨rfl, rfl, hslot⟩ | ⟨hba, hholder⟩ := Pool.after_held h hatt hmoves hholder
    · exact ⟨_, Pool.after_self, rfl, hslot⟩
    · rw [Pool.after_of_ne hba]
      exact h.held k i b hholder
  · intro b att' i hb hslot
    obtain ⟨rfl, rfl⟩ | ⟨hba, hb⟩ := Pool.after_attempt hb
    · exact hmoves.bound (fun j hj => h.bound b att j hatt hj) hslot
    · exact h.bound b att' i hb hslot
  · intro b att' hb
    obtain ⟨rfl, rfl⟩ | ⟨hba, hb⟩ := Pool.after_attempt hb
    · exact h.policy b att hatt
    · exact h.policy b att' hb
  · intro b att' hb hphase
    obtain ⟨rfl, rfl⟩ | ⟨hba, hb⟩ := Pool.after_attempt hb
    · exact h.alive b att hatt hstep.not_gone
    · exact h.alive b att' hb hphase
  · intro k i m hm
    by_cases hkind : k = att.kind
    · subst hkind
      rw [Pool.after_slots_self, SlotEffect.apply_text] at hm
      exact hstep.known_text (fun m => h.knownPhase a att m hatt)
        (fun i m => h.knownText att.kind i m) i m hm
    · rw [Pool.after_slots_of_ne hkind] at hm
      exact h.knownText k i m hm
  · intro b att' m hb hm
    obtain ⟨rfl, rfl⟩ | ⟨hba, hb⟩ := Pool.after_attempt hb
    · exact hstep.known h.table (fun m => h.knownPhase b att m hatt) m hm
    · exact h.knownPhase b att' m hb hm
  · intro b att' hb
    obtain ⟨rfl, rfl⟩ | ⟨hba, hb⟩ := Pool.after_attempt hb
    · refine (hstep.holds (h.alive b att hatt) (h.phases b att hatt)).congr fun i hi => ?_
      show ((σ.after b att phase eff).slots att.kind i).text = _
      rw [Pool.after_slots_self, SlotEffect.apply_text]
    · refine (h.phases b att' hb).congr fun i hi => ?_
      refine Pool.after_text hmoves ?_
      rintro ⟨hkind, hslot⟩
      exact hba (h.slot_inj hb hatt hkind hi hslot)

theorem PoolInv.step {σ σ' : Pool} {e : ArbiterEvent} (h : PoolInv σ) (hstep : ArbiterStep σ e σ') :
    PoolInv σ' := by
  cases hstep with
  | process he => exact h.processStep he
  | construct hnew halive hpositive hpolicy => exact h.construct hnew halive hpolicy
  | act hatt hstep => exact h.act hatt hstep

/-- **The invariant of the pool**, over every interleaving. -/
theorem poolInv_of_run {bootId : String → String} {tr : List ArbiterEvent}
    (h : Run ArbiterStep (Pool.start bootId) tr σ) : PoolInv σ :=
  h.invariant PoolInv (PoolInv.start bootId) fun _ _ _ hinv hstep => hinv.step hstep

end Invariant

end DRCAgent
