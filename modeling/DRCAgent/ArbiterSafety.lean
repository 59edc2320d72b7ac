/-
# Safety of the resource arbiter

Over every interleaving of calls of `acquire`, leases, ends of processes and reboots:

* the open leases of a kind are at most as many as the limit of every arbiter of the
  pool;
* a slot is granted only after the probe, asked under the lock about the very record on
  file, said that nothing of it is alive; no owner or worker of it is alive on that host
  at the grant either;
* if the process ends between the first write of its record and the return of the
  lease, the slot is free, and can be acquired for as long as nobody writes to it; if it
  does not end, it still holds the slot.
-/
import Mathlib.Data.Finset.Card
import DRCAgent.ArbiterInvariant

namespace DRCAgent

open Function Option Processes Runs

section Safety

variable {σ σ' τ : Pool} {a b : ℕ} {att : Attempt} {k : ResourceKind} {i : ℕ} {e : AttemptEvent}
  {phase : AcquirePhase} {eff : SlotEffect} {ose : OsEvent} {bootId : String → String}
  {tr tr' : List ArbiterEvent}

/-! ## The limit -/

/-- Call `a` has an open lease of kind `k`. -/
def Pool.LeaseOpen (σ : Pool) (k : ResourceKind) (a : ℕ) : Prop :=
  ∃ att, σ.attempts a = some att ∧ att.kind = k ∧ att.phase.leaseOpen = true

/-- An open lease holds a lock. -/
theorem AcquirePhase.slot_of_leaseOpen (h : phase.leaseOpen = true) : ∃ i, phase.slot? = some i := by
  cases phase with
  | leased i m => exact ⟨i, rfl⟩
  | preparing i m goal => exact ⟨i, rfl⟩
  | writing i m goal => exact ⟨i, rfl⟩
  | unlocking i after => exact ⟨i, rfl⟩
  | scanning i => cases h
  | waiting => cases h
  | locked i => cases h
  | read i previous => cases h
  | granting i previous => cases h
  | recorded i m => cases h
  | gone => cases h

/-- The slot of a call, as a number. -/
def Pool.slotOf (σ : Pool) (a : ℕ) : ℕ := ((σ.attempts a).bind (·.phase.slot?)).getD 0

/-- The arbiters of a pool all have the limits of its policy. -/
theorem PoolInv.limits_eq (h : PoolInv σ) {att' : Attempt} (ha : σ.attempts a = some att)
    (hb : σ.attempts b = some att') : att.limits = att'.limits := by
  have hpolicy := h.policy a att ha
  rw [h.policy b att' hb] at hpolicy
  exact (some.inj hpolicy).symm

/-- **The limit**: the open leases of a kind have different slots, all below the limit. -/
theorem PoolInv.leases_card_le (h : PoolInv σ) {A : Finset ℕ} (hA : ∀ a ∈ A, σ.LeaseOpen k a)
    (hb : σ.attempts b = some att) : A.card ≤ att.limits k := by
  have hslot : ∀ a ∈ A, ∃ att', σ.attempts a = some att' ∧ att'.kind = k ∧
      att'.phase.slot? = some (σ.slotOf a) := by
    intro a ha
    obtain ⟨att', hatt', hkind, hopen⟩ := hA a ha
    obtain ⟨i, hi⟩ := AcquirePhase.slot_of_leaseOpen hopen
    refine ⟨att', hatt', hkind, ?_⟩
    unfold Pool.slotOf
    rw [hatt', bind_some, hi]
    rfl
  have hle : A.card ≤ (Finset.range (att.limits k)).card := by
    refine Finset.card_le_card_of_injOn σ.slotOf ?_ ?_
    · intro a ha
      obtain ⟨att', hatt', hkind, hi⟩ := hslot a ha
      have hbound := h.bound a att' _ hatt' hi
      rw [hkind, h.limits_eq hatt' hb] at hbound
      exact Finset.mem_coe.2 (Finset.mem_range.2 hbound)
    · intro a ha a' ha' heq
      obtain ⟨att₁, hatt₁, hkind₁, hi₁⟩ := hslot a ha
      obtain ⟨att₂, hatt₂, hkind₂, hi₂⟩ := hslot a' ha'
      rw [← heq] at hi₂
      exact h.slot_inj hatt₁ hatt₂ (hkind₁.trans hkind₂.symm) hi₁ hi₂
  rw [Finset.card_range] at hle
  exact hle

/-! ## The probe before a grant -/

/-- The slot a call is about to overwrite. -/
def AcquirePhase.vetting : AcquirePhase → Option ℕ
  | granting i _ | preparing i _ .grant => some i
  | _ => none

/-- In an earlier state of the run, with the lock and the same record on file, the probe
said that the record owns no work. -/
def Pool.Vetted (bootId : String → String) (σ : Pool) (a : ℕ) (att : Attempt) (i : ℕ) : Prop :=
  ∀ m, (σ.slots att.kind i).text = .object m → m.state = .held →
    ∃ tr₀ σ₀ tr₁ inspect, Run ArbiterStep (Pool.start bootId) tr₀ σ₀ ∧ Run ArbiterStep σ₀ tr₁ σ ∧
      (σ₀.slots att.kind i).holder = some a ∧ (σ₀.slots att.kind i).text = .object m ∧
      defaultOrphanProbe (hostView σ₀.table att.process.host inspect) m = false

/-- A verdict lasts while the file is not touched. -/
theorem Pool.Vetted.next {e : ArbiterEvent} (h : σ.Vetted bootId a att i)
    (hstep : ArbiterStep σ e σ') (htext : (σ'.slots att.kind i).text = (σ.slots att.kind i).text) :
    σ'.Vetted bootId a att i := by
  intro m hm hheld
  rw [htext] at hm
  obtain ⟨tr₀, σ₀, tr₁, inspect, hrun, hrest, hvetted⟩ := h m hm hheld
  exact ⟨tr₀, σ₀, _, inspect, hrun, .next hrest hstep, hvetted⟩

/-- A call is about to overwrite a slot after the probe, or was already. -/
theorem AttemptStep.vetting {t : OsTable} {slots : ℕ → ArbiterSlot}
    (h : AttemptStep t slots att e phase eff) (hvetting : phase.vetting = some i) :
    eff = .untouched ∧ (att.phase.vetting = some i ∨
      ∃ previous inspect, att.phase = .read i previous ∧
        previous.blocks (hostView t att.process.host inspect) = false) := by
  cases h with
  | @pass j previous inspect hphase hpass =>
    obtain rfl := some.inj hvetting
    exact ⟨rfl, Or.inr ⟨previous, inspect, hphase, hpass⟩⟩
  | grant hphase =>
    rw [hphase]
    exact ⟨rfl, Or.inl hvetting⟩
  | lock hphase hlt hfree => cases hvetting
  | busy hphase hlt hheld => cases hvetting
  | exhausted hphase hge => cases hvetting
  | poll hphase => cases hvetting
  | giveUp hphase => cases hvetting
  | readSlot hphase => cases hvetting
  | skip hphase hblocks => cases hvetting
  | @truncate j m goal hphase =>
    cases goal <;> cases hvetting
  | @spill j m goal hphase =>
    cases goal <;> cases hvetting
  | @finish j m goal hphase =>
    cases goal <;> cases hvetting
  | returnLease hphase => cases hvetting
  | updateWorker hphase => cases hvetting
  | clearWorker hphase => cases hvetting
  | close hphase => cases hvetting
  | @unlock j after hphase =>
    cases after <;> cases hvetting
  | raise hraised =>
    cases hphase : att.phase with
    | preparing j m goal =>
      rw [hphase] at hraised
      obtain rfl := some.inj hraised
      cases goal <;> cases hvetting
    | writing j m goal =>
      rw [hphase] at hraised
      obtain rfl := some.inj hraised
      cases goal <;> cases hvetting
    | recorded j m =>
      rw [hphase] at hraised
      obtain rfl := some.inj hraised
      cases hvetting
    | scanning j =>
      rw [hphase] at hraised
      obtain rfl := some.inj hraised
      cases hvetting
    | waiting =>
      rw [hphase] at hraised
      obtain rfl := some.inj hraised
      cases hvetting
    | locked j =>
      rw [hphase] at hraised
      obtain rfl := some.inj hraised
      cases hvetting
    | read j previous =>
      rw [hphase] at hraised
      obtain rfl := some.inj hraised
      cases hvetting
    | granting j previous =>
      rw [hphase] at hraised
      obtain rfl := some.inj hraised
      cases hvetting
    | leased j m =>
      rw [hphase] at hraised
      cases hraised
    | unlocking j after =>
      rw [hphase] at hraised
      cases hraised
    | gone =>
      rw [hphase] at hraised
      cases hraised

/-- The slot that is about to be overwritten is locked. -/
theorem AcquirePhase.slot_of_vetting (h : phase.vetting = some i) : phase.slot? = some i := by
  cases phase with
  | granting j previous => exact h
  | preparing j m goal =>
    cases goal with
    | grant => exact h
    | abandon => cases h
    | update => cases h
    | close => cases h
  | scanning j => cases h
  | waiting => cases h
  | locked j => cases h
  | read j previous => cases h
  | writing j m goal => cases h
  | recorded j m => cases h
  | leased j m => cases h
  | unlocking j after => cases h
  | gone => cases h

/-- **No grant without the probe.** -/
theorem vetted_of_run (h : Run ArbiterStep (Pool.start bootId) tr σ) (hatt : σ.attempts a = some att)
    (hvetting : att.phase.vetting = some i) : σ.Vetted bootId a att i := by
  induction h generalizing a att i with
  | start => cases hatt
  | @next tr σ σ' e hprior hlast ih =>
    have hinv := poolInv_of_run hprior
    cases hlast with
    | @process e he =>
      have hphase : att.phase ≠ .gone := by
        intro hover
        rw [hover] at hvetting
        cases hvetting
      obtain ⟨hbefore, -⟩ := Pool.processStep_attempt_of_slot hatt hphase
      exact (ih hbefore hvetting).next (.process he) rfl
    | @construct c p kind limits policy request hnew halive hpositive hpolicy =>
      have hatt : update σ.attempts c (some ⟨p, kind, limits, request, .scanning 0⟩) a =
        some att := hatt
      by_cases hac : a = c
      · subst hac
        rw [update_self] at hatt
        obtain rfl := some.inj hatt
        cases hvetting
      · rw [update_of_ne hac] at hatt
        exact (ih hatt hvetting).next (.construct hnew halive hpositive hpolicy) rfl
    | @act c att₀ e phase eff hatt₀ hstep =>
      have hlast : ArbiterStep σ (.act c e) (σ.after c att₀ phase eff) := .act hatt₀ hstep
      obtain ⟨rfl, rfl⟩ | ⟨hac, hbefore⟩ := Pool.after_attempt hatt
      · obtain ⟨rfl, hbefore | ⟨previous, inspect, hread, hpass⟩⟩ := hstep.vetting hvetting
        · have hvetted : σ.Vetted bootId a att₀ i := ih hatt₀ hbefore
          have htext : ((σ.after a att₀ phase .untouched).slots att₀.kind i).text =
              (σ.slots att₀.kind i).text := by
            rw [Pool.after_slots_self]
            rfl
          exact hvetted.next hlast htext
        · intro m hm hheld
          have hm : ((σ.after a att₀ phase .untouched).slots att₀.kind i).text = .object m := hm
          rw [Pool.after_slots_self] at hm
          have hm : (σ.slots att₀.kind i).text = .object m := hm
          have hholds := hinv.phases a att₀ hatt₀
          rw [hread] at hholds
          have hprevious : readStreamJson (σ.slots att₀.kind i).text = previous := hholds
          rw [hm] at hprevious
          subst hprevious
          have hprobe : (m.state == .held && defaultOrphanProbe _ m) = false := hpass
          rw [hheld] at hprobe
          have hslot : att₀.phase.slot? = some i := by
            rw [hread]
            rfl
          exact ⟨tr, σ, _, inspect, hprior, .single hlast, hinv.holds a att₀ i hatt₀ hslot, hm,
            hprobe⟩
      · refine (ih hbefore hvetting).next hlast ?_
        refine Pool.after_text hstep.moves ?_
        rintro ⟨hkind, hslot⟩
        exact hac (hinv.slot_inj hbefore hatt₀ hkind (AcquirePhase.slot_of_vetting hvetting) hslot)

/-! ## Recovery -/

/-- The slot is free, and a call that reaches it can acquire it. -/
def Pool.Recoverable (σ : Pool) (k : ResourceKind) (i : ℕ) : Prop :=
  (σ.slots k i).holder = none ∧
    ∀ b att, σ.attempts b = some att → att.kind = k → att.phase = .scanning i →
      i < att.limits k →
        ∃ tr m σ', Run ArbiterStep σ tr σ' ∧ σ'.attempts b = some { att with phase := .leased i m }

/-- The text lets every call pass, whatever `docker inspect` prints. -/
def Pool.Unblocked (σ : Pool) (k : ResourceKind) (i : ℕ) : Prop :=
  ∀ host inspect,
    (readStreamJson (σ.slots k i).text).blocks (hostView σ.table host inspect) = false

/-- A free slot whose text lets a call pass: lock, read, probe, truncate, write, return. -/
theorem recoverable_of_unblocked (hfree : (σ.slots k i).holder = none) (h : σ.Unblocked k i) :
    σ.Recoverable k i := by
  refine ⟨hfree, ?_⟩
  intro b att hatt hkind hphase hlt
  subst hkind
  let σ₁ := σ.after b att (.locked i) (.lock i)
  have hlock : ArbiterStep σ (.act b .tryLock) σ₁ := .act hatt (.lock hphase hlt hfree)
  let att₁ : Attempt := { att with phase := .locked i }
  have hatt₁ : σ₁.attempts b = some att₁ := Pool.after_self
  have htext₁ : (σ₁.slots att.kind i).text = (σ.slots att.kind i).text := by
    show ((σ.after b att (.locked i) (.lock i)).slots att.kind i).text = _
    rw [Pool.after_slots_self, SlotEffect.apply_text]
    rfl
  let previous := readStreamJson (σ₁.slots att.kind i).text
  let σ₂ := σ₁.after b att₁ (.read i previous) .untouched
  have hread : ArbiterStep σ₁ (.act b .readSlot) σ₂ := .act hatt₁ (.readSlot rfl)
  let att₂ : Attempt := { att with phase := .read i previous }
  have hatt₂ : σ₂.attempts b = some att₂ := Pool.after_self
  have hpass : previous.blocks (hostView σ₂.table att.process.host fun _ => none) = false := by
    show (readStreamJson (σ₁.slots att.kind i).text).blocks _ = false
    rw [htext₁]
    exact h att.process.host fun _ => none
  let σ₃ := σ₂.after b att₂ (.granting i previous) .untouched
  have hprobe : ArbiterStep σ₂ (.act b (.probe fun _ => none)) σ₃ := .act hatt₂ (.pass rfl hpass)
  let att₃ : Attempt := { att with phase := .granting i previous }
  have hatt₃ : σ₃.attempts b = some att₃ := Pool.after_self
  let m := grantedMetadata σ₃.table att₃ i ""
  let σ₄ := σ₃.after b att₃ (.preparing i m .grant) .untouched
  have hgrant : ArbiterStep σ₃ (.act b (.grant "")) σ₄ := .act hatt₃ (.grant rfl)
  let att₄ : Attempt := { att with phase := .preparing i m .grant }
  have hatt₄ : σ₄.attempts b = some att₄ := Pool.after_self
  let σ₅ := σ₄.after b att₄ (.writing i m .grant) (.write i .blank)
  have htruncate : ArbiterStep σ₄ (.act b .truncate) σ₅ := .act hatt₄ (.truncate rfl)
  let att₅ : Attempt := { att with phase := .writing i m .grant }
  have hatt₅ : σ₅.attempts b = some att₅ := Pool.after_self
  let σ₆ := σ₅.after b att₅ (.recorded i m) (.write i (.object m))
  have hwrite : AttemptStep σ₅.table (σ₅.slots att.kind) att₅ .finish
      (WriteGoal.grant.finished i m) (.write i (.object m)) := .finish rfl
  have hfinish : ArbiterStep σ₅ (.act b .finish) σ₆ := .act hatt₅ hwrite
  let att₆ : Attempt := { att with phase := .recorded i m }
  have hatt₆ : σ₆.attempts b = some att₆ := Pool.after_self
  let σ₇ := σ₆.after b att₆ (.leased i m) .untouched
  have hreturn : ArbiterStep σ₆ (.act b .returnLease) σ₇ := .act hatt₆ (.returnLease rfl)
  have hrun : Run ArbiterStep σ _ σ₇ :=
    .next (.next (.next (.next (.next (.next (.single hlock) hread) hprobe) hgrant) htruncate)
      hfinish) hreturn
  exact ⟨_, m, σ₇, hrun, Pool.after_self⟩

/-- A process that is alive was started. -/
theorem PoolInv.started (h : PoolInv σ) {p : OsProcess} (hp : σ.table.Alive p) :
    p ∈ σ.table.started := by
  obtain ⟨hboot, hstat⟩ := hp
  have hstarted := h.table p.host p.pid _ hstat
  rw [hboot] at hstarted
  exact hstarted

/-- A process that has ended has ended at the end of every run. -/
theorem ended_of_run {p : OsProcess} (h : Run ArbiterStep σ tr τ) (hp : σ.table.Ended p) :
    τ.table.Ended p := by
  refine h.invariant (fun σ => σ.table.Ended p) hp ?_
  intro σ e σ' hended hstep
  cases hstep with
  | process he => exact hended.apply he
  | construct hnew halive hpositive hpolicy => exact hended
  | act hatt hstep => exact hended

/-- A text that says HELD by a process that has ended blocks nobody. -/
theorem unblocked_of_ended {p : OsProcess} (htext : (σ.slots k i).text.HeldOnlyBy p)
    (hp : σ.table.Ended p) : σ.Unblocked k i := by
  intro host inspect
  cases hread : (σ.slots k i).text with
  | blank => rfl
  | invalidJson => rfl
  | notAnObject => rfl
  | object m =>
    show (m.state == .held && defaultOrphanProbe _ m) = false
    cases hstate : m.state with
    | released => rfl
    | held => exact (htext m hread hstate).probe hp.2

/-- **A crash during the admission.**  The slot is free, and while nobody writes to it
and nobody holds it, it can be acquired. -/
theorem PoolInv.crash_recoverable (h : PoolInv σ) (hatt : σ.attempts a = some att)
    (hadmitting : att.phase.admitting = true) (hslot : att.phase.slot? = some i)
    (he : ose.Enabled σ.table) (hends : ose.Ends att.process) :
    ((σ.processStep ose).slots att.kind i).holder = none ∧
      ∀ tr τ, Run ArbiterStep (σ.processStep ose) tr τ →
        (τ.slots att.kind i).text = (σ.slots att.kind i).text →
          (τ.slots att.kind i).holder = none → τ.Recoverable att.kind i := by
  have hphase : att.phase ≠ .gone := by
    intro hover
    rw [hover] at hslot
    cases hslot
  have hholder := h.holds a att i hatt hslot
  constructor
  · show (σ.slots att.kind i).holder.filter _ = none
    rw [hholder, filter_some, if_neg]
    rw [endsAttempt_eq hatt, decide_eq_true hends]
    decide
  · intro tr τ hrun htext hfree
    have hstarted := h.started (h.alive a att hatt hphase)
    have hended : (σ.processStep ose).table.Ended att.process :=
      ended_of_ends he hends hstarted
    have hheld : (τ.slots att.kind i).text.HeldOnlyBy att.process := by
      rw [htext]
      exact (h.phases a att hatt).admitting hadmitting hslot
    exact recoverable_of_unblocked hfree (unblocked_of_ended hheld (ended_of_run hrun hended))

/-- A call whose process does not end keeps its slot. -/
theorem PoolInv.keeps_slot (h : PoolInv σ) (hatt : σ.attempts a = some att)
    (hslot : att.phase.slot? = some i) (he : ose.Enabled σ.table) (hends : ¬ ose.Ends att.process) :
    ((σ.processStep ose).slots att.kind i).holder = some a ∧
      (σ.processStep ose).table.Alive att.process := by
  have hphase : att.phase ≠ .gone := by
    intro hover
    rw [hover] at hslot
    cases hslot
  have hafter := Pool.processStep_of_not_ends hatt hends
  exact ⟨(h.processStep he).holds a att i hafter hslot,
    (h.processStep he).alive a att hafter hphase⟩

/-- **Safety of the arbiter**, in every state that any interleaving reaches: the limit of
the open leases; the probe before every grant that overwrites a record; and what the end
of a process leaves of a slot whose admission is under way. -/
theorem resource_arbiter_safe (hrun : Run ArbiterStep (Pool.start bootId) tr σ) :
    (∀ k (A : Finset ℕ), (∀ a ∈ A, σ.LeaseOpen k a) →
      ∀ b att, σ.attempts b = some att → A.card ≤ att.limits k) ∧
    (∀ a att i m previous, σ.attempts a = some att → att.phase = .preparing i m .grant →
      (σ.slots att.kind i).text = .object previous → previous.state = .held →
        σ.Vetted bootId a att i ∧ previous.NoneAlive σ.table att.process.host) ∧
    (∀ a att i (e : OsEvent), σ.attempts a = some att → att.phase.admitting = true →
      att.phase.slot? = some i → e.Enabled σ.table →
        (¬ e.Ends att.process ∧ ((σ.processStep e).slots att.kind i).holder = some a ∧
          (σ.processStep e).table.Alive att.process) ∨
        (e.Ends att.process ∧ ((σ.processStep e).slots att.kind i).holder = none ∧
          ∀ tr' τ, Run ArbiterStep (σ.processStep e) tr' τ →
            (τ.slots att.kind i).text = (σ.slots att.kind i).text →
              (τ.slots att.kind i).holder = none → τ.Recoverable att.kind i)) := by
  have hinv := poolInv_of_run hrun
  refine ⟨?_, ?_, ?_⟩
  · intro k A hA b att hatt
    exact hinv.leases_card_le hA hatt
  · intro a att i m previous hatt hphase htext hheld
    have hvetting : att.phase.vetting = some i := by
      rw [hphase]
      rfl
    have hholds := hinv.phases a att hatt
    rw [hphase] at hholds
    exact ⟨vetted_of_run hrun hatt hvetting, hholds.1 previous htext hheld⟩
  · intro a att i e hatt hadmitting hslot he
    by_cases hends : e.Ends att.process
    · exact Or.inr ⟨hends, hinv.crash_recoverable hatt hadmitting hslot he hends⟩
    · exact Or.inl ⟨hends, hinv.keeps_slot hatt hslot he hends⟩

/-- A call that is overwriting its slot when its process ends. -/
theorem resource_arbiter_safe_sample :
    ∃ tr σ att, Run ArbiterStep (Pool.start fun _ => "boot") tr σ ∧ σ.attempts 0 = some att ∧
      att.phase.admitting = true ∧
      (∀ A : Finset ℕ, (∀ a ∈ A, σ.LeaseOpen .http a) → A.card ≤ 8) ∧
      ((σ.processStep (.exit att.process)).slots .http 0).holder = none := by
  let p : OsProcess := ⟨"host", "boot", 7, 5⟩
  let request : LeaseRequest := ⟨"owner", "run", "attempt", "sandbox"⟩
  let σ₀ := (Pool.start fun _ => "boot").processStep (.fork p)
  have hfork : ArbiterStep (Pool.start fun _ => "boot") (.process (.fork p)) σ₀ :=
    .process ⟨nofun, rfl, rfl⟩
  have halive : σ₀.table.Alive p := by decide
  let att₀ : Attempt := ⟨p, .http, defaultGlobalLimits, request, .scanning 0⟩
  let σ₁ : Pool := { σ₀ with
    policy := some defaultGlobalLimits
    attempts := update σ₀.attempts 0 (some att₀) }
  have hpositive : ∀ k, 1 ≤ defaultGlobalLimits k := by
    intro k
    cases k <;> decide
  have hconstruct : ArbiterStep σ₀ (.construct 0 p .http defaultGlobalLimits request) σ₁ :=
    .construct rfl halive hpositive rfl
  have hatt₀ : σ₁.attempts 0 = some att₀ := by
    show update σ₀.attempts 0 (some att₀) 0 = some att₀
    rw [update_self]
  let σ₂ := σ₁.after 0 att₀ (.locked 0) (.lock 0)
  have hlock : ArbiterStep σ₁ (.act 0 .tryLock) σ₂ := .act hatt₀ (.lock rfl (by decide) rfl)
  let att₁ : Attempt := { att₀ with phase := .locked 0 }
  have hatt₁ : σ₂.attempts 0 = some att₁ := Pool.after_self
  let σ₃ := σ₂.after 0 att₁ (.read 0 {}) .untouched
  have hread : ArbiterStep σ₂ (.act 0 .readSlot) σ₃ := .act hatt₁ (.readSlot rfl)
  let att₂ : Attempt := { att₀ with phase := .read 0 {} }
  have hatt₂ : σ₃.attempts 0 = some att₂ := Pool.after_self
  let σ₄ := σ₃.after 0 att₂ (.granting 0 {}) .untouched
  have hprobe : ArbiterStep σ₃ (.act 0 (.probe fun _ => none)) σ₄ := .act hatt₂ (.pass rfl rfl)
  let att₃ : Attempt := { att₀ with phase := .granting 0 {} }
  have hatt₃ : σ₄.attempts 0 = some att₃ := Pool.after_self
  let m := grantedMetadata σ₄.table att₃ 0 "lease"
  let σ₅ := σ₄.after 0 att₃ (.preparing 0 m .grant) .untouched
  have hgrant : ArbiterStep σ₄ (.act 0 (.grant "lease")) σ₅ := .act hatt₃ (.grant rfl)
  let att₄ : Attempt := { att₀ with phase := .preparing 0 m .grant }
  have hatt₄ : σ₅.attempts 0 = some att₄ := Pool.after_self
  let σ₆ := σ₅.after 0 att₄ (.writing 0 m .grant) (.write 0 .blank)
  have htruncate : ArbiterStep σ₅ (.act 0 .truncate) σ₆ := .act hatt₄ (.truncate rfl)
  let att₅ : Attempt := { att₀ with phase := .writing 0 m .grant }
  have hatt₅ : σ₆.attempts 0 = some att₅ := Pool.after_self
  have hrun : Run ArbiterStep (Pool.start fun _ => "boot") _ σ₆ :=
    .next (.next (.next (.next (.next (.next (.single hfork) hconstruct) hlock) hread) hprobe)
      hgrant) htruncate
  obtain ⟨hlimit, -, hcrash⟩ := resource_arbiter_safe hrun
  refine ⟨_, σ₆, att₅, hrun, hatt₅, rfl, fun A hA => hlimit .http A hA 0 att₅ hatt₅, ?_⟩
  have hexit : (ProcessEvent.exit p).Enabled σ₆.table := halive
  obtain ⟨hends, -⟩ | ⟨-, hfree, -⟩ := hcrash 0 att₅ 0 (.exit p) hatt₅ rfl rfl hexit
  · exact absurd rfl hends
  · exact hfree

end Safety

end DRCAgent
