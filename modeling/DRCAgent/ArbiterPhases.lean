/-
# The phases of a call of `acquire`

What the liveness probe says about the process a record names, what each phase of a
call says about the text of its slot and about the record in its hands, and what one
step of a call does to the locks, the texts and the phases.

A record names a process when it has its host, boot, pid and start ticks. What the
probe rejects names no live process of the probe's host; and since a process that has
ended does not run again, it names none later either.
-/
import DRCAgent.ResourceArbiter

namespace DRCAgent

open Function Option Processes Runs

/-! ## What the probe says about a process -/

/-- The identity of a process, as a record of it has it. -/
def identityOf (p : OsProcess) : ProcessIdentity where
  hostname := some p.host
  pid := some p.pid
  startTicks := some p.startTicks
  bootId := some p.boot

section Probe

variable {t : OsTable} {p q : OsProcess} {host : String} {inspect : String → Option String}
  {m : ResourceMetadata} {e : OsEvent}

/-- A process that is alive when it is recorded is recorded by its identity. -/
theorem recordedIdentity_of_alive (h : t.Alive p) :
    recordedIdentity t p.host p.pid = identityOf p := by
  obtain ⟨hboot, hstat⟩ := h
  unfold recordedIdentity identityOf
  rw [hboot, hstat]
  rfl

/-- A recorded identity is that of a process that was started. -/
theorem started_of_recordedIdentity (ht : t.WellFormed) {pid : ℕ}
    (h : recordedIdentity t host pid = identityOf q) : q ∈ t.started := by
  unfold recordedIdentity identityOf at h
  simp only [ProcessIdentity.mk.injEq, some.injEq] at h
  obtain ⟨hhost, hpid, hticks, hboot⟩ := h
  obtain ⟨entry, hentry, hticks⟩ := map_eq_some_iff.1 hticks
  have hstarted := ht host pid entry hentry
  rw [hhost, hpid, hticks, ← hhost, hboot] at hstarted
  have hq : (⟨host, q.boot, q.pid, q.startTicks⟩ : OsProcess) = q := by
    rw [hhost]
  rw [hq] at hstarted
  exact hstarted

/-- **The probe on an identity**: on its own host, whether the process is alive. -/
theorem processIdentityAlive_identityOf :
    processIdentityAlive (hostView t host inspect) (identityOf p) = some true ↔
      host = p.host ∧ t.Alive p := by
  unfold processIdentityAlive identityOf hostView Table.Alive
  dsimp only
  by_cases hhost : host = p.host
  · subst hhost
    rw [if_neg (fun hne => hne rfl)]
    by_cases hboot : t.bootId p.host = p.boot
    · rw [if_neg (fun hdiffers => hdiffers.2.2 (congrArg some hboot.symm))]
      cases hstat : t.stat p.host p.pid with
      | none => simp
      | some entry =>
        obtain ⟨ticks, zombie⟩ := entry
        cases zombie with
        | true => simp
        | false => simp [hboot]
    · have hdiffers : some p.boot ≠ some (t.bootId p.host) :=
        fun hsame => hboot (some.inj hsame).symm
      rw [if_pos ⟨rfl, rfl, hdiffers⟩]
      constructor
      · intro h
        cases h
      · rintro ⟨-, hsame, -⟩
        exact absurd hsame hboot
  · rw [if_pos (fun hsame => hhost (some.inj hsame).symm)]
    constructor
    · intro h
      cases h
    · rintro ⟨hsame, -⟩
      exact absurd hsame hhost

/-- No process of the host that the record has as its owner or worker is alive. -/
def ResourceMetadata.NoneAlive (m : ResourceMetadata) (t : OsTable) (host : String) : Prop :=
  ∀ q : OsProcess, q.host = host → t.Alive q → m.owner ≠ identityOf q ∧ m.worker ≠ identityOf q

/-- What the probe rejects has no live owner or worker. -/
theorem noneAlive_of_probe (h : defaultOrphanProbe (hostView t host inspect) m = false) :
    m.NoneAlive t host := by
  unfold defaultOrphanProbe at h
  simp only [Bool.or_eq_false_iff, beq_eq_false_iff_ne] at h
  obtain ⟨⟨⟨hworker, howner⟩, -⟩, -⟩ := h
  intro q hhost halive
  have hq : processIdentityAlive (hostView t host inspect) (identityOf q) = some true :=
    processIdentityAlive_identityOf.2 ⟨hhost.symm, halive⟩
  constructor
  · intro hsame
    rw [hsame] at howner
    exact howner hq
  · intro hsame
    rw [hsame] at hworker
    exact hworker hq

/-- The processes a record has as its owner and worker were started. -/
def ResourceMetadata.Known (m : ResourceMetadata) (t : OsTable) : Prop :=
  ∀ q : OsProcess, m.owner = identityOf q ∨ m.worker = identityOf q → q ∈ t.started

theorem ResourceMetadata.Known.apply (h : m.Known t) : m.Known (e.apply t) := by
  intro q hq
  exact started_subset e (h q hq)

/-- Once dead, the owner and the worker of a record stay dead. -/
theorem ResourceMetadata.NoneAlive.apply (he : e.Enabled t) (hknown : m.Known t)
    (h : m.NoneAlive t host) : m.NoneAlive (e.apply t) host := by
  intro q hhost halive
  constructor
  · intro hsame
    have hbefore := alive_of_apply he (hknown q (Or.inl hsame)) halive
    exact (h q hhost hbefore).1 hsame
  · intro hsame
    have hbefore := alive_of_apply he (hknown q (Or.inr hsame)) halive
    exact (h q hhost hbefore).2 hsame

/-- The record of a process, without a worker. -/
structure ResourceMetadata.OwnedBy (m : ResourceMetadata) (p : OsProcess) : Prop where
  owner : m.owner = identityOf p
  worker : m.worker = {}
  container : m.containerName = none

/-- The record of a process that is not alive owns no work, whichever host asks. -/
theorem ResourceMetadata.OwnedBy.probe (h : m.OwnedBy p) (hp : ¬ t.Alive p) :
    defaultOrphanProbe (hostView t host inspect) m = false := by
  have howner : processIdentityAlive (hostView t host inspect) (identityOf p) ≠ some true := by
    intro hown
    exact hp (processIdentityAlive_identityOf.1 hown).2
  unfold defaultOrphanProbe ownedContainerActive
  rw [h.owner, h.worker, h.container]
  simp only [Bool.or_eq_false_iff, beq_eq_false_iff_ne]
  refine ⟨⟨⟨?_, howner⟩, trivial⟩, ?_⟩
  · intro hworker
    cases hworker
  · simp

end Probe

/-! ## What a phase says about its slot -/

/-- If the text is a record that says HELD, it is one of this process, without a worker. -/
def SlotText.HeldOnlyBy (text : SlotText) (p : OsProcess) : Prop :=
  ∀ m, text = .object m → m.state = .held → m.OwnedBy p

/-- If the text is a record that says HELD, nothing of it is alive on this host. -/
def SlotText.VacantOn (text : SlotText) (t : OsTable) (host : String) : Prop :=
  ∀ m, text = .object m → m.state = .held → m.NoneAlive t host

/-- The record a call has in its hands. -/
def AcquirePhase.metadata? : AcquirePhase → Option ResourceMetadata
  | preparing _ m _ | writing _ m _ | recorded _ m | leased _ m => some m
  | _ => none

/-- What a phase says about the text of its slot and about its record. -/
def AcquirePhase.Holds (t : OsTable) (p : OsProcess) (text : ℕ → SlotText) : AcquirePhase → Prop
  | read i previous => readStreamJson (text i) = previous
  | granting i _ => (text i).VacantOn t p.host
  | preparing i m .grant => (text i).VacantOn t p.host ∧ m.OwnedBy p
  | writing i m .grant | recorded i m => m.OwnedBy p ∧ (text i).HeldOnlyBy p
  | preparing i m .abandon | writing i m .abandon => m.state = .released ∧ (text i).HeldOnlyBy p
  | unlocking i .abandoned => (text i).HeldOnlyBy p
  | _ => True

section Phases

variable {t : OsTable} {p : OsProcess} {text text' : ℕ → SlotText} {phase : AcquirePhase}
  {e : OsEvent}

/-- A phase speaks of the text of its own slot only. -/
theorem AcquirePhase.Holds.congr (h : phase.Holds t p text)
    (hsame : ∀ i, phase.slot? = some i → text' i = text i) : phase.Holds t p text' := by
  cases phase with
  | scanning i => trivial
  | waiting => trivial
  | locked i => trivial
  | read i previous =>
    show readStreamJson (text' i) = previous
    rw [hsame i rfl]
    exact h
  | granting i previous =>
    show (text' i).VacantOn t p.host
    rw [hsame i rfl]
    exact h
  | preparing i m goal =>
    cases goal with
    | grant =>
      show (text' i).VacantOn t p.host ∧ m.OwnedBy p
      rw [hsame i rfl]
      exact h
    | abandon =>
      show m.state = .released ∧ (text' i).HeldOnlyBy p
      rw [hsame i rfl]
      exact h
    | update => trivial
    | close => trivial
  | writing i m goal =>
    cases goal with
    | grant =>
      show m.OwnedBy p ∧ (text' i).HeldOnlyBy p
      rw [hsame i rfl]
      exact h
    | abandon =>
      show m.state = .released ∧ (text' i).HeldOnlyBy p
      rw [hsame i rfl]
      exact h
    | update => trivial
    | close => trivial
  | recorded i m =>
    show m.OwnedBy p ∧ (text' i).HeldOnlyBy p
    rw [hsame i rfl]
    exact h
  | leased i m => trivial
  | unlocking i after =>
    cases after with
    | abandoned =>
      show (text' i).HeldOnlyBy p
      rw [hsame i rfl]
      exact h
    | scan next => trivial
    | raised => trivial
    | closed => trivial
  | gone => trivial

/-- The operating system does not make a phase false. -/
theorem AcquirePhase.Holds.apply (he : e.Enabled t)
    (hknown : ∀ i m, text i = .object m → m.Known t) (h : phase.Holds t p text) :
    phase.Holds (e.apply t) p text := by
  have hvacant : ∀ i, (text i).VacantOn t p.host → (text i).VacantOn (e.apply t) p.host :=
    fun i hi m hm hheld => (hi m hm hheld).apply he (hknown i m hm)
  cases phase with
  | granting i previous => exact hvacant i h
  | preparing i m goal =>
    cases goal with
    | grant => exact ⟨hvacant i h.1, h.2⟩
    | abandon => exact h
    | update => trivial
    | close => trivial
  | writing i m goal =>
    cases goal with
    | grant => exact h
    | abandon => exact h
    | update => trivial
    | close => trivial
  | read i previous => exact h
  | recorded i m => exact h
  | unlocking i after =>
    cases after with
    | abandoned => exact h
    | scan next => trivial
    | raised => trivial
    | closed => trivial
  | scanning i => trivial
  | waiting => trivial
  | locked i => trivial
  | leased i m => trivial
  | gone => trivial

theorem SlotText.heldOnlyBy_blank : SlotText.blank.HeldOnlyBy p := fun _ h => nomatch h

theorem SlotText.heldOnlyBy_invalidJson : SlotText.invalidJson.HeldOnlyBy p := fun _ h => nomatch h

/-- The text a phase between the first write and the return of the lease leaves. -/
theorem AcquirePhase.Holds.admitting (h : phase.Holds t p text) (hadmitting : phase.admitting = true)
    {i : ℕ} (hslot : phase.slot? = some i) : (text i).HeldOnlyBy p := by
  cases phase with
  | preparing j m goal =>
    obtain rfl := some.inj hslot
    cases goal with
    | abandon => exact h.2
    | grant => cases hadmitting
    | update => cases hadmitting
    | close => cases hadmitting
  | writing j m goal =>
    obtain rfl := some.inj hslot
    cases goal with
    | abandon => exact h.2
    | grant => exact h.2
    | update => cases hadmitting
    | close => cases hadmitting
  | recorded j m =>
    obtain rfl := some.inj hslot
    exact h.2
  | unlocking j after =>
    obtain rfl := some.inj hslot
    cases after with
    | abandoned => exact h
    | scan next => cases hadmitting
    | raised => cases hadmitting
    | closed => cases hadmitting
  | scanning j => cases hadmitting
  | waiting => cases hadmitting
  | locked j => cases hadmitting
  | read j previous => cases hadmitting
  | granting j previous => cases hadmitting
  | leased j m => cases hadmitting
  | gone => cases hadmitting

end Phases

/-! ## The steps of a call -/

section AttemptSteps

variable {t : OsTable} {slots : ℕ → ArbiterSlot} {att : Attempt} {e : AttemptEvent}
  {phase : AcquirePhase} {eff : SlotEffect} {a i j : ℕ}

/-- What a step does to the lock the call holds, by its effect. -/
def SlotEffect.Moves (slots : ℕ → ArbiterSlot) (limit : ℕ) (before after : Option ℕ) :
    SlotEffect → Prop
  | untouched => after = before
  | lock i => before = none ∧ after = some i ∧ i < limit ∧ (slots i).holder = none
  | unlock i => before = some i ∧ after = none
  | write i _ => before = some i ∧ after = some i

theorem WriteGoal.finished_slot (goal : WriteGoal) (m : ResourceMetadata) :
    (goal.finished i m).slot? = some i := by
  cases goal <;> rfl

theorem WriteGoal.failed_slot (goal : WriteGoal) (truncated : Bool) (m : ResourceMetadata) :
    (goal.failed truncated i m).slot? = some i := by
  cases goal <;> rfl

/-- An exception outside a write leaves the lock as it is. -/
theorem AcquirePhase.raised_slot {phase' : AcquirePhase} (h : phase.raised = some phase') :
    phase'.slot? = phase.slot? := by
  cases phase with
  | scanning i =>
    obtain rfl := some.inj h
    rfl
  | waiting =>
    obtain rfl := some.inj h
    rfl
  | locked i =>
    obtain rfl := some.inj h
    rfl
  | read i previous =>
    obtain rfl := some.inj h
    rfl
  | granting i previous =>
    obtain rfl := some.inj h
    rfl
  | preparing i m goal =>
    obtain rfl := some.inj h
    exact goal.failed_slot false m
  | writing i m goal =>
    obtain rfl := some.inj h
    exact goal.failed_slot true m
  | recorded i m =>
    obtain rfl := some.inj h
    rfl
  | leased i m => cases h
  | unlocking i after => cases h
  | gone => cases h

/-- **The locks**: a step takes the lock of a free slot below the limit, gives its lock
back, or keeps what it has; it writes only where it holds the lock. -/
theorem AttemptStep.moves (h : AttemptStep t slots att e phase eff) :
    eff.Moves slots (att.limits att.kind) att.phase.slot? phase.slot? := by
  cases h with
  | lock hphase hlt hfree =>
    rw [hphase]
    exact ⟨rfl, rfl, hlt, hfree⟩
  | busy hphase hlt hheld => rw [hphase]; rfl
  | exhausted hphase hge => rw [hphase]; rfl
  | poll hphase => rw [hphase]; rfl
  | giveUp hphase => rw [hphase]; rfl
  | readSlot hphase => rw [hphase]; rfl
  | skip hphase hblocks => rw [hphase]; rfl
  | pass hphase hpass => rw [hphase]; rfl
  | grant hphase => rw [hphase]; rfl
  | truncate hphase =>
    rw [hphase]
    exact ⟨rfl, rfl⟩
  | spill hphase =>
    rw [hphase]
    exact ⟨rfl, rfl⟩
  | finish hphase =>
    rw [hphase]
    exact ⟨rfl, WriteGoal.finished_slot _ _⟩
  | returnLease hphase => rw [hphase]; rfl
  | updateWorker hphase => rw [hphase]; rfl
  | clearWorker hphase => rw [hphase]; rfl
  | close hphase => rw [hphase]; rfl
  | @unlock i after hphase =>
    rw [hphase]
    refine ⟨rfl, ?_⟩
    cases after <;> rfl
  | raise hraised => exact AcquirePhase.raised_slot hraised

/-- What a step does to the texts. -/
def SlotEffect.texts (eff : SlotEffect) (text : ℕ → SlotText) : ℕ → SlotText :=
  match eff with
  | write i new => update text i new
  | _ => text

theorem SlotEffect.apply_text (eff : SlotEffect) (a : ℕ) (slots : ℕ → ArbiterSlot) (i : ℕ) :
    (eff.apply a slots i).text = eff.texts (fun i => (slots i).text) i := by
  cases eff with
  | untouched => rfl
  | lock j =>
    show (update slots j { slots j with holder := some a } i).text = (slots i).text
    by_cases hij : i = j
    · subst hij
      rw [update_self]
    · rw [update_of_ne hij]
  | unlock j =>
    show (update slots j { slots j with holder := none } i).text = (slots i).text
    by_cases hij : i = j
    · subst hij
      rw [update_self]
    · rw [update_of_ne hij]
  | write j new =>
    show (update slots j { slots j with text := new } i).text =
      update (fun i => (slots i).text) j new i
    by_cases hij : i = j
    · subst hij
      rw [update_self, update_self]
    · rw [update_of_ne hij, update_of_ne hij]

/-- Another slot's text is not written. -/
theorem SlotEffect.texts_of_ne {before after : Option ℕ} {limit : ℕ} {text : ℕ → SlotText}
    (h : eff.Moves slots limit before after) (hne : before ≠ some i) : eff.texts text i = text i := by
  cases eff with
  | untouched => rfl
  | lock j => rfl
  | unlock j => rfl
  | write j new =>
    have hij : i ≠ j := by
      rintro rfl
      exact hne h.1
    exact update_of_ne hij new text

/-- The record that a completed write leads on with. -/
theorem WriteGoal.finished_holds {goal : WriteGoal} {m : ResourceMetadata} {p : OsProcess}
    {text text' : ℕ → SlotText} (h : (AcquirePhase.writing i m goal).Holds t p text)
    (htext : text' i = .object m) : (goal.finished i m).Holds t p text' := by
  cases goal with
  | grant =>
    refine ⟨h.1, ?_⟩
    intro m' hm' _
    rw [htext] at hm'
    cases hm'
    exact h.1
  | abandon =>
    intro m' hm' hheld
    rw [htext] at hm'
    cases hm'
    rw [h.1] at hheld
    cases hheld
  | update => trivial
  | close => trivial

/-- What a phase says after an exception outside a write. -/
theorem AcquirePhase.Holds.raised {phase' : AcquirePhase} {p : OsProcess} {text : ℕ → SlotText}
    (h : phase.Holds t p text) (hraised : phase.raised = some phase') : phase'.Holds t p text := by
  cases phase with
  | scanning i =>
    obtain rfl := some.inj hraised
    trivial
  | waiting =>
    obtain rfl := some.inj hraised
    trivial
  | locked i =>
    obtain rfl := some.inj hraised
    trivial
  | read i previous =>
    obtain rfl := some.inj hraised
    trivial
  | granting i previous =>
    obtain rfl := some.inj hraised
    trivial
  | preparing i m goal =>
    obtain rfl := some.inj hraised
    cases goal with
    | abandon => exact h.2
    | grant => trivial
    | update => trivial
    | close => trivial
  | writing i m goal =>
    obtain rfl := some.inj hraised
    cases goal with
    | abandon => exact h.2
    | grant => exact h.2
    | update => trivial
    | close => trivial
  | recorded i m =>
    obtain rfl := some.inj hraised
    exact ⟨rfl, h.2⟩
  | leased i m => cases hraised
  | unlocking i after => cases hraised
  | gone => cases hraised

/-- **The phases**: a step leads from a phase that holds to one that holds. -/
theorem AttemptStep.holds (h : AttemptStep t slots att e phase eff)
    (halive : att.phase ≠ .gone → t.Alive att.process)
    (hholds : att.phase.Holds t att.process fun i => (slots i).text) :
    phase.Holds t att.process (eff.texts fun i => (slots i).text) := by
  cases h with
  | lock hphase hlt hfree => trivial
  | busy hphase hlt hheld => trivial
  | exhausted hphase hge => trivial
  | poll hphase => trivial
  | giveUp hphase => trivial
  | readSlot hphase => rfl
  | skip hphase hblocks => trivial
  | @pass i previous inspect hphase hpass =>
    rw [hphase] at hholds
    have hread : readStreamJson (slots i).text = previous := hholds
    intro m hm hheld
    have hm : (slots i).text = .object m := hm
    rw [hm] at hread
    subst hread
    have hprobe : defaultOrphanProbe (hostView t att.process.host inspect) m = false := by
      have hpass : (m.state == .held && defaultOrphanProbe _ m) = false := hpass
      rw [hheld] at hpass
      exact hpass
    exact noneAlive_of_probe hprobe
  | @grant i previous leaseId hphase =>
    rw [hphase] at hholds halive
    refine ⟨hholds, ?_⟩
    exact ⟨recordedIdentity_of_alive (halive nofun), rfl, rfl⟩
  | @truncate i m goal hphase =>
    rw [hphase] at hholds
    have htext : update (fun i => (slots i).text) i SlotText.blank i = .blank := update_self ..
    cases goal with
    | grant =>
      refine ⟨hholds.2, ?_⟩
      show (update (fun i => (slots i).text) i SlotText.blank i).HeldOnlyBy att.process
      rw [htext]
      exact SlotText.heldOnlyBy_blank
    | abandon =>
      refine ⟨hholds.1, ?_⟩
      show (update (fun i => (slots i).text) i SlotText.blank i).HeldOnlyBy att.process
      rw [htext]
      exact SlotText.heldOnlyBy_blank
    | update => trivial
    | close => trivial
  | @spill i m goal hphase =>
    rw [hphase] at hholds
    have htext : update (fun i => (slots i).text) i SlotText.invalidJson i = .invalidJson :=
      update_self ..
    cases goal with
    | grant =>
      refine ⟨hholds.1, ?_⟩
      show (update (fun i => (slots i).text) i SlotText.invalidJson i).HeldOnlyBy att.process
      rw [htext]
      exact SlotText.heldOnlyBy_invalidJson
    | abandon =>
      refine ⟨hholds.1, ?_⟩
      show (update (fun i => (slots i).text) i SlotText.invalidJson i).HeldOnlyBy att.process
      rw [htext]
      exact SlotText.heldOnlyBy_invalidJson
    | update => trivial
    | close => trivial
  | @finish i m goal hphase =>
    rw [hphase] at hholds
    have htext : update (fun i => (slots i).text) i (SlotText.object m) i = .object m :=
      update_self ..
    exact WriteGoal.finished_holds hholds htext
  | returnLease hphase => trivial
  | updateWorker hphase => trivial
  | clearWorker hphase => trivial
  | close hphase => trivial
  | @unlock i after hphase => cases after <;> trivial
  | raise hraised => exact hholds.raised hraised

/-- A record with the owner of a known one, and its worker or none, is known. -/
theorem ResourceMetadata.Known.of_worker {m m' : ResourceMetadata} (h : m.Known t)
    (howner : m'.owner = m.owner)
    (hworker : ∀ q : OsProcess, m'.worker = identityOf q → q ∈ t.started) : m'.Known t := by
  intro q hq
  rcases hq with hq | hq
  · rw [howner] at hq
    exact h q (Or.inl hq)
  · exact hworker q hq

theorem ResourceMetadata.Known.withoutWorker {m : ResourceMetadata} (h : m.Known t) :
    m.withoutWorker.Known t := by
  refine h.of_worker rfl fun q hq => ?_
  have hpid : (none : Option ℕ) = some q.pid := congrArg ProcessIdentity.pid hq
  cases hpid

/-- The record an exception leads on with is known. -/
theorem AcquirePhase.raised_known {phase' : AcquirePhase} (h : phase.raised = some phase')
    (hknown : ∀ m, phase.metadata? = some m → m.Known t) :
    ∀ m, phase'.metadata? = some m → m.Known t := by
  intro m' hm'
  cases phase with
  | preparing i m goal =>
    obtain rfl := some.inj h
    cases goal with
    | update =>
      obtain rfl := some.inj hm'
      exact hknown m rfl
    | grant => cases hm'
    | abandon => cases hm'
    | close => cases hm'
  | writing i m goal =>
    obtain rfl := some.inj h
    cases goal with
    | update =>
      obtain rfl := some.inj hm'
      exact hknown m rfl
    | grant => cases hm'
    | abandon => cases hm'
    | close => cases hm'
  | recorded i m =>
    obtain rfl := some.inj h
    obtain rfl := some.inj hm'
    exact hknown m rfl
  | scanning i =>
    obtain rfl := some.inj h
    cases hm'
  | waiting =>
    obtain rfl := some.inj h
    cases hm'
  | locked i =>
    obtain rfl := some.inj h
    cases hm'
  | read i previous =>
    obtain rfl := some.inj h
    cases hm'
  | granting i previous =>
    obtain rfl := some.inj h
    cases hm'
  | leased i m => cases h
  | unlocking i after => cases h
  | gone => cases h

/-- The record of a call stays known. -/
theorem AttemptStep.known (h : AttemptStep t slots att e phase eff) (ht : t.WellFormed)
    (hknown : ∀ m, att.phase.metadata? = some m → m.Known t) :
    ∀ m, phase.metadata? = some m → m.Known t := by
  intro m' hm'
  cases h with
  | lock hphase hlt hfree => cases hm'
  | busy hphase hlt hheld => cases hm'
  | exhausted hphase hge => cases hm'
  | poll hphase => cases hm'
  | giveUp hphase => cases hm'
  | readSlot hphase => cases hm'
  | skip hphase hblocks => cases hm'
  | pass hphase hpass => cases hm'
  | grant hphase =>
    obtain rfl := some.inj hm'
    intro q hq
    rcases hq with hq | hq
    · exact started_of_recordedIdentity ht hq
    · have hpid : (none : Option ℕ) = some q.pid := congrArg ProcessIdentity.pid hq
      cases hpid
  | truncate hphase =>
    rw [hphase] at hknown
    exact hknown m' hm'
  | spill hphase =>
    rw [hphase] at hknown
    exact hknown m' hm'
  | @finish i m goal hphase =>
    rw [hphase] at hknown
    have hm : m' = m := by
      cases goal with
      | grant => exact (some.inj hm').symm
      | update => exact (some.inj hm').symm
      | abandon => cases hm'
      | close => cases hm'
    rw [hm]
    exact hknown m rfl
  | returnLease hphase =>
    rw [hphase] at hknown
    exact hknown m' hm'
  | @updateWorker i pid m name hash hphase =>
    rw [hphase] at hknown
    obtain rfl := some.inj hm'
    exact (hknown m rfl).of_worker rfl fun q hq => started_of_recordedIdentity ht hq
  | @clearWorker i m hphase =>
    rw [hphase] at hknown
    obtain rfl := some.inj hm'
    exact (hknown m rfl).withoutWorker
  | @close i m outcome hphase =>
    rw [hphase] at hknown
    obtain rfl := some.inj hm'
    exact (hknown m rfl).withoutWorker
  | @unlock i after hphase => cases after <;> cases hm'
  | raise hraised => exact AcquirePhase.raised_known hraised hknown m' hm'

/-- The texts stay known: what is written is the record of the call. -/
theorem AttemptStep.known_text (h : AttemptStep t slots att e phase eff)
    (hknown : ∀ m, att.phase.metadata? = some m → m.Known t)
    (htext : ∀ i m, (slots i).text = .object m → m.Known t) :
    ∀ i m, eff.texts (fun i => (slots i).text) i = .object m → m.Known t := by
  intro i m' hm'
  cases eff with
  | untouched => exact htext i m' hm'
  | lock j => exact htext i m' hm'
  | unlock j => exact htext i m' hm'
  | write j new =>
    have hm' : update (fun i => (slots i).text) j new i = .object m' := hm'
    by_cases hij : i = j
    · subst hij
      rw [update_self] at hm'
      cases h with
      | truncate hphase => cases hm'
      | spill hphase => cases hm'
      | @finish i m goal hphase =>
        rw [hphase] at hknown
        obtain rfl : m = m' := by
          injection hm'
        exact hknown m rfl
    · rw [update_of_ne hij] at hm'
      exact htext i m' hm'

/-- A call whose process ended, or that is over, has no steps. -/
theorem AttemptStep.not_gone (h : AttemptStep t slots att e phase eff) : att.phase ≠ .gone := by
  intro hover
  cases h with
  | raise hraised =>
    rw [hover] at hraised
    cases hraised
  | lock hphase hlt hfree => rw [hover] at hphase; cases hphase
  | busy hphase hlt hheld => rw [hover] at hphase; cases hphase
  | exhausted hphase hge => rw [hover] at hphase; cases hphase
  | poll hphase => rw [hover] at hphase; cases hphase
  | giveUp hphase => rw [hover] at hphase; cases hphase
  | readSlot hphase => rw [hover] at hphase; cases hphase
  | skip hphase hblocks => rw [hover] at hphase; cases hphase
  | pass hphase hpass => rw [hover] at hphase; cases hphase
  | grant hphase => rw [hover] at hphase; cases hphase
  | truncate hphase => rw [hover] at hphase; cases hphase
  | spill hphase => rw [hover] at hphase; cases hphase
  | finish hphase => rw [hover] at hphase; cases hphase
  | returnLease hphase => rw [hover] at hphase; cases hphase
  | updateWorker hphase => rw [hover] at hphase; cases hphase
  | clearWorker hphase => rw [hover] at hphase; cases hphase
  | close hphase => rw [hover] at hphase; cases hphase
  | unlock hphase => rw [hover] at hphase; cases hphase

end AttemptSteps

end DRCAgent
