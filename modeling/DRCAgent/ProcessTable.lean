/-
# Process tables

A small library: the processes of several hosts, as `/proc` shows them. A process
is identified by its host, the boot it was started in, its pid and its start time in
clock ticks since the boot; a pid alone is reused, the four together are not.

The one fact used of it: a process that was started and is not running any more does
not run again (`Ended.run`).
-/
import Mathlib.Data.Set.Insert
import DRCAgent.LabelledRuns

namespace Processes

open Function Option

universe u v

variable {H : Type u} {B : Type v} [DecidableEq H]

/-- What identifies a process. -/
structure Process (H : Type u) (B : Type v) where
  host : H
  boot : B
  pid : ℕ
  startTicks : ℕ
deriving DecidableEq

/-- The processes of all hosts. -/
structure Table (H : Type u) (B : Type v) where
  /-- The boot each host is in. -/
  bootId : H → B
  /-- The entry of a pid: the start ticks, and whether the process is a zombie. -/
  stat : H → ℕ → Option (ℕ × Bool)
  /-- The processes started so far. -/
  started : List (Process H B)

namespace Table

/-- The process runs: its host is in its boot, and its pid is its own and no zombie. -/
def Alive (t : Table H B) (p : Process H B) : Prop :=
  t.bootId p.host = p.boot ∧ t.stat p.host p.pid = some (p.startTicks, false)

instance [DecidableEq B] (t : Table H B) (p : Process H B) : Decidable (t.Alive p) :=
  inferInstanceAs (Decidable (_ ∧ _))

/-- The process was started and does not run any more. -/
def Ended (t : Table H B) (p : Process H B) : Prop := p ∈ t.started ∧ ¬ t.Alive p

/-- Every entry is of a process that was started in the boot its host is in. -/
def WellFormed (t : Table H B) : Prop :=
  ∀ h pid entry, t.stat h pid = some entry → ⟨h, t.bootId h, pid, entry.1⟩ ∈ t.started

/-- The table with the entry of one pid replaced. -/
def setStat (t : Table H B) (h : H) (pid : ℕ) (entry : Option (ℕ × Bool)) : Table H B :=
  { t with stat := update t.stat h (update (t.stat h) pid entry) }

/-- Another pid's entry is not touched. -/
theorem setStat_stat_of_ne {t : Table H B} {h h' : H} {pid pid' : ℕ} {entry : Option (ℕ × Bool)}
    (hne : ¬ (h' = h ∧ pid' = pid)) : (t.setStat h pid entry).stat h' pid' = t.stat h' pid' := by
  show update t.stat h (update (t.stat h) pid entry) h' pid' = t.stat h' pid'
  by_cases hh : h' = h
  · subst hh
    have hpid : pid' ≠ pid := fun heq => hne ⟨rfl, heq⟩
    rw [update_self, update_of_ne hpid]
  · rw [update_of_ne hh]

theorem setStat_stat_self (t : Table H B) (h : H) (pid : ℕ) (entry : Option (ℕ × Bool)) :
    (t.setStat h pid entry).stat h pid = entry := by
  show update t.stat h (update (t.stat h) pid entry) h pid = entry
  rw [update_self, update_self]

end Table

/-- What happens to processes. -/
inductive ProcessEvent (H : Type u) (B : Type v)
  /-- A process starts under a free pid. -/
  | fork (p : Process H B)
  /-- A process ends, and stays a zombie until it is waited for. -/
  | exit (p : Process H B)
  | reap (h : H) (pid : ℕ)
  /-- The host starts anew, with a boot id it never had. -/
  | reboot (h : H) (boot : B)

namespace ProcessEvent

/-- When the event can happen. -/
def Enabled (t : Table H B) : ProcessEvent H B → Prop
  | fork p => p ∉ t.started ∧ t.bootId p.host = p.boot ∧ t.stat p.host p.pid = none
  | exit p => t.Alive p
  | reap h pid => ((t.stat h pid).map (·.2)) = some true
  | reboot h boot => t.bootId h ≠ boot ∧ ∀ p ∈ t.started, p.host = h → p.boot ≠ boot

instance [DecidableEq B] (t : Table H B) (e : ProcessEvent H B) : Decidable (e.Enabled t) := by
  cases e
  · exact inferInstanceAs (Decidable (_ ∧ _ ∧ _))
  · exact inferInstanceAs (Decidable (Table.Alive _ _))
  · exact inferInstanceAs (Decidable (_ = _))
  · exact inferInstanceAs (Decidable (_ ∧ ∀ p ∈ t.started, _))

/-- The table after the event. -/
def apply (t : Table H B) : ProcessEvent H B → Table H B
  | fork p => { t.setStat p.host p.pid (some (p.startTicks, false)) with started := p :: t.started }
  | exit p => t.setStat p.host p.pid (some (p.startTicks, true))
  | reap h pid => t.setStat h pid none
  | reboot h boot =>
    { t with bootId := update t.bootId h boot, stat := update t.stat h fun _ => none }

/-- The processes that the event ends. -/
def Ends (e : ProcessEvent H B) (p : Process H B) : Prop :=
  match e with
  | exit q => p = q
  | reboot h _ => p.host = h
  | _ => False

instance [DecidableEq B] (e : ProcessEvent H B) (p : Process H B) : Decidable (e.Ends p) := by
  cases e
  · exact instDecidableFalse
  · exact inferInstanceAs (Decidable (_ = _))
  · exact instDecidableFalse
  · exact inferInstanceAs (Decidable (_ = _))

end ProcessEvent

section Steps

variable {t t' : Table H B} {p q : Process H B} {e : ProcessEvent H B}

/-- What was started stays recorded. -/
theorem started_subset (e : ProcessEvent H B) (h : p ∈ t.started) : p ∈ (e.apply t).started := by
  cases e with
  | fork q => exact List.mem_cons_of_mem _ h
  | exit q => exact h
  | reap h' pid => exact h
  | reboot h' boot => exact h

/-- Only a start makes a process run, and only a new one. -/
theorem alive_of_apply (he : e.Enabled t) (hstarted : p ∈ t.started) (h : (e.apply t).Alive p) :
    t.Alive p := by
  obtain ⟨hboot, hstat⟩ := h
  cases e with
  | fork q =>
    obtain ⟨hnew, hqboot, hfree⟩ := he
    have hstat : (t.setStat q.host q.pid (some (q.startTicks, false))).stat p.host p.pid =
      some (p.startTicks, false) := hstat
    by_cases hsame : p.host = q.host ∧ p.pid = q.pid
    · -- the pid is the new process's, so the running process is the new one
      rw [hsame.1, hsame.2, Table.setStat_stat_self] at hstat
      have hticks : q.startTicks = p.startTicks := congrArg Prod.fst (some.inj hstat)
      have hpboot : q.boot = p.boot := by
        rw [← hqboot, ← hsame.1]
        exact hboot
      have hpq : p = q := by
        cases p
        cases q
        obtain ⟨hhost, hpid⟩ := hsame
        simp only [Process.mk.injEq]
        exact ⟨hhost, hpboot.symm, hpid, hticks.symm⟩
      rw [hpq] at hstarted
      exact absurd hstarted hnew
    · rw [Table.setStat_stat_of_ne hsame] at hstat
      exact ⟨hboot, hstat⟩
  | exit q =>
    have hstat : (t.setStat q.host q.pid (some (q.startTicks, true))).stat p.host p.pid =
      some (p.startTicks, false) := hstat
    by_cases hsame : p.host = q.host ∧ p.pid = q.pid
    · rw [hsame.1, hsame.2, Table.setStat_stat_self] at hstat
      have hzombie : true = false := congrArg Prod.snd (some.inj hstat)
      cases hzombie
    · rw [Table.setStat_stat_of_ne hsame] at hstat
      exact ⟨hboot, hstat⟩
  | reap h' pid =>
    have hstat : (t.setStat h' pid none).stat p.host p.pid = some (p.startTicks, false) := hstat
    by_cases hsame : p.host = h' ∧ p.pid = pid
    · rw [hsame.1, hsame.2, Table.setStat_stat_self] at hstat
      cases hstat
    · rw [Table.setStat_stat_of_ne hsame] at hstat
      exact ⟨hboot, hstat⟩
  | reboot h' boot =>
    have hstat : update t.stat h' (fun _ => none) p.host p.pid = some (p.startTicks, false) := hstat
    have hboot : update t.bootId h' boot p.host = p.boot := hboot
    by_cases hhost : p.host = h'
    · rw [hhost, update_self] at hstat
      cases hstat
    · rw [update_of_ne hhost] at hstat hboot
      exact ⟨hboot, hstat⟩

/-- **What has ended stays ended**, whatever happens next. -/
theorem Table.Ended.apply (he : e.Enabled t) (h : t.Ended p) : (e.apply t).Ended p :=
  ⟨started_subset e h.1, fun halive => h.2 (alive_of_apply he h.1 halive)⟩

/-- The processes an event ends have ended after it. -/
theorem ended_of_ends (he : e.Enabled t) (hends : e.Ends p) (hstarted : p ∈ t.started) :
    (e.apply t).Ended p := by
  refine ⟨started_subset e hstarted, ?_⟩
  rintro ⟨hboot, hstat⟩
  cases e with
  | fork q => exact hends
  | exit q =>
    obtain rfl := hends
    have hstat : (t.setStat p.host p.pid (some (p.startTicks, true))).stat p.host p.pid =
      some (p.startTicks, false) := hstat
    rw [Table.setStat_stat_self] at hstat
    have hzombie : true = false := congrArg Prod.snd (some.inj hstat)
    cases hzombie
  | reap h' pid => exact hends
  | reboot h' boot =>
    obtain rfl := hends
    have hstat : update t.stat p.host (fun _ => none) p.host p.pid = some (p.startTicks, false) :=
      hstat
    rw [update_self] at hstat
    cases hstat

/-- A process that runs and is not ended by the event runs after it. -/
theorem alive_apply (he : e.Enabled t) (hends : ¬ e.Ends p) (h : t.Alive p) :
    (e.apply t).Alive p := by
  obtain ⟨hboot, hstat⟩ := h
  cases e with
  | fork q =>
    obtain ⟨-, -, hfree⟩ := he
    refine ⟨hboot, ?_⟩
    have hne : ¬ (p.host = q.host ∧ p.pid = q.pid) := by
      rintro ⟨hhost, hpid⟩
      rw [hhost, hpid, hfree] at hstat
      cases hstat
    show (t.setStat q.host q.pid _).stat p.host p.pid = _
    rw [Table.setStat_stat_of_ne hne]
    exact hstat
  | exit q =>
    refine ⟨hboot, ?_⟩
    have hne : ¬ (p.host = q.host ∧ p.pid = q.pid) := by
      rintro ⟨hhost, hpid⟩
      refine hends ?_
      obtain ⟨hqboot, hqstat⟩ := he
      rw [← hhost] at hqboot hqstat
      rw [← hpid, hstat] at hqstat
      have hticks : p.startTicks = q.startTicks := congrArg Prod.fst (some.inj hqstat)
      cases p
      cases q
      simp only [ProcessEvent.Ends, Process.mk.injEq]
      exact ⟨hhost, hboot.symm.trans hqboot, hpid, hticks⟩
    show (t.setStat q.host q.pid _).stat p.host p.pid = _
    rw [Table.setStat_stat_of_ne hne]
    exact hstat
  | reap h' pid =>
    refine ⟨hboot, ?_⟩
    have hne : ¬ (p.host = h' ∧ p.pid = pid) := by
      rintro ⟨hhost, hpid⟩
      have hzombie : (t.stat h' pid).map (·.2) = some true := he
      rw [← hhost, ← hpid, hstat] at hzombie
      cases hzombie
    show (t.setStat h' pid none).stat p.host p.pid = _
    rw [Table.setStat_stat_of_ne hne]
    exact hstat
  | reboot h' boot =>
    have hhost : p.host ≠ h' := hends
    refine ⟨?_, ?_⟩
    · show update t.bootId h' boot p.host = p.boot
      rw [update_of_ne hhost]
      exact hboot
    · show update t.stat h' (fun _ => none) p.host p.pid = some (p.startTicks, false)
      rw [update_of_ne hhost]
      exact hstat

/-- An entry after the event was there before, or is of the process it starts or ends. -/
theorem Table.WellFormed.setStat {t : Table H B} (h : t.WellFormed) {host : H} {pid : ℕ}
    {entry : Option (ℕ × Bool)}
    (hentry : ∀ x, entry = some x → ⟨host, t.bootId host, pid, x.1⟩ ∈ t.started) :
    (t.setStat host pid entry).WellFormed := by
  intro host' pid' x hx
  by_cases hsame : host' = host ∧ pid' = pid
  · obtain ⟨rfl, rfl⟩ := hsame
    rw [Table.setStat_stat_self] at hx
    exact hentry x hx
  · rw [Table.setStat_stat_of_ne hsame] at hx
    exact h host' pid' x hx

/-- The table stays well formed. -/
theorem Table.WellFormed.apply (he : e.Enabled t) (h : t.WellFormed) : (e.apply t).WellFormed := by
  cases e with
  | fork q =>
    obtain ⟨-, hboot, -⟩ := he
    intro host pid x hx
    have hx : (t.setStat q.host q.pid (some (q.startTicks, false))).stat host pid = some x := hx
    show (⟨host, t.bootId host, pid, x.1⟩ : Process H B) ∈ q :: t.started
    by_cases hsame : host = q.host ∧ pid = q.pid
    · obtain ⟨rfl, rfl⟩ := hsame
      rw [Table.setStat_stat_self] at hx
      rw [← some.inj hx, hboot]
      exact List.mem_cons_self
    · rw [Table.setStat_stat_of_ne hsame] at hx
      exact List.mem_cons_of_mem _ (h host pid x hx)
  | exit q =>
    refine h.setStat fun x hx => ?_
    rw [← some.inj hx]
    exact h q.host q.pid (q.startTicks, false) he.2
  | reap host pid => exact h.setStat fun x hx => nomatch hx
  | reboot host boot =>
    intro host' pid x hx
    have hx : update t.stat host (fun _ => none) host' pid = some x := hx
    by_cases hhost : host' = host
    · rw [hhost, update_self] at hx
      cases hx
    · rw [update_of_ne hhost] at hx
      show (⟨host', update t.bootId host boot host', pid, x.1⟩ : Process H B) ∈ t.started
      rw [update_of_ne hhost]
      exact h host' pid x hx

end Steps

end Processes
