/-
# A pool of workers

A small library: a fixed number of workers serves a list of jobs. A free worker takes
the next job, a worker that runs one stores its outcome in a dictionary under the job
and is free again; the jobs that run may end in any order. The slots of a semaphore
are workers in this sense too.

* `Serves`: the invariant. Every job waits, runs or is done, each once.
* `Serves.exists_outcome`: in a pool that has finished every job has an outcome.
* `Serves.exists_step`: a pool that has not finished can go on.
* `Step.weight`: every step uses up one unit of the weight.
-/
import DRCAgent.InsertionDict

namespace WorkerPool

open List

universe u v

variable {J : Type u} {O : Type v}

/-- The free workers, the jobs that wait, those that run, and the outcomes stored. -/
structure Pool (J : Type u) (O : Type v) where
  free : ℕ
  queue : List J
  running : List J := []
  done : List (J × O) := []

/-- The pool before its first step. -/
def opened (workers : ℕ) (jobs : List J) : Pool J O := { free := workers, queue := jobs }

variable [DecidableEq J]

/-- One step, where `outcome` says how a job may end. -/
inductive Step (outcome : J → O → Prop) : Pool J O → Pool J O → Prop
  /-- A free worker takes the first job of the queue. -/
  | take {free : ℕ} {job : J} {queue running : List J} {done : List (J × O)} :
      Step outcome ⟨free + 1, job :: queue, running, done⟩ ⟨free, queue, job :: running, done⟩
  /-- A job ends, and its worker stores the outcome. -/
  | store {free : ℕ} {job : J} {value : O} {queue running : List J} {done : List (J × O)}
      (hjob : job ∈ running) (hvalue : outcome job value) :
      Step outcome ⟨free, queue, running, done⟩
        ⟨free + 1, queue, running.erase job, Dicts.insert job value done⟩

/-- All workers have returned: no job waits and none runs. -/
def Pool.Finished (pool : Pool J O) : Prop := pool.queue = [] ∧ pool.running = []

/-- What remains to do: a job that waits is still to be taken and to be stored. -/
def Pool.weight (pool : Pool J O) : ℕ := 2 * pool.queue.length + pool.running.length

/-- The invariant of a pool of `workers` that serves `jobs`. -/
structure Serves (outcome : J → O → Prop) (jobs : List J) (workers : ℕ) (pool : Pool J O) :
    Prop where
  perm : (pool.queue ++ pool.running ++ pool.done.map (·.1)).Perm jobs
  nodup : jobs.Nodup
  workers_eq : pool.free + pool.running.length = workers
  stored : ∀ entry ∈ pool.done, outcome entry.1 entry.2

variable {outcome : J → O → Prop} {jobs : List J} {workers : ℕ} {pool pool' : Pool J O}

omit [DecidableEq J] in
theorem serves_opened (hjobs : jobs.Nodup) :
    Serves outcome jobs workers (opened workers jobs) where
  perm := by simp [opened]
  nodup := hjobs
  workers_eq := by simp [opened]
  stored := by simp [opened]

namespace Serves

variable (h : Serves outcome jobs workers pool)
include h

omit [DecidableEq J] in
theorem nodup_parts : (pool.queue ++ pool.running ++ pool.done.map (·.1)).Nodup :=
  h.perm.nodup_iff.2 h.nodup

omit [DecidableEq J] in
theorem nodup_keys : (pool.done.map (·.1)).Nodup := (nodup_append.1 h.nodup_parts).2.1

omit [DecidableEq J] in
/-- A job that runs has no outcome yet. -/
theorem running_not_done {job : J} (hjob : job ∈ pool.running) : job ∉ pool.done.map (·.1) := by
  intro hdone
  have hparts := (nodup_append.1 h.nodup_parts).2.2
  exact hparts job (mem_append_right _ hjob) job hdone rfl

/-- **The step lemma.** -/
theorem step (hstep : Step outcome pool pool') : Serves outcome jobs workers pool' := by
  cases hstep with
  | @take free job queue running done =>
    refine ⟨?_, h.nodup, ?_, h.stored⟩
    · refine Perm.trans (Perm.append_right _ ?_) h.perm
      exact perm_middle
    · have hworkers := h.workers_eq
      simp only [length_cons] at hworkers ⊢
      omega
  | @store free job value queue running done hjob hvalue =>
    have hnew : Dicts.insert job value done = done ++ [(job, value)] :=
      Dicts.insert_of_notMem (h.running_not_done hjob)
    refine ⟨?_, h.nodup, ?_, ?_⟩
    · refine Perm.trans ?_ h.perm
      simp only [hnew, map_append, map_cons, map_nil, append_assoc]
      refine Perm.append_left _ ?_
      have hrunning : running.Perm (job :: running.erase job) := perm_cons_erase hjob
      refine Perm.trans ?_ (hrunning.symm.append_right _)
      rw [← append_assoc]
      exact perm_append_singleton job _
    · have hpos : 0 < running.length := length_pos_of_mem hjob
      have hworkers := h.workers_eq
      have herase := length_erase_of_mem hjob
      simp only at hworkers ⊢
      omega
    · intro entry hentry
      dsimp only at hentry
      rw [hnew] at hentry
      rcases mem_append.1 hentry with hentry | hentry
      · exact h.stored entry hentry
      · obtain rfl := mem_singleton.1 hentry
        exact hvalue

/-- **A finished pool has an outcome for every job.** -/
theorem exists_outcome (hfinished : pool.Finished) {job : J} (hjob : job ∈ jobs) :
    ∃ value, pool.done.lookup job = some value ∧ outcome job value := by
  have hmem := h.perm.mem_iff.2 hjob
  rw [hfinished.1, hfinished.2, append_nil, nil_append] at hmem
  obtain ⟨entry, hentry, rfl⟩ := mem_map.1 hmem
  exact ⟨entry.2, Dicts.lookup_of_mem h.nodup_keys hentry, h.stored entry hentry⟩

/-- **Progress.** -/
theorem exists_step (hworkers : jobs ≠ [] → 0 < workers)
    (hends : ∀ job ∈ jobs, ∃ value, outcome job value) (hfinished : ¬ pool.Finished) :
    ∃ pool', Step outcome pool pool' := by
  obtain ⟨free, queue, running, done⟩ := pool
  match running, queue, free with
  | job :: running, queue, free =>
    have hjob : job ∈ jobs := h.perm.mem_iff.1 (by simp)
    obtain ⟨value, hvalue⟩ := hends job hjob
    exact ⟨_, .store mem_cons_self hvalue⟩
  | [], job :: queue, free + 1 => exact ⟨_, .take⟩
  | [], job :: queue, 0 =>
    -- no worker is free although none works
    have hjob : job ∈ jobs := h.perm.mem_iff.1 (by simp)
    have hpos := hworkers (ne_nil_of_mem hjob)
    have heq := h.workers_eq
    simp only [length_nil] at heq
    omega
  | [], [], free => exact absurd ⟨rfl, rfl⟩ hfinished

end Serves

/-- Every step uses up one unit of the weight. -/
theorem Step.weight (h : Step outcome pool pool') : pool'.weight + 1 = pool.weight := by
  cases h with
  | take =>
    simp only [Pool.weight, length_cons]
    omega
  | @store free job value queue running done hjob hvalue =>
    have hpos : 0 < running.length := length_pos_of_mem hjob
    have herase := length_erase_of_mem hjob
    simp only [Pool.weight]
    omega

omit [DecidableEq J] in
@[simp] theorem weight_opened : (opened workers jobs : Pool J O).weight = 2 * jobs.length := by
  simp [opened, Pool.weight]

end WorkerPool
