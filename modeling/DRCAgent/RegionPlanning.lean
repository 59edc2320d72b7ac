/-
# Planning the regions of a subgraph

The coroutines of `SubgraphPlanner.plan` in `workflow/planning.py`, and the assembly of
the region results. With a formal kernel and bound snapshots the regions are first
prepared under a semaphore, one task a region; then workers take the regions from a
queue and plan them. An exception of one region is stored as its outcome and becomes a
no-op result; an `InfrastructureFailure` or an `IntegrityFailure` cancels the others,
and no plan is returned.

Main result:

* `plan_complete`: a plan that is returned has one result for each region of the
  subgraph, in the order of the region ids. What the result of a region is depends on
  the coroutines of that region only. As long as no such failure comes, the plan is
  returned.
-/
import DRCAgent.PlanningRoles
import DRCAgent.RunState
import DRCAgent.WorkerPool

namespace DRCAgent.Planner

open List WorkerPool

/-! ## Results -/

/-- An exception, by the name of its type and its text. -/
structure Raised where
  typeName : String
  text : String

structure IntentFailure where
  intentId : String
  code : String
  message : String
  semanticFingerprint : Option String := none

/-- A candidate with the region and the subgraph it is for. -/
structure RegionCandidate extends RepairCandidate where
  regionId : String
  subgraphId : String

structure RegionAgentResult where
  regionId : String
  subgraphId : String
  planningPath : String := "LLM_SEMANTIC"
  candidates : List RegionCandidate
  failures : List IntentFailure := []

def makeNoopCandidate (regionId subgraphId : String) : RegionCandidate where
  candidateId := regionId ++ ":noop"
  isNoop := true
  regionId := regionId
  subgraphId := subgraphId

/-- `text[:length]` -/
def clip (length : ℕ) (text : String) : String := String.ofList (text.toList.take length)

/-- An entry of `KernelRegionResult.failures`: the keys that are read. -/
structure KernelFailure where
  planId : Option String := none
  violationId : Option String := none
  code : Option String := none
  message : Option String := none
  semanticFingerprint : Option String := none

structure KernelRegionResult where
  regionId : String
  subgraphId : String
  candidates : List RegionCandidate := []
  noopCandidate : Option RegionCandidate := none
  failures : List KernelFailure := []
  supportedRuleIds : List String := []

def KernelFailure.toIntentFailure (item : KernelFailure) : IntentFailure where
  intentId := ((nonempty item.planId).or (nonempty item.violationId)).getD "kernel"
  code := item.code.getD "KERNEL_FAILURE"
  message := clip 500 (item.message.getD "kernel planning failed")
  semanticFingerprint := item.semanticFingerprint

/-- `_kernel_result_to_region_result` -/
def kernelResultToRegionResult (result : KernelRegionResult) : RegionAgentResult where
  regionId := result.regionId
  subgraphId := result.subgraphId
  planningPath := if result.supportedRuleIds = [] then "UNSUPPORTED_NOOP" else "REPAIR_KERNEL"
  candidates := result.candidates ++ result.noopCandidate.toList
  failures := result.failures.map (·.toIntentFailure)

/-- What `_deterministic_sound_plan` synthesizes beside its no-op. -/
structure Synthesized where
  candidates : List RegionCandidate := []
  failures : List IntentFailure := []

/-- The result of `_deterministic_sound_plan`. -/
def deterministicSoundPlan (subgraphId regionId : String) (synthesized : Synthesized) :
    RegionAgentResult where
  regionId := regionId
  subgraphId := subgraphId
  planningPath := "DETERMINISTIC_SOUND"
  candidates := makeNoopCandidate regionId subgraphId :: synthesized.candidates
  failures := synthesized.failures

/-! ## The coroutines of a region -/

/-- The coroutines and functions a region is planned with, each by the ways it may end;
a symbolic plan has the type `P`. An exception here is neither an
`InfrastructureFailure` nor an `IntegrityFailure`. -/
structure Coroutines (P : Type) where
  planSymbolicRegion : String → Except Raised (P ⊕ KernelRegionResult) → Prop
  executeSymbolicPlan : String → P → Except Raised KernelRegionResult → Prop
  planRegion : String → Except Raised KernelRegionResult → Prop
  synthesize : String → Except Raised Synthesized → Prop
  agentPlan : String → Except Raised RegionAgentResult → Prop

variable {P : Type}

/-- Every coroutine ends, with a result or with an exception. -/
structure Coroutines.Ends (c : Coroutines P) : Prop where
  planSymbolicRegion : ∀ r, ∃ outcome, c.planSymbolicRegion r outcome
  executeSymbolicPlan : ∀ r plan, ∃ outcome, c.executeSymbolicPlan r plan outcome
  planRegion : ∀ r, ∃ outcome, c.planRegion r outcome
  synthesize : ∀ r, ∃ outcome, c.synthesize r outcome
  agentPlan : ∀ r, ∃ outcome, c.agentPlan r outcome

/-- A result carries the id of the region it was asked for. -/
structure Coroutines.KeepsRegion (c : Coroutines P) : Prop where
  planSymbolicRegion : ∀ r result, c.planSymbolicRegion r (.ok (.inr result)) →
    result.regionId = r
  executeSymbolicPlan : ∀ r plan result, c.executeSymbolicPlan r plan (.ok result) →
    result.regionId = r
  planRegion : ∀ r result, c.planRegion r (.ok result) → result.regionId = r
  agentPlan : ∀ r result, c.agentPlan r (.ok result) → result.regionId = r

/-- What `plan` is called with, and the parts of the planner it uses. -/
structure PlanCall (P : Type) where
  graph : AgentGraph
  subgraph : AgentSubgraph
  args : PlanArguments
  /-- `self.formal_kernel is not None` -/
  formalKernel : Bool
  /-- The current snapshot, the baseline snapshot and the rule deck are all given. -/
  snapshotsGiven : Bool
  maxConcurrentRequests : ℤ
  /-- `sound_simple` of a region. -/
  soundSimple : String → Bool
  coroutines : Coroutines P

/-- An entry of `prepared_by_region`. -/
inductive Prepared (P : Type)
  | plan (plan : P)
  | result (result : KernelRegionResult)
  | failed (error : Raised)

def regionWorkerCount (regionCount : ℕ) (llmMaxConcurrentRequests : ℤ) : ℕ :=
  (min (max 0 (regionCount : ℤ)) (max 1 llmMaxConcurrentRequests)).toNat

namespace PlanCall

variable (call : PlanCall P)

/-- `formal_symbolic_split` -/
def formalSymbolicSplit : Bool := call.formalKernel && call.snapshotsGiven

/-- What `prepare_formal` may store for a region. -/
def Prepares (regionId : String) : Prepared P → Prop
  | .plan plan => call.coroutines.planSymbolicRegion regionId (.ok (.inl plan))
  | .result result => call.coroutines.planSymbolicRegion regionId (.ok (.inr result))
  | .failed error => call.coroutines.planSymbolicRegion regionId (.error error)

/-- How `region_plan` may end for a region, given the entry of `prepared_by_region`. -/
def RegionPlan (prepared : Option (Prepared P)) (regionId : String)
    (outcome : Except Raised RegionAgentResult) : Prop :=
  if call.formalKernel then
    if call.formalSymbolicSplit then
      match prepared with
      | none => outcome = .error ⟨"KeyError", regionId⟩
      | some (.failed error) => outcome = .error error
      | some (.result result) => outcome = .ok (kernelResultToRegionResult result)
      | some (.plan plan) => ∃ executed,
          call.coroutines.executeSymbolicPlan regionId plan executed ∧
            outcome = executed.map kernelResultToRegionResult
    else ∃ planned, call.coroutines.planRegion regionId planned ∧
      outcome = planned.map kernelResultToRegionResult
  else if call.soundSimple regionId then
    ∃ synthesized, call.coroutines.synthesize regionId synthesized ∧
      outcome = synthesized.map (deterministicSoundPlan call.subgraph.subgraphId regionId)
  else call.coroutines.agentPlan regionId outcome

/-- How the planning of a region may end, its preparation included. -/
def Plans (regionId : String) (outcome : Except Raised RegionAgentResult) : Prop :=
  if call.formalSymbolicSplit then
    ∃ prepared, call.Prepares regionId prepared ∧ call.RegionPlan (some prepared) regionId outcome
  else call.RegionPlan none regionId outcome

/-! ## The assembly of the results -/

/-- The result of a region that was planned: an exception degrades it to a no-op. -/
def plannedResult (regionId : String) : Except Raised RegionAgentResult → RegionAgentResult
  | .ok result => result
  | .error error =>
    { regionId := regionId
      subgraphId := call.subgraph.subgraphId
      candidates := [makeNoopCandidate regionId call.subgraph.subgraphId]
      failures := [{
        intentId := "region_planning"
        code := "REGION_PLANNING_DEGRADED_NO_OP"
        message := error.typeName ++ ": " ++ clip 460 error.text }] }

def contextResult (regionId : String) : RegionAgentResult where
  regionId := regionId
  subgraphId := call.subgraph.subgraphId
  planningPath := "CONTEXT_ONLY_NOOP"
  candidates := [makeNoopCandidate regionId call.subgraph.subgraphId]

def unsupportedResult (regionId : String) (assignment : HelperRegionAssignment) :
    RegionAgentResult where
  regionId := regionId
  subgraphId := call.subgraph.subgraphId
  planningPath := "HELPER_UNSUPPORTED_NOOP"
  candidates := [makeNoopCandidate regionId call.subgraph.subgraphId]
  failures := [{
    intentId := "dependency_assist"
    code := "HELPER_ACTION_UNSUPPORTED"
    message := clip 500 ("No source-authorized helper DOF/carrier for dependency " ++
      ",".intercalate assignment.dependencyEvidenceIds) }]

/-- `region_results` after its sort. `none` is the `KeyError` of a lookup that misses. -/
def assemble (roles : RegionRoles) (outcomes : List (String × Except Raised RegionAgentResult)) :
    Option (List RegionAgentResult) := do
  let planned ← roles.planningRegionIds.mapM fun r =>
    (outcomes.lookup r).map (call.plannedResult r)
  let unsupported ← (sortedSet roles.unsupportedHelpers).mapM fun r =>
    (assignmentOf roles.assignments r).map (call.unsupportedResult r)
  some ((planned ++ (sortedSet roles.context).map call.contextResult ++ unsupported).insertionSort
    fun left right => left.regionId ≤ right.regionId)

end PlanCall

/-- The bounded escalation adds a candidate to the first result of the region; `none` is
the `StopIteration` of `next`. -/
def appendCandidate (regionId : String) (candidate : RegionCandidate) :
    List RegionAgentResult → Option (List RegionAgentResult)
  | [] => none
  | result :: rest =>
    if result.regionId = regionId then
      some ({ result with candidates := result.candidates ++ [candidate] } :: rest)
    else (appendCandidate regionId candidate rest).map (result :: ·)

/-- The candidates of the escalation, one by one. -/
def escalate (results : List RegionAgentResult) (programmed : List (String × RegionCandidate)) :
    Option (List RegionAgentResult) :=
  programmed.foldlM (fun results entry => appendCandidate entry.1 entry.2 results) results

/-! ## Runs -/

/-- Where `plan` stands. -/
inductive PlanState (P : Type)
  | preparing (pool : WorkerPool.Pool String (Prepared P))
  | planning (prepared : List (String × Prepared P))
      (pool : WorkerPool.Pool String (Except Raised RegionAgentResult))
  | returned (results : List RegionAgentResult)
  | raised

/-- A lookup that misses raises. -/
def PlanState.ofResults : Option (List RegionAgentResult) → PlanState P
  | some results => .returned results
  | none => .raised

namespace PlanCall

variable (call : PlanCall P) (roles : RegionRoles)

/-- `worker_count` -/
def workerCount : ℕ :=
  regionWorkerCount roles.planningRegionIds.length call.maxConcurrentRequests

/-- The state after the role setup. -/
def start : PlanState P :=
  if call.formalSymbolicSplit then
    .preparing (opened (call.workerCount roles) roles.planningRegionIds)
  else .planning [] (opened (call.workerCount roles) roles.planningRegionIds)

/-- One step towards the plan. -/
inductive Step : PlanState P → PlanState P → Prop
  | prepare {pool pool' : WorkerPool.Pool String (Prepared P)}
      (hpool : WorkerPool.Step call.Prepares pool pool') :
      Step (.preparing pool) (.preparing pool')
  | prepared {pool : WorkerPool.Pool String (Prepared P)} (hfinished : pool.Finished) :
      Step (.preparing pool)
        (.planning pool.done (opened (call.workerCount roles) roles.planningRegionIds))
  | plan {prepared : List (String × Prepared P)}
      {pool pool' : WorkerPool.Pool String (Except Raised RegionAgentResult)}
      (hpool : WorkerPool.Step (fun r => call.RegionPlan (prepared.lookup r) r) pool pool') :
      Step (.planning prepared pool) (.planning prepared pool')
  /-- The assembly, and the escalation that only a planner without a kernel makes. -/
  | finish {prepared : List (String × Prepared P)}
      {pool : WorkerPool.Pool String (Except Raised RegionAgentResult)}
      (programmed : List (String × RegionCandidate)) (hfinished : pool.Finished)
      (hprogrammed : call.formalKernel = true → programmed = []) :
      Step (.planning prepared pool) (.ofResults
        ((call.assemble roles pool.done).bind fun results => escalate results programmed))

/-- An `InfrastructureFailure`, an `IntegrityFailure` or a cancellation, of a coroutine
or between the phases. -/
inductive Raises : PlanState P → PlanState P → Prop
  | preparing {pool : WorkerPool.Pool String (Prepared P)} : Raises (.preparing pool) .raised
  | planning {prepared : List (String × Prepared P)}
      {pool : WorkerPool.Pool String (Except Raised RegionAgentResult)} :
      Raises (.planning prepared pool) .raised

/-- The states of `plan` in any interleaving. -/
def Reaches (s : PlanState P) : Prop :=
  Relation.ReflTransGen (fun s s' => call.Step roles s s' ∨ Raises s s') (call.start roles) s

/-- The result of a region before the escalation: it depends on the outcome of the
region's own planning only. -/
def baseResult (outcome : Except Raised RegionAgentResult) (regionId : String) :
    RegionAgentResult :=
  if regionId ∈ roles.planningRegionIds then call.plannedResult regionId outcome
  else if regionId ∈ roles.context then call.contextResult regionId
  else ((assignmentOf roles.assignments regionId).map (call.unsupportedResult regionId)).getD
    (call.contextResult regionId)

/-- The candidates of the escalation for a region. -/
def programmedFor (programmed : List (String × RegionCandidate)) (regionId : String) :
    List RegionCandidate :=
  (programmed.filter (·.1 = regionId)).map (·.2)

/-- The result of a region in the plan. -/
def regionResult (planned : String → Except Raised RegionAgentResult)
    (programmed : List (String × RegionCandidate)) (regionId : String) : RegionAgentResult :=
  let base := call.baseResult roles (planned regionId) regionId
  { base with candidates := base.candidates ++ programmedFor programmed regionId }

/-- The results of a plan: one for each region of the subgraph, in the order of the
ids, from outcomes of the planned regions. -/
def Complete (results : List RegionAgentResult) : Prop :=
  ∃ planned programmed,
    (∀ r ∈ roles.planningRegionIds, call.Plans r (planned r)) ∧
    (call.formalKernel = true → programmed = []) ∧
    results = (sortedSet call.subgraph.regionIds).map
      (call.regionResult roles planned programmed)

end PlanCall

/-! ## The workers -/

theorem regionWorkerCount_pos {n : ℕ} {limit : ℤ} (h : 0 < n) : 0 < regionWorkerCount n limit := by
  rw [regionWorkerCount]
  omega

namespace PlanCall

variable {call : PlanCall P} {roles : RegionRoles}

theorem workerCount_pos (h : roles.planningRegionIds ≠ []) : 0 < call.workerCount roles :=
  regionWorkerCount_pos (length_pos_iff.2 h)

end PlanCall

/-! ## The sort -/

/-- A list of results with the ids of `ids`, sorted by the region, follows the sorted ids. -/
theorem insertionSort_map_regionId {ids sorted : List String} {f : String → RegionAgentResult}
    (hf : ∀ r ∈ ids, (f r).regionId = r) (hperm : ids.Perm sorted)
    (hsorted : sorted.Pairwise (· ≤ ·)) :
    (ids.map f).insertionSort (fun left right => left.regionId ≤ right.regionId) =
      sorted.map f := by
  have hsort : (ids.insertionSort (· ≤ ·)).map f =
      (ids.map f).insertionSort fun left right => left.regionId ≤ right.regionId := by
    refine map_insertionSort _ _ f ids fun a ha b hb => ?_
    rw [hf a ha, hf b hb]
  rw [← hsort]
  congr 1
  refine Perm.eq_of_pairwise' (pairwise_insertionSort _ _) hsorted ?_
  exact (perm_insertionSort _ _).trans hperm

/-- `mapM` of lookups that all succeed. -/
theorem mapM_eq_some {α β : Type} {f : α → Option β} {g : α → β} {l : List α}
    (h : ∀ a ∈ l, f a = some (g a)) : l.mapM f = some (l.map g) := by
  induction l with
  | nil => rfl
  | cons a l ih =>
    rw [mapM_cons, h a mem_cons_self, ih fun b hb => h b (mem_cons_of_mem _ hb)]
    rfl

/-! ## The assembly -/

namespace PlanCall

variable {call : PlanCall P} {roles : RegionRoles}

/-- What a region's planning returns carries the id of the region. -/
theorem plans_regionId (hkeeps : call.coroutines.KeepsRegion) {r : String}
    {result : RegionAgentResult} (h : call.Plans r (.ok result)) : result.regionId = r := by
  have hmap : ∀ (outcome : Except Raised KernelRegionResult),
      (∀ k, outcome = .ok k → k.regionId = r) →
      Except.ok result = outcome.map kernelResultToRegionResult → result.regionId = r := by
    intro outcome hk heq
    cases outcome with
    | error e => cases heq
    | ok k =>
      obtain rfl := Except.ok.inj heq
      exact hk k rfl
  have hplan : ∀ prepared, (∀ p, prepared = some p → call.Prepares r p) →
      call.RegionPlan prepared r (.ok result) → result.regionId = r := by
    intro prepared hprepared hregion
    rw [RegionPlan.eq_def] at hregion
    split_ifs at hregion with hkernel hsplit hsound
    · match prepared, hregion with
      | some (.result k), hregion =>
        obtain rfl := Except.ok.inj hregion
        exact hkeeps.planSymbolicRegion r k (hprepared _ rfl)
      | some (.plan p), ⟨executed, hexecuted, heq⟩ =>
        refine hmap executed (fun k hk => ?_) heq
        exact hkeeps.executeSymbolicPlan r p k (hk ▸ hexecuted)
    · obtain ⟨planned, hplanned, heq⟩ := hregion
      refine hmap planned (fun k hk => ?_) heq
      exact hkeeps.planRegion r k (hk ▸ hplanned)
    · obtain ⟨synthesized, -, heq⟩ := hregion
      cases synthesized with
      | error e => cases heq
      | ok s =>
        obtain rfl := Except.ok.inj heq
        rfl
    · exact hkeeps.agentPlan r result hregion
  rw [Plans] at h
  split_ifs at h
  · obtain ⟨prepared, hprepares, hregion⟩ := h
    refine hplan (some prepared) (fun p hp => ?_) hregion
    obtain rfl := Option.some.inj hp
    exact hprepares
  · exact hplan none (fun p hp => nomatch hp) h

/-- The result of a region carries its id. -/
theorem baseResult_regionId (hkeeps : call.coroutines.KeepsRegion) {r : String}
    {outcome : Except Raised RegionAgentResult}
    (h : r ∈ roles.planningRegionIds → call.Plans r outcome) :
    (call.baseResult roles outcome r).regionId = r := by
  rw [baseResult]
  split_ifs with hplanning hcontext
  · cases outcome with
    | ok result => exact plans_regionId hkeeps (h hplanning)
    | error e => rfl
  · rfl
  · cases assignmentOf roles.assignments r with
    | none => rfl
    | some a => rfl

theorem regionResult_regionId {planned : String → Except Raised RegionAgentResult}
    {programmed : List (String × RegionCandidate)} {r : String} :
    (call.regionResult roles planned programmed r).regionId =
      (call.baseResult roles (planned r) r).regionId := rfl

/-- **The assembly.**  With an outcome for every planned region there is one result for
each region of the subgraph, in the order of the ids. -/
theorem assemble_eq (hroles : roles.WellFormed call.subgraph)
    (hkeeps : call.coroutines.KeepsRegion) {planned : String → Except Raised RegionAgentResult}
    {outcomes : List (String × Except Raised RegionAgentResult)}
    (hplans : ∀ r ∈ roles.planningRegionIds, call.Plans r (planned r))
    (houtcomes : ∀ r ∈ roles.planningRegionIds, outcomes.lookup r = some (planned r)) :
    call.assemble roles outcomes = some ((sortedSet call.subgraph.regionIds).map
      fun r => call.baseResult roles (planned r) r) := by
  set base : String → RegionAgentResult := fun r => call.baseResult roles (planned r) r with hbase
  have hplanned : (roles.planningRegionIds.mapM fun r =>
      (outcomes.lookup r).map (call.plannedResult r)) =
      some (roles.planningRegionIds.map base) := by
    refine mapM_eq_some fun r hr => ?_
    rw [houtcomes r hr, hbase]
    simp only [baseResult, if_pos hr, Option.map_some]
  have hunsupported : ((sortedSet roles.unsupportedHelpers).mapM fun r =>
      (assignmentOf roles.assignments r).map (call.unsupportedResult r)) =
      some ((sortedSet roles.unsupportedHelpers).map base) := by
    refine mapM_eq_some fun r hr => ?_
    rw [mem_sortedSet] at hr
    have hassigned := hroles.assigned r (RegionRoles.mem_unsupportedHelpers.1 hr).1
    obtain ⟨a, ha⟩ := Option.isSome_iff_exists.1 hassigned
    have hplanning : r ∉ roles.planningRegionIds :=
      fun hp => hroles.planning_not_unsupported hp hr
    have hcontext : r ∉ roles.context := fun hc => hroles.context_not_unsupported hc hr
    simp only [hbase, baseResult, if_neg hplanning, if_neg hcontext, ha, Option.map_some,
      Option.getD_some]
  have hcontext : (sortedSet roles.context).map call.contextResult =
      (sortedSet roles.context).map base := by
    refine map_congr_left fun r hr => ?_
    rw [mem_sortedSet] at hr
    have hplanning : r ∉ roles.planningRegionIds := fun hp => hroles.planning_not_context hp hr
    simp only [hbase, baseResult, if_neg hplanning, if_pos hr]
  have hperm : (roles.planningRegionIds ++ sortedSet roles.context ++
      sortedSet roles.unsupportedHelpers).Perm (sortedSet call.subgraph.regionIds) := by
    refine Perm.trans ?_ hroles.regions_perm
    refine (Perm.append_left _ ?_).append ?_
    · exact (perm_ext_iff_of_nodup (nodup_sortedSet _) hroles.nodup_context).2
        fun r => mem_sortedSet
    · exact (perm_ext_iff_of_nodup (nodup_sortedSet _) (hroles.nodup_helper.filter _)).2
        fun r => mem_sortedSet
  rw [assemble, hplanned, hunsupported, hcontext]
  show some (insertionSort _ (_ ++ _ ++ _)) = _
  rw [← map_append, ← map_append,
    insertionSort_map_regionId (fun r _ => ?_) hperm (pairwise_sortedSet _)]
  exact baseResult_regionId hkeeps fun hr => hplans r hr

end PlanCall

/-! ## The escalation -/

/-- The escalation adds a candidate to the one result of the region. -/
theorem appendCandidate_eq {ids : List String} {f : String → RegionAgentResult}
    (hf : ∀ r ∈ ids, (f r).regionId = r) (hids : ids.Nodup) {regionId : String}
    {candidate : RegionCandidate} {results : List RegionAgentResult}
    (h : appendCandidate regionId candidate (ids.map f) = some results) :
    results = ids.map fun r =>
      if r = regionId then { f r with candidates := (f r).candidates ++ [candidate] } else f r := by
  induction ids generalizing results with
  | nil => cases h
  | cons id ids ih =>
    obtain ⟨hnot, hids⟩ := nodup_cons.1 hids
    have hfirst := hf id mem_cons_self
    rw [map_cons, appendCandidate] at h
    rw [map_cons]
    split_ifs at h with hkey
    · have hid : id = regionId := hfirst.symm.trans hkey
      obtain rfl := Option.some.inj h
      rw [if_pos hid]
      congr 1
      refine map_congr_left fun r hr => ?_
      rw [if_neg]
      rintro rfl
      exact hnot (hid ▸ hr)
    · have hid : id ≠ regionId := fun hid => hkey (hfirst.trans hid)
      obtain ⟨rest, hrest, rfl⟩ := Option.map_eq_some_iff.1 h
      rw [if_neg hid, ih (fun r hr => hf r (mem_cons_of_mem _ hr)) hids hrest]

theorem escalate_eq {ids : List String} {f : String → RegionAgentResult}
    (hf : ∀ r ∈ ids, (f r).regionId = r) (hids : ids.Nodup)
    {programmed : List (String × RegionCandidate)} {results : List RegionAgentResult}
    (h : escalate (ids.map f) programmed = some results) :
    results = ids.map fun r => { f r with
      candidates := (f r).candidates ++ PlanCall.programmedFor programmed r } := by
  induction programmed generalizing f results with
  | nil =>
    obtain rfl := Option.some.inj h
    refine map_congr_left fun r _ => ?_
    simp [PlanCall.programmedFor]
  | cons entry programmed ih =>
    rw [escalate, foldlM_cons] at h
    obtain ⟨next, hnext, hrest⟩ := Option.bind_eq_some_iff.1 h
    have heq := appendCandidate_eq hf hids hnext
    subst heq
    rw [ih (fun r hr => ?_) hrest]
    · refine map_congr_left fun r _ => ?_
      by_cases hr : r = entry.1
      · simp [PlanCall.programmedFor, hr]
      · simp [PlanCall.programmedFor, hr, Ne.symm hr]
    · split_ifs
      · exact hf r hr
      · exact hf r hr

/-! ## The invariant -/

namespace PlanCall

variable (call : PlanCall P) (roles : RegionRoles)

/-- Every planned region has been prepared, if regions are prepared at all. -/
def AllPrepared (prepared : List (String × Prepared P)) : Prop :=
  call.formalSymbolicSplit = true → ∀ r ∈ roles.planningRegionIds,
    ∃ p, prepared.lookup r = some p ∧ call.Prepares r p

/-- The pools serve the planned regions, and what is returned is complete. -/
def Invariant : PlanState P → Prop
  | .preparing pool =>
    Serves call.Prepares roles.planningRegionIds (call.workerCount roles) pool
  | .planning prepared pool =>
    call.AllPrepared roles prepared ∧
      Serves (fun r => call.RegionPlan (prepared.lookup r) r) roles.planningRegionIds
        (call.workerCount roles) pool
  | .returned results => call.Complete roles results
  | .raised => True

variable {call : PlanCall P} {roles : RegionRoles} {s s' : PlanState P}

theorem invariant_start : call.Invariant roles (call.start roles) := by
  rw [start]
  split_ifs with hsplit
  · exact serves_opened RegionRoles.nodup_planningRegionIds
  · exact ⟨fun h => absurd h hsplit, serves_opened RegionRoles.nodup_planningRegionIds⟩

/-- The outcome of a region under the entry of its preparation is one of its planning. -/
theorem plans_of_regionPlan {prepared : List (String × Prepared P)}
    (hprepared : call.AllPrepared roles prepared) {r : String} (hr : r ∈ roles.planningRegionIds)
    {outcome : Except Raised RegionAgentResult}
    (h : call.RegionPlan (prepared.lookup r) r outcome) : call.Plans r outcome := by
  rw [Plans]
  split_ifs with hsplit
  · obtain ⟨p, hlookup, hp⟩ := hprepared hsplit r hr
    rw [hlookup] at h
    exact ⟨p, hp, h⟩
  · rw [RegionPlan.eq_def] at h ⊢
    split_ifs at h ⊢ with hkernel hsound
    · exact h
    · exact h
    · exact h

/-- The results of a pool that has finished: the assembly succeeds. -/
theorem assemble_of_finished (hroles : roles.WellFormed call.subgraph)
    (hkeeps : call.coroutines.KeepsRegion) {prepared : List (String × Prepared P)}
    {pool : WorkerPool.Pool String (Except Raised RegionAgentResult)}
    (h : call.Invariant roles (.planning prepared pool)) (hfinished : pool.Finished) :
    ∃ planned : String → Except Raised RegionAgentResult,
      (∀ r ∈ roles.planningRegionIds, call.Plans r (planned r)) ∧
      call.assemble roles pool.done = some ((sortedSet call.subgraph.regionIds).map
        fun r => call.baseResult roles (planned r) r) := by
  obtain ⟨hprepared, hserves⟩ := h
  have hall : ∀ r, ∃ outcome, r ∈ roles.planningRegionIds →
      pool.done.lookup r = some outcome ∧ call.Plans r outcome := by
    intro r
    by_cases hr : r ∈ roles.planningRegionIds
    · obtain ⟨outcome, hlookup, houtcome⟩ := hserves.exists_outcome hfinished hr
      exact ⟨outcome, fun _ => ⟨hlookup, plans_of_regionPlan hprepared hr houtcome⟩⟩
    · exact ⟨.error ⟨"", ""⟩, fun h => absurd h hr⟩
  choose planned hplanned using hall
  refine ⟨planned, fun r hr => (hplanned r hr).2, ?_⟩
  exact assemble_eq hroles hkeeps (fun r hr => (hplanned r hr).2) fun r hr => (hplanned r hr).1

/-- **The step lemma.** -/
theorem Invariant.step (hroles : roles.WellFormed call.subgraph)
    (hkeeps : call.coroutines.KeepsRegion) (h : call.Invariant roles s)
    (hstep : call.Step roles s s') : call.Invariant roles s' := by
  cases hstep with
  | prepare hpool => exact Serves.step h hpool
  | prepared hfinished =>
    refine ⟨fun _ r hr => ?_, serves_opened RegionRoles.nodup_planningRegionIds⟩
    exact Serves.exists_outcome h hfinished hr
  | plan hpool => exact ⟨h.1, h.2.step hpool⟩
  | @finish prepared pool programmed hfinished hprogrammed =>
    obtain ⟨planned, hplans, hassemble⟩ := assemble_of_finished hroles hkeeps h hfinished
    rw [hassemble, Option.bind_some]
    cases hresults : escalate ((sortedSet call.subgraph.regionIds).map
      fun r => call.baseResult roles (planned r) r) programmed with
    | none => trivial
    | some results =>
      refine ⟨planned, programmed, hplans, hprogrammed, ?_⟩
      refine escalate_eq (fun r _ => ?_) (nodup_sortedSet _) hresults
      exact baseResult_regionId hkeeps (hplans r)

/-- **The run lemma.** -/
theorem invariant_of_reaches (hroles : roles.WellFormed call.subgraph)
    (hkeeps : call.coroutines.KeepsRegion) (h : call.Reaches roles s) :
    call.Invariant roles s := by
  induction h with
  | refl => exact invariant_start
  | tail _ hlast ih =>
    rcases hlast with hstep | hraises
    · exact ih.step hroles hkeeps hstep
    · cases hraises with
      | preparing => trivial
      | planning => trivial

/-! ## Progress -/

/-- The steps that are left, at most. -/
def weight (roles : RegionRoles) : PlanState P → ℕ
  | .preparing pool => pool.weight + (2 * roles.planningRegionIds.length + 2)
  | .planning _ pool => pool.weight + 1
  | .returned _ => 0
  | .raised => 0

/-- Every step uses up weight. -/
theorem Step.weight_lt (h : call.Step roles s s') : weight roles s' < weight roles s := by
  cases h with
  | prepare hpool =>
    have := hpool.weight
    simp only [weight]
    omega
  | @prepared pool hfinished =>
    simp only [weight, weight_opened]
    omega
  | plan hpool =>
    have := hpool.weight
    simp only [weight]
    omega
  | @finish prepared pool programmed hfinished hprogrammed =>
    have hofResults : ∀ results : Option (List RegionAgentResult),
        weight roles (.ofResults results : PlanState P) = 0 := by
      intro results
      cases results <;> rfl
    rw [hofResults]
    simp [weight]

/-- Every planning of a region ends. -/
theorem exists_regionPlan (hends : call.coroutines.Ends) (prepared : Option (Prepared P))
    (r : String) : ∃ outcome, call.RegionPlan prepared r outcome := by
  simp only [RegionPlan.eq_def]
  split_ifs
  · match prepared with
    | none => exact ⟨_, rfl⟩
    | some (.failed e) => exact ⟨_, rfl⟩
    | some (.result k) => exact ⟨_, rfl⟩
    | some (.plan p) =>
      obtain ⟨executed, hexecuted⟩ := hends.executeSymbolicPlan r p
      exact ⟨_, executed, hexecuted, rfl⟩
  · obtain ⟨planned, hplanned⟩ := hends.planRegion r
    exact ⟨_, planned, hplanned, rfl⟩
  · obtain ⟨synthesized, hsynthesized⟩ := hends.synthesize r
    exact ⟨_, synthesized, hsynthesized, rfl⟩
  · exact hends.agentPlan r

theorem exists_prepares (hends : call.coroutines.Ends) (r : String) :
    ∃ prepared, call.Prepares r prepared := by
  obtain ⟨outcome, houtcome⟩ := hends.planSymbolicRegion r
  match outcome, houtcome with
  | .ok (.inl plan), houtcome => exact ⟨.plan plan, houtcome⟩
  | .ok (.inr result), houtcome => exact ⟨.result result, houtcome⟩
  | .error e, houtcome => exact ⟨.failed e, houtcome⟩

/-- A state that has neither returned nor raised has a step, and not into an exception. -/
theorem exists_step (hroles : roles.WellFormed call.subgraph)
    (hkeeps : call.coroutines.KeepsRegion) (hends : call.coroutines.Ends)
    (h : call.Invariant roles s) (hraised : s ≠ .raised) (hreturned : ∀ r, s ≠ .returned r) :
    ∃ s', call.Step roles s s' ∧ s' ≠ .raised := by
  match s, h, hraised, hreturned with
  | .preparing pool, h, _, _ =>
    by_cases hfinished : pool.Finished
    · exact ⟨_, .prepared hfinished, fun heq => nomatch heq⟩
    · obtain ⟨pool', hpool⟩ := Serves.exists_step h workerCount_pos
        (fun r _ => exists_prepares hends r) hfinished
      exact ⟨_, .prepare hpool, fun heq => nomatch heq⟩
  | .planning prepared pool, h, _, _ =>
    by_cases hfinished : pool.Finished
    · obtain ⟨planned, -, hassemble⟩ := assemble_of_finished hroles hkeeps h hfinished
      refine ⟨_, .finish [] hfinished fun _ => rfl, ?_⟩
      rw [hassemble]
      exact fun heq => nomatch heq
    · obtain ⟨pool', hpool⟩ := h.2.exists_step workerCount_pos
        (fun r _ => exists_regionPlan hends (prepared.lookup r) r) hfinished
      exact ⟨_, .plan hpool, fun heq => nomatch heq⟩
  | .returned results, _, _, hreturned => exact absurd rfl (hreturned results)
  | .raised, _, hraised, _ => exact absurd rfl hraised

/-- From every state that has not raised the plan can be returned. -/
theorem returns_of_invariant (hroles : roles.WellFormed call.subgraph)
    (hkeeps : call.coroutines.KeepsRegion) (hends : call.coroutines.Ends) (n : ℕ) :
    ∀ s, weight roles s ≤ n → call.Invariant roles s → s ≠ .raised →
      ∃ results, Relation.ReflTransGen (call.Step roles) s (.returned results) := by
  induction n with
  | zero =>
    intro s hn hinv hraised
    by_contra hnone
    obtain ⟨s', hstep, -⟩ := exists_step hroles hkeeps hends hinv hraised
      fun results heq => hnone ⟨results, heq ▸ .refl⟩
    have := hstep.weight_lt
    omega
  | succ n ih =>
    intro s hn hinv hraised
    by_cases hreturned : ∃ results, s = .returned results
    · obtain ⟨results, rfl⟩ := hreturned
      exact ⟨results, .refl⟩
    · obtain ⟨s', hstep, hraised'⟩ := exists_step hroles hkeeps hends hinv hraised
        fun results heq => hreturned ⟨results, heq⟩
      have hlt := hstep.weight_lt
      obtain ⟨results, hrest⟩ := ih s' (by omega) (hinv.step hroles hkeeps hstep) hraised'
      exact ⟨results, .head hstep hrest⟩

/-- The ids of a complete list of results. -/
theorem Complete.map_regionId {results : List RegionAgentResult}
    (hkeeps : call.coroutines.KeepsRegion) (h : call.Complete roles results) :
    results.map (·.regionId) = sortedSet call.subgraph.regionIds := by
  obtain ⟨planned, programmed, hplans, -, rfl⟩ := h
  rw [map_map]
  refine map_id'' (fun r => ?_) _
  show (call.regionResult roles planned programmed r).regionId = r
  rw [regionResult_regionId]
  exact baseResult_regionId hkeeps fun hr => hplans r hr

end PlanCall

/-- **A returned plan is complete.**  Whatever the interleaving and whichever regions
raised, there is one result for each region of the subgraph, in the order of the ids,
and the result of a region comes from the planning of that region. From every state
without an exception of `plan` itself the plan is returned, and every run ends. -/
theorem plan_complete {call : PlanCall P} {roles : RegionRoles}
    (hroles : planningRoles call.graph call.subgraph call.args = .ok roles)
    (hkeeps : call.coroutines.KeepsRegion) (hends : call.coroutines.Ends) :
    (∀ results, call.Reaches roles (.returned results) → call.Complete roles results ∧
        results.map (·.regionId) = sortedSet call.subgraph.regionIds) ∧
    (∀ s, call.Reaches roles s → s ≠ .raised →
      ∃ results, Relation.ReflTransGen (call.Step roles) s (.returned results)) ∧
    ∀ s s', call.Step roles s s' → PlanCall.weight roles s' < PlanCall.weight roles s := by
  have hformed := RegionRoles.wellFormed_of_planningRoles hroles
  refine ⟨fun results hreaches => ?_, fun s hreaches hraised => ?_, fun s s' h => h.weight_lt⟩
  · have hcomplete : call.Complete roles results :=
      PlanCall.invariant_of_reaches hformed hkeeps hreaches
    exact ⟨hcomplete, hcomplete.map_regionId hkeeps⟩
  · exact PlanCall.returns_of_invariant hformed hkeeps hends _ s le_rfl
      (PlanCall.invariant_of_reaches hformed hkeeps hreaches) hraised

/-! ## A subgraph with every kind of region -/

/-- `r1` raises, `r2` is an unsupported helper of it, `r3` is context. -/
def mixedCall : PlanCall Unit where
  graph := { edges := [], regions := [("r1", ["v1"]), ("r2", []), ("r3", [])] }
  subgraph := { subgraphId := "A", regionIds := ["r3", "r1", "r2"] }
  args := {
    decisionRegionIds := some ["r1"], helperRegionIds := some ["r2"],
    contextOnlyRegionIds := some ["r3"], claimedFrontierViolationIds := some ["v1"],
    helperAssignments := some [⟨"r2", ["r1"], ["v1"], ["e1"], [], [], [], "s0",
      "UNSUPPORTED_WITH_EVIDENCE"⟩] }
  formalKernel := true
  snapshotsGiven := true
  maxConcurrentRequests := 2
  soundSimple _ := false
  coroutines := {
    planSymbolicRegion := fun _ outcome => outcome = .error ⟨"ValueError", "no scene"⟩
    executeSymbolicPlan := fun _ _ outcome => outcome = .error ⟨"ValueError", "no scene"⟩
    planRegion := fun _ outcome => outcome = .error ⟨"ValueError", "no scene"⟩
    synthesize := fun _ outcome => outcome = .error ⟨"ValueError", "no scene"⟩
    agentPlan := fun _ outcome => outcome = .error ⟨"ValueError", "no scene"⟩ }

def mixedRoles : RegionRoles := rolesOfSplit mixedCall.graph ⟨["r1"], ["r2"], ["r3"]⟩ mixedCall.args

theorem mixedCall_keepsRegion : mixedCall.coroutines.KeepsRegion where
  planSymbolicRegion _ _ h := nomatch h
  executeSymbolicPlan _ _ _ h := nomatch h
  planRegion _ _ h := nomatch h
  agentPlan _ _ h := nomatch h

theorem mixedCall_ends : mixedCall.coroutines.Ends where
  planSymbolicRegion _ := ⟨_, rfl⟩
  executeSymbolicPlan _ _ := ⟨_, rfl⟩
  planRegion _ := ⟨_, rfl⟩
  synthesize _ := ⟨_, rfl⟩
  agentPlan _ := ⟨_, rfl⟩

theorem plan_complete_mixed : ∃ results,
    mixedCall.Complete mixedRoles results ∧ results.map (·.regionId) = ["r1", "r2", "r3"] := by
  have hroles : planningRoles mixedCall.graph mixedCall.subgraph mixedCall.args =
      .ok mixedRoles := by decide +kernel
  have hplan := plan_complete hroles mixedCall_keepsRegion mixedCall_ends
  obtain ⟨results, hrun⟩ := hplan.2.1 (mixedCall.start mixedRoles) .refl fun h => nomatch h
  have hreaches : mixedCall.Reaches mixedRoles (.returned results) :=
    Relation.ReflTransGen.mono (fun _ _ hstep => Or.inl hstep) _ _ hrun
  obtain ⟨hcomplete, hids⟩ := hplan.1 results hreaches
  exact ⟨results, hcomplete, hids.trans (by decide +kernel)⟩

end DRCAgent.Planner
