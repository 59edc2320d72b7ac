/-
# Every solution is accounted for

Over a whole call of `build_solution_specialization_programs` with a list for the rejections that
is empty at first.

Main result:

* `solutions_accounted`: each solution has its program in the result or a recorded rejection, never
  both; a program is there once, at the place of the first solution it came from.
-/
import DRCAgent.SolutionLowering

namespace DRCAgent.EditAuthority

open List

/-! ## The account of a solution -/

/-- The anchors of the occurrences an operation rewrites. -/
def RepairOperation.anchors : RepairOperation → List String
  | .specializeInstanceLayer operation =>
    operation.instanceLayerReplacements.map (·.instanceAnchorId)
  | _ => []

/-- The occurrences a program rewrites. -/
def LoweredProgram.occurrences (program : LoweredProgram) : Finset String :=
  (program.operations.flatMap RepairOperation.anchors).toFinset

/-- At most four operations over at most four occurrences. -/
structure LoweredProgram.Bounded (program : LoweredProgram) : Prop where
  operations : program.operations.length ≤ 4
  occurrences : program.occurrences.card ≤ 4

/-- What a solution has in the end: its program, or a rejection. -/
def Accounted (programs : List LoweredProgram) (rejections : List Rejection)
    (solution : GeometrySolution) : Option LoweredProgram → Prop
  | some program => (program ∈ programs ∧ program.Bounded) ∧
      ∀ r ∈ rejections, r.solutionId ≠ solution.solutionId
  | none => ∃ r ∈ rejections, r.solutionId = solution.solutionId

/-- What the turn of a solution leaves behind. -/
structure TurnOf (solution : GeometrySolution) (rejections : List Rejection)
    (turn : List Rejection × Option LoweredProgram) : Prop where
  recorded : ∃ new, turn.1 = rejections ++ new ∧ ∀ r ∈ new, r.solutionId = solution.solutionId
  rejected : turn.2 = none → ∃ r ∈ turn.1, r.solutionId = solution.solutionId
  emitted : ∀ program, turn.2 = some program → turn.1 = rejections ∧ program.Bounded

/-! ## One turn -/

section Turn

variable {call : LoweringCall} {anchor : Option String} {solution : GeometrySolution}
  {rejections : List Rejection} {s : LoweringState}

/-- A solution is rejected after a step that has recorded nothing else. -/
theorem turnOf_reject (hrecorded : ∃ new, s.rejections = rejections ++ new ∧
      ∀ r ∈ new, r.solutionId = solution.solutionId) (code : String) :
    TurnOf solution rejections (s.rejections ++ [rejection solution code], none) := by
  obtain ⟨new, hnew, hids⟩ := hrecorded
  refine ⟨⟨new ++ [rejection solution code], ?_, fun r hr => ?_⟩, fun _ => ?_, fun _ h => ?_⟩
  · rw [hnew, append_assoc]
  · rcases mem_append.1 hr with hr | hr
    · exact hids r hr
    · rw [mem_singleton.1 hr]
      rfl
  · exact ⟨_, mem_append_right _ (mem_singleton_self _), rfl⟩
  · exact absurd h (by simp)

theorem occurrences_program (direct : List EditOperation)
    (specializations : List SpecializeInstanceLayerOp) :
    (call.program (direct.map .edit ++ specializations.map .specializeInstanceLayer)).occurrences =
        ((specializations.flatMap (·.instanceLayerReplacements)).map
          (·.instanceAnchorId)).toFinset := by
  have hdirect : (direct.map RepairOperation.edit).flatMap RepairOperation.anchors = [] := by
    rw [flatMap_map, flatMap_eq_nil_iff]
    exact fun _ _ => rfl
  rw [LoweredProgram.occurrences]
  show ((direct.map RepairOperation.edit ++ specializations.map
    RepairOperation.specializeInstanceLayer).flatMap RepairOperation.anchors).toFinset = _
  rw [flatMap_append, hdirect, nil_append, flatMap_map, map_flatMap]
  rfl

/-- **What follows the loops.** -/
theorem turnOf_finish (h : Accounts solution.solutionId { rejections := rejections } s) :
    TurnOf solution rejections (call.finish solution s) := by
  rw [LoweringCall.finish]
  dsimp only
  split_ifs with hfailed hrecorded hempty hbound
  · obtain ⟨r, hr, hid⟩ := any_eq_true.1 hrecorded
    exact ⟨h.recorded, fun _ => ⟨r, hr, of_decide_eq_true hid⟩, fun _ h => absurd h (by simp)⟩
  · -- the loop broke without a code
    exact turnOf_reject h.recorded _
  · exact turnOf_reject h.recorded _
  · exact turnOf_reject h.recorded _
  · split
    · exact turnOf_reject h.recorded _
    · rename_i specializations hgroup
      split_ifs with hlong
      · exact turnOf_reject h.recorded _
      · have hkept := h.kept (Bool.not_eq_true _ ▸ hfailed)
        refine ⟨h.recorded, fun hnone => absurd hnone (by simp), fun program hprogram => ?_⟩
        obtain rfl := Option.some.inj hprogram
        refine ⟨hkept, not_lt.1 hlong, ?_⟩
        rw [occurrences_program]
        exact (groupedInto_of_some hgroup).anchors

/-- **The turn of a solution** ends with its program or a rejection. -/
theorem turnOf_lowerSolution :
    TurnOf solution rejections (call.lowerSolution anchor rejections solution) := by
  have hnothing : ∃ new, rejections = rejections ++ new ∧
      ∀ r ∈ new, r.solutionId = solution.solutionId := ⟨[], by simp⟩
  rw [LoweringCall.lowerSolution]
  split
  · exact turnOf_reject (s := { rejections := rejections }) hnothing _
  · split_ifs
    · exact turnOf_reject (s := { rejections := rejections }) hnothing _
    · exact turnOf_finish (LoweringCall.accounts_lowerLoops rejections)

end Turn

/-! ## All turns -/

section All

variable {call : LoweringCall} {anchor : Option String}

/-- The turns record rejections of their solutions only. -/
theorem recorded_lowerAll (solutions : List GeometrySolution) (rejections : List Rejection) :
    ∃ new, (call.lowerAll anchor solutions rejections).2 = rejections ++ new ∧
      ∀ r ∈ new, r.solutionId ∈ solutions.map (·.solutionId) := by
  induction solutions generalizing rejections with
  | nil => exact ⟨[], (append_nil _).symm, by simp⟩
  | cons solution rest ih =>
    have hturn := @turnOf_lowerSolution call anchor solution rejections
    obtain ⟨first, hfirst, hids⟩ := hturn.recorded
    obtain ⟨later, hlater, hids'⟩ := ih (call.lowerSolution anchor rejections solution).1
    refine ⟨first ++ later, ?_, fun r hr => ?_⟩
    · show (call.lowerAll anchor rest (call.lowerSolution anchor rejections solution).1).2 = _
      rw [hlater, hfirst, append_assoc]
    · rw [map_cons, mem_cons]
      rcases mem_append.1 hr with hr | hr
      · exact .inl (hids r hr)
      · exact .inr (hids' r hr)

/-- More programs do not change an account. -/
theorem Accounted.mono {programs programs' : List LoweredProgram} {rejections : List Rejection}
    {solution : GeometrySolution} {outcome : Option LoweredProgram}
    (hsubset : ∀ program ∈ programs, program ∈ programs')
    (h : Accounted programs rejections solution outcome) :
    Accounted programs' rejections solution outcome := by
  cases outcome with
  | none => exact h
  | some program => exact ⟨⟨hsubset program h.1.1, h.1.2⟩, h.2⟩

/-- **Each turn is accounted for** in the end. -/
theorem accounted_lowerAll {solutions : List GeometrySolution} {rejections : List Rejection}
    (hdistinct : (solutions.map (·.solutionId)).Nodup)
    (hfresh : ∀ r ∈ rejections, r.solutionId ∉ solutions.map (·.solutionId)) :
    List.Forall₂ (Accounted (call.lowerAll anchor solutions rejections).1.reduceOption
      (call.lowerAll anchor solutions rejections).2) solutions
        (call.lowerAll anchor solutions rejections).1 := by
  induction solutions generalizing rejections with
  | nil => exact .nil
  | cons solution rest ih =>
    have hturn := @turnOf_lowerSolution call anchor solution rejections
    obtain ⟨later, hlater, hlaterIds⟩ := @recorded_lowerAll call anchor rest
      (call.lowerSolution anchor rejections solution).1
    rw [map_cons, nodup_cons] at hdistinct
    simp only [map_cons, mem_cons, not_or] at hfresh
    show List.Forall₂ (Accounted ((call.lowerSolution anchor rejections solution).2 ::
        (call.lowerAll anchor rest
          (call.lowerSolution anchor rejections solution).1).1).reduceOption
      (call.lowerAll anchor rest (call.lowerSolution anchor rejections solution).1).2)
      (solution :: rest) ((call.lowerSolution anchor rejections solution).2 ::
        (call.lowerAll anchor rest (call.lowerSolution anchor rejections solution).1).1)
    refine .cons ?_ ?_
    · rw [hlater]
      cases houtcome : (call.lowerSolution anchor rejections solution).2 with
      | none =>
        obtain ⟨r, hr, hid⟩ := hturn.rejected houtcome
        exact ⟨r, mem_append_left _ hr, hid⟩
      | some program =>
        obtain ⟨hkept, hbounded⟩ := hturn.emitted program houtcome
        refine ⟨⟨?_, hbounded⟩, fun r hr => ?_⟩
        · rw [reduceOption_cons_of_some]
          exact mem_cons_self
        · rcases mem_append.1 hr with hr | hr
          · rw [hkept] at hr
            exact (hfresh r hr).1
          · intro heq
            exact hdistinct.1 (heq ▸ hlaterIds r hr)
    · refine (ih hdistinct.2 fun r hr => ?_).imp fun solution' outcome h => ?_
      · obtain ⟨new, hnew, hids⟩ := hturn.recorded
        rw [hnew] at hr
        rcases mem_append.1 hr with hr | hr
        · exact (hfresh r hr).2
        · rw [hids r hr]
          exact hdistinct.1
      · refine h.mono fun program hprogram => ?_
        cases (call.lowerSolution anchor rejections solution).2 with
        | none =>
          rw [reduceOption_cons_of_none]
          exact hprogram
        | some first =>
          rw [reduceOption_cons_of_some]
          exact mem_cons_of_mem _ hprogram

end All

/-! ## Programs of one content -/

section Unique

variable {call : LoweringCall}

/-- The loop of `setdefault` keeps the first program of each content. -/
theorem foldl_setdefault (programs : List LoweredProgram) (unique : List (String × LoweredProgram))
    (hkeys : ∀ entry ∈ unique, entry.1 = call.contentHash entry.2)
    (hseparates : ∀ p ∈ unique.map (·.2) ++ programs, ∀ q ∈ unique.map (·.2) ++ programs,
      call.contentHash p = call.contentHash q → p = q) :
    (programs.foldl call.setdefault unique).map (·.2) =
      unique.map (·.2) ++ (programs.filter (· ∉ unique.map (·.2))).eraseDups := by
  induction programs generalizing unique with
  | nil => simp
  | cons item rest ih =>
    rw [foldl_cons, LoweringCall.setdefault]
    cases hlookup : unique.lookup (call.contentHash item) with
    | some other =>
      -- the program is there already
      have hentry := Dicts.mem_of_lookup hlookup
      have hother : other ∈ unique.map (·.2) := mem_map_of_mem hentry
      have heq : other = item := by
        refine hseparates other (mem_append_left _ hother) item (by simp) ?_
        exact (hkeys _ hentry).symm
      have hmem : item ∈ unique.map (·.2) := heq ▸ hother
      rw [filter_cons_of_neg (by simpa using hmem)]
      have hmore : ∀ p ∈ unique.map (·.2) ++ rest, p ∈ unique.map (·.2) ++ item :: rest :=
        fun p hp => (Sublist.append_left (sublist_cons_self item rest) _).subset hp
      exact ih unique hkeys fun p hp q hq => hseparates p (hmore p hp) q (hmore q hq)
    | none =>
      have hnew : call.contentHash item ∉ unique.map (·.1) := Groups.notMem_keys_of_lookup hlookup
      have hout : item ∉ unique.map (·.2) := by
        intro hmem
        obtain ⟨entry, hentry, rfl⟩ := mem_map.1 hmem
        exact hnew (mem_map.2 ⟨entry, hentry, hkeys entry hentry⟩)
      have hinsert : Dicts.insert (call.contentHash item) item unique =
          unique ++ [(call.contentHash item, item)] := Dicts.insert_of_notMem hnew
      have hfilter : rest.filter (· ∉ (unique ++ [(call.contentHash item, item)]).map (·.2)) =
          rest.filter fun p => !p == item && decide (p ∉ unique.map (·.2)) := by
        refine filter_congr fun p _ => ?_
        rw [Bool.eq_iff_iff]
        simp [and_comm]
      dsimp only
      rw [hinsert, ih _ ?_ ?_, hfilter, ← filter_filter]
      · rw [filter_cons_of_pos (by simpa using hout), eraseDups_cons, map_append,
          append_assoc]
        rfl
      · intro entry hentry
        rcases mem_append.1 hentry with hentry | hentry
        · exact hkeys entry hentry
        · rw [mem_singleton.1 hentry]
      · intro p hp q hq
        have hassoc : (unique ++ [(call.contentHash item, item)]).map (·.2) ++ rest =
            unique.map (·.2) ++ item :: rest := by simp
        rw [hassoc] at hp hq
        exact hseparates p hp q hq

theorem uniquePrograms_eq {programs : List LoweredProgram}
    (hseparates : ∀ p ∈ programs, ∀ q ∈ programs, call.contentHash p = call.contentHash q → p = q) :
    call.uniquePrograms programs = programs.eraseDups := by
  rw [LoweringCall.uniquePrograms, foldl_setdefault programs [] (by simp) hseparates]
  simp

end Unique

/-! ## The whole call -/

/-- The program of each solution, where its turn has one. -/
def LoweringCall.outcomes (call : LoweringCall) (solutions : List GeometrySolution) :
    List (Option LoweredProgram) :=
  (call.lowerAll (call.specializationAnchor solutions) solutions []).1

/-- **Each solution is accounted for exactly once.**  Solutions have distinct ids, and the hash of
the contents separates the programs of the call. A solution has its program in the result, within
the bounds and without a rejection, or it has a rejection. The result has the programs in the order
of their solutions, the first of equal ones. -/
theorem solutions_accounted (call : LoweringCall) (solutions : List GeometrySolution)
    (hdistinct : (solutions.map (·.solutionId)).Nodup)
    (hseparates : ∀ p ∈ (call.outcomes solutions).reduceOption,
      ∀ q ∈ (call.outcomes solutions).reduceOption,
        call.contentHash p = call.contentHash q → p = q)
    (programs : List LoweredProgram) (rejections : List Rejection)
    (h : call.buildSolutionSpecializationPrograms solutions [] = (programs, rejections)) :
    List.Forall₂ (Accounted programs rejections) solutions (call.outcomes solutions) ∧
      programs = (call.outcomes solutions).reduceOption.eraseDups := by
  obtain ⟨hprograms, hrejections⟩ := Prod.mk.inj h
  have hunique : programs = (call.outcomes solutions).reduceOption.eraseDups :=
    hprograms.symm.trans (uniquePrograms_eq hseparates)
  refine ⟨?_, hunique⟩
  have hall := @accounted_lowerAll call (call.specializationAnchor solutions) solutions []
    hdistinct (by simp)
  rw [← hrejections]
  refine hall.imp fun solution outcome hsolution => hsolution.mono fun program hprogram => ?_
  rw [hunique, mem_eraseDups]
  exact hprogram

/-- A cell with one metal polygon, and one occurrence of it. -/
def oneOccurrence : LoweringCall where
  scene :=
    { sceneId := "scene", regionId := "region", primaryViolationId := "v1", targetWitnessId := "w1"
      repairFamily := .alignment, participants := [], relation := .other
      boundaryContributors := [[⟨["g1"], ["o1"]⟩]] }
  sceneDofs := []
  insertionOwnerByLayer := [("M1", "owner")]
  objects :=
    [{ objectId := "o1", sourceAnchorId := none, sourceVariable := none, sourceCell := some "cell"
       layer := "M1", geometryHash := "", bboxDbu := boxAt 0 0 4 4
       geometryDbu := some [⟨0, 0⟩, ⟨4, 0⟩, ⟨4, 4⟩, ⟨0, 4⟩] }]
  physical :=
    [{ geometryId := "g1", sourceObjectId := some "o1", sourceCell := some "cell"
       instanceAnchorId := some "u1", layer := "M1"
       polygonDbu := [⟨0, 0⟩, ⟨4, 0⟩, ⟨4, 4⟩, ⟨0, 4⟩], bboxDbu := boxAt 0 0 4 4 }]
  editableIds := []
  caseId := "case"
  occurrenceTransform := fun _ _ => some .identity
  rectanglePoints := cornersOf
  projectionId := fun _ sourceId _ => sourceId
  programDigest := fun sceneId operations => sceneId ++ toString operations.length
  contentHash := LoweredProgram.programId

/-- A move, an operation that is not lowered, and the same move again. -/
def threeSolutions : List GeometrySolution :=
  [{ solutionId := "s1", operations := [.edit (.move ⟨"o1", 2, 0⟩)] },
    { solutionId := "s2", operations := [.other "ADD_BOUNDED_JOG"] },
    { solutionId := "s3", operations := [.edit (.move ⟨"o1", 2, 0⟩)] }]

theorem solutions_accounted_three :
    (oneOccurrence.buildSolutionSpecializationPrograms threeSolutions []).1.length = 1 ∧
      (oneOccurrence.outcomes threeSolutions).map Option.isSome = [true, false, true] ∧
        List.Forall₂ (Accounted
          (oneOccurrence.buildSolutionSpecializationPrograms threeSolutions []).1
          (oneOccurrence.buildSolutionSpecializationPrograms threeSolutions []).2)
            threeSolutions (oneOccurrence.outcomes threeSolutions) := by
  refine ⟨by decide +kernel, by decide +kernel, ?_⟩
  exact (solutions_accounted oneOccurrence threeSolutions (by decide +kernel) (by decide +kernel)
    _ _ rfl).1

end DRCAgent.EditAuthority
