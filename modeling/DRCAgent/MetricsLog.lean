/-
# The log of iteration metrics

`IterationMetricsStore` and `persist_iteration_metrics`
(src/drc_agent/observability/metrics.py): each iteration appends the JSON text of its metrics
and a line end to one file; what is read back are the rows of all lines, the last one of each
iteration.

A process can die in a call of `append` after any number of bytes, and another process goes on
with the file as it is.
-/
import DRCAgent.JsonDocuments
import DRCAgent.SortedItems
import DRCAgent.TextLines
import DRCAgent.Utf8Streams

namespace DRCAgent.MetricsLog

open JsonDocuments JsonText TextLines

/-! ## The rows -/

inductive IterationTransactionStatus
  | baseline | commit | rollback | noOp | noProgress
  deriving DecidableEq

def IterationTransactionStatus.text : IterationTransactionStatus → String
  | .baseline => "BASELINE"
  | .commit => "COMMIT"
  | .rollback => "ROLLBACK"
  | .noOp => "NO_OP"
  | .noProgress => "NO_PROGRESS"

structure IterationMetrics where
  iteration : ℤ
  metricsSemanticsVersion : String := "1.0"
  transactionStatus : IterationTransactionStatus
  committedTotalDrv : ℤ
  attemptedTotalDrv : ℤ
  removedOriginalDrv : ℤ := 0
  newDrv : Option ℤ := some 0
  connectivityPreserved : Option Bool
  drcByRule : List (String × ℤ)
  drcByMarkerType : List (String × ℤ)
  drcByRuleAndType : List (String × List (String × ℤ))
  attemptedDrcByRule : Option (List (String × ℤ)) := none
  attemptedDrcByMarkerType : Option (List (String × ℤ)) := none
  attemptedDrcByRuleAndType : Option (List (String × List (String × ℤ))) := none
  regionCount : ℤ := 0
  windowCount : ℤ := 0
  activeSubgraphCount : ℤ := 0
  candidateCount : ℤ := 0
  nonNoopCandidateCount : ℤ := 0
  selectedNonNoopCount : ℤ := 0
  rollbackReason : Option String := none
  llmCalls : ℤ := 0
  inputTokens : ℤ := 0
  outputTokens : ℤ := 0
  cacheReadTokens : ℤ := 0
  reasoningTokens : ℤ := 0
  /-- A finite float, by its literal. -/
  toolRuntimeSeconds : Literal := ⟨['0', '.', '0'], by decide⟩
  rawAgentEdgeCount : ℤ := 0
  prunedAgentEdgeCount : ℤ := 0
  hardComponentCount : ℤ := 0
  largestHardComponentSize : ℤ := 0
  planningViewCount : ℤ := 0
  boundaryDependencyCount : ℤ := 0
  candidateGraphEdgeCount : ℤ := 0
  candidateGraphCompletenessMilli : ℤ := 1000
  unresolvedCandidatePairCount : ℤ := 0
  sandboxTrialCount : ℤ := 0
  sandboxCleanProgressCount : ℤ := 0
  sandboxCacheHitCount : ℤ := 0
  selectedSandboxVerifiedCount : ℤ := 0
  selectedProvenCount : ℤ := 0
  selectedHeuristicCount : ℤ := 0
  transactionBatchCount : ℤ := 0
  deferredBatchCount : ℤ := 0
  attributionQuality : Option String := none
  artifactPaths : List (String × String) := []
  deriving DecidableEq

/-! ## The text of a row -/

theorem plain_integerText (value : ℤ) : (integerText value).all plainChar = true := by
  have hdigits : ∀ n : ℕ, ∀ c ∈ Nat.toDigits 10 n, plainChar c = true := by
    intro n c hc
    have hdigit := Nat.isDigit_of_mem_toDigits (by decide) (by decide) hc
    rw [Char.isDigit, Bool.and_eq_true, decide_eq_true_eq, decide_eq_true_eq] at hdigit
    have hlower : 48 ≤ c.toNat := UInt32.le_iff_toNat_le.1 hdigit.1
    have hupper : c.toNat ≤ 57 := UInt32.le_iff_toNat_le.1 hdigit.2
    have hne : ∀ other : Char, ¬ (48 ≤ other.toNat ∧ other.toNat ≤ 57) → c ≠ other := by
      rintro other hother rfl
      exact hother ⟨hlower, hupper⟩
    simp only [plainChar, Bool.and_eq_true, decide_eq_true_eq, List.mem_cons, not_or,
      List.not_mem_nil, not_false_eq_true, and_true]
    refine ⟨⟨⟨by omega, by omega⟩, hne _ (by decide)⟩, ?_, ?_, ?_, ?_⟩
    all_goals exact hne _ (by decide)
  refine List.all_eq_true.2 fun c hc => ?_
  cases value with
  | ofNat n => exact hdigits n c hc
  | negSucc n =>
    rcases List.mem_cons.1 hc with rfl | hc
    · decide
    · exact hdigits (n + 1) c hc

def integerDoc (value : ℤ) : Doc := .literal ⟨integerText value, plain_integerText value⟩

def nullDoc : Doc := .literal ⟨['n', 'u', 'l', 'l'], by decide⟩

def boolDoc (value : Bool) : Doc :=
  if value then .literal ⟨['t', 'r', 'u', 'e'], by decide⟩
  else .literal ⟨['f', 'a', 'l', 's', 'e'], by decide⟩

def orNullDoc {α : Type} (doc : α → Doc) (value : Option α) : Doc := value.elim nullDoc doc

/-- A `dict` of values. -/
def dictDoc {α : Type} (doc : α → Doc) (entries : List (String × α)) : Doc :=
  .object (entries.map fun entry => (entry.1, doc entry.2))

/-- `dict[str, int]` -/
def countsDoc : List (String × ℤ) → Doc := dictDoc integerDoc

/-- The fields of a row, in their order. -/
def IterationMetrics.fields (m : IterationMetrics) : List (String × Doc) :=
  [("iteration", integerDoc m.iteration),
    ("metrics_semantics_version", .string m.metricsSemanticsVersion),
    ("transaction_status", .string m.transactionStatus.text),
    ("committed_total_drv", integerDoc m.committedTotalDrv),
    ("attempted_total_drv", integerDoc m.attemptedTotalDrv),
    ("removed_original_drv", integerDoc m.removedOriginalDrv),
    ("new_drv", orNullDoc integerDoc m.newDrv),
    ("connectivity_preserved", orNullDoc boolDoc m.connectivityPreserved),
    ("drc_by_rule", countsDoc m.drcByRule),
    ("drc_by_marker_type", countsDoc m.drcByMarkerType),
    ("drc_by_rule_and_type", dictDoc countsDoc m.drcByRuleAndType),
    ("attempted_drc_by_rule", orNullDoc countsDoc m.attemptedDrcByRule),
    ("attempted_drc_by_marker_type", orNullDoc countsDoc m.attemptedDrcByMarkerType),
    ("attempted_drc_by_rule_and_type", orNullDoc (dictDoc countsDoc) m.attemptedDrcByRuleAndType),
    ("region_count", integerDoc m.regionCount),
    ("window_count", integerDoc m.windowCount),
    ("active_subgraph_count", integerDoc m.activeSubgraphCount),
    ("candidate_count", integerDoc m.candidateCount),
    ("non_noop_candidate_count", integerDoc m.nonNoopCandidateCount),
    ("selected_non_noop_count", integerDoc m.selectedNonNoopCount),
    ("rollback_reason", orNullDoc .string m.rollbackReason),
    ("llm_calls", integerDoc m.llmCalls),
    ("input_tokens", integerDoc m.inputTokens),
    ("output_tokens", integerDoc m.outputTokens),
    ("cache_read_tokens", integerDoc m.cacheReadTokens),
    ("reasoning_tokens", integerDoc m.reasoningTokens),
    ("tool_runtime_seconds", .literal m.toolRuntimeSeconds),
    ("raw_agent_edge_count", integerDoc m.rawAgentEdgeCount),
    ("pruned_agent_edge_count", integerDoc m.prunedAgentEdgeCount),
    ("hard_component_count", integerDoc m.hardComponentCount),
    ("largest_hard_component_size", integerDoc m.largestHardComponentSize),
    ("planning_view_count", integerDoc m.planningViewCount),
    ("boundary_dependency_count", integerDoc m.boundaryDependencyCount),
    ("candidate_graph_edge_count", integerDoc m.candidateGraphEdgeCount),
    ("candidate_graph_completeness_milli", integerDoc m.candidateGraphCompletenessMilli),
    ("unresolved_candidate_pair_count", integerDoc m.unresolvedCandidatePairCount),
    ("sandbox_trial_count", integerDoc m.sandboxTrialCount),
    ("sandbox_clean_progress_count", integerDoc m.sandboxCleanProgressCount),
    ("sandbox_cache_hit_count", integerDoc m.sandboxCacheHitCount),
    ("selected_sandbox_verified_count", integerDoc m.selectedSandboxVerifiedCount),
    ("selected_proven_count", integerDoc m.selectedProvenCount),
    ("selected_heuristic_count", integerDoc m.selectedHeuristicCount),
    ("transaction_batch_count", integerDoc m.transactionBatchCount),
    ("deferred_batch_count", integerDoc m.deferredBatchCount),
    ("attribution_quality", orNullDoc .string m.attributionQuality),
    ("artifact_paths", dictDoc .string m.artifactPaths)]

/-- `model_dump_json` -/
def IterationMetrics.dump (m : IterationMetrics) : List Char := write (.object m.fields)

/-! ## The store -/

/-- The bytes that `append` writes for a row. -/
def lineBytes (m : IterationMetrics) : ByteArray := (String.ofList (m.dump ++ ['\n'])).toByteArray

/-- `append`, on the file that there is: the process dies before it opens the file, or after
some of the bytes are written; with all of them written the call is complete. -/
def append (m : IterationMetrics) (written : Option ℕ) (file : Option ByteArray) :
    Option ByteArray :=
  match written with
  | none => file
  | some n => some (file.getD .empty ++ (lineBytes m).extract 0 n)

inductive ReadError
  /-- `UnicodeDecodeError` -/
  | undecodable
  /-- The `ValidationError` of a line. -/
  | invalid (line : List Char)

/-- The line ends that are read are turned into one. -/
def universalNewlines : List Char → List Char
  | '\r' :: '\n' :: rest => '\n' :: universalNewlines rest
  | '\r' :: rest => '\n' :: universalNewlines rest
  | c :: rest => c :: universalNewlines rest
  | [] => []

/-- The characters that end a line for `str.splitlines`. -/
def isLineBreak (c : Char) : Bool :=
  c.toNat ∈ [10, 11, 12, 13, 28, 29, 30, 0x85, 0x2028, 0x2029]

/-- The characters that `str.strip` takes off. -/
def isSpace (c : Char) : Bool :=
  (9 ≤ c.toNat && c.toNat ≤ 13) || (28 ≤ c.toNat && c.toNat ≤ 32) ||
    (0x2000 ≤ c.toNat && c.toNat ≤ 0x200a) ||
    c.toNat ∈ [0x85, 0xa0, 0x1680, 0x2028, 0x2029, 0x202f, 0x205f, 0x3000]

/-- `model_validate_json` of a line. -/
def validated (validate : List Char → Option IterationMetrics) (line : List Char) :
    Except ReadError IterationMetrics :=
  match validate line with
  | some row => .ok row
  | none => .error (.invalid line)

/-- The rows of the lines that are not blank. -/
def rowsOf (validate : List Char → Option IterationMetrics) (text : List Char) :
    Except ReadError (List IterationMetrics) :=
  ((splitLines isLineBreak text).filter fun line => !line.all isSpace).mapM (validated validate)

/-- `by_iteration`, in the order of the iterations. -/
def byIteration (rows : List IterationMetrics) : List IterationMetrics :=
  (Dicts.sortedItems (Dicts.ofList (rows.map fun row => (row.iteration, row)))).map (·.2)

/-- `read`; `validate` stands for what the model accepts, and as which row. -/
def read (validate : List Char → Option IterationMetrics) (file : Option ByteArray) :
    Except ReadError (List IterationMetrics) :=
  match file with
  | none => .ok []
  | some bytes =>
    match Utf8Streams.decode bytes with
    | none => .error .undecodable
    | some text => (rowsOf validate (universalNewlines text)).map byIteration

/-! ## Observability without authority -/

/-- An exception, and whether it is one of those that are handled. -/
structure Raised where
  typeName : String
  message : String
  handled : Bool

/-- `persist_iteration_metrics`: what the append and the writer of the artifact, where there is
one, raise. -/
def persistIterationMetrics (m : IterationMetrics) (written : Option ℕ) (appended : Option Raised)
    (artifact : Option Raised) (required : Bool) (file : Option ByteArray) :
    Option ByteArray × Except Raised (Bool × Option String) :=
  (append m written file,
    match appended.or artifact with
    | none => .ok (true, none)
    | some exc =>
      if exc.handled && !required then .ok (false, some (exc.typeName ++ ": " ++ exc.message))
      else .error exc)

end DRCAgent.MetricsLog
