/-
# Verifying the provenance of a snapshot

`FormalCurrentSemanticAdapter.validate_snapshot_provenance` of
`repair_kernel_integration/current_semantic_adapter.py`: the artifacts of a
snapshot, its immediate-parent edge and the lineage receipt of that edge. Only
the baseline may come without a receipt.

`verify_lineage_receipt` is compiled code; it is a field of `ProvenanceEnv`.
-/
import DRCAgent.Resume

namespace DRCAgent

/-- The three ids a lineage receipt is about. -/
structure LineageReceipt where
  parentSnapshotId : String
  childSnapshotId : String
  runId : String

/-- The files a snapshot refers to, and the functions outside the adapter. -/
structure ProvenanceEnv where
  /-- `file_sha256`, of a path that is a file. -/
  fileSha256 : Path → Option String
  /-- The receipt in a file, through `json.loads`. -/
  readReceipt : Path → Except String LineageReceipt
  /-- Script, receipt, parent script; expected parent, child and run. -/
  verifyLineageReceipt :
    Path → LineageReceipt → Path → String → String → String → Except String Unit
  /-- `CurrentSemanticContextBuilder.build` for a validated snapshot. -/
  buildContext : DesignSnapshotRef → Except String Unit

namespace ProvenanceEnv

variable (env : ProvenanceEnv)

/-- `_require_ref`. -/
def requireRef (ref : Option ArtifactRef) (label : String) : Except String Path :=
  match ref with
  | none => .error ("FORMAL_SNAPSHOT_" ++ label ++ "_MISSING")
  | some ref => do
    require ((env.fileSha256 ref.path).isSome = true) ("FORMAL_SNAPSHOT_" ++ label ++ "_MISSING")
    require (env.fileSha256 ref.path = some ref.sha256)
      ("FORMAL_SNAPSHOT_" ++ label ++ "_SHA_MISMATCH")
    pure ref.path

/-- `expected_parent_snapshot_id` and the parent's script of a snapshot with a
receipt. -/
def parentEdge (current : DesignSnapshotRef) : Except String (String × ArtifactRef) :=
  match current.parentSnapshotId, current.parentScriptRef, current.provenanceRunId with
  | some parent, some script, some _ => do
    require (current.provenanceRelationSource = some "COMPILER_REPARSE_PARENT_CHILD")
      "SNAPSHOT_IMMEDIATE_PARENT_PROVENANCE_INCOMPLETE"
    pure (parent, script)
  | _, _, _ => .error "SNAPSHOT_IMMEDIATE_PARENT_PROVENANCE_INCOMPLETE"

/-- The checks of a snapshot with a receipt. -/
def validateEdge (current : DesignSnapshotRef) (script : Path) (receiptRef : ArtifactRef)
    (runId : String) : Except String Unit := do
  let (parent, parentScriptRef) ← parentEdge current
  require (current.provenanceRunId = some runId) "SNAPSHOT_CROSS_RUN_PROVENANCE"
  let parentScript ← env.requireRef (some parentScriptRef) "PARENT_SCRIPT"
  let receiptPath ← env.requireRef (some receiptRef) "LINEAGE_RECEIPT"
  let receipt ← env.readReceipt receiptPath
  env.verifyLineageReceipt script receipt parentScript parent current.snapshotId runId

/-- `validate_snapshot_provenance`. -/
def validateSnapshotProvenance (current baseline : DesignSnapshotRef) (runId : String) :
    Except String Unit := do
  let script ← env.requireRef (some current.scriptRef) "SCRIPT"
  let _ ← env.requireRef current.drcRef "DRC"
  let _ ← env.requireRef (current.connectivityRef.or baseline.connectivityRef) "CONNECTIVITY"
  match current.lineageReceiptRef with
  | some receiptRef => env.validateEdge current script receiptRef runId
  | none =>
    require (current.snapshotId = baseline.snapshotId)
      "NON_BASELINE_SNAPSHOT_LINEAGE_RECEIPT_MISSING"

/-- `build_snapshot_context`: the provenance, then the semantic context. -/
def buildSnapshotContext (current baseline : DesignSnapshotRef) (runId : String) :
    Except String Unit := do
  env.validateSnapshotProvenance current baseline runId
  env.buildContext current

end ProvenanceEnv

/-! ## What a validated snapshot is -/

/-- The receipt of `child` was verified for the edge from `parent` in `runId`. -/
structure VerifiedEdge (env : ProvenanceEnv) (runId parent : String) (child : DesignSnapshotRef) :
    Prop where
  parent_eq : child.parentSnapshotId = some parent
  run_eq : child.provenanceRunId = some runId
  verified : ∃ receiptRef receipt script parentScript, child.lineageReceiptRef = some receiptRef ∧
    env.readReceipt receiptRef.path = .ok receipt ∧
    env.verifyLineageReceipt script receipt parentScript parent child.snapshotId runId = .ok ⟨⟩

variable {env : ProvenanceEnv} {current baseline : DesignSnapshotRef} {runId : String}

theorem requireRef_eq_ok {ref : ArtifactRef} {label : String} {path : Path}
    (h : env.requireRef (some ref) label = .ok path) : path = ref.path := by
  unfold ProvenanceEnv.requireRef at h
  obtain ⟨_, -, h⟩ := except_bind_ok h
  obtain ⟨_, -, h⟩ := except_bind_ok h
  exact (Except.ok.inj h).symm

/-- A snapshot with a receipt that passes is the verified child of its parent. -/
theorem verifiedEdge_of_validateEdge {script : Path} {receiptRef : ArtifactRef}
    (hreceipt : current.lineageReceiptRef = some receiptRef)
    (h : env.validateEdge current script receiptRef runId = .ok ⟨⟩) :
    ∃ parent, VerifiedEdge env runId parent current := by
  unfold ProvenanceEnv.validateEdge at h
  obtain ⟨⟨parent, parentScriptRef⟩, hparent, h⟩ := except_bind_ok h
  obtain ⟨_, hrun, h⟩ := except_bind_ok h
  obtain ⟨parentScript, -, h⟩ := except_bind_ok h
  obtain ⟨receiptPath, hpath, h⟩ := except_bind_ok h
  obtain ⟨receipt, hread, hverify⟩ := except_bind_ok h
  rw [requireRef_eq_ok hpath] at hread
  rw [require_eq_ok] at hrun
  have hparentId : current.parentSnapshotId = some parent := by
    unfold ProvenanceEnv.parentEdge at hparent
    split at hparent
    · next hid _ _ =>
        obtain ⟨_, -, hparent⟩ := except_bind_ok hparent
        obtain ⟨rfl, -⟩ := Prod.mk.inj (Except.ok.inj hparent)
        exact hid
    · cases hparent
  exact ⟨parent, hparentId, hrun, receiptRef, receipt, script, parentScript, hreceipt, hread,
    hverify⟩

/-- **A validated snapshot** is the baseline, or the verified child of the
snapshot it names as its parent. -/
theorem validateSnapshotProvenance_ok
    (h : env.validateSnapshotProvenance current baseline runId = .ok ⟨⟩) :
    current.snapshotId = baseline.snapshotId ∨ ∃ parent, VerifiedEdge env runId parent current := by
  unfold ProvenanceEnv.validateSnapshotProvenance at h
  obtain ⟨script, -, h⟩ := except_bind_ok h
  obtain ⟨_, -, h⟩ := except_bind_ok h
  obtain ⟨_, -, h⟩ := except_bind_ok h
  split at h
  · next receiptRef hreceipt => exact Or.inr (verifiedEdge_of_validateEdge hreceipt h)
  · exact Or.inl (require_eq_ok.1 h)

theorem validate_of_buildSnapshotContext
    (h : env.buildSnapshotContext current baseline runId = .ok ⟨⟩) :
    env.validateSnapshotProvenance current baseline runId = .ok ⟨⟩ := by
  obtain ⟨_, hvalid, -⟩ := except_bind_ok h
  exact hvalid

/-! ## Sample functions -/

/-- What a file of the sample run holds, by its name. -/
def sampleFileSha256 (name : String) : String :=
  if name = "case.py" then "script_1"
  else if name = "case.drc.json" then "drc_1"
  else if name = "case.lineage.json" then "json"
  else name

/-- The files of the sample run, and the receipt of its one attempt. -/
def sampleProvenanceEnv : ProvenanceEnv where
  fileSha256 := fun path => path.getLast?.map sampleFileSha256
  readReceipt := fun _ => .ok {
    parentSnapshotId := "snapshot_hash_runbaselinescript_0"
    childSnapshotId := "snapshot_transaction_runattempt_aplanattempted"
    runId := "run" }
  verifyLineageReceipt := fun _ receipt _ parent child runId =>
    require (receipt.parentSnapshotId = parent ∧ receipt.childSnapshotId = child ∧
      receipt.runId = runId) "LINEAGE_RECEIPT_MISMATCH"
  buildContext := fun _ => .ok ⟨⟩

end DRCAgent
