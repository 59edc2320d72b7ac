/-
# The evidence of a sandbox run

`SandboxEvidence` (src/drc_agent/schemas/action.py): its fields, the validator before them,
the one for the hashes, and the one after them. The conversion of single values is the
schema library's (`Coercions`); what is assumed of it is that it takes a value of the
type of a field as it is (`Coercions.Lawful`).

What validation returns is in normal form (`Fields.Valid`), and a normal form passes the
validation unchanged, so a dump can be validated again (`evidence_normal_form`).
-/
import DRCAgent.Failures
import DRCAgent.InsertionDict
import DRCAgent.Schemas
import Mathlib.Data.List.Dedup
import Mathlib.Data.String.Basic

namespace DRCAgent.Evidence

open Failures

/-! ## Values -/

/-- The values of an input, and how the schema library converts them; a conversion fails
with `none`. A record is a dictionary with keys of any kind. `str` is Python's. -/
structure Coercions (V Record Time : Type) where
  null : V
  isNone : V → Bool
  text : V → Option String
  ofText : String → V
  int : V → Option ℤ
  ofInt : ℤ → V
  bool : V → Option Bool
  ofBool : Bool → V
  items : V → Option (List V)
  ofItems : List V → V
  dict : V → Option (List (String × V))
  ofDict : List (String × V) → V
  record : V → Option Record
  ofRecord : Record → V
  time : V → Option Time
  ofTime : Time → V
  str : V → String

/-- A value of the type of a field is taken as it is, and only `None` is `None`. -/
structure Coercions.Lawful {V Record Time : Type} (c : Coercions V Record Time) : Prop where
  isNone_null : c.isNone c.null = true
  isNone_ofText (t : String) : c.isNone (c.ofText t) = false
  isNone_ofInt (n : ℤ) : c.isNone (c.ofInt n) = false
  isNone_ofBool (b : Bool) : c.isNone (c.ofBool b) = false
  isNone_ofDict (entries : List (String × V)) : c.isNone (c.ofDict entries) = false
  text_ofText (t : String) : c.text (c.ofText t) = some t
  int_ofInt (n : ℤ) : c.int (c.ofInt n) = some n
  bool_ofBool (b : Bool) : c.bool (c.ofBool b) = some b
  items_ofItems (items : List V) : c.items (c.ofItems items) = some items
  dict_ofDict (entries : List (String × V)) : c.dict (c.ofDict entries) = some entries
  record_ofRecord (record : Record) : c.record (c.ofRecord record) = some record
  time_ofTime (time : Time) : c.time (c.ofTime time) = some time

/-- `ValidationError`: the first field that is rejected, or the message of a validator. -/
inductive ValidationError
  | field (name : String)
  | extra (name : String)
  | value (message : String)

/-! ## Enumerations -/

def SandboxStatus.all : List SandboxStatus :=
  [.notRun, .cleanProgress, .noProgress, .offTargetEffect, .regression, .connectivityFail,
    .executionFail, .timeout]

def SandboxScope.all : List SandboxScope :=
  [.none, .isolatedCandidate, .jointBundle]

def validityValue : EvidenceValidity → String
  | .notEvaluated => "NOT_EVALUATED"
  | .valid => "VALID"
  | .error => "ERROR"

def allValidities : List EvidenceValidity := [.notEvaluated, .valid, .error]

def allTerminalStatuses : List AttemptTerminalStatus := [.evaluated, .executionFailure, .cancelled]

/-! ## Hashes and artifacts -/

def isHexDigit (c : Char) : Bool := "0123456789abcdef".toList.contains c

/-- A normalized hash. -/
def IsSha256 (text : String) : Prop :=
  text.toList.length = 64 ∧ text.toList.all isHexDigit = true

instance (text : String) : Decidable (IsSha256 text) := inferInstanceAs (Decidable (_ ∧ _))

/-- A string that passes the check of a hash, as it is stored. -/
abbrev Sha256 := { text : String // IsSha256 text }

/-- The check of a hash. No character outside ASCII has a hexadecimal digit as its lower
case, so that `lower` here, which keeps such a character, accepts the same texts. -/
def normalizeSha256 (value : String) : Option Sha256 :=
  if h : IsSha256 value.toLower then some ⟨value.toLower, h⟩ else none

structure ArtifactRef (Time : Type) where
  artifactId : String
  path : String
  sha256 : Sha256
  mediaType : String
  schemaName : Option String
  schemaVersion : Option String
  producer : String
  sizeBytes : ℕ
  createdAt : Time

/-! ## The fields -/

/-- The fields about the violations. -/
structure ProgressFields (Record Time : Type) where
  status : SandboxStatus := .notRun
  scope : SandboxScope := .none
  baseSnapshotId : Option String := none
  removedOriginalViolationIds : List String := []
  removedOriginalMarkerFingerprints : List String := []
  targetViolationRemovedIds : List String := []
  newViolationIds : List String := []
  newMarkerFingerprints : List String := []
  removedOriginalCount : Option ℕ := none
  newViolationCount : Option ℕ := none
  connectivityPreserved : Option Bool := none
  verificationRef : Option (ArtifactRef Time) := none
  newViolationRecords : List Record := []

/-- The fields with hashes. -/
structure HashFields where
  attemptedScriptSha256 : Option Sha256 := none
  attemptedGdsSha256 : Option Sha256 := none
  attemptedDrcSha256 : Option Sha256 := none
  baseScriptSha256 : Option Sha256 := none
  physicalEffectFingerprint : Option Sha256 := none
  patchPlanSha256 : Option Sha256 := none
  ruleDeckSha256 : Option Sha256 := none
  evaluatorSha256 : Option Sha256 := none
  connectivityReferenceSha256 : Option Sha256 := none

/-- The fields about the attempt. -/
structure AttemptFields where
  candidateIds : List String := []
  failureCode : Option String := none
  failureMessage : Option String := none
  executionProtocolVersion : String := "legacy-v1"
  attemptId : Option String := none
  logicalEvidenceKey : Option String := none
  terminalStatus : Option AttemptTerminalStatus := none
  drcValidity : EvidenceValidity := .notEvaluated
  sanityValidity : EvidenceValidity := .notEvaluated
  connectivityValidity : EvidenceValidity := .notEvaluated
  freshEvidenceValid : Bool := false

/-- The fields of `SandboxEvidence`. -/
structure Fields (Record Time : Type) extends ProgressFields Record Time, HashFields, AttemptFields

/-! ## The validation of the fields -/

section Validation

variable {V Record Time : Type} (c : Coercions V Record Time)

/-- A field: its default where it is absent. -/
def field {A : Type} (raw : List (String × V)) (name : String) (default : Option A)
    (parse : V → Option A) : Except ValidationError A :=
  match (raw.lookup name).elim default parse with
  | some value => .ok value
  | none => .error (.field name)

/-- A value or `None`. -/
def optional {A : Type} (parse : V → Option A) (value : V) : Option (Option A) :=
  if c.isNone value then some none else (parse value).map some

/-- A list of values. -/
def listOf {A : Type} (parse : V → Option A) (value : V) : Option (List A) :=
  (c.items value).bind fun items => items.mapM parse

/-- A member of an enumeration, by its value. -/
def enumOf {A : Type} (all : List A) (valueOf : A → String) (value : V) : Option A :=
  (c.text value).bind fun text => all.find? fun a => valueOf a = text

/-- `Field(ge=0)` -/
def count (value : V) : Option ℕ :=
  (c.int value).bind fun n => if 0 ≤ n then some n.toNat else none

/-- A hash. -/
def sha256 (value : V) : Option Sha256 := (c.text value).bind normalizeSha256

/-- Whether a field is known; others are forbidden. -/
def forbidExtra (names : List String) (raw : List (String × V)) : Except ValidationError Unit :=
  match raw.find? fun entry => entry.1 ∉ names with
  | some entry => .error (.extra entry.1)
  | none => .ok ()

def artifactNames : List String :=
  ["artifact_id", "path", "sha256", "media_type", "schema_name", "schema_version", "producer",
    "size_bytes", "created_at"]

/-- `ArtifactRef`; `now` is the default of `created_at`. -/
def artifactOfDict (now : Time) (raw : List (String × V)) :
    Except ValidationError (ArtifactRef Time) := do
  forbidExtra artifactNames raw
  let artifactId ← field raw "artifact_id" none c.text
  let path ← field raw "path" none c.text
  let hash ← field raw "sha256" none (sha256 c)
  let mediaType ← field raw "media_type" none c.text
  let schemaName ← field raw "schema_name" (some none) (optional c c.text)
  let schemaVersion ← field raw "schema_version" (some none) (optional c c.text)
  let producer ← field raw "producer" none c.text
  let sizeBytes ← field raw "size_bytes" none (count c)
  let createdAt ← field raw "created_at" (some now) c.time
  return ⟨artifactId, path, hash, mediaType, schemaName, schemaVersion, producer, sizeBytes,
    createdAt⟩

/-- A reference, as a dictionary. -/
def artifact (now : Time) (value : V) : Option (ArtifactRef Time) :=
  (c.dict value).bind fun raw => (artifactOfDict c now raw).toOption

/-- The fields about the violations. -/
def progressFields (now : Time) (raw : List (String × V)) :
    Except ValidationError (ProgressFields Record Time) := do
  let status ← field raw "status" (some .notRun) (enumOf c SandboxStatus.all SandboxStatus.value)
  let scope ← field raw "scope" (some .none) (enumOf c SandboxScope.all SandboxScope.value)
  let baseSnapshotId ← field raw "base_snapshot_id" (some none) (optional c c.text)
  let removedIds ← field raw "removed_original_violation_ids" (some []) (listOf c c.text)
  let removedMarkers ← field raw "removed_original_marker_fingerprints" (some []) (listOf c c.text)
  let targetIds ← field raw "target_violation_removed_ids" (some []) (listOf c c.text)
  let newIds ← field raw "new_violation_ids" (some []) (listOf c c.text)
  let newMarkers ← field raw "new_marker_fingerprints" (some []) (listOf c c.text)
  let removedCount ← field raw "removed_original_count" (some none) (optional c (count c))
  let newCount ← field raw "new_violation_count" (some none) (optional c (count c))
  let preserved ← field raw "connectivity_preserved" (some none) (optional c c.bool)
  let verificationRef ← field raw "verification_ref" (some none) (optional c (artifact c now))
  let records ← field raw "new_violation_records" (some []) (listOf c c.record)
  return ⟨status, scope, baseSnapshotId, removedIds, removedMarkers, targetIds, newIds, newMarkers,
    removedCount, newCount, preserved, verificationRef, records⟩

/-- The fields with hashes. -/
def hashFields (raw : List (String × V)) : Except ValidationError HashFields := do
  let attemptedScript ← field raw "attempted_script_sha256" (some none) (optional c (sha256 c))
  let attemptedGds ← field raw "attempted_gds_sha256" (some none) (optional c (sha256 c))
  let attemptedDrc ← field raw "attempted_drc_sha256" (some none) (optional c (sha256 c))
  let baseScript ← field raw "base_script_sha256" (some none) (optional c (sha256 c))
  let physicalEffect ← field raw "physical_effect_fingerprint" (some none) (optional c (sha256 c))
  let patchPlan ← field raw "patch_plan_sha256" (some none) (optional c (sha256 c))
  let ruleDeck ← field raw "rule_deck_sha256" (some none) (optional c (sha256 c))
  let evaluator ← field raw "evaluator_sha256" (some none) (optional c (sha256 c))
  let connectivity ← field raw "connectivity_reference_sha256" (some none) (optional c (sha256 c))
  return ⟨attemptedScript, attemptedGds, attemptedDrc, baseScript, physicalEffect, patchPlan,
    ruleDeck, evaluator, connectivity⟩

/-- The fields about the attempt. -/
def attemptFields (raw : List (String × V)) : Except ValidationError AttemptFields := do
  let candidateIds ← field raw "candidate_ids" (some []) (listOf c c.text)
  let failureCode ← field raw "failure_code" (some none) (optional c c.text)
  let failureMessage ← field raw "failure_message" (some none) (optional c c.text)
  let protocol ← field raw "execution_protocol_version" (some "legacy-v1") c.text
  let attemptId ← field raw "attempt_id" (some none) (optional c c.text)
  let evidenceKey ← field raw "logical_evidence_key" (some none) (optional c c.text)
  let terminalStatus ← field raw "terminal_status" (some none)
    (optional c (enumOf c allTerminalStatuses AttemptTerminalStatus.value))
  let drcValidity ← field raw "drc_validity" (some .notEvaluated)
    (enumOf c allValidities validityValue)
  let sanityValidity ← field raw "sanity_validity" (some .notEvaluated)
    (enumOf c allValidities validityValue)
  let connectivityValidity ← field raw "connectivity_validity" (some .notEvaluated)
    (enumOf c allValidities validityValue)
  let fresh ← field raw "fresh_evidence_valid" (some false) c.bool
  return ⟨candidateIds, failureCode, failureMessage, protocol, attemptId, evidenceKey,
    terminalStatus, drcValidity, sanityValidity, connectivityValidity, fresh⟩

def fieldNames : List String :=
  ["status", "scope", "base_snapshot_id", "removed_original_violation_ids",
    "removed_original_marker_fingerprints", "target_violation_removed_ids", "new_violation_ids",
    "new_marker_fingerprints", "removed_original_count", "new_violation_count",
    "connectivity_preserved", "verification_ref", "new_violation_records",
    "attempted_script_sha256", "attempted_gds_sha256", "attempted_drc_sha256", "candidate_ids",
    "base_script_sha256", "physical_effect_fingerprint", "patch_plan_sha256", "rule_deck_sha256",
    "evaluator_sha256", "connectivity_reference_sha256", "failure_code", "failure_message",
    "execution_protocol_version", "attempt_id", "logical_evidence_key", "terminal_status",
    "drc_validity", "sanity_validity", "connectivity_validity", "fresh_evidence_valid"]

/-! ## The validators -/

/-- `text.startswith("p3.2")` -/
def isP32 (text : String) : Bool := "p3.2".toList.isPrefixOf text.toList

/-- `raw.setdefault(name, 0)` -/
def setDefaultZero (name : String) (raw : List (String × V)) : List (String × V) :=
  if (raw.lookup name).isSome then raw else raw ++ [(name, c.ofInt 0)]

/-- `preserve_legacy_count_defaults` -/
def preserveLegacyCountDefaults (raw : List (String × V)) : List (String × V) :=
  if isP32 (((raw.lookup "execution_protocol_version").map c.str).getD "legacy-v1") then raw
  else setDefaultZero c "new_violation_count" (setDefaultZero c "removed_original_count" raw)

/-- `len(set(values))` -/
def distinct (values : List String) : ℕ := values.dedup.length

/-- A count is at least the number of the ids that are listed. -/
def raiseCount (ids : List String) (count : Option ℕ) : Option ℕ :=
  if ids = [] then count else some (max (count.getD 0) (distinct ids))

/-- The counts of the evidence, with the ids that are listed. -/
def Fields.raiseCounts (f : Fields Record Time) : Fields Record Time :=
  { f with
    removedOriginalCount := raiseCount f.removedOriginalViolationIds f.removedOriginalCount
    newViolationCount := raiseCount f.newViolationIds f.newViolationCount }

/-- A string that Python counts as true. -/
def isTrue (value : Option String) : Bool := value.any (· ≠ "")

/-- What clean progress needs. -/
def Fields.CleanProgress (f : Fields Record Time) : Prop :=
  f.verificationRef.isSome ∧ isTrue f.baseSnapshotId ∧ 0 < f.removedOriginalCount.getD 0 ∧
    f.newViolationCount = some 0 ∧ f.connectivityPreserved = some true ∧
    f.attemptedScriptSha256.isSome ∧ f.attemptedGdsSha256.isSome ∧ f.attemptedDrcSha256.isSome

instance (f : Fields Record Time) : Decidable f.CleanProgress := inferInstanceAs (Decidable (_ ∧ _))

/-- What it needs of the attempt in the protocol P3.2. -/
def Fields.AttemptOwned (f : Fields Record Time) : Prop :=
  f.drcValidity = .valid ∧ f.sanityValidity = .valid ∧ f.connectivityValidity = .valid ∧
    f.freshEvidenceValid = true ∧ isTrue f.attemptId ∧ isTrue f.logicalEvidenceKey ∧
    f.terminalStatus = some .evaluated

instance (f : Fields Record Time) : Decidable f.AttemptOwned := inferInstanceAs (Decidable (_ ∧ _))

/-- `validate_tool_evidence`, after the counts. -/
def Fields.checkEvidence (f : Fields Record Time) : Except ValidationError (Fields Record Time) :=
  if f.removedOriginalCount.any (· < distinct f.removedOriginalMarkerFingerprints) then
    .error (.value "removed marker identity exceeds official removed count")
  else if f.newViolationCount.any (· < distinct f.newMarkerFingerprints) then
    .error (.value "new marker identity exceeds official new count")
  else if f.status = .cleanProgress ∧ ¬ f.CleanProgress then
    .error (.value "clean sandbox progress requires snapshot-bound tool evidence")
  else if f.status = .cleanProgress ∧ isP32 f.executionProtocolVersion ∧ ¬ f.AttemptOwned then
    .error (.value "P3.2 clean progress requires complete attempt-owned evidence")
  else .ok f

/-- `validate_tool_evidence` -/
def Fields.validateToolEvidence (f : Fields Record Time) :
    Except ValidationError (Fields Record Time) :=
  f.raiseCounts.checkEvidence

/-- `SandboxEvidence.model_validate` of a dictionary. -/
def validate (now : Time) (input : List (String × V)) :
    Except ValidationError (Fields Record Time) := do
  let raw := preserveLegacyCountDefaults c input
  forbidExtra fieldNames raw
  let progress ← progressFields c now raw
  let hashes ← hashFields c raw
  let attempt ← attemptFields c raw
  Fields.validateToolEvidence { progress, hashes, attempt with }

/-! ## The dump -/

/-- A value, or `None`. -/
def ofOptional {A : Type} (of : A → V) (value : Option A) : V := value.elim c.null of

def ofTexts (texts : List String) : V := c.ofItems (texts.map c.ofText)

def ofCount (n : ℕ) : V := c.ofInt n

def ofSha256 (hash : Sha256) : V := c.ofText hash.val

/-- `ArtifactRef.model_dump` -/
def ofArtifact (a : ArtifactRef Time) : V :=
  c.ofDict
    [("artifact_id", c.ofText a.artifactId), ("path", c.ofText a.path),
      ("sha256", ofSha256 c a.sha256), ("media_type", c.ofText a.mediaType),
      ("schema_name", ofOptional c c.ofText a.schemaName),
      ("schema_version", ofOptional c c.ofText a.schemaVersion),
      ("producer", c.ofText a.producer), ("size_bytes", ofCount c a.sizeBytes),
      ("created_at", c.ofTime a.createdAt)]

/-- `SandboxEvidence.model_dump` -/
def dump (f : Fields Record Time) : List (String × V) :=
  [("status", c.ofText f.status.value), ("scope", c.ofText f.scope.value),
    ("base_snapshot_id", ofOptional c c.ofText f.baseSnapshotId),
    ("removed_original_violation_ids", ofTexts c f.removedOriginalViolationIds),
    ("removed_original_marker_fingerprints", ofTexts c f.removedOriginalMarkerFingerprints),
    ("target_violation_removed_ids", ofTexts c f.targetViolationRemovedIds),
    ("new_violation_ids", ofTexts c f.newViolationIds),
    ("new_marker_fingerprints", ofTexts c f.newMarkerFingerprints),
    ("removed_original_count", ofOptional c (ofCount c) f.removedOriginalCount),
    ("new_violation_count", ofOptional c (ofCount c) f.newViolationCount),
    ("connectivity_preserved", ofOptional c c.ofBool f.connectivityPreserved),
    ("verification_ref", ofOptional c (ofArtifact c) f.verificationRef),
    ("new_violation_records", c.ofItems (f.newViolationRecords.map c.ofRecord)),
    ("attempted_script_sha256", ofOptional c (ofSha256 c) f.attemptedScriptSha256),
    ("attempted_gds_sha256", ofOptional c (ofSha256 c) f.attemptedGdsSha256),
    ("attempted_drc_sha256", ofOptional c (ofSha256 c) f.attemptedDrcSha256),
    ("candidate_ids", ofTexts c f.candidateIds),
    ("base_script_sha256", ofOptional c (ofSha256 c) f.baseScriptSha256),
    ("physical_effect_fingerprint", ofOptional c (ofSha256 c) f.physicalEffectFingerprint),
    ("patch_plan_sha256", ofOptional c (ofSha256 c) f.patchPlanSha256),
    ("rule_deck_sha256", ofOptional c (ofSha256 c) f.ruleDeckSha256),
    ("evaluator_sha256", ofOptional c (ofSha256 c) f.evaluatorSha256),
    ("connectivity_reference_sha256", ofOptional c (ofSha256 c) f.connectivityReferenceSha256),
    ("failure_code", ofOptional c c.ofText f.failureCode),
    ("failure_message", ofOptional c c.ofText f.failureMessage),
    ("execution_protocol_version", c.ofText f.executionProtocolVersion),
    ("attempt_id", ofOptional c c.ofText f.attemptId),
    ("logical_evidence_key", ofOptional c c.ofText f.logicalEvidenceKey),
    ("terminal_status", ofOptional c (fun status => c.ofText status.value) f.terminalStatus),
    ("drc_validity", c.ofText (validityValue f.drcValidity)),
    ("sanity_validity", c.ofText (validityValue f.sanityValidity)),
    ("connectivity_validity", c.ofText (validityValue f.connectivityValidity)),
    ("fresh_evidence_valid", c.ofBool f.freshEvidenceValid)]

/-! ## The value of each kind of field survives a dump -/

theorem toLower_of_mem_hexDigits : ∀ ch ∈ "0123456789abcdef".toList, ch.toLower = ch := by
  have hall : ("0123456789abcdef".toList.all fun ch => ch.toLower = ch) = true := by decide
  exact fun ch hch => of_decide_eq_true (List.all_eq_true.1 hall ch hch)

theorem toLower_of_isSha256 {text : String} (h : IsSha256 text) : text.toLower = text := by
  apply String.toList_injective
  have hlower : text.toLower = text.map Char.toLower := rfl
  rw [hlower, String.toList_map]
  have hfix : ∀ ch ∈ text.toList, ch.toLower = ch := by
    intro ch hch
    have hdigit : isHexDigit ch = true := List.all_eq_true.mp h.2 ch hch
    exact toLower_of_mem_hexDigits ch (List.contains_iff_mem.mp hdigit)
  calc text.toList.map Char.toLower = text.toList.map id := List.map_congr_left hfix
    _ = text.toList := List.map_id _

/-- A normalized hash is stored as it is. -/
theorem normalizeSha256_val (hash : Sha256) : normalizeSha256 hash.val = some hash := by
  obtain ⟨text, htext⟩ := hash
  have hlower := toLower_of_isSha256 htext
  simp only [normalizeSha256, hlower, htext, dite_true]

variable {c}

/-- A field that is present with a value of its type. -/
theorem field_of_lookup {A : Type} {raw : List (String × V)} {name : String}
    {default : Option A} {parse : V → Option A} {value : V} {a : A}
    (hlookup : raw.lookup name = some value) (hparse : parse value = some a) :
    field raw name default parse = .ok a := by
  simp only [field, hlookup, Option.elim, hparse]

theorem field_bind {A B : Type} {raw : List (String × V)} {name : String}
    {default : Option A} {parse : V → Option A} {value : V} {a : A}
    {next : A → Except ValidationError B}
    (hlookup : raw.lookup name = some value) (hparse : parse value = some a) :
    (field raw name default parse >>= next) = next a := by
  rw [field_of_lookup hlookup hparse]
  rfl

theorem optional_ofOptional {A : Type} {parse : V → Option A} {of : A → V} (hc : c.Lawful)
    (hsome : ∀ a, c.isNone (of a) = false) (hparse : ∀ a, parse (of a) = some a)
    (value : Option A) : optional c parse (ofOptional c of value) = some value := by
  cases value with
  | none => simp only [ofOptional, Option.elim, optional, hc.isNone_null, if_true]
  | some a => simp [ofOptional, optional, hsome, hparse]

theorem listOf_ofItems {A : Type} {parse : V → Option A} {of : A → V} (hc : c.Lawful)
    (hparse : ∀ a, parse (of a) = some a) (values : List A) :
    listOf c parse (c.ofItems (values.map of)) = some values := by
  simp only [listOf, hc.items_ofItems, Option.bind_some]
  induction values with
  | nil => rfl
  | cons a rest ih => simp [List.mapM_cons, hparse, ih]

theorem listOf_ofTexts (hc : c.Lawful) (texts : List String) :
    listOf c c.text (ofTexts c texts) = some texts :=
  listOf_ofItems hc hc.text_ofText texts

theorem count_ofCount (hc : c.Lawful) (n : ℕ) : count c (ofCount c n) = some n := by
  simp [count, ofCount, hc.int_ofInt]

theorem sha256_ofSha256 (hc : c.Lawful) (hash : Sha256) :
    sha256 c (ofSha256 c hash) = some hash := by
  simp only [sha256, ofSha256, hc.text_ofText, Option.bind_some, normalizeSha256_val]

theorem enumOf_ofText {A : Type} {all : List A} {valueOf : A → String} (hc : c.Lawful)
    (hfind : ∀ a, (all.find? fun b => valueOf b = valueOf a) = some a) (a : A) :
    enumOf c all valueOf (c.ofText (valueOf a)) = some a := by
  simp only [enumOf, hc.text_ofText, Option.bind_some, hfind]

theorem optional_text (hc : c.Lawful) (text : Option String) :
    optional c c.text (ofOptional c c.ofText text) = some text :=
  optional_ofOptional hc hc.isNone_ofText hc.text_ofText text

theorem optional_count (hc : c.Lawful) (n : Option ℕ) :
    optional c (count c) (ofOptional c (ofCount c) n) = some n :=
  optional_ofOptional hc (fun _ => hc.isNone_ofInt _) (count_ofCount hc) n

theorem optional_sha256 (hc : c.Lawful) (hash : Option Sha256) :
    optional c (sha256 c) (ofOptional c (ofSha256 c) hash) = some hash :=
  optional_ofOptional hc (fun _ => hc.isNone_ofText _) (sha256_ofSha256 hc) hash

theorem find_status (a : SandboxStatus) :
    (SandboxStatus.all.find? fun b => b.value = a.value) = some a := by
  cases a <;> rfl

theorem find_scope (a : SandboxScope) :
    (SandboxScope.all.find? fun b => b.value = a.value) = some a := by
  cases a <;> rfl

theorem find_validity (a : EvidenceValidity) :
    (allValidities.find? fun b => validityValue b = validityValue a) = some a := by
  cases a <;> rfl

theorem find_terminalStatus (a : AttemptTerminalStatus) :
    (allTerminalStatuses.find? fun b => b.value = a.value) = some a := by
  cases a <;> rfl

/-! ## A dump has the fields that it is validated for -/

theorem artifact_ofArtifact (hc : c.Lawful) (now : Time) (a : ArtifactRef Time) :
    artifact c now (ofArtifact c a) = some a := by
  rw [artifact, ofArtifact, hc.dict_ofDict, Option.bind_some]
  suffices h : artifactOfDict c now _ = .ok a by rw [h]; rfl
  refine (field_bind rfl (hc.text_ofText _)).trans ?_
  refine (field_bind rfl (hc.text_ofText _)).trans ?_
  refine (field_bind rfl (sha256_ofSha256 hc _)).trans ?_
  refine (field_bind rfl (hc.text_ofText _)).trans ?_
  refine (field_bind rfl (optional_text hc _)).trans ?_
  refine (field_bind rfl (optional_text hc _)).trans ?_
  refine (field_bind rfl (hc.text_ofText _)).trans ?_
  refine (field_bind rfl (count_ofCount hc _)).trans ?_
  refine (field_bind rfl (hc.time_ofTime _)).trans ?_
  rfl

theorem progressFields_dump (hc : c.Lawful) (now : Time) (f : Fields Record Time) :
    progressFields c now (dump c f) = .ok f.toProgressFields := by
  refine (field_bind rfl (enumOf_ofText hc find_status _)).trans ?_
  refine (field_bind rfl (enumOf_ofText hc find_scope _)).trans ?_
  refine (field_bind rfl (optional_text hc _)).trans ?_
  refine (field_bind rfl (listOf_ofTexts hc _)).trans ?_
  refine (field_bind rfl (listOf_ofTexts hc _)).trans ?_
  refine (field_bind rfl (listOf_ofTexts hc _)).trans ?_
  refine (field_bind rfl (listOf_ofTexts hc _)).trans ?_
  refine (field_bind rfl (listOf_ofTexts hc _)).trans ?_
  refine (field_bind rfl (optional_count hc _)).trans ?_
  refine (field_bind rfl (optional_count hc _)).trans ?_
  refine (field_bind rfl (optional_ofOptional hc hc.isNone_ofBool hc.bool_ofBool _)).trans ?_
  refine (field_bind rfl (optional_ofOptional hc (fun _ => hc.isNone_ofDict _)
    (artifact_ofArtifact hc now) _)).trans ?_
  refine (field_bind rfl (listOf_ofItems hc hc.record_ofRecord _)).trans ?_
  rfl

theorem hashFields_dump (hc : c.Lawful) (f : Fields Record Time) :
    hashFields c (dump c f) = .ok f.toHashFields := by
  refine (field_bind rfl (optional_sha256 hc _)).trans ?_
  refine (field_bind rfl (optional_sha256 hc _)).trans ?_
  refine (field_bind rfl (optional_sha256 hc _)).trans ?_
  refine (field_bind rfl (optional_sha256 hc _)).trans ?_
  refine (field_bind rfl (optional_sha256 hc _)).trans ?_
  refine (field_bind rfl (optional_sha256 hc _)).trans ?_
  refine (field_bind rfl (optional_sha256 hc _)).trans ?_
  refine (field_bind rfl (optional_sha256 hc _)).trans ?_
  refine (field_bind rfl (optional_sha256 hc _)).trans ?_
  rfl

theorem attemptFields_dump (hc : c.Lawful) (f : Fields Record Time) :
    attemptFields c (dump c f) = .ok f.toAttemptFields := by
  refine (field_bind rfl (listOf_ofTexts hc _)).trans ?_
  refine (field_bind rfl (optional_text hc _)).trans ?_
  refine (field_bind rfl (optional_text hc _)).trans ?_
  refine (field_bind rfl (hc.text_ofText _)).trans ?_
  refine (field_bind rfl (optional_text hc _)).trans ?_
  refine (field_bind rfl (optional_text hc _)).trans ?_
  refine (field_bind rfl (optional_ofOptional hc (fun _ => hc.isNone_ofText _)
    (enumOf_ofText hc find_terminalStatus) _)).trans ?_
  refine (field_bind rfl (enumOf_ofText hc find_validity _)).trans ?_
  refine (field_bind rfl (enumOf_ofText hc find_validity _)).trans ?_
  refine (field_bind rfl (enumOf_ofText hc find_validity _)).trans ?_
  refine (field_bind rfl (hc.bool_ofBool _)).trans ?_
  rfl

/-- A dump has both counts, `None` or not, so that no default is added. -/
theorem preserveLegacyCountDefaults_dump (f : Fields Record Time) :
    preserveLegacyCountDefaults c (dump c f) = dump c f := by
  have hremoved : setDefaultZero c "removed_original_count" (dump c f) = dump c f := rfl
  have hnew : setDefaultZero c "new_violation_count" (dump c f) = dump c f := rfl
  rw [preserveLegacyCountDefaults, hremoved, hnew, ite_self]

theorem forbidExtra_dump (f : Fields Record Time) : forbidExtra fieldNames (dump c f) = .ok () := by
  have hnames : ((dump c f).map Prod.fst) = fieldNames := rfl
  have hfind : ((dump c f).find? fun entry => entry.1 ∉ fieldNames) = none := by
    rw [List.find?_eq_none]
    intro entry hentry
    have hmem : entry.1 ∈ fieldNames := hnames ▸ List.mem_map_of_mem hentry
    simpa using hmem
  rw [forbidExtra, hfind]

/-- Validating a dump is the last validator on its fields. -/
theorem validate_dump (hc : c.Lawful) (now : Time) (f : Fields Record Time) :
    validate c now (dump c f) = f.validateToolEvidence := by
  rw [validate, preserveLegacyCountDefaults_dump, forbidExtra_dump, progressFields_dump hc,
    hashFields_dump hc, attemptFields_dump hc]
  rfl

/-! ## The normal form -/

/-- What the last validator establishes. -/
structure Fields.Valid (f : Fields Record Time) : Prop where
  removedCount_isSome : f.removedOriginalViolationIds ≠ [] → f.removedOriginalCount.isSome
  removedIds_le : ∀ n, f.removedOriginalCount = some n →
    distinct f.removedOriginalViolationIds ≤ n
  removedMarkers_le : ∀ n, f.removedOriginalCount = some n →
    distinct f.removedOriginalMarkerFingerprints ≤ n
  newCount_isSome : f.newViolationIds ≠ [] → f.newViolationCount.isSome
  newIds_le : ∀ n, f.newViolationCount = some n → distinct f.newViolationIds ≤ n
  newMarkers_le : ∀ n, f.newViolationCount = some n → distinct f.newMarkerFingerprints ≤ n
  clean : f.status = .cleanProgress → f.CleanProgress
  owned : f.status = .cleanProgress → isP32 f.executionProtocolVersion = true → f.AttemptOwned

theorem raiseCount_isSome {ids : List String} {count : Option ℕ} (hids : ids ≠ []) :
    (raiseCount ids count).isSome := by
  simp [raiseCount, hids]

theorem distinct_le_raiseCount {ids : List String} {count : Option ℕ} {n : ℕ}
    (h : raiseCount ids count = some n) : distinct ids ≤ n := by
  by_cases hids : ids = []
  · subst hids
    exact Nat.zero_le n
  · simp only [raiseCount, hids, if_false, Option.some.injEq] at h
    omega

/-- A count that is large enough stays. -/
theorem raiseCount_eq_self {ids : List String} {count : Option ℕ}
    (hsome : ids ≠ [] → count.isSome) (hle : ∀ n, count = some n → distinct ids ≤ n) :
    raiseCount ids count = count := by
  by_cases hids : ids = []
  · simp [raiseCount, hids]
  · obtain ⟨n, rfl⟩ := Option.isSome_iff_exists.mp (hsome hids)
    have := hle n rfl
    simp [raiseCount, hids, this]

theorem Fields.Valid.raiseCounts_eq {f : Fields Record Time} (h : f.Valid) : f.raiseCounts = f := by
  rw [Fields.raiseCounts, raiseCount_eq_self h.removedCount_isSome h.removedIds_le,
    raiseCount_eq_self h.newCount_isSome h.newIds_le]

theorem any_lt_eq_false {count : Option ℕ} {m : ℕ} :
    count.any (· < m) = false ↔ ∀ n, count = some n → m ≤ n := by
  cases count <;> simp

theorem Fields.checkEvidence_eq_ok_iff {f e : Fields Record Time} :
    f.checkEvidence = .ok e ↔ e = f ∧
      (∀ n, f.removedOriginalCount = some n → distinct f.removedOriginalMarkerFingerprints ≤ n) ∧
      (∀ n, f.newViolationCount = some n → distinct f.newMarkerFingerprints ≤ n) ∧
      (f.status = .cleanProgress → f.CleanProgress) ∧
      (f.status = .cleanProgress → isP32 f.executionProtocolVersion = true → f.AttemptOwned) := by
  rw [← any_lt_eq_false, ← any_lt_eq_false, Fields.checkEvidence]
  split_ifs with hremoved hnew hclean howned
  · simp [hremoved]
  · simp [hnew]
  · simp only [false_iff]
    rintro ⟨-, -, -, h, -⟩
    exact hclean.2 (h hclean.1)
  · simp only [false_iff]
    rintro ⟨-, -, -, -, h⟩
    exact howned.2.2 (h howned.1 howned.2.1)
  · simp only [Except.ok.injEq]
    constructor
    · rintro rfl
      refine ⟨rfl, by simpa using hremoved, by simpa using hnew, ?_, ?_⟩
      · exact fun hstatus => by_contra fun h => hclean ⟨hstatus, h⟩
      · exact fun hstatus hp32 => by_contra fun h => howned ⟨hstatus, hp32, h⟩
    · exact fun h => h.1.symm

/-- Evidence that passes the last validator is valid. -/
theorem Fields.valid_of_validateToolEvidence {f e : Fields Record Time}
    (h : f.validateToolEvidence = .ok e) : e.Valid := by
  obtain ⟨rfl, hremoved, hnew, hclean, howned⟩ := Fields.checkEvidence_eq_ok_iff.mp h
  exact ⟨raiseCount_isSome, fun _ => distinct_le_raiseCount, hremoved, raiseCount_isSome,
    fun _ => distinct_le_raiseCount, hnew, hclean, howned⟩

/-- Valid evidence passes it unchanged. -/
theorem Fields.Valid.validateToolEvidence_eq {f : Fields Record Time} (h : f.Valid) :
    f.validateToolEvidence = .ok f := by
  rw [Fields.validateToolEvidence, h.raiseCounts_eq, Fields.checkEvidence_eq_ok_iff]
  exact ⟨rfl, h.removedMarkers_le, h.newMarkers_le, h.clean, h.owned⟩

theorem valid_of_validate {now : Time} {input : List (String × V)} {e : Fields Record Time}
    (h : validate c now input = .ok e) : e.Valid := by
  obtain ⟨-, -, h⟩ := bind_eq_ok.mp h
  obtain ⟨progress, -, h⟩ := bind_eq_ok.mp h
  obtain ⟨hashes, -, h⟩ := bind_eq_ok.mp h
  obtain ⟨attempt, -, h⟩ := bind_eq_ok.mp h
  exact Fields.valid_of_validateToolEvidence h

theorem eq_nil_of_distinct_le_zero {values : List String} (h : distinct values ≤ 0) :
    values = [] := by
  have hnil : values.dedup = [] := List.length_eq_zero_iff.mp (Nat.le_zero.mp h)
  exact (List.dedup_eq_nil values).mp hnil

/-- Clean progress has no new violation, listed or marked. -/
theorem Fields.Valid.new_eq_nil {f : Fields Record Time} (h : f.Valid)
    (hstatus : f.status = .cleanProgress) :
    f.newViolationIds = [] ∧ f.newMarkerFingerprints = [] := by
  have hzero : f.newViolationCount = some 0 := (h.clean hstatus).2.2.2.1
  exact ⟨eq_nil_of_distinct_le_zero (h.newIds_le 0 hzero),
    eq_nil_of_distinct_le_zero (h.newMarkers_le 0 hzero)⟩

/-- Evidence that validation returns is validated to itself from its dump, at any time; its
counts cover what is listed for them; and clean progress is complete. -/
theorem evidence_normal_form (hc : c.Lawful) {now : Time} {input : List (String × V)}
    {e : Fields Record Time} (hvalid : validate c now input = .ok e) :
    (∀ later, validate c later (dump c e) = .ok e) ∧
      (∀ n, e.removedOriginalCount = some n → distinct e.removedOriginalViolationIds ≤ n ∧
        distinct e.removedOriginalMarkerFingerprints ≤ n) ∧
      (∀ n, e.newViolationCount = some n → distinct e.newViolationIds ≤ n ∧
        distinct e.newMarkerFingerprints ≤ n) ∧
      (e.status = .cleanProgress → e.newViolationIds = [] ∧ e.newMarkerFingerprints = [] ∧
          (∃ n, e.removedOriginalCount = some n ∧ 0 < n) ∧
          e.connectivityPreserved = some true ∧ isTrue e.baseSnapshotId = true ∧
          e.verificationRef.isSome ∧ e.attemptedScriptSha256.isSome ∧
          e.attemptedGdsSha256.isSome ∧ e.attemptedDrcSha256.isSome) := by
  have hform := valid_of_validate hvalid
  refine ⟨fun later => ?_, fun n hn => ⟨hform.removedIds_le n hn, hform.removedMarkers_le n hn⟩,
    fun n hn => ⟨hform.newIds_le n hn, hform.newMarkers_le n hn⟩, fun hstatus => ?_⟩
  · rw [validate_dump hc, hform.validateToolEvidence_eq]
  · obtain ⟨hids, hmarkers⟩ := hform.new_eq_nil hstatus
    obtain ⟨href, hbase, hcount, -, hpreserved, hscript, hgds, hdrc⟩ := hform.clean hstatus
    refine ⟨hids, hmarkers, ?_, hpreserved, hbase, href, hscript, hgds, hdrc⟩
    cases hremoved : e.removedOriginalCount with
    | none => simp [hremoved] at hcount
    | some n => exact ⟨n, rfl, by simpa [hremoved] using hcount⟩

end Validation

/-! ## A record of clean progress -/

/-- Values as they come from JSON, with a point in time as a number. -/
inductive PyValue
  | none
  | bool (b : Bool)
  | int (n : ℤ)
  | text (t : String)
  | list (items : List PyValue)
  | dict (entries : List (String × PyValue))
  | time (seconds : ℕ)

def pyCoercions : Coercions PyValue (List (String × PyValue)) ℕ where
  null := .none
  isNone | .none => true | _ => false
  text | .text t => some t | _ => none
  ofText := .text
  int | .int n => some n | .bool b => some b.toInt | _ => none
  ofInt := .int
  bool | .bool b => some b | _ => none
  ofBool := .bool
  items | .list items => some items | _ => none
  ofItems := .list
  dict | .dict entries => some entries | _ => none
  ofDict := .dict
  record | .dict entries => some entries | _ => none
  ofRecord := .dict
  time | .time seconds => some seconds | _ => none
  ofTime := .time
  str | .text t => t | _ => ""

theorem pyCoercions_lawful : pyCoercions.Lawful where
  isNone_null := rfl
  isNone_ofText _ := rfl
  isNone_ofInt _ := rfl
  isNone_ofBool _ := rfl
  isNone_ofDict _ := rfl
  text_ofText _ := rfl
  int_ofInt _ := rfl
  bool_ofBool _ := rfl
  items_ofItems _ := rfl
  dict_ofDict _ := rfl
  record_ofRecord _ := rfl
  time_ofTime _ := rfl

def sampleHash : Sha256 := ⟨String.ofList (List.replicate 64 'a'), by decide⟩

def sampleRef : ArtifactRef ℕ where
  artifactId := "drc-1"
  path := "/runs/drc.json"
  sha256 := sampleHash
  mediaType := "application/json"
  schemaName := none
  schemaVersion := none
  producer := "sandbox"
  sizeBytes := 2
  createdAt := 0

/-- Clean progress of the legacy protocol, one violation listed twice and not counted. -/
def sampleEvidence : Fields (List (String × PyValue)) ℕ where
  status := .cleanProgress
  baseSnapshotId := some "snapshot-1"
  removedOriginalViolationIds := ["v1", "v1"]
  newViolationCount := some 0
  connectivityPreserved := some true
  verificationRef := some sampleRef
  attemptedScriptSha256 := some sampleHash
  attemptedGdsSha256 := some sampleHash
  attemptedDrcSha256 := some sampleHash

theorem validate_sampleEvidence :
    validate pyCoercions 0 (dump pyCoercions sampleEvidence) =
      .ok { sampleEvidence with removedOriginalCount := some 1 } := by
  rw [validate_dump pyCoercions_lawful]
  rfl

theorem evidence_normal_form_sample :
    validate pyCoercions 5
        (dump pyCoercions { sampleEvidence with removedOriginalCount := some 1 }) =
      .ok { sampleEvidence with removedOriginalCount := some 1 } :=
  (evidence_normal_form pyCoercions_lawful validate_sampleEvidence).1 5

end DRCAgent.Evidence
