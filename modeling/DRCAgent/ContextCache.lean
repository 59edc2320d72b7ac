/-
# The cache of semantic contexts

`CurrentSemanticContextBuilder.build` keeps the last two contexts, under a hash of everything
they are built from: the paths and the digests of the files, the configuration, and the other
arguments. The cache is shared by all builders and files change between the builds.

* `Sources`: what a context is built from; `readSources`: the files as they are now.
* `identity`, `identityHash`: what is hashed.
* `build`: one call; `run`: calls and changes of files in any order.

The hash is of the catalog file, but the catalog is loaded when the builder is made. In a run
whose builders have the current catalog, every call returns what it would return without the
cache, and the cache holds the last two identities (`build_not_stale`).
-/
import DRCAgent.JsonReading
import DRCAgent.RecencyCache

namespace DRCAgent

open List

namespace ContextCache

open JsonText (Agree Value WellFormed agree_lookup agree_string)

/-- A dictionary that JSON can write. -/
abbrev JsonDict := { entries : List (String × Value) // WellFormed (.object entries) }

/-- The keyword arguments of `build`. Paths are resolved. -/
structure Arguments where
  snapshotId : String
  caseId : String
  scriptPath : String
  drcPath : String
  connectivityPath : String
  rootScriptPath : Option String
  lineageReceipt : Option JsonDict
  lineageParentSnapshotId : Option String
  lineageRunId : Option String
  requirePhysicalLineage : Bool

/-- `CurrentSemanticContextBuilder`: the catalog is loaded when it is made. -/
structure Builder (Catalog : Type) where
  catalogPath : String
  ruleDeck : String
  requireFrozenRuleDeck : Bool
  config : JsonDict
  catalog : Catalog

/-- What a context is built from: paths with the contents of their files, and the rest. -/
structure Sources (Content Catalog : Type) where
  script : String × Content
  drc : String × Content
  connectivity : String × Content
  rootScript : Option (String × Content)
  snapshotId : String
  caseId : String
  lineageReceipt : Option JsonDict
  lineageParentSnapshotId : Option String
  lineageRunId : Option String
  requirePhysicalLineage : Bool
  deck : String × Content
  requireFrozenRuleDeck : Bool
  config : JsonDict
  catalogFile : Content
  catalog : Catalog

inductive BuildError (Failure : Type)
  /-- `FileNotFoundError`: raised by `file_sha256`. -/
  | fileNotFound (path : String)
  /-- Raised by `_build_uncached`. -/
  | failed (failure : Failure)

section

variable {Content Catalog Context Digest Failure : Type}

/-- The files, by their paths. -/
abbrev Files (Content : Type) := String → Option Content

def readFile (files : Files Content) (path : String) :
    Except (BuildError Failure) (String × Content) :=
  match files path with
  | some content => .ok (path, content)
  | none => .error (.fileNotFound path)

def readOptional (files : Files Content) :
    Option String → Except (BuildError Failure) (Option (String × Content))
  | none => .ok none
  | some path => (readFile files path).map some

/-- The files in the order in which their digests are taken. -/
def readSources (files : Files Content) (builder : Builder Catalog) (arguments : Arguments) :
    Except (BuildError Failure) (Sources Content Catalog) := do
  let script ← readFile files arguments.scriptPath
  let drc ← readFile files arguments.drcPath
  let connectivity ← readFile files arguments.connectivityPath
  let rootScript ← readOptional files arguments.rootScriptPath
  let deck ← readFile files builder.ruleDeck
  let catalogFile ← readFile files builder.catalogPath
  return {
    script, drc, connectivity, rootScript, deck
    snapshotId := arguments.snapshotId
    caseId := arguments.caseId
    lineageReceipt := arguments.lineageReceipt
    lineageParentSnapshotId := arguments.lineageParentSnapshotId
    lineageRunId := arguments.lineageRunId
    requirePhysicalLineage := arguments.requirePhysicalLineage
    requireFrozenRuleDeck := builder.requireFrozenRuleDeck
    config := builder.config
    catalogFile := catalogFile.2
    catalog := builder.catalog }

/-! ## The identity -/

section Identity

variable (fileSha256 : Content → String) (sha256 : List Char → Digest)

/-- A path and the digest of its file. -/
def fileValue (file : String × Content) : Value :=
  .array [.string file.1, .string (fileSha256 file.2)]

def optionalString : Option String → Value
  | none => .null
  | some text => .string text

def optionalDict : Option JsonDict → Value
  | none => .null
  | some dict => .object dict.1

/-- The arguments whose names end with `_path` and that are given. -/
def inputsValue (sources : Sources Content Catalog) : Value :=
  .object ([("script_path", fileValue fileSha256 sources.script),
    ("drc_path", fileValue fileSha256 sources.drc),
    ("connectivity_path", fileValue fileSha256 sources.connectivity)] ++
    match sources.rootScript with
    | some file => [("root_script_path", fileValue fileSha256 file)]
    | none => [])

/-- The other arguments. -/
def argumentsValue (sources : Sources Content Catalog) : Value :=
  .object ([("snapshot_id", .string sources.snapshotId), ("case_id", .string sources.caseId),
    ("lineage_receipt", optionalDict sources.lineageReceipt),
    ("lineage_parent_snapshot_id", optionalString sources.lineageParentSnapshotId),
    ("lineage_run_id", optionalString sources.lineageRunId),
    ("require_physical_lineage", .bool sources.requirePhysicalLineage)] ++
    match sources.rootScript with
    | some _ => []
    | none => [("root_script_path", .null)])

/-- What is hashed. -/
def identity (sources : Sources Content Catalog) : Value :=
  .object [("version", .string "phase-four-current-context-v1"),
    ("inputs", inputsValue fileSha256 sources),
    ("deck", fileValue fileSha256 sources.deck),
    ("require_frozen_rule_deck", .bool sources.requireFrozenRuleDeck),
    ("catalog", .string (fileSha256 sources.catalogFile)),
    ("config", .object sources.config.1),
    ("arguments", argumentsValue sources)]

/-- The hash of the identity. -/
def identityHash (sources : Sources Content Catalog) : Digest :=
  sha256 (JsonText.text (identity fileSha256 sources))

end Identity

/-! ## One identity, one source -/

/-- The same sources, with dictionaries in any order. -/
structure SameSources (sources other : Sources Content Catalog) : Prop where
  script : sources.script = other.script
  drc : sources.drc = other.drc
  connectivity : sources.connectivity = other.connectivity
  rootScript : sources.rootScript = other.rootScript
  snapshotId : sources.snapshotId = other.snapshotId
  caseId : sources.caseId = other.caseId
  lineageReceipt : Agree (optionalDict sources.lineageReceipt)
    (optionalDict other.lineageReceipt)
  lineageParentSnapshotId : sources.lineageParentSnapshotId = other.lineageParentSnapshotId
  lineageRunId : sources.lineageRunId = other.lineageRunId
  requirePhysicalLineage : sources.requirePhysicalLineage = other.requirePhysicalLineage
  deck : sources.deck = other.deck
  requireFrozenRuleDeck : sources.requireFrozenRuleDeck = other.requireFrozenRuleDeck
  config : Agree (.object sources.config.1) (.object other.config.1)
  catalogFile : sources.catalogFile = other.catalogFile
  catalog : sources.catalog = other.catalog

theorem agree_optionalString {text text' : Option String}
    (h : Agree (optionalString text) (optionalString text')) : text = text' := by
  cases text <;> cases text' <;> cases h <;> rfl

theorem agree_fileValue {fileSha256 : Content → String}
    (hsha : Function.Injective fileSha256) {file file' : String × Content}
    (h : Agree (fileValue fileSha256 file) (fileValue fileSha256 file')) :
    file = file' := by
  cases h with
  | array h =>
    obtain ⟨hpath, hrest⟩ := forall₂_cons.1 h
    obtain ⟨hdigest, -⟩ := forall₂_cons.1 hrest
    exact Prod.ext (agree_string hpath) (hsha (agree_string hdigest))

theorem wellFormed_fileValue (fileSha256 : Content → String) (file : String × Content) :
    WellFormed (fileValue fileSha256 file) := by
  refine .array fun item hitem => ?_
  simp only [mem_cons, not_mem_nil, or_false] at hitem
  obtain rfl | rfl := hitem <;> exact .string _

theorem wellFormed_optionalString (text : Option String) :
    WellFormed (optionalString text) := by
  cases text with
  | none => exact .null
  | some text => exact .string text

theorem wellFormed_optionalDict (dict : Option JsonDict) :
    WellFormed (optionalDict dict) := by
  cases dict with
  | none => exact .null
  | some dict => exact dict.2

theorem wellFormed_inputsValue (fileSha256 : Content → String)
    (sources : Sources Content Catalog) :
    WellFormed (inputsValue fileSha256 sources) := by
  rw [inputsValue]
  cases sources.rootScript with
  | none =>
    refine .object (by simp) fun entry hentry => ?_
    simp only [append_nil, mem_cons, not_mem_nil, or_false] at hentry
    obtain rfl | rfl | rfl := hentry <;> exact wellFormed_fileValue fileSha256 _
  | some file =>
    refine .object (by simp) fun entry hentry => ?_
    simp only [cons_append, nil_append, mem_cons, not_mem_nil, or_false] at hentry
    obtain rfl | rfl | rfl | rfl := hentry <;> exact wellFormed_fileValue fileSha256 _

theorem wellFormed_argumentsValue (sources : Sources Content Catalog) :
    WellFormed (argumentsValue sources) := by
  rw [argumentsValue]
  cases sources.rootScript with
  | none =>
    refine .object (by simp) fun entry hentry => ?_
    simp only [cons_append, nil_append, mem_cons, not_mem_nil, or_false] at hentry
    obtain rfl | rfl | rfl | rfl | rfl | rfl | rfl := hentry
    · exact .string _
    · exact .string _
    · exact wellFormed_optionalDict _
    · exact wellFormed_optionalString _
    · exact wellFormed_optionalString _
    · exact .bool _
    · exact .null
  | some file =>
    refine .object (by simp) fun entry hentry => ?_
    simp only [append_nil, mem_cons, not_mem_nil, or_false] at hentry
    obtain rfl | rfl | rfl | rfl | rfl | rfl := hentry
    · exact .string _
    · exact .string _
    · exact wellFormed_optionalDict _
    · exact wellFormed_optionalString _
    · exact wellFormed_optionalString _
    · exact .bool _

theorem wellFormed_identity (fileSha256 : Content → String)
    (sources : Sources Content Catalog) :
    WellFormed (identity fileSha256 sources) := by
  refine .object (by simp) fun entry hentry => ?_
  simp only [mem_cons, not_mem_nil, or_false] at hentry
  obtain rfl | rfl | rfl | rfl | rfl | rfl | rfl := hentry
  · exact .string _
  · exact wellFormed_inputsValue fileSha256 sources
  · exact wellFormed_fileValue fileSha256 _
  · exact .bool _
  · exact .string _
  · exact sources.config.2
  · exact wellFormed_argumentsValue sources

/-- The files of agreeing inputs. -/
theorem files_of_agree {fileSha256 : Content → String} (hsha : Function.Injective fileSha256)
    {sources other : Sources Content Catalog}
    (h : Agree (inputsValue fileSha256 sources) (inputsValue fileSha256 other)) :
    sources.script = other.script ∧ sources.drc = other.drc ∧
      sources.connectivity = other.connectivity ∧ sources.rootScript = other.rootScript := by
  refine ⟨agree_fileValue hsha (agree_lookup h "script_path" rfl rfl),
    agree_fileValue hsha (agree_lookup h "drc_path" rfl rfl),
    agree_fileValue hsha (agree_lookup h "connectivity_path" rfl rfl), ?_⟩
  rw [inputsValue, inputsValue] at h
  cases hroot : sources.rootScript with
  | none =>
    cases hroot' : other.rootScript with
    | none => rfl
    | some file =>
      rw [hroot, hroot'] at h
      cases h with
      | object hnone _ => cases (hnone "root_script_path").1 rfl
  | some file =>
    cases hroot' : other.rootScript with
    | none =>
      rw [hroot, hroot'] at h
      cases h with
      | object hnone _ => cases (hnone "root_script_path").2 rfl
    | some file' =>
      rw [hroot, hroot'] at h
      rw [agree_fileValue hsha (agree_lookup h "root_script_path" rfl rfl)]

/-- **One identity, one source**: without collisions, what has one hash is built from the same
files, arguments and configuration. -/
theorem sameSources_of_identityHash {fileSha256 : Content → String}
    {sha256 : List Char → Digest} (hsha : Function.Injective fileSha256)
    (hhash : Function.Injective sha256) {sources other : Sources Content Catalog}
    (hcatalog : sources.catalogFile = other.catalogFile → sources.catalog = other.catalog)
    (h : identityHash fileSha256 sha256 sources = identityHash fileSha256 sha256 other) :
    SameSources sources other := by
  have hagree := (JsonText.text_eq_iff (wellFormed_identity fileSha256 sources)
    (wellFormed_identity fileSha256 other)).1 (hhash h)
  have harguments : Agree (argumentsValue sources) (argumentsValue other) :=
    agree_lookup hagree "arguments" rfl rfl
  obtain ⟨hscript, hdrc, hconnectivity, hroot⟩ :=
    files_of_agree hsha (agree_lookup hagree "inputs" rfl rfl)
  have hfile := hsha (agree_string (agree_lookup hagree "catalog" rfl rfl))
  exact {
    script := hscript
    drc := hdrc
    connectivity := hconnectivity
    rootScript := hroot
    snapshotId := agree_string (agree_lookup harguments "snapshot_id" rfl rfl)
    caseId := agree_string (agree_lookup harguments "case_id" rfl rfl)
    lineageReceipt := agree_lookup harguments "lineage_receipt" rfl rfl
    lineageParentSnapshotId :=
      agree_optionalString (agree_lookup harguments "lineage_parent_snapshot_id" rfl rfl)
    lineageRunId := agree_optionalString (agree_lookup harguments "lineage_run_id" rfl rfl)
    requirePhysicalLineage :=
      JsonText.agree_bool (agree_lookup harguments "require_physical_lineage" rfl rfl)
    deck := agree_fileValue hsha (agree_lookup hagree "deck" rfl rfl)
    requireFrozenRuleDeck :=
      JsonText.agree_bool (agree_lookup hagree "require_frozen_rule_deck" rfl rfl)
    config := agree_lookup hagree "config" rfl rfl
    catalogFile := hfile
    catalog := hcatalog hfile }

/-! ## Calls -/

variable (fileSha256 : Content → String) (sha256 : List Char → Digest) [DecidableEq Digest]
  (buildUncached : Sources Content Catalog → Except (BuildError Failure) Context)

/-- `CurrentSemanticContextBuilder.build`: the cache keeps two contexts. -/
def build (files : Files Content) (cache : List (Digest × Context)) (builder : Builder Catalog)
    (arguments : Arguments) :
    Except (BuildError Failure) Context × List (Digest × Context) :=
  match readSources files builder arguments with
  | .error error => (.error error, cache)
  | .ok sources =>
    RecencyCache.use 2 (identityHash fileSha256 sha256 sources) (buildUncached sources) cache

/-- What happens: a file changes, or a builder is called. -/
inductive Event (Content Catalog : Type)
  | write (path : String) (content : Option Content)
  | build (builder : Builder Catalog) (arguments : Arguments)

/-- The results of the calls, and the cache after them. -/
def run : Files Content → List (Digest × Context) → List (Event Content Catalog) →
    List (Except (BuildError Failure) Context) × List (Digest × Context)
  | _, cache, [] => ([], cache)
  | files, cache, .write path content :: rest =>
    run (Function.update files path content) cache rest
  | files, cache, .build builder arguments :: rest =>
    let (result, cache) :=
      build fileSha256 sha256 buildUncached files cache builder arguments
    let (results, cache) := run files cache rest
    (result :: results, cache)

/-- The results without a cache. -/
def plainRun : Files Content → List (Event Content Catalog) →
    List (Except (BuildError Failure) Context)
  | _, [] => []
  | files, .write path content :: rest => plainRun (Function.update files path content) rest
  | files, .build builder arguments :: rest =>
    (readSources files builder arguments >>= buildUncached) :: plainRun files rest

/-! ## Runs -/

/-- The sources of the calls that find their files. -/
def callSources (Failure : Type) :
    Files Content → List (Event Content Catalog) → List (Sources Content Catalog)
  | _, [] => []
  | files, .write path content :: rest =>
    callSources Failure (Function.update files path content) rest
  | files, .build builder arguments :: rest =>
    match (readSources files builder arguments :
      Except (BuildError Failure) (Sources Content Catalog)) with
    | .error _ => callSources Failure files rest
    | .ok sources => sources :: callSources Failure files rest

/-- The catalog is the one of the catalog file. -/
def CatalogCurrent (loadCatalog : Content → Catalog) (sources : Sources Content Catalog) : Prop :=
  sources.catalog = loadCatalog sources.catalogFile

/-- The cache after a run. -/
theorem run_cache (events : List (Event Content Catalog)) :
    ∀ (files : Files Content) (cache : List (Digest × Context)),
      (run fileSha256 sha256 buildUncached files cache events).2 =
        (RecencyCache.uses 2 (identityHash fileSha256 sha256) buildUncached cache
          (callSources Failure files events)).2 := by
  induction events with
  | nil => exact fun _ _ => rfl
  | cons event rest ih =>
    intro files cache
    cases event with
    | write path content => exact ih _ _
    | build builder arguments =>
      rw [run, callSources, build]
      cases readSources files builder arguments with
      | error error => exact ih _ _
      | ok sources => exact ih _ _

variable {fileSha256 sha256 buildUncached} in
/-- The results of a run. -/
theorem run_results {kind : Sources Content Catalog → Prop}
    (hkey : ∀ sources other, kind sources → kind other →
      identityHash fileSha256 sha256 sources = identityHash fileSha256 sha256 other →
      buildUncached sources = buildUncached other)
    (events : List (Event Content Catalog)) :
    ∀ (files : Files Content) {cache : List (Digest × Context)},
      RecencyCache.Sound (identityHash fileSha256 sha256) buildUncached kind cache →
      (∀ sources ∈ callSources Failure files events, kind sources) →
      (run fileSha256 sha256 buildUncached files cache events).1 =
        plainRun buildUncached files events := by
  induction events with
  | nil => exact fun _ _ _ _ => rfl
  | cons event rest ih =>
    intro files cache hsound hkind
    cases event with
    | write path content => exact ih _ hsound hkind
    | build builder arguments =>
      rw [callSources] at hkind
      rw [run, plainRun, build]
      cases hread : readSources files builder arguments with
      | error error =>
        rw [hread] at hkind
        exact congrArg (Except.error error :: ·) (ih _ hsound hkind)
      | ok sources =>
        rw [hread] at hkind
        obtain ⟨hresult, hnext⟩ :=
          RecencyCache.use_spec 2 hkey hsound (hkind sources mem_cons_self)
        have hrest := ih files hnext
          fun other hother => hkind other (mem_cons_of_mem _ hother)
        simp only
        rw [hresult, hrest]
        rfl

/-- **The cache is never stale.**  Files change and builders are called in any order. If the
builders have the catalog that their file has, every call returns what building the context
from the current files returns, and the cache holds the last two identities that were built. -/
theorem build_not_stale (loadCatalog : Content → Catalog)
    (hsha : Function.Injective fileSha256) (hhash : Function.Injective sha256)
    (hdicts : ∀ sources other, SameSources sources other →
      buildUncached sources = buildUncached other)
    (files : Files Content) (events : List (Event Content Catalog))
    (hcurrent : ∀ sources ∈ callSources Failure files events, CatalogCurrent loadCatalog sources) :
    let ended := run fileSha256 sha256 buildUncached files [] events
    ended.1 = plainRun buildUncached files events ∧
      RecencyCache.latestKeys ended.2 =
        (RecencyCache.recency (RecencyCache.computedKeys (identityHash fileSha256 sha256)
          buildUncached (callSources Failure files events) [])).take 2 ∧
      ended.2.length ≤ 2 := by
  have hkey : ∀ sources other : Sources Content Catalog, CatalogCurrent loadCatalog sources →
      CatalogCurrent loadCatalog other →
      identityHash fileSha256 sha256 sources = identityHash fileSha256 sha256 other →
      buildUncached sources = buildUncached other := by
    intro sources other hsources hother hsame
    refine hdicts _ _ (sameSources_of_identityHash hsha hhash (fun hfile => ?_) hsame)
    rw [hsources, hother, hfile]
  have hempty : RecencyCache.Sound (identityHash fileSha256 sha256) buildUncached
      (CatalogCurrent loadCatalog) ([] : List (Digest × Context)) :=
    fun _ hentry => by cases hentry
  have hkeys : RecencyCache.latestKeys (RecencyCache.uses 2 (identityHash fileSha256 sha256)
      buildUncached [] (callSources Failure files events)).2 =
      (RecencyCache.recency (RecencyCache.computedKeys (identityHash fileSha256 sha256)
        buildUncached (callSources Failure files events) [])).take 2 :=
    RecencyCache.uses_keys 1 hkey (callSources Failure files events) hempty hcurrent rfl
  have hended := run_cache fileSha256 sha256 buildUncached events files []
  refine ⟨run_results hkey events files hempty hcurrent, ?_, ?_⟩
  · rw [hended, hkeys]
  · have hlength := congrArg List.length hkeys
    rw [RecencyCache.latestKeys, length_reverse, length_map, length_take, ← hended] at hlength
    omega

end

/-! ## A run -/

def sampleFiles : Files String := fun path =>
  [("case.tcl", "cell"), ("case.drc", "[]"), ("case.net", "nets"), ("deck.drc", "deck"),
    ("catalog.yaml", "rules")].lookup path

def sampleBuilder : Builder String where
  catalogPath := "catalog.yaml"
  ruleDeck := "deck.drc"
  requireFrozenRuleDeck := true
  config := ⟨[], .object nodup_nil fun _ h => by cases h⟩
  catalog := "rules"

def sampleArguments (snapshotId : String) : Arguments where
  snapshotId := snapshotId
  caseId := "case"
  scriptPath := "case.tcl"
  drcPath := "case.drc"
  connectivityPath := "case.net"
  rootScriptPath := none
  lineageReceipt := none
  lineageParentSnapshotId := none
  lineageRunId := none
  requirePhysicalLineage := false

/-- A context is what the script holds, under the name of the snapshot. -/
def sampleBuild (sources : Sources String String) : Except (BuildError Unit) String :=
  if sources.script.2 = "" then .error (.failed ())
  else .ok (sources.snapshotId ++ ":" ++ sources.script.2)

def sampleEvents : List (Event String String) :=
  [.build sampleBuilder (sampleArguments "s0"), .write "case.tcl" (some "moved"),
    .build sampleBuilder (sampleArguments "s0"), .write "case.tcl" none,
    .build sampleBuilder (sampleArguments "s0"), .write "case.tcl" (some "cell"),
    .build sampleBuilder (sampleArguments "s0")]

/-- The script changes, goes and comes back under one snapshot. -/
theorem build_not_stale_sample :
    (run id id sampleBuild sampleFiles ([] : List (List Char × String)) sampleEvents).1 =
      [.ok "s0:cell", .ok "s0:moved", .error (.fileNotFound "case.tcl"), .ok "s0:cell"] := by
  have hcurrent : ∀ sources ∈ callSources Unit sampleFiles sampleEvents,
      CatalogCurrent id sources := by
    have hall : (callSources Unit sampleFiles sampleEvents).all
        (fun sources => sources.catalog = sources.catalogFile) = true := rfl
    intro sources hsources
    have heq : sources.catalog = sources.catalogFile :=
      of_decide_eq_true (all_eq_true.1 hall sources hsources)
    exact heq
  have hdicts : ∀ sources other, SameSources sources other →
      sampleBuild sources = sampleBuild other := by
    intro sources other h
    rw [sampleBuild, sampleBuild, h.script, h.snapshotId]
  have hplain := (build_not_stale id id sampleBuild id Function.injective_id
    Function.injective_id hdicts sampleFiles sampleEvents hcurrent).1
  exact hplain.trans rfl

end ContextCache

end DRCAgent
