/-
# Loading a configuration

`_deep_merge` and `load_config` of config/loader.py: a configuration file, overlays in their
order, and the overrides of the command line. What is validated has, at every path, what the
last of them says that says something there (`load_config_layers`).

An empty file says nothing. A document that is no mapping cannot be merged.
-/
import DRCAgent.Failures
import DRCAgent.LayeredDocuments

namespace DRCAgent.ConfigLoader

open JsonText LayeredDocuments List

/-! ## The source -/

section Load

-- `read` opens a file and loads its document, `validate` is `AppConfig.model_validate`
variable {E Config : Type} (notMapping : E) (read : String → Except E Value)
  (validate : Value → Except E Config)

/-- `yaml.safe_load(stream) or {}` -/
def orEmpty : Value → Value
  | .null => .object []
  | .bool false => .object []
  | .integer 0 => .object []
  | .float "0.0" => .object []
  | .float "-0.0" => .object []
  | .string "" => .object []
  | .array [] => .object []
  | value => value

/-- `_deep_merge`, of mappings; `dict` would take a list of pairs as a base too. -/
def deepMerge : Value → Value → Except E Value
  | .object base, .object overlay => .ok (.object (mergeEntries base overlay))
  | _, _ => .error notMapping

/-- The turn of an overlay. -/
def mergeFile (raw : Value) (overlay : String) : Except E Value := do
  let document ← read overlay
  deepMerge notMapping raw (orEmpty document)

/-- The overrides, where there are any. -/
def mergeOverrides (overrides : List (String × Value)) (raw : Value) : Except E Value :=
  if overrides = [] then .ok raw else deepMerge notMapping raw (.object overrides)

/-- `load_config` -/
def loadConfig (path : String) (overlays : List String) (overrides : List (String × Value)) :
    Except E Config := do
  let document ← read path
  let raw ← overlays.foldlM (mergeFile notMapping read) (orEmpty document)
  let raw ← mergeOverrides notMapping overrides raw
  validate raw

end Load

/-! ## The layers -/

section Layers

variable {E Config : Type} {notMapping : E} {read : String → Except E Value}
  {validate : Value → Except E Config}

/-- The file holds the layer, or nothing where the layer is empty. -/
def Holds (read : String → Except E Value) (path : String) (layer : List (String × Value)) :
    Prop :=
  ∃ document, read path = .ok document ∧ orEmpty document = .object layer

theorem distinctKeys_orEmpty {document : Value} (h : DistinctKeys document) :
    DistinctKeys (orEmpty document) := by
  rw [orEmpty.eq_def]
  split
  all_goals first
    | exact h
    | exact .object nodup_nil nofun

theorem distinctKeys_of_holds (hread : ∀ path document, read path = .ok document →
    DistinctKeys document) {path : String} {layer : List (String × Value)}
    (h : Holds read path layer) : DistinctKeys (.object layer) := by
  obtain ⟨document, hdocument, hlayer⟩ := h
  rw [← hlayer]
  exact distinctKeys_orEmpty (hread path document hdocument)

theorem distinctKeys_of_forall₂ (hread : ∀ path document, read path = .ok document →
    DistinctKeys document) {overlays : List String} {layers : List (List (String × Value))}
    (h : List.Forall₂ (Holds read) overlays layers) :
    ∀ layer ∈ layers, DistinctKeys (.object layer) := by
  induction h with
  | nil => exact nofun
  | cons hfirst _ ih => exact forall_mem_cons.2 ⟨distinctKeys_of_holds hread hfirst, ih⟩

/-- A merge that succeeds is one of mappings. -/
theorem deepMerge_eq_ok {base : List (String × Value)} {overlay raw : Value}
    (h : deepMerge notMapping (.object base) overlay = .ok raw) :
    ∃ entries, overlay = .object entries ∧ raw = .object (mergeEntries base entries) := by
  cases overlay with
  | object entries => exact ⟨entries, rfl, (Except.ok.inj h).symm⟩
  | _ => cases h

/-- The loop over the overlays. -/
theorem foldlM_mergeFile {overlays : List String} {base : List (String × Value)} {raw : Value}
    (h : overlays.foldlM (mergeFile notMapping read) (.object base) = .ok raw) :
    ∃ layers, List.Forall₂ (Holds read) overlays layers ∧
      raw = .object (layers.foldl mergeEntries base) := by
  induction overlays generalizing base with
  | nil => exact ⟨[], .nil, (Except.ok.inj h).symm⟩
  | cons overlay rest ih =>
    rw [foldlM_cons] at h
    obtain ⟨next, hnext, h⟩ := Failures.bind_eq_ok.1 h
    obtain ⟨document, hdocument, hmerge⟩ := Failures.bind_eq_ok.1 hnext
    obtain ⟨layer, hlayer, rfl⟩ := deepMerge_eq_ok hmerge
    obtain ⟨layers, hlayers, rfl⟩ := ih h
    exact ⟨layer :: layers, .cons ⟨document, hdocument, hlayer⟩ hlayers, rfl⟩

/-- The overrides are merged last. -/
theorem mergeOverrides_eq_ok {overrides base : List (String × Value)} {raw : Value}
    (h : mergeOverrides notMapping overrides (.object base) = .ok raw) :
    raw = .object (mergeEntries base overrides) := by
  rw [mergeOverrides] at h
  split_ifs at h with hempty
  · rw [hempty, mergeEntries]
    exact (Except.ok.inj h).symm
  · obtain ⟨entries, heq, rfl⟩ := deepMerge_eq_ok h
    cases heq
    rfl

/-- **The layers of a configuration.** Where the file holds a mapping, or nothing, what is
validated has no key twice, and at every path it has what the last of the file, the overlays and
the overrides says that says something there. -/
theorem load_config_layers
    (hread : ∀ path document, read path = .ok document → DistinctKeys document)
    {path : String} {overlays : List String} {overrides base : List (String × Value)}
    (hoverrides : DistinctKeys (.object overrides)) (hbase : Holds read path base)
    {config : Config}
    (h : loadConfig notMapping read validate path overlays overrides = .ok config) :
    ∃ layers raw, List.Forall₂ (Holds read) overlays layers ∧ validate raw = .ok config ∧
      DistinctKeys raw ∧
      ∀ keys, node keys raw = (decisive keys (base :: (layers ++ [overrides]))).bind
        fun layer => node keys (.object layer) := by
  obtain ⟨document, hdocument, hempty⟩ := hbase
  obtain ⟨found, hfound, h⟩ := Failures.bind_eq_ok.1 h
  cases hfound.symm.trans hdocument
  obtain ⟨merged, hmerged, h⟩ := Failures.bind_eq_ok.1 h
  obtain ⟨raw, hraw, hvalid⟩ := Failures.bind_eq_ok.1 h
  rw [hempty] at hmerged
  obtain ⟨layers, hlayers, rfl⟩ := foldlM_mergeFile hmerged
  have hfold : raw = .object ((layers ++ [overrides]).foldl mergeEntries base) := by
    rw [foldl_append]
    exact mergeOverrides_eq_ok hraw
  have hdistinct : ∀ layer ∈ layers ++ [overrides], DistinctKeys (.object layer) := by
    intro layer hlayer
    obtain hmem | hlast := mem_append.1 hlayer
    · exact distinctKeys_of_forall₂ hread hlayers layer hmem
    · rw [mem_singleton.1 hlast]
      exact hoverrides
  refine ⟨layers, raw, hlayers, hvalid, ?_, fun keys => ?_⟩
  · rw [hfold]
    exact distinctKeys_layers (distinctKeys_of_holds hread ⟨document, hdocument, hempty⟩) hdistinct
  · rw [hfold]
    exact node_layers hdistinct keys

/-- A file with a section, and an overlay of one key of the section. -/
def twoFiles (path : String) : Except String Value :=
  if path = "base" then
    .ok (.object [("llm", .object [("enabled", .bool true), ("provider", .string "fake")]),
      ("seed", .integer 1)])
  else .ok (.object [("llm", .object [("provider", .string "openai")])])

theorem distinctKeys_twoFiles (path : String) (document : Value)
    (h : twoFiles path = .ok document) : DistinctKeys document := by
  rw [twoFiles] at h
  split_ifs at h
  · cases h
    refine .object (by decide) (forall_mem_cons.2 ⟨.object (by decide) ?_, ?_⟩)
    · exact forall_mem_cons.2 ⟨.bool true, forall_mem_cons.2 ⟨.string "fake", nofun⟩⟩
    · exact forall_mem_cons.2 ⟨.integer 1, nofun⟩
  · cases h
    refine .object (by decide) (forall_mem_cons.2 ⟨.object (by decide) ?_, nofun⟩)
    exact forall_mem_cons.2 ⟨.string "openai", nofun⟩

theorem load_config_layers_sample : ∃ config,
    loadConfig "no mapping" twoFiles .ok "base" ["overlay"] [("seed", .integer 2)] = .ok config ∧
    node ["llm", "provider"] config = some (.leaf (.string "openai")) ∧
    node ["llm", "enabled"] config = some (.leaf (.bool true)) ∧ DistinctKeys config := by
  obtain ⟨config, h, hprovider, henabled⟩ : ∃ config,
      loadConfig "no mapping" twoFiles .ok "base" ["overlay"] [("seed", .integer 2)] =
        .ok config ∧
      node ["llm", "provider"] config = some (.leaf (.string "openai")) ∧
      node ["llm", "enabled"] config = some (.leaf (.bool true)) := ⟨_, rfl, rfl, rfl⟩
  have hoverrides : DistinctKeys (.object [("seed", .integer 2)]) :=
    .object (by decide) (forall_mem_cons.2 ⟨.integer 2, nofun⟩)
  obtain ⟨-, raw, -, hraw, hdistinct, -⟩ :=
    load_config_layers distinctKeys_twoFiles hoverrides ⟨_, rfl, rfl⟩ h
  cases hraw
  exact ⟨config, h, hprovider, henabled, hdistinct⟩

end Layers

end DRCAgent.ConfigLoader
