/-
# Documents in layers

A document is laid over another one: what it says replaces what was said below it, but two
dictionaries under the same key are merged. A document says something at a path where it has a
value there, or a value that is no dictionary on the way there.

Main result:

* `node_layers`: at every path, the merged document has what the last layer says that says
  something there.
-/
import DRCAgent.JsonReading

namespace LayeredDocuments

open JsonText List Option

/-! ## Merging -/

mutual

/-- What stands under a key once a value is laid over what was there. -/
def mergeValue (old : Option Value) : Value → Value
  | .object overlay =>
    match old with
    | some (.object base) => .object (mergeEntries base overlay)
    | _ => .object overlay
  | value => value

/-- The entries of a dictionary with those of another one laid over them. -/
def mergeEntries (base : List (String × Value)) : List (String × Value) → List (String × Value)
  | [] => base
  | (key, value) :: rest =>
    mergeEntries (Dicts.insert key (mergeValue (base.lookup key) value) base) rest

end

/-! ## Paths -/

/-- What a path leads to: a dictionary, or a value that is none. -/
inductive Node
  | dict
  | leaf (value : Value)

def nodeOf : Value → Node
  | .object _ => .dict
  | value => .leaf value

/-- What a path leads to. -/
def node : List String → Value → Option Node
  | [], value => some (nodeOf value)
  | key :: path, .object entries => (entries.lookup key).bind (node path)
  | _ :: _, _ => none

/-- The document says something at the path. -/
def speaks : List String → Value → Bool
  | [], _ => true
  | key :: path, .object entries => (entries.lookup key).any (speaks path)
  | _ :: _, _ => true

/-- No dictionary of the value has a key twice. -/
inductive DistinctKeys : Value → Prop
  | null : DistinctKeys .null
  | bool (value : Bool) : DistinctKeys (.bool value)
  | integer (value : ℤ) : DistinctKeys (.integer value)
  | float (literal : String) : DistinctKeys (.float literal)
  | string (text : String) : DistinctKeys (.string text)
  | array {items : List Value} (h : ∀ item ∈ items, DistinctKeys item) :
      DistinctKeys (.array items)
  | object {entries : List (String × Value)} (hkeys : (entries.map (·.1)).Nodup)
      (h : ∀ entry ∈ entries, DistinctKeys entry.2) : DistinctKeys (.object entries)

/-- Where a document says nothing, it has nothing. -/
theorem node_of_not_speaks {path : List String} {value : Value}
    (h : speaks path value = false) : node path value = none := by
  induction path generalizing value with
  | nil => cases h
  | cons key path ih =>
    cases value with
    | object entries =>
      rw [speaks] at h
      rw [node]
      cases hlookup : entries.lookup key with
      | none => rfl
      | some found =>
        rw [hlookup, any_some] at h
        exact ih h
    | _ => cases h

/-! ## One layer -/

section Merge

variable {base overlay : List (String × Value)}

/-- What stands under a key of the merged dictionary. -/
theorem lookup_mergeEntries (hkeys : (overlay.map (·.1)).Nodup) (key : String) :
    (mergeEntries base overlay).lookup key =
      match overlay.lookup key with
      | some value => some (mergeValue (base.lookup key) value)
      | none => base.lookup key := by
  induction overlay generalizing base with
  | nil => rfl
  | cons entry rest ih =>
    obtain ⟨k, value⟩ := entry
    rw [map_cons, nodup_cons] at hkeys
    rw [mergeEntries, ih hkeys.2, lookup_cons, Dicts.lookup_insert]
    by_cases hkey : key = k
    · subst hkey
      have hrest : rest.lookup key = none := by
        rw [lookup_eq_none_iff]
        intro entry hentry
        rw [bne_iff_ne]
        exact fun heq => hkeys.1 (mem_map.2 ⟨entry, hentry, heq.symm⟩)
      rw [hrest, if_pos rfl, beq_self_eq_true]
    · rw [if_neg hkey, beq_false_of_ne hkey]

/-- A dictionary replaces what is no dictionary. -/
theorem mergeValue_of_ne {old : Option Value} (h : ¬ ∃ base, old = some (.object base)) :
    mergeValue old (.object overlay) = .object overlay := by
  rw [mergeValue]
  exact fun base hbase => h ⟨base, hbase⟩

/-- **One layer.** At every path the upper document counts where it says something. -/
theorem node_mergeValue {value : Value} (h : DistinctKeys value) :
    ∀ (old : Option Value) (path : List String), node path (mergeValue old value) =
      if speaks path value = true then node path value else old.bind (node path) := by
  induction h with
  | @object entries hkeys _ ih =>
    intro old path
    cases path with
    | nil =>
      rw [speaks, if_pos rfl]
      cases old with
      | none => rfl
      | some base =>
        cases base with
        | object base => rfl
        | _ => rfl
    | cons key path =>
      by_cases hbase : ∃ base, old = some (.object base)
      · obtain ⟨base, rfl⟩ := hbase
        rw [mergeValue, node, lookup_mergeEntries hkeys, speaks, node, bind_some, node]
        cases hlookup : entries.lookup key with
        | none => rw [any_none, if_neg Bool.false_ne_true]
        | some found =>
          have hmem := Dicts.mem_of_lookup hlookup
          rw [any_some, bind_some, bind_some]
          exact ih _ hmem _ _
      · have hold : old.bind (node (key :: path)) = none := by
          cases old with
          | none => rfl
          | some value =>
            cases value with
            | object base => exact absurd ⟨base, rfl⟩ hbase
            | _ => rfl
        rw [mergeValue_of_ne hbase, hold]
        split_ifs with hspeaks
        · rfl
        · exact node_of_not_speaks (Bool.eq_false_iff.2 hspeaks)
  | _ =>
    intro old path
    cases path with
    | nil => rfl
    | cons key path => rfl

theorem node_mergeEntries (hover : DistinctKeys (.object overlay)) (path : List String) :
    node path (.object (mergeEntries base overlay)) =
      if speaks path (.object overlay) = true then node path (.object overlay)
      else node path (.object base) :=
  node_mergeValue hover (some (.object base)) path

/-- Merging keeps the keys distinct. -/
theorem distinctKeys_mergeValue {value : Value} (h : DistinctKeys value) :
    ∀ old : Option Value, (∀ base, old = some base → DistinctKeys base) →
      DistinctKeys (mergeValue old value) := by
  induction h with
  | @object entries hkeys hvalues ih =>
    intro old hold
    by_cases hbase : ∃ base, old = some (.object base)
    · obtain ⟨base, rfl⟩ := hbase
      rw [mergeValue]
      have hbase := hold _ rfl
      clear hold hkeys
      induction entries generalizing base with
      | nil => exact hbase
      | cons entry rest ihrest =>
        obtain ⟨key, value⟩ := entry
        obtain ⟨hfirst, hrest⟩ := forall_mem_cons.1 ih
        rw [mergeEntries]
        refine ihrest (forall_mem_cons.1 hvalues).2 hrest _ ?_
        obtain ⟨hbasekeys, hbasevalues⟩ : (base.map (·.1)).Nodup ∧
            ∀ entry ∈ base, DistinctKeys entry.2 := by
          cases hbase with
          | object hkeys h => exact ⟨hkeys, h⟩
        refine .object (Dicts.nodup_keys_insert hbasekeys) fun entry hentry => ?_
        obtain hnew | hold := Dicts.mem_insert hentry
        · rw [hnew]
          refine hfirst _ fun found hfound => ?_
          exact hbasevalues _ (Dicts.mem_of_lookup hfound)
        · exact hbasevalues _ hold
    · rw [mergeValue_of_ne hbase]
      exact .object hkeys hvalues
  | array hitems _ => exact fun _ _ => .array hitems
  | null => exact fun _ _ => .null
  | bool value => exact fun _ _ => .bool value
  | integer value => exact fun _ _ => .integer value
  | float literal => exact fun _ _ => .float literal
  | string text => exact fun _ _ => .string text

end Merge

/-! ## Many layers -/

/-- The document that counts at a path: the last that says something there. -/
def decisive (path : List String) (layers : List (List (String × Value))) :
    Option (List (String × Value)) :=
  layers.reverse.find? fun layer => speaks path (.object layer)

/-- **The layers of a document.** -/
theorem node_layers {base : List (String × Value)} {layers : List (List (String × Value))}
    (h : ∀ layer ∈ layers, DistinctKeys (.object layer)) (path : List String) :
    node path (.object (layers.foldl mergeEntries base)) =
      (decisive path (base :: layers)).bind fun layer => node path (.object layer) := by
  induction layers using reverseRecOn with
  | nil =>
    rw [foldl_nil, decisive, reverse_singleton, find?_cons, find?_nil]
    cases hspeaks : speaks path (.object base) with
    | true => rfl
    | false => exact node_of_not_speaks hspeaks
  | append_singleton layers layer ih =>
    have hlayers : ∀ other ∈ layers, DistinctKeys (.object other) :=
      fun other hother => h other (mem_append_left _ hother)
    have hlayer := h layer (mem_append_right _ (mem_singleton_self layer))
    rw [foldl_append, foldl_cons, foldl_nil, node_mergeEntries hlayer,
      ih hlayers, decisive, decisive, ← cons_append, reverse_append,
      reverse_singleton, singleton_append, find?_cons]
    cases speaks path (.object layer) with
    | true => rfl
    | false => rfl

theorem distinctKeys_layers {base : List (String × Value)}
    {layers : List (List (String × Value))} (hbase : DistinctKeys (.object base))
    (h : ∀ layer ∈ layers, DistinctKeys (.object layer)) :
    DistinctKeys (.object (layers.foldl mergeEntries base)) := by
  induction layers generalizing base with
  | nil => exact hbase
  | cons layer rest ih =>
    obtain ⟨hlayer, hrest⟩ := forall_mem_cons.1 h
    refine ih (distinctKeys_mergeValue hlayer (some (.object base)) ?_) hrest
    rintro found heq
    rw [← some.inj heq]
    exact hbase

end LayeredDocuments
