/-
# The dictionaries of parents

`_UnionFind` of src/drc_agent/regions/builder.py and of src/drc_agent/regions/connectivity.py:
two classes with one constructor, one `find` and one `union`. An id is its own parent at
first; `find` halves the path that it walks, and `union` puts the greater of two roots under
the lesser one. The first class has `groups`; `map_connectivity_components` collects its ids by
their roots itself (`members`).

An id that the dictionary does not have raises `KeyError`, and what was changed before stays
changed. The walk is given one turn more than there are ids.
-/
import DRCAgent.ActiveWindow
import DRCAgent.InsertionDict
import DRCAgent.MethodRuns

namespace DRCAgent.Forests

open Methods

/-- `self.parent` -/
abbrev Parents := List (String × String)

structure KeyError where
  key : String
  deriving DecidableEq

/-- `{item: item for item in ids}` -/
def init (ids : List String) : Parents := Dicts.ofList (ids.map fun item => (item, item))

/-- `self.parent[key]` -/
def parentOf (key : String) : Method KeyError Parents String := do
  match (← get).lookup key with
  | some parent => return parent
  | none => throw ⟨key⟩

/-- `self.parent[item] = target` -/
def setParent (item target : String) : Method KeyError Parents Unit :=
  modify (Dicts.insert item target)

/-- The loop of `find`, for so many turns. -/
def walk : ℕ → String → Method KeyError Parents String
  | 0, _ => running
  | turns + 1, item => do
    let parent ← parentOf item
    if parent = item then
      return item
    let above ← parentOf (← parentOf item)
    setParent item above
    let item ← parentOf item
    walk turns item

def find (item : String) : Method KeyError Parents String := do
  walk ((← get).length + 1) item

def union (left right : String) : Method KeyError Parents Unit := do
  let a ← find left
  let b ← find right
  if a = b then
    return ()
  if b < a then
    setParent a b
  else
    setParent b a

/-- `result.setdefault(self.find(item), []).append(item)` -/
def gather (result : List (String × List String)) (item : String) :
    Method KeyError Parents (List (String × List String)) := do
  let root ← find item
  return Dicts.append root item result

/-- The groups of the first class. -/
def groups : Method KeyError Parents (List (List String)) := do
  let items := ((← get).map (·.1)).insertionSort (· ≤ ·)
  let result ← items.foldlM gather []
  return result.map (·.2)

/-- The groups in `map_connectivity_components`: `members.values()` -/
def members (matchedIds : List String) : Method KeyError Parents (List (List String)) := do
  let result ← (sortedSet matchedIds).foldlM gather []
  return result.map (·.2)

/-! ## Runs -/

/-- A call on the structure. -/
inductive Call
  | find (item : String)
  | union (left right : String)
  | groups
  deriving DecidableEq

def Call.method : Call → Method KeyError Parents Unit
  | .find item => do
    let _ ← Forests.find item
    return ()
  | .union left right => Forests.union left right
  | .groups => do
    let _ ← Forests.groups
    return ()

/-- The dictionary after some calls; what one of them raises does not stop the next one. -/
def runCalls : List Call → Parents → Option Parents
  | [], parents => some parents
  | c :: calls, parents => (invoke c.method parents).bind fun out => runCalls calls out.2

end DRCAgent.Forests
