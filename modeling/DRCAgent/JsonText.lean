/-
# JSON as it is written

A small library: the values that a JSON writer sees, and what it writes for them with the
keys of every dictionary sorted, without blanks, and with everything but printable ASCII
escaped. The order of the keys does not change the length, which is a sum over the parts
of the value (`length_text`).
-/
import Mathlib

namespace JsonText

open List

/-- The values that are written. A float is its literal. -/
inductive Value
  | null
  | bool (value : Bool)
  | integer (value : ℤ)
  | float (literal : String)
  | string (text : String)
  | array (items : List Value)
  | object (entries : List (String × Value))

/-! ## Strings -/

/-- The characters that have an escape of their own, by their codes. -/
def shortEscapes : List (ℕ × Char) :=
  [(34, Char.ofNat 34), (92, Char.ofNat 92), (8, 'b'), (12, 'f'), (10, 'n'), (13, 'r'), (9, 't')]

/-- An escape by its code, in four hexadecimal digits. -/
def codeEscape (code : ℕ) : List Char :=
  [Char.ofNat 92, 'u', Nat.digitChar (code / 4096), Nat.digitChar (code / 256 % 16),
    Nat.digitChar (code / 16 % 16), Nat.digitChar (code % 16)]

/-- What is written for a character. -/
def escape (c : Char) : List Char :=
  match shortEscapes.lookup c.toNat with
  | some letter => [Char.ofNat 92, letter]
  | none =>
    if 32 ≤ c.toNat ∧ c.toNat ≤ 126 then [c]
    else if c.toNat < 0x10000 then codeEscape c.toNat
    else
      -- outside the basic plane: two surrogates
      codeEscape (0xd800 + (c.toNat - 0x10000) / 0x400) ++
        codeEscape (0xdc00 + (c.toNat - 0x10000) % 0x400)

def escapeSize (c : Char) : ℕ :=
  if (shortEscapes.lookup c.toNat).isSome then 2
  else if 32 ≤ c.toNat ∧ c.toNat ≤ 126 then 1
  else if c.toNat < 0x10000 then 6
  else 12

/-- The length of an escaped character. -/
theorem length_escape (c : Char) : (escape c).length = escapeSize c := by
  rw [escape, escapeSize]
  cases shortEscapes.lookup c.toNat with
  | some letter => rfl
  | none =>
    simp only [Option.isSome_none, Bool.false_eq_true, if_false]
    split_ifs <;> rfl

/-- A string between quotes. -/
def quote (text : String) : List Char :=
  Char.ofNat 34 :: text.toList.flatMap escape ++ [Char.ofNat 34]

def quotedSize (text : String) : ℕ := (text.toList.map escapeSize).sum + 2

/-- The length of a quoted string. -/
theorem length_quote (text : String) : (quote text).length = quotedSize text := by
  have hmap : text.toList.map (fun c => (escape c).length) = text.toList.map escapeSize :=
    map_congr_left fun c _ => length_escape c
  rw [quote, quotedSize, length_append, length_cons, length_flatMap, hmap, length_singleton]

/-! ## Values -/

/-- The decimal digits of an integer. -/
def integerText : ℤ → List Char
  | .ofNat n => Nat.toDigits 10 n
  | .negSucc n => '-' :: Nat.toDigits 10 (n + 1)

/-- Texts between brackets, with commas. -/
def bracket (opening closing : Char) (texts : List (List Char)) : List Char :=
  opening :: [','].intercalate texts ++ [closing]

/-- The size of a list of texts of the given sizes, with brackets and commas. -/
def listSize (sizes : List ℕ) : ℕ := sizes.sum + (sizes.length - 1) + 2

theorem length_intercalate (texts : List (List Char)) :
    ([','].intercalate texts).length = (texts.map List.length).sum + (texts.length - 1) := by
  induction texts with
  | nil => rfl
  | cons first rest ih =>
    cases rest with
    | nil => simp
    | cons second others =>
      rw [intercalate_cons_cons, length_append, length_append, ih]
      simp only [map_cons, sum_cons, length_cons, length_nil]
      omega

/-- The length of an array or an object. -/
theorem length_bracket (opening closing : Char) (texts : List (List Char)) :
    (bracket opening closing texts).length = listSize (texts.map List.length) := by
  rw [bracket, listSize, length_append, length_cons, length_intercalate,
    length_map, length_singleton]

/-- The order of the entries of a dictionary. -/
def keyBelow (a b : String × List Char) : Prop := a.1 ≤ b.1

instance : DecidableRel keyBelow := fun a b => inferInstanceAs (Decidable (a.1 ≤ b.1))

def entryText (entry : String × List Char) : List Char := quote entry.1 ++ ':' :: entry.2

mutual

/-- What is written for a value. -/
def text : Value → List Char
  | .null => "null".toList
  | .bool value => (if value then "true" else "false").toList
  | .integer value => integerText value
  | .float literal => literal.toList
  | .string string => quote string
  | .array items => bracket '[' ']' (itemTexts items)
  | .object entries =>
    bracket (Char.ofNat 123) (Char.ofNat 125)
      (((entryTexts entries).insertionSort keyBelow).map entryText)

def itemTexts : List Value → List (List Char)
  | [] => []
  | item :: rest => text item :: itemTexts rest

def entryTexts : List (String × Value) → List (String × List Char)
  | [] => []
  | (key, value) :: rest => (key, text value) :: entryTexts rest

end

mutual

/-- The number of characters of what is written. -/
def size : Value → ℕ
  | .null => 4
  | .bool value => if value then 4 else 5
  | .integer value => (integerText value).length
  | .float literal => literal.length
  | .string string => quotedSize string
  | .array items => listSize (itemSizes items)
  | .object entries => listSize (entrySizes entries)

def itemSizes : List Value → List ℕ
  | [] => []
  | item :: rest => size item :: itemSizes rest

def entrySizes : List (String × Value) → List ℕ
  | [] => []
  | (key, value) :: rest => (quotedSize key + 1 + size value) :: entrySizes rest

end

theorem length_entryText (entry : String × List Char) :
    (entryText entry).length = quotedSize entry.1 + 1 + entry.2.length := by
  rw [entryText, length_append, length_quote, length_cons]
  omega

mutual

/-- **The length of what is written** is a sum over the parts of the value. -/
theorem length_text : ∀ value : Value, (text value).length = size value
  | .null => rfl
  | .bool true => rfl
  | .bool false => rfl
  | .integer _ => rfl
  | .float _ => rfl
  | .string string => length_quote string
  | .array items => by
      rw [text, size, length_bracket, map_length_itemTexts]
  | .object entries => by
      have hperm : (((entryTexts entries).insertionSort keyBelow).map entryText).map List.length
          |>.Perm (((entryTexts entries).map entryText).map List.length) :=
        ((perm_insertionSort keyBelow _).map _).map _
      rw [text, size, length_bracket, listSize, hperm.sum_eq, hperm.length_eq,
        map_length_entryTexts, listSize]

theorem map_length_itemTexts : ∀ items : List Value,
    (itemTexts items).map List.length = itemSizes items
  | [] => rfl
  | item :: rest => by
      rw [itemTexts, itemSizes, map_cons, length_text item, map_length_itemTexts rest]

theorem map_length_entryTexts : ∀ entries : List (String × Value),
    ((entryTexts entries).map entryText).map List.length = entrySizes entries
  | [] => rfl
  | (key, value) :: rest => by
      rw [entryTexts, entrySizes, map_cons, map_cons, length_entryText,
        length_text value, map_length_entryTexts rest]

end

/-! ## Sizes -/

theorem entrySizes_eq (entries : List (String × Value)) :
    entrySizes entries = entries.map fun entry => quotedSize entry.1 + 1 + size entry.2 := by
  induction entries with
  | nil => rfl
  | cons entry rest ih => rw [entrySizes, ih, map_cons]

/-- What a dictionary with these keys takes without its values. -/
def frameSize (keys : List String) : ℕ :=
  (keys.map fun key => quotedSize key + 1).sum + (keys.length - 1) + 2

/-- The size of a dictionary: its keys, and its values. -/
theorem size_object (entries : List (String × Value)) :
    size (.object entries) =
      frameSize (entries.map (·.1)) + (entries.map fun entry => size entry.2).sum := by
  have hsum : (entries.map fun entry => quotedSize entry.1 + 1 + size entry.2).sum =
      (entries.map fun entry => quotedSize entry.1 + 1).sum +
        (entries.map fun entry => size entry.2).sum := by
    induction entries with
    | nil => rfl
    | cons entry rest ih =>
      simp only [map_cons, sum_cons, ih]
      omega
  rw [size, entrySizes_eq, listSize, hsum, frameSize, length_map, length_map, map_map]
  simp only [Function.comp_def]
  omega

end JsonText
