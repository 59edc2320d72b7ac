/-
# Reading JSON back

A small library: a reader of what `text` writes, and the equality of values up to the order
of their keys.

* `unescape`, `readString`: the characters of a string, one escape at a time.
* `readWord`: what is neither a string nor a container ends before a comma or a bracket.
* `readList`: items with commas between them; `read`: values, with fuel for the depth.

The reader gives the value back with its keys sorted (`loads_text`). So two values have one
text exactly if they agree up to the order of their keys (`text_eq_iff`).
-/
import DRCAgent.JsonText
import DRCAgent.SortedItems

namespace JsonText

open List

universe u v

/-- A property of every value: of its items, and of the values under its keys. -/
@[elab_as_elim]
theorem Value.members_induction {motive : Value → Prop} (null : motive .null)
    (bool : ∀ value, motive (.bool value)) (integer : ∀ value, motive (.integer value))
    (float : ∀ literal, motive (.float literal)) (string : ∀ text, motive (.string text))
    (array : ∀ items, (∀ item ∈ items, motive item) → motive (.array items))
    (object : ∀ entries, (∀ entry ∈ entries, motive entry.2) → motive (.object entries))
    (value : Value) : motive value := by
  refine @Value.rec motive (fun items => ∀ item ∈ items, motive item)
    (fun entries => ∀ entry ∈ entries, motive entry.2) (fun entry => motive entry.2)
    null bool integer float string array object ?_ ?_ ?_ ?_ ?_ value
  · intro item hitem
    cases hitem
  · intro first rest hfirst hrest
    exact forall_mem_cons.2 ⟨hfirst, hrest⟩
  · intro entry hentry
    cases hentry
  · intro first rest hfirst hrest
    exact forall_mem_cons.2 ⟨hfirst, hrest⟩
  · intro key value hvalue
    exact hvalue

/-! ## The keys in order -/

mutual

/-- The value with the entries of every dictionary in the order of their keys. -/
def sortKeys : Value → Value
  | .array items => .array (sortItems items)
  | .object entries => .object (Dicts.sortedItems (sortEntries entries))
  | value => value

def sortItems : List Value → List Value
  | [] => []
  | item :: rest => sortKeys item :: sortItems rest

def sortEntries : List (String × Value) → List (String × Value)
  | [] => []
  | (key, value) :: rest => (key, sortKeys value) :: sortEntries rest

end

theorem sortItems_eq (items : List Value) : sortItems items = items.map sortKeys := by
  induction items with
  | nil => rfl
  | cons item rest ih => rw [sortItems, ih, map_cons]

theorem sortEntries_eq (entries : List (String × Value)) :
    sortEntries entries = entries.map fun entry => (entry.1, sortKeys entry.2) := by
  induction entries with
  | nil => rfl
  | cons entry rest ih => rw [sortEntries, ih, map_cons]

theorem itemTexts_eq (items : List Value) : itemTexts items = items.map text := by
  induction items with
  | nil => rfl
  | cons item rest ih => rw [itemTexts, ih, map_cons]

theorem entryTexts_eq (entries : List (String × Value)) :
    entryTexts entries = entries.map fun entry => (entry.1, text entry.2) := by
  induction entries with
  | nil => rfl
  | cons entry rest ih => rw [entryTexts, ih, map_cons]

theorem text_array (items : List Value) :
    text (.array items) = bracket '[' ']' (items.map text) := by
  rw [text, itemTexts_eq]

/-- The entries of a dictionary are written in the order of their keys. -/
theorem text_object (entries : List (String × Value)) :
    text (.object entries) = bracket (Char.ofNat 123) (Char.ofNat 125)
      ((Dicts.sortedItems entries).map fun entry => entryText (entry.1, text entry.2)) := by
  have hsort : (entryTexts entries).insertionSort keyBelow =
      (Dicts.sortedItems entries).map fun entry => (entry.1, text entry.2) := by
    rw [entryTexts_eq]
    exact Dicts.sortedItems_map_value text entries
  rw [text, hsort, map_map]
  rfl

theorem sortKeys_array (items : List Value) :
    sortKeys (.array items) = .array (items.map sortKeys) := by
  rw [sortKeys, sortItems_eq]

theorem sortKeys_object (entries : List (String × Value)) :
    sortKeys (.object entries) =
      .object ((Dicts.sortedItems entries).map fun entry => (entry.1, sortKeys entry.2)) := by
  rw [sortKeys, sortEntries_eq, Dicts.sortedItems_map_value]

/-! ## Strings -/

/-- The value of a hexadecimal digit. -/
def hexValue (c : Char) : ℕ := if c.toNat < 97 then c.toNat - 48 else c.toNat - 87

theorem hexValue_digitChar {d : ℕ} (h : d < 16) : hexValue (Nat.digitChar d) = d := by
  interval_cases d <;> rfl

/-- An escape by its code, and what stands after it. -/
def readCode : List Char → Option (ℕ × List Char)
  | first :: second :: a :: b :: c :: d :: rest =>
    if first.toNat = 92 ∧ second = 'u' then
      some (((hexValue a * 16 + hexValue b) * 16 + hexValue c) * 16 + hexValue d, rest)
    else none
  | _ => none

theorem readCode_codeEscape {code : ℕ} (h : code < 0x10000) (rest : List Char) :
    readCode (codeEscape code ++ rest) = some (code, rest) := by
  have hfirst : code / 4096 < 16 := by omega
  have hmod : ∀ n : ℕ, n % 16 < 16 := fun n => Nat.mod_lt n (by decide)
  simp only [codeEscape, cons_append, nil_append, readCode,
    hexValue_digitChar hfirst, hexValue_digitChar (hmod _)]
  rw [if_pos ⟨rfl, trivial⟩]
  have hcode : ((code / 4096 * 16 + code / 256 % 16) * 16 + code / 16 % 16) * 16 + code % 16 =
      code := by omega
  rw [hcode]

/-- One character of a string, and what stands after it. -/
def unescape : List Char → Option (Char × List Char)
  | [] => none
  | first :: rest =>
    if first.toNat = 92 then
      if rest.head? = some 'u' then
        match readCode (first :: rest) with
        | none => none
        | some (code, rest) =>
          if 0xd800 ≤ code ∧ code < 0xdc00 then
            -- a character in two halves
            (readCode rest).map fun (second, rest) =>
              (Char.ofNat (0x10000 + (code - 0xd800) * 0x400 + (second - 0xdc00)), rest)
          else some (Char.ofNat code, rest)
      else
        match rest with
        | [] => none
        | letter :: rest =>
          (shortEscapes.find? fun entry => entry.2 = letter).map fun entry =>
            (Char.ofNat entry.1, rest)
    else some (first, rest)

/-- The character whose code has a letter. -/
theorem unescape_letter {c letter : Char} (h : (c.toNat, letter) ∈ shortEscapes)
    (rest : List Char) : unescape (Char.ofNat 92 :: letter :: rest) = some (c, rest) := by
  have hc : c = Char.ofNat c.toNat := (Char.ofNat_toNat c).symm
  rw [hc]
  simp only [shortEscapes, mem_cons, Prod.mk.injEq, not_mem_nil, or_false] at h
  obtain ⟨hcode, rfl⟩ | ⟨hcode, rfl⟩ | ⟨hcode, rfl⟩ | ⟨hcode, rfl⟩ | ⟨hcode, rfl⟩ | ⟨hcode, rfl⟩ |
    ⟨hcode, rfl⟩ := h <;> rw [hcode] <;> rfl

/-- The code of a character is no half of another. -/
theorem not_half (c : Char) : ¬(0xd800 ≤ c.toNat ∧ c.toNat < 0xdc00) := by
  rintro ⟨hlow, hhigh⟩
  obtain hvalid | hvalid := c.valid
  · exact absurd hvalid (by change ¬c.toNat < _; omega)
  · exact absurd hvalid.1 (by change ¬_ < c.toNat; omega)

theorem unescape_codeEscape {code : ℕ} (h : code < 0x10000) (rest : List Char) :
    unescape (codeEscape code ++ rest) =
      if 0xd800 ≤ code ∧ code < 0xdc00 then
        (readCode rest).map fun (second, rest) =>
          (Char.ofNat (0x10000 + (code - 0xd800) * 0x400 + (second - 0xdc00)), rest)
      else some (Char.ofNat code, rest) := by
  have hread := readCode_codeEscape h rest
  simp only [codeEscape, cons_append, nil_append] at hread ⊢
  have hslash : (Char.ofNat 92).toNat = 92 := rfl
  simp only [unescape, hslash, head?_cons, if_true, hread]

/-- **An escape is read back** as its character. -/
theorem unescape_escape (c : Char) (rest : List Char) :
    unescape (escape c ++ rest) = some (c, rest) := by
  rw [escape]
  cases hlookup : shortEscapes.lookup c.toNat with
  | some letter => exact unescape_letter (Dicts.mem_of_lookup hlookup) rest
  | none =>
    simp only
    by_cases hplain : 32 ≤ c.toNat ∧ c.toNat ≤ 126
    · have hslash : c.toNat ≠ 92 := by
        intro hcode
        rw [hcode] at hlookup
        cases hlookup
      rw [if_pos hplain]
      simp only [singleton_append, unescape, hslash, if_false]
    rw [if_neg hplain]
    by_cases hbasic : c.toNat < 0x10000
    · rw [if_pos hbasic, unescape_codeEscape hbasic, if_neg (not_half c), Char.ofNat_toNat]
    · have hmax : c.toNat < 0x110000 := by
        obtain hvalid | hvalid := c.valid
        · exact lt_trans hvalid (by decide)
        · exact hvalid.2
      rw [if_neg hbasic, append_assoc, unescape_codeEscape (by omega),
        if_pos (by omega), readCode_codeEscape (by omega), Option.map_some]
      have hcode : 0x10000 + (0xd800 + (c.toNat - 0x10000) / 0x400 - 0xd800) * 0x400 +
          (0xdc00 + (c.toNat - 0x10000) % 0x400 - 0xdc00) = c.toNat := by omega
      simp only [hcode, Char.ofNat_toNat]

theorem toNat_quote : (Char.ofNat 34).toNat = 34 := rfl

/-- No escape starts with a quote. -/
theorem escape_eq_cons (c : Char) :
    ∃ first rest, escape c = first :: rest ∧ first.toNat ≠ 34 := by
  rw [escape]
  cases hlookup : shortEscapes.lookup c.toNat with
  | some letter => exact ⟨_, _, rfl, by decide⟩
  | none =>
    simp only
    by_cases hplain : 32 ≤ c.toNat ∧ c.toNat ≤ 126
    · refine ⟨c, [], if_pos hplain, fun hcode => ?_⟩
      rw [hcode] at hlookup
      cases hlookup
    rw [if_neg hplain]
    by_cases hbasic : c.toNat < 0x10000
    · rw [if_pos hbasic]
      exact ⟨_, _, rfl, by decide⟩
    · rw [if_neg hbasic]
      exact ⟨_, _, rfl, by decide⟩

/-- The characters up to the closing quote, and what stands after it. -/
def readChars : ℕ → List Char → Option (List Char × List Char)
  | 0, _ => none
  | _ + 1, [] => none
  | fuel + 1, first :: rest =>
    if first.toNat = 34 then some ([], rest)
    else
      match unescape (first :: rest) with
      | none => none
      | some (c, rest) => (readChars fuel rest).map fun (cs, rest) => (c :: cs, rest)

theorem readChars_escape (rest : List Char) : ∀ (cs : List Char) {fuel : ℕ},
    cs.length < fuel →
    readChars fuel (cs.flatMap escape ++ Char.ofNat 34 :: rest) = some (cs, rest)
  | [], fuel + 1, _ => by
      rw [flatMap_nil, nil_append, readChars, if_pos toNat_quote]
  | c :: cs, fuel + 1, hfuel => by
      obtain ⟨first, others, hescape, hquote⟩ := escape_eq_cons c
      have hread := unescape_escape c (cs.flatMap escape ++ Char.ofNat 34 :: rest)
      rw [flatMap_cons, append_assoc]
      rw [hescape, cons_append] at hread ⊢
      rw [readChars, if_neg hquote, hread]
      simp only
      rw [readChars_escape rest cs (Nat.lt_of_succ_lt_succ hfuel), Option.map_some]

/-- A string in quotes, and what stands after it. -/
def readString : List Char → Option (String × List Char)
  | [] => none
  | first :: rest =>
    if first.toNat = 34 then
      (readChars rest.length rest).map fun (cs, rest) => (String.ofList cs, rest)
    else none

theorem length_le_flatMap_escape (cs : List Char) :
    cs.length ≤ (cs.flatMap escape).length := by
  induction cs with
  | nil => exact Nat.le_refl 0
  | cons c cs ih =>
    obtain ⟨first, others, hescape, -⟩ := escape_eq_cons c
    rw [flatMap_cons, length_append, hescape, length_cons, length_cons]
    omega

/-- **A quoted string is read back.** -/
theorem readString_quote (text : String) (rest : List Char) :
    readString (quote text ++ rest) = some (text, rest) := by
  have hlength := length_le_flatMap_escape text.toList
  have hfuel : text.toList.length <
      (text.toList.flatMap escape ++ Char.ofNat 34 :: rest).length := by
    rw [length_append, length_cons]
    omega
  rw [quote, cons_append, cons_append, append_assoc, readString,
    if_pos toNat_quote, singleton_append, readChars_escape rest text.toList hfuel]
  simp only [Option.map_some, String.ofList_toList]

/-! ## Words -/

/-- What stands after a value inside a container. -/
def closes (c : Char) : Bool := c = ',' || c = ']' || c = Char.ofNat 125

/-- The characters that no word has. -/
def specialChars : List Char := [',', ']', Char.ofNat 125, Char.ofNat 34, '[', Char.ofNat 123]

/-- The characters of a word: what is written without quotes and brackets. -/
def wordChar (c : Char) : Bool := !specialChars.contains c

/-- A place where a value may end. -/
def Ends (rest : List Char) : Prop := ∀ c ∈ rest.head?, closes c = true

theorem ends_cons {c : Char} (h : closes c = true) (rest : List Char) : Ends (c :: rest) := by
  intro first hfirst
  rw [← Option.some.inj hfirst]
  exact h

def integerChar (c : Char) : Bool := c.isDigit || c = '-'

def readInteger : List Char → ℤ
  | [] => 0
  | first :: rest =>
    if first = '-' then -(Nat.ofDigitChars 10 rest 0 : ℤ)
    else Nat.ofDigitChars 10 (first :: rest) 0

def readWord (word : List Char) : Value :=
  if word = "null".toList then .null
  else if word = "true".toList then .bool true
  else if word = "false".toList then .bool false
  else if word.all integerChar then .integer (readInteger word)
  else .float (String.ofList word)

def floatChar (c : Char) : Bool := c.isDigit || c = '+' || c = '-' || c = '.' || c = 'e'

/-- The literal of a float: one of the three that are no numbers, or a number with a point or
an exponent. -/
def IsFloatText (literal : String) : Prop :=
  literal ∈ ["NaN", "Infinity", "-Infinity"] ∨
    (∀ c ∈ literal.toList, floatChar c = true) ∧ ∃ c ∈ literal.toList, c = '.' ∨ c = 'e'

instance (literal : String) : Decidable (IsFloatText literal) :=
  inferInstanceAs (Decidable (_ ∨ _))

/-- The text of a value that is one word. -/
structure IsWord (word : List Char) (value : Value) : Prop where
  ne_nil : word ≠ []
  plain : ∀ c ∈ word, wordChar c = true
  read : readWord word = value

theorem isDigit_integerText {c : Char} {n : ℤ} (h : c ∈ integerText n) :
    integerChar c = true := by
  rw [integerChar, Bool.or_eq_true, decide_eq_true_iff]
  cases n with
  | ofNat n => exact Or.inl (Nat.isDigit_of_mem_toDigits (by decide) (by decide) h)
  | negSucc n =>
    obtain rfl | hdigit := mem_cons.1 h
    · exact Or.inr rfl
    · exact Or.inl (Nat.isDigit_of_mem_toDigits (by decide) (by decide) hdigit)

theorem readInteger_integerText (n : ℤ) : readInteger (integerText n) = n := by
  cases n with
  | ofNat n =>
    have hread : Nat.ofDigitChars 10 (Nat.toDigits 10 n) 0 = n := Nat.ofDigitChars_ten_toDigits
    rw [integerText]
    cases hdigits : Nat.toDigits 10 n with
    | nil => exact absurd hdigits Nat.toDigits_ne_nil
    | cons first rest =>
      have hdigit : first.isDigit = true :=
        Nat.isDigit_of_mem_toDigits (by decide) (by decide) (hdigits ▸ mem_cons_self)
      have hminus : first ≠ '-' := by
        rintro rfl
        cases hdigit
      rw [readInteger, if_neg hminus, ← hdigits, hread]
      rfl
  | negSucc n =>
    have hread : Nat.ofDigitChars 10 (Nat.toDigits 10 (n + 1)) 0 = n + 1 :=
      Nat.ofDigitChars_ten_toDigits
    rw [integerText, readInteger, if_pos rfl, hread]
    rfl

theorem wordChar_of_subset {p : Char → Bool} (hp : specialChars.all (fun c => !p c) = true)
    {c : Char} (h : p c = true) : wordChar c = true := by
  rw [wordChar, Bool.not_eq_true', contains_eq_mem, decide_eq_false_iff_not]
  intro hmem
  have hnot := all_eq_true.1 hp c hmem
  rw [h] at hnot
  cases hnot

/-- A word that is no name is a number. -/
theorem readWord_number {p : Char → Bool} (hp : p 'n' = false ∧ p 't' = false ∧ p 'f' = false)
    {word : List Char} (h : ∀ c ∈ word, p c = true) :
    readWord word = if word.all integerChar then .integer (readInteger word)
      else .float (String.ofList word) := by
  have hname : ∀ c : Char, p c = false → c ∉ word := by
    intro c hc hmem
    rw [h c hmem] at hc
    cases hc
  have hnull : word ≠ "null".toList := by
    rintro rfl
    exact hname 'n' hp.1 (by decide)
  have htrue : word ≠ "true".toList := by
    rintro rfl
    exact hname 't' hp.2.1 (by decide)
  have hfalse : word ≠ "false".toList := by
    rintro rfl
    exact hname 'f' hp.2.2 (by decide)
  rw [readWord, if_neg hnull, if_neg htrue, if_neg hfalse]

theorem isWord_integer (n : ℤ) : IsWord (integerText n) (.integer n) where
  ne_nil := by
    cases n with
    | ofNat n => exact Nat.toDigits_ne_nil
    | negSucc n => exact cons_ne_nil _ _
  plain := fun c hc => wordChar_of_subset rfl (isDigit_integerText hc)
  read := by
    have hall : ∀ c ∈ integerText n, integerChar c = true := fun c hc => isDigit_integerText hc
    rw [readWord_number (by decide) hall, if_pos (all_eq_true.2 hall), readInteger_integerText]

theorem isWord_float {literal : String} (h : IsFloatText literal) :
    IsWord literal.toList (.float literal) := by
  obtain hname | ⟨hchars, c, hmem, hpoint⟩ := h
  · simp only [mem_cons, not_mem_nil, or_false] at hname
    obtain rfl | rfl | rfl := hname <;> exact ⟨by decide, all_eq_true.1 rfl, rfl⟩
  · have hinteger : ¬literal.toList.all integerChar = true := by
      intro hall
      have hc := all_eq_true.1 hall c hmem
      obtain rfl | rfl := hpoint <;> cases hc
    refine ⟨ne_nil_of_mem hmem,
      fun c hc => wordChar_of_subset rfl (hchars c hc), ?_⟩
    rw [readWord_number (by decide) hchars, if_neg hinteger, String.ofList_toList]

/-! ## Values -/

/-- More items: each after a comma, up to the closing bracket. -/
def readMore {β : Type v} (readOne : List Char → Option (β × List Char)) (closing : Char) :
    ℕ → List Char → Option (List β × List Char)
  | 0, _ => none
  | _ + 1, [] => none
  | fuel + 1, first :: rest =>
    if first = closing then some ([], rest)
    else if first = ',' then
      match readOne rest with
      | none => none
      | some (item, rest) =>
        (readMore readOne closing fuel rest).map fun (items, rest) => (item :: items, rest)
    else none

/-- The items of a container, after its opening bracket. -/
def readList {β : Type v} (readOne : List Char → Option (β × List Char)) (closing : Char)
    (fuel : ℕ) (input : List Char) : Option (List β × List Char) :=
  if input.head? = some closing then some ([], input.tail)
  else
    match readOne input with
    | none => none
    | some (item, rest) =>
      (readMore readOne closing fuel rest).map fun (items, rest) => (item :: items, rest)

/-- A key, a colon and a value. -/
def readEntry {β : Type v} (readOne : List Char → Option (β × List Char)) (input : List Char) :
    Option ((String × β) × List Char) :=
  match readString input with
  | none => none
  | some (key, rest) =>
    if rest.head? = some ':' then
      (readOne rest.tail).map fun (value, rest) => ((key, value), rest)
    else none

/-- One value, and what stands after it. -/
def read : ℕ → List Char → Option (Value × List Char)
  | 0, _ => none
  | _ + 1, [] => none
  | fuel + 1, first :: rest =>
    if first.toNat = 34 then
      (readString (first :: rest)).map fun (text, rest) => (.string text, rest)
    else if first = '[' then
      (readList (read fuel) ']' fuel rest).map fun (items, rest) => (.array items, rest)
    else if first = Char.ofNat 123 then
      (readList (readEntry (read fuel)) (Char.ofNat 125) fuel rest).map fun (entries, rest) =>
        (.object entries, rest)
    else
      some (readWord ((first :: rest).takeWhile wordChar), (first :: rest).dropWhile wordChar)

/-- A whole text. -/
def loads (input : List Char) : Option Value :=
  match read input.length input with
  | some (value, []) => some value
  | _ => none

/-- The items of a container after the first. -/
def tailText (closing : Char) (texts : List (List Char)) : List Char :=
  texts.flatMap (',' :: ·) ++ [closing]

theorem intercalate_cons (first : List Char) (texts : List (List Char)) :
    [','].intercalate (first :: texts) = first ++ texts.flatMap (',' :: ·) := by
  induction texts generalizing first with
  | nil => simp
  | cons second others ih =>
    rw [intercalate_cons_cons, ih, flatMap_cons, append_assoc]
    rfl

theorem bracket_cons (opening closing : Char) (first : List Char) (texts : List (List Char)) :
    bracket opening closing (first :: texts) = opening :: (first ++ tailText closing texts) := by
  rw [bracket, intercalate_cons, tailText, cons_append, append_assoc]

section Lists

variable {α : Type u} {β : Type v} {readOne : List Char → Option (β × List Char)}
  {closing : Char} {write : α → List Char} {value : α → β}

theorem readMore_tailText (hcloses : closes closing = true) (hcomma : closing ≠ ',')
    (rest : List Char) : ∀ (items : List α) {fuel : ℕ},
    (∀ item ∈ items, ∀ rest, Ends rest →
      readOne (write item ++ rest) = some (value item, rest)) → items.length < fuel →
    readMore readOne closing fuel (tailText closing (items.map write) ++ rest) =
      some (items.map value, rest)
  | [], fuel + 1, _, _ => by
      rw [map_nil, tailText, flatMap_nil, nil_append, singleton_append,
        readMore, if_pos rfl, map_nil]
  | item :: items, fuel + 1, hread, hfuel => by
      have hends : Ends (tailText closing (items.map write) ++ rest) := by
        cases items with
        | nil => exact ends_cons hcloses rest
        | cons second others => exact ends_cons (by decide) _
      have hmore := readMore_tailText hcloses hcomma rest items
        (fun item hitem => hread item (mem_cons_of_mem _ hitem))
        (Nat.lt_of_succ_lt_succ hfuel)
      have htail : tailText closing ((item :: items).map write) ++ rest =
          ',' :: (write item ++ (tailText closing (items.map write) ++ rest)) := by
        simp only [tailText, map_cons, flatMap_cons, cons_append, append_assoc]
      rw [htail, readMore, if_neg (Ne.symm hcomma), if_pos rfl, hread item mem_cons_self _ hends]
      simp only [hmore, Option.map_some, map_cons]

theorem readList_bracket (opening : Char) (hcloses : closes closing = true)
    (hcomma : closing ≠ ',') (rest : List Char) (items : List α) (fuel : ℕ)
    (hread : ∀ item ∈ items, ∀ rest, Ends rest →
      readOne (write item ++ rest) = some (value item, rest))
    (hfirst : ∀ item ∈ items, ∃ first others, write item = first :: others ∧ first ≠ closing)
    (hfuel : items.length ≤ fuel) :
    ∃ inner, bracket opening closing (items.map write) ++ rest = opening :: inner ∧
      readList readOne closing fuel inner = some (items.map value, rest) := by
  cases items with
  | nil =>
    refine ⟨closing :: rest, rfl, ?_⟩
    rw [readList, head?_cons, if_pos rfl, tail_cons, map_nil]
  | cons item items =>
    have hends : Ends (tailText closing (items.map write) ++ rest) := by
      cases items with
      | nil => exact ends_cons hcloses rest
      | cons second others => exact ends_cons (by decide) _
    have hmore := readMore_tailText hcloses hcomma rest items
      (fun item hitem => hread item (mem_cons_of_mem _ hitem)) hfuel
    refine ⟨write item ++ (tailText closing (items.map write) ++ rest), ?_, ?_⟩
    · rw [map_cons, bracket_cons, cons_append, append_assoc]
    · have hopen : (write item ++ (tailText closing (items.map write) ++ rest)).head? ≠
          some closing := by
        obtain ⟨first, others, hwrite, hne⟩ := hfirst item mem_cons_self
        rw [hwrite, cons_append, head?_cons]
        exact fun h => hne (Option.some.inj h)
      rw [readList, if_neg hopen, hread item mem_cons_self _ hends]
      simp only [hmore, Option.map_some, map_cons]

theorem readEntry_entryText {key : String} {text rest : List Char} {found : β}
    (h : readOne (text ++ rest) = some (found, rest)) :
    readEntry readOne (entryText (key, text) ++ rest) = some ((key, found), rest) := by
  rw [entryText, append_assoc, readEntry, readString_quote]
  simp only [cons_append, head?_cons, if_true, tail_cons, h, Option.map_some]

end Lists

/-- The literals of the floats are those that a writer has, and no key stands twice. -/
inductive WellFormed : Value → Prop
  | null : WellFormed .null
  | bool (value : Bool) : WellFormed (.bool value)
  | integer (value : ℤ) : WellFormed (.integer value)
  | float {literal : String} (h : IsFloatText literal) : WellFormed (.float literal)
  | string (text : String) : WellFormed (.string text)
  | array {items : List Value} (h : ∀ item ∈ items, WellFormed item) : WellFormed (.array items)
  | object {entries : List (String × Value)} (hkeys : (entries.map (·.1)).Nodup)
      (h : ∀ entry ∈ entries, WellFormed entry.2) : WellFormed (.object entries)

/-- The value is read back with its keys in order. -/
def ReadBack (value : Value) : Prop :=
  ∀ (fuel : ℕ) (rest : List Char), (text value).length ≤ fuel → Ends rest →
    read fuel (text value ++ rest) = some (sortKeys value, rest)

theorem wordChar_eq_false_of_ends {rest : List Char} (h : Ends rest) :
    rest.dropWhile wordChar = rest ∧ rest.takeWhile wordChar = [] := by
  cases rest with
  | nil => exact ⟨rfl, rfl⟩
  | cons first rest =>
    have hcloses : closes first = true := h first rfl
    have hword : ¬wordChar first = true := by
      rw [closes, Bool.or_eq_true, Bool.or_eq_true] at hcloses
      simp only [decide_eq_true_iff] at hcloses
      obtain (rfl | rfl) | rfl := hcloses <;> decide
    exact ⟨dropWhile_cons_of_neg hword, takeWhile_cons_of_neg hword⟩

theorem read_word {value : Value} (h : IsWord (text value) value)
    (hsort : sortKeys value = value) : ReadBack value := by
  intro fuel rest hfuel hends
  obtain ⟨hdrop, htake⟩ := wordChar_eq_false_of_ends hends
  cases htext : text value with
  | nil => exact absurd htext h.ne_nil
  | cons first others =>
    rw [htext] at h hfuel
    obtain ⟨fuel, rfl⟩ : ∃ n, fuel = n + 1 := ⟨fuel - 1, by rw [length_cons] at hfuel; omega⟩
    have hfirst := h.plain first mem_cons_self
    have hquote : first.toNat ≠ 34 := by
      intro hcode
      rw [← Char.ofNat_toNat first, hcode] at hfirst
      cases hfirst
    have harray : first ≠ '[' := by
      rintro rfl
      cases hfirst
    have hobject : first ≠ Char.ofNat 123 := by
      rintro rfl
      cases hfirst
    rw [cons_append, read, if_neg hquote, if_neg harray, if_neg hobject,
      ← cons_append, takeWhile_append_of_pos h.plain,
      dropWhile_append_of_pos h.plain, hdrop, htake, append_nil, h.read, hsort]

theorem isWord_null : IsWord (text .null) .null := ⟨by decide, all_eq_true.1 rfl, rfl⟩

theorem isWord_bool (value : Bool) : IsWord (text (.bool value)) (.bool value) := by
  cases value <;> exact ⟨by decide, all_eq_true.1 rfl, rfl⟩

theorem IsWord.text_eq_cons {word : List Char} {value : Value} (h : IsWord word value) :
    ∃ first others, word = first :: others ∧ first ≠ ']' := by
  obtain ⟨first, others, rfl⟩ := exists_cons_of_ne_nil h.ne_nil
  refine ⟨first, others, rfl, ?_⟩
  rintro rfl
  cases h.plain ']' mem_cons_self

theorem text_eq_cons {value : Value} (h : WellFormed value) :
    ∃ first others, text value = first :: others ∧ first ≠ ']' := by
  cases h with
  | null => exact isWord_null.text_eq_cons
  | bool value => exact (isWord_bool value).text_eq_cons
  | integer n => exact (isWord_integer n).text_eq_cons
  | float h => exact (isWord_float h).text_eq_cons
  | string text => exact ⟨_, _, rfl, by decide⟩
  | array h => exact ⟨_, _, text_array _, by decide⟩
  | object hkeys h => exact ⟨_, _, text_object _, by decide⟩

theorem length_le_bracket (opening closing : Char) {text : List Char} {texts : List (List Char)}
    (h : text ∈ texts) : text.length + 2 ≤ (bracket opening closing texts).length := by
  have hsum : text.length ≤ (texts.map List.length).sum :=
    le_sum_of_mem (mem_map_of_mem h)
  rw [length_bracket, listSize]
  omega

theorem lt_length_bracket (opening closing : Char) (texts : List (List Char)) :
    texts.length < (bracket opening closing texts).length := by
  rw [length_bracket, listSize, length_map]
  omega

/-- **The reader gives back** what was written, with the keys in order. -/
theorem read_text {value : Value} (hformed : WellFormed value) : ReadBack value := by
  induction value using Value.members_induction with
  | null => exact read_word isWord_null rfl
  | bool value => exact read_word (isWord_bool value) rfl
  | integer n => exact read_word (isWord_integer n) rfl
  | float literal =>
    cases hformed with
    | float h => exact read_word (isWord_float h) rfl
  | string string =>
    intro fuel rest hfuel _
    rw [text, length_quote] at hfuel
    obtain ⟨fuel, rfl⟩ : ∃ n, fuel = n + 1 := ⟨fuel - 1, by rw [quotedSize] at hfuel; omega⟩
    have hread := readString_quote string rest
    have hsort : sortKeys (.string string) = .string string := rfl
    rw [text, hsort]
    rw [quote, cons_append, cons_append] at hread ⊢
    rw [read, if_pos toNat_quote, hread, Option.map_some]
  | array items ih =>
    intro fuel rest hfuel _
    cases hformed with
    | array hitems =>
      rw [text_array] at hfuel ⊢
      have hcount := lt_length_bracket '[' ']' (items.map text)
      rw [length_map] at hcount
      obtain ⟨fuel, rfl⟩ : ∃ n, fuel = n + 1 := ⟨fuel - 1, by omega⟩
      have hread : ∀ item ∈ items, ∀ rest, Ends rest →
          read fuel (text item ++ rest) = some (sortKeys item, rest) := by
        intro item hitem rest hends
        have hlength := length_le_bracket '[' ']' (mem_map_of_mem (f := text) hitem)
        exact ih item hitem (hitems item hitem) fuel rest (by omega) hends
      obtain ⟨inner, hinner, hlist⟩ := readList_bracket '[' (rfl : closes ']' = true)
        (by decide) rest items fuel hread
        (fun item hitem => text_eq_cons (hitems item hitem)) (by omega)
      rw [hinner, read, if_neg (by decide), if_pos rfl, hlist, sortKeys_array, Option.map_some]
  | object entries ih =>
    intro fuel rest hfuel _
    cases hformed with
    | object hkeys hentries =>
      rw [text_object] at hfuel ⊢
      have hcount := lt_length_bracket (Char.ofNat 123) (Char.ofNat 125)
        ((Dicts.sortedItems entries).map fun entry => entryText (entry.1, text entry.2))
      rw [length_map] at hcount
      obtain ⟨fuel, rfl⟩ : ∃ n, fuel = n + 1 := ⟨fuel - 1, by omega⟩
      have hread : ∀ entry ∈ Dicts.sortedItems entries, ∀ rest, Ends rest →
          readEntry (read fuel) (entryText (entry.1, text entry.2) ++ rest) =
            some ((entry.1, sortKeys entry.2), rest) := by
        intro entry hentry rest hends
        have hmem := Dicts.mem_sortedItems.1 hentry
        have hlength := length_le_bracket (Char.ofNat 123) (Char.ofNat 125)
          (mem_map_of_mem (f := fun entry => entryText (entry.1, text entry.2)) hentry)
        rw [length_entryText] at hlength
        exact readEntry_entryText
          (ih entry hmem (hentries entry hmem) fuel rest (by simp only at hlength; omega) hends)
      obtain ⟨inner, hinner, hlist⟩ := readList_bracket (Char.ofNat 123)
        (rfl : closes (Char.ofNat 125) = true) (by decide) rest (Dicts.sortedItems entries)
        fuel hread (fun entry _ => ⟨Char.ofNat 34, _, rfl, by decide⟩) (by omega)
      rw [hinner, read, if_neg (by decide), if_neg (by decide), if_pos rfl, hlist,
        sortKeys_object, Option.map_some]

/-- **A whole text** is read back with its keys in order. -/
theorem loads_text {value : Value} (h : WellFormed value) :
    loads (text value) = some (sortKeys value) := by
  have hends : Ends [] := fun _ hmem => by cases hmem
  have hread := read_text h _ [] (Nat.le_refl (text value).length) hends
  rw [append_nil] at hread
  rw [loads, hread]

/-! ## Values up to the order of their keys -/

/-- The same value: dictionaries find the same under every key. -/
inductive Agree : Value → Value → Prop
  | null : Agree .null .null
  | bool (value : Bool) : Agree (.bool value) (.bool value)
  | integer (value : ℤ) : Agree (.integer value) (.integer value)
  | float (literal : String) : Agree (.float literal) (.float literal)
  | string (text : String) : Agree (.string text) (.string text)
  | array {items items' : List Value} (h : List.Forall₂ Agree items items') :
    Agree (.array items) (.array items')
  | object {entries entries' : List (String × Value)}
    (hnone : ∀ key, entries.lookup key = none ↔ entries'.lookup key = none)
    (h : ∀ key value value', entries.lookup key = some value → entries'.lookup key = some value' →
      Agree value value') :
    Agree (.object entries) (.object entries')

theorem agree_string {text text' : String}
    (h : Agree (.string text) (.string text')) : text = text' := by
  cases h
  rfl

theorem agree_bool {value value' : Bool} (h : Agree (.bool value) (.bool value')) :
    value = value' := by
  cases h
  rfl

/-- What is found under a key of agreeing dictionaries agrees. -/
theorem agree_lookup {entries entries' : List (String × Value)}
    (h : Agree (.object entries) (.object entries')) (key : String) {value value' : Value}
    (hvalue : entries.lookup key = some value) (hvalue' : entries'.lookup key = some value') :
    Agree value value' := by
  cases h with
  | object hnone hagree => exact hagree key value value' hvalue hvalue'

/-- Sorted items are the same exactly if every key finds the same. -/
theorem sortedItems_eq_iff {entries entries' : List (String × Value)}
    (hkeys : (entries.map (·.1)).Nodup) (hkeys' : (entries'.map (·.1)).Nodup) :
    Dicts.sortedItems entries = Dicts.sortedItems entries' ↔
      ∀ key, entries.lookup key = entries'.lookup key := by
  constructor
  · intro heq key
    have hperm : entries.Perm entries' :=
      (Dicts.sortedItems_perm entries).symm.trans (heq ▸ Dicts.sortedItems_perm entries')
    exact (Dicts.lookup_perm hkeys hperm key).symm
  · exact Dicts.sortedItems_congr hkeys hkeys'

theorem map_fst_sortEntries (entries : List (String × Value)) :
    (sortEntries entries).map (·.1) = entries.map (·.1) := by
  rw [sortEntries_eq, map_map]
  rfl

theorem lookup_sortEntries (entries : List (String × Value)) (key : String) :
    (sortEntries entries).lookup key = (entries.lookup key).map sortKeys := by
  rw [sortEntries_eq, Dicts.lookup_map_value]

theorem agree_array_iff {items items' : List Value}
    (h : ∀ item ∈ items, ∀ item' ∈ items', Agree item item' ↔ sortKeys item = sortKeys item') :
    List.Forall₂ Agree items items' ↔ items.map sortKeys = items'.map sortKeys := by
  induction items generalizing items' with
  | nil => cases items' <;> simp
  | cons item items ih =>
    cases items' with
    | nil => simp
    | cons item' items' =>
      have hfirst := h item mem_cons_self item' mem_cons_self
      have hrest := ih fun item hitem item' hitem' =>
        h item (mem_cons_of_mem _ hitem) item' (mem_cons_of_mem _ hitem')
      rw [forall₂_cons, map_cons, map_cons, cons.injEq, hfirst, hrest]

/-- What contains no other value. -/
def isLeaf : Value → Bool
  | .array _ | .object _ => false
  | _ => true

theorem agree_leaf_iff {value other : Value} (hleaf : isLeaf value = true) :
    Agree value other ↔ sortKeys value = sortKeys other := by
  constructor
  · intro h
    cases h with
    | array | object => cases hleaf
    | _ => rfl
  · intro h
    cases value with
    | array | object => cases hleaf
    | null =>
      cases other <;> cases h
      exact .null
    | bool value =>
      cases other <;> cases h
      exact .bool value
    | integer n =>
      cases other <;> cases h
      exact .integer n
    | float literal =>
      cases other <;> cases h
      exact .float literal
    | string string =>
      cases other <;> cases h
      exact .string string

/-- Dictionaries agree exactly if sorting the keys gives the same under every key. -/
theorem agree_object_iff {entries entries' : List (String × Value)}
    (h : ∀ key value value', entries.lookup key = some value → entries'.lookup key = some value' →
      (Agree value value' ↔ sortKeys value = sortKeys value')) :
    Agree (.object entries) (.object entries') ↔
      ∀ key, (entries.lookup key).map sortKeys = (entries'.lookup key).map sortKeys := by
  constructor
  · rintro (_ | _ | _ | _ | _ | _ | ⟨hnone, hagree⟩) key
    cases hvalue : entries.lookup key with
    | none => rw [(hnone key).1 hvalue]
    | some value =>
      cases hvalue' : entries'.lookup key with
      | none =>
        rw [(hnone key).2 hvalue'] at hvalue
        cases hvalue
      | some value' =>
        have hsort := (h key value value' hvalue hvalue').1 (hagree key value value' hvalue hvalue')
        rw [Option.map_some, Option.map_some, hsort]
  · intro hsame
    refine .object (fun key => ?_) fun key value value' hvalue hvalue' => ?_
    · rw [← Option.map_eq_none_iff (f := sortKeys), hsame key, Option.map_eq_none_iff]
    · have hkey := hsame key
      rw [hvalue, hvalue', Option.map_some, Option.map_some, Option.some.injEq] at hkey
      exact (h key value value' hvalue hvalue').2 hkey

/-- **Values agree** exactly if they are the same with their keys in order. -/
theorem agree_iff {value : Value} (hformed : WellFormed value) : ∀ {other : Value},
    WellFormed other → (Agree value other ↔ sortKeys value = sortKeys other) := by
  induction value using Value.members_induction with
  | null => exact fun _ => agree_leaf_iff rfl
  | bool value => exact fun _ => agree_leaf_iff rfl
  | integer n => exact fun _ => agree_leaf_iff rfl
  | float literal => exact fun _ => agree_leaf_iff rfl
  | string string => exact fun _ => agree_leaf_iff rfl
  | array items ih =>
    intro other hother
    cases hformed with
    | array hitems =>
      cases other with
      | array items' =>
        cases hother with
        | array hitems' =>
          have hiff := agree_array_iff fun item hitem item' hitem' =>
            ih item hitem (hitems item hitem) (hitems' item' hitem')
          rw [sortKeys_array, sortKeys_array, Value.array.injEq, ← hiff]
          exact ⟨fun (.array h) => h, .array⟩
      | _ => exact ⟨nofun, nofun⟩
  | object entries ih =>
    intro other hother
    cases hformed with
    | object hkeys hentries =>
      cases other with
      | object entries' =>
        cases hother with
        | object hkeys' hentries' =>
          have hvalues := agree_object_iff fun key value value' hvalue hvalue' =>
            ih (key, value) (Dicts.mem_of_lookup hvalue)
              (hentries _ (Dicts.mem_of_lookup hvalue))
              (hentries' _ (Dicts.mem_of_lookup hvalue'))
          have hsorted := sortedItems_eq_iff
            ((map_fst_sortEntries entries).symm ▸ hkeys)
            ((map_fst_sortEntries entries').symm ▸ hkeys')
          rw [sortKeys, sortKeys, Value.object.injEq, hsorted, hvalues]
          simp only [lookup_sortEntries]
      | _ => exact ⟨nofun, nofun⟩

theorem sortedItems_sortedItems {α : Type u} (entries : List (String × α)) :
    Dicts.sortedItems (Dicts.sortedItems entries) = Dicts.sortedItems entries :=
  (Dicts.pairwise_sortedItems entries).insertionSort_eq

/-- Sorting the keys first changes nothing of what is written. -/
theorem text_sortKeys (value : Value) : text (sortKeys value) = text value := by
  induction value using Value.members_induction with
  | null => rfl
  | bool value => rfl
  | integer n => rfl
  | float literal => rfl
  | string string => rfl
  | array items ih =>
    rw [sortKeys_array, text_array, text_array, map_map]
    exact congrArg (bracket '[' ']') (map_congr_left ih)
  | object entries ih =>
    have hsorted : Dicts.sortedItems
        ((Dicts.sortedItems entries).map fun entry => (entry.1, sortKeys entry.2)) =
        (Dicts.sortedItems entries).map fun entry => (entry.1, sortKeys entry.2) := by
      rw [Dicts.sortedItems_map_value, sortedItems_sortedItems]
    rw [sortKeys_object, text_object, text_object, hsorted, map_map]
    refine congrArg (bracket _ _) (map_congr_left fun entry hentry => ?_)
    exact congrArg (fun written => entryText (entry.1, written))
      (ih entry (Dicts.mem_sortedItems.1 hentry))

/-- **One text, one value**: what is written tells values apart up to the order of their keys. -/
theorem text_eq_iff {value other : Value} (hformed : WellFormed value)
    (hother : WellFormed other) : text value = text other ↔ Agree value other := by
  rw [agree_iff hformed hother]
  constructor
  · intro h
    have hread := loads_text hformed
    rw [h, loads_text hother] at hread
    exact (Option.some.inj hread).symm
  · intro h
    rw [← text_sortKeys value, h, text_sortKeys other]

end JsonText
