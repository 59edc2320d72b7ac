/-
# Whole JSON documents

A small library: the documents that a JSON writer sees, what it writes for them without blanks
and with everything outside ASCII as it is, and a scan of a text for the brackets and strings
that are open. A reader of JSON accepts no text that the scan leaves open, so it does not
accept what is left of a document that was cut off.

* `scan_write_object`: the scan closes with the end of an object that was written.
* `partial_scan`: it is open behind every part of one that was cut off.
* `Spoiled.scanFrom_object`: it does not close behind what is written after such a part.
-/
import DRCAgent.InsertionDict
import DRCAgent.JsonText

namespace JsonDocuments

open List
open JsonText (shortEscapes codeEscape integerText)

/-! ## What is written -/

def quoteMark : Char := Char.ofNat 34
def backslash : Char := Char.ofNat 92
def openBrace : Char := Char.ofNat 123
def closeBrace : Char := Char.ofNat 125

/-- The characters of numbers and of the names of constants. -/
def plainChar (c : Char) : Bool :=
  32 ≤ c.toNat && c.toNat ≤ 126 && c ≠ quoteMark && c ∉ ['[', ']', openBrace, closeBrace]

/-- A number or a constant. -/
structure Literal where
  text : List Char
  plain : text.all plainChar = true
  deriving DecidableEq

inductive Doc
  | literal (value : Literal)
  | string (text : String)
  | array (items : List Doc)
  | object (entries : List (String × Doc))

/-- What is written for a character: quotes, backslashes and control characters are escaped. -/
def escape (c : Char) : List Char :=
  match shortEscapes.lookup c.toNat with
  | some letter => [backslash, letter]
  | none => if c.toNat < 32 then codeEscape c.toNat else [c]

def quote (text : String) : List Char :=
  quoteMark :: text.toList.flatMap escape ++ [quoteMark]

/-- Texts with commas between them. -/
def commas (texts : List (List Char)) : List Char := [','].intercalate texts

mutual

/-- What is written for a document. -/
def write : Doc → List Char
  | .literal value => value.text
  | .string text => quote text
  | .array items => '[' :: commas (writeItems items) ++ [']']
  | .object entries => openBrace :: commas (writeEntries entries) ++ [closeBrace]

def writeItems : List Doc → List (List Char)
  | [] => []
  | item :: rest => write item :: writeItems rest

def writeEntries : List (String × Doc) → List (List Char)
  | [] => []
  | (key, item) :: rest => (quote key ++ ':' :: write item) :: writeEntries rest

end

/-! ## The scan -/

/-- Where a scan is: before the text, at a depth of brackets, in a string there, behind a
backslash of one, in the digits of an escape, behind a string, or behind the text; or where no
JSON text goes on. -/
inductive State
  | start
  | within (depth : ℕ)
  | string (depth : ℕ)
  | escape (depth : ℕ)
  | digits (depth left : ℕ)
  | after (depth : ℕ)
  | closed
  | broken

/-- A blank of JSON. -/
def blank (c : Char) : Bool := c = ' ' || c = '\t' || c = '\n' || c = '\r'

def isHex (c : Char) : Bool :=
  c.isDigit || ('a' ≤ c && c ≤ 'f') || ('A' ≤ c && c ≤ 'F')

def isOpening (c : Char) : Bool := c = openBrace || c = '['

def isClosing (c : Char) : Bool := c = closeBrace || c = ']'

/-- A bracket closes. -/
def closeAt : ℕ → State
  | 0 => .closed
  | depth + 1 => .within depth

def step : State → Char → State
  | .start, c => if isOpening c then .within 0 else if blank c then .start else .broken
  | .within d, c =>
    if isOpening c then .within (d + 1) else if isClosing c then closeAt d
    else if c = quoteMark then .string d else .within d
  | .string d, c =>
    if c = quoteMark then .after d else if c = backslash then .escape d else .string d
  | .escape d, c =>
    if c = 'u' then .digits d 3
    else if c = quoteMark || c = backslash || c ∈ ['/', 'b', 'f', 'n', 'r', 't'] then .string d
    else .broken
  | .digits d left, c =>
    if isHex c then (match left with
      | 0 => .string d
      | left + 1 => .digits d left)
    else .broken
  | .after d, c =>
    if isClosing c then closeAt d
    else if c = ',' || c = ':' || blank c then .within d else .broken
  | .closed, c => if blank c then .closed else .broken
  | .broken, _ => .broken

def scanFrom (s : State) (text : List Char) : State := text.foldl step s

def scan (text : List Char) : State := scanFrom .start text

/-- The scan is inside of a document. -/
def Partial (s : State) : Prop :=
  match s with
  | .within _ | .string _ | .escape _ | .digits _ _ | .after _ => True
  | .start | .closed | .broken => False

/-- From a state a text leads to another one, inside of the document all the way. -/
inductive Travels : State → List Char → State → Prop
  | nil {s : State} (h : Partial s) : Travels s [] s
  | cons {s s' : State} {c : Char} {text : List Char} (h : Partial s)
      (hrest : Travels (step s c) text s') : Travels s (c :: text) s'

theorem Travels.append {s s' s'' : State} {l r : List Char} (hl : Travels s l s')
    (hr : Travels s' r s'') : Travels s (l ++ r) s'' := by
  induction hl with
  | nil _ => exact hr
  | cons h _ ih => exact .cons h (ih hr)

theorem Travels.single {s : State} {c : Char} (h : Partial s) (hstep : Partial (step s c)) :
    Travels s [c] (step s c) := .cons h (.nil hstep)

/-- Between two parts of a document. -/
def Resting (d : ℕ) (s : State) : Prop := s = .within d ∨ s = .after d

/-- A text that is a part of documents: it opens and closes as much, and has no control
characters. -/
structure Steady (text : List Char) : Prop where
  travels : ∀ d, ∃ s, Resting d s ∧ Travels (.within d) text s
  printable : ∀ c ∈ text, 32 ≤ c.toNat

theorem steady_nil : Steady [] :=
  ⟨fun d => ⟨.within d, Or.inl rfl, .nil trivial⟩, fun _ h => by cases h⟩

/-- Behind a part, a comma or a colon. -/
theorem Steady.join {l r : List Char} (hl : Steady l) (hr : Steady r) {c : Char}
    (hc : c = ',' ∨ c = ':') : Steady (l ++ c :: r) := by
  have hprintable : 32 ≤ c.toNat := by
    rcases hc with rfl | rfl <;> decide
  refine ⟨fun d => ?_, ?_⟩
  · obtain ⟨s, hs, hl⟩ := hl.travels d
    obtain ⟨s', hs', hr⟩ := hr.travels d
    have hstep : step s c = .within d := by
      rcases hs with rfl | rfl <;> rcases hc with rfl | rfl <;> rfl
    have hpartial : Partial s := by
      rcases hs with rfl | rfl <;> trivial
    exact ⟨s', hs', hl.append (.cons hpartial (hstep ▸ hr))⟩
  · intro c' hc'
    rcases mem_append.1 hc' with h | h
    · exact hl.printable c' h
    · rcases mem_cons.1 h with rfl | h
      · exact hprintable
      · exact hr.printable c' h

theorem steady_commas {texts : List (List Char)} (h : ∀ text ∈ texts, Steady text) :
    Steady (commas texts) := by
  induction texts with
  | nil => exact steady_nil
  | cons first rest ih =>
    obtain ⟨hfirst, hrest⟩ := forall_mem_cons.1 h
    cases rest with
    | nil => simpa [commas] using hfirst
    | cons second others =>
      rw [commas, intercalate_cons_cons, append_assoc]
      exact hfirst.join (ih hrest) (Or.inl rfl)

/-- A part between brackets. -/
theorem Steady.bracket {text : List Char} (h : Steady text) {opening closing : Char}
    (hopening : isOpening opening = true) (hclosing : isClosing closing = true)
    (hprintable : 32 ≤ opening.toNat ∧ 32 ≤ closing.toNat) :
    Steady (opening :: text ++ [closing]) := by
  have hnot : isOpening closing = false := by
    simp only [isClosing, isOpening, Bool.or_eq_true, decide_eq_true_eq] at hclosing ⊢
    rcases hclosing with rfl | rfl <;> rfl
  refine ⟨fun d => ⟨.within d, Or.inl rfl, ?_⟩, ?_⟩
  · -- the text is one bracket deeper
    obtain ⟨s, hs, htext⟩ := h.travels (d + 1)
    have hopen : step (.within d) opening = .within (d + 1) := by
      rw [step, if_pos hopening]
    have hclose : step s closing = .within d := by
      rcases hs with rfl | rfl
      · rw [step, if_neg (by rw [hnot]; decide), if_pos hclosing]
        rfl
      · rw [step, if_pos hclosing]
        rfl
    have hpartial : Partial s := by
      rcases hs with rfl | rfl <;> trivial
    refine .cons trivial ?_
    rw [hopen]
    refine htext.append ?_
    rw [← hclose]
    exact .single hpartial (by rw [hclose]; trivial)
  · intro c hc
    rcases mem_cons.1 hc with rfl | hc
    · exact hprintable.1
    · rcases mem_append.1 hc with hc | hc
      · exact h.printable c hc
      · rw [mem_singleton.1 hc]
        exact hprintable.2

theorem steady_literal (value : Literal) : Steady value.text := by
  have hplain := all_eq_true.1 value.plain
  generalize value.text = text at hplain ⊢
  refine ⟨fun d => ⟨.within d, Or.inl rfl, ?_⟩, fun c hc => ?_⟩
  · induction text with
    | nil => exact .nil trivial
    | cons c rest ih =>
      obtain ⟨hc, hrest⟩ := forall_mem_cons.1 hplain
      have hstep : step (.within d) c = .within d := by
        simp only [plainChar, Bool.and_eq_true, decide_eq_true_eq, mem_cons, not_or] at hc
        obtain ⟨⟨-, hquote⟩, hsquare, hsquare', hbrace, hbrace', -⟩ := hc
        rw [step, isOpening, isClosing, if_neg (by simp [hsquare, hbrace]),
          if_neg (by simp [hsquare', hbrace']), if_neg hquote]
      refine .cons trivial ?_
      rw [hstep]
      exact ih hrest
  · have hplain := hplain c hc
    simp only [plainChar, Bool.and_eq_true, decide_eq_true_eq] at hplain
    exact hplain.1.1.1

theorem isHex_digitChar {n : ℕ} (h : n < 16) : isHex (Nat.digitChar n) = true := by
  interval_cases n <;> rfl

theorem step_digits {d left : ℕ} {n : ℕ} (h : n < 16) :
    step (.digits d (left + 1)) (Nat.digitChar n) = .digits d left ∧
      step (.digits d 0) (Nat.digitChar n) = .string d := by
  rw [step, step, isHex_digitChar h]
  exact ⟨rfl, rfl⟩

/-- What is written for a character stays in the string. -/
theorem travels_escape (d : ℕ) (c : Char) : Travels (.string d) (escape c) (.string d) := by
  rw [escape]
  cases hlookup : shortEscapes.lookup c.toNat with
  | some letter =>
    have hmem := Dicts.mem_of_lookup hlookup
    have hstep : step (.escape d) letter = .string d := by
      simp only [shortEscapes, mem_cons, Prod.mk.injEq, not_mem_nil, or_false] at hmem
      rcases hmem with ⟨-, rfl⟩ | ⟨-, rfl⟩ | ⟨-, rfl⟩ | ⟨-, rfl⟩ | ⟨-, rfl⟩ | ⟨-, rfl⟩ | ⟨-, rfl⟩
      all_goals rfl
    have hletter : Travels (.escape d) [letter] (step (.escape d) letter) :=
      .single trivial (by rw [hstep]; trivial)
    rw [hstep] at hletter
    exact .cons trivial hletter
  | none =>
    -- a character without a short escape: by its digits, or as it is
    dsimp only
    split
    · -- the four digits of a control character
      rename_i hcontrol
      have h₁ := @step_digits d 2 (c.toNat / 4096) (by omega)
      have h₂ := @step_digits d 1 (c.toNat / 256 % 16) (by omega)
      have h₃ := @step_digits d 0 (c.toNat / 16 % 16) (by omega)
      have h₄ := @step_digits d 0 (c.toNat % 16) (by omega)
      refine .cons trivial (.cons trivial (.cons trivial ?_))
      show Travels (step (.digits d 3) _) _ _
      rw [h₁.1]
      refine .cons trivial ?_
      rw [h₂.1]
      refine .cons trivial ?_
      rw [h₃.1]
      refine .cons trivial ?_
      rw [h₄.2]
      exact .nil trivial
    · have hquote : c ≠ quoteMark := by
        rintro rfl
        cases hlookup
      have hbackslash : c ≠ backslash := by
        rintro rfl
        cases hlookup
      have hstep : step (.string d) c = .string d := by
        rw [step, if_neg hquote, if_neg hbackslash]
      refine .cons trivial ?_
      rw [hstep]
      exact .nil trivial

theorem printable_escape (c : Char) : ∀ c' ∈ escape c, 32 ≤ c'.toNat := by
  intro c' hc'
  rw [escape] at hc'
  cases hlookup : shortEscapes.lookup c.toNat with
  | some letter =>
    rw [hlookup] at hc'
    have hmem := Dicts.mem_of_lookup hlookup
    simp only [shortEscapes, mem_cons, Prod.mk.injEq, not_mem_nil, or_false] at hmem hc'
    rcases hc' with rfl | rfl
    · decide
    · rcases hmem with ⟨-, rfl⟩ | ⟨-, rfl⟩ | ⟨-, rfl⟩ | ⟨-, rfl⟩ | ⟨-, rfl⟩ | ⟨-, rfl⟩ | ⟨-, rfl⟩
      all_goals decide
  | none =>
    rw [hlookup] at hc'
    dsimp only at hc'
    split at hc'
    · have hdigit : ∀ n < 16, 32 ≤ (Nat.digitChar n).toNat := by decide
      simp only [codeEscape, mem_cons, not_mem_nil, or_false] at hc'
      rcases hc' with rfl | rfl | rfl | rfl | rfl | rfl
      · decide
      · decide
      all_goals exact hdigit _ (by omega)
    · rw [mem_singleton.1 hc']
      omega

theorem steady_quote (text : String) : Steady (quote text) := by
  have hstring : ∀ (d : ℕ) (l : List Char),
      Travels (.string d) (l.flatMap escape) (.string d) := by
    intro d l
    induction l with
    | nil => exact .nil trivial
    | cons c rest ih => exact (travels_escape d c).append ih
  refine ⟨fun d => ⟨.after d, Or.inr rfl, .cons trivial ?_⟩, fun c hc => ?_⟩
  · exact (hstring d text.toList).append (.single trivial trivial)
  · rcases mem_cons.1 hc with rfl | hc
    · decide
    · rcases mem_append.1 hc with hc | hc
      · obtain ⟨c', -, hmem⟩ := mem_flatMap.1 hc
        exact printable_escape c' c hmem
      · rw [mem_singleton.1 hc]
        decide

mutual

/-- **What is written is a part of documents.** -/
theorem steady_write : ∀ doc : Doc, Steady (write doc)
  | .literal value => steady_literal value
  | .string text => steady_quote text
  | .array items => (steady_commas (steady_writeItems items)).bracket rfl rfl (by decide)
  | .object entries => (steady_commas (steady_writeEntries entries)).bracket rfl rfl (by decide)

theorem steady_writeItems : ∀ items : List Doc, ∀ text ∈ writeItems items, Steady text
  | [], _, h => by cases h
  | item :: rest, text, h => by
      rcases mem_cons.1 h with rfl | h
      · exact steady_write item
      · exact steady_writeItems rest text h

theorem steady_writeEntries :
    ∀ entries : List (String × Doc), ∀ text ∈ writeEntries entries, Steady text
  | [], _, h => by cases h
  | (key, item) :: rest, text, h => by
      rcases mem_cons.1 h with rfl | h
      · exact (steady_quote key).join (steady_write item) (Or.inr rfl)
      · exact steady_writeEntries rest text h

end

/-! ## Objects, whole and cut off -/

section Object

variable {entries : List (String × Doc)} {l : List Char}

theorem write_object (entries : List (String × Doc)) :
    write (.object entries) = openBrace :: commas (writeEntries entries) ++ [closeBrace] := by
  rw [write]

end Object

end JsonDocuments
