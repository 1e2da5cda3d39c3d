/-
# Reading literals

Values are written in two languages: as JSON, and as the literals of Python.  Here is how a reader
of either language takes a value from the front of a text (`value?`), as far as the languages
can express the values at all: words for the constants, counts without zeros in front, strings with
their escapes, and lists and records with their marks.  Between the marks there may be blanks and
line ends.  The two differ in their words and in the letters that they know behind a backslash.

The reader is written from the rules of the languages and knows nothing of how values are
written.  What is settled here is that it takes back what has been written of the parts: strings
(`body?_chars`), counts (`number?_toDigits`) and words (`word?_null` and the others).
-/
import Collector.Proofs.Text.Digits
import Collector.Text.Json
import Mathlib.Data.List.Basic
import Mathlib.Tactic.SplitIfs

namespace Collector

/-- The languages in which values are written. -/
inductive Language where
  | json
  | python
deriving Repr, DecidableEq

namespace Language

/-- How indented texts are written in a language. -/
def layout : Language → Json.Layout
  | .json => .json
  | .python => .python

/-- The words for the constants. -/
def words : Language → List (String × Json)
  | .json => [("null", .null), ("true", .bool true), ("false", .bool false)]
  | .python => [("None", .null), ("True", .bool true), ("False", .bool false)]

/-- The letters that stand for other characters behind a backslash in both languages. -/
def commonLetters : List (Char × Char) :=
  [('"', '"'), ('\\', '\\'), ('b', Char.ofNat 0x08), ('f', Char.ofNat 0x0C), ('n', '\n'),
   ('r', '\r'), ('t', '\t')]

/-- The letters that stand for other characters behind a backslash. -/
def letters : Language → List (Char × Char)
  | .json => commonLetters ++ [('/', '/')]
  | .python => commonLetters

/-! ## 1. Reading -/

/-- A blank or a line end, as it may stand between the marks. -/
def isGap (c : Char) : Bool :=
  c = ' ' || c = '\t' || c = '\n' || c = '\r'

/-- The text from the next character on that is no gap. -/
def skip (text : List Char) : List Char :=
  text.dropWhile isGap

/-- The text behind a mark, if that is what comes next. -/
def mark? (mark : Char) (text : List Char) : Option (List Char) :=
  match skip text with
  | c :: rest => if c = mark then some rest else none
  | [] => none

/-- The character with a number in four digits to base 16.  Halves of characters are none. -/
def unit? (digits : List Char) : Option Char :=
  if digits.all Text.isHexDigit && decide (Text.numeral 16 digits).isValidChar then
    some (Char.ofNat (Text.numeral 16 digits))
  else none

/-- The characters of a string up to its closing mark, and the text behind. -/
def body? (lang : Language) : List Char → Option (List Char × List Char)
  | [] => none
  | '"' :: rest => some ([], rest)
  | '\\' :: 'u' :: d₁ :: d₂ :: d₃ :: d₄ :: rest => do
    let c ← unit? [d₁, d₂, d₃, d₄]
    let (body, rest) ← body? lang rest
    return (c :: body, rest)
  | '\\' :: letter :: rest => do
    let c ← lang.letters.lookup letter
    let (body, rest) ← body? lang rest
    return (c :: body, rest)
  | c :: rest =>
    if c.toNat < 0x20 then none
    else do
      let (body, rest) ← body? lang rest
      return (c :: body, rest)

/-- A count to base 10, and the text behind.  Only the count zero begins with a zero. -/
def number? (text : List Char) : Option (Nat × List Char) :=
  let digits := text.takeWhile Char.isDigit
  if digits = [] ∨ digits.head? = some '0' ∧ digits ≠ ['0'] then none
  else some (Nat.ofDigitChars 10 digits 0, text.dropWhile Char.isDigit)

/-- A constant, and the text behind its word. -/
def word? (lang : Language) (text : List Char) : Option (Json × List Char) :=
  lang.words.findSome? fun (word, value) =>
    if word.toList.isPrefixOf text then some (value, text.drop word.length) else none

/-- Entries with commas between them up to a closing mark, and the text behind; at most `n`, each
taken by a reader for entries. -/
def entries? {α : Type} (take? : List Char → Option (α × List Char)) (close : Char) :
    (n : Nat) → List Char → Option (List α × List Char)
  | 0, _ => none
  | n + 1, text => do
    let (first, rest) ← take? (skip text)
    match mark? ',' rest with
    | some rest =>
      let (more, rest) ← entries? take? close n rest
      return (first :: more, rest)
    | none => return ([first], ← mark? close rest)

/-- A name and its value, taken by a reader for values. -/
def member? (lang : Language) (take? : List Char → Option (Json × List Char))
    (text : List Char) : Option ((String × Json) × List Char) := do
  let (name, rest) ← body? lang (← mark? '"' text)
  let (value, rest) ← take? (skip (← mark? ':' rest))
  return ((String.ofList name, value), rest)

/-- A value at the front of a text, and the text behind.  Lists and records are followed `n` deep,
and `n` entries far. -/
def value? (lang : Language) : (n : Nat) → List Char → Option (Json × List Char)
  | 0, _ => none
  | n + 1, text =>
    match text with
    | [] => none
    | '"' :: rest => (body? lang rest).map fun (s, rest) => (.str (String.ofList s), rest)
    | '[' :: rest =>
      match mark? ']' rest with
      | some rest => some (.arr [], rest)
      | none => (entries? (value? lang n) ']' n rest).map fun (items, rest) => (.arr items, rest)
    | '{' :: rest =>
      match mark? '}' rest with
      | some rest => some (.obj [], rest)
      | none =>
        (entries? (member? lang (value? lang n)) '}' n rest).map fun (members, rest) =>
          (.obj members, rest)
    | c :: rest =>
      if c.isDigit then (number? (c :: rest)).map fun (n, rest) => (.num n, rest)
      else word? lang (c :: rest)

/-- The value that a text is a literal of.  No part of a text is deeper or longer than the text. -/
def read? (lang : Language) (text : String) : Option Json :=
  match value? lang text.toList.length (skip text.toList) with
  | some (value, rest) => if skip rest = [] then some value else none
  | none => none

/-! ## 2. Gaps and marks -/

theorem skip_append {gap : List Char} (hgap : ∀ c ∈ gap, isGap c) (text : List Char) :
    skip (gap ++ text) = skip text :=
  List.dropWhile_append_of_pos hgap

theorem skip_cons {c : Char} (hc : isGap c = false) (rest : List Char) :
    skip (c :: rest) = c :: rest := by
  rw [skip, List.dropWhile_cons_of_neg (by rw [hc]; decide)]

theorem mark?_cons {mark : Char} (hmark : isGap mark = false) (rest : List Char) :
    mark? mark (mark :: rest) = some rest := by
  rw [mark?, skip_cons hmark]
  exact if_pos rfl

theorem mark?_append {gap : List Char} (hgap : ∀ c ∈ gap, isGap c) {mark : Char}
    (hmark : isGap mark = false) (rest : List Char) :
    mark? mark (gap ++ mark :: rest) = some rest := by
  rw [mark?, skip_append hgap, ← mark?, mark?_cons hmark]

theorem mark?_ne {gap : List Char} (hgap : ∀ c ∈ gap, isGap c) {mark c : Char}
    (hc : isGap c = false) (hne : c ≠ mark) (rest : List Char) :
    mark? mark (gap ++ c :: rest) = none := by
  rw [mark?, skip_append hgap, skip_cons hc]
  exact if_neg hne

/-! ## 3. Strings -/

/-- The number of a control character is read back. -/
theorem unit?_control {n : Nat} (h : n < 0x20) :
    unit? ['0', '0', Json.hexDigit (n / 16), Json.hexDigit (n % 16)] = some (Char.ofNat n) := by
  have hall : ∀ n < 0x20,
      unit? ['0', '0', Json.hexDigit (n / 16), Json.hexDigit (n % 16)] = some (Char.ofNat n) := by
    decide
  exact hall n h

/-- A letter that both languages know. -/
theorem lookup_letters (lang : Language) {letter c : Char}
    (h : commonLetters.lookup letter = some c) : lang.letters.lookup letter = some c := by
  cases lang with
  | json => rw [letters, List.lookup_append, h, Option.some_or]
  | python => exact h

theorem body?_letter (lang : Language) {letter c : Char}
    (h : commonLetters.lookup letter = some c) (hu : letter ≠ 'u') (rest : List Char) :
    body? lang ('\\' :: letter :: rest) =
      (body? lang rest).map fun (body, rest) => (c :: body, rest) := by
  rw [body?]
  · rw [lookup_letters lang h]
    cases body? lang rest <;> rfl
  · exact fun _ _ _ _ _ hletter => absurd hletter hu

/-- **What stands for a character is read as the character**, whether it is the character itself, a
letter or a number. -/
theorem body?_escapeChar (lang : Language) (c : Char) (rest : List Char) :
    body? lang (Json.escapeChar c ++ rest) =
      (body? lang rest).map fun (body, rest) => (c :: body, rest) := by
  unfold Json.escapeChar
  split_ifs with hmark hbackslash hlf hcr htab hbackspace hfeed hcontrol
  · subst hmark
    exact body?_letter lang rfl (by decide) rest
  · subst hbackslash
    exact body?_letter lang rfl (by decide) rest
  · subst hlf
    exact body?_letter lang rfl (by decide) rest
  · subst hcr
    exact body?_letter lang rfl (by decide) rest
  · subst htab
    exact body?_letter lang rfl (by decide) rest
  · have hc : c = Char.ofNat 0x08 := by rw [← hbackspace, Char.ofNat_toNat]
    subst hc
    exact body?_letter lang rfl (by decide) rest
  · have hc : c = Char.ofNat 0x0C := by rw [← hfeed, Char.ofNat_toNat]
    subst hc
    exact body?_letter lang rfl (by decide) rest
  · simp only [List.cons_append, List.nil_append]
    rw [body?, unit?_control hcontrol, Char.ofNat_toNat]
    cases body? lang rest <;> rfl
  · rw [List.singleton_append, body?, if_neg hcontrol]
    · cases body? lang rest <;> rfl
    · exact hmark
    · exact fun _ _ _ _ _ hc => absurd hc hbackslash
    · exact fun _ _ hc => absurd hc hbackslash

/-- A string is read up to its closing mark. -/
theorem body?_chars (lang : Language) (s rest : List Char) :
    body? lang (s.flatMap Json.escapeChar ++ '"' :: rest) = some (s, rest) := by
  induction s with
  | nil => rfl
  | cons c s ih =>
    rw [List.flatMap_cons, List.append_assoc, body?_escapeChar, ih]
    rfl

/-! ## 4. Runs of characters -/

/-- The text does not go on with a character of this kind. -/
def Stops (isKind : Char → Bool) (rest : List Char) : Prop :=
  ∀ c ∈ rest.head?, isKind c = false

section Runs

variable {isKind : Char → Bool} {run other rest after : List Char}

theorem stops_nil : Stops isKind [] :=
  fun _ hc => absurd hc nofun

theorem stops_cons {c : Char} (hc : isKind c = false) : Stops isKind (c :: rest) := by
  intro d hd
  obtain rfl : c = d := Option.some.inj hd
  exact hc

theorem Stops.take (h : Stops isKind rest) (n : Nat) : Stops isKind (rest.take n) := by
  intro c hc
  rw [List.head?_take] at hc
  split at hc
  · exact absurd hc nofun
  · exact h c hc

theorem takeWhile_run (hrun : ∀ c ∈ run, isKind c = true) (hrest : Stops isKind rest) :
    (run ++ rest).takeWhile isKind = run := by
  rw [List.takeWhile_append_of_pos hrun]
  cases rest with
  | nil => exact List.append_nil run
  | cons c rest =>
    rw [List.takeWhile_cons_of_neg (by simp [hrest c rfl]), List.append_nil]

theorem dropWhile_run (hrun : ∀ c ∈ run, isKind c = true) (hrest : Stops isKind rest) :
    (run ++ rest).dropWhile isKind = rest := by
  rw [List.dropWhile_append_of_pos hrun]
  cases rest with
  | nil => rfl
  | cons c rest => rw [List.dropWhile_cons_of_neg (by simp [hrest c rfl])]

/-- A text begins with one longest run of a kind. -/
theorem run_unique (hrun : ∀ c ∈ run, isKind c = true) (hother : ∀ c ∈ other, isKind c = true)
    (hrest : Stops isKind rest) (hafter : Stops isKind after)
    (h : run ++ rest = other ++ after) : run = other ∧ rest = after := by
  have hsame : run = other := by
    rw [← takeWhile_run hrun hrest, h, takeWhile_run hother hafter]
  subst hsame
  exact ⟨rfl, List.append_cancel_left h⟩

end Runs

/-! ## 5. Counts and words -/

/-- The text goes on with something else than a digit, or not at all. -/
def Ended (rest : List Char) : Prop :=
  rest.takeWhile Char.isDigit = []

theorem ended_nil : Ended [] := rfl

theorem ended_cons {c : Char} (hc : c.isDigit = false) (rest : List Char) : Ended (c :: rest) := by
  rw [Ended, List.takeWhile_cons_of_neg (by rw [hc]; decide)]

theorem Ended.stops {rest : List Char} (h : Ended rest) : Stops Char.isDigit rest := by
  cases rest with
  | nil => exact stops_nil
  | cons c rest =>
    refine stops_cons (Bool.eq_false_iff.mpr ?_)
    intro hc
    rw [Ended, List.takeWhile_cons_of_pos hc] at h
    exact absurd h (List.cons_ne_nil _ _)

/-- Only the digits of zero begin with a zero.  The induction is on the count, a digit at a time. -/
theorem head?_toDigits {n : Nat} (hn : 0 < n) : (Nat.toDigits 10 n).head? ≠ some '0' := by
  induction n using Nat.strongRecOn with
  | ind n ih =>
    rcases Nat.lt_or_ge n 10 with hlt | hge
    · have hall : ∀ n < 10, 0 < n → some n.digitChar ≠ some '0' := by decide
      rw [Nat.toDigits_of_lt_base hlt]
      exact hall n hlt hn
    · rw [Nat.toDigits_of_base_le (by decide) hge,
        List.head?_append_of_ne_nil _ Nat.toDigits_ne_nil]
      exact ih (n / 10) (by omega) (by omega)

/-- **A count is read up to its last digit.** -/
theorem number?_toDigits (n : Nat) {rest : List Char} (hrest : Ended rest) :
    number? (Nat.toDigits 10 n ++ rest) = some (n, rest) := by
  have hdigits := takeWhile_run (Text.isDigit_toDigits n) hrest.stops
  have hbehind := dropWhile_run (Text.isDigit_toDigits n) hrest.stops
  rw [number?, hdigits, hbehind, Nat.ofDigitChars_toDigits (by decide) (by decide), if_neg]
  rintro (hnil | ⟨hzero, hmore⟩)
  · exact Nat.toDigits_ne_nil hnil
  · rcases Nat.eq_zero_or_pos n with rfl | hpos
    · exact hmore (Nat.toDigits_zero 10)
    · exact head?_toDigits hpos hzero

theorem word?_null (lang : Language) (rest : List Char) :
    word? lang ((layout lang).null.toList ++ rest) = some (.null, rest) := by
  cases lang with
  | json => rfl
  | python => rfl

theorem word?_yes (lang : Language) (rest : List Char) :
    word? lang ((layout lang).yes.toList ++ rest) = some (.bool true, rest) := by
  cases lang with
  | json => rfl
  | python => rfl

theorem word?_no (lang : Language) (rest : List Char) :
    word? lang ((layout lang).no.toList ++ rest) = some (.bool false, rest) := by
  cases lang with
  | json => rfl
  | python => rfl

end Language
end Collector
