/-
# Values of a TOML file are read back

A setting is a string, a count, a truth value or a list of strings, and is written so that a line
end follows, or a comma or bracket inside a list.  The reader takes back the value and stops in
front of what follows (`value?_write`).

Counts and truth values are words.  A word is read as a date, a time or a fractional number before
it is read as a count, so for counts it has to be seen that they are none of these: dates and times
have other characters between their digits, and fractional numbers have a point or an exponent.
-/
import Collector.Proofs.Text.Literals
import Collector.Proofs.Toml.Strings
import Collector.Toml.Read
import Mathlib.Data.List.TakeWhile

namespace Collector
namespace Toml

/-! ## 1. Counts -/

variable {word : List Char}

/-- Digits to base 10 throughout. -/
def Digits (word : List Char) : Prop :=
  ∀ c ∈ word, c.isDigit = true

theorem Digits.not_mem (h : Digits word) {c : Char} (hc : c.isDigit = false) : c ∉ word := by
  intro hmem
  rw [h c hmem] at hc
  exact absurd hc nofun

theorem Digits.tail {c : Char} (h : Digits (c :: word)) : Digits word :=
  fun d hd => h d (List.mem_cons_of_mem c hd)

theorem Digits.drop (h : Digits word) (n : Nat) : Digits (word.drop n) :=
  fun c hc => h c (List.mem_of_mem_drop hc)

theorem digits_toDigits (n : Nat) : Digits (Nat.toDigits 10 n) :=
  Text.isDigit_toDigits n

theorem digits?_of_digits (h : Digits word) (hne : word ≠ []) :
    digits? Char.isDigit word = some word := by
  induction word with
  | nil => exact absurd rfl hne
  | cons c word ih =>
    have hc := h c List.mem_cons_self
    cases word with
    | nil => rw [digits?, if_pos hc]
    | cons d word =>
      have hscore : d ≠ '_' := by
        rintro rfl
        exact absurd (h.tail '_' List.mem_cons_self) (by decide)
      rw [digits?, if_pos hc, ih h.tail (List.cons_ne_nil d word)]
      · rfl
      · exact fun hd => absurd hd (List.cons_ne_nil d word)
      · exact fun _ hd => hscore (List.cons.inj hd).1

/-- Digits of a count begin with a zero only if that is all. -/
theorem toDigits_ne_zero_cons (n : Nat) (c : Char) (rest : List Char) :
    Nat.toDigits 10 n ≠ '0' :: c :: rest := by
  intro hdigits
  rcases Nat.eq_zero_or_pos n with rfl | hpos
  · exact absurd hdigits (by simp)
  · exact Language.head?_toDigits hpos (by rw [hdigits]; rfl)

theorem decimal?_toDigits (n : Nat) : decimal? (Nat.toDigits 10 n) = some (Nat.toDigits 10 n) := by
  rw [decimal?, digits?_of_digits (digits_toDigits n) Nat.toDigits_ne_nil]
  split
  · rename_i heq
    exact absurd (Option.some.inj heq) (toDigits_ne_zero_cons n _ _)
  · rfl

theorem unsign_of_digits (h : Digits word) : unsign word = (false, word) := by
  rw [unsign]
  · rintro rest rfl
    exact absurd (h '-' List.mem_cons_self) (by decide)
  · rintro rest rfl
    exact absurd (h '+' List.mem_cons_self) (by decide)

theorem fitting?_count {n : Nat} (hn : n < Nat.pow 2 63) : fitting? n = some (.int n) := by
  unfold fitting?
  generalize Nat.pow 2 63 = bound at hn
  exact if_pos ⟨by omega, by omega⟩

theorem integer?_toDigits {n : Nat} (hn : n < Nat.pow 2 63) :
    integer? (Nat.toDigits 10 n) = some (.int n) := by
  rw [integer?]
  · rw [unsign_of_digits (digits_toDigits n)]
    dsimp only
    rw [decimal?_toDigits, Option.bind_some, Text.numeral_toDigits, if_neg Bool.false_ne_true]
    exact fitting?_count hn
  · exact fun _ => toDigits_ne_zero_cons n _ _
  · exact fun _ => toDigits_ne_zero_cons n _ _
  · exact fun _ => toDigits_ne_zero_cons n _ _

/-- Behind digits comes no mark of a date or a time. -/
theorem after?_of_digits (h : Digits word) {c : Char} (hc : c.isDigit = false) :
    after? c word = none := by
  cases word with
  | nil => rfl
  | cons d word =>
    rw [after?, if_neg]
    rintro rfl
    exact h.not_mem hc List.mem_cons_self

theorem fixed?_of_digits (h : Digits word) (width : Nat) :
    fixed? width word = none ∨ ∃ n rest, fixed? width word = some (n, rest) ∧ Digits rest := by
  unfold fixed?
  dsimp only
  split_ifs
  · exact .inr ⟨_, _, rfl, h.drop width⟩
  · exact .inl rfl

theorem isMoment_of_digits (h : Digits word) : isMoment word = false := by
  have hdate : afterDate? word = none := by
    rcases fixed?_of_digits h 4 with hnone | ⟨year, rest, hyear, hrest⟩
    · simp [afterDate?, hnone]
    · simp [afterDate?, hyear, after?_of_digits hrest (c := '-') (by decide)]
  have htime : afterTime? word = none := by
    rcases fixed?_of_digits h 2 with hnone | ⟨hour, rest, hhour, hrest⟩
    · simp [afterTime?, hnone]
    · simp [afterTime?, hhour, after?_of_digits hrest (c := ':') (by decide)]
  rw [isMoment, hdate, htime]
  rfl

theorem splitAt_of_not_mem {isMark : Char → Bool} (h : ∀ c ∈ word, isMark c = false) :
    splitAt isMark word = (word, none) := by
  have hdrop : word.dropWhile (fun c => !isMark c) = [] := by
    rw [List.dropWhile_eq_nil_iff]
    exact fun c hc => by simp [h c hc]
  rw [splitAt, hdrop]

/-- Digits have neither a point nor an exponent. -/
theorem isFloat_of_digits (h : Digits word) : isFloat word = false := by
  have hinf : word ≠ "inf".toList := by
    rintro rfl
    exact absurd (h 'i' (by decide)) (by decide)
  have hnan : word ≠ "nan".toList := by
    rintro rfl
    exact absurd (h 'n' (by decide)) (by decide)
  have hexponent : splitAt (fun c => decide (c = 'e') || decide (c = 'E')) word = (word, none) := by
    refine splitAt_of_not_mem fun c hc => ?_
    have hlower : c ≠ 'e' := fun hce => h.not_mem (by decide) (hce ▸ hc)
    have hupper : c ≠ 'E' := fun hce => h.not_mem (by decide) (hce ▸ hc)
    simp [hlower, hupper]
  have hpoint : splitAt (fun c => decide (c = '.')) word = (word, none) := by
    refine splitAt_of_not_mem fun c hc => ?_
    have hne : c ≠ '.' := fun hce => h.not_mem (by decide) (hce ▸ hc)
    simp [hne]
  simp only [isFloat, unsign_of_digits h, hexponent, hpoint]
  rw [if_neg (by simpa only [Bool.or_eq_true, decide_eq_true_eq, not_or] using ⟨hinf, hnan⟩)]
  cases decimal? word with
  | none => rfl
  | some whole => simp

theorem scalar?_toDigits {n : Nat} (hn : n < Nat.pow 2 63) :
    scalar? (Nat.toDigits 10 n) = some (.int n) := by
  have hdigits := digits_toDigits n
  have htrue : Nat.toDigits 10 n ≠ "true".toList := fun h =>
    hdigits.not_mem (c := 't') (by decide) (h ▸ by decide)
  have hfalse : Nat.toDigits 10 n ≠ "false".toList := fun h =>
    hdigits.not_mem (c := 'f') (by decide) (h ▸ by decide)
  rw [scalar?, if_neg htrue, if_neg hfalse, isMoment_of_digits hdigits, isFloat_of_digits hdigits,
    if_neg (by decide), if_neg (by decide), integer?_toDigits hn]

/-! ## 2. Words and strings -/

/-- What may follow a value that has been written. -/
def AfterValue (rest : List Char) : Prop :=
  ∃ c more, rest = c :: more ∧ (c = '\n' ∨ c = ',' ∨ c = ']')

theorem afterValue_newline (rest : List Char) : AfterValue ('\n' :: rest) :=
  ⟨'\n', rest, rfl, .inl rfl⟩

theorem AfterValue.afterString {rest : List Char} (h : AfterValue rest) : AfterString rest := by
  obtain ⟨c, more, rfl, rfl | rfl | rfl⟩ := h
  all_goals exact ⟨by simp, by simp⟩

variable {rest : List Char} (fuel depth : Nat)

/-- What is taken and what is left of a text, up to the first character of another kind. -/
theorem takeWhile_dropWhile_append {isKind : Char → Bool} (hword : ∀ c ∈ word, isKind c = true)
    {c : Char} (hc : isKind c = false) (rest : List Char) :
    (word ++ c :: rest).takeWhile isKind = word ∧
      (word ++ c :: rest).dropWhile isKind = c :: rest := by
  constructor
  · exact Language.takeWhile_run hword (Language.stops_cons hc)
  · exact Language.dropWhile_run hword (Language.stops_cons hc)

theorem word?_append (hword : ∀ c ∈ word, isWordChar c = true) (hrest : AfterValue rest) :
    word? (word ++ rest) = (scalar? word).map (·, rest) := by
  obtain ⟨c, more, rfl, hc⟩ := hrest
  have hother : isWordChar c = false ∧ c ≠ ' ' := by
    rcases hc with rfl | rfl | rfl
    all_goals decide
  obtain ⟨htake, hdrop⟩ := takeWhile_dropWhile_append hword hother.1 more
  rw [word?, htake, hdrop]
  split
  · rename_i heq
    exact absurd (List.cons.inj heq).1 hother.2
  · rfl

theorem value?_word (hword : ∀ c ∈ word, isWordChar c = true) (hne : word ≠ [])
    (hrest : AfterValue rest) :
    value? (fuel + 1) depth (word ++ rest) = (scalar? word).map (·, rest) := by
  rw [← word?_append hword hrest]
  cases word with
  | nil => exact absurd rfl hne
  | cons c word =>
    have hc := hword c List.mem_cons_self
    have hmark {d : Char} (hd : isWordChar d = false) : c ≠ d := by
      rintro rfl
      rw [hc] at hd
      exact absurd hd nofun
    rw [List.cons_append, value?]
    · exact fun _ h => hmark (by decide) (List.cons.inj h).1
    · exact fun _ h => hmark (by decide) (List.cons.inj h).1
    · exact fun _ _ h => absurd (List.cons.inj h).1 (hmark (by decide))
    · exact fun _ _ h => absurd (List.cons.inj h).1 (hmark (by decide))

/-- A string begins with a mark. -/
theorem writeString_head (s : List Char) :
    ∃ text, writeString s = '"' :: text ∨ writeString s = '\'' :: text := by
  unfold writeString
  cases formOf s with
  | basic => exact ⟨_, .inl rfl⟩
  | literal => exact ⟨_, .inr rfl⟩
  | multiBasic => exact ⟨'"' :: '"' :: (leadIn s ++ escapeMulti 0 s ++ "\"\"\"".toList), .inl rfl⟩
  | multiLiteral => exact ⟨'\'' :: '\'' :: (leadIn s ++ s ++ "'''".toList), .inr rfl⟩

theorem value?_string (s : List Char) (hrest : AfterString rest) :
    value? (fuel + 1) depth (writeString s ++ rest) = some (.str (String.ofList s), rest) := by
  have hread := string?_writeString s hrest
  obtain ⟨text, htext | htext⟩ := writeString_head s
  · rw [htext, List.cons_append] at hread ⊢
    rw [value?, hread]
    rfl
  · rw [htext, List.cons_append] at hread ⊢
    rw [value?, hread]
    rfl

/-! ## 3. Lists -/

theorem skipLines_of_head {c : Char} (hc : c ≠ '\n' ∧ c ≠ '\r' ∧ c ≠ '#' ∧ isSpace c = false)
    (rest : List Char) : skipLines false (c :: rest) = c :: rest := by
  obtain ⟨hline, hreturn, hcomment, hspace⟩ := hc
  rw [skipLines, if_neg hcomment, if_neg (by simp [hspace])]
  · exact hline
  · exact fun _ h => absurd h hreturn

theorem skipLines_writeString (s rest : List Char) :
    skipLines false (writeString s ++ rest) = writeString s ++ rest := by
  obtain ⟨text, htext | htext⟩ := writeString_head s
  · rw [htext]
    exact skipLines_of_head (by decide) _
  · rw [htext]
    exact skipLines_of_head (by decide) _

theorem skipLines_indent (text : List Char) :
    skipLines false ("\n    ".toList ++ text) = skipLines false text := rfl

/-- A string in a list, with what follows it. -/
theorem items?_string (s : List Char) {c : Char} (hc : c = ',' ∨ c = ']') (rest : List Char) :
    items? (fuel + 2) depth (writeString s ++ c :: rest) =
      if c = ',' then
        (items? (fuel + 1) depth rest).map fun (items, rest) =>
          (.str (String.ofList s) :: items, rest)
      else some ([.str (String.ofList s)], rest) := by
  have hvalue : value? (fuel + 1) depth (writeString s ++ c :: rest) =
      some (.str (String.ofList s), c :: rest) := by
    refine value?_string fuel depth s (AfterValue.afterString ⟨c, rest, rfl, .inr hc⟩)
  have hskip : skipLines false (c :: rest) = c :: rest := by
    rcases hc with rfl | rfl
    · exact skipLines_of_head (by decide) rest
    · exact skipLines_of_head (by decide) rest
  rw [items?, skipLines_writeString]
  split
  · rename_i heq
    obtain ⟨text, htext | htext⟩ := writeString_head s
    · rw [htext] at heq
      exact absurd (List.cons.inj heq).1 (by decide)
    · rw [htext] at heq
      exact absurd (List.cons.inj heq).1 (by decide)
  · simp only [hvalue, Option.bind_eq_bind, Option.bind_some, hskip]
    rcases hc with rfl | rfl
    · rfl
    · rfl

theorem items?_indent (text : List Char) :
    items? fuel depth ("\n    ".toList ++ text) = items? fuel depth text := by
  cases fuel with
  | zero => rfl
  | succ fuel => rw [items?, items?, skipLines_indent]

/-- The strings of a list, each on a line of its own. -/
theorem items?_lines (items : List String) (rest : List Char) {fuel : Nat}
    (hfuel : items.length < fuel) :
    items? fuel depth
        (items.flatMap (fun item => "\n    ".toList ++ writeString item.toList ++ [',']) ++
          '\n' :: ']' :: rest) =
      some (items.map .str, rest) := by
  induction items generalizing fuel with
  | nil =>
    obtain ⟨fuel, rfl⟩ := Nat.exists_eq_add_of_lt hfuel
    rfl
  | cons item items ih =>
    obtain ⟨n, rfl⟩ : ∃ n, fuel = n + 2 := ⟨fuel - 2, by simp at hfuel; omega⟩
    rw [List.flatMap_cons, List.append_assoc, List.append_assoc, List.append_assoc, items?_indent,
      List.singleton_append, items?_string n depth item.toList (.inl rfl), if_pos rfl,
      ih (by simpa using hfuel), String.ofList_toList]
    rfl

/-- A list is read in any of its layouts. -/
theorem value?_list (items : List String) {fuel : Nat} (hfuel : items.length + 1 < fuel) :
    value? (fuel + 1) (depth + 1) (writeList items ++ rest) =
      some (.arr (items.map .str), rest) := by
  obtain ⟨n, rfl⟩ : ∃ n, fuel = n + 2 := ⟨fuel - 2, by omega⟩
  have hvalue (text : List Char) : value? (n + 3) (depth + 1) ('[' :: text) =
      (items? (n + 2) depth text).map fun (items, rest) => (.arr items, rest) := by
    rw [value?]
  match items with
  | [] => rfl
  | [item] =>
    rw [writeList, List.cons_append, List.cons_append, hvalue, List.append_assoc,
      List.singleton_append, items?_string n depth item.toList (.inr rfl), if_neg (by decide),
      String.ofList_toList]
    rfl
  | first :: second :: more =>
    have hlines := items?_lines depth (first :: second :: more) rest (Nat.lt_of_succ_lt hfuel)
    rw [writeList, List.cons_append, List.cons_append, hvalue, List.append_assoc]
    · rw [List.cons_append, List.singleton_append, hlines]
      rfl
    · exact fun h => absurd h (List.cons_ne_nil _ _)
    · exact fun item h => absurd (List.cons.inj h).2 (List.cons_ne_nil _ _)

/-- A list is longer than the number of its items. -/
theorem length_lt_writeList (items : List String) :
    items.length + 1 < (writeList items).length := by
  have hstring (item : String) : 1 ≤ (writeString item.toList).length := by
    obtain ⟨text, htext | htext⟩ := writeString_head item.toList
    all_goals simp [htext]
  match items with
  | [] => decide
  | [item] =>
    have := hstring item
    simp [writeList]
    omega
  | first :: second :: more =>
    have hlines : (first :: second :: more).length ≤ ((first :: second :: more).flatMap
        (fun item => "\n    ".toList ++ writeString item.toList ++ [','])).length := by
      generalize first :: second :: more = items
      induction items with
      | nil => exact Nat.zero_le _
      | cons item items ih =>
        rw [List.flatMap_cons, List.length_append, List.length_cons]
        simp only [List.length_append, List.length_singleton] at ih ⊢
        omega
    rw [writeList]
    · simp only [List.length_cons, List.length_append, List.length_nil] at hlines ⊢
      omega
    · exact fun h => absurd h (List.cons_ne_nil _ _)
    · exact fun item h => absurd (List.cons.inj h).2 (List.cons_ne_nil _ _)

/-! ## 4. Settings -/

/-- The value of a setting. -/
def Setting.toml : Setting → Toml
  | .str s => .str s
  | .count n => .int n
  | .bool b => .bool b
  | .strs items => .arr (items.map .str)

/-- **A setting is read back**, up to the end of its line. -/
theorem value?_write (setting : Setting) (hwritable : setting.isWritable = true) {fuel : Nat}
    (hfuel : setting.write.length < fuel) (rest : List Char) :
    value? fuel (depth + 1) (setting.write ++ '\n' :: rest) =
      some (setting.toml, '\n' :: rest) := by
  have hrest := afterValue_newline rest
  obtain ⟨fuel, rfl⟩ : ∃ n, fuel = n + 1 := ⟨fuel - 1, by omega⟩
  cases setting with
  | str s =>
    rw [Setting.write, value?_string fuel (depth + 1) s.toList hrest.afterString,
      String.ofList_toList]
    rfl
  | count n =>
    have hword : ∀ c ∈ Nat.toDigits 10 n, isWordChar c = true := by
      intro c hc
      simp [isWordChar, Char.isAlphanum, digits_toDigits n c hc]
    have hn : n < Nat.pow 2 63 := by simpa [Setting.isWritable] using hwritable
    rw [Setting.write, value?_word fuel (depth + 1) hword Nat.toDigits_ne_nil hrest,
      scalar?_toDigits hn]
    rfl
  | bool b =>
    cases b with
    | true =>
      have hword : ∀ c ∈ "true".toList, isWordChar c = true := List.all_eq_true.mp (by decide)
      exact value?_word fuel (depth + 1) hword (by decide) hrest
    | false =>
      have hword : ∀ c ∈ "false".toList, isWordChar c = true := List.all_eq_true.mp (by decide)
      exact value?_word fuel (depth + 1) hword (by decide) hrest
  | strs items =>
    have hlength := length_lt_writeList items
    exact value?_list depth items (by simp only [Setting.write] at hfuel; omega)

end Toml
end Collector
