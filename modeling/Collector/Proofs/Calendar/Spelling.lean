/-
# The spellings of a date

A date is read from more texts than it is written as.  What may be varied is the blanks in front of
each number, the sign of the year and how many digits the numbers have (`Spelling`).  A text is read
as a date exactly if it is a spelling of that date (`read?_eq_some_iff`).

Dates are written in full spellings only, which have no blanks, and zeros up to a fixed width and no
further (`Spelling.Full`).  As a text is spelled in one way at most (`Spelling.text_injective`), it
can be told from its spelling whether it is how a date is written: exactly if the spelling is full
(`Spelling.format_iff_full`).
-/
import Collector.Calendar.Date
import Collector.Proofs.Toml.Values
import Mathlib.Algebra.Group.Nat.Defs
import Mathlib.Data.List.Induction

namespace Collector
namespace Calendar

open Collector.Language
open Toml (Digits)

/-! ## 1. Numbers and their width -/

section Numbers

variable {digits rest : List Char} {most width : Nat}

/-- A number is read to its last digit, if there is room for it. -/
theorem takeNumber?_append (hdigits : Digits digits) (hne : digits ≠ [])
    (hmost : digits.length ≤ most) (hrest : Stops Char.isDigit rest) :
    Text.takeNumber? most (digits ++ rest) = some (Text.numeral 10 digits, rest) := by
  have htaken : ((digits ++ rest).take most).takeWhile Char.isDigit = digits := by
    rw [List.take_append, List.take_of_length_le hmost]
    exact takeWhile_run hdigits (hrest.take _)
  rw [Text.takeNumber?, htaken, if_neg (by simpa using hne), List.drop_left]

theorem takeNumber?_eq_some {text : List Char} {n : Nat}
    (h : Text.takeNumber? most text = some (n, rest)) :
    ∃ digits, text = digits ++ rest ∧ Digits digits ∧ digits ≠ [] ∧ digits.length ≤ most ∧
      Text.numeral 10 digits = n := by
  unfold Text.takeNumber? at h
  dsimp only at h
  split at h
  · exact absurd h nofun
  · rename_i hne
    obtain ⟨rfl, rfl⟩ := Prod.mk.inj (Option.some.inj h)
    have hfront := List.takeWhile_prefix (l := text.take most) Char.isDigit
    refine ⟨(text.take most).takeWhile Char.isDigit, ?_, ?_, ?_, ?_, rfl⟩
    · exact (List.prefix_iff_eq_append.mp (hfront.trans (List.take_prefix most text))).symm
    · exact fun c hc => List.mem_takeWhile_imp hc
    · simpa using hne
    · exact hfront.length_le.trans (List.length_take_le most text)

theorem numeral_append_singleton (digits : List Char) (c : Char) :
    Text.numeral 10 (digits ++ [c]) = 10 * Text.numeral 10 digits + Text.digitValue c := by
  rw [Text.numeral, List.foldl_append, Nat.mul_comm]
  rfl

theorem isDigit_bounds {c : Char} (hc : c.isDigit = true) : 48 ≤ c.toNat ∧ c.toNat ≤ 57 :=
  Char.isDigit_iff_toNat.mp hc

theorem digitValue_lt {c : Char} (hc : c.isDigit = true) : Text.digitValue c < 10 := by
  have hvalue : Text.digitValue c = c.toNat - 48 := if_pos hc
  have hmost := (isDigit_bounds hc).2
  omega

theorem toDigits_digitValue {c : Char} (hc : c.isDigit = true) :
    Nat.toDigits 10 (Text.digitValue c) = [c] := by
  have hchars : ∀ n < 10, Nat.digitChar n = Char.ofNat (n + 48) := by decide
  have hvalue : Text.digitValue c = c.toNat - 48 := if_pos hc
  rw [Nat.toDigits_of_lt_base (digitValue_lt hc), hchars _ (digitValue_lt hc), hvalue,
    Nat.sub_add_cancel (isDigit_bounds hc).1, Char.ofNat_toNat]

/-- Digits that do not begin with a zero are the digits of their number.  The induction is on the
digits behind the first, from the end, as each makes the number ten times as large. -/
theorem toDigits_numeral {c : Char} (hc : c ≠ '0') (h : Digits (c :: digits)) :
    Nat.toDigits 10 (Text.numeral 10 (c :: digits)) = c :: digits := by
  induction digits using List.reverseRecOn with
  | nil =>
    have hone : Text.numeral 10 [c] = Text.digitValue c := by simp [Text.numeral]
    rw [hone, toDigits_digitValue (h c List.mem_cons_self)]
  | append_singleton digits d ih =>
    have hfront : Digits (c :: digits) := fun e he => h e (List.mem_append_left [d] he)
    have hd : d.isDigit = true := h d (by simp)
    have hpos : 0 < Text.numeral 10 (c :: digits) := by
      refine Nat.pos_of_ne_zero ?_
      intro hzero
      have hdigits := ih hfront
      rw [hzero, Nat.toDigits_zero] at hdigits
      exact hc (List.cons.inj hdigits).1.symm
    rw [← List.cons_append, numeral_append_singleton,
      ← Nat.toDigits_append_toDigits (by decide) hpos (digitValue_lt hd), ih hfront,
      toDigits_digitValue hd]

theorem length_padded (width n : Nat) :
    (Text.padded width n).length = max width (Nat.toDigits 10 n).length := by
  rw [Text.padded, List.length_append, List.length_replicate]
  omega

theorem digits_padded (width n : Nat) : Digits (Text.padded width n) := by
  intro c hc
  rcases List.mem_append.mp hc with hzero | hdigit
  · rw [List.eq_of_mem_replicate hzero]
    rfl
  · exact Toml.digits_toDigits n c hdigit

theorem numeral_padded (width n : Nat) : Text.numeral 10 (Text.padded width n) = n := by
  rw [Text.numeral_of_digits (digits_padded width n), Text.padded, Nat.ofDigitChars_append,
    Nat.ofDigitChars_replicate_zero, Nat.mul_zero,
    Nat.ofDigitChars_toDigits (by decide) (by decide)]

/-- The digits go up to the width, and further only without a zero in front. -/
def Wide (width : Nat) (digits : List Char) : Prop :=
  digits.length = width ∨ width < digits.length ∧ digits.head? ≠ some '0'

theorem wide_padded (width n : Nat) (hwidth : 0 < width) : Wide width (Text.padded width n) := by
  rcases Nat.lt_or_ge width (Nat.toDigits 10 n).length with hlt | hge
  · have hpos : 0 < n := by
      refine Nat.pos_of_ne_zero ?_
      rintro rfl
      rw [Nat.toDigits_zero, List.length_singleton] at hlt
      omega
    have hpadded : Text.padded width n = Nat.toDigits 10 n := by
      rw [Text.padded, Nat.sub_eq_zero_of_le hlt.le]
      rfl
    rw [hpadded]
    exact .inr ⟨hlt, Language.head?_toDigits hpos⟩
  · exact .inl (by rw [length_padded]; omega)

theorem padded_succ {n : Nat} (h : (Nat.toDigits 10 n).length ≤ width) :
    Text.padded (width + 1) n = '0' :: Text.padded width n := by
  rw [Text.padded, Text.padded, Nat.succ_sub h, List.replicate_succ, List.cons_append]

/-- **Digits of the right width are what their number is written as.**  The induction takes off the
zeros in front, and stops with what is written without any. -/
theorem padded_numeral (h : Digits digits) (hne : digits ≠ []) (hwide : Wide width digits) :
    Text.padded width (Text.numeral 10 digits) = digits := by
  induction digits generalizing width with
  | nil => exact absurd rfl hne
  | cons c digits ih =>
    by_cases hzero : c = '0'
    · subst hzero
      have hwidth : width = digits.length + 1 :=
        (hwide.resolve_right fun hmore => hmore.2 rfl).symm
      subst hwidth
      have hsame : Text.numeral 10 ('0' :: digits) = Text.numeral 10 digits := rfl
      rw [hsame]
      cases digits with
      | nil => rfl
      | cons d digits =>
        have hrest := ih h.tail (List.cons_ne_nil d digits) (.inl rfl)
        have hlength := congrArg List.length hrest
        rw [length_padded] at hlength
        rw [padded_succ (by omega), hrest]
    · have hlong : width ≤ (c :: digits).length := by
        rcases hwide with heq | hmore
        · exact heq.ge
        · exact hmore.1.le
      rw [Text.padded, toDigits_numeral hzero h, Nat.sub_eq_zero_of_le hlong]
      rfl

end Numbers

/-! ## 2. Spellings -/

/-- The sign in front of a year. -/
inductive Sign where
  | none
  | plus
  | minus
deriving Repr, DecidableEq

namespace Sign

def text : Sign → List Char
  | none => []
  | plus => ['+']
  | minus => ['-']

/-- The year of a number with this sign. -/
def year : Sign → Nat → Int
  | none, n => n
  | plus, n => n
  | minus, n => -n

end Sign

/-- A number of a date with the blanks in front of it. -/
@[ext]
structure Part where
  blanks : List Char
  digits : List Char
  isBlank : ∀ c ∈ blanks, Text.isBlank c = true
  isDigit : Digits digits
  ne_nil : digits ≠ []

def Part.number (part : Part) : Nat :=
  Text.numeral 10 part.digits

/-- What is read as a year, a month and a day.  The sign stands behind the blanks of the year, and
only behind a sign is there room for any number of digits. -/
@[ext]
structure Spelling where
  sign : Sign
  year : Part
  month : Part
  day : Part
  roomYear : sign = .none → year.digits.length ≤ 4
  roomMonth : month.digits.length ≤ 2
  roomDay : day.digits.length ≤ 2

namespace Spelling

/-- The text that is spelled. -/
def text (s : Spelling) : List Char :=
  s.year.blanks ++ (s.sign.text ++ (s.year.digits ++
    '-' :: (s.month.blanks ++ (s.month.digits ++ '-' :: (s.day.blanks ++ s.day.digits)))))

/-- The numbers are those of the date. -/
structure Names (s : Spelling) (date : Date) : Prop where
  year : s.sign.year s.year.number = date.year
  month : s.month.number = date.month
  day : s.day.number = date.day

/-- Nothing is left out of the spelling, and nothing is in it without need: there are no blanks, the
numbers have their width, and the year has a sign only if it is negative or too long. -/
structure Full (s : Spelling) : Prop where
  noBlanks : s.year.blanks = [] ∧ s.month.blanks = [] ∧ s.day.blanks = []
  year : Wide 4 s.year.digits
  plus : s.sign = .plus → s.year.digits.length ≠ 4
  minus : s.sign = .minus → s.year.digits ≠ "0000".toList
  month : s.month.digits.length = 2
  day : s.day.digits.length = 2

end Spelling

/-! ## 3. Spellings are what is read -/

def isSign (c : Char) : Bool :=
  c = '+' || c = '-'

theorem isSign_of_isDigit {c : Char} (hc : c.isDigit = true) : isSign c = false := by
  have hplus : c ≠ '+' := by
    rintro rfl
    exact absurd hc (by decide)
  have hminus : c ≠ '-' := by
    rintro rfl
    exact absurd hc (by decide)
  simp [isSign, hplus, hminus]

theorem exists_blanks (text : List Char) :
    ∃ blanks, text = blanks ++ Text.dropBlanks text ∧ ∀ c ∈ blanks, Text.isBlank c = true :=
  ⟨text.takeWhile Text.isBlank, List.takeWhile_append_dropWhile.symm,
    fun _ hc => List.mem_takeWhile_imp hc⟩

namespace Part

variable (part : Part) {rest : List Char}

/-- A number stops a run of anything that no digit is. -/
theorem stops {isKind : Char → Bool} (hkind : ∀ c : Char, c.isDigit = true → isKind c = false)
    (rest : List Char) : Stops isKind (part.digits ++ rest) := by
  obtain ⟨c, digits, hcons⟩ := List.exists_cons_of_ne_nil part.ne_nil
  rw [hcons]
  exact stops_cons (hkind c (part.isDigit c (hcons ▸ List.mem_cons_self)))

theorem dropBlanks (hrest : Stops Text.isBlank rest) :
    Text.dropBlanks (part.blanks ++ rest) = rest :=
  dropWhile_run part.isBlank hrest

theorem takeNumber? {most : Nat} (hmost : part.digits.length ≤ most)
    (hrest : Stops Char.isDigit rest) :
    Text.takeNumber? most (part.digits ++ rest) = some (part.number, rest) :=
  takeNumber?_append part.isDigit part.ne_nil hmost hrest

theorem afterHyphen? (rest : List Char) :
    Date.afterHyphen? ('-' :: (part.blanks ++ (part.digits ++ rest))) =
      some (part.digits ++ rest) := by
  rw [Date.afterHyphen?, part.dropBlanks (part.stops (fun _ => Text.isBlank_of_isDigit) rest)]

end Part

namespace Spelling

variable (s : Spelling) {rest : List Char}

/-- Neither a sign nor a digit is blank. -/
theorem stops_sign (rest : List Char) :
    Stops Text.isBlank (s.sign.text ++ (s.year.digits ++ rest)) := by
  cases s.sign with
  | none => exact s.year.stops (fun _ => Text.isBlank_of_isDigit) rest
  | plus => exact stops_cons (by decide)
  | minus => exact stops_cons (by decide)

theorem readYear?_text (hrest : Stops Char.isDigit rest) :
    Date.readYear? (s.sign.text ++ (s.year.digits ++ rest)) =
      some (s.sign.year s.year.number, rest) := by
  cases hsign : s.sign with
  | none =>
    have hhead {c : Char} {more : List Char} (hc : isSign c = true) :
        s.year.digits ++ rest ≠ c :: more := by
      intro heq
      have hstops : Stops isSign (s.year.digits ++ rest) :=
        s.year.stops (fun _ => isSign_of_isDigit) rest
      rw [heq] at hstops
      exact absurd (hstops c rfl) (by simp [hc])
    rw [Sign.text, List.nil_append, Date.readYear?, s.year.takeNumber? (s.roomYear hsign) hrest]
    · rfl
    · exact fun _ => hhead (by decide)
    · exact fun _ => hhead (by decide)
  | plus =>
    rw [Sign.text, List.singleton_append, Date.readYear?, s.year.takeNumber? (by simp) hrest]
    rfl
  | minus =>
    rw [Sign.text, List.singleton_append, Date.readYear?, s.year.takeNumber? (by simp) hrest]
    rfl

/-- A spelling is read as its numbers. -/
theorem read?_text {text : String} (h : text.toList = s.text) :
    Date.read? text = Date.ofYmd? (s.sign.year s.year.number) s.month.number s.day.number := by
  have hyphen (rest : List Char) : Stops Char.isDigit ('-' :: rest) := stops_cons (by decide)
  have hday := s.day.takeNumber? s.roomDay stops_nil
  have hbehind := s.day.afterHyphen? []
  rw [List.append_nil] at hday hbehind
  rw [Date.read?, h, Spelling.text, s.year.dropBlanks (s.stops_sign _)]
  simp only [Option.bind_eq_bind]
  rw [s.readYear?_text (hyphen _), Option.bind_some, s.month.afterHyphen?, Option.bind_some,
    s.month.takeNumber? s.roomMonth (hyphen _), Option.bind_some, hbehind, Option.bind_some, hday,
    Option.bind_some]
  rfl

end Spelling

/-- A number at the front of a text, with what the sign in front of it makes of it. -/
theorem map_takeNumber?_eq_some {most : Nat} {text rest : List Char} {year : Int} (a : Sign)
    (h : (Text.takeNumber? most text).map (fun (n, rest) => (a.year n, rest)) = some (year, rest)) :
    ∃ digits, text = digits ++ rest ∧ Digits digits ∧ digits ≠ [] ∧ digits.length ≤ most ∧
      a.year (Text.numeral 10 digits) = year := by
  obtain ⟨⟨n, rest⟩, hread, heq⟩ := Option.map_eq_some_iff.mp h
  obtain ⟨rfl, rfl⟩ := Prod.mk.inj heq
  obtain ⟨digits, htext, hdigits, hne, hmost, rfl⟩ := takeNumber?_eq_some hread
  exact ⟨digits, htext, hdigits, hne, hmost, rfl⟩

theorem readYear?_eq_some {text rest : List Char} {year : Int}
    (h : Date.readYear? text = some (year, rest)) :
    ∃ (sign : Sign) (digits : List Char), text = sign.text ++ (digits ++ rest) ∧ Digits digits ∧
      digits ≠ [] ∧ (sign = .none → digits.length ≤ 4) ∧
      sign.year (Text.numeral 10 digits) = year := by
  unfold Date.readYear? at h
  split at h
  · obtain ⟨digits, rfl, hdigits, hne, -, rfl⟩ := map_takeNumber?_eq_some .minus h
    exact ⟨.minus, digits, rfl, hdigits, hne, nofun, rfl⟩
  · obtain ⟨digits, rfl, hdigits, hne, -, rfl⟩ := map_takeNumber?_eq_some .plus h
    exact ⟨.plus, digits, rfl, hdigits, hne, nofun, rfl⟩
  · obtain ⟨digits, rfl, hdigits, hne, hmost, rfl⟩ := map_takeNumber?_eq_some .none h
    exact ⟨.none, digits, rfl, hdigits, hne, fun _ => hmost, rfl⟩

theorem afterHyphen?_eq_some {text rest : List Char} (h : Date.afterHyphen? text = some rest) :
    ∃ blanks, text = '-' :: (blanks ++ rest) ∧ ∀ c ∈ blanks, Text.isBlank c = true := by
  unfold Date.afterHyphen? at h
  split at h
  · rename_i behind
    obtain rfl := Option.some.inj h
    obtain ⟨blanks, hsplit, hblanks⟩ := exists_blanks behind
    exact ⟨blanks, congrArg ('-' :: ·) hsplit, hblanks⟩
  · exact absurd h nofun

/-- What is read as a date is spelled. -/
theorem exists_spelling {text : String} {date : Date} (h : Date.read? text = some date) :
    ∃ s : Spelling, s.text = text.toList ∧ s.Names date := by
  simp only [Date.read?, Option.bind_eq_bind, Option.bind_eq_some_iff, Prod.exists] at h
  obtain ⟨year, s₁, hyear, s₂, hmonthBlanks, month, s₃, hmonth, s₄, hdayBlanks, day, s₅, hday,
    hdate⟩ := h
  obtain ⟨blanks₁, htext, hblanks₁⟩ := exists_blanks text.toList
  obtain ⟨sign, digits₁, hs₀, hdigits₁, hne₁, hroom₁, rfl⟩ := readYear?_eq_some hyear
  obtain ⟨blanks₂, rfl, hblanks₂⟩ := afterHyphen?_eq_some hmonthBlanks
  obtain ⟨digits₂, rfl, hdigits₂, hne₂, hroom₂, rfl⟩ := takeNumber?_eq_some hmonth
  obtain ⟨blanks₃, rfl, hblanks₃⟩ := afterHyphen?_eq_some hdayBlanks
  obtain ⟨digits₃, rfl, hdigits₃, hne₃, hroom₃, rfl⟩ := takeNumber?_eq_some hday
  split at hdate
  · rename_i hend
    obtain rfl : s₅ = [] := by simpa using hend
    refine ⟨⟨sign, ⟨blanks₁, digits₁, hblanks₁, hdigits₁, hne₁⟩,
      ⟨blanks₂, digits₂, hblanks₂, hdigits₂, hne₂⟩, ⟨blanks₃, digits₃, hblanks₃, hdigits₃, hne₃⟩,
      hroom₁, hroom₂, hroom₃⟩, ?_, ?_⟩
    · rw [htext, hs₀, List.append_nil]
      rfl
    · unfold Date.ofYmd? at hdate
      split at hdate
      · obtain rfl := Option.some.inj hdate
        exact ⟨rfl, rfl, rfl⟩
      · exact absurd hdate nofun
  · exact absurd hdate nofun

/-- **A text is read as a date exactly if it spells the date.** -/
theorem read?_eq_some_iff {text : String} {date : Date} :
    Date.read? text = some date ↔ ∃ s : Spelling, s.text = text.toList ∧ s.Names date := by
  constructor
  · exact exists_spelling
  · rintro ⟨s, htext, hnames⟩
    rw [s.read?_text htext.symm, hnames.year, hnames.month, hnames.day]
    exact dif_pos date.isDay

/-! ## 4. A text has one spelling -/

theorem Sign.text_injective {a b : Sign} (h : a.text = b.text) : a = b := by
  cases a <;> cases b
  all_goals first | rfl | exact absurd h (by decide)

theorem isSign_text (a : Sign) : ∀ c ∈ a.text, isSign c = true := by
  cases a with
  | none | plus | minus => simp [Sign.text, isSign]

namespace Spelling

/-- **A text is spelled in one way.**  What a part is can be told from where the next one begins. -/
theorem text_injective {s t : Spelling} (h : s.text = t.text) : s = t := by
  have hyphen (rest : List Char) : Stops Char.isDigit ('-' :: rest) := stops_cons (by decide)
  have hend (part : Part) : Stops Text.isBlank part.digits := by
    simpa using part.stops (fun _ => Text.isBlank_of_isDigit) []
  have hblank (part : Part) (rest : List Char) : Stops Text.isBlank (part.digits ++ rest) :=
    part.stops (fun _ => Text.isBlank_of_isDigit) rest
  have hsign (part : Part) (rest : List Char) : Stops isSign (part.digits ++ rest) :=
    part.stops (fun _ => isSign_of_isDigit) rest
  obtain ⟨hyearBlanks, h⟩ :=
    run_unique s.year.isBlank t.year.isBlank (s.stops_sign _) (t.stops_sign _) h
  obtain ⟨hsigns, h⟩ :=
    run_unique (isSign_text s.sign) (isSign_text t.sign) (hsign s.year _) (hsign t.year _) h
  obtain ⟨hyear, h⟩ := run_unique s.year.isDigit t.year.isDigit (hyphen _) (hyphen _) h
  obtain ⟨hmonthBlanks, h⟩ := run_unique s.month.isBlank t.month.isBlank
    (hblank s.month _) (hblank t.month _) (List.cons.inj h).2
  obtain ⟨hmonth, h⟩ := run_unique s.month.isDigit t.month.isDigit (hyphen _) (hyphen _) h
  obtain ⟨hdayBlanks, hday⟩ := run_unique s.day.isBlank t.day.isBlank
    (hend s.day) (hend t.day) (List.cons.inj h).2
  exact Spelling.ext (Sign.text_injective hsigns) (Part.ext hyearBlanks hyear)
    (Part.ext hmonthBlanks hmonth) (Part.ext hdayBlanks hday)

end Spelling

/-! ## 5. How dates are written -/

/-- The sign that a year is written with. -/
def signOf (year : Int) : Sign :=
  if 0 ≤ year ∧ year ≤ 9999 then .none else if year < 0 then .minus else .plus

/-- The number without blanks in front, and with its width. -/
def Part.padded (width n : Nat) (hwidth : 0 < width) : Part where
  blanks := []
  digits := Text.padded width n
  isBlank := nofun
  isDigit := digits_padded width n
  ne_nil := List.ne_nil_of_length_pos (by rw [length_padded]; omega)

/-- The zeros go up to the width and the digits of the number go on from there, so the length tells
whether the number has more digits. -/
theorem length_padded_eq_iff {width : Nat} (hwidth : 0 < width) (n : Nat) :
    (Text.padded width n).length = width ↔ n < 10 ^ width := by
  rw [length_padded, ← Nat.length_toDigits_le_iff (by decide) hwidth]
  omega

theorem month_day_lt (date : Date) : date.month < 10 ^ 2 ∧ date.day < 10 ^ 2 := by
  obtain ⟨year, month, day, -, -, hleast, hmost⟩ := date
  dsimp only
  unfold daysInMonth at hmost
  split at hmost
  case h_13 => omega
  case h_12 => split at hmost <;> omega
  all_goals omega

theorem natAbs_year (a : Sign) (n : Nat) : (a.year n).natAbs = n := by
  cases a with
  | none | plus => rfl
  | minus => exact Int.natAbs_neg n

theorem formatYear_eq (year : Int) :
    formatYear year = (signOf year).text ++ Text.padded 4 year.natAbs := by
  unfold formatYear signOf
  split_ifs with hshort hnegative
  all_goals rfl

namespace Spelling

/-- How a date is written, as a spelling. -/
def ofDate (date : Date) : Spelling where
  sign := signOf date.year
  year := .padded 4 date.year.natAbs (by decide)
  month := .padded 2 date.month (by decide)
  day := .padded 2 date.day (by decide)
  roomYear := by
    intro hsign
    refine ((length_padded_eq_iff (by decide) _).mpr ?_).le
    unfold signOf at hsign
    split at hsign
    · omega
    · split at hsign <;> exact absurd hsign nofun
  roomMonth := ((length_padded_eq_iff (by decide) _).mpr (month_day_lt date).1).le
  roomDay := ((length_padded_eq_iff (by decide) _).mpr (month_day_lt date).2).le

variable {s : Spelling} {date : Date}

theorem sign_ofDate (date : Date) : (ofDate date).sign = signOf date.year := rfl

theorem text_ofDate (date : Date) : (ofDate date).text = date.format.toList := by
  rw [Date.format, String.toList_ofList, formatDay, formatYear_eq]
  simp [Spelling.text, ofDate, Part.padded]

theorem full_ofDate (date : Date) : (ofDate date).Full where
  noBlanks := ⟨rfl, rfl, rfl⟩
  year := wide_padded 4 date.year.natAbs (by decide)
  plus := by
    intro hplus hfour
    have hlt := (length_padded_eq_iff (by decide) _).mp hfour
    rw [sign_ofDate] at hplus
    unfold signOf at hplus
    split at hplus
    · exact absurd hplus nofun
    · split at hplus
      · exact absurd hplus nofun
      · omega
  minus := by
    intro hminus hzeros
    have hzero : date.year.natAbs = 0 := by
      rw [← numeral_padded 4 date.year.natAbs]
      exact congrArg (Text.numeral 10) hzeros
    rw [sign_ofDate, Int.natAbs_eq_zero.mp hzero] at hminus
    exact absurd hminus (by decide)
  month := (length_padded_eq_iff (by decide) _).mpr (month_day_lt date).1
  day := (length_padded_eq_iff (by decide) _).mpr (month_day_lt date).2

/-- The sign of a full spelling is the one that the year calls for. -/
theorem Full.signOf_year (hfull : s.Full) : signOf (s.sign.year s.year.number) = s.sign := by
  have hpadded := padded_numeral s.year.isDigit s.year.ne_nil hfull.year
  have hlength := length_padded_eq_iff (by decide : 0 < 4) s.year.number
  rw [Part.number, hpadded] at hlength
  rw [Part.number]
  generalize Text.numeral 10 s.year.digits = n at hpadded hlength
  cases hsign : s.sign with
  | none =>
    have hfour : s.year.digits.length = 4 := by
      rcases hfull.year with heq | hmore
      · exact heq
      · exact absurd hmore.1 (Nat.not_lt.mpr (s.roomYear hsign))
    have hlt := hlength.mp hfour
    exact if_pos ⟨by simp [Sign.year], by simp only [Sign.year]; omega⟩
  | plus =>
    have hge : ¬ n < 10 ^ 4 := fun hlt => hfull.plus hsign (hlength.mpr hlt)
    have hlarge : ¬ ((0 : Int) ≤ n ∧ (n : Int) ≤ 9999) := by omega
    simp only [Sign.year]
    rw [signOf, if_neg hlarge, if_neg (by omega)]
  | minus =>
    have hpos : n ≠ 0 := by
      rintro rfl
      exact hfull.minus hsign hpadded.symm
    have hnegative : ¬ ((0 : Int) ≤ -n ∧ (-n : Int) ≤ 9999) := by omega
    simp only [Sign.year]
    rw [signOf, if_neg hnegative, if_pos (by omega)]

/-- A full spelling is how its date is written. -/
theorem Full.eq_ofDate (hfull : s.Full) (hnames : s.Names date) : s = ofDate date := by
  have hpadded {width : Nat} (part : Part) (hwide : Wide width part.digits) :
      Text.padded width part.number = part.digits :=
    padded_numeral part.isDigit part.ne_nil hwide
  obtain ⟨hyear, hmonth, hday⟩ := hfull.noBlanks
  refine Spelling.ext ?_ (Part.ext hyear ?_) (Part.ext hmonth ?_) (Part.ext hday ?_)
  · rw [sign_ofDate, ← hnames.year, hfull.signOf_year]
  · rw [← hpadded s.year hfull.year, ← natAbs_year s.sign s.year.number, hnames.year]
    rfl
  · rw [← hpadded s.month (.inl hfull.month), hnames.month]
    rfl
  · rw [← hpadded s.day (.inl hfull.day), hnames.day]
    rfl

/-- Nothing is written in fewer characters than `2023-01-31`. -/
theorem Full.length_le (hfull : s.Full) : 10 ≤ s.text.length := by
  have hyear : 4 ≤ s.year.digits.length := by
    rcases hfull.year with heq | hmore
    · exact heq.ge
    · exact hmore.1.le
  simp only [text, List.length_append, List.length_cons, hfull.month, hfull.day]
  omega

/-- **A text that names a date is how a date is written exactly if it is spelled in full.** -/
theorem format_iff_full {text : String} (htext : s.text = text.toList) (hnames : s.Names date) :
    (∃ other : Date, text = other.format) ↔ s.Full := by
  constructor
  · rintro ⟨other, rfl⟩
    have hsame : s = ofDate other := text_injective (htext.trans (text_ofDate other).symm)
    rw [hsame]
    exact full_ofDate other
  · intro hfull
    refine ⟨date, String.toList_injective ?_⟩
    rw [← htext, hfull.eq_ofDate hnames, text_ofDate]

end Spelling

end Calendar
end Collector
