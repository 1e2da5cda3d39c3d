/-
# Numbers, truth values and dates of a TOML file

All of these are words: runs of letters, digits and the characters `+ - _ . :`.  A word is one
value or none (`scalar?`), so none of them depends on what follows; only a date may go on, after
a single blank, with a time of day.

A whole number fits into 64 bits with a sign.  Between two digits of a number may stand one
underscore.  A fractional number must not be too large to be one.
-/
import Collector.Calendar.Date
import Collector.Toml.Value

namespace Collector
namespace Toml

/-- A character of a word. -/
def isWordChar (c : Char) : Bool :=
  c.isAlphanum || c = '+' || c = '-' || c = '_' || c = '.' || c = ':'

/-! ## 1. Whole numbers -/

/-- Digits with underscores between them, the underscores left out. -/
def digits? (isDigit : Char → Bool) : List Char → Option (List Char)
  | [] => none
  | [c] => if isDigit c then some [c] else none
  | c :: '_' :: rest => if isDigit c then (digits? isDigit rest).map (c :: ·) else none
  | c :: rest => if isDigit c then (digits? isDigit rest).map (c :: ·) else none

/-- Digits to base 10, of which the first is no idle zero. -/
def decimal? (s : List Char) : Option (List Char) :=
  match digits? Char.isDigit s with
  | some ('0' :: _ :: _) => none
  | digits => digits

/-- A sign and what follows it: whether the sign is a minus. -/
def unsign : List Char → Bool × List Char
  | '-' :: s => (true, s)
  | '+' :: s => (false, s)
  | s => (false, s)

/-- A number that fits into 64 bits with a sign. -/
def fitting? (n : Int) : Option Toml :=
  if -(Nat.pow 2 63 : Int) ≤ n ∧ n < (Nat.pow 2 63 : Int) then some (.int n) else none

/-- A whole number in one of the bases 10, 16, 8 and 2. -/
def integer? (word : List Char) : Option Toml :=
  match word with
  | '0' :: 'x' :: s => (digits? Text.isHexDigit s).bind fun ds => fitting? (Text.numeral 16 ds)
  | '0' :: 'o' :: s =>
    (digits? (fun c => '0' ≤ c && c ≤ '7') s).bind fun ds => fitting? (Text.numeral 8 ds)
  | '0' :: 'b' :: s =>
    (digits? (fun c => c = '0' || c = '1') s).bind fun ds => fitting? (Text.numeral 2 ds)
  | _ =>
    let (negative, s) := unsign word
    (decimal? s).bind fun ds =>
      let n : Int := Text.numeral 10 ds
      fitting? (if negative then -n else n)

/-! ## 2. Fractional numbers -/

/-- The number `m * 10 ^ e` is closer to infinity than to any number of 64 bits.  Numbers of
fewer than 300 digits are not, and those of more than 310 are. -/
def isTooLarge (m : Nat) (e : Int) : Bool :=
  let size : Int := (Nat.toDigits 10 m).length + e
  let bound := Nat.pow 2 1024 - Nat.pow 2 970
  if m = 0 || size < 300 then false
  else if 310 < size then true
  else bound * Nat.pow 10 (-e).toNat ≤ m * Nat.pow 10 e.toNat

/-- The parts of a number before and after a sign of it; the second is missing where the sign
is. -/
def splitAt (isMark : Char → Bool) (s : List Char) : List Char × Option (List Char) :=
  match s.dropWhile (!isMark ·) with
  | [] => (s, none)
  | _ :: rest => (s.takeWhile (!isMark ·), some rest)

/-- A fractional number. -/
def isFloat (word : List Char) : Bool :=
  let (negative, s) := unsign word
  if s = "inf".toList || s = "nan".toList then true
  else
    let (mantissa, exponent) := splitAt (fun c => c = 'e' || c = 'E') s
    let (whole, fraction) := splitAt (· = '.') mantissa
    let parts : Option (List Char × List Char × Int) := do
      let whole ← decimal? whole
      let fraction ← match fraction with
        | none => some []
        | some s => digits? Char.isDigit s
      let exponent ← match exponent with
        | none => some 0
        | some s =>
          let (negative, s) := unsign s
          (digits? Char.isDigit s).map fun ds =>
            let n : Int := Text.numeral 10 ds
            if negative then -n else n
      some (whole, fraction, exponent)
    match parts with
    | none => false
    | some (whole, fraction, e) =>
      (mantissa.length < s.length || !fraction.isEmpty) &&
        (negative || !isTooLarge (Text.numeral 10 (whole ++ fraction)) (e - fraction.length))

/-! ## 3. Dates and times -/

/-- A number of exactly `width` digits in front of a text. -/
def fixed? (width : Nat) (s : List Char) : Option (Nat × List Char) :=
  let ds := s.take width
  if ds.length = width && ds.all Char.isDigit then some (Text.numeral 10 ds, s.drop width) else none

/-- The text after a character that has to come next. -/
def after? (c : Char) : List Char → Option (List Char)
  | d :: rest => if c = d then some rest else none
  | [] => none

/-- The text after a date. -/
def afterDate? (s : List Char) : Option (List Char) := do
  let (year, s) ← fixed? 4 s
  let (month, s) ← fixed? 2 (← after? '-' s)
  let (day, s) ← fixed? 2 (← after? '-' s)
  if 1 ≤ day && day ≤ Calendar.daysInMonth year month then some s else none

/-- The text after a time of day.  Second 60 is a leap second. -/
def afterTime? (s : List Char) : Option (List Char) := do
  let (hour, s) ← fixed? 2 s
  let (minute, s) ← fixed? 2 (← after? ':' s)
  let (second, s) ← fixed? 2 (← after? ':' s)
  if 24 ≤ hour || 60 ≤ minute || 61 ≤ second then none
  else
    match s with
    | '.' :: s =>
      if (s.takeWhile Char.isDigit).isEmpty then none else some (s.dropWhile Char.isDigit)
    | s => some s

/-- A distance from UTC. -/
def isOffset (s : List Char) : Bool :=
  match s with
  | ['Z'] | ['z'] => true
  | '+' :: s | '-' :: s =>
    ((do
      let (hour, s) ← fixed? 2 s
      let (minute, s) ← fixed? 2 (← after? ':' s)
      some (hour < 24 && minute < 60 && s.isEmpty)) : Option Bool) == some true
  | _ => false

/-- A time of day, which may have a distance from UTC if a date comes before it. -/
def isTimeAfterDate (s : List Char) : Bool :=
  match afterTime? s with
  | none => false
  | some rest => rest.isEmpty || isOffset rest

/-- A date and time, a date, or a time of day. -/
def isMoment (word : List Char) : Bool :=
  match afterDate? word with
  | some [] => true
  | some (c :: clock) => (c = 'T' || c = 't') && isTimeAfterDate clock
  | none => afterTime? word == some []

/-! ## 4. Words -/

/-- The value of a word. -/
def scalar? (word : List Char) : Option Toml :=
  if word = "true".toList then some (.bool true)
  else if word = "false".toList then some (.bool false)
  else if isMoment word then some (.time (String.ofList word))
  else if isFloat word then some (.float (String.ofList word))
  else integer? word

/-- A word in front of a text, with its value and what follows.  A date takes the next word as
well if that is a time of day and a single blank stands between. -/
def word? (s : List Char) : Option (Toml × List Char) :=
  let word := s.takeWhile isWordChar
  let rest := s.dropWhile isWordChar
  match rest with
  | ' ' :: more =>
    let clock := more.takeWhile isWordChar
    if afterDate? word == some [] && isTimeAfterDate clock then
      some (.time (String.ofList (word ++ ' ' :: clock)), more.dropWhile isWordChar)
    else (scalar? word).map (·, rest)
  | _ => (scalar? word).map (·, rest)

end Toml
end Collector
