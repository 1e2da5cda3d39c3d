/-
# Numbers and their digits

Reading numbers from text: which characters are digits, what a run of digits is worth, and how
to take one from the front of a text.  Digits are ASCII; the letters of base 16 may have either
case.
-/

namespace Collector
namespace Text

/-- What a digit to base 16 or less is worth.  Other characters have no worth of their own. -/
def digitValue (c : Char) : Nat :=
  if c.isDigit then c.toNat - '0'.toNat
  else if 'a' ≤ c ∧ c ≤ 'f' then c.toNat - 'a'.toNat + 10
  else if 'A' ≤ c ∧ c ≤ 'F' then c.toNat - 'A'.toNat + 10
  else 0

/-- `c` is a digit to base 16, in either case. -/
def isHexDigit (c : Char) : Bool :=
  c.isDigit || ('a' ≤ c && c ≤ 'f') || ('A' ≤ c && c ≤ 'F')

/-- What digits are worth to a base, the most significant first. -/
def numeral (base : Nat) (digits : List Char) : Nat :=
  digits.foldl (fun n c => n * base + digitValue c) 0

/-- The number at the front of a text, of at most `most` digits, and what follows it. -/
def takeNumber? (most : Nat) (s : List Char) : Option (Nat × List Char) :=
  let digits := (s.take most).takeWhile Char.isDigit
  if digits.isEmpty then none else some (numeral 10 digits, s.drop digits.length)

/-- A number with zeros in front, so that it has at least `width` digits. -/
def padded (width n : Nat) : List Char :=
  let digits := Nat.toDigits 10 n
  List.replicate (width - digits.length) '0' ++ digits

/-- Digits to base 10 throughout, with at most one `+` in front, as a number. -/
def count? (s : String) : Option Nat :=
  let digits := match s.toList with
    | '+' :: digits => digits
    | digits => digits
  if digits.isEmpty || !digits.all Char.isDigit then none else some (numeral 10 digits)

end Text
end Collector
