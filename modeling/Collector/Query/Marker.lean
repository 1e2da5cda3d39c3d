/-
# Markers

A phrase or a group that has been found in a query is taken out of its text, and a marker is left in
its place: a word that holds its number, in decimal digits between two reserved characters.  A space
stands on either side of a marker, so that it is a word of its own whatever stood beside the span.

Four private-use characters are reserved, two for each kind of marker.  Where a user types one, it is
read as a space (`unreserved`), inside quotes too.
-/
import Collector.Text.Digits

namespace Collector
namespace Query

/-- One of the four reserved characters, U+E000 to U+E003. -/
def isReserved (c : Char) : Bool :=
  0xE000 ≤ c.toNat && c.toNat ≤ 0xE003

/-- The text with a space for every reserved character. -/
def unreserved (text : List Char) : List Char :=
  text.map fun c => if isReserved c then ' ' else c

/-- What a marker stands for. -/
inductive Kind where
  | phrase
  | group
deriving Repr, DecidableEq

namespace Kind

/-- The character at the front of a marker. -/
def opening : Kind → Char
  | phrase => '\ue000'
  | group => '\ue002'

/-- The character at the end of a marker. -/
def closing : Kind → Char
  | phrase => '\ue001'
  | group => '\ue003'

/-- The word that stands for number `n`. -/
def marker (kind : Kind) (n : Nat) : List Char :=
  kind.opening :: (Nat.toDigits 10 n ++ [kind.closing])

/-- A marker as it stands in a text. -/
def padded (kind : Kind) (n : Nat) : List Char :=
  ' ' :: (kind.marker n ++ [' '])

/-- The number that a word stands for, if it is a marker of the kind.  Any count that can be read
is taken, however large. -/
def number? (kind : Kind) : List Char → Option Nat
  | [] => none
  | c :: word =>
    if c = kind.opening ∧ word.getLast? = some kind.closing then
      Text.count? (String.ofList word.dropLast)
    else none

end Kind
end Query
end Collector
