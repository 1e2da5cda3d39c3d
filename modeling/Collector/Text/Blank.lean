/-
# Blank characters

A query is cut into words at blanks, a community name counts as empty when it holds blanks
only, and a date may have blanks before each of its numbers.  All three mean the same set:
the code points with the Unicode property White_Space, 25 of them in 10 ranges.  The set is
wider than `Char.isWhitespace`, which knows four.
-/

namespace Collector
namespace Text

/-- The closed ranges of White_Space, ascending and apart. -/
def blankRanges : List (Nat × Nat) :=
  [(0x09, 0x0D), (0x20, 0x20), (0x85, 0x85), (0xA0, 0xA0), (0x1680, 0x1680), (0x2000, 0x200A),
   (0x2028, 0x2029), (0x202F, 0x202F), (0x205F, 0x205F), (0x3000, 0x3000)]

/-- `c` has the property White_Space. -/
def isBlank (c : Char) : Bool :=
  blankRanges.any fun range => range.1 ≤ c.toNat && c.toNat ≤ range.2

/-- Characters that are invisible need not be blank. -/
example : isBlank '\u200b' = false ∧ isBlank '\ufeff' = false := by decide

/-- The text with its leading blanks dropped. -/
def dropBlanks (s : List Char) : List Char :=
  s.dropWhile isBlank

/-- Every character is blank; the empty text is, too. -/
def allBlank (s : String) : Bool :=
  s.toList.all isBlank

end Text
end Collector
