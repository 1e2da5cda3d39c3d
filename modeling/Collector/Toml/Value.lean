/-
# Values of a TOML file

A TOML file is a table: names with values, of which some are tables again.  A configuration has
settings that are strings, whole numbers, truth values and lists.  Fractional numbers, dates and
times have to be recognised where a setting of another program may hold one, but what they are
worth is never asked, so they are kept as they were written.
-/

namespace Collector

/-- A value of a TOML file. -/
inductive Toml where
  | str (s : String)
  | int (n : Int)
  | bool (b : Bool)
  /-- A fractional number, as written. -/
  | float (text : String)
  /-- A date, a time of day or both, as written. -/
  | time (text : String)
  | arr (items : List Toml)
  | table (entries : List (String × Toml))
deriving Repr, Inhabited

namespace Toml

/-! ## Characters -/

/-- Blanks inside a line. -/
def isSpace (c : Char) : Bool :=
  c = ' ' || c = '\t'

/-- A character that may stand in comments and strings as it is: no control character but the
tab. -/
def isPlain (c : Char) : Bool :=
  c = '\t' || (' ' ≤ c && c.toNat ≠ 0x7F)

/-- A character of a name without quotation marks. -/
def isBare (c : Char) : Bool :=
  c.isAlphanum || c = '_' || c = '-'

/-- The text after the blanks in front. -/
def skipSpaces (s : List Char) : List Char :=
  s.dropWhile isSpace

/-- The text after the line end in front, if there is one. -/
def afterNewline? : List Char → Option (List Char)
  | '\n' :: rest => some rest
  | '\r' :: '\n' :: rest => some rest
  | _ => none

/-- The text after blanks, a comment and the end of the line or of the file. -/
def lineEnd? (s : List Char) : Option (List Char) :=
  let rest := match skipSpaces s with
    | '#' :: comment => comment.dropWhile isPlain
    | rest => rest
  if rest.isEmpty then some [] else afterNewline? rest

end Toml
end Collector
