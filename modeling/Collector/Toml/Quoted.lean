/-
# Strings of a TOML file

There are four kinds of strings.  Basic ones, between quotation marks, have escapes; literal
ones, between apostrophes, have none.  Both come in a form for several lines, between three
marks: the line end right after the opening marks is dropped, CR LF counts as LF, and up to two
marks in a row are ordinary characters, also just before the closing ones.  In a basic string
of this form, a backslash at the end of a line drops the line end with all blanks and line ends
that follow.

Each reader begins after the opening marks and gives the string with the text after its end.
-/
import Collector.Text.Digits
import Collector.Toml.Value

namespace Collector
namespace Toml

/-- What a backslash and one more character stand for. -/
def unescape? : Char → Option Char
  | 'b' => some '\x08'
  | 't' => some '\t'
  | 'n' => some '\n'
  | 'f' => some '\x0c'
  | 'r' => some '\r'
  | '"' => some '"'
  | '\\' => some '\\'
  | _ => none

/-- The character with a number to base 16. -/
def charOfHex? (digits : List Char) : Option Char :=
  let n := Text.numeral 16 digits
  if digits.all Text.isHexDigit && n.isValidChar then some (Char.ofNat n) else none

/-- A character in front of a string. -/
def prepend (c : Char) (read : Option (List Char × List Char)) : Option (List Char × List Char) :=
  read.map fun (s, rest) => (c :: s, rest)

/-- An escaped character in front of a string, provided that the escape stands for one. -/
def prepend? (c : Option Char) (read : Option (List Char × List Char)) :
    Option (List Char × List Char) :=
  c.bind fun c => prepend c read

/-- A basic string on one line. -/
def basic : List Char → Option (List Char × List Char)
  | '"' :: rest => some ([], rest)
  | '\\' :: 'u' :: a :: b :: c :: d :: rest =>
    prepend? (charOfHex? [a, b, c, d]) (basic rest)
  | '\\' :: 'U' :: a :: b :: c :: d :: e :: f :: g :: h :: rest =>
    prepend? (charOfHex? [a, b, c, d, e, f, g, h]) (basic rest)
  | '\\' :: c :: rest => prepend? (unescape? c) (basic rest)
  | c :: rest => if isPlain c && c != '\\' then prepend c (basic rest) else none
  | [] => none

/-- A literal string on one line. -/
def literal : List Char → Option (List Char × List Char)
  | '\'' :: rest => some ([], rest)
  | c :: rest => if isPlain c then prepend c (literal rest) else none
  | [] => none

/-- A line ends here, blanks left aside. -/
def endsLine (s : List Char) : Bool :=
  (afterNewline? (skipSpaces s)).isSome

/-- A basic string on several lines.  While `skipping`, blanks and line ends are dropped. -/
def multiBasic : (skipping : Bool) → List Char → Option (List Char × List Char)
  | _, '"' :: '"' :: '"' :: '"' :: '"' :: rest => some (['"', '"'], rest)
  | _, '"' :: '"' :: '"' :: '"' :: rest => some (['"'], rest)
  | _, '"' :: '"' :: '"' :: rest => some ([], rest)
  | _, '\\' :: 'u' :: a :: b :: c :: d :: rest =>
    prepend? (charOfHex? [a, b, c, d]) (multiBasic false rest)
  | _, '\\' :: 'U' :: a :: b :: c :: d :: e :: f :: g :: h :: rest =>
    prepend? (charOfHex? [a, b, c, d, e, f, g, h]) (multiBasic false rest)
  | _, '\\' :: c :: rest =>
    if endsLine (c :: rest) then multiBasic true (c :: rest)
    else prepend? (unescape? c) (multiBasic false rest)
  | skipping, '\r' :: '\n' :: rest =>
    if skipping then multiBasic true rest else prepend '\n' (multiBasic false rest)
  | skipping, c :: rest =>
    if skipping && (isSpace c || c = '\n') then multiBasic true rest
    else if c = '\n' || (isPlain c && c != '\\') then prepend c (multiBasic false rest)
    else none
  | _, [] => none

/-- A literal string on several lines. -/
def multiLiteral : List Char → Option (List Char × List Char)
  | '\'' :: '\'' :: '\'' :: '\'' :: '\'' :: rest => some (['\'', '\''], rest)
  | '\'' :: '\'' :: '\'' :: '\'' :: rest => some (['\''], rest)
  | '\'' :: '\'' :: '\'' :: rest => some ([], rest)
  | '\r' :: '\n' :: rest => prepend '\n' (multiLiteral rest)
  | c :: rest => if c = '\n' || isPlain c then prepend c (multiLiteral rest) else none
  | [] => none

/-- The text without a line end in front. -/
def dropNewline (s : List Char) : List Char :=
  (afterNewline? s).getD s

/-- A string of any kind, from its opening marks on. -/
def string? : List Char → Option (List Char × List Char)
  | '"' :: '"' :: '"' :: rest => multiBasic false (dropNewline rest)
  | '"' :: rest => basic rest
  | '\'' :: '\'' :: '\'' :: rest => multiLiteral (dropNewline rest)
  | '\'' :: rest => literal rest
  | _ => none

end Toml
end Collector
