/-
# JSON values and their texts

What the collectors read is a JSON value: an object keeps its members in the order in which
they were put in, and may repeat a name; numbers are counts.  Three texts are written of a
value: the compact one, on one line; the indented one, by two spaces a level; and the same
layout by four spaces with the constants of a Python literal.  `Layout` holds what the two
indented texts do not share.

Strings are escaped alike in all three.  Only quotation marks, backslashes and the characters
below U+0020 are escaped, so a compact text never contains a line end.
-/

namespace Collector

/-- A JSON value. -/
inductive Json where
  | null
  | bool (b : Bool)
  | num (n : Nat)
  | str (s : String)
  | arr (items : List Json)
  | obj (members : List (String × Json))
deriving Repr, Inhabited

namespace Json

/-! ## 1. Strings -/

/-- A digit to base 16, in lower case. -/
def hexDigit (n : Nat) : Char :=
  if n < 10 then Char.ofNat (0x30 + n) else Char.ofNat (0x57 + n)

/-- How a character stands inside quotation marks.  Five control characters have a letter of
their own; the other 27 are written by number. -/
def escapeChar (c : Char) : List Char :=
  if c = '"' then ['\\', '"']
  else if c = '\\' then ['\\', '\\']
  else if c = '\n' then ['\\', 'n']
  else if c = '\r' then ['\\', 'r']
  else if c = '\t' then ['\\', 't']
  else if c.toNat = 0x08 then ['\\', 'b']
  else if c.toNat = 0x0C then ['\\', 'f']
  else if c.toNat < 0x20 then
    ['\\', 'u', '0', '0', hexDigit (c.toNat / 16), hexDigit (c.toNat % 16)]
  else [c]

/-- A string with its quotation marks. -/
def quote (s : String) : List Char :=
  '"' :: s.toList.flatMap escapeChar ++ ['"']

/-! ## 2. The compact text -/

mutual

/-- The value on one line, without spaces. -/
def compactChars : Json → List Char
  | .null => "null".toList
  | .bool true => "true".toList
  | .bool false => "false".toList
  | .num n => Nat.toDigits 10 n
  | .str s => quote s
  | .arr items => '[' :: [','].intercalate (compactItems items) ++ [']']
  | .obj members => '{' :: [','].intercalate (compactMembers members) ++ ['}']

/-- The texts of the items of an array. -/
def compactItems : List Json → List (List Char)
  | [] => []
  | item :: rest => compactChars item :: compactItems rest

/-- The texts of the members of an object. -/
def compactMembers : List (String × Json) → List (List Char)
  | [] => []
  | (name, value) :: rest => (quote name ++ ':' :: compactChars value) :: compactMembers rest

end

/-- The compact text of a value. -/
def compact (value : Json) : String :=
  String.ofList value.compactChars

/-! ## 3. Indented texts -/

/-- What distinguishes one indented text from another. -/
structure Layout where
  /-- Spaces a level. -/
  indent : Nat
  null : String
  yes : String
  no : String

/-- Indented JSON. -/
def Layout.json : Layout := ⟨2, "null", "true", "false"⟩

/-- A Python literal. -/
def Layout.python : Layout := ⟨4, "None", "True", "False"⟩

namespace Layout

/-- A new line at a level. -/
def newline (layout : Layout) (level : Nat) : List Char :=
  '\n' :: List.replicate (layout.indent * level) ' '

/-- Items between brackets, one a line; nothing but the brackets if there is none. -/
def block (layout : Layout) (level : Nat) (left right : Char) : List (List Char) → List Char
  | [] => [left, right]
  | items =>
    left :: layout.newline (level + 1) ++
      (',' :: layout.newline (level + 1)).intercalate items ++ layout.newline level ++ [right]

mutual

/-- The text of a value that begins at a level. -/
def write (layout : Layout) (level : Nat) : Json → List Char
  | .null => layout.null.toList
  | .bool true => layout.yes.toList
  | .bool false => layout.no.toList
  | .num n => Nat.toDigits 10 n
  | .str s => quote s
  | .arr items => layout.block level '[' ']' (writeItems layout (level + 1) items)
  | .obj members => layout.block level '{' '}' (writeMembers layout (level + 1) members)

/-- The texts of the items of an array. -/
def writeItems (layout : Layout) (level : Nat) : List Json → List (List Char)
  | [] => []
  | item :: rest => write layout level item :: writeItems layout level rest

/-- The texts of the members of an object. -/
def writeMembers (layout : Layout) (level : Nat) : List (String × Json) → List (List Char)
  | [] => []
  | (name, value) :: rest =>
    (quote name ++ ':' :: ' ' :: write layout level value) :: writeMembers layout level rest

end

end Layout

/-- The indented text of a value. -/
def pretty (value : Json) : String :=
  String.ofList (Layout.json.write 0 value)

/-- The value as a Python literal. -/
def python (value : Json) : String :=
  String.ofList (Layout.python.write 0 value)

/-- A list of strings. -/
def strings (list : List String) : Json :=
  .arr (list.map .str)

end Json
end Collector
