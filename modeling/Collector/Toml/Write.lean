/-
# Writing a TOML file

A file of sections is written with a header for each, a line for each setting, and an empty
line between sections.  A list of two or more items takes a line for each item.

A string is written in the simplest form that can hold it.  Most strings are basic, without any
escape.  Quotation marks or backslashes call for a literal string, where they stand as they are;
line ends, or apostrophes beside them, call for threefold marks; and what no form holds as it is
is escaped.
-/
import Collector.Text.Json
import Collector.Toml.Value

namespace Collector
namespace Toml

/-! ## 1. Strings -/

/-- The four ways to write a string. -/
inductive Form where
  | basic
  | literal
  | multiBasic
  | multiLiteral
deriving Repr, DecidableEq

/-- A control character that only an escape can stand for. -/
def isCode (c : Char) : Bool :=
  (c.toNat < 0x20 && c != '\t' && c != '\n') || c.toNat = 0x7F

/-- The length of the longest run of a character. -/
def longestRun (c : Char) (s : List Char) : Nat :=
  (s.foldl (fun (run, longest) d =>
    if d = c then (run + 1, max longest (run + 1)) else (0, longest)) (0, 0)).2

/-- The form in which a string is written. -/
def formOf (s : List Char) : Form :=
  let hasCodes := s.any isCode
  let has (c : Char) := s.contains c
  if !hasCodes && !has '\\' && !has '"' && !has '\n' then .basic
  else if !hasCodes && !has '\'' && !has '\n' then .literal
  else if !hasCodes && !has '\\' && longestRun '"' s ≤ 2 then .multiBasic
  else if !hasCodes && longestRun '\'' s ≤ 2 then .multiLiteral
  else if has '\n' then .multiBasic
  else .basic

/-- A digit to base 16, in upper case. -/
def upperHexDigit (n : Nat) : Char :=
  (Json.hexDigit n).toUpper

/-- How a character other than a quotation mark or a line end stands in a basic string. -/
def escapeChar (c : Char) : List Char :=
  if c = '\\' then ['\\', '\\']
  else if c = '\t' then ['\\', 't']
  else if c = '\r' then ['\\', 'r']
  else if c.toNat = 0x08 then ['\\', 'b']
  else if c.toNat = 0x0C then ['\\', 'f']
  else if isCode c then
    ['\\', 'u', '0', '0', upperHexDigit (c.toNat / 16), upperHexDigit (c.toNat % 16)]
  else [c]

/-- A string as it stands between single quotation marks. -/
def escapeBasic (s : List Char) : List Char :=
  s.flatMap fun c =>
    if c = '"' then ['\\', '"'] else if c = '\n' then ['\\', 'n'] else escapeChar c

/-- A string as it stands between threefold quotation marks, `run` of them just before it.  Of
three quotation marks in a row the third is escaped. -/
def escapeMulti : (run : Nat) → List Char → List Char
  | _, [] => []
  | run, c :: s =>
    if c = '"' then
      if run < 2 then '"' :: escapeMulti (run + 1) s else '\\' :: '"' :: escapeMulti 0 s
    else if c = '\n' then '\n' :: escapeMulti 0 s
    else escapeChar c ++ escapeMulti 0 s

/-- A line end after opening marks, if the string has one of its own. -/
def leadIn (s : List Char) : List Char :=
  if s.contains '\n' then ['\n'] else []

/-- A string with its marks. -/
def writeString (s : List Char) : List Char :=
  match formOf s with
  | .basic => '"' :: escapeBasic s ++ ['"']
  | .literal => '\'' :: s ++ ['\'']
  | .multiBasic => "\"\"\"".toList ++ leadIn s ++ escapeMulti 0 s ++ "\"\"\"".toList
  | .multiLiteral => "'''".toList ++ leadIn s ++ s ++ "'''".toList

/-! ## 2. Settings -/

/-- What a setting of a section may be. -/
inductive Setting where
  | str (s : String)
  | count (n : Nat)
  | bool (b : Bool)
  | strs (items : List String)
deriving Repr, DecidableEq

/-- A list of strings. -/
def writeList : List String → List Char
  | [] => ['[', ']']
  | [item] => '[' :: writeString item.toList ++ [']']
  | items =>
    '[' :: items.flatMap (fun item => "\n    ".toList ++ writeString item.toList ++ [',']) ++
      ['\n', ']']

/-- The value of a setting. -/
def Setting.write : Setting → List Char
  | .str s => writeString s.toList
  | .count n => Nat.toDigits 10 n
  | .bool b => (if b then "true" else "false").toList
  | .strs items => writeList items

/-- The setting can be written: a number has to fit into 64 bits with a sign. -/
def Setting.isWritable : Setting → Bool
  | .count n => n < Nat.pow 2 63
  | _ => true

/-- A section: its name, and its settings with theirs. -/
structure Section where
  name : String
  settings : List (String × Setting)
deriving Repr

/-- The line of a setting. -/
def writeSetting (setting : String × Setting) : List Char :=
  setting.1.toList ++ " = ".toList ++ setting.2.write ++ ['\n']

/-- A header with the lines of its settings. -/
def Section.write (part : Section) : List Char :=
  '[' :: part.name.toList ++ "]\n".toList ++ part.settings.flatMap writeSetting

/-- The text of a file, unless a setting cannot be written. -/
def write? (sections : List Section) : Option String :=
  if sections.all fun part => part.settings.all (·.2.isWritable) then
    some (String.ofList (['\n'].intercalate (sections.map Section.write)))
  else none

end Toml
end Collector
