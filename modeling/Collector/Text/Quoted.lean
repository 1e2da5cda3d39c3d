/-
# Quoted text in messages

A path is shown between quotation marks.  A backslash stands before quotation marks, apostrophes
and backslashes; tab, line feed, carriage return and NUL have letters; and every other character
that would not be seen is written by number.
-/
import Collector.Text.Unseen

namespace Collector
namespace Text

/-- How a character is shown between quotation marks. -/
def shown (c : Char) : List Char :=
  if c = '"' || c = '\'' || c = '\\' then ['\\', c]
  else if c = '\t' then ['\\', 't']
  else if c = '\n' then ['\\', 'n']
  else if c = '\r' then ['\\', 'r']
  else if c.toNat = 0 then ['\\', '0']
  else if isUnseen c then
    "\\u\x7b".toList ++ Nat.toDigits 16 c.toNat ++ ['}']
  else [c]

/-- The text between quotation marks. -/
def quoted (s : String) : String :=
  String.ofList ('"' :: s.toList.flatMap shown ++ ['"'])

end Text
end Collector
