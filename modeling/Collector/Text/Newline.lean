/-
# Line ends

A table may end its lines with LF or with CR LF; before it is cut into rows, every CR LF
becomes LF, inside quotation marks too, and every other CR stays.  The fold holds a CR back
until the next character is known, so nothing it has given out is ever taken back.

A byte-order mark in front of the text is no part of it (`withoutMark`).
-/

namespace Collector
namespace Text

/-- Text with its line ends made LF, up to a CR that may yet turn out to end a line. -/
structure Newlines where
  text : String := ""
  heldCr : Bool := false
deriving Repr, DecidableEq

namespace Newlines

/-- Takes one character. -/
def feed (s : Newlines) (c : Char) : Newlines :=
  let text := if s.heldCr && c != '\n' then s.text.push '\r' else s.text
  if c = '\r' then { text, heldCr := true } else { text := text.push c, heldCr := false }

/-- The end of the text: a CR held back stands for itself. -/
def finish (s : Newlines) : String :=
  if s.heldCr then s.text.push '\r' else s.text

end Newlines

/-- The text with LF for every CR LF. -/
def lfLines (text : List Char) : String :=
  (text.foldl Newlines.feed {}).finish

/-- The text without the byte-order mark in front, if it has one. -/
def withoutMark : List Char → List Char
  | '\ufeff' :: text => text
  | text => text

end Text
end Collector
