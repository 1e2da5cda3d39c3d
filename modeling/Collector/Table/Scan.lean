/-
# Rows of a result table

The table is comma separated.  Quotation marks are counted, not balanced against field ends:
two in a row are one mark in the value, wherever they stand, and any other mark switches
between quoted and unquoted text.  A comma ends a field and a newline ends a row in unquoted
text only; all other characters belong to the value.

The scan takes one character at a time.  Whether a quotation mark is the first of two is known
only at the next character, so the scan remembers a mark that is still alone (`mark`).  Rows
once completed are never changed, which is what a reader of a growing file relies on.
-/

namespace Collector
namespace Table

/-- A table read up to some character. -/
structure Scan where
  /-- The last character was a quotation mark that no other has joined. -/
  mark : Bool := false
  /-- The text is quoted, `mark` left aside. -/
  quoted : Bool := false
  /-- The value begun. -/
  field : String := ""
  /-- The values of the row begun that are complete. -/
  row : Array String := #[]
  /-- The rows that are complete. -/
  rows : Array (List String) := #[]
deriving Repr, DecidableEq

/-- Whether the last row of the table is to be taken when no newline has ended it. -/
inductive Flush where
  /-- The writer is done: the end of the text ends the row. -/
  | atEof
  /-- The writer may go on: the row is held back. -/
  | deferred
deriving Repr, DecidableEq, Inhabited

namespace Scan

/-- Ends the value begun. -/
def closeField (s : Scan) : Scan :=
  { s with field := "", row := s.row.push s.field }

/-- Ends the value and the row begun. -/
def closeRow (s : Scan) : Scan :=
  { s with field := "", row := #[], rows := s.rows.push (s.row.push s.field).toList }

/-- Takes a character other than a quotation mark, no mark standing alone before it. -/
def feedPlain (s : Scan) (c : Char) : Scan :=
  if c = ',' && !s.quoted then s.closeField
  else if c = '\n' && !s.quoted then s.closeRow
  else { s with field := s.field.push c }

/-- The scan once a mark that stands alone has switched between quoted and unquoted text. -/
def settle (s : Scan) : Scan :=
  if s.mark then { s with mark := false, quoted := !s.quoted } else s

/-- Takes one character. -/
def feed (s : Scan) (c : Char) : Scan :=
  if c = '"' then
    if s.mark then { s with mark := false, field := s.field.push '"' } else { s with mark := true }
  else
    s.settle.feedPlain c

/-- Nothing has been read of a row since the last one ended. -/
def atRowStart (s : Scan) : Bool :=
  s.field.isEmpty && s.row.isEmpty

/-- The rows of the table when no more characters follow. -/
def finish (s : Scan) : Flush → List (List String)
  | .deferred => s.rows.toList
  | .atEof => if s.atRowStart then s.rows.toList else s.closeRow.rows.toList

end Scan

/-- The rows of a text whose lines end with LF. -/
def rows (flush : Flush) (text : String) : List (List String) :=
  (text.toList.foldl Scan.feed {}).finish flush

end Table
end Collector
