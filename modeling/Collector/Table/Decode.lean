/-
# Decoding a result table

The first row of a table is its header.  Every later row with at least as many values as the
header has columns is a record; a shorter one is dropped and counted.  A reader that has seen
the header before may pass it on (`known`): records are then keyed and measured by that one,
and the table's own first row is still taken as its header.
-/
import Collector.Text.Newline
import Collector.Text.Utf8
import Collector.Table.Record
import Collector.Table.Scan

namespace Collector
namespace Table

/-- What a table holds. -/
structure Decoded where
  /-- The table's own first row, once it is complete. -/
  header : Option (List String) := none
  records : List Record := []
  /-- The number of rows with fewer values than columns. -/
  dropped : Nat := 0
deriving Repr, DecidableEq, Inhabited

/-- Rows as a header and records. -/
def Decoded.ofRows (known : Option (List String)) : List (List String) → Decoded
  | [] => {}
  | own :: later =>
    let header := known.getD own
    { header := some own
      records := (later.filter fun row => header.length ≤ row.length).map (Record.ofRow header)
      dropped := later.countP fun row => row.length < header.length }

/-- Decodes a table held as text. -/
def decode (known : Option (List String)) (flush : Flush) (text : String) : Decoded :=
  .ofRows known (rows flush (Text.lfLines (Text.withoutMark text.toList)))

/-- Decodes a table held as bytes. -/
def decodeBytes (known : Option (List String)) (flush : Flush) (bytes : ByteArray) : Decoded :=
  decode known flush (Text.Utf8.lossy bytes)

end Table
end Collector
