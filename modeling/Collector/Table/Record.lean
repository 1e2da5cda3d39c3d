/-
# Records

A record is a row keyed by the columns of a header: a list of column and value pairs in column
order.  Columns may share a name; looking one up finds the first.

Records are printed as JSON lines: each record is one compact object, and since compact text has
no line ends, each takes exactly one line.
-/
import Collector.Text.Json

namespace Collector

/-- One row of a result table, keyed by its columns. -/
structure Record where
  fields : List (String × String)
deriving Repr, DecidableEq, Inhabited

namespace Record

/-- A row under a header.  Values beyond the last column are dropped. -/
def ofRow (header row : List String) : Record :=
  ⟨header.zip row⟩

/-- The names of the columns, in order. -/
def columns (record : Record) : List String :=
  record.fields.map (·.1)

/-- The values, in column order. -/
def values (record : Record) : List String :=
  record.fields.map (·.2)

/-- The value of the first column of this name. -/
def get? (record : Record) (column : String) : Option String :=
  (record.fields.find? (·.1 == column)).map (·.2)

/-- The record as a JSON object of strings, repeated columns repeated. -/
def json (record : Record) : Json :=
  .obj (record.fields.map fun field => (field.1, .str field.2))

/-- The record on a line of its own. -/
def line (record : Record) : String :=
  record.json.compact ++ "\n"

/-- Records on a line each. -/
def lines (records : List Record) : String :=
  String.join (records.map line)

theorem columns_ofRow {header row : List String} (h : header.length ≤ row.length) :
    (ofRow header row).columns = header := by
  simp [ofRow, columns, List.map_fst_zip h]

end Record
end Collector
