/-
# Progress of a collection

How far a collection has come is seen from its result file alone: it has not started while
there is no file, it is complete once the file holds a given number of records or the writer is
known to be done, and it is running in between.
-/
import Collector.Calendar.Instant
import Collector.Stream.Basic
import Collector.Text.Size

namespace Collector

/-- How far a collection has come. -/
inductive Progress where
  | notStarted
  | running
  | completed
deriving Repr, DecidableEq, Inhabited

namespace Progress

/-- The word for a state of progress. -/
def name : Progress → String
  | .notStarted => "not_started"
  | .running => "running"
  | .completed => "completed"

/-- The state of progress of a word. -/
def ofName? (name : String) : Option Progress :=
  [notStarted, running, completed].find? (·.name == name)

end Progress

/-- A result file as reported to the user. -/
structure Report where
  progress : Progress
  rowCount : Nat
  /-- The size of the file in bytes. -/
  fileSize : Nat
  /-- When the file was last changed, as text. -/
  lastModified : Option String
deriving Repr, DecidableEq, Inhabited

namespace Report

/-- The report on a file that does not exist. -/
def ofNoFile : Report := ⟨.notStarted, 0, 0, none⟩

/-- The report as a JSON object. -/
def json (report : Report) : Json :=
  .obj [("status", .str report.progress.name), ("row_count", .num report.rowCount),
        ("file_size", .num report.fileSize),
        ("last_modified", (report.lastModified.map Json.str).getD .null)]

/-- The report in a few lines. -/
def summary (report : Report) : String :=
  "\n".intercalate
    (["Status: " ++ report.progress.name, "   Rows: " ++ toString report.rowCount,
      "   Size: " ++ Text.size report.fileSize] ++
      (report.lastModified.map ("   Modified: " ++ ·)).toList)

end Report

namespace Stream

/-- The number of records in the file.  A file that has vanished since it was looked up has
none. -/
def rowCount (s : Stream) (reading : Reading) : Except ReadError Nat :=
  match s.decode reading with
  | .ok decoded => .ok decoded.records.length
  | .error (.notFound _) => .ok 0
  | .error e => .error e

/-- The report on the file, from what is known of it and what reading it gave.  A collection
is complete at `threshold` records. -/
def status (s : Stream) (threshold : Nat) (info : Except Fault FileInfo) (reading : Reading) :
    Except ReadError Report :=
  match info with
  | .error .notFound => .ok Report.ofNoFile
  | .error fault => .error (.ofFault s.path fault)
  | .ok info => do
    let rowCount ← s.rowCount reading
    .ok {
      progress := if s.finished || threshold ≤ rowCount then .completed else .running
      rowCount
      fileSize := info.size
      lastModified := some (Calendar.formatInstant info.modified) }

end Stream
end Collector
