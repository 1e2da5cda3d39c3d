/-
# Following a result file

A collector appends to its result file while it works.  A `Stream` is what a reader of that
file remembers between two looks at it: the header that it saw first, how many records it has
handed out, and whether the writer is known to be done.  Every look decodes the whole file.

Each operation takes what reading the file gave and says what becomes of the stream.  A failed
read leaves the stream as it was.

* `snapshot` gives all records.  The first header seen is kept; a different one found later is
  reported by a warning and not used.
* `pollNew` gives the records that have not been handed out before.
* `finish` declares the writer done, so that a last row without a newline counts.
-/
import Collector.Files.Disk
import Collector.Table.Decode

namespace Collector

/-- Why a result file could not be read. -/
inductive ReadError where
  /-- There is no file at this path, so the collector has not written anything yet. -/
  | notFound (path : String)
  | failed (path : String) (fault : Fault)
deriving Repr, DecidableEq, Inhabited

namespace ReadError

/-- The error that a fault at a path amounts to. -/
def ofFault (path : String) : Fault → ReadError
  | .notFound => .notFound path
  | fault => .failed path fault

/-- The error as told to the user. -/
def message : ReadError → String
  | .notFound path => "Result file not found: " ++ path
  | .failed path fault => "Failed to read result file " ++ path ++ ": " ++ fault.text

/-- The path that could not be read. -/
def path : ReadError → String
  | .notFound path | .failed path _ => path

end ReadError

/-- What reading a file gave. -/
abbrev Reading := Except Fault ByteArray

/-- Something worth telling although the work goes on. -/
inductive Warning where
  /-- The file's first row is not the header that was seen first. -/
  | headerChanged
  /-- A read failed for another reason than a missing file; the next poll tries again. -/
  | readFailed
deriving Repr, DecidableEq

/-- The warning in words. -/
def Warning.text : Warning → String
  | .headerChanged => "result header changed; keeping the captured header"
  | .readFailed => "read failed, retrying on next poll"

/-- A result file and what is remembered of it between two looks. -/
structure Stream where
  path : String
  /-- The header that was seen first. -/
  header : Option (List String) := none
  /-- The number of records handed out. -/
  emitted : Nat := 0
  /-- The writer is done. -/
  finished : Bool := false
deriving Repr, DecidableEq, Inhabited

/-- A stream after an operation, with the result of the operation. -/
structure Look (α : Type) where
  stream : Stream
  result : Except ReadError α
  warnings : List Warning := []

/-- Decodes the result file at a path. -/
def Table.decodeReading (path : String) (known : Option (List String)) (flush : Flush) :
    Reading → Except ReadError Decoded
  | .error fault => .error (.ofFault path fault)
  | .ok contents => .ok (decodeBytes known flush contents)

namespace Stream

/-- Declares the writer done. -/
def finish (s : Stream) : Stream :=
  { s with finished := true }

/-- How the last row is treated. -/
def flush (s : Stream) : Table.Flush :=
  if s.finished then .atEof else .deferred

/-- The table as this stream decodes it. -/
def decode (s : Stream) (reading : Reading) : Except ReadError Table.Decoded :=
  Table.decodeReading s.path s.header s.flush reading

/-- The stream once it has seen a header; the first one stays. -/
def capture (s : Stream) (found : Option (List String)) : Stream :=
  { s with header := s.header.or found }

/-- The warnings that a header gives. -/
def headerWarnings (s : Stream) : Option (List String) → List Warning
  | none => []
  | some found => if (s.header.getD found) = found then [] else [.headerChanged]

/-- All records of the file. -/
def snapshot (s : Stream) (reading : Reading) : Look (List Record) :=
  match s.decode reading with
  | .error e => { stream := s, result := .error e }
  | .ok decoded =>
    { stream := s.capture decoded.header
      result := .ok decoded.records
      warnings := s.headerWarnings decoded.header }

/-- The records that have not been handed out before. -/
def pollNew (s : Stream) (reading : Reading) : Look (List Record) :=
  let look := s.snapshot reading
  match look.result with
  | .error _ => look
  | .ok records =>
    let fresh := records.drop s.emitted
    { look with
      stream := { look.stream with emitted := s.emitted + fresh.length }
      result := .ok fresh }

end Stream
end Collector
