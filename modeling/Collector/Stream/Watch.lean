/-
# Watching a result file

`pollOnce` prints the records that have appeared since the last poll; `follow` polls again and
again until it is stopped and, if asked to, once more with the writer declared done.
-/
import Collector.Stream.Basic

namespace Collector

/-- What polling has printed so far. -/
structure Watch where
  stream : Stream
  /-- The number of records printed. -/
  printed : Nat := 0
  out : String := ""
  warnings : List Warning := []

namespace Watch

/-- Prints the records that have appeared.  When the file cannot be read, nothing is printed
and the next poll tries again. -/
def pollOnce (watch : Watch) (reading : Reading) : Watch :=
  let look := watch.stream.pollNew reading
  let warnings := watch.warnings ++ look.warnings
  match look.result with
  | .ok fresh =>
    { stream := look.stream
      printed := watch.printed + fresh.length
      out := watch.out ++ Record.lines fresh
      warnings }
  | .error (.notFound _) => { watch with warnings }
  | .error (.failed ..) => { watch with warnings := warnings ++ [.readFailed] }

/-- Polls once for each reading, and once more with the writer declared done if `last` is what
that final look gives. -/
def follow (watch : Watch) (readings : List Reading) (last : Option Reading) : Watch :=
  let stopped := readings.foldl pollOnce watch
  match last with
  | none => stopped
  | some reading => { stopped with stream := stopped.stream.finish }.pollOnce reading

end Watch
end Collector
