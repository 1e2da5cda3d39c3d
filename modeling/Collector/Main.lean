/-
# The program on a machine

The outermost layer: the machine's disk and clock, the environment of the program, and printing.
What a command does is said in `Command.run`.  Only watching differs here, since it goes on
until the user interrupts it: records are printed as they appear, and an interrupt is noticed
within a tenth of a second.
-/
import Collector.Command.Arguments
import Collector.Command.Run
import Std.Async.Signal
import Std.Time.DateTime.Timestamp

namespace Collector
namespace Machine

/-! ## 1. Disk, clock and environment -/

/-- A number that the system reports for an error, whichever sign it has been given. -/
def errorCode (code : UInt32) : Nat :=
  if code.toNat < Nat.pow 2 31 then code.toNat else Nat.pow 2 32 - code.toNat

/-- The fault that an error of the system amounts to. -/
def fault : IO.Error → Fault
  | .noFileOrDirectory .. => .notFound
  | .alreadyExists .. => .alreadyExists
  | .inappropriateType _ code _ => if errorCode code = 21 then .isDirectory else .notDirectory
  | .permissionDenied .. => .other "Permission denied (os error 13)"
  | .invalidArgument _ code text =>
    if errorCode code = 36 then .nameTooLong
    else if errorCode code = 22 then .nulInPath
    else .other text
  | error => .other (toString error)

/-- Carries out an action on the disk; an error is its result. -/
def guarded {α : Type} (action : IO α) : IO (Except Fault α) := do
  try
    return .ok (← action)
  catch error =>
    return .error (fault error)

/-- What the disk knows of a file. -/
def fileInfo (path : String) : IO FileInfo := do
  let place ← IO.FS.realPath path
  let known ← place.metadata
  return {
    size := known.byteSize.toNat
    modified := known.modified.sec
    isDirectory := known.type matches .dir }

instance : Disk IO where
  read path := guarded (IO.FS.readBinFile path)
  info path := guarded (fileInfo path)
  makeDir path := guarded (IO.FS.createDir path)
  write path contents := guarded (IO.FS.writeBinFile path contents)

/-- The clock of the machine. -/
def clock : IO Clock := do
  let now ← Std.Time.Timestamp.now
  let millis := now.toMillisecondsSinceUnixEpoch.val
  match Date.ofInstant? (millis.fdiv 1000) with
  | some today => return { today, millis := millis.toNat }
  | none => throw (.userError "The clock is beyond the calendar")

/-- What the user has set around the program. -/
def environment : IO Environment := do
  let home? ← IO.getEnv "HOME"
  return {
    home? := home?.filter fun home => !home.isEmpty
    configFile? := ← IO.getEnv "HARVEST_CONFIG" }

/-! ## 2. Printing -/

/-- Prints at once, remarks apart from output. -/
def print (printed : Printed) : IO Unit := do
  let out ← IO.getStdout
  IO.eprint printed.remarks
  out.putStr printed.out
  out.flush

/-- Prints what a poll has found. -/
def printPoll (watch : Watch) : IO Unit :=
  print {
    out := watch.out
    remarks := String.join (watch.warnings.map fun warning => warning.text ++ "\n") }

/-- The watch with everything printed. -/
def rest (watch : Watch) : Watch :=
  { watch with out := "", warnings := [] }

/-- Waits until the time is over or the user interrupts. -/
def pause (interrupted : BaseIO Bool) (milliseconds : Nat) : IO Unit := do
  let mut left := milliseconds
  while 0 < left && !(← interrupted) do
    let tick := min left 100
    IO.sleep tick.toUInt32
    left := left - tick

/-- Follows a file until the user interrupts. -/
def follow (command : WatchCommand) (config : Config) : IO Unit := do
  let signal ← (← Std.Async.Signal.Waiter.mk .sigint false).wait
  let interrupted := IO.hasFinished signal
  print { remarks := command.greeting }
  let mut watch : Watch := { stream := { path := command.file } }
  while !(← interrupted) do
    watch := (rest watch).pollOnce (← Disk.read command.file)
    printPoll watch
    pause interrupted (command.intervalMs config)
  if command.flushOnExit then
    let final := { rest watch with stream := watch.stream.finish }
    printPoll (final.pollOnce (← Disk.read command.file))

/-- Prints how a command has ended and gives its status. -/
def finish (outcome : Outcome) : IO UInt32 := do
  print { out := outcome.out, remarks := outcome.remarks }
  return outcome.status.toUInt32

/-- Carries out what the arguments ask for. -/
def run (arguments : List String) : IO UInt32 := do
  match Command.ofArguments arguments with
  | .error reply => finish (.ofReply reply)
  | .ok (.watch command) =>
    match ← (Config.loadDefault (← environment) : IO _) with
    | .error error => finish (.ofResult (.error (.config error)))
    | .ok config =>
      follow command config
      return 0
  | .ok command => finish (← command.run (← environment) (← clock) 0)

end Machine
end Collector

def main (arguments : List String) : IO UInt32 :=
  Collector.Machine.run arguments
