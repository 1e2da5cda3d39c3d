/-
# Carrying out commands

A command prints text and may write files; it ends with a status that is zero if it succeeded.
`Command.run` carries out any command on a disk.  What fails prints nothing but the reason.

Most commands load the configuration first and fail when it cannot be loaded.  Two do without:
decoding a file, which has no settings, and asking where the configuration is kept.
-/
import Collector.Command.Compile
import Collector.CommandLine.Usage
import Collector.Stream.Report
import Collector.Stream.Watch

namespace Collector

/-! ## 1. Outcomes -/

/-- What a command has printed. -/
structure Printed where
  out : String := ""
  /-- Remarks for the user, apart from the output. -/
  remarks : String := ""
deriving Repr, DecidableEq, Inhabited

/-- Why a command failed. -/
inductive CommandError where
  | config (error : ConfigError)
  | params (error : ParamsError)
  | read (error : ReadError)
deriving Repr, DecidableEq

/-- The error as told to the user. -/
def CommandError.message : CommandError → String
  | .config error => error.message
  | .params error => error.message
  | .read error => error.message

/-- How a command has ended. -/
structure Outcome where
  status : Nat := 0
  out : String := ""
  remarks : String := ""
deriving Repr, DecidableEq, Inhabited

namespace Outcome

/-- The outcome of a command that has been carried out. -/
def ofResult : Except CommandError Printed → Outcome
  | .ok printed => { out := printed.out, remarks := printed.remarks }
  | .error error => { status := 1, remarks := "Error: " ++ error.message ++ "\n" }

/-- The outcome of arguments that name no command.  What the user asked for is output; a
complaint is a remark, and the status 2. -/
def ofReply (reply : CommandLine.Reply) : Outcome :=
  if reply.isAnswer then { out := reply.text ++ "\n" }
  else { status := 2, remarks := reply.text ++ "\n" }

end Outcome

/-! ## 2. Single commands -/

/-- What is printed of a decoded table. -/
def DecodeCommand.printed (command : DecodeCommand) (decoded : Table.Decoded) : Printed where
  out := Record.lines
    (match command.limit? with
      | none => decoded.records
      | some limit => decoded.records.take limit)
  remarks :=
    if decoded.dropped = 0 then ""
    else "Skipped " ++ toString decoded.dropped ++ " short row(s)\n"

/-- Prints what reading the file gave. -/
def DecodeCommand.run (command : DecodeCommand) (reading : Reading) : Except ReadError Printed :=
  (Table.decodeReading command.file none (if command.deferred then .deferred else .atEof)
    reading).map command.printed

/-- Reports on a file, from what is known of it and what reading it gave. -/
def StatusCommand.run (command : StatusCommand) (config : Config)
    (info : Except Fault FileInfo) (reading : Reading) : Except ReadError Printed :=
  let threshold := command.threshold?.getD config.decoder.completionThreshold
  (Stream.status { path := command.file } threshold info reading).map fun report =>
    { out := (if command.json then report.json.pretty else report.summary) ++ "\n" }

/-- What is told to the user before the first poll. -/
def WatchCommand.greeting (command : WatchCommand) : String :=
  "Watching " ++ command.file ++ " (Ctrl-C to stop)\n"

/-- The time between two polls in milliseconds. -/
def WatchCommand.intervalMs (command : WatchCommand) (config : Config) : Nat :=
  match command.interval? with
  | some seconds => seconds * 1000
  | none => config.pollIntervalMs

/-- Follows a file through what each poll reads, and a last look if there is one. -/
def WatchCommand.run (command : WatchCommand) (readings : List Reading) (last : Option Reading) :
    Printed :=
  let watch := Watch.follow { stream := { path := command.file } } readings last
  { out := watch.out
    remarks := command.greeting ++ String.join (watch.warnings.map fun w => w.text ++ "\n") }

/-! ## 3. Any command, on a disk -/

namespace Command

variable {m : Type → Type} [Monad m] [Disk m]

/-- An action on the disk, its error as an error of the command. -/
def attempt {ε α : Type} (error : ε → CommandError) (action : m (Except ε α)) :
    ExceptT CommandError m α :=
  ExceptT.mk do return (← action).mapError error

/-- Loads the configuration. -/
def loadConfig (env : Environment) : ExceptT CommandError m Config :=
  attempt .config (Config.loadDefault env)

/-- Reads a file a number of times. -/
def readings (path : String) : Nat → m (List Reading)
  | 0 => return []
  | n + 1 => do
    let first ← Disk.read path
    return first :: (← readings path n)

/-- What a command prints.  Watching goes on for a number of polls. -/
def print (env : Environment) (clock : Clock) (polls : Nat) :
    Command → ExceptT CommandError m Printed
  | .compile command => do
    let config ← loadConfig env
    return { out := ← attempt .params (command.run env clock config) }
  | .decode command => do
    attempt .read do return command.run (← Disk.read command.file)
  | .watch command => do
    let _ ← loadConfig env
    let all ← ExceptT.lift (readings command.file polls)
    if command.flushOnExit then
      return command.run all (some (← ExceptT.lift (Disk.read command.file)))
    else return command.run all none
  | .status command => do
    let config ← loadConfig env
    attempt .read do
      return command.run config (← Disk.info command.file) (← Disk.read command.file)
  | .configShow => do
    let config ← loadConfig env
    match config.render? with
    | some text => return { out := text ++ "\n" }
    | none => throw (.config .serialize)
  | .configPath =>
    match env.configPath? with
    | .ok path => return { out := path ++ "\n" }
    | .error e => throw (.config e)
  | .completions _ => return {}

/-- Carries out a command. -/
def run (env : Environment) (clock : Clock) (polls : Nat) (command : Command) : m Outcome := do
  return .ofResult (← (command.print env clock polls).run)

end Command
end Collector
