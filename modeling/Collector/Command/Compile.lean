/-
# Carrying out the compile command

The documents of a query are printed, keyed by dialect, or written as parameter files into a
directory, whose paths are printed once all of them have been written.  All files of a search
have the same ID; without one it is numbered by the time of day, in milliseconds.
-/
import Collector.Command.Basic
import Collector.Compile
import Collector.Config.Store
import Collector.Params.Write

namespace Collector

/-- What a command takes from the clock. -/
structure Clock where
  today : Date
  /-- Milliseconds since 1970. -/
  millis : Nat
deriving DecidableEq

namespace Compiled

/-- The documents as one JSON object with a member for each dialect. -/
def documentsJson (compiled : Compiled) : Json :=
  .obj (compiled.documents.map fun document => (document.dialect.name, document.json))

/-- The parameters of a search for one document. -/
def params (config : Config) (searchId : String) (document : Document) : Params :=
  { searchId, document, minimum := config.minimumResults document.dialect }

/-- The parameter files of a search and which of its names each is written under. -/
def files (compiled : Compiled) (config : Config) (searchId : String) (latest : Bool) :
    List (Params × ParamsSlot) :=
  compiled.documents.flatMap fun document =>
    (params config searchId document, .stamped) ::
      if latest then [(params config searchId document, .latest)] else []

end Compiled

namespace CompileCommand

/-- What the search asks for beyond the configuration. -/
def request (command : CompileCommand) (today : Date) : Request where
  dialects := command.dialects
  allTime := if command.allTime then some true else none
  today

/-- The query with everything that is made of it. -/
def compiled (command : CompileCommand) (config : Config) (today : Date) : Compiled :=
  compile command.query config (command.request today)

/-- The directory for parameter files, if any are to be written.  One that is given with the
command goes before the configured one. -/
def directory? (command : CompileCommand) (env : Environment) (config : Config) :
    Option String :=
  match command.out? with
  | some directory => some directory
  | none => if command.write then some (config.outputDirectory env) else none

/-- The ID of the search. -/
def searchId (command : CompileCommand) (clock : Clock) : String :=
  command.searchId?.getD (toString clock.millis)

/-- The format of parameter files. -/
def format (command : CompileCommand) (config : Config) : ParamsFormat :=
  command.format?.getD config.output.format

variable {m : Type → Type} [Monad m] [Disk m]

/-- Carries out the command and gives what is printed. -/
def run (command : CompileCommand) (env : Environment) (clock : Clock) (config : Config) :
    m (Except ParamsError String) := do
  let compiled := command.compiled config clock.today
  if command.buckets then return .ok (compiled.buckets.json.pretty ++ "\n")
  match command.directory? env config with
  | none => return .ok (compiled.documentsJson.pretty ++ "\n")
  | some directory =>
    let files := compiled.files config (command.searchId clock) command.latest
    let written ← Params.writeAll directory (command.format config) files
    return written.map fun paths => String.join (paths.map (· ++ "\n"))

end CompileCommand
end Collector
