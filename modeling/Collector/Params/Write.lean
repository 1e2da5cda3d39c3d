/-
# Writing parameter files

A parameter file is written into a directory, which is made if it is missing.  The search ID is
checked before anything is touched.  A file is named for its search, or it takes the name of the
latest search and replaces whatever stood there.
-/
import Collector.Files.Disk
import Collector.Files.Path
import Collector.Params.Basic
import Collector.Text.Quoted

namespace Collector

/-- Which of its two names a parameter file gets. -/
inductive ParamsSlot where
  /-- The name with the search ID. -/
  | stamped
  /-- The name of the latest search. -/
  | latest
deriving Repr, DecidableEq, Inhabited

/-- Why a parameter file could not be written. -/
inductive ParamsError where
  | searchId (problem : SearchIdProblem)
  | directory (path : String)
  | file (path : String)
deriving Repr, DecidableEq

/-- The error as told to the user. -/
def ParamsError.message : ParamsError → String
  | .searchId problem => problem.message
  | .directory path => "Failed to create params directory: " ++ Text.quoted path
  | .file path => "Failed to write params file: " ++ Text.quoted path

namespace Params

/-- The name under which the parameters are written. -/
def slotName (params : Params) (format : ParamsFormat) : ParamsSlot → String
  | .stamped => fileName params.document.dialect params.searchId format
  | .latest => latestFileName params.document.dialect format

variable {m : Type → Type} [Monad m] [Disk m]

/-- Writes the parameters into a directory and gives the path of the file. -/
def write (params : Params) (directory : String) (format : ParamsFormat) (slot : ParamsSlot) :
    m (Except ParamsError String) := do
  match searchIdProblem? params.searchId with
  | some problem => return .error (.searchId problem)
  | none =>
    match ← Disk.makeDirs directory with
    | .error _ => return .error (.directory directory)
    | .ok () =>
      let path := Path.join directory (params.slotName format slot)
      match ← Disk.write path (params.render format).toUTF8 with
      | .error _ => return .error (.file path)
      | .ok () => return .ok path

/-- Writes parameter files one after another, up to the first that cannot be written, and gives
their paths. -/
def writeAll (directory : String) (format : ParamsFormat) :
    List (Params × ParamsSlot) → m (Except ParamsError (List String))
  | [] => return .ok []
  | (params, slot) :: rest => do
    match ← params.write directory format slot with
    | .error e => return .error e
    | .ok path => return (← writeAll directory format rest).map (path :: ·)

end Params
end Collector
