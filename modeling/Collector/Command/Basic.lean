/-
# Commands

What the program can be asked to do.  Settings that a command leaves open come from the
configuration.
-/
import Collector.Dialect
import Collector.Params.Format

namespace Collector

/-- A query to compile, and what becomes of its documents. -/
structure CompileCommand where
  query : String
  /-- The dialects to write documents for; all of them when the list is empty. -/
  dialects : List Dialect := []
  /-- Search all time, whatever the configuration says. -/
  allTime : Bool := false
  /-- Print the term buckets and nothing else. -/
  buckets : Bool := false
  /-- The directory to write parameter files into. -/
  out? : Option String := none
  /-- Write parameter files into the configured directory. -/
  write : Bool := false
  searchId? : Option String := none
  format? : Option ParamsFormat := none
  /-- Write each parameter file also under the name of the latest search. -/
  latest : Bool := false
deriving Repr, DecidableEq, Inhabited

/-- A result file to print. -/
structure DecodeCommand where
  file : String
  /-- Hold back a last row without a newline. -/
  deferred : Bool := false
  /-- The number of rows to print at most. -/
  limit? : Option Nat := none
deriving Repr, DecidableEq, Inhabited

/-- A result file to follow. -/
structure WatchCommand where
  file : String
  /-- The seconds between two polls. -/
  interval? : Option Nat := none
  /-- Print a last row without a newline in the end. -/
  flushOnExit : Bool := false
deriving Repr, DecidableEq, Inhabited

/-- A result file to report on. -/
structure StatusCommand where
  file : String
  /-- The number of rows of a complete file. -/
  threshold? : Option Nat := none
  /-- Print the report as JSON. -/
  json : Bool := false
deriving Repr, DecidableEq, Inhabited

/-- A command shell that can complete what is typed. -/
inductive Shell where
  | bash
  | elvish
  | fish
  | powershell
  | zsh
deriving Repr, DecidableEq, Inhabited

namespace Shell

/-- All shells. -/
def all : List Shell := [.bash, .elvish, .fish, .powershell, .zsh]

/-- The name of a shell. -/
def name : Shell → String
  | .bash => "bash"
  | .elvish => "elvish"
  | .fish => "fish"
  | .powershell => "powershell"
  | .zsh => "zsh"

/-- The shell of a name. -/
def ofName? (name : String) : Option Shell :=
  all.find? (·.name == name)

end Shell

/-- What the program is asked to do. -/
inductive Command where
  | compile (command : CompileCommand)
  | decode (command : DecodeCommand)
  | watch (command : WatchCommand)
  | status (command : StatusCommand)
  /-- Print the configuration. -/
  | configShow
  /-- Print where the configuration is kept. -/
  | configPath
  /-- Print what a shell needs to complete commands. -/
  | completions (shell : Shell)
deriving Repr, DecidableEq, Inhabited

end Collector
