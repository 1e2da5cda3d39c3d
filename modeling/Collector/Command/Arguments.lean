/-
# Commands and their arguments

The menus of the program, the switches of each command, and the command that a list of arguments
asks for (`Command.ofArguments`).
-/
import Collector.Command.Basic
import Collector.CommandLine.Menu

namespace Collector
namespace Command

open CommandLine

/-! ## 1. The arguments of each command -/

/-- A switch with a value. -/
def valued (name : String) (letter? : Option Char) (kind : ValueKind)
    (repeatable : Bool := false) : Switch :=
  { name, letter?, role := .value kind repeatable }

/-- The result file of a command. -/
def fileOperand : Operand := ⟨"file", .path⟩

/-- The arguments of the compile command. -/
def compileUsage : Usage where
  operands := [⟨"query", .text⟩]
  switches :=
    [valued "dialect" (some 'd') (.oneOf (Dialect.all.map Dialect.name)) true,
     { name := "all-time" },
     { name := "buckets" },
     valued "out" (some 'o') .path,
     { name := "write", letter? := some 'w' },
     valued "search-id" none .text,
     valued "format" (some 'f') (.oneOf [ParamsFormat.python.name, ParamsFormat.json.name]),
     { name := "latest" }]

/-- The compile command; it writes into one directory at most. -/
def buildCompile (given : Given) : Except Reply Command := do
  if given.has "write" && given.has "out" then .error (.conflict "write" "out")
  return .compile {
    query := ← given.need "query"
    dialects := (given.values "dialect").filterMap Dialect.ofName?
    allTime := given.has "all-time"
    buckets := given.has "buckets"
    out? := given.value? "out"
    write := given.has "write"
    searchId? := given.value? "search-id"
    format? := (given.value? "format").bind ParamsFormat.ofName?
    latest := given.has "latest" }

/-- The arguments of the decode command. -/
def decodeUsage : Usage where
  operands := [fileOperand]
  switches := [{ name := "deferred" }, valued "limit" (some 'n') .count]

/-- The decode command. -/
def buildDecode (given : Given) : Except Reply Command := do
  return .decode {
    file := ← given.need "file"
    deferred := given.has "deferred"
    limit? := (given.value? "limit").bind count? }

/-- The arguments of the watch command. -/
def watchUsage : Usage where
  operands := [fileOperand]
  switches := [valued "interval" (some 'i') .count, { name := "flush-on-exit" }]

/-- The watch command. -/
def buildWatch (given : Given) : Except Reply Command := do
  return .watch {
    file := ← given.need "file"
    interval? := (given.value? "interval").bind count?
    flushOnExit := given.has "flush-on-exit" }

/-- The arguments of the status command. -/
def statusUsage : Usage where
  operands := [fileOperand]
  switches := [valued "threshold" (some 't') .count, { name := "json" }]

/-- The status command. -/
def buildStatus (given : Given) : Except Reply Command := do
  return .status {
    file := ← given.need "file"
    threshold? := (given.value? "threshold").bind count?
    json := given.has "json" }

/-- The arguments of the command for completions. -/
def completionsUsage : Usage where
  switches := [valued "shell" none (.oneOf (Shell.all.map Shell.name))]

/-- The command for completions. -/
def buildCompletions (given : Given) : Except Reply Command := do
  let name ← given.need "shell"
  match Shell.ofName? name with
  | some shell => .ok (.completions shell)
  | none => .error (.invalidValue "shell")

/-! ## 2. The menus -/

/-- The commands on the configuration. -/
def configMenu : Entry Command :=
  .menu [.help]
    [("show", .command {} fun _ => .ok .configShow),
     ("path", .command {} fun _ => .ok .configPath)]

/-- Everything that the program can be asked to do. -/
def mainMenu : Entry Command :=
  .menu [.help, .version]
    [("compile", .command compileUsage buildCompile),
     ("decode", .command decodeUsage buildDecode),
     ("watch", .command watchUsage buildWatch),
     ("status", .command statusUsage buildStatus),
     ("config", configMenu),
     ("completions", .command completionsUsage buildCompletions)]

/-- The command that the arguments of the program ask for. -/
def ofArguments (arguments : List String) : Except Reply Command :=
  mainMenu.read arguments

end Command
end Collector
