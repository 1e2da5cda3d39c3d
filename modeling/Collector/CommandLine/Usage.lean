/-
# What a command understands

The arguments of a command are of two sorts.  An operand is known by its place, a switch by its
name with two dashes or its letter with one.  A switch is a mark, which is there or not, or it
has a value, or it asks something of the program.

When no command can be run, there is a `Reply` in its place: what was asked for, or what is
wrong with the arguments.
-/
import Collector.Text.Digits

namespace Collector
namespace CommandLine

/-- What the arguments amount to if not to a command. -/
inductive Reply where
  /-- The user asked for help. -/
  | help
  /-- The user asked for the version. -/
  | version
  /-- The user named no command at all, which is taken as a wish for help. -/
  | noCommand
  | unknownCommand (name : String)
  /-- There is no such switch, or there is an operand too many. -/
  | unknownArgument (argument : String)
  | missingArgument (name : String)
  /-- Two arguments exclude each other, or one is given twice that can be given once. -/
  | conflict (name other : String)
  /-- A value is missing, empty or not one of the words to choose from. -/
  | invalidValue (name : String)
  /-- A value is not a number, or it is too large. -/
  | notACount (name : String)
  /-- There is a value where none belongs. -/
  | unexpectedValue (name : String)
deriving Repr, DecidableEq, Inhabited

namespace Reply

/-- The reply in words.  Where the arguments are wrong, it names the argument concerned. -/
def text : Reply → String
  | .help | .noCommand => "Usage: harvest <COMMAND>"
  | .version => "harvest 0.1.0"
  | .unknownCommand name => "error: unrecognized subcommand '" ++ name ++ "'"
  | .unknownArgument argument => "error: unexpected argument '" ++ argument ++ "' found"
  | .missingArgument name => "error: required argument not provided: " ++ name
  | .conflict name other =>
    if name = other then "error: argument cannot be used multiple times: " ++ name
    else "error: argument " ++ name ++ " cannot be used with " ++ other
  | .invalidValue name => "error: invalid value for " ++ name
  | .notACount name => "error: not a number: value for " ++ name
  | .unexpectedValue name => "error: unexpected value for " ++ name

/-- The user has got what was asked for. -/
def isAnswer : Reply → Bool
  | .help | .version => true
  | _ => false

end Reply

/-- Which texts are values of an argument. -/
inductive ValueKind where
  | text
  /-- Any text but the empty one. -/
  | path
  /-- A number below 2^64. -/
  | count
  /-- One of the given words. -/
  | oneOf (words : List String)
deriving Repr, DecidableEq, Inhabited

/-- The number that a text stands for, if it is below 2^64. -/
def count? (value : String) : Option Nat :=
  (Text.count? value).filter (· < Nat.pow 2 64)

/-- Why a text is not a value for the argument of a name, if it is not. -/
def ValueKind.complaint? (name value : String) : ValueKind → Option Reply
  | .text => none
  | .path => if value.isEmpty then some (.invalidValue name) else none
  | .count => if (count? value).isSome then none else some (.notACount name)
  | .oneOf words => if words.contains value then none else some (.invalidValue name)

/-- What giving a switch amounts to. -/
inductive Role where
  /-- The switch is there. -/
  | mark
  /-- The switch has a value, perhaps a further one each time it is given. -/
  | value (kind : ValueKind) (repeatable : Bool)
  /-- The switch asks something of the program. -/
  | ask (reply : Reply)
deriving Repr, DecidableEq, Inhabited

/-- An argument known by its name. -/
structure Switch where
  name : String
  letter? : Option Char := none
  role : Role := .mark
deriving Repr, DecidableEq, Inhabited

/-- An argument known by its place. -/
structure Operand where
  name : String
  kind : ValueKind
deriving Repr, DecidableEq, Inhabited

/-- The switch that asks for help; every command has it. -/
def Switch.help : Switch :=
  { name := "help", letter? := some 'h', role := .ask .help }

/-- The switch that asks for the version. -/
def Switch.version : Switch :=
  { name := "version", letter? := some 'V', role := .ask .version }

/-- The reply to a switch that asks something. -/
def Switch.reply? (switch : Switch) : Option Reply :=
  match switch.role with
  | .ask reply => some reply
  | _ => none

/-- The arguments of a command.  All its operands have to be given. -/
structure Usage where
  operands : List Operand := []
  switches : List Switch := []
deriving Repr, DecidableEq, Inhabited

/-- The switch of a name. -/
def byName? (switches : List Switch) (name : String) : Option Switch :=
  switches.find? (·.name = name)

/-- The switch of a letter. -/
def byLetter? (switches : List Switch) (letter : Char) : Option Switch :=
  switches.find? (·.letter? = some letter)

end CommandLine
end Collector
