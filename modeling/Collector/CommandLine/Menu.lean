/-
# Menus of commands

The first arguments name a command, perhaps through menus on the way.  In a menu only switches
that ask something are understood, and the word `help`, which may be followed by the name of a
command (`Entry.helpOn`).  The arguments behind the name belong to the command.
-/
import Collector.CommandLine.Given

namespace Collector
namespace CommandLine

/-- What a name in a menu leads to. -/
inductive Entry (α : Type) where
  /-- A command: the arguments that it understands, and what they amount to. -/
  | command (usage : Usage) (build : Given → Except Reply α)
  /-- A further menu: the switches that are understood in it, and what it offers. -/
  | menu (switches : List Switch) (entries : List (String × Entry α))

namespace Entry

variable {α : Type}

/-- What a name leads to. -/
def find? (entries : List (String × Entry α)) (name : String) : Option (Entry α) :=
  (entries.find? (·.1 = name)).map (·.2)

/-- The reply to names behind the word `help`. -/
def helpOn : Entry α → List String → Reply
  | _, [] => .help
  | .command .., name :: _ => .unknownCommand name
  | .menu _ entries, name :: rest =>
    match find? entries name with
    | some entry => entry.helpOn rest
    | none => if name = "help" && rest.isEmpty then .help else .unknownCommand name

/-- The reply to a switch in a menu. -/
def askReply (argument : String) (switch? : Option Switch) (value? : Option String) : Reply :=
  match switch?.bind Switch.reply? with
  | none => .unknownArgument argument
  | some reply => if value?.isSome then .unexpectedValue argument else reply

/-- The reply to an argument that is not the name of a command. -/
def argumentReply (switches : List Switch) (argument : String) : Reply :=
  match Shape.ofArgument argument with
  | .name name value? => askReply argument (byName? switches name) value?
  | .letters (c :: _) => askReply argument (byLetter? switches c) none
  | _ => .unknownCommand argument

/-- A name in this menu. -/
def isName (entries : List (String × Entry α)) (name : String) : Bool :=
  (find? entries name).isSome || name = "help"

/-- The reply to what follows `--` in a menu, where no command can be named any more. -/
def escapedReply (entries : List (String × Entry α)) : List String → Reply
  | [] => .noCommand
  | argument :: _ =>
    if isName entries argument then .unknownArgument argument else .unknownCommand argument

/-- What arguments amount to. -/
def read : Entry α → List String → Except Reply α
  | .command usage build, arguments => do build (← usage.read arguments)
  | .menu .., [] => .error .noCommand
  | .menu switches entries, argument :: rest =>
    match find? entries argument with
    | some entry => entry.read rest
    | none =>
      if argument = "help" then .error (helpOn (.menu switches entries) rest)
      else if argument = "--" then .error (escapedReply entries rest)
      else .error (argumentReply switches argument)

end Entry
end CommandLine
end Collector
