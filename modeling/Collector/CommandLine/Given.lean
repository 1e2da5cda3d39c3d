/-
# The arguments given to a command

Arguments are read from left to right (`Usage.read`).  The value of a switch may be attached to
it, `--limit=3`, `-n3` or `-n=3`, or be the argument after it; it must then not look like a
switch itself.  Letters without values can share one dash.  After `--` all arguments are
operands.

A value that stands alone is checked late, when the next argument has been recognised.  So a
switch that nobody knows is reported before a bad value in front of it, and a bad value before
a wish for help behind it.
-/
import Collector.CommandLine.Usage

namespace Collector
namespace CommandLine

/-! ## 1. The form of an argument -/

/-- How an argument presents itself. -/
inductive Shape where
  /-- Two dashes and nothing else: operands follow. -/
  | escape
  /-- A name behind two dashes, perhaps with a value behind an equals sign. -/
  | name (name : String) (value? : Option String)
  /-- Letters behind a dash, and what is attached to them. -/
  | letters (letters : List Char)
  /-- A value or an operand; a dash alone is one. -/
  | plain
deriving Repr, DecidableEq

/-- A text up to the first equals sign and what follows the sign, if there is one. -/
def splitValue (s : List Char) : String × Option String :=
  let value? := match s.dropWhile (· ≠ '=') with
    | [] => none
    | _ :: value => some (String.ofList value)
  (String.ofList (s.takeWhile (· ≠ '=')), value?)

/-- The form of an argument. -/
def Shape.ofArgument (argument : String) : Shape :=
  match argument.toList with
  | ['-', '-'] => .escape
  | '-' :: '-' :: rest => .name (splitValue rest).1 (splitValue rest).2
  | '-' :: c :: rest => .letters (c :: rest)
  | _ => .plain

/-! ## 2. What has been given -/

/-- Arguments with their values, in the order in which they were given. -/
structure Given where
  entries : List (String × Option String) := []
deriving Repr, DecidableEq, Inhabited

namespace Given

/-- An argument has been given. -/
def has (given : Given) (name : String) : Bool :=
  given.entries.any (·.1 = name)

/-- The values of an argument. -/
def values (given : Given) (name : String) : List String :=
  given.entries.filterMap fun (n, value?) => if n = name then value? else none

/-- The value of an argument that is given at most once. -/
def value? (given : Given) (name : String) : Option String :=
  (given.values name).head?

/-- The value of an argument that has to be given. -/
def need (given : Given) (name : String) : Except Reply String :=
  match given.value? name with
  | some value => .ok value
  | none => .error (.missingArgument name)

/-- Adds an argument, unless it is there already and can be given only once. -/
def add (given : Given) (name : String) (value? : Option String) (repeatable : Bool) :
    Except Reply Given :=
  if given.has name && !repeatable then .error (.conflict name name)
  else .ok ⟨given.entries ++ [(name, value?)]⟩

/-- Adds an argument with its value, which is checked after that. -/
def addValue (given : Given) (name value : String) (kind : ValueKind) (repeatable : Bool) :
    Except Reply Given := do
  let after ← given.add name (some value) repeatable
  match kind.complaint? name value with
  | some reply => .error reply
  | none => .ok after

end Given

/-! ## 3. Intake arguments -/

/-- An argument whose value has not been checked yet. -/
structure Pending where
  name : String
  kind : ValueKind
  repeatable : Bool
  /-- The value; without one it is the next argument. -/
  value? : Option String
deriving Repr, DecidableEq

/-- The arguments read so far. -/
structure Intake where
  given : Given := {}
  pending? : Option Pending := none
  /-- The operands that have not been given yet. -/
  operands : List Operand
  /-- All further arguments are operands. -/
  escaped : Bool := false
deriving Repr, DecidableEq

namespace Intake

/-- Checks the value that is pending. -/
def settle (r : Intake) : Except Reply Intake :=
  match r.pending? with
  | none => .ok r
  | some p =>
    match p.value? with
    | none => .error (.invalidValue p.name)
    | some value => do
      let given ← r.given.addValue p.name value p.kind p.repeatable
      .ok { r with given, pending? := none }

/-- Takes an argument by its place. -/
def operand (r : Intake) (argument : String) : Except Reply Intake :=
  match r.operands with
  | [] => .error (.unknownArgument argument)
  | { name, kind } :: operands => do
    let r ← r.settle
    let pending := { name, kind, repeatable := false, value? := some argument }
    .ok { r with operands, pending? := some pending }

/-- Takes a switch and the value attached to it. -/
def switch (r : Intake) (s : Switch) (value? : Option String) : Except Reply Intake :=
  match s.role, value? with
  | .mark, some _ | .ask _, some _ => .error (.unexpectedValue s.name)
  | .ask reply, none => do
    let _ ← r.settle
    .error reply
  | .mark, none => do
    let r ← r.settle
    .ok { r with given := ← r.given.add s.name none false }
  | .value kind repeatable, some value => do
    let r ← r.settle
    .ok { r with given := ← r.given.addValue s.name value kind repeatable }
  | .value kind repeatable, none => do
    let r ← r.settle
    .ok { r with pending? := some { name := s.name, kind, repeatable, value? := none } }

/-- What is attached to a letter, as its value. -/
def attached? : List Char → Option String
  | [] => none
  | '=' :: value => some (String.ofList value)
  | value => some (String.ofList value)

/-- Takes switches by their letters. -/
def letters (switches : List Switch) (r : Intake) : List Char → Except Reply Intake
  | [] => .ok r
  | c :: rest =>
    match byLetter? switches c with
    | none => .error (.unknownArgument (String.ofList ['-', c]))
    | some s =>
      match s.role with
      | .value .. => r.switch s (attached? rest)
      | _ => do letters switches (← r.switch s none) rest

/-- Takes an argument that does not look like a switch. -/
def plain (r : Intake) (argument : String) : Except Reply Intake :=
  match r.pending? with
  | none => r.operand argument
  | some p =>
    if p.value?.isSome then r.operand argument
    else .ok { r with pending? := some { p with value? := some argument } }

/-- Takes the next argument. -/
def take (switches : List Switch) (r : Intake) (argument : String) : Except Reply Intake :=
  if r.escaped then r.operand argument
  else
    match Shape.ofArgument argument with
    | .escape => .ok { r with escaped := true }
    | .name name value? =>
      match byName? switches name with
      | none => .error (.unknownArgument argument)
      | some s => r.switch s value?
    | .letters cs => letters switches r cs
    | .plain => r.plain argument

end Intake

/-- What has been given by the arguments of a command. -/
def Usage.read (usage : Usage) (arguments : List String) : Except Reply Given := do
  let start : Intake := { operands := usage.operands }
  let all ← arguments.foldlM (Intake.take (usage.switches ++ [Switch.help])) start
  return (← all.settle).given

end CommandLine
end Collector
