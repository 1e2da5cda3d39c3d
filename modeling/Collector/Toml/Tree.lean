/-
# Building the tables of a TOML file

The statements of a file are carried out one after the other on a tree.  A table remembers how
it came about: by a header, as a mere stage on the way to another table, or by a name with dots.
That decides what may still be added to it:

* a header may open a table that has been a stage so far, but no table twice, and no table that
  dotted names have made;
* a dotted name may go on into tables that dotted names or stages have made, but not into one
  that has a header, and it may put a value only into a table that dotted names have made;
* no name gets a value twice, and nothing is added to a value once it is written.

A header in double brackets adds a table to the list under its name; a path that goes through
such a list goes on in its last table.
-/
import Collector.Toml.Value

namespace Collector
namespace Toml

/-- How a table came about. -/
inductive Origin where
  /-- By a header of its own. -/
  | header
  /-- As a stage on the way to another table. -/
  | stage
  /-- By a name with dots. -/
  | dotted
deriving Repr, DecidableEq

/-- What stands under a name while a file is read. -/
inductive Node where
  /-- A value, complete as written. -/
  | value (v : Toml)
  | table (origin : Origin) (entries : List (String × Node))
  /-- Tables with headers in double brackets: the last one, and those before it in reverse. -/
  | tables (before : List (List (String × Node))) (last : List (String × Node))
deriving Repr, Inhabited

/-- Names with what stands under them, in the order in which they were written. -/
abbrev Entries := List (String × Node)

namespace Entries

/-- What stands under a name. -/
def get? (entries : Entries) (name : String) : Option Node :=
  (entries.find? (·.1 = name)).map (·.2)

/-- Puts something under a name, in place of what stood there. -/
def set : Entries → String → Node → Entries
  | [], name, node => [(name, node)]
  | entry :: rest, name, node =>
    if entry.1 = name then (name, node) :: rest else entry :: set rest name node

/-- Changes the table that a path leads to, given how it came about.  Tables that are missing
on the way are made, with `made` as their origin. -/
def alter (made : Origin) (change : Origin → Entries → Option Entries) :
    List String → Origin → Entries → Option Entries
  | [], origin, entries => change origin entries
  | name :: path, _, entries =>
    match get? entries name with
    | none => (alter made change path made []).map fun sub => set entries name (.table made sub)
    | some (.value _) => none
    | some (.tables before last) =>
      (alter made change path .header last).map fun last => set entries name (.tables before last)
    | some (.table origin sub) =>
      if made = .dotted && origin = .header then none
      else (alter made change path origin sub).map fun sub => set entries name (.table origin sub)

/-- Writes a value under a name. -/
def assign (path : List String) (value : Toml) (origin : Origin) (entries : Entries) :
    Option Entries :=
  let stages := path.dropLast
  alter .dotted (fun origin entries =>
    if decide (origin = .dotted) = stages.isEmpty then none
    else
      path.getLast?.bind fun name =>
        if (get? entries name).isSome then none else some (entries ++ [(name, .value value)]))
    stages origin entries

/-- Opens a table by a header. -/
def openTable (path : List String) (entries : Entries) : Option Entries :=
  alter .stage (fun _ entries => path.getLast?.bind fun name =>
      match get? entries name with
      | none => some (entries ++ [(name, .table .header [])])
      | some (.table .stage sub) => some (set entries name (.table .header sub))
      | some _ => none)
    path.dropLast .header entries

/-- Opens the next table of a list by a header. -/
def openNext (path : List String) (entries : Entries) : Option Entries :=
  alter .stage (fun _ entries => path.getLast?.bind fun name =>
      match get? entries name with
      | none => some (entries ++ [(name, .tables [] [])])
      | some (.tables before last) => some (set entries name (.tables (last :: before) []))
      | some _ => none)
    path.dropLast .header entries

end Entries

mutual

/-- The value of a node. -/
def Node.toml : Node → Toml
  | .value v => v
  | .table _ entries => .table (entriesToml entries)
  | .tables before last => .arr ((tablesToml before).reverse ++ [.table (entriesToml last)])

/-- The values of all entries of a table. -/
def entriesToml : List (String × Node) → List (String × Toml)
  | [] => []
  | (name, node) :: rest => (name, node.toml) :: entriesToml rest

/-- The values of the tables of a list. -/
def tablesToml : List (List (String × Node)) → List Toml
  | [] => []
  | entries :: rest => .table (entriesToml entries) :: tablesToml rest

end

/-- A table written between braces.  Its names may have dots. -/
def inlineTable? (pairs : List (List String × Toml)) : Option Toml :=
  (pairs.foldlM (fun entries pair => Entries.assign pair.1 pair.2 .header entries) []).map
    fun entries => .table (entriesToml entries)

/-- One statement of a file. -/
inductive Statement where
  /-- The header of a table. -/
  | table (path : List String)
  /-- The header of the next table of a list. -/
  | next (path : List String)
  /-- A value for a name in the table opened last. -/
  | assign (path : List String) (value : Toml)
deriving Repr

/-- The tree so far, and the path of the table opened last. -/
structure Build where
  entries : Entries := []
  current : List String := []

/-- Carries out one statement. -/
def Build.step (build : Build) : Statement → Option Build
  | .table path => (Entries.openTable path build.entries).map fun entries => ⟨entries, path⟩
  | .next path => (Entries.openNext path build.entries).map fun entries => ⟨entries, path⟩
  | .assign path value =>
    (Entries.alter .stage (Entries.assign path value) build.current .header build.entries).map
      fun entries => { build with entries }

/-- The table that a list of statements makes. -/
def ofStatements? (statements : List Statement) : Option Toml :=
  (statements.foldlM Build.step {}).map fun build => .table (entriesToml build.entries)

end Toml
end Collector
