/-
# A tree of files

Files and directories held as a value.  A node stands at a `Location`, the list of names that
leads to it from the root; the root itself is always a directory.  A path is resolved from the
root or from the working directory, name by name: every name on the way must belong to a
directory, `..` goes up, and a dot stays.  A name has at most 255 bytes and a path fewer than
4096.
-/
import Collector.Files.Disk
import Collector.Files.Path

namespace Collector

/-- Where a file or directory stands: the names that lead to it from the root. -/
abbrev Location := List String

/-- A file or a directory. -/
inductive Node where
  | file (contents : ByteArray) (modified : Int)
  | dir
deriving Inhabited

/-- Files and directories, a directory to start relative paths from, and the time that files
are given when they are written. -/
structure FileTree where
  nodes : List (Location × Node) := []
  workDir : Location := []
  now : Int := 0
deriving Inhabited

namespace FileTree

/-! ## 1. Nodes by location -/

/-- What stands at a location. -/
def find? (tree : FileTree) (location : Location) : Option Node :=
  if location.isEmpty then some .dir
  else (tree.nodes.find? (·.1 = location)).map (·.2)

/-- The tree with nothing at a location. -/
def erase (tree : FileTree) (location : Location) : FileTree :=
  { tree with nodes := tree.nodes.filter (·.1 ≠ location) }

/-- The tree with a node at a location, in place of what stood there. -/
def put (tree : FileTree) (location : Location) (node : Node) : FileTree :=
  { tree with nodes := (location, node) :: (tree.erase location).nodes }

/-- The files below a location, by the rest of their names. -/
def filesBelow (tree : FileTree) (location : Location) : List (Location × ByteArray) :=
  tree.nodes.filterMap fun
    | (place, .file contents _) =>
      if location.isPrefixOf place then some (place.drop location.length, contents) else none
    | (_, .dir) => none

/-! ## 2. Locations by path -/

/-- One name on the way along a path, seen from the directory reached so far. -/
def enter (tree : FileTree) (place : Location) (name : String) : Except Fault Location :=
  match tree.find? place with
  | none => .error .notFound
  | some (.file ..) => .error .notDirectory
  | some .dir =>
    if name = "." then .ok place
    else if name = ".." then .ok place.dropLast
    else if 255 < name.utf8ByteSize then .error .nameTooLong
    else .ok (place ++ [name])

/-- Why a path can lead nowhere, whatever the tree. -/
def unusable? (path : String) : Option Fault :=
  if path.toList.any (·.toNat == 0) then some .nulInPath
  else if 4096 ≤ path.utf8ByteSize then some .nameTooLong
  else none

/-- Where a path begins. -/
def startOf (tree : FileTree) (path : String) : Location :=
  if Path.isAbsolute path then [] else tree.workDir

/-- The location that the names along a path lead to.  All of them but the last must be there. -/
def resolveNames (tree : FileTree) (path : String) (names : List String) :
    Except Fault Location :=
  match unusable? path with
  | some fault => .error fault
  | none =>
    if path.isEmpty then .error .notFound
    else names.foldlM tree.enter (tree.startOf path)

/-- The location that a path names.  A slash at the end asks for a directory, as a dot does. -/
def resolve (tree : FileTree) (path : String) : Except Fault Location :=
  let names := Path.names path
  tree.resolveNames path (if Path.endsInSlash path then names ++ ["."] else names)

/-- What a path leads to. -/
def lookup (tree : FileTree) (path : String) : Except Fault Node := do
  match tree.find? (← tree.resolve path) with
  | none => .error .notFound
  | some node => .ok node

/-! ## 3. The operations of a disk -/

/-- The contents of the file at a path. -/
def read (tree : FileTree) (path : String) : Except Fault ByteArray := do
  match ← tree.lookup path with
  | .file contents _ => .ok contents
  | .dir => .error .isDirectory

/-- What is known of the file or directory at a path.  A directory counts as empty and as
unchanged since 1970. -/
def info (tree : FileTree) (path : String) : Except Fault FileInfo := do
  match ← tree.lookup path with
  | .file contents modified => .ok { size := contents.size, modified }
  | .dir => .ok { size := 0, modified := 0, isDirectory := true }

/-- The tree with a file written at a path. -/
def write (tree : FileTree) (path : String) (contents : ByteArray) : Except Fault FileTree := do
  let place ← tree.resolve path
  match tree.find? place with
  | some .dir => .error .isDirectory
  | _ => .ok (tree.put place (.file contents tree.now))

/-- The tree with a directory made at a path.  The directory that it stands in must be there;
a slash at the end makes no difference. -/
def makeDir (tree : FileTree) (path : String) : Except Fault FileTree := do
  let place ← tree.resolveNames path (Path.names path)
  match tree.find? place with
  | some _ => .error .alreadyExists
  | none => .ok (tree.put place .dir)

/-- The tree after an operation, which stays as it was when the operation fails. -/
def settle (tree : FileTree) : Except Fault FileTree → Except Fault Unit × FileTree
  | .ok after => (.ok (), after)
  | .error fault => (.error fault, tree)

instance : Disk (StateM FileTree) where
  read path := return (← get).read path
  info path := return (← get).info path
  makeDir path := modifyGet fun tree => tree.settle (tree.makeDir path)
  write path contents := modifyGet fun tree => tree.settle (tree.write path contents)

/-- The tree with the directory at a path and those above it, as far as they can be made. -/
def withDirs (tree : FileTree) (path : String) : FileTree :=
  ((Disk.makeDirs path : StateM FileTree _).run tree).2

end FileTree
end Collector
