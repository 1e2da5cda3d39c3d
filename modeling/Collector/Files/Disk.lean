/-
# Access to files

The program needs four things of the files around it, gathered in the class `Disk`: to read a
file, to look one up, to make a directory and to write a file.  Everything that the program does
with files is written against this class.  Two things are a disk: a tree of files held as a
value (`Files.Tree`), about which one can reason, and the machine's own disk.

A directory is made together with those above it (`Disk.makeDirs`): the paths above are tried in
turn until one is there or can be made, and then the missing ones are made downwards.  A path
that ends in a dot, `n/.`, may be there but is never made: the path above it is the one above
`n`, so that `n` itself is not tried.
-/
import Collector.Files.Path

namespace Collector

/-- Why an access to a file failed. -/
inductive Fault where
  | notFound
  | isDirectory
  | notDirectory
  | nameTooLong
  /-- A file stands where a directory is to be made. -/
  | alreadyExists
  /-- The path has a NUL character in it. -/
  | nulInPath
  /-- Any other reason, in the words of the system. -/
  | other (text : String)
deriving Repr, DecidableEq, Inhabited

/-- The reason in the words of the system. -/
def Fault.text : Fault → String
  | .notFound => "No such file or directory (os error 2)"
  | .isDirectory => "Is a directory (os error 21)"
  | .notDirectory => "Not a directory (os error 20)"
  | .nameTooLong => "File name too long (os error 36)"
  | .alreadyExists => "File exists (os error 17)"
  | .nulInPath => "file name contained an unexpected NUL byte"
  | .other text => text

/-- What is known of a file or directory without reading it. -/
structure FileInfo where
  /-- The size in bytes. -/
  size : Nat
  /-- When the file was last changed, in whole seconds since 1970, rounded down. -/
  modified : Int
  isDirectory : Bool := false
deriving Repr, DecidableEq, Inhabited

/-- A place to keep files, used in the monad `m`. -/
class Disk (m : Type → Type) where
  /-- The contents of a file. -/
  read (path : String) : m (Except Fault ByteArray)
  /-- What is known of a file or directory. -/
  info (path : String) : m (Except Fault FileInfo)
  /-- Makes a directory where there is nothing yet, in a directory that exists. -/
  makeDir (path : String) : m (Except Fault Unit)
  /-- Writes a file in a directory that exists, in place of what the file held before. -/
  write (path : String) (contents : ByteArray) : m (Except Fault Unit)

namespace Disk

variable {m : Type → Type} [Monad m] [Disk m]

/-- There is a directory at a path. -/
def isDirectory (path : String) : m Bool := do
  match ← info path with
  | .ok known => return known.isDirectory
  | .error _ => return false

/-- Makes a directory if it is not there. -/
def ensureDir (path : String) : m (Except Fault Unit) := do
  match ← makeDir path with
  | .error .alreadyExists =>
    if ← isDirectory path then return .ok () else return .error .alreadyExists
  | result => return result

/-- Makes the first directory of a list if it is not there.  The others are the paths above it,
and they come first if something on the way is missing. -/
def ensureDirs : List String → m (Except Fault Unit)
  | [] => return .ok ()
  | path :: above => do
    match ← ensureDir path with
    | .error .notFound =>
      match ← ensureDirs above with
      | .ok () => ensureDir path
      | .error fault => return .error fault
    | result => return result

/-- Makes a directory and those above it, as far as they are missing.  What has been made stays
when a later one cannot be made. -/
def makeDirs (path : String) : m (Except Fault Unit) :=
  ensureDirs (Path.ancestors path)

end Disk
end Collector
