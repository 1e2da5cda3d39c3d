/-
# Paths

A path is a text in which slashes separate names.  Paths are kept as they were given: joining
and taking the parent work on the text, and what a path leads to is a question for the tree of
files (`Files.Tree`).
-/

namespace Collector
namespace Path

/-- The path begins at the root. -/
def isAbsolute (path : String) : Bool :=
  path.toList.head? == some '/'

/-- The path ends with a slash. -/
def endsInSlash (path : String) : Bool :=
  path.toList.getLast? == some '/'

/-- The path of `more` seen from `base`.  An absolute path is the same from everywhere; no
slash is put after an empty base or after one that ends with a slash. -/
def join (base more : String) : String :=
  if isAbsolute more then more
  else if base.isEmpty || endsInSlash base then base ++ more
  else base ++ "/" ++ more

/-- The texts between the slashes of a path. -/
def parts (path : String) : List (List Char) :=
  path.toList.splitOnP (· == '/')

/-- The names along a path. -/
def names (path : String) : List String :=
  ((parts path).filter (fun part => !part.isEmpty)).map String.ofList

/-- A part that no path needs: an empty one or a dot. -/
def isIdle (part : List Char) : Bool :=
  part.isEmpty || part == ['.']

/-- Parts without the idle ones at their end. -/
def trimEnd (parts : List (List Char)) : List (List Char) :=
  (parts.reverse.dropWhile isIdle).reverse

/-- The parts without the last one that leads anywhere; none if no part does. -/
def dropLast? (parts : List (List Char)) : Option (List (List Char)) :=
  match (trimEnd parts).reverse with
  | [] => none
  | _ :: before => some (trimEnd before.reverse)

/-- Parts with slashes between them. -/
def ofParts (parts : List (List Char)) : String :=
  String.ofList (['/'].intercalate parts)

/-- The path without its last name.  The root and the empty path have no parent; a name alone
has the empty path; and a dot in front of a relative path counts as a name. -/
def parent? (path : String) : Option String :=
  match parts path with
  | [] :: more =>
    if isAbsolute path then (dropLast? more).map fun before => "/" ++ ofParts before else none
  | ['.'] :: more =>
    some (match dropLast? more with
      | none => ""
      | some before => ofParts (['.'] :: before))
  | all => (dropLast? all).map ofParts

/-- A path and those above it, `n` at most, without the root and the empty path. -/
def ancestorsFrom : (n : Nat) → String → List String
  | 0, _ => []
  | n + 1, path =>
    match parent? path with
    | none => []
    | some above => path :: ancestorsFrom n above

/-- A path and those above it, without the root and the empty path.  Each is shorter than the
one below it, so there are no more of them than characters. -/
def ancestors (path : String) : List String :=
  ancestorsFrom path.length path

end Path
end Collector
