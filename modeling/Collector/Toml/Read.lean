/-
# Reading a TOML file

A file is a sequence of lines: a header, a name with its value, or nothing, each followed by an
optional comment.  Only lists and strings in threefold marks go on over the end of a line.
`statements?` reads the lines, and `ofStatements?` makes a table of them; a file that breaks a
rule of either is refused as a whole.

Values nest fewer than 80 deep, and a name has fewer than 80 parts.  The readers of values and
of lines recurse on a bound for the characters left (`fuel`), which the text's length meets.
-/
import Collector.Toml.Quoted
import Collector.Toml.Scalar
import Collector.Toml.Tree

namespace Collector
namespace Toml

/-! ## 1. Names -/

/-- One part of a name: in quotation marks or apostrophes, or bare. -/
def name? (s : List Char) : Option (String × List Char) :=
  match s with
  | '"' :: rest => (basic rest).map fun (name, rest) => (String.ofList name, rest)
  | '\'' :: rest => (literal rest).map fun (name, rest) => (String.ofList name, rest)
  | _ =>
    let name := s.takeWhile isBare
    if name.isEmpty then none else some (String.ofList name, s.dropWhile isBare)

/-- A name of at most `parts` parts, with dots between them and blanks anywhere around. -/
def path? : (parts : Nat) → List Char → Option (List String × List Char)
  | 0, _ => none
  | parts + 1, s => do
    let (name, rest) ← name? (skipSpaces s)
    match skipSpaces rest with
    | '.' :: rest => (path? parts rest).map fun (path, rest) => (name :: path, rest)
    | rest => some ([name], rest)

/-- The most parts that a name may have, and the most brackets around a value. -/
def maxDepth : Nat := 79

/-! ## 2. Values -/

/-- The text after blanks, line ends and comments. -/
def skipLines : (comment : Bool) → List Char → List Char
  | _, [] => []
  | _, '\n' :: rest => skipLines false rest
  | _, '\r' :: '\n' :: rest => skipLines false rest
  | true, c :: rest => if isPlain c then skipLines true rest else c :: rest
  | false, c :: rest =>
    if c = '#' then skipLines true rest else if isSpace c then skipLines false rest else c :: rest

mutual

/-- A value, inside fewer than `depth` further brackets. -/
def value? : (fuel depth : Nat) → List Char → Option (Toml × List Char)
  | 0, _, _ => none
  | fuel + 1, depth, s =>
    match s, depth with
    | '[' :: rest, depth + 1 => (items? fuel depth rest).map fun (items, rest) => (.arr items, rest)
    | '{' :: rest, depth + 1 => do
      let (pairs, rest) ← match skipSpaces rest with
        | '}' :: rest => some ([], rest)
        | rest => pairs? fuel depth rest
      some (← inlineTable? pairs, rest)
    | '"' :: _, _ | '\'' :: _, _ =>
      (string? s).map fun (text, rest) => (.str (String.ofList text), rest)
    | _, _ => word? s

/-- The items of a list from one on, or its end. -/
def items? : (fuel depth : Nat) → List Char → Option (List Toml × List Char)
  | 0, _, _ => none
  | fuel + 1, depth, s =>
    match skipLines false s with
    | ']' :: rest => some ([], rest)
    | s => do
      let (item, rest) ← value? fuel depth s
      match skipLines false rest with
      | ',' :: rest => (items? fuel depth rest).map fun (items, rest) => (item :: items, rest)
      | ']' :: rest => some ([item], rest)
      | _ => none

/-- The entries of a table between braces, at least one. -/
def pairs? : (fuel depth : Nat) → List Char → Option ((List (List String × Toml)) × List Char)
  | 0, _, _ => none
  | fuel + 1, depth, s => do
    let (path, rest) ← path? maxDepth s
    let (value, rest) ← value? fuel depth (skipSpaces (← after? '=' rest))
    match skipSpaces rest with
    | ',' :: rest =>
      (pairs? fuel depth rest).map fun (pairs, rest) => ((path, value) :: pairs, rest)
    | '}' :: rest => some ([(path, value)], rest)
    | _ => none

end

/-! ## 3. Lines -/

/-- The statement in front of a text that begins with one. -/
def statement? (fuel : Nat) (s : List Char) : Option (Statement × List Char) :=
  match s with
  | '[' :: '[' :: rest => do
    let (path, rest) ← path? maxDepth rest
    some (.next path, ← after? ']' (← after? ']' rest))
  | '[' :: rest => do
    let (path, rest) ← path? maxDepth rest
    some (.table path, ← after? ']' rest)
  | s => do
    let (path, rest) ← path? maxDepth s
    let (value, rest) ← value? fuel maxDepth (skipSpaces (← after? '=' rest))
    some (.assign path value, rest)

/-- The statements of all lines. -/
def statements? : (fuel : Nat) → List Char → Option (List Statement)
  | 0, _ => none
  | fuel + 1, s =>
    match skipSpaces s with
    | [] => some []
    | s =>
      match lineEnd? s with
      | some rest => statements? fuel rest
      | none => do
        let (statement, rest) ← statement? fuel s
        (statements? fuel (← lineEnd? rest)).map (statement :: ·)

/-- The table of a file's text.  A byte-order mark in front is no part of the text. -/
def read? (text : List Char) : Option Toml :=
  let text := match text with
    | '\ufeff' :: text => text
    | text => text
  (statements? (text.length + 1) text).bind ofStatements?

end Toml
end Collector
