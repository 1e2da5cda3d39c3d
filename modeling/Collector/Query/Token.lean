/-
# The tokens of a query

A query is a list of tokens beside two tables.  A token is a word, one of the three keywords
as the user typed it, or a placeholder: the number of an exact phrase or of a parenthesised
group, whose contents stand in the tables.  Placeholders have names (`PHRASE_0`, `GROUP_2`),
but a name typed by the user is a word like any other.

Keywords are recognised in any ASCII case (`Token.ofWord`); the items of a group are not
classified and stay words.
-/

namespace Collector

/-- One element of the query as it is walked from left to right. -/
inductive Token where
  /-- A word that is no keyword, as typed. -/
  | word (text : String)
  /-- `AND` in any ASCII case, as typed. -/
  | and (text : String)
  /-- `OR` in any ASCII case, as typed. -/
  | or (text : String)
  /-- `NOT` in any ASCII case, as typed. -/
  | not (text : String)
  /-- Stands for the exact phrase with this number. -/
  | phrase (n : Nat)
  /-- Stands for the group with this number. -/
  | group (n : Nat)
deriving Repr, DecidableEq, Inhabited

namespace Token

/-- A word, read as a keyword where it spells one in any ASCII case. -/
def ofWord (text : String) : Token :=
  match text.toUpper with
  | "AND" => .and text
  | "OR" => .or text
  | "NOT" => .not text
  | _ => .word text

/-- The name of a placeholder; a token that stands for itself has none. -/
def name? : Token → Option String
  | .phrase n => some ("PHRASE_" ++ toString n)
  | .group n => some ("GROUP_" ++ toString n)
  | _ => none

/-- The token stands for an entry of a table. -/
def isPlaceholder : Token → Bool
  | .phrase _ | .group _ => true
  | _ => false

/-- The token without looking anything up: text as typed, placeholders by name. -/
def verbatim : Token → String
  | .word text | .and text | .or text | .not text => text
  | .phrase n => "PHRASE_" ++ toString n
  | .group n => "GROUP_" ++ toString n

theorem verbatim_ofWord (text : String) : (ofWord text).verbatim = text := by
  unfold ofWord
  split <;> rfl

end Token

/-- The inside of one pair of parentheses, as words and phrase placeholders. -/
structure Group where
  items : List Token
deriving Repr, DecidableEq, Inhabited

/-- What the placeholders of a query stand for, each table indexed by placeholder number. -/
structure Tables where
  phrases : List String := []
  groups : List Group := []
deriving Repr, DecidableEq, Inhabited

namespace Tables

/-- How one item of a group is shown to a reader: a word as it is, a phrase back in its
quotes.  A group holds no other items. -/
def itemText (tables : Tables) : Token → String
  | .word text => text
  | .phrase n => "\"" ++ tables.phrases.getD n "" ++ "\""
  | _ => ""

/-- The inside of a group with single spaces between its items. -/
def groupText (tables : Tables) (group : Group) : String :=
  " ".intercalate (group.items.map tables.itemText)

end Tables

/-- A query cut into tokens, together with the tables its placeholders point into. -/
structure Tokenized extends Tables where
  tokens : List Token := []
deriving Repr, DecidableEq, Inhabited

end Collector
