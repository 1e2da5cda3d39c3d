/-
# The walk over the tokens

Tokens are sorted into buckets from left to right.  `step` looks at the token under a cursor:

* a word is a term that must occur, a phrase an exact phrase, a group what `Group.terms` makes
  of it, and `AND` gives nothing;
* `OR` and `NOT` take the next token as their operand, whatever it is, and the cursor passes
  both.  An operand is taken as it stands: after `NOT` a placeholder is taken by its name, and
  after `OR` it is dropped.  At the end of the query, `OR` and `NOT` give nothing.

What a step adds does not depend on what the buckets hold already (`gain`).  `normalize` walks
a list of tokens to its end.
-/
import Collector.Query.Tokenize
import Collector.Query.Buckets

namespace Collector

/-- The terms of a group, one level deep.  If the word `OR` is among its items, in exactly this
case, all other items are alternatives; else all items but the word `AND` must occur.  A phrase
counts by its placeholder name. -/
def Group.terms (group : Group) : Buckets :=
  let kept (skip : String) := group.items.filterMap fun
    | .word text => if text = skip then none else some text
    | .phrase n => some (Token.phrase n).verbatim
    | _ => none
  if group.items.contains (.word "OR") then { orTerms := kept "OR" } else { andTerms := kept "AND" }

namespace Token

/-- The terms that a token gives where it is no operand. -/
def terms (tables : Tables) : Token → Buckets
  | .word text => { andTerms := [text] }
  | .phrase n => { exactPhrases := tables.phrases[n]?.toList }
  | .group n => (tables.groups[n]?.map Group.terms).getD {}
  | .and _ | .or _ | .not _ => {}

/-- The terms that a token gives as the operand of `OR`. -/
def termsAfterOr (operand : Token) : Buckets :=
  if operand.isPlaceholder then {} else { orTerms := [operand.verbatim] }

/-- The terms that a token gives as the operand of `NOT`. -/
def termsAfterNot (operand : Token) : Buckets :=
  { notTerms := [operand.verbatim] }

end Token

namespace Walk

/-- How many tokens the first step over `tokens` passes, and the terms it gives. -/
def gain (tables : Tables) : List Token → Nat × Buckets
  | [] => (0, {})
  | .or _ :: operand :: _ => (2, operand.termsAfterOr)
  | .not _ :: operand :: _ => (2, operand.termsAfterNot)
  | token :: _ => (1, token.terms tables)

/-- The cursor and the buckets after looking at the token at `cursor`.  Past the end of the
tokens there is nothing to look at, and the cursor comes to rest at their number. -/
def step (tables : Tables) (tokens : List Token) (cursor : Nat) (buckets : Buckets) :
    Nat × Buckets :=
  if cursor < tokens.length then
    let (passed, terms) := gain tables (tokens.drop cursor)
    (cursor + passed, buckets ++ terms)
  else
    (tokens.length, buckets)

/-- The terms of all tokens, from the first to the last. -/
def collect (tables : Tables) : List Token → Buckets
  | [] => {}
  | .or _ :: operand :: rest => operand.termsAfterOr ++ collect tables rest
  | .not _ :: operand :: rest => operand.termsAfterNot ++ collect tables rest
  | token :: rest => token.terms tables ++ collect tables rest

end Walk

/-- The buckets of a list of tokens, read against `tables`.  Only texts that stand in the
phrase table count as exact phrases. -/
def normalize (tables : Tables) (tokens : List Token) : Buckets :=
  (Walk.collect tables tokens).restrictPhrases tables.phrases

/-- The buckets of a tokenized query. -/
def Tokenized.buckets (query : Tokenized) : Buckets :=
  normalize query.toTables query.tokens

/-- The buckets of a query text. -/
def parse (text : String) : Buckets :=
  (tokenize text).buckets

end Collector
