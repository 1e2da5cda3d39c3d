/-
# Queries whose marks carry their contents

The text of a query passes through markers with numbers in them.  Most of what there is to say about
a query is easier to say of a text in which a span that has been recognised is one glyph, a mark,
with the contents of the span in it.  This file reads a query in that form:

* `spans` cuts a text into what stands outside a pair of quotation marks and what stands inside one,
  and `Span.glyphs` turns each non-empty inside into one mark;
* `markGroups` replaces parentheses and what is between them by marks, as far as they are groups;
* `lexemes` cuts what there is at blanks and at marks;
* `Tokenized.ofLexemes` numbers the marks: phrases and groups each count up from the first, in the
  order in which they stand in the text, and the contents go into the tables at those numbers.

That the tokens of a query are those of its outline, numbered, is `tokenize_eq` in `Markers`.
-/
import Collector.Query.Tokenize

namespace Collector
namespace Query

/-! ## 1. Words and marks -/

/-- An element of text in which some spans are already recognised: a character, or a mark of some
kind `μ`. -/
inductive Glyph (μ : Type) where
  | char (c : Char)
  | mark (m : μ)
deriving Repr, DecidableEq

/-- An element of the text once it is cut at blanks and marks. -/
inductive Lexeme (μ : Type) where
  | word (w : List Char)
  | mark (m : μ)
deriving Repr, DecidableEq

variable {μ : Type}

/-- The word that ends here, of which `held` is the reverse; an empty one is none. -/
def closeWord (held : List Char) : List (Lexeme μ) :=
  if held.isEmpty then [] else [.word held.reverse]

/-- The lexemes of a text that goes on a word begun with the reverse of `held`. -/
def lexemesFrom : List Char → List (Glyph μ) → List (Lexeme μ)
  | held, [] => closeWord held
  | held, .char c :: rest =>
    if Text.isBlank c then closeWord held ++ lexemesFrom [] rest else lexemesFrom (c :: held) rest
  | held, .mark m :: rest => closeWord held ++ .mark m :: lexemesFrom [] rest

/-- The words and marks of a text, in order.  A mark ends the word before it and is a lexeme of its
own, whether or not blanks surround it; blanks separate and leave nothing. -/
def lexemes (text : List (Glyph μ)) : List (Lexeme μ) :=
  lexemesFrom [] text

/-! ## 2. Phrases -/

/-- A stretch of text outside every pair of quotation marks, or the inside of one pair. -/
inductive Span where
  | plain (text : List Char)
  | quoted (text : List Char)
deriving Repr, DecidableEq

/-- Stretches between quotation marks, taken alternately as outside and inside.  A last mark
without a partner stays in the text. -/
def Span.pair : List (List Char) → List Span
  | [] => []
  | [outside] => [.plain outside]
  | [outside, unclosed] => [.plain (outside ++ '"' :: unclosed)]
  | outside :: inside :: rest => .plain outside :: .quoted inside :: Span.pair rest

/-- The text cut at its paired quotation marks. -/
def spans (text : List Char) : List Span :=
  Span.pair (text.splitOnP (· == '"'))

/-- A span in the text that goes on to be cut into words: a phrase is one mark, and a pair with
nothing inside separates words. -/
def Span.glyphs : Span → List (Glyph (List Char))
  | .plain text => text.map .char
  | .quoted [] => [.char ' ']
  | .quoted phrase => [.mark phrase]

/-! ## 3. Groups -/

/-- What may stand in a query as a single mark. -/
inductive Mark where
  /-- An exact phrase, without its quotation marks. -/
  | phrase (text : List Char)
  /-- A group, already cut into words and phrases. -/
  | group (items : List (Lexeme (List Char)))
deriving Repr, DecidableEq

/-- A glyph that belongs to no group. -/
def Glyph.outside : Glyph (List Char) → Glyph Mark
  | .char c => .char c
  | .mark phrase => .mark (.phrase phrase)

/-- What an opening parenthesis and the glyphs after it (`held`, in reverse) turn out to be
when they are no group. -/
def release : Option (List (Glyph (List Char))) → List (Glyph Mark)
  | none => []
  | some held => .char '(' :: held.reverse.map Glyph.outside

/-- The closing parenthesis after an opening one and the glyphs `held`, in reverse. -/
def close (held : List (Glyph (List Char))) : List (Glyph Mark) :=
  if held.isEmpty then release (some held) ++ [.char ')']
  else [.mark (.group (lexemes held.reverse))]

/-- The text with its groups marked.  The first argument holds the glyphs since the last
opening parenthesis, while no other parenthesis has followed it. -/
def markGroups :
    Option (List (Glyph (List Char))) → List (Glyph (List Char)) → List (Glyph Mark)
  | held, [] => release held
  | held, .char '(' :: rest => release held ++ markGroups (some []) rest
  | some held, .char ')' :: rest => close held ++ markGroups none rest
  | some held, glyph :: rest => markGroups (some (glyph :: held)) rest
  | none, glyph :: rest => glyph.outside :: markGroups none rest

/-! ## 4. The outline and its numbers -/

/-- The words and marks of a query, the contents of each mark still in place. -/
def outline (text : String) : List (Lexeme Mark) :=
  lexemes (markGroups none ((spans (unreserved text.toList)).flatMap Span.glyphs))

/-- The phrases among the items of a group. -/
def phrasesIn (items : List (Lexeme (List Char))) : List String :=
  items.filterMap fun
    | .word _ => none
    | .mark phrase => some (String.ofList phrase)

/-- The items of a group as tokens, its phrases numbered from `n`. -/
def groupItems : Nat → List (Lexeme (List Char)) → List Token
  | _, [] => []
  | n, .word w :: rest => .word (String.ofList w) :: groupItems n rest
  | n, .mark _ :: rest => .phrase n :: groupItems (n + 1) rest

end Query

open Query

namespace Tokenized

/-- Tokens and tables of an outline, phrases numbered from `p` and groups from `g`. -/
def ofLexemes : (p g : Nat) → List (Lexeme Mark) → Tokenized
  | _, _, [] => {}
  | p, g, .word w :: rest =>
    let after := ofLexemes p g rest
    { after with tokens := Token.ofWord (String.ofList w) :: after.tokens }
  | p, g, .mark (.phrase text) :: rest =>
    let after := ofLexemes (p + 1) g rest
    { after with
      tokens := .phrase p :: after.tokens
      phrases := String.ofList text :: after.phrases }
  | p, g, .mark (.group items) :: rest =>
    let inside := phrasesIn items
    let after := ofLexemes (p + inside.length) (g + 1) rest
    { tokens := .group g :: after.tokens
      phrases := inside ++ after.phrases
      groups := ⟨groupItems p items⟩ :: after.groups }

end Tokenized
end Collector
