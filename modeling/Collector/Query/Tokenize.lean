/-
# From text to tokens

A query is read in three passes, and reading never fails:

* exact phrases are taken out of the text (`extractPhrases`).  Quotation marks pair up from left to
  right; a last one without a partner is an ordinary character, and a pair with nothing inside
  leaves a space;
* groups are taken out of what is left (`extractGroups`).  An opening parenthesis begins a group
  when the next parenthesis after it is a closing one and something, if only a blank, stands between
  the two.  So of nested parentheses the innermost form a group, and every other parenthesis is an
  ordinary character;
* the rest is cut at blanks (`words`) and its words are classified.

The first two passes leave markers in the text, numbered in the order in which they find the spans,
and put the contents of the spans into the tables at those numbers.  A phrase is one marker when
groups are looked for, so that the parentheses inside it do not count.
-/
import Collector.Text.Blank
import Collector.Query.Marker
import Collector.Query.Token

namespace Collector
namespace Query

/-- The words of a text, which stand between its blanks. -/
def words (text : List Char) : List (List Char) :=
  (text.splitOnP Text.isBlank).filter fun word => !word.isEmpty

/-- The text in front of the first character that satisfies `p`, this character, and the text behind
it. -/
def cutAt? (p : Char → Bool) : List Char → Option (List Char × Char × List Char)
  | [] => none
  | c :: rest =>
    if p c then some ([], c, rest)
    else (cutAt? p rest).map fun (before, found, behind) => (c :: before, found, behind)

/-- What is behind a cut is shorter than the text. -/
theorem length_lt_of_cutAt? {p : Char → Bool} {text before behind : List Char} {c : Char}
    (h : cutAt? p text = some (before, c, behind)) : behind.length < text.length := by
  induction text generalizing before with
  | nil => exact absurd h nofun
  | cons d rest ih =>
    rw [cutAt?] at h
    split at h
    · cases h
      exact Nat.lt_succ_self _
    · obtain ⟨cut, hcut, heq⟩ := Option.map_eq_some_iff.mp h
      cases heq
      exact Nat.lt_succ_of_lt (ih hcut)

/-- The text with a marker for every phrase, and the table of phrases, of which those in `phrases`
were found before. -/
def extractPhrases (phrases : List String) (text : List Char) : List Char × List String :=
  match _hopen : cutAt? (· == '"') text with
  | none => (text, phrases)
  | some (before, _, after) =>
    match _hclose : cutAt? (· == '"') after with
    | none => (text, phrases)
    | some (phrase, _, rest) =>
      if phrase.isEmpty then
        let (out, table) := extractPhrases phrases rest
        (before ++ ' ' :: out, table)
      else
        let (out, table) := extractPhrases (phrases ++ [String.ofList phrase]) rest
        (before ++ (Kind.phrase.padded phrases.length ++ out), table)
termination_by text.length
decreasing_by
  all_goals
    exact Nat.lt_trans (length_lt_of_cutAt? _hclose) (length_lt_of_cutAt? _hopen)

/-- A word inside a group.  It is no keyword, whatever it says. -/
def groupItem (word : List Char) : Token :=
  match Kind.phrase.number? word with
  | some n => .phrase n
  | none => .word (String.ofList word)

/-- The text with a marker for every group, and the table of groups, of which those in `groups` were
found before. -/
def extractGroups (groups : List Group) (text : List Char) : List Char × List Group :=
  match _hopen : cutAt? (· == '(') text with
  | none => (text, groups)
  | some (before, _, after) =>
    match _hclose : cutAt? (fun c => c == '(' || c == ')') after with
    | none => (text, groups)
    | some (inside, parenthesis, rest) =>
      if !inside.isEmpty && parenthesis == ')' then
        let (out, table) := extractGroups (groups ++ [⟨(words inside).map groupItem⟩]) rest
        (before ++ (Kind.group.padded groups.length ++ out), table)
      else
        let (out, table) := extractGroups groups after
        (before ++ '(' :: out, table)
termination_by text.length
decreasing_by
  · exact Nat.lt_trans (length_lt_of_cutAt? _hclose) (length_lt_of_cutAt? _hopen)
  · exact length_lt_of_cutAt? _hopen

/-- A word outside groups. -/
def classify (word : List Char) : Token :=
  match Kind.phrase.number? word with
  | some n => .phrase n
  | none =>
    match Kind.group.number? word with
    | some n => .group n
    | none => .ofWord (String.ofList word)

end Query

open Query

/-- The tokens and tables of a query text. -/
def tokenize (text : String) : Tokenized :=
  let (text, phrases) := extractPhrases [] (unreserved text.toList)
  let (text, groups) := extractGroups [] text
  { tokens := (words text).map classify, phrases, groups }

end Collector
