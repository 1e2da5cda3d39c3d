/-
# Query documents

A query document is what one collector is given: the terms of a query and the settings of its
dialect.  Names and order of the members are fixed by the collectors that read it.
-/
import Collector.Dialect
import Collector.Text.Json

namespace Collector

/-- The document of the forum collector. -/
structure ForumQuery where
  andTerms : List String := []
  orTerms : List String := []
  notTerms : List String := []
  exactPhrases : List String := []
  subreddits : List String
  searchAll : Bool
  timeFilter : String
  sortBy : String
deriving Repr, DecidableEq, Inhabited

/-- The document of the feed collector. -/
structure FeedQuery where
  allWords : List String
  exactPhrase : String
  anyWords : List String
  noWords : List String
  hashtags : List String
  language : String
  fromDate : Option String := none
  toDate : Option String := none
deriving Repr, DecidableEq, Inhabited

/-- A query document of either dialect. -/
inductive Document where
  | forum (query : ForumQuery)
  | feed (query : FeedQuery)
deriving Repr, DecidableEq, Inhabited

/-- A list as a member, left out when it is empty. -/
def ForumQuery.terms (name : String) (list : List String) : List (String × Json) :=
  if list.isEmpty then [] else [(name, .strings list)]

/-- The members of the document.  Term lists without terms are left out. -/
def ForumQuery.members (query : ForumQuery) : List (String × Json) :=
  terms "and_terms" query.andTerms ++ terms "or_terms" query.orTerms ++
    terms "not_terms" query.notTerms ++ terms "exact_phrases" query.exactPhrases ++
    [("subreddits", .strings query.subreddits), ("search_all_reddit", .bool query.searchAll),
     ("time_filter", .str query.timeFilter), ("sort_by", .str query.sortBy)]

/-- A date as a member, left out when there is none. -/
def FeedQuery.date (name : String) (date : Option String) : List (String × Json) :=
  (date.map fun text => (name, .str text)).toList

/-- The members of the document.  Absent dates are left out. -/
def FeedQuery.members (query : FeedQuery) : List (String × Json) :=
  [("all_of_these_words", .strings query.allWords),
   ("this_exact_phrase", .str query.exactPhrase),
   ("any_of_these_words", .strings query.anyWords),
   ("none_of_these_words", .strings query.noWords),
   ("these_hashtags", .strings query.hashtags), ("language", .str query.language)] ++
    date "from_date" query.fromDate ++ date "to_date" query.toDate

namespace Document

/-- The dialect that a document is written in. -/
def dialect : Document → Dialect
  | .forum _ => .forum
  | .feed _ => .feed

/-- The members of a document, in order. -/
def members : Document → List (String × Json)
  | .forum query => query.members
  | .feed query => query.members

/-- A document as a JSON object. -/
def json (document : Document) : Json :=
  .obj document.members

end Document
end Collector
