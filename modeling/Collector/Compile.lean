/-
# Compiling a query

A query text becomes its term buckets and one document for each requested dialect.  A document
depends on the buckets, the settings of its own dialect and, in the feed dialect, the span of
dates: from the configured baseline to today, unless the search covers all time.
-/
import Collector.Config.Basic
import Collector.Document
import Collector.Query.Walk

namespace Collector

/-- What a single search asks for beyond the configuration. -/
structure Request where
  /-- The dialects to write documents for; all of them when the list is empty. -/
  dialects : List Dialect := []
  /-- Overrides whether the search covers all time. -/
  allTime : Option Bool := none
  /-- The last day of a search that does not cover all time. -/
  today : Date

namespace Request

/-- The requested dialects, each once and in the order in which it was first asked for. -/
def selected (request : Request) : List Dialect :=
  if request.dialects.isEmpty then Dialect.all
  else request.dialects.foldl (fun found d => if found.contains d then found else found ++ [d]) []

end Request

namespace Buckets

/-- The buckets as a JSON object. -/
def json (b : Buckets) : Json :=
  .obj [("and_terms", .strings b.andTerms), ("or_terms", .strings b.orTerms),
        ("not_terms", .strings b.notTerms), ("exact_phrases", .strings b.exactPhrases)]

/-- The document of the forum dialect. -/
def forumQuery (config : ForumConfig) (b : Buckets) : ForumQuery where
  andTerms := b.andTerms
  orTerms := b.orTerms
  notTerms := b.notTerms
  exactPhrases := b.exactPhrases
  subreddits := config.subreddits
  searchAll := config.searchAll
  timeFilter := config.timeFilter
  sortBy := config.sortBy

/-- The document of the feed dialect, with no dates when the search covers all time.  The
exact phrases are joined to one. -/
def feedQuery (config : FeedConfig) (allTime : Bool) (today : Date) (b : Buckets) : FeedQuery where
  allWords := b.andTerms
  exactPhrase := " ".intercalate b.exactPhrases
  anyWords := b.orTerms
  noWords := b.notTerms
  hashtags := []
  language := config.language
  fromDate := if allTime then none else some config.baselineDate
  toDate := if allTime then none else some today.format

/-- The document of a dialect. -/
def document (config : Config) (request : Request) (b : Buckets) : Dialect → Document
  | .forum => .forum (b.forumQuery config.forum)
  | .feed =>
    .feed (b.feedQuery config.feed (request.allTime.getD config.feed.searchAllTime) request.today)

/-- The documents of the requested dialects. -/
def documents (config : Config) (request : Request) (b : Buckets) : List Document :=
  request.selected.map (b.document config request)

end Buckets

/-- A query with everything that is made of it. -/
structure Compiled where
  buckets : Buckets
  documents : List Document
deriving Repr, DecidableEq, Inhabited

namespace Compiled

/-- The document of a dialect, if it was asked for. -/
def document? (compiled : Compiled) (dialect : Dialect) : Option Document :=
  compiled.documents.find? (·.dialect = dialect)

/-- Buckets and documents as a JSON object. -/
def json (compiled : Compiled) : Json :=
  .obj [("buckets", compiled.buckets.json),
        ("specs", .arr (compiled.documents.map Document.json))]

end Compiled

/-- Compiles a query text. -/
def compile (text : String) (config : Config) (request : Request) : Compiled :=
  let buckets := parse text
  { buckets, documents := buckets.documents config request }

end Collector
