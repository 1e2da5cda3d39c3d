/-
# Dialects

Two collectors carry out searches: one reads a forum, the other a feed.  Each has its own
dialect, the shape of the query document that it understands.
-/

namespace Collector

/-- The shape of the query document that a collector understands. -/
inductive Dialect where
  /-- Term lists and a list of communities. -/
  | forum
  /-- Word fields and a span of dates. -/
  | feed
deriving Repr, DecidableEq, Inhabited

namespace Dialect

/-- All dialects, in the order in which documents are listed by default. -/
def all : List Dialect := [.forum, .feed]

/-- The name by which a dialect is requested and files are named. -/
def name : Dialect → String
  | .forum => "forum"
  | .feed => "feed"

/-- The name as it begins a sentence. -/
def title : Dialect → String
  | .forum => "Forum"
  | .feed => "Feed"

/-- The dialect of a name. -/
def ofName? (name : String) : Option Dialect :=
  all.find? (·.name == name)

theorem ofName?_name (d : Dialect) : ofName? d.name = some d := by
  cases d <;> rfl

/-- The constant that tells a collector how many results to gather at least. -/
def minimumKey : Dialect → String
  | .forum => "MINIMUM_POSTS"
  | .feed => "MINIMUM_TWEETS"

end Dialect
end Collector
