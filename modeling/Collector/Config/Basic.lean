/-
# Configuration

What a user sets once for all searches, in four sections: defaults of each dialect, polling of
result files, and where parameter files go.  Every setting has a default, so any part of a
configuration may be left out.

The types admit settings that make no sense; `Config.problem?` names the first of three that a
configuration file must not contain.
-/
import Collector.Calendar.Date
import Collector.Dialect
import Collector.Params.Format

namespace Collector

/-- Settings of the forum dialect. -/
structure ForumConfig where
  /-- Communities searched in addition to the whole site. -/
  subreddits : List String :=
    ["AusFarming", "GrainGrowers", "RegenerativeAg", "AustralianAgriculture", "farming",
     "agriculture", "australianplants", "australiangardening", "WesternAustralia", "perth",
     "ausfarming", "permaculture", "AussieFarmers", "gardening", "OrganicFarming",
     "plantdisease", "PlantPathology", "cropfarming", "wheat", "sustainablefarming", "AgTech",
     "crops", "Agronomy", "soilscience", "Irrigation", "Pesticides", "botany", "farmers"]
  /-- Search the whole site and not only the communities. -/
  searchAll : Bool := true
  timeFilter : String := "all"
  sortBy : String := "relevance"
  /-- The least number of posts to gather. -/
  minimumPosts : Nat := 10000
deriving Repr, DecidableEq, Inhabited

/-- Settings of the feed dialect. -/
structure FeedConfig where
  language : String := "en"
  /-- The first day of a search that does not cover all time. -/
  baselineDate : String := "2023-01-01"
  /-- Search without any span of dates. -/
  searchAllTime : Bool := false
  /-- The least number of results to gather. -/
  minimumResults : Nat := 9
deriving Repr, DecidableEq, Inhabited

/-- Settings for reading result files. -/
structure DecoderConfig where
  /-- Seconds between two polls. -/
  pollIntervalSecs : Nat := 3
  /-- The number of rows at which a collection counts as complete. -/
  completionThreshold : Nat := 5
deriving Repr, DecidableEq, Inhabited

/-- Settings for parameter files. -/
structure OutputConfig where
  /-- The directory to write to; `~/` in front stands for the home directory. -/
  directory : String := "~/.local/share/harvest/params"
  format : ParamsFormat := .python
deriving Repr, DecidableEq, Inhabited

/-- A whole configuration. -/
structure Config where
  forum : ForumConfig := {}
  feed : FeedConfig := {}
  decoder : DecoderConfig := {}
  output : OutputConfig := {}
deriving Repr, DecidableEq, Inhabited

namespace Config

/-- A setting that a configuration must not have. -/
inductive Problem where
  /-- The baseline date, as given, names no date. -/
  | baselineDate (got : String)
  /-- There is no time between two polls. -/
  | pollInterval
  /-- A community has a name of blanks only. -/
  | emptyName
deriving Repr, DecidableEq

/-- The problem as told to the user. -/
def Problem.message : Problem → String
  | .baselineDate got => "feed.baseline_date must be YYYY-MM-DD (got '" ++ got ++ "')"
  | .pollInterval => "decoder.poll_interval_secs must be > 0"
  | .emptyName => "forum.subreddits must not contain empty names"

/-- The first problem of a configuration, if it has one. -/
def problem? (config : Config) : Option Problem :=
  if (Date.read? config.feed.baselineDate).isNone then
    some (.baselineDate config.feed.baselineDate)
  else if config.decoder.pollIntervalSecs = 0 then some .pollInterval
  else if config.forum.subreddits.any Text.allBlank then some .emptyName
  else none

/-- The least number of results that the collector of a dialect is asked to gather. -/
def minimumResults (config : Config) : Dialect → Nat
  | .forum => config.forum.minimumPosts
  | .feed => config.feed.minimumResults

end Config
end Collector
