/-
# The text of a configuration

A configuration is kept in a TOML file with four sections.  Writing lists every setting.
Reading takes the default for a setting that is missing and ignores names that it does not
know, but a setting of the wrong type makes the file unreadable.

A section may also be given as the list of its settings in the order in which they are written,
cut short anywhere and with anything after the last one; and since a date has no settings, a
section that is a date has the defaults throughout.
-/
import Collector.Config.Basic
import Collector.Toml.Read
import Collector.Toml.Write

namespace Collector
namespace Config

/-! ## 1. Writing -/

/-- The sections of a configuration with all their settings. -/
def sections (config : Config) : List Toml.Section :=
  [⟨"forum",
     [("subreddits", .strs config.forum.subreddits), ("search_all", .bool config.forum.searchAll),
      ("time_filter", .str config.forum.timeFilter), ("sort_by", .str config.forum.sortBy),
      ("minimum_posts", .count config.forum.minimumPosts)]⟩,
   ⟨"feed",
     [("language", .str config.feed.language), ("baseline_date", .str config.feed.baselineDate),
      ("search_all_time", .bool config.feed.searchAllTime),
      ("minimum_results", .count config.feed.minimumResults)]⟩,
   ⟨"decoder",
     [("poll_interval_secs", .count config.decoder.pollIntervalSecs),
      ("completion_threshold", .count config.decoder.completionThreshold)]⟩,
   ⟨"output",
     [("directory", .str config.output.directory), ("format", .str config.output.format.name)]⟩]

/-- The text of a configuration, unless one of its numbers is too large for the file. -/
def render? (config : Config) : Option String :=
  Toml.write? config.sections

/-! ## 2. Reading -/

/-- What a section says about its settings: by name, or in order. -/
def settingsOf? (names : List String) : Toml → Option (List (String × Toml))
  | .table entries => some entries
  | .arr items => some (names.zip items)
  | .time _ => some []
  | _ => none

/-- A setting with its default. -/
def setting? {α : Type} (settings : List (String × Toml)) (name : String)
    (read : Toml → Option α) (default : α) : Option α :=
  match settings.find? (·.1 = name) with
  | none => some default
  | some (_, value) => read value

/-- A string. -/
def str? : Toml → Option String
  | .str s => some s
  | _ => none

/-- A truth value. -/
def bool? : Toml → Option Bool
  | .bool b => some b
  | _ => none

/-- A number that is not negative. -/
def count? : Toml → Option Nat
  | .int (.ofNat n) => some n
  | _ => none

/-- A list of strings. -/
def strs? : Toml → Option (List String)
  | .arr items => items.mapM str?
  | _ => none

/-- A format: its name, or a table with nothing but the name and nothing under it. -/
def format? : Toml → Option ParamsFormat
  | .str name => ParamsFormat.ofName? name
  | .table [(name, .table [])] | .table [(name, .arr [])] => ParamsFormat.ofName? name
  | _ => none

/-- The forum section. -/
def forum? (part : Toml) : Option ForumConfig := do
  let settings ← settingsOf?
    ["subreddits", "search_all", "time_filter", "sort_by", "minimum_posts"] part
  let default : ForumConfig := {}
  some {
    subreddits := ← setting? settings "subreddits" strs? default.subreddits
    searchAll := ← setting? settings "search_all" bool? default.searchAll
    timeFilter := ← setting? settings "time_filter" str? default.timeFilter
    sortBy := ← setting? settings "sort_by" str? default.sortBy
    minimumPosts := ← setting? settings "minimum_posts" count? default.minimumPosts }

/-- The feed section. -/
def feed? (part : Toml) : Option FeedConfig := do
  let settings ← settingsOf?
    ["language", "baseline_date", "search_all_time", "minimum_results"] part
  let default : FeedConfig := {}
  some {
    language := ← setting? settings "language" str? default.language
    baselineDate := ← setting? settings "baseline_date" str? default.baselineDate
    searchAllTime := ← setting? settings "search_all_time" bool? default.searchAllTime
    minimumResults := ← setting? settings "minimum_results" count? default.minimumResults }

/-- The decoder section. -/
def decoder? (part : Toml) : Option DecoderConfig := do
  let settings ← settingsOf? ["poll_interval_secs", "completion_threshold"] part
  let default : DecoderConfig := {}
  some {
    pollIntervalSecs :=
      ← setting? settings "poll_interval_secs" count? default.pollIntervalSecs
    completionThreshold :=
      ← setting? settings "completion_threshold" count? default.completionThreshold }

/-- The output section. -/
def output? (part : Toml) : Option OutputConfig := do
  let settings ← settingsOf? ["directory", "format"] part
  let default : OutputConfig := {}
  some {
    directory := ← setting? settings "directory" str? default.directory
    format := ← setting? settings "format" format? default.format }

/-- The configuration that a TOML table holds. -/
def ofToml? : Toml → Option Config
  | .table sections => do
    some {
      forum := ← setting? sections "forum" forum? {}
      feed := ← setting? sections "feed" feed? {}
      decoder := ← setting? sections "decoder" decoder? {}
      output := ← setting? sections "output" output? {} }
  | _ => none

/-- The configuration that a text describes. -/
def read? (text : String) : Option Config :=
  (Toml.read? text.toList).bind ofToml?

end Config
end Collector
