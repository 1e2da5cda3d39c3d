/-
# Query documents are read back

A document is written as a record of its fields in the order of their declaration, of which some
are left out (`Document.fields`): the term lists of the forum when they are empty, and the dates of
the feed when there are none.  Reading looks every field up by its name and takes a missing one for
the empty list or the missing date (`Document.ofJson?`).  No name occurs twice, so that every field
is found where it has been written (`lookup_present`), and the document is the same
(`Document.ofJson?_json`).
-/
import Collector.Params.Basic
import Mathlib.Data.List.Basic

namespace Collector

/-! ## 1. Records with fields left out -/

/-- The members of a record, without the fields that are left out. -/
def present (fields : List (String × Option Json)) : List (String × Json) :=
  fields.filterMap fun (name, value) => value.map (name, ·)

theorem present_append (fields more : List (String × Option Json)) :
    present (fields ++ more) = present fields ++ present more :=
  List.filterMap_append

theorem present_cons_none (name : String) (fields : List (String × Option Json)) :
    present ((name, none) :: fields) = present fields := rfl

theorem present_cons_some (name : String) (value : Json) (fields : List (String × Option Json)) :
    present ((name, some value) :: fields) = (name, value) :: present fields := rfl

theorem lookup_present_of_not_mem {fields : List (String × Option Json)} {name : String}
    (h : name ∉ fields.map Prod.fst) : (present fields).lookup name = none := by
  rw [List.lookup_eq_none_iff]
  intro member hmember
  obtain ⟨⟨other, value⟩, hfield, hvalue⟩ := List.mem_filterMap.mp hmember
  obtain ⟨value, rfl, rfl⟩ := Option.map_eq_some_iff.mp hvalue
  have hother : other ∈ fields.map Prod.fst := List.mem_map_of_mem hfield
  rw [bne_iff_ne]
  rintro rfl
  exact h hother

/-- **A field is looked up as it is**, missing if it is left out, when no two have the same name. -/
theorem lookup_present {fields : List (String × Option Json)}
    (hnames : (fields.map Prod.fst).Nodup) {name : String} {value : Option Json}
    (hfield : (name, value) ∈ fields) : (present fields).lookup name = value := by
  induction fields with
  | nil => exact absurd hfield List.not_mem_nil
  | cons field fields ih =>
    obtain ⟨first, firstValue⟩ := field
    obtain ⟨hfirst, hrest⟩ := List.nodup_cons.mp hnames
    rcases List.mem_cons.mp hfield with hsame | hlater
    · obtain ⟨rfl, rfl⟩ := Prod.mk.inj hsame
      cases value with
      | none => rw [present_cons_none, lookup_present_of_not_mem hfirst]
      | some value => rw [present_cons_some, List.lookup_cons_self]
    · have hname : name ∈ fields.map Prod.fst := List.mem_map_of_mem hlater
      have hne : name ≠ first := by
        rintro rfl
        exact hfirst hname
      cases firstValue with
      | none => exact ih hrest hlater
      | some firstValue =>
        rw [present_cons_some, List.lookup_cons, beq_eq_false_iff_ne.mpr hne]
        exact ih hrest hlater

namespace Json

/-- The strings of a list of strings. -/
def strings? : Json → Option (List String)
  | .arr items => items.mapM fun
    | .str s => some s
    | _ => none
  | _ => none

def str? : Json → Option String
  | .str s => some s
  | _ => none

def bool? : Json → Option Bool
  | .bool b => some b
  | _ => none

def num? : Json → Option Nat
  | .num n => some n
  | _ => none

theorem strings?_strings (list : List String) : (strings list).strings? = some list := by
  rw [strings, strings?]
  induction list with
  | nil => rfl
  | cons s list ih =>
    rw [List.map_cons, List.mapM_cons, ih]
    rfl

end Json

/-- A list as a field, left out when it is empty. -/
def unlessEmpty (list : List String) : Option Json :=
  if list.isEmpty then none else some (.strings list)

namespace Document

/-- The fields of a document in the order of their declaration. -/
def fields : Document → List (String × Option Json)
  | .forum query =>
    [("and_terms", unlessEmpty query.andTerms), ("or_terms", unlessEmpty query.orTerms),
     ("not_terms", unlessEmpty query.notTerms),
     ("exact_phrases", unlessEmpty query.exactPhrases),
     ("subreddits", some (.strings query.subreddits)),
     ("search_all_reddit", some (.bool query.searchAll)),
     ("time_filter", some (.str query.timeFilter)), ("sort_by", some (.str query.sortBy))]
  | .feed query =>
    [("all_of_these_words", some (.strings query.allWords)),
     ("this_exact_phrase", some (.str query.exactPhrase)),
     ("any_of_these_words", some (.strings query.anyWords)),
     ("none_of_these_words", some (.strings query.noWords)),
     ("these_hashtags", some (.strings query.hashtags)),
     ("language", some (.str query.language)), ("from_date", query.fromDate.map .str),
     ("to_date", query.toDate.map .str)]

theorem terms_eq (name : String) (list : List String) :
    ForumQuery.terms name list = present [(name, unlessEmpty list)] := by
  unfold ForumQuery.terms unlessEmpty
  split
  · rfl
  · rfl

theorem date_eq (name : String) (date : Option String) :
    FeedQuery.date name date = present [(name, date.map .str)] := by
  cases date with
  | none => rfl
  | some text => rfl

/-- **The members of a document are its fields**, without those that are left out. -/
theorem members_eq (document : Document) : document.members = present document.fields := by
  cases document with
  | forum query =>
    have hfixed := present_append ((Document.forum query).fields.take 4)
      ((Document.forum query).fields.drop 4)
    rw [members, ForumQuery.members, terms_eq, terms_eq, terms_eq, terms_eq, ← present_append,
      ← present_append, ← present_append]
    exact hfixed.symm
  | feed query =>
    have hfixed := present_append ((Document.feed query).fields.take 6)
      ((Document.feed query).fields.drop 6)
    rw [members, FeedQuery.members, date_eq, date_eq, List.append_assoc, ← present_append]
    exact hfixed.symm

theorem nodup_names (document : Document) : (document.fields.map Prod.fst).Nodup := by
  cases document with
  | forum query =>
    simp only [fields, List.map_cons, List.map_nil]
    decide
  | feed query =>
    simp only [fields, List.map_cons, List.map_nil]
    decide

/-! ## 2. Reading -/

/-- A list that may have been left out. -/
def listOf? (members : List (String × Json)) (name : String) : Option (List String) :=
  match members.lookup name with
  | some value => value.strings?
  | none => some []

/-- A date that may have been left out. -/
def dateOf? (members : List (String × Json)) (name : String) : Option (Option String) :=
  match members.lookup name with
  | some value => value.str?.map some
  | none => some none

/-- The document of a dialect with given members, looked up by their names. -/
def ofMembers? (members : List (String × Json)) : Dialect → Option Document
  | .forum => do
    return .forum {
      andTerms := ← listOf? members "and_terms"
      orTerms := ← listOf? members "or_terms"
      notTerms := ← listOf? members "not_terms"
      exactPhrases := ← listOf? members "exact_phrases"
      subreddits := ← (← members.lookup "subreddits").strings?
      searchAll := ← (← members.lookup "search_all_reddit").bool?
      timeFilter := ← (← members.lookup "time_filter").str?
      sortBy := ← (← members.lookup "sort_by").str? }
  | .feed => do
    return .feed {
      allWords := ← (← members.lookup "all_of_these_words").strings?
      exactPhrase := ← (← members.lookup "this_exact_phrase").str?
      anyWords := ← (← members.lookup "any_of_these_words").strings?
      noWords := ← (← members.lookup "none_of_these_words").strings?
      hashtags := ← (← members.lookup "these_hashtags").strings?
      language := ← (← members.lookup "language").str?
      fromDate := ← dateOf? members "from_date"
      toDate := ← dateOf? members "to_date" }

/-- The document of a dialect that a JSON value holds. -/
def ofJson? (dialect : Dialect) : Json → Option Document
  | .obj members => ofMembers? members dialect
  | _ => none

theorem listOf?_unlessEmpty {members : List (String × Json)} {name : String} {list : List String}
    (h : members.lookup name = unlessEmpty list) : listOf? members name = some list := by
  rw [listOf?, h, unlessEmpty]
  cases list with
  | nil => rfl
  | cons s list => exact Json.strings?_strings (s :: list)

theorem dateOf?_map {members : List (String × Json)} {name : String} {date : Option String}
    (h : members.lookup name = date.map .str) : dateOf? members name = some date := by
  rw [dateOf?, h]
  cases date with
  | none => rfl
  | some text => rfl

/-- **A document is the same when it is read back.** -/
theorem ofJson?_json (document : Document) :
    ofJson? document.dialect document.json = some document := by
  have hlookup (name : String) (value : Option Json)
      (hfield : (name, value) ∈ document.fields) : document.members.lookup name = value := by
    rw [members_eq]
    exact lookup_present document.nodup_names hfield
  rw [json, ofJson?]
  cases document with
  | forum query =>
    have hlist (name : String) (list : List String)
        (hfield : (name, unlessEmpty list) ∈ (forum query).fields) :=
      listOf?_unlessEmpty (hlookup name _ hfield)
    simp only [dialect, ofMembers?,
      hlist "and_terms" query.andTerms (by simp [fields]),
      hlist "or_terms" query.orTerms (by simp [fields]),
      hlist "not_terms" query.notTerms (by simp [fields]),
      hlist "exact_phrases" query.exactPhrases (by simp [fields]),
      hlookup "subreddits" (some (.strings query.subreddits)) (by simp [fields]),
      hlookup "search_all_reddit" (some (.bool query.searchAll)) (by simp [fields]),
      hlookup "time_filter" (some (.str query.timeFilter)) (by simp [fields]),
      hlookup "sort_by" (some (.str query.sortBy)) (by simp [fields]),
      Option.bind_eq_bind, Option.bind_some, Json.strings?_strings]
    rfl
  | feed query =>
    have hdate (name : String) (date : Option String)
        (hfield : (name, date.map .str) ∈ (feed query).fields) :=
      dateOf?_map (hlookup name _ hfield)
    simp only [dialect, ofMembers?,
      hlookup "all_of_these_words" (some (.strings query.allWords)) (by simp [fields]),
      hlookup "this_exact_phrase" (some (.str query.exactPhrase)) (by simp [fields]),
      hlookup "any_of_these_words" (some (.strings query.anyWords)) (by simp [fields]),
      hlookup "none_of_these_words" (some (.strings query.noWords)) (by simp [fields]),
      hlookup "these_hashtags" (some (.strings query.hashtags)) (by simp [fields]),
      hlookup "language" (some (.str query.language)) (by simp [fields]),
      hdate "from_date" query.fromDate (by simp [fields]),
      hdate "to_date" query.toDate (by simp [fields]),
      Option.bind_eq_bind, Option.bind_some, Json.strings?_strings]
    rfl

end Document
end Collector
