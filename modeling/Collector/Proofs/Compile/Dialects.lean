/-
# The documents of a query

A query is compiled into one document for each dialect that is asked for.  Which documents there are
hangs on the list of dialects alone: each dialect of it once, in the order of first requests, or all
of them if the list is empty (`selected_inOrder`).  What a document says does not hang on that list
at all: a dialect has the same document in whatever company it is asked for (`document?_compile`).

The dialects shape their documents differently, but what the documents say comes from one place.
The word lists of both are those of the query, the feed has its phrases joined to one text, and its
two dates are there unless the search covers all time (`compile_agrees`).
-/
import Collector.Compile
import Mathlib.Data.List.Basic
import Mathlib.Data.List.Induction

namespace Collector

/-! ## 1. Which documents there are -/

namespace Request

/-- The dialects of the list, or all of them if it is empty. -/
def requested (request : Request) : List Dialect :=
  if request.dialects = [] then [.forum, .feed] else request.dialects

/-- The same request with other dialects. -/
def withDialects (request : Request) (dialects : List Dialect) : Request :=
  { request with dialects }

end Request

/-- The elements of the second list are those of the first, and their order is that of their first
occurrences there.  Since an element has one first occurrence, none is there twice. -/
structure InOrderOf (all kept : List Dialect) : Prop where
  mem (d : Dialect) : d ∈ kept ↔ d ∈ all
  ordered : kept.Pairwise fun d e => all.idxOf d < all.idxOf e

namespace InOrderOf

variable {all kept : List Dialect} {d : Dialect}

theorem nodup (h : InOrderOf all kept) : kept.Nodup := by
  refine h.ordered.imp ?_
  rintro d e hlt rfl
  exact Nat.lt_irrefl _ hlt

/-- What comes behind does not change where an element occurs first. -/
theorem ordered_append (h : InOrderOf all kept) (d : Dialect) :
    kept.Pairwise fun e f => (all ++ [d]).idxOf e < (all ++ [d]).idxOf f := by
  refine h.ordered.imp_of_mem ?_
  intro e f he hf hlt
  rwa [List.idxOf_append_of_mem ((h.mem e).mp he), List.idxOf_append_of_mem ((h.mem f).mp hf)]

/-- An element that has occurred is not kept again. -/
theorem again (h : InOrderOf all kept) (hd : d ∈ kept) : InOrderOf (all ++ [d]) kept := by
  refine ⟨?_, h.ordered_append d⟩
  intro e
  rw [h.mem, List.mem_append, List.mem_singleton]
  constructor
  · exact .inl
  · rintro (he | rfl)
    · exact he
    · exact (h.mem e).mp hd

/-- An element that occurs for the first time comes last. -/
theorem first (h : InOrderOf all kept) (hd : d ∉ kept) :
    InOrderOf (all ++ [d]) (kept ++ [d]) := by
  have hall : d ∉ all := fun hmem => hd ((h.mem d).mpr hmem)
  constructor
  · intro e
    simp [h.mem]
  · rw [List.pairwise_append]
    refine ⟨h.ordered_append d, List.pairwise_singleton _ d, ?_⟩
    intro e he f hf
    obtain rfl := List.mem_singleton.mp hf
    have hlt := List.idxOf_lt_length_iff.mpr ((h.mem e).mp he)
    rw [List.idxOf_append_of_mem ((h.mem e).mp he), List.idxOf_append_of_notMem hall]
    omega

end InOrderOf

/-- Keeping what is not there yet keeps first occurrences.  The induction is on the list from its
end, as the one kept grows there. -/
theorem foldl_inOrder (dialects : List Dialect) :
    InOrderOf dialects
      (dialects.foldl (fun found d => if found.contains d then found else found ++ [d]) []) := by
  induction dialects using List.reverseRecOn with
  | nil => exact ⟨fun d => Iff.rfl, .nil⟩
  | append_singleton dialects d ih =>
    rw [List.foldl_append, List.foldl_cons, List.foldl_nil]
    split
    · rename_i hfound
      exact ih.again (by simpa using hfound)
    · rename_i hnew
      exact ih.first (by simpa using hnew)

/-- **Each dialect is selected once, in the order of first requests.** -/
theorem selected_inOrder (request : Request) : InOrderOf request.requested request.selected := by
  unfold Request.requested Request.selected
  by_cases hempty : request.dialects = []
  · rw [if_pos hempty, hempty]
    constructor
    · intro d
      exact Iff.rfl
    · decide
  · rw [if_neg hempty, if_neg (by simpa using hempty)]
    exact foldl_inOrder request.dialects

theorem requested_ne_nil (request : Request) : request.requested ≠ [] := by
  unfold Request.requested
  split
  · simp
  · assumption

/-! ## 2. What a document says -/

/-- The term buckets that a forum document lists. -/
def ForumQuery.buckets (query : ForumQuery) : Buckets where
  andTerms := query.andTerms
  orTerms := query.orTerms
  notTerms := query.notTerms
  exactPhrases := query.exactPhrases

variable (text : String) (config : Config) (request : Request)

theorem dialect_document (b : Buckets) (d : Dialect) :
    (b.document config request d).dialect = d := by
  cases d with
  | forum | feed => rfl

theorem map_dialect_documents :
    (compile text config request).documents.map Document.dialect = request.selected := by
  rw [compile, Buckets.documents, List.map_map]
  exact (List.map_congr_left fun d _ => dialect_document config request (parse text) d).trans
    (List.map_id _)

/-- A document of the query is that of its dialect. -/
theorem mem_documents {document : Document} :
    document ∈ (compile text config request).documents ↔
      ∃ d ∈ request.requested, (parse text).document config request d = document := by
  simp only [compile, Buckets.documents, List.mem_map, (selected_inOrder request).mem]

/-- **The document of a dialect is found if the dialect is asked for**, and is the same whatever
else is. -/
theorem document?_compile (d : Dialect) :
    (compile text config request).document? d =
      if d ∈ request.requested then some ((parse text).document config request d) else none := by
  rw [Compiled.document?, compile, Buckets.documents, List.find?_map]
  have hsame : (fun document : Document => decide (document.dialect = d)) ∘
      (parse text).document config request = fun e => decide (e = d) := by
    funext e
    simp only [Function.comp_apply, dialect_document]
  rw [hsame]
  by_cases hd : d ∈ request.requested
  · have hmem := ((selected_inOrder request).mem d).mpr hd
    have hfound : request.selected.find? (fun e => decide (e = d)) = some d := by
      cases hfind : request.selected.find? (fun e => decide (e = d)) with
      | none =>
        have hnone := List.find?_eq_none.mp hfind d hmem
        simp at hnone
      | some e =>
        have heq := List.find?_some hfind
        simp only [decide_eq_true_eq] at heq
        rw [heq]
    rw [hfound, if_pos hd, Option.map_some]
  · have hnone : request.selected.find? (fun e => decide (e = d)) = none := by
      rw [List.find?_eq_none]
      intro e he
      simp only [decide_eq_true_eq]
      rintro rfl
      exact hd (((selected_inOrder request).mem e).mp he)
    rw [hnone, if_neg hd, Option.map_none]

theorem forum_of_mem {forum : ForumQuery}
    (h : .forum forum ∈ (compile text config request).documents) :
    forum = (parse text).forumQuery config.forum := by
  obtain ⟨d, -, hdocument⟩ := (mem_documents text config request).mp h
  cases d with
  | forum => exact (Document.forum.inj hdocument).symm
  | feed => cases hdocument

theorem feed_of_mem {feed : FeedQuery}
    (h : .feed feed ∈ (compile text config request).documents) :
    feed = (parse text).feedQuery config.feed
      (request.allTime.getD config.feed.searchAllTime) request.today := by
  obtain ⟨d, -, hdocument⟩ := (mem_documents text config request).mp h
  cases d with
  | forum => cases hdocument
  | feed => exact (Document.feed.inj hdocument).symm

/-! ## 3. The documents together -/

/-- **What a query is compiled into.**  There is one document for each dialect that is asked for, in
the order of first requests, so there is one at least and none is for a dialect that another one is
for.  A dialect that is asked for in two lists has the same document with both.

The forum document lists the buckets of the query, and so does the feed document, with its phrases
joined by spaces; where both are there they agree.  The feed document has its two dates if the
search, by the request or else by the configuration, does not cover all time, and none otherwise. -/
theorem compile_agrees :
    let compiled := compile text config request
    let allTime := match request.allTime with
      | some given => given
      | none => config.feed.searchAllTime
    compiled.buckets = parse text ∧
    InOrderOf request.requested (compiled.documents.map Document.dialect) ∧
    compiled.documents ≠ [] ∧
    (compiled.documents.map Document.dialect).Nodup ∧
    (∀ dialects d, d ∈ request.requested → d ∈ (request.withDialects dialects).requested →
      ∃ document, compiled.document? d = some document ∧
        (compile text config (request.withDialects dialects)).document? d = some document) ∧
    (∀ forum, .forum forum ∈ compiled.documents → forum.buckets = parse text) ∧
    (∀ feed, .feed feed ∈ compiled.documents →
      feed.allWords = (parse text).andTerms ∧ feed.anyWords = (parse text).orTerms ∧
      feed.noWords = (parse text).notTerms ∧
      feed.exactPhrase = " ".intercalate (parse text).exactPhrases ∧
      (feed.fromDate.isSome ↔ allTime = false) ∧ (feed.toDate.isSome ↔ allTime = false)) ∧
    ∀ forum feed, .forum forum ∈ compiled.documents → .feed feed ∈ compiled.documents →
      forum.andTerms = feed.allWords ∧ forum.orTerms = feed.anyWords ∧
      forum.notTerms = feed.noWords ∧
      feed.exactPhrase = " ".intercalate forum.exactPhrases := by
  intro compiled allTime
  have hlist : compiled.documents.map Document.dialect = request.selected :=
    map_dialect_documents text config request
  have horder := hlist ▸ selected_inOrder request
  have hallTime : request.allTime.getD config.feed.searchAllTime = allTime := by
    cases hgiven : request.allTime <;> simp [allTime, hgiven]
  refine ⟨rfl, horder, ?_, horder.nodup, ?_, ?_, ?_, ?_⟩
  · intro hnone
    obtain ⟨d, hd⟩ := List.exists_mem_of_ne_nil _ (requested_ne_nil request)
    rw [hnone] at horder
    exact absurd ((horder.mem d).mpr hd) List.not_mem_nil
  · intro dialects d hd hd'
    refine ⟨(parse text).document config request d, ?_, ?_⟩
    · rw [document?_compile, if_pos hd]
    · rw [document?_compile, if_pos hd']
      cases d with
      | forum | feed => rfl
  · intro forum hforum
    rw [forum_of_mem text config request hforum]
    simp [ForumQuery.buckets, Buckets.forumQuery]
  · intro feed hfeed
    rw [feed_of_mem text config request hfeed, hallTime]
    cases allTime with
    | false | true => simp [Buckets.feedQuery]
  · intro forum feed hforum hfeed
    rw [forum_of_mem text config request hforum, feed_of_mem text config request hfeed]
    simp [Buckets.forumQuery, Buckets.feedQuery]

/-- The feed is asked for first, and again behind the forum. -/
example (today : Date) :
    (compile "a NOT b" {} { dialects := [.feed, .forum, .feed], today }).documents.map
      Document.dialect = [.feed, .forum] := rfl

end Collector
