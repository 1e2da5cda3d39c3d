/-
# The comment line of a module

A Python module begins with a comment that takes in the search ID as it is, while every string of
the document is escaped.  A line end ends a comment, and the check of an ID looks for slashes,
backslashes and dots only: two accepted IDs on lines of their own are an accepted ID again
(`accepted_lines`).

So an ID stays in the comment exactly if it is on one line.  Of any other ID that is accepted,
everything from its first line end on stands below the comment, as it was given
(`comment_line_ends`).
-/
import Collector.Proofs.Params.Lossless
import Collector.Proofs.Params.Writing
import Mathlib.Data.List.TakeWhile

namespace Collector
namespace Params

open Collector.Language (OneLine isLineEnd)

/-! ## 1. First lines -/

/-- A text up to its first line end. -/
def firstLine (t : List Char) : List Char :=
  t.takeWhile fun c => !isLineEnd c

/-- A text from its first line end on. -/
def belowFirstLine (t : List Char) : List Char :=
  t.dropWhile fun c => !isLineEnd c

variable {u : List Char} (v : List Char)

theorem firstLine_append (hu : OneLine u) :
    firstLine (u ++ v) = u ++ firstLine v ∧ belowFirstLine (u ++ v) = belowFirstLine v := by
  have hink : ∀ c ∈ u, (!isLineEnd c) = true := fun c hc => by simp [hu c hc]
  exact ⟨List.takeWhile_append_of_pos hink, List.dropWhile_append_of_pos hink⟩

/-- What is appended to a text of several lines stays below the first. -/
theorem firstLine_append_of_lines (hu : ¬ OneLine u) :
    firstLine (u ++ v) = firstLine u ∧ belowFirstLine (u ++ v) = belowFirstLine u ++ v := by
  induction u with
  | nil => exact absurd (fun c hc => absurd hc List.not_mem_nil) hu
  | cons c u ih =>
    unfold firstLine belowFirstLine at *
    by_cases hc : isLineEnd c
    · simp [hc]
    · have hrest : ¬ OneLine u := fun h => hu fun d hd => by
        rcases List.mem_cons.mp hd with rfl | hd
        · simpa using hc
        · exact h d hd
      simp [hc, ih hrest]

theorem belowFirstLine_eq_nil_iff : belowFirstLine u = [] ↔ OneLine u := by
  simp [belowFirstLine, OneLine, List.dropWhile_eq_nil_iff]

/-! ## 2. IDs that are accepted -/

/-- Two dots in a row stand on one line. -/
theorem hasTwoDots_lines (u v : List Char) :
    hasTwoDots (u ++ '\n' :: v) = (hasTwoDots u || hasTwoDots v) := by
  induction u using hasTwoDots.induct with
  | case1 rest => simp [hasTwoDots]
  | case2 c rest hdots ih =>
    have hnext : ¬ (c = '.' ∧ ∃ more, rest ++ '\n' :: v = '.' :: more) := by
      rintro ⟨rfl, more, hmore⟩
      cases rest with
      | nil => exact absurd (List.cons.inj hmore).1 (by decide)
      | cons d rest => exact hdots rest rfl (by rw [(List.cons.inj hmore).1])
    rw [List.cons_append, hasTwoDots, hasTwoDots, ih]
    · exact hdots
    · intro more hc hmore
      exact hnext ⟨hc, more, hmore⟩
  | case3 => simp [hasTwoDots]

theorem accepted_iff (id : String) :
    searchIdProblem? id = none ↔
      id ≠ "" ∧ (∀ c ∈ id.toList, c ≠ '/' ∧ c ≠ '\\') ∧ hasTwoDots id.toList = false := by
  unfold searchIdProblem?
  by_cases hempty : id = ""
  · simp [hempty]
  · by_cases hdots : hasTwoDots id.toList
    · simp [hempty, hdots]
    · simp [hempty, hdots]

/-- **The check of an ID does not see line ends.** -/
theorem accepted_lines {first second : String} (hfirst : searchIdProblem? first = none)
    (hsecond : searchIdProblem? second = none) :
    searchIdProblem? (first ++ "\n" ++ second) = none := by
  obtain ⟨hne, hchars, hdots⟩ := (accepted_iff first).mp hfirst
  obtain ⟨-, hchars', hdots'⟩ := (accepted_iff second).mp hsecond
  have hlines : (first ++ "\n" ++ second).toList = first.toList ++ '\n' :: second.toList := by
    simp
  refine (accepted_iff _).mpr ⟨?_, ?_, ?_⟩
  · intro hempty
    rw [hempty] at hlines
    simp at hlines
  · rw [hlines]
    intro c hc
    rcases List.mem_append.mp hc with hc | hc
    · exact hchars c hc
    · rcases List.mem_cons.mp hc with rfl | hc
      · decide
      · exact hchars' c hc
  · rw [hlines, hasTwoDots_lines, hdots, hdots']
    rfl

/-! ## 3. The module -/

variable (params : Params)

/-- What stands in front of the search ID. -/
def commentOpening (dialect : Dialect) : List Char :=
  ("# " ++ dialect.title ++ " search parameters (Search ID: ").toList

theorem oneLine_commentOpening (dialect : Dialect) : OneLine (commentOpening dialect) := by
  cases dialect with
  | forum => decide
  | feed => decide

/-- The module with the search ID and what is around it. -/
theorem exists_render_python :
    ∃ rest, (params.render .python).toList = commentOpening params.document.dialect ++
      (params.searchId.toList ++ (")\nSEARCH_PARAMS = ".toList ++ rest)) := by
  have hclose : ")\nSEARCH_PARAMS = " = ")\n" ++ "SEARCH_PARAMS = " := rfl
  let rest := params.document.json.python ++ "\n\n" ++
    params.document.dialect.minimumKey ++ " = " ++ toString params.minimum ++ "\n"
  have htext : params.render .python = "# " ++ params.document.dialect.title ++
      " search parameters (Search ID: " ++ params.searchId ++ ")\nSEARCH_PARAMS = " ++ rest := by
    rw [hclose]
    change "# " ++ params.document.dialect.title ++ " search parameters (Search ID: " ++
      params.searchId ++ ")\n" ++ "SEARCH_PARAMS = " ++ params.document.json.python ++ "\n\n" ++
      params.document.dialect.minimumKey ++ " = " ++ toString params.minimum ++ "\n" = _
    simp only [rest, String.append_assoc]
  refine ⟨rest.toList, ?_⟩
  rw [htext]
  simp only [commentOpening, String.toList_append, List.append_assoc]

/-- The comment takes in the search ID up to its first line end, if it has one. -/
theorem exists_firstLine_render :
    ∃ rest,
      let behind := params.searchId.toList ++ (")\nSEARCH_PARAMS = ".toList ++ rest)
      firstLine (params.render .python).toList =
          commentOpening params.document.dialect ++ firstLine behind ∧
        belowFirstLine (params.render .python).toList = belowFirstLine behind := by
  obtain ⟨rest, htext⟩ := params.exists_render_python
  rw [htext]
  exact ⟨rest, firstLine_append _ (oneLine_commentOpening params.document.dialect)⟩

theorem firstLine_render (hid : OneLine params.searchId.toList) :
    firstLine (params.render .python).toList =
        commentOpening params.document.dialect ++ params.searchId.toList ++ [')'] ∧
      "\nSEARCH_PARAMS = ".toList <+: belowFirstLine (params.render .python).toList := by
  obtain ⟨rest, hline, hbelow⟩ := params.exists_firstLine_render
  obtain ⟨hinner, hinnerBelow⟩ := firstLine_append (")\nSEARCH_PARAMS = ".toList ++ rest) hid
  rw [hline, hbelow, hinner, hinnerBelow, List.append_assoc]
  exact ⟨rfl, rest, rfl⟩

/-- The comment stops in an ID of several lines. -/
theorem firstLine_render_of_lines (hid : ¬ OneLine params.searchId.toList) :
    firstLine (params.render .python).toList =
        commentOpening params.document.dialect ++ firstLine params.searchId.toList ∧
      belowFirstLine params.searchId.toList ++ ")\nSEARCH_PARAMS = ".toList <+:
        belowFirstLine (params.render .python).toList := by
  obtain ⟨rest, hline, hbelow⟩ := params.exists_firstLine_render
  obtain ⟨hinner, hinnerBelow⟩ :=
    firstLine_append_of_lines (")\nSEARCH_PARAMS = ".toList ++ rest) hid
  rw [hline, hbelow, hinner, hinnerBelow, ← List.append_assoc]
  exact ⟨rfl, rest, rfl⟩

/-- A parameter file that has been written holds the text. -/
theorem read_of_write {directory path : String} {format : ParamsFormat} {slot : ParamsSlot}
    {disk after : Unreliable}
    (h : (params.write directory format slot : StateM Unreliable _).run disk = (.ok path, after)) :
    after.tree.read path = .ok (params.render format).toUTF8 := by
  let w : Writing := ⟨params, format, slot⟩
  have hperform : (w.perform directory).run disk = (.ok path, after) := h
  have hok : ((w.perform directory).run disk).1 = .ok path := by rw [hperform]
  obtain ⟨-, -, made, -, hresolve, hkeeps, -⟩ := w.perform_ok directory disk hok
  have hfile := w.perform_fileAt?_place directory disk w.target
  rw [hperform] at hkeeps hfile
  rw [if_pos ⟨rfl, rfl⟩] at hfile
  exact FileTree.read_of_fileAt? (FileTree.resolve_mono hkeeps hresolve) hfile

/-- **A search ID ends the comment of a module with its first line end.**

A module begins with a comment, up to the parenthesis behind the search ID, and goes on with the
document on the next line, if the ID is on one line.  If it is not, the comment stops in the ID,
and what the ID goes on with stands below the comment unchanged, in front of the document.  This
is the text that a collector finds in the file, under either name. -/
theorem comment_line_ends (params : Params) :
    let id := params.searchId.toList
    let opening := commentOpening params.document.dialect
    let text := (params.render .python).toList
    (OneLine id →
      firstLine text = opening ++ id ++ [')'] ∧
        "\nSEARCH_PARAMS = ".toList <+: belowFirstLine text) ∧
    (¬ OneLine id →
      belowFirstLine id ≠ [] ∧ firstLine text = opening ++ firstLine id ∧
        belowFirstLine id ++ ")\nSEARCH_PARAMS = ".toList <+: belowFirstLine text) ∧
    ∀ (directory path : String) (slot : ParamsSlot) (disk after : Unreliable),
      (params.write directory .python slot : StateM Unreliable _).run disk = (.ok path, after) →
        after.tree.read path = .ok (params.render .python).toUTF8 :=
  ⟨params.firstLine_render,
    fun hid => ⟨mt belowFirstLine_eq_nil_iff.mp hid, params.firstLine_render_of_lines hid⟩,
    fun _ _ _ _ _ h => params.read_of_write h⟩

/-- An ID that is accepted, whose second line becomes a line of the module.  What stands there is no
module any more. -/
theorem accepted_import :
    let params : Params := ⟨"1\nimport os", .feed default, 1⟩
    let text := (params.render .python).toList
    searchIdProblem? params.searchId = none ∧
      firstLine text = "# Feed search parameters (Search ID: 1".toList ∧
      "\nimport os)\nSEARCH_PARAMS = ".toList <+: belowFirstLine text ∧
      Language.module? (params.render .python) = none := by
  intro params text
  have hid : params.searchId = "1" ++ "\n" ++ "import os" := by decide
  have hlines : ¬ OneLine params.searchId.toList := by decide
  have hfirst : commentOpening params.document.dialect ++ firstLine params.searchId.toList =
      "# Feed search parameters (Search ID: 1".toList := by decide
  have hsecond : belowFirstLine params.searchId.toList ++ ")\nSEARCH_PARAMS = ".toList =
      "\nimport os)\nSEARCH_PARAMS = ".toList := by decide
  obtain ⟨hline, hbelow⟩ := params.firstLine_render_of_lines hlines
  rw [hfirst] at hline
  rw [hsecond] at hbelow
  refine ⟨?_, hline, hbelow, ?_⟩
  · rw [hid]
    have hfirst : searchIdProblem? "1" = none := by decide
    have hsecond : searchIdProblem? "import os" = none := by decide
    exact accepted_lines hfirst hsecond
  · -- The comment and its line end are passed over, and `import os)` is no assignment.
    obtain ⟨rest, hrest⟩ := hbelow
    have htext : firstLine text ++ belowFirstLine text = text := List.takeWhile_append_dropWhile
    have hcomment : OneLine " Feed search parameters (Search ID: 1".toList := by decide
    have hmark : "# Feed search parameters (Search ID: 1".toList =
        '#' :: " Feed search parameters (Search ID: 1".toList := by decide
    have hstop : "\nimport os)\nSEARCH_PARAMS = ".toList =
        '\n' :: 'i' :: 'm' :: 'p' :: 'o' :: 'r' :: 't' :: ' ' :: 'o' ::
          "s)\nSEARCH_PARAMS = ".toList := by decide
    obtain ⟨n, hn⟩ : ∃ n, (params.render .python).length + 1 = n + 3 := by
      refine ⟨text.length - 2, ?_⟩
      rw [← String.length_toList]
      have hlong := congrArg List.length htext
      rw [hline, List.length_append] at hlong
      have : 2 ≤ "# Feed search parameters (Search ID: 1".toList.length := by decide
      change text.length + 1 = _
      omega
    rw [Language.module?, hn]
    change Language.statements? (n + 3) text = none
    rw [← htext, hline, ← hrest, hmark, hstop]
    exact (Language.statements?_comment (n + 2) hcomment _).trans rfl

end Params
end Collector
