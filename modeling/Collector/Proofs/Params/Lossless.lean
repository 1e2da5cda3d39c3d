/-
# Parameter files lose nothing

What a collector needs is in the file, in either format (`render_lossless`).  The JSON text is the
text of one object with four members.  The Python text is a comment line and two assignments; the
comment takes in the search ID as it is, so the ID must be on one line, while strings inside the
literal are escaped and never leave it.  So the document can be read back from the file, and two
documents never have the same text.
-/
import Collector.Proofs.Params.Documents
import Collector.Proofs.Text.Statements

namespace Collector

/-- The name of the least number of results in a JSON object. -/
def Dialect.minimumName : Dialect → String
  | .forum => "minimum_posts"
  | .feed => "minimum_tweets"

theorem Dialect.toLower_minimumKey (d : Dialect) : d.minimumKey.toLower = d.minimumName := by
  have hlower : d.minimumKey.toLower = d.minimumKey.map Char.toLower := rfl
  rw [← String.toList_inj, hlower, String.toList_map]
  cases d with
  | forum => rfl
  | feed => rfl

namespace Params

open Collector.Language (OneLine)

/-! ## 1. Reading parameter files -/

/-- The parameters that an object holds. -/
def ofObject? : Json → Option Params
  | .obj members => do
    let searchId ← (← members.lookup "search_id").str?
    let dialect ← Dialect.ofName? (← (← members.lookup "dialect").str?)
    let document ← Document.ofJson? dialect (← members.lookup "search_params")
    let minimum ← (← members.lookup dialect.minimumName).num?
    return { searchId, document, minimum }
  | _ => none

/-- The document and the least number of results that a module assigns.  The name of the number
tells the dialect. -/
def ofAssigned? (assigned : List (String × Json)) : Option (Document × Nat) :=
  Dialect.all.findSome? fun dialect => do
    let minimum ← (← assigned.lookup dialect.minimumKey).num?
    let document ← Document.ofJson? dialect (← assigned.lookup "SEARCH_PARAMS")
    return (document, minimum)

/-- The parameters in a JSON text. -/
def ofJsonText? (text : String) : Option Params :=
  (Language.read? .json text).bind ofObject?

/-- The document and the least number of results in a Python module. -/
def ofPythonText? (text : String) : Option (Document × Nat) :=
  (Language.module? text).bind ofAssigned?

/-! ## 2. The JSON format -/

variable (params : Params)

/-- The members of the object that the JSON text is of. -/
def members : List (String × Json) :=
  [("search_id", .str params.searchId), ("dialect", .str params.document.dialect.name),
   ("search_params", .obj (present params.document.fields)),
   (params.document.dialect.minimumName, .num params.minimum)]

/-- **The JSON text is the text of one object.** -/
theorem read?_render_json :
    Language.read? .json (params.render .json) = some (.obj params.members) := by
  have htext : params.render .json =
      String.ofList (Language.json.layout.write 0 params.json ++ ['\n']) := by
    rw [render, Json.pretty, String.ofList_append]
    rfl
  have hgap : ∀ c ∈ ['\n'], Language.isGap c := List.all_eq_true.mp rfl
  rw [htext, Language.read?_write .json params.json hgap, json, Document.json,
    Document.members_eq, Dialect.toLower_minimumKey]
  rfl

theorem lookup_minimum :
    params.members.lookup params.document.dialect.minimumName = some (.num params.minimum) := by
  unfold members
  cases params.document.dialect with
  | forum => rfl
  | feed => rfl

theorem ofJsonText?_render : ofJsonText? (params.render .json) = some params := by
  have hdocument := Document.ofJson?_json params.document
  rw [Document.json, Document.members_eq] at hdocument
  have hid : params.members.lookup "search_id" = some (.str params.searchId) := rfl
  have hdialect : params.members.lookup "dialect" = some (.str params.document.dialect.name) := rfl
  have hparams : params.members.lookup "search_params" =
      some (.obj (present params.document.fields)) := rfl
  rw [ofJsonText?, read?_render_json, Option.bind_some, ofObject?]
  simp only [hid, hdialect, hparams, lookup_minimum, Json.str?, Json.num?, Option.bind_eq_bind,
    Option.bind_some, Dialect.ofName?_name, hdocument]
  rfl

/-! ## 3. The Python format -/

/-- What the comment line says behind its mark. -/
def comment : String :=
  " " ++ params.document.dialect.title ++ " search parameters (Search ID: " ++
    params.searchId ++ ")"

theorem oneLine_comment (hid : OneLine params.searchId.toList) :
    OneLine params.comment.toList := by
  have htitle : OneLine params.document.dialect.title.toList := by
    cases params.document.dialect with
    | forum => decide
    | feed => decide
  have hblank : OneLine " ".toList := by decide
  have hmiddle : OneLine " search parameters (Search ID: ".toList := by decide
  have hclose : OneLine ")".toList := by decide
  simp only [comment, String.toList_append]
  exact (((hblank.append htitle).append hmiddle).append hid).append hclose

theorem pythonText_eq :
    params.pythonText = "#" ++ params.comment ++ "\n" ++
      "SEARCH_PARAMS = " ++ params.document.json.python ++ "\n\n" ++
      params.document.dialect.minimumKey ++ " = " ++ toString params.minimum ++ "\n" := by
  have hmark : "# " = "#" ++ " " := rfl
  have hclose : ")\n" = ")" ++ "\n" := rfl
  change "# " ++ params.document.dialect.title ++ " search parameters (Search ID: " ++
    params.searchId ++ ")\n" ++ "SEARCH_PARAMS = " ++ params.document.json.python ++ "\n\n" ++
    params.document.dialect.minimumKey ++ " = " ++ toString params.minimum ++ "\n" = _
  simp only [comment, hmark, hclose, String.append_assoc]

theorem toList_pythonText :
    params.pythonText.toList = '#' :: (params.comment.toList ++ '\n' ::
      ("SEARCH_PARAMS".toList ++ ' ' :: '=' :: ' ' ::
        (Json.Layout.python.write 0 params.document.json ++ '\n' :: ('\n' ::
      (params.document.dialect.minimumKey.toList ++ ' ' :: '=' :: ' ' ::
        (Json.Layout.python.write 0 (.num params.minimum) ++ '\n' :: [])))))) := by
  have hassign : "SEARCH_PARAMS = ".toList = "SEARCH_PARAMS".toList ++ [' ', '=', ' '] := rfl
  have hequals : " = ".toList = [' ', '=', ' '] := rfl
  have hlines : "\n\n".toList = ['\n', '\n'] := rfl
  have hline : "\n".toList = ['\n'] := rfl
  have hmark : "#".toList = ['#'] := rfl
  rw [pythonText_eq]
  simp only [String.toList_append, Json.python, String.toList_ofList,
    Nat.toString_eq_ofList_toDigits, hassign, hequals, hlines, hline, hmark, Json.Layout.write,
    List.append_assoc, List.cons_append, List.nil_append]

theorem isNameChar_minimumKey (d : Dialect) :
    d.minimumKey.toList ≠ [] ∧ ∀ c ∈ d.minimumKey.toList, Language.isNameChar c := by
  cases d with
  | forum => exact ⟨by decide, List.all_eq_true.mp rfl⟩
  | feed => exact ⟨by decide, List.all_eq_true.mp rfl⟩

/-- **The Python text is a module of two assignments** if the search ID is on one line. -/
theorem module?_render_python (hid : OneLine params.searchId.toList) :
    Language.module? (params.render .python) =
      some [("SEARCH_PARAMS", .obj (present params.document.fields)),
        (params.document.dialect.minimumKey, .num params.minimum)] := by
  have hkey := isNameChar_minimumKey params.document.dialect
  have hname : "SEARCH_PARAMS".toList ≠ [] ∧
      ∀ c ∈ "SEARCH_PARAMS".toList, Language.isNameChar c :=
    ⟨by decide, List.all_eq_true.mp rfl⟩
  -- Seven steps take off the comment, the two assignments and four line ends.
  obtain ⟨n, hn⟩ : ∃ n, params.pythonText.length + 1 = n + 8 := by
    refine ⟨params.pythonText.length - 7, ?_⟩
    rw [← String.length_toList, toList_pythonText]
    simp only [List.length_cons, List.length_append]
    omega
  rw [render, Language.module?, hn, toList_pythonText]
  rw [Language.statements?_comment _ (params.oneLine_comment hid),
    Language.statements?_lineEnd _ (by decide), Language.statements?_assignment _ hname,
    Language.statements?_lineEnd _ (by decide), Language.statements?_lineEnd _ (by decide),
    Language.statements?_assignment _ hkey, Language.statements?_lineEnd _ (by decide),
    Language.statements?]
  simp only [Document.json, Document.members_eq, Option.map_some, String.ofList_toList]

theorem lookup_minimumKey (d d' : Dialect) (record minimum : Json) :
    [("SEARCH_PARAMS", record), (d.minimumKey, minimum)].lookup d'.minimumKey =
      if d = d' then some minimum else none := by
  cases d with
  | forum =>
    cases d' with
    | forum => rfl
    | feed => rfl
  | feed =>
    cases d' with
    | forum => rfl
    | feed => rfl

/-- The name of the number tells the dialect that the record is read in. -/
theorem ofAssigned?_eq (document : Document) (minimum : Nat) :
    ofAssigned? [("SEARCH_PARAMS", .obj (present document.fields)),
      (document.dialect.minimumKey, .num minimum)] = some (document, minimum) := by
  have hdocument := Document.ofJson?_json document
  rw [Document.json, Document.members_eq] at hdocument
  have hrecord : [("SEARCH_PARAMS", Json.obj (present document.fields)),
      (document.dialect.minimumKey, .num minimum)].lookup "SEARCH_PARAMS" =
        some (.obj (present document.fields)) := rfl
  simp only [ofAssigned?, lookup_minimumKey, hrecord]
  cases hdialect : document.dialect with
  | forum =>
    rw [hdialect] at hdocument
    simp [Dialect.all, Json.num?, hdocument]
  | feed =>
    rw [hdialect] at hdocument
    simp [Dialect.all, Json.num?, hdocument]

theorem ofPythonText?_render (hid : OneLine params.searchId.toList) :
    ofPythonText? (params.render .python) = some (params.document, params.minimum) := by
  rw [ofPythonText?, module?_render_python params hid, Option.bind_some, ofAssigned?_eq]

/-! ## 4. Both formats -/

theorem head?_render (format : ParamsFormat) :
    (params.render format).toList.head? =
      some (match format with
        | .json => '{'
        | .python => '#') := by
  cases format with
  | json =>
    rw [render, Json.pretty, String.toList_append, String.toList_ofList]
    rfl
  | python =>
    rw [render, toList_pythonText]
    rfl

/-- Texts in different formats begin differently, and texts in one format are read back. -/
theorem document_of_render {params other : Params} (hid : OneLine params.searchId.toList)
    (hother : OneLine other.searchId.toList) {format format' : ParamsFormat}
    (h : params.render format = other.render format') :
    params.document = other.document ∧ params.minimum = other.minimum := by
  have hhead := params.head?_render format
  rw [h, other.head?_render format'] at hhead
  cases format with
  | json =>
    cases format' with
    | json =>
      have hread := params.ofJsonText?_render
      rw [h, other.ofJsonText?_render] at hread
      obtain rfl := Option.some.inj hread
      exact ⟨rfl, rfl⟩
    | python => exact absurd hhead (by decide)
  | python =>
    cases format' with
    | json => exact absurd hhead (by decide)
    | python =>
      have hread := params.ofPythonText?_render hid
      rw [h, other.ofPythonText?_render hother] at hread
      obtain ⟨hdocument, hminimum⟩ := Prod.mk.inj (Option.some.inj hread)
      exact ⟨hdocument.symm, hminimum.symm⟩

/-- **Parameter files lose nothing**, whatever the strings in the document, for a search ID that
is on one line.

The JSON text is the text of the object with the search ID, the name of the dialect, the fields of
the document and the least number of results.  The Python text is a comment line, the fields as a
literal, a blank line and the number.  Each is read back as it was written, and parameters with
different documents have different texts, also across the formats. -/
theorem render_lossless (hid : OneLine params.searchId.toList) :
    let dialect := params.document.dialect
    let record := Json.obj (present params.document.fields)
    Language.read? .json (params.render .json) =
      some (.obj [("search_id", .str params.searchId), ("dialect", .str dialect.name),
        ("search_params", record), (dialect.minimumName, .num params.minimum)]) ∧
    (∃ comment literal : String,
      params.render .python = "#" ++ comment ++ "\n" ++ "SEARCH_PARAMS = " ++ literal ++ "\n\n" ++
        dialect.minimumKey ++ " = " ++ toString params.minimum ++ "\n" ∧
      OneLine comment.toList ∧ Language.read? .python literal = some record) ∧
    ofJsonText? (params.render .json) = some params ∧
    ofPythonText? (params.render .python) = some (params.document, params.minimum) ∧
    ∀ other : Params, OneLine other.searchId.toList → ∀ format format',
      params.render format = other.render format' → params.document = other.document := by
  refine ⟨params.read?_render_json,
    ⟨params.comment, params.document.json.python, params.pythonText_eq,
      params.oneLine_comment hid, ?_⟩,
    params.ofJsonText?_render, params.ofPythonText?_render hid,
    fun other hother format format' h => (document_of_render hid hother h).1⟩
  have hnil : ∀ c ∈ ([] : List Char), Language.isGap c := nofun
  have hliteral := Language.read?_write .python params.document.json hnil
  rw [List.append_nil, Document.json, Document.members_eq] at hliteral
  rw [Json.python, Document.json, Document.members_eq]
  exact hliteral

/-- A document with a quotation mark, a backslash and a line end in its strings. -/
theorem render_lossless_of_marks :
    OneLine "42".toList ∧
      let query : FeedQuery :=
        { allWords := ["\"wheat\"", "\\n"], exactPhrase := "red\nrust", anyWords := [],
          noWords := [], hashtags := [], language := "en" }
      ofPythonText? ((Params.mk "42" (.feed query) 7).render .python) = some (.feed query, 7) :=
  ⟨by decide, (render_lossless _ (by decide)).2.2.2.1⟩

end Params
end Collector
