/-
# Parameter files

A collector is started with a parameter file: the query document, the search it belongs to and
the least number of results to gather.  In the Python format it is a module of two constants
under a comment line, in the JSON format one object with four members.

The file is named after its dialect and the search, which is why a search ID must not be empty
and must not lead out of the directory (`SearchId.problem?`).  The latest search is also
written under a name without the ID.
-/
import Collector.Document
import Collector.Params.Format

namespace Collector

/-- Why a text cannot be a search ID. -/
inductive SearchIdProblem where
  | empty
  /-- The ID as given has a path separator or `..` in it. -/
  | leadsOut (id : String)
deriving Repr, DecidableEq

/-- The problem as told to the user. -/
def SearchIdProblem.message : SearchIdProblem → String
  | .empty => "Search ID cannot be empty"
  | .leadsOut id => "Search ID must not contain path separators or '..': " ++ id

/-- Two dots in a row occur in the text. -/
def hasTwoDots : List Char → Bool
  | '.' :: '.' :: _ => true
  | _ :: rest => hasTwoDots rest
  | [] => false

/-- Why an ID cannot be part of a file name, if there is a reason. -/
def searchIdProblem? (id : String) : Option SearchIdProblem :=
  if id.isEmpty then some .empty
  else if id.toList.any (fun c => c = '/' || c = '\\') || hasTwoDots id.toList then
    some (.leadsOut id)
  else none

/-- What a parameter file says. -/
structure Params where
  searchId : String
  document : Document
  /-- The least number of results to gather. -/
  minimum : Nat
deriving Repr, DecidableEq, Inhabited

namespace Params

/-- The name of the file for one search. -/
def fileName (dialect : Dialect) (searchId : String) (format : ParamsFormat) : String :=
  dialect.name ++ "_search_params_" ++ searchId ++ "." ++ format.fileExtension

/-- The name of the file for the latest search. -/
def latestFileName (dialect : Dialect) (format : ParamsFormat) : String :=
  dialect.name ++ "_search_params." ++ format.fileExtension

/-- The parameters as a Python module. -/
def pythonText (params : Params) : String :=
  let dialect := params.document.dialect
  "# " ++ dialect.title ++ " search parameters (Search ID: " ++ params.searchId ++ ")\n" ++
    "SEARCH_PARAMS = " ++ params.document.json.python ++ "\n\n" ++
    dialect.minimumKey ++ " = " ++ toString params.minimum ++ "\n"

/-- The parameters as a JSON object. -/
def json (params : Params) : Json :=
  let dialect := params.document.dialect
  .obj [("search_id", .str params.searchId), ("dialect", .str dialect.name),
        ("search_params", params.document.json),
        (dialect.minimumKey.toLower, .num params.minimum)]

/-- The contents of the file in a format. -/
def render (params : Params) : ParamsFormat → String
  | .python => params.pythonText
  | .json => params.json.pretty ++ "\n"

end Params
end Collector
