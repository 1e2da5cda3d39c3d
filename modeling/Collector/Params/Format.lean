/-
# Formats of parameter files
-/

namespace Collector

/-- How a parameter file is written. -/
inductive ParamsFormat where
  /-- A JSON document. -/
  | json
  /-- A Python module that can be imported. -/
  | python
deriving Repr, DecidableEq, Inhabited

namespace ParamsFormat

/-- The name by which a format is requested. -/
def name : ParamsFormat → String
  | .json => "json"
  | .python => "python"

/-- The format of a name. -/
def ofName? (name : String) : Option ParamsFormat :=
  [json, python].find? (·.name == name)

theorem ofName?_name (format : ParamsFormat) : ofName? format.name = some format := by
  cases format <;> rfl

/-- What the name of a file in this format ends in, after the dot. -/
def fileExtension : ParamsFormat → String
  | .json => "json"
  | .python => "py"

end ParamsFormat
end Collector
