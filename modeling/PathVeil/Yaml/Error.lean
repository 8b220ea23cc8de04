/-!
# PathVeil.Yaml.Error

What is wrong with a YAML text, and where.
-/

namespace PathVeil.Yaml

/-- A position in a text, counted from zero. -/
structure Mark where
  /-- The number of characters before it. -/
  index : Nat := 0
  line : Nat := 0
  column : Nat := 0
  deriving DecidableEq, Repr, Inhabited

/-- Something wrong with a text. -/
structure Error where
  problem : String
  mark : Mark := {}
  deriving DecidableEq, Repr

/-- The text of the error. Lines and columns are told from one. -/
def Error.message (error : Error) : String :=
  s!"{error.problem} at line {error.mark.line + 1} column {error.mark.column + 1}"

end PathVeil.Yaml
