import CssQuery.Equation.Parser

/-!
# Tabulated equations

An equation may be given by a table of its first values.  Past the end of the
table it continues in equal steps from the last value.
-/

namespace CssQuery

/-- An equation by its first values and the step that continues them. -/
structure EquationTable where
  variableNames : List String
  values : List Int
  tail : Int
deriving DecidableEq, Repr

namespace EquationTable

/-- The value at `n`, continued past the end of the table. -/
def evaluate (table : EquationTable) (n : Int) : Int :=
  match table.values[n.toNat]? with
  | some value => value
  | none =>
      let lastIndex : Int := table.values.length - 1
      addClamped (table.values.getLast?.getD 0)
        (mulClamped table.tail (subClamped n lastIndex))

def toEquation (table : EquationTable) : Equation :=
  ⟨table.variableNames, table.evaluate⟩

end EquationTable

/-- Reads the formulas of a list of tables from them, and all others as
linear formulas. -/
def EquationParser.tabulated (tables : List (String × EquationTable)) :
    EquationParser := fun formula =>
  match tables.lookup formula with
  | some table => .ok table.toEquation
  | none => EquationParser.linear formula

end CssQuery
