import CssQuery.Text.Integer

/-!
# Equations

A formula in the variable `n` matters in two ways: through the variables it
names and through its value at each `n`.  `Equation` keeps just these, so
that formulas of any kind can be plugged in.  `LinearEquation` is the kind
that selectors write, a sum of multiples of variables and a constant.

All arithmetic stops at the ends of the 64-bit range.
-/

namespace CssQuery

/-- A formula seen through its variables and values. -/
structure Equation where
  variableNames : List String
  /-- The value with every variable bound to the argument. -/
  evaluate : Int → Int

/-- A signed multiple of a variable, or of one if there is no variable. -/
structure Term where
  amount : Int
  variableName : Option String
deriving DecidableEq, Repr

/-- A sum of multiples of distinct variables and a constant. -/
structure LinearEquation where
  /-- The variables in increasing order with their coefficients. -/
  coefficients : List (String × Int)
  constant : Int
deriving DecidableEq, Repr

namespace LinearEquation

def zero : LinearEquation :=
  ⟨[], 0⟩

/-- Adds an amount to the coefficient of a variable. -/
def addCoefficient (variableName : String) (amount : Int) :
    List (String × Int) → List (String × Int)
  | [] => [(variableName, addClamped 0 amount)]
  | (other, total) :: rest =>
      if variableName = other then (other, addClamped total amount) :: rest
      else if variableName < other then
        (variableName, addClamped 0 amount) :: (other, total) :: rest
      else (other, total) :: addCoefficient variableName amount rest

/-- Adds a term to the coefficient of its variable or to the constant. -/
def addTerm (equation : LinearEquation) (term : Term) : LinearEquation :=
  match term.variableName with
  | some variableName =>
      { equation with
        coefficients :=
          addCoefficient variableName term.amount equation.coefficients }
  | none =>
      { equation with constant := addClamped equation.constant term.amount }

/-- The sum of some terms, added from left to right. -/
def ofTerms (terms : List Term) : LinearEquation :=
  terms.foldl addTerm zero

def coefficient (equation : LinearEquation) (variableName : String) : Int :=
  (equation.coefficients.lookup variableName).getD 0

def variableNames (equation : LinearEquation) : List String :=
  equation.coefficients.map Prod.fst

def evaluate (equation : LinearEquation) (n : Int) : Int :=
  equation.coefficients.foldl
    (fun total entry => addClamped total (mulClamped entry.2 n))
    equation.constant

/-- A linear equation seen through its variables and values. -/
def toEquation (equation : LinearEquation) : Equation :=
  ⟨equation.variableNames, equation.evaluate⟩

end LinearEquation

end CssQuery
