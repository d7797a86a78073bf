import CssQuery.Equation.Basic
import CssQuery.Equation.Token

/-!
# Reading linear formulas

A formula is a sequence of terms.  Every term but the first begins with a
sign.  A term is a run of digits, a run of letters, or digits, an optional
star and letters; a run of letters is a variable.

The reader goes over the tokens once.  `FormulaReading` says what has been
read of the current term, and thereby what may come next.
-/

namespace CssQuery

/-- How far the current term has been read. -/
inductive FormulaReading where
  | start
  /-- A sign has been read; a number or a variable must follow. -/
  | signed (sign : Int)
  /-- A number has been read, which a variable may follow. -/
  | counted (amount : Int)
  /-- A number and a star have been read; a variable must follow. -/
  | starred (amount : Int)
  | complete
deriving DecidableEq, Repr

namespace LinearEquation

/-- The terms read so far and the state of the next one. -/
abbrev Progress := List Term × FormulaReading

/-- Continues a term after its sign. -/
def readSigned (formula : List Char) (terms : List Term) (sign : Int)
    (placed : Placed FormulaToken) : Except Error Progress :=
  match placed.token with
  | .digits digits =>
      if (digitsValue digits : Int) ≤ maxInteger then
        .ok (terms, .counted (sign * digitsValue digits))
      else
        .error (.invalidSelector
          (.numberTooLarge (String.ofList digits) (String.ofList formula)))
  | .letters letters =>
      .ok (terms ++ [⟨sign, some (String.ofList letters)⟩], .complete)
  | _ => .error (placed.unexpected "a number or variable")

/-- Begins a further term, for which a sign is required. -/
def readSign (terms : List Term) (placed : Placed FormulaToken) :
    Except Error Progress :=
  match placed.token with
  | .plus => .ok (terms, .signed 1)
  | .minus => .ok (terms, .signed (-1))
  | _ => .error (placed.unexpected "'+' or '-'")

def readToken (formula : List Char) (progress : Progress)
    (placed : Placed FormulaToken) : Except Error Progress :=
  let terms := progress.1
  match progress.2, placed.token with
  | .start, .plus => .ok (terms, .signed 1)
  | .start, .minus => .ok (terms, .signed (-1))
  | .start, _ => readSigned formula terms 1 placed
  | .signed sign, _ => readSigned formula terms sign placed
  | .counted amount, .star => .ok (terms, .starred amount)
  | .counted amount, .letters letters =>
      .ok (terms ++ [⟨amount, some (String.ofList letters)⟩], .complete)
  | .counted amount, _ => readSign (terms ++ [⟨amount, none⟩]) placed
  | .starred amount, .letters letters =>
      .ok (terms ++ [⟨amount, some (String.ofList letters)⟩], .complete)
  | .starred _, _ => .error (placed.unexpected "a number or variable")
  | .complete, _ => readSign terms placed

def finish (formula : List Char) (progress : Progress) :
    Except Error (List Term) :=
  match progress.2 with
  | .start => .error (.scan (.state formula.length "empty formula"))
  | .signed _ | .starred _ =>
      .error (unexpectedEnd formula.length "a number or variable")
  | .counted amount => .ok (progress.1 ++ [⟨amount, none⟩])
  | .complete => .ok progress.1

def parseTerms (formula : List Char) : Except Error (List Term) := do
  let progress ←
    (FormulaToken.read formula).foldlM (readToken formula) ([], .start)
  finish formula progress

def parse (formula : List Char) : Except Error LinearEquation :=
  (parseTerms formula).map ofTerms

end LinearEquation

/-- A reader of formulas. -/
abbrev EquationParser := String → Except Error Equation

namespace EquationParser

/-- Reads linear formulas.  Every error is a refusal that quotes the formula. -/
def linear : EquationParser := fun formula =>
  match LinearEquation.parse formula.toList with
  | .ok equation => .ok equation.toEquation
  | .error (.scan cause) =>
      .error (.invalidSelector (.malformedFormula formula cause))
  | .error error => .error error

end EquationParser

end CssQuery
