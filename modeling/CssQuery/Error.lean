import CssQuery.PseudoClass.Kind
import CssQuery.Text.Bounds

/-!
# Errors

What can go wrong while a selector is read.  A `ScanError` arises at a place
in a text; a `Refusal` is a reason for which a text that could be scanned is
not an acceptable selector.  `message` is the wording shown to the user.
-/

namespace CssQuery

/-- A failure at a place in a text, counted in characters. -/
inductive ScanError where
  /-- Something else stands where `expected` was required; `found` is the
  character there, and is missing at the end of the text. -/
  | unexpected (position : Nat) (expected : Option String)
      (found : Option Char)
  /-- A requirement on the state of the scan does not hold. -/
  | state (position : Nat) (requirement : String)
deriving DecidableEq, Repr

namespace ScanError

def describeFound : Option Char → String
  | none => "end of input"
  | some c => "character '" ++ String.singleton c ++ "'"

def describeExpected : Option String → String
  | none => ""
  | some expected => ", expected " ++ expected

def message : ScanError → String
  | unexpected position expected found =>
      "unexpected " ++ describeFound found ++ " at position "
        ++ toString position ++ describeExpected expected
  | state position requirement =>
      "scanner state error at position " ++ toString position ++ ": "
        ++ requirement

end ScanError

/-- A reason to refuse a selector or a formula. -/
inductive Refusal where
  | unsupportedPseudoClass (name : String)
  | argumentCount (kind : PseudoClassKind)
  | missingSearchText
  | malformedFormula (formula : String) (cause : ScanError)
  | numberTooLarge (digits formula : String)
  /-- The formula's variables are not exactly `n`. -/
  | foreignVariables (formula : String)
  | stated (reason : String)
deriving DecidableEq, Repr

namespace Refusal

def message : Refusal → String
  | unsupportedPseudoClass name => "unsupported pseudo-class ':" ++ name ++ "'"
  | argumentCount kind =>
      "':" ++ kind.name ++ "' takes " ++ toString kind.arity ++ " argument"
        ++ if kind.arity = 1 then "" else "s"
  | missingSearchText => ":contains() needs text to search for"
  | malformedFormula formula cause =>
      "malformed formula \"" ++ formula ++ "\": " ++ cause.message
  | numberTooLarge digits formula =>
      "number " ++ digits ++ " in formula \"" ++ formula ++ "\" is too large"
  | foreignVariables formula =>
      "nth formula \"" ++ formula
        ++ "\" must use exactly one variable, 'n'"
  | stated reason => reason

end Refusal

inductive Error where
  | scan (error : ScanError)
  | invalidSelector (refusal : Refusal)
  | notABracket (c : Char)
deriving DecidableEq, Repr

namespace Error

def message : Error → String
  | scan error => error.message
  | invalidSelector refusal => "invalid selector: " ++ refusal.message
  | notABracket c =>
      "'" ++ String.singleton c ++ "' is not a bracket or quote character"

end Error

/-- The character that closes a span opened by `c`. -/
def Bounds.closer (c : Char) : Except Error Char :=
  (Bounds.closer? c).elim (.error (.notABracket c)) .ok

/-- The other end of the pair to which `c` belongs. -/
def Bounds.counterpart (c : Char) : Except Error Char :=
  (Bounds.counterpart? c).elim (.error (.notABracket c)) .ok

end CssQuery
