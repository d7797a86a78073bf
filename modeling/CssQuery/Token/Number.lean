import CssQuery.Text.CharClass
import CssQuery.Token.Basic

/-!
# Decimal numbers

A number is an optional sign, digits, and an optional point with digits
behind it; there is at least one digit on one side of the point.
-/

namespace CssQuery

namespace Recogniser

/-- Splits an optional sign off the front. -/
def splitSign : List Char → List Char × List Char
  | '+' :: rest => (['+'], rest)
  | '-' :: rest => (['-'], rest)
  | text => ([], text)

/-- Splits an optional point and the digits behind it off the front. -/
def splitFraction : List Char → List Char × List Char
  | '.' :: rest => ('.' :: rest.takeWhile Char.isDigit, rest.dropWhile Char.isDigit)
  | text => ([], text)

/-- The longest number at the front. -/
def decimal : Recogniser := fun text =>
  let signed := splitSign text
  let whole := signed.2.takeWhile Char.isDigit
  let fraction := splitFraction (signed.2.dropWhile Char.isDigit)
  if whole.any Char.isDigit || fraction.1.any Char.isDigit then
    some (.plain (signed.1 ++ whole ++ fraction.1) fraction.2)
  else none

/-- A number that ends the text or stands before selector space. -/
def spacedDecimal : Recogniser := fun text =>
  (decimal text).filter fun token =>
    (token.rest.head?.map isSpace).getD true

end Recogniser

end CssQuery
