import CssQuery.Text.CharClass
import CssQuery.Token.Placed

/-!
# Tokens of a formula

A formula is made of signs, stars, runs of digits and runs of letters.
Selector space may stand between any two tokens and is left out.
-/

namespace CssQuery

/-- A token of a formula. -/
inductive FormulaToken where
  | plus
  | minus
  | star
  | digits (digits : List Char)
  | letters (letters : List Char)
  | other
deriving DecidableEq, Repr

namespace FormulaToken

/-- The token that begins with a character, and how many of the characters
behind it belong to it. -/
def next (_ : Nat) (c : Char) (rest : List Char) : Option FormulaToken × Nat :=
  if isSpace c then (none, 0)
  else if c.isDigit then
    let more := rest.takeWhile Char.isDigit
    (some (.digits (c :: more)), more.length)
  else if c.isAlpha then
    let more := rest.takeWhile Char.isAlpha
    (some (.letters (c :: more)), more.length)
  else if c = '+' then (some .plus, 0)
  else if c = '-' then (some .minus, 0)
  else if c = '*' then (some .star, 0)
  else (some .other, 0)

def read (text : List Char) : List (Placed FormulaToken) :=
  Placed.read next text

end FormulaToken

end CssQuery
