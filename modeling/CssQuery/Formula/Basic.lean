import CssQuery.Formula.Cache
import CssQuery.Text.LetterCase
import CssQuery.Text.Space

/-!
# Formulas for positions

A formula selects positions among siblings.  The words `even` and `odd` stand
for formulas; a bare integer selects the position it names and needs no cache;
every other formula is an entry of a formula cache.
-/

namespace CssQuery

/-- Computations that use a formula cache. -/
abbrev Cached := StateM FormulaCache

/-- Computations that use a formula cache and may fail.  What they did to the
cache stays done when they fail. -/
abbrev Compiling := ExceptT Error Cached

inductive Formula where
  | literal (position : Int)
  | expression (entry : EntryId)
deriving DecidableEq, Repr

namespace Formula

/-- Trims a formula, lowercases its ASCII letters and writes out the words
`even` and `odd`. -/
def normalize (text : String) : String :=
  let normal := String.ofList ((trim text.toList).map Char.toLower)
  if normal = "even" then "2n" else if normal = "odd" then "2n+1" else normal

/-- The formula entry for a text that is already normal. -/
def request (text : String) : Compiling EntryId :=
  ExceptT.mk fun cache => cache.request text

def compile (text : String) : Compiling Formula :=
  let normal := normalize text
  match parseInteger? normal.toList with
  | some position => pure (.literal position)
  | none => expression <$> request normal

/-- Whether the formula selects the sibling with the given index, counted from
zero.  No formula reaches a position beyond the 64-bit range. -/
def matchesIndex (formula : Formula) (index : Nat) : Cached Bool :=
  match formula with
  | literal position => pure (position == index + 1)
  | expression entry =>
      if (index : Int) + 1 ≤ maxInteger then fun cache => cache.contains entry (index + 1)
      else pure false

end Formula

end CssQuery
