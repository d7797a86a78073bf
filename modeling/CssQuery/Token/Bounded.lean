import CssQuery.Text.Bounds
import CssQuery.Text.CharClass
import CssQuery.Token.Basic

/-!
# Bounded spans

A bounded span runs from an opening character to the closing character that
balances it.  Pairs of the same bounds may be nested inside.  When inner
quotes are honoured, a quote hides everything up to its next repeat, so a
closing character between the two does not end the span.
-/

namespace CssQuery

namespace Recogniser

/-- Splits a text behind an opening bound into the content of the span and
the text behind its closing bound.  `depth` counts the inner pairs that are
open, and `quote` is the quote inside which the text begins, if any. -/
def splitAtClosing (bounds : Bounds) (honourQuotes : Bool) :
    (depth : Nat) → (quote : Option Char) → List Char →
      Option (List Char × List Char)
  | _, _, [] => none
  | depth, some quote, c :: rest =>
      (splitAtClosing bounds honourQuotes depth
        (if c = quote then none else some quote) rest).map
          fun split => (c :: split.1, split.2)
  | depth, none, c :: rest =>
      if c = bounds.closing then
        match depth with
        | 0 => some ([], rest)
        | outer + 1 =>
            (splitAtClosing bounds honourQuotes outer none rest).map
              fun split => (c :: split.1, split.2)
      else
        (splitAtClosing bounds honourQuotes
          (if c = bounds.opening then depth + 1 else depth)
          (if c ≠ bounds.opening ∧ honourQuotes ∧ isQuote c then some c else none)
          rest).map fun split => (c :: split.1, split.2)

/-- The span between the given bounds; its value leaves the bounds out. -/
def boundedBy (bounds : Bounds) (honourQuotes : Bool) : Recogniser
  | [] => none
  | c :: rest =>
      if c = bounds.opening then
        (splitAtClosing bounds honourQuotes 0 none rest).map fun split =>
          ⟨c :: split.1 ++ [bounds.closing], split.1, split.2⟩
      else none

/-- The span between whichever bounds the first character opens. -/
def bounded (honourQuotes : Bool) : Recogniser := fun text =>
  match text with
  | [] => none
  | c :: _ =>
      (Bounds.closer? c).bind fun closing =>
        boundedBy ⟨c, closing⟩ honourQuotes text

end Recogniser

end CssQuery
