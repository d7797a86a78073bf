import CssQuery.Token.Bounded
import CssQuery.Token.Name
import CssQuery.Token.Number
import CssQuery.Token.Quoted

/-!
# Token patterns

The kinds of token that a caller can ask for by name.  A pattern knows how to
recognise its token and how to describe it in an error message.
-/

namespace CssQuery

inductive Pattern where
  /-- A span between the given bounds, or between whichever bounds the first
  character opens. -/
  | bounded (bounds : Option Bounds) (honourQuotes : Bool)
  | quoted
  | value (terminators : List Char)
  /-- A number; a strict one ends the text or stands before selector space. -/
  | number (strict : Bool)
  | cssIdentifier
  | attributeName
  | tagName
deriving DecidableEq, Repr

/-- A token found at a place in a text. -/
structure Span where
  /-- Index of the first character taken. -/
  start : Nat
  /-- Index behind the last character taken. -/
  stop : Nat
  value : List Char
deriving DecidableEq, Repr

namespace Pattern

/-- The words for the pattern in an error message. -/
def description : Pattern → String
  | bounded (some bounds) _ =>
      "a span bounded by '" ++ String.singleton bounds.opening ++ "' and '"
        ++ String.singleton bounds.closing ++ "'"
  | bounded none _ => "a bracketed or quoted span"
  | quoted => "a quoted string"
  | value _ => "a quoted or unquoted value"
  | number _ => "a number"
  | cssIdentifier => "a CSS identifier"
  | attributeName => "an attribute name"
  | tagName => "a tag name"

/-- Takes the pattern's token off the front of a text. -/
def recognise : Pattern → Recogniser
  | bounded (some bounds) honourQuotes => Recogniser.boundedBy bounds honourQuotes
  | bounded none honourQuotes => Recogniser.bounded honourQuotes
  | quoted => Recogniser.quoted
  | value terminators => Recogniser.value terminators
  | number true => Recogniser.spacedDecimal
  | number false => Recogniser.decimal
  | cssIdentifier => Recogniser.cssIdentifier
  | attributeName => Recogniser.attributeName
  | tagName => Recogniser.tagName

/-- Looks for the pattern's token at an index of the source. -/
def scan (pattern : Pattern) (source : List Char) (start : Nat) : Option Span :=
  (pattern.recognise (source.drop start)).map fun token =>
    ⟨start, start + token.lexeme.length, token.value⟩

end Pattern

end CssQuery
