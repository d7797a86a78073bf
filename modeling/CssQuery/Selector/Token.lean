import CssQuery.Selector.Basic
import CssQuery.Token.Placed

/-!
# Tokens of a selector

A selector is made of punctuation, names, and names or bracketed spans behind
a mark.  A mark without its name, or a bracket that is not closed, is a broken
token; it carries the error to report once the grammar arrives at it.
-/

namespace CssQuery

/-- A token of a selector. -/
inductive SelectorToken where
  | space
  | combinator (combinator : Combinator)
  | comma
  | star
  | name (name : List Char)
  | hash (name : List Char)
  | dot (name : List Char)
  /-- The text between a pair of square brackets. -/
  | brackets (body : List Char)
  /-- `:` and a name, with the text between parentheses directly behind it. -/
  | colon (name : List Char) (argument : Option (List Char))
  | broken (error : Error)
  /-- A character that no selector contains here. -/
  | other
deriving DecidableEq, Repr

namespace SelectorToken

/-- Attribute selectors stand between square brackets. -/
def bracketBounds : Bounds := ⟨'[', ']'⟩

/-- Arguments of pseudo-classes stand between parentheses. -/
def argumentBounds : Bounds := ⟨'(', ')'⟩

def missing (pattern : Pattern) (offset : Nat) (text : List Char) : SelectorToken :=
  .broken (.scan (.unexpected offset (some pattern.description) text.head?))

/-- The pattern of a span between bounds, in which quotes are honoured. -/
def spanPattern (bounds : Bounds) : Pattern :=
  .bounded (some bounds) true

/-- A mark at an offset, with the name behind it. -/
def marked (make : List Char → SelectorToken) (offset : Nat) (rest : List Char) :
    SelectorToken × Nat :=
  match Recogniser.cssIdentifier rest with
  | some token => (make token.value, token.lexeme.length)
  | none => (missing .cssIdentifier (offset + 1) rest, 0)

/-- A colon at an offset, with the name and the argument behind it. -/
def pseudoClass (offset : Nat) (rest : List Char) : SelectorToken × Nat :=
  match Recogniser.cssIdentifier rest with
  | none => (missing .cssIdentifier (offset + 1) rest, 0)
  | some token =>
      if token.rest.head? = some argumentBounds.opening then
        match (spanPattern argumentBounds).recognise token.rest with
        | some argument =>
            (.colon token.value (some argument.value),
              token.lexeme.length + argument.lexeme.length)
        | none =>
            (missing (spanPattern argumentBounds)
              (offset + 1 + token.lexeme.length) token.rest, 0)
      else (.colon token.value none, token.lexeme.length)

/-- A token that begins with the first character of a text. -/
def spanning (make : List Char → SelectorToken) (pattern : Pattern)
    (otherwise : SelectorToken) (text : List Char) : SelectorToken × Nat :=
  match pattern.recognise text with
  | some token => (make token.value, token.lexeme.length - 1)
  | none => (otherwise, 0)

/-- The token that begins with a character, and how many of the characters
behind it belong to it. -/
def next (offset : Nat) (c : Char) (rest : List Char) : SelectorToken × Nat :=
  if isSpace c then (.space, 0)
  else if c = '>' then (.combinator .child, 0)
  else if c = '+' then (.combinator .nextSibling, 0)
  else if c = '~' then (.combinator .subsequentSibling, 0)
  else if c = ',' then (.comma, 0)
  else if c = '*' then (.star, 0)
  else if c = '#' then marked .hash offset rest
  else if c = '.' then marked .dot offset rest
  else if c = '[' then
    spanning .brackets (spanPattern bracketBounds)
      (missing (spanPattern bracketBounds) offset (c :: rest)) (c :: rest)
  else if c = ':' then pseudoClass offset rest
  else spanning .name .cssIdentifier .other (c :: rest)

def read (text : List Char) : List (Placed SelectorToken) :=
  Placed.read
    (fun offset c rest => ((some (next offset c rest).1), (next offset c rest).2))
    text

end SelectorToken

end CssQuery
