import CssQuery.Error
import CssQuery.Text.Space
import CssQuery.Token.Pattern

/-!
# Cursors

A cursor is a place in a short text that is read from left to right, such as
the inside of an attribute selector.  It skips selector space before every
token.
-/

namespace CssQuery

/-- A place in a text: how many characters lie before it and those ahead. -/
structure Cursor where
  offset : Nat
  ahead : List Char
deriving DecidableEq, Repr

namespace Cursor

/-- The place of the next token. -/
def skipSpace (cursor : Cursor) : Cursor :=
  ⟨cursor.offset + (cursor.ahead.takeWhile isSpace).length,
    cursor.ahead.dropWhile isSpace⟩

def atEnd (cursor : Cursor) : Bool :=
  cursor.skipSpace.ahead.isEmpty

/-- The error that something else was expected as the next token. -/
def unexpected (cursor : Cursor) (expected : String) : Error :=
  .scan (.unexpected cursor.skipSpace.offset (some expected)
    cursor.skipSpace.ahead.head?)

/-- Takes the next token, if the recogniser accepts it. -/
def take? (cursor : Cursor) (recogniser : Recogniser) :
    Option (List Char × Cursor) :=
  (recogniser cursor.skipSpace.ahead).map fun token =>
    (token.value,
      ⟨cursor.skipSpace.offset + token.lexeme.length, token.rest⟩)

def expect (cursor : Cursor) (pattern : Pattern) :
    Except Error (List Char × Cursor) :=
  match cursor.take? pattern.recognise with
  | some taken => .ok taken
  | none => .error (cursor.unexpected pattern.description)

/-- Refuses anything but space ahead. -/
def expectEnd (cursor : Cursor) : Except Error Unit :=
  if cursor.atEnd then .ok ()
  else
    .error (.scan (.state cursor.skipSpace.offset
      ("unexpected trailing input \"" ++ String.ofList (trim cursor.ahead) ++ "\"")))

end Cursor

end CssQuery
