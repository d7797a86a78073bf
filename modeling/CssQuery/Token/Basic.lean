/-!
# Tokens

A recogniser looks at a text from its first character on and either declines
or takes a nonempty piece off the front.  `Token` records what was taken, what
it stands for and what is left.  Recognisers see nothing but the text ahead,
so their answer cannot depend on what came before it.
-/

namespace CssQuery

/-- A piece taken off the front of a text. -/
structure Token where
  /-- The characters taken. -/
  lexeme : List Char
  /-- What they stand for, without delimiters such as quotes. -/
  value : List Char
  rest : List Char
deriving DecidableEq, Repr

/-- A function that may take a token off the front of a text. -/
abbrev Recogniser := List Char → Option Token

namespace Token

/-- A token that stands for the very characters it takes. -/
def plain (lexeme rest : List Char) : Token :=
  ⟨lexeme, lexeme, rest⟩

end Token

namespace Recogniser

def character : Recogniser
  | [] => none
  | c :: rest => some (.plain [c] rest)

/-- The given text itself; the empty text is always there. -/
def literal (expected : List Char) : Recogniser := fun text =>
  if expected.isPrefixOf text then
    some (.plain expected (text.drop expected.length))
  else none

/-- The longest nonempty run of characters that pass a test. -/
def run (test : Char → Bool) : Recogniser := fun text =>
  if (text.head?.map test).getD false then
    some (.plain (text.takeWhile test) (text.dropWhile test))
  else none

end Recogniser

end CssQuery
