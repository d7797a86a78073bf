import CssQuery.Text.CharClass
import CssQuery.Token.Basic

/-!
# Names and identifiers

Each kind of name is a start character followed by as many part characters
as there are.  A CSS identifier may have one hyphen in front.
-/

namespace CssQuery

namespace Recogniser

/-- A start character and the longest run of part characters behind it. -/
def name (start part : Char → Bool) : Recogniser
  | [] => none
  | c :: rest =>
      if start c then some (.plain (c :: rest.takeWhile part) (rest.dropWhile part))
      else none

/-- An identifier of the selector language, such as `nav-item` or `-x`. -/
def cssIdentifier : Recogniser
  | '-' :: rest =>
      (name isNameStart isIdentifierPart rest).map fun token =>
        .plain ('-' :: token.lexeme) token.rest
  | text => name isNameStart isIdentifierPart text

/-- The name of an attribute, which may contain points and colons. -/
def attributeName : Recogniser :=
  name isNameStart isMarkupNamePart

def tagName : Recogniser :=
  name isNameStart isMarkupNamePart

end Recogniser

end CssQuery
