import CssQuery.Text.LetterCase

/-!
# Names of pseudo-classes

The fourteen pseudo-classes that a selector may name.  A name is read without
regard to ASCII letter case and written in lowercase with hyphens.
-/

namespace CssQuery

/-- A pseudo-class by name, without its argument. -/
inductive PseudoClassKind where
  | firstChild
  | lastChild
  | onlyChild
  | firstOfType
  | lastOfType
  | onlyOfType
  | nthChild
  | nthLastChild
  | nthOfType
  | nthLastOfType
  | not
  | contains
  | empty
  | root
deriving DecidableEq, Repr

namespace PseudoClassKind

def all : List PseudoClassKind :=
  [firstChild, lastChild, onlyChild, firstOfType, lastOfType, onlyOfType,
    nthChild, nthLastChild, nthOfType, nthLastOfType, not, contains, empty,
    root]

def name : PseudoClassKind → String
  | firstChild => "first-child"
  | lastChild => "last-child"
  | onlyChild => "only-child"
  | firstOfType => "first-of-type"
  | lastOfType => "last-of-type"
  | onlyOfType => "only-of-type"
  | nthChild => "nth-child"
  | nthLastChild => "nth-last-child"
  | nthOfType => "nth-of-type"
  | nthLastOfType => "nth-last-of-type"
  | not => "not"
  | contains => "contains"
  | empty => "empty"
  | root => "root"

/-- The pseudo-class with the given name in any letter case. -/
def ofName? (text : String) : Option PseudoClassKind :=
  all.find? fun kind => kind.name == lowercaseAscii text

def arity : PseudoClassKind → Nat
  | nthChild | nthLastChild | nthOfType | nthLastOfType | not | contains => 1
  | firstChild | lastChild | onlyChild | firstOfType | lastOfType | onlyOfType
  | empty | root => 0

end PseudoClassKind

end CssQuery
