import CssQuery.Dom.Basic
import CssQuery.Text.Search
import CssQuery.Token.Cursor

/-!
# Attribute selectors

An attribute selector asks that an element carries an attribute, or that the
attribute's value compares to a given one.  It is written as a name that an
operator and a value may follow.
-/

namespace CssQuery

/-- How an attribute's value is compared to a given one. -/
inductive AttributeOperator where
  /-- It is the given value. -/
  | equal
  /-- One of its words is the given value. -/
  | word
  /-- It is the given value, alone or followed by a hyphen. -/
  | dash
  /-- It starts with the given value. -/
  | start
  /-- It ends with the given value. -/
  | stop
  /-- The given value occurs in it. -/
  | substring
deriving DecidableEq, Repr

/-- A condition on one attribute. -/
inductive AttributeSelector where
  | present (name : String)
  | compare (operator : AttributeOperator) (name value : String)
deriving DecidableEq, Repr

namespace AttributeOperator

/-- The operators in the order in which they are tried. -/
def all : List AttributeOperator :=
  [word, dash, start, stop, substring, equal]

def symbol : AttributeOperator → String
  | equal => "="
  | word => "~="
  | dash => "|="
  | start => "^="
  | stop => "$="
  | substring => "*="

/-- Whether an attribute's value stands in the relation to a given one.  The
last three relations never hold for an empty given value. -/
def holds (operator : AttributeOperator) (actual given : List Char) : Bool :=
  match operator with
  | equal => actual == given
  | word => (words actual).contains given
  | dash =>
      given.isPrefixOf actual
        && ((actual.drop given.length).head?.map (· == '-')).getD true
  | start => !given.isEmpty && given.isPrefixOf actual
  | stop => !given.isEmpty && given.isSuffixOf actual
  | substring => !given.isEmpty && occursIn given actual

end AttributeOperator

namespace AttributeSelector

def holds (selector : AttributeSelector) (element : Element) : Bool :=
  match selector with
  | present name => (element.attribute? name).isSome
  | compare operator name value =>
      ((element.attribute? name).map fun actual =>
        operator.holds actual.toList value.toList).getD false

/-- Takes the first operator that stands ahead. -/
def takeOperator? (cursor : Cursor) : Option (AttributeOperator × Cursor) :=
  AttributeOperator.all.findSome? fun operator =>
    (cursor.take? (Recogniser.literal operator.symbol.toList)).map fun taken =>
      (operator, taken.2)

/-- Reads the text between the brackets of an attribute selector. -/
def parse (body : List Char) : Except Error AttributeSelector := do
  let (name, cursor) ← Cursor.expect ⟨0, body⟩ .attributeName
  if cursor.atEnd then
    return .present (String.ofList name)
  else
    match takeOperator? cursor with
    | none => .error (cursor.unexpected "an attribute operator")
    | some (operator, cursor) =>
        let (value, cursor) ← cursor.expect (.value [])
        cursor.expectEnd
        return .compare operator (String.ofList name) (String.ofList value)

end AttributeSelector

end CssQuery
