import CssQuery.Formula.Position
import CssQuery.PseudoClass.Structural
import CssQuery.PseudoClass.TextSearch
import CssQuery.Selector.Attribute

/-!
# Selectors

A simple selector is one condition on an element.  A compound selector is a
list of them that hold of the same element.  A complex selector is a compound
selector, its subject, with a chain of further compound selectors, each in a
relation to the one before it; the chain begins at the subject's side.  A
selector list is a group of complex selectors of which one suffices.

Since `:not()` takes a selector list, simple and complex selectors are defined
together.
-/

namespace CssQuery

/-- How an element stands to the one on its left in a complex selector. -/
inductive Combinator where
  /-- The left element is an ancestor. -/
  | descendant
  /-- The left element is the parent. -/
  | child
  /-- The left element is the nearest element before it among its siblings. -/
  | nextSibling
  /-- The left element is any element before it among its siblings. -/
  | subsequentSibling
deriving DecidableEq, Repr

/-- A pseudo-class that looks at one node at a time. -/
inductive NodeTest where
  | structural (test : StructuralPseudoClass)
  /-- The node's position among its siblings is one that the formula selects. -/
  | nth (formula : Formula) (counting : Counting)
  | contains (search : TextSearch)
deriving DecidableEq, Repr

mutual

/-- One condition on an element. -/
inductive SimpleSelector where
  | universal
  | hasTag (name : String)
  | hasClass (name : String)
  | hasId (value : String)
  | hasAttribute (condition : AttributeSelector)
  | pseudoClass (condition : PseudoClass)

/-- A pseudo-class with its argument. -/
inductive PseudoClass where
  | test (test : NodeTest)
  /-- No selector of the list matches. -/
  | not (inner : List ComplexSelector)

/-- Compound selectors joined by combinators. -/
inductive ComplexSelector where
  /-- The subject is the rightmost compound; the chain leads to the left. -/
  | mk (subject : List SimpleSelector)
      (chain : List (Combinator × List SimpleSelector))

end

/-- Conditions on the same element. -/
abbrev CompoundSelector := List SimpleSelector

/-- A group of complex selectors of which one suffices. -/
abbrev SelectorList := List ComplexSelector

namespace ComplexSelector

/-- The compound selector for the element that is selected. -/
def subject : ComplexSelector → CompoundSelector
  | mk subject _ => subject

/-- The compound selectors to its left, the nearest first, each with the
combinator on its right. -/
def chain : ComplexSelector → List (Combinator × CompoundSelector)
  | mk _ chain => chain

end ComplexSelector

namespace SimpleSelector

def isPseudoClass : SimpleSelector → Bool
  | pseudoClass _ => true
  | _ => false

/-- Whether an element satisfies a condition that is no pseudo-class. -/
def holdsPlainly (element : Element) : SimpleSelector → Bool
  | universal => true
  | hasTag name => lowercaseAscii element.tagName == lowercaseAscii name
  | hasClass name => element.classNames.contains name
  | hasId value => element.identifier? == some value
  | hasAttribute condition => condition.holds element
  | pseudoClass _ => true

end SimpleSelector

end CssQuery
