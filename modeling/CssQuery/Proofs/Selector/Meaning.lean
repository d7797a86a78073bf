import CssQuery.Selector.Matching

/-!
# The meaning of selectors

What a selector says about a node, given what each formula says about an
index.  Neither stages of candidates nor a formula cache occur here: a
condition is a truth value for one node, negation is negation, and a chain of
combinators asks for a row of elements.

`AllFormulas` says that a property holds of every formula in a selector, also
of those inside a negation.
-/

namespace CssQuery

/-- What a formula says about an index, counted from zero. -/
abbrev FormulaAnswers := Formula → Nat → Bool

def NodeTest.meaning (answers : FormulaAnswers) (tree : Tree) (node : NodeId) :
    NodeTest → Bool
  | structural test => test.holds tree node
  | nth formula counting => ((counting.indexOf tree node).map (answers formula)).getD false
  | contains search => search.holds tree node

mutual

/-- What a condition says about a node; no condition holds of a node that is
not an element. -/
def SimpleSelector.meaning (answers : FormulaAnswers) (tree : Tree) :
    SimpleSelector → NodeId → Bool
  | .pseudoClass condition, node => condition.meaning answers tree node
  | .universal, node => tree.isElement node
  | .hasTag name, node =>
      (tree.element? node).any fun element => (SimpleSelector.hasTag name).holdsPlainly element
  | .hasClass name, node =>
      (tree.element? node).any fun element => (SimpleSelector.hasClass name).holdsPlainly element
  | .hasId value, node =>
      (tree.element? node).any fun element => (SimpleSelector.hasId value).holdsPlainly element
  | .hasAttribute condition, node => (tree.element? node).any condition.holds

def PseudoClass.meaning (answers : FormulaAnswers) (tree : Tree) : PseudoClass → NodeId → Bool
  | .test test, node => test.meaning answers tree node
  | .not inner, node => tree.isElement node && !SelectorList.meaning answers tree inner node

def CompoundSelector.meaning (answers : FormulaAnswers) (tree : Tree) :
    List SimpleSelector → NodeId → Bool
  | [], _ => true
  | simple :: others, node =>
      simple.meaning answers tree node && CompoundSelector.meaning answers tree others node

/-- There are elements for a chain of compound selectors. -/
def ComplexSelector.chainMeaning (answers : FormulaAnswers) (tree : Tree) :
    List (Combinator × List SimpleSelector) → NodeId → Bool
  | [], _ => true
  | (combinator, compound) :: others, node =>
      (combinator.relatives tree node).any fun relative =>
        tree.isElement relative && CompoundSelector.meaning answers tree compound relative &&
          ComplexSelector.chainMeaning answers tree others relative

/-- The node is an element with every condition of the subject, and there are
elements for the chain. -/
def ComplexSelector.meaning (answers : FormulaAnswers) (tree : Tree) :
    ComplexSelector → NodeId → Bool
  | .mk subject chain, node =>
      tree.isElement node && CompoundSelector.meaning answers tree subject node &&
        ComplexSelector.chainMeaning answers tree chain node

def SelectorList.meaning (answers : FormulaAnswers) (tree : Tree) :
    List ComplexSelector → NodeId → Bool
  | [], _ => false
  | selector :: others, node =>
      selector.meaning answers tree node || SelectorList.meaning answers tree others node

end

mutual

def SimpleSelector.AllFormulas (property : Formula → Prop) : SimpleSelector → Prop
  | .pseudoClass condition => condition.AllFormulas property
  | .universal | .hasTag _ | .hasClass _ | .hasId _ | .hasAttribute _ => True

def PseudoClass.AllFormulas (property : Formula → Prop) : PseudoClass → Prop
  | .test (.nth formula _) => property formula
  | .test (.structural _) | .test (.contains _) => True
  | .not inner => SelectorList.AllFormulas property inner

def CompoundSelector.AllFormulas (property : Formula → Prop) : List SimpleSelector → Prop
  | [] => True
  | simple :: others =>
      simple.AllFormulas property ∧ CompoundSelector.AllFormulas property others

def ComplexSelector.ChainAllFormulas (property : Formula → Prop) :
    List (Combinator × List SimpleSelector) → Prop
  | [] => True
  | (_, compound) :: others =>
      CompoundSelector.AllFormulas property compound ∧
        ComplexSelector.ChainAllFormulas property others

def ComplexSelector.AllFormulas (property : Formula → Prop) : ComplexSelector → Prop
  | .mk subject chain =>
      CompoundSelector.AllFormulas property subject ∧
        ComplexSelector.ChainAllFormulas property chain

def SelectorList.AllFormulas (property : Formula → Prop) : List ComplexSelector → Prop
  | [] => True
  | selector :: others =>
      selector.AllFormulas property ∧ SelectorList.AllFormulas property others

end

end CssQuery
