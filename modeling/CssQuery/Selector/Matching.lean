import CssQuery.Selector.Basic

/-!
# Matching

A selector is matched in two ways.  The point test `holds` asks for one node
whether it satisfies the selector.  The staged filter `retain` takes a list of
candidates and keeps those that do: it applies the plain conditions of the
subject first, then each pseudo-class to what is left, and the chain of
combinators last.  `:not()` is a difference of lists in the filter.

Both use the formula cache, which learns more about its formulas with every
position that is asked for, so both ask only as far as the answer requires.
-/

namespace CssQuery

/-- The elements that may stand to the left of a node under a combinator. -/
def Combinator.relatives (combinator : Combinator) (tree : Tree) (node : NodeId) :
    List NodeId :=
  match combinator with
  | descendant => tree.ancestors node
  | child => (tree.parent? node).toList
  | nextSibling => (tree.previousElement? node).toList
  | subsequentSibling => (tree.precedingSiblings node).filter tree.isElement

def NodeTest.holds (test : NodeTest) (tree : Tree) (node : NodeId) : Cached Bool :=
  match test with
  | structural test => pure (test.holds tree node)
  | nth formula counting =>
      match counting.indexOf tree node with
      | some index => formula.matchesIndex index
      | none => pure false
  | contains search => pure (search.holds tree node)

/-- The candidates that are elements with every plain condition of a compound
selector. -/
def CompoundSelector.retainPlain (compound : CompoundSelector) (tree : Tree)
    (candidates : List NodeId) : List NodeId :=
  candidates.filter fun node =>
    match tree.element? node with
    | some element => compound.all (SimpleSelector.holdsPlainly element)
    | none => false

mutual

/-- Whether a node, whose data is given, satisfies a condition. -/
def SimpleSelector.holds (tree : Tree) (node : NodeId) (element : Element) :
    SimpleSelector → Cached Bool
  | .pseudoClass condition => condition.holds tree node
  | .universal => pure true
  | .hasTag name => pure ((SimpleSelector.hasTag name).holdsPlainly element)
  | .hasClass name => pure ((SimpleSelector.hasClass name).holdsPlainly element)
  | .hasId value => pure ((SimpleSelector.hasId value).holdsPlainly element)
  | .hasAttribute condition => pure (condition.holds element)

/-- Whether a node satisfies a pseudo-class.  Negation asks whether the inner
selectors keep the node when it is the only candidate. -/
def PseudoClass.holds (tree : Tree) (node : NodeId) : PseudoClass → Cached Bool
  | .test test => test.holds tree node
  | .not inner => do
      if tree.isElement node then
        return (← SelectorList.apply tree Tree.root [node] inner).isEmpty
      else return false

/-- Whether a node, whose data is given, satisfies every condition. -/
def CompoundSelector.allHold (tree : Tree) (node : NodeId) (element : Element) :
    List SimpleSelector → Cached Bool
  | [] => pure true
  | simple :: others => do
      if ← simple.holds tree node element then
        CompoundSelector.allHold tree node element others
      else return false

/-- Whether elements can be found for a chain of compound selectors, each in
its relation to the one before and the first in its relation to the node. -/
def ComplexSelector.chainHolds (tree : Tree) :
    List (Combinator × List SimpleSelector) → NodeId → Cached Bool
  | [], _ => pure true
  | (combinator, compound) :: others, node =>
      (combinator.relatives tree node).anyM fun relative =>
        match tree.element? relative with
        | some element => do
            if ← CompoundSelector.allHold tree relative element compound then
              ComplexSelector.chainHolds tree others relative
            else return false
        | none => return false

/-- The candidates that a pseudo-class keeps. -/
def PseudoClass.retain (tree : Tree) (scope : NodeId) (candidates : List NodeId) :
    PseudoClass → Cached (List NodeId)
  | .test test => candidates.filterM (test.holds tree)
  | .not inner => do
      let excluded ← SelectorList.apply tree scope candidates inner
      return candidates.filter fun node => !excluded.contains node

/-- The candidates that every pseudo-class of a compound selector keeps, each
applied to what the one before it left. -/
def CompoundSelector.retainStaged (tree : Tree) (scope : NodeId) :
    List SimpleSelector → List NodeId → Cached (List NodeId)
  | [], candidates => pure candidates
  | .pseudoClass condition :: others, candidates => do
      let kept ← condition.retain tree scope candidates
      CompoundSelector.retainStaged tree scope others kept
  | _ :: others, candidates => CompoundSelector.retainStaged tree scope others candidates

/-- The candidates that a complex selector keeps. -/
def ComplexSelector.retain (tree : Tree) (scope : NodeId) (candidates : List NodeId) :
    ComplexSelector → Cached (List NodeId)
  | .mk subject chain => do
      let kept ← CompoundSelector.retainStaged tree scope subject
        (CompoundSelector.retainPlain subject tree candidates)
      kept.filterM (ComplexSelector.chainHolds tree chain)

/-- What each selector of a list keeps, one after the other. -/
def SelectorList.retainEach (tree : Tree) (scope : NodeId) (candidates : List NodeId) :
    List ComplexSelector → Cached (List NodeId)
  | [] => pure []
  | selector :: others => do
      let kept ← selector.retain tree scope candidates
      return kept ++ (← SelectorList.retainEach tree scope candidates others)

/-- The candidates that some selector of a list keeps, in their order and with
their repeats.  `scope` is the node below which they were found; no supported
condition depends on it. -/
def SelectorList.apply (tree : Tree) (scope : NodeId) (candidates : List NodeId) :
    List ComplexSelector → Cached (List NodeId)
  | [] => pure []
  | first :: others => do
      let kept ← first.retain tree scope candidates
      if others.isEmpty then return kept
      else
        let more ← SelectorList.retainEach tree scope candidates others
        return candidates.filter (kept ++ more).contains

end

/-- Whether a node is an element with every condition of the subject and the
chain of combinators leads from it to further elements. -/
def ComplexSelector.holds (selector : ComplexSelector) (tree : Tree)
    (node : NodeId) : Cached Bool :=
  match tree.element? node with
  | some element => do
      if ← CompoundSelector.allHold tree node element selector.subject then
        ComplexSelector.chainHolds tree selector.chain node
      else return false
  | none => pure false

/-- Whether some selector of a list matches a node. -/
def SelectorList.holds (selectors : SelectorList) (tree : Tree) (node : NodeId) :
    Cached Bool :=
  selectors.anyM fun selector => selector.holds tree node

/-- An enumeration of the children of a container that satisfy a
pseudo-class. -/
inductive ChildWalk where
  | ready (children : List NodeId)
  | counted (walk : NthWalk)

namespace ChildWalk

/-- The next child and the enumeration behind it. -/
def next (tree : Tree) : ChildWalk → Cached (Option NodeId × ChildWalk)
  | ready children => pure (children.head?, ready children.tail)
  | counted walk => do
      let (found, behind) ← walk.next tree
      return (found, counted behind)

/-- The first children, up to a number of them if there is a limit. -/
def take (tree : Tree) (limit : Option Nat) : ChildWalk → Cached (List NodeId)
  | ready children => pure ((limit.map children.take).getD children)
  | counted walk => (limit.map (walk.take tree)).getD (walk.toList tree)

end ChildWalk

/-- The element children of a container that satisfy a pseudo-class. -/
def PseudoClass.childWalk (condition : PseudoClass) (tree : Tree)
    (container : NodeId) : Cached ChildWalk :=
  match condition with
  | .test (.structural kind) => pure (.ready (kind.childMatches tree container))
  | .test (.nth formula counting) =>
      pure (.counted (NthWalk.start tree container formula counting))
  | .test (.contains search) =>
      pure (.ready ((tree.childElements container).filter (search.holds tree)))
  | .not _ =>
      ChildWalk.ready <$> condition.retain tree container (tree.childElements container)

end CssQuery
