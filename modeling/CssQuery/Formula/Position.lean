import CssQuery.Dom.Tally
import CssQuery.Dom.Traversal
import CssQuery.Formula.Basic

/-!
# Positions among siblings

Where an element stands among the element children of its parent, counted
from the first or from the last, among all of them or among those with its own
tag.  One function finds the index of a given node.  The other goes through
the children of a container once and asks for the position of each in turn.  It
does not look for a position among the siblings again, but has a counter for
each group of siblings; and it is lazy, so that no question is asked for
children that nobody wants.
-/

namespace CssQuery

/-- How siblings are counted. -/
structure Counting where
  /-- Only siblings with the same tag count. -/
  ofType : Bool
  /-- Counting begins at the last sibling. -/
  fromLast : Bool
deriving DecidableEq, Repr

namespace Counting

/-- The siblings that count for an element with the given tag. -/
def counts (counting : Counting) (tree : Tree) (tag : Option TagId)
    (sibling : NodeId) : Bool :=
  !counting.ofType || tree.tagId? sibling == tag

/-- What the siblings that are counted together have in common: their tag, or
nothing. -/
def group (counting : Counting) (tree : Tree) (child : NodeId) : Option TagId :=
  if counting.ofType then tree.tagId? child else none

/-- The groups of the elements among some children, in the order of the
children. -/
def groups (counting : Counting) (tree : Tree) (children : List NodeId) : List (Option TagId) :=
  (children.filter tree.isElement).map (counting.group tree)

/-- The index of an element among the siblings that count, from zero. -/
def indexOf (counting : Counting) (tree : Tree) (node : NodeId) : Option Nat :=
  match tree.parent? node, tree.tagId? node with
  | some parent, some tag =>
      let siblings := tree.childElements parent
      let ordered := if counting.fromLast then siblings.reverse else siblings
      (ordered.filter (counting.counts tree (some tag))).idxOf? node
  | _, _ => none

end Counting

/-- An enumeration of the children that a formula selects, part of the way
through the children of a container. -/
structure NthWalk where
  formula : Formula
  counting : Counting
  /-- All children of the container. -/
  children : List NodeId
  /-- How many children have been passed. -/
  cursor : Nat := 0
  /-- How many element children have been passed in each group. -/
  seen : Tally (Option TagId) := ∅
  /-- How many element children there are in each group, when they have been
  counted. -/
  totals : Option (Tally (Option TagId)) := none

namespace NthWalk

def start (tree : Tree) (container : NodeId) (formula : Formula)
    (counting : Counting) : NthWalk :=
  { formula, counting, children := tree.children container }

/-- The enumeration with the groups counted, if their sizes are needed and have
not been counted before. -/
def tallied (tree : Tree) (walk : NthWalk) : NthWalk :=
  { walk with
    totals := if walk.counting.fromLast && walk.totals.isNone then
        some (.ofList (walk.counting.groups tree walk.children))
      else walk.totals }

/-- The enumeration when it has passed one more child. -/
def pass (tree : Tree) (walk : NthWalk) (child : NodeId) : NthWalk :=
  { walk with
    cursor := walk.cursor + 1
    seen := if tree.isElement child then walk.seen.add (walk.counting.group tree child)
      else walk.seen }

/-- The position in its group, from one, of the member that was passed last. -/
def position (walk : NthWalk) (group : Option TagId) : Nat :=
  let passed := walk.seen.getD group 0
  match walk.totals with
  | some totals => totals.getD group passed + 1 - passed
  | none => passed

/-- The next child that the formula selects among those that have not been
passed, and the enumeration behind it. -/
def advance (tree : Tree) : (later : List NodeId) → NthWalk → Cached (Option NodeId × NthWalk)
  | [], walk => pure (none, walk)
  | child :: later, walk => do
      let passed := walk.pass tree child
      if tree.isElement child then
        let position := passed.position (walk.counting.group tree child)
        if ← walk.formula.matchesIndex (position - 1) then return (some child, passed)
        else advance tree later passed
      else advance tree later passed

/-- The next child that the formula selects and the enumeration behind it. -/
def next (tree : Tree) (walk : NthWalk) : Cached (Option NodeId × NthWalk) :=
  advance tree (walk.children.drop walk.cursor) (walk.tallied tree)

/-- The first children that the formula selects, up to a number of them. -/
def take (tree : Tree) : (limit : Nat) → NthWalk → Cached (List NodeId)
  | 0, _ => pure []
  | limit + 1, walk => do
      match ← walk.next tree with
      | (none, _) => return []
      | (some child, behind) => return child :: (← take tree limit behind)

def toList (tree : Tree) (walk : NthWalk) : Cached (List NodeId) :=
  walk.take tree (walk.children.length - walk.cursor)

end NthWalk

end CssQuery
