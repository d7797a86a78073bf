import CssQuery.Dom.Tally
import CssQuery.Dom.Traversal
import Std.Data.TreeSet.Lemmas

/-!
# Structural pseudo-classes

Pseudo-classes without an argument depend on an element's place among the
element children of its parent, on its own children, or on its being the
document element.  Two elements are of the same type when their tag names have
the same number.

Each has a point test for one node and an enumeration of the children of a
container that pass it.  The two are written independently of each other: the
test looks through the siblings of its node, while an enumeration that depends
on types goes through the children and keeps what it has met by tag.
-/

namespace CssQuery

/-- A pseudo-class that takes no argument. -/
inductive StructuralPseudoClass where
  | firstChild
  | lastChild
  | onlyChild
  | firstOfType
  | lastOfType
  | onlyOfType
  | empty
  | root
deriving DecidableEq, Repr

namespace Tree

/-- The element children of an element's parent, the element among them; none
for a node that is detached or no element. -/
def elementSiblings (tree : Tree) (node : NodeId) : List NodeId :=
  if tree.isElement node then ((tree.parent? node).map tree.childElements).getD []
  else []

def sameTag (tree : Tree) (first second : NodeId) : Bool :=
  tree.tagId? first == tree.tagId? second

/-- A child that does not keep its parent from being empty. -/
def isInsignificant (tree : Tree) (child : NodeId) : Bool :=
  match (tree.node? child).map Node.data with
  | some (.text text) => text.toList.all isUnicodeSpace
  | some (.comment _) => true
  | _ => false

/-- The children with a tag that is not among those seen and not that of an
earlier child. -/
def firstOfEachTag (tree : Tree) : (seen : Std.TreeSet TagId) → List NodeId → List NodeId
  | _, [] => []
  | seen, child :: later =>
      match tree.tagId? child with
      | some tag =>
          let (known, after) := seen.containsThenInsert tag
          if known then tree.firstOfEachTag after later
          else child :: tree.firstOfEachTag after later
      | none => tree.firstOfEachTag seen later

/-- For each tag the last child that has it. -/
def lastByTag (tree : Tree) (children : List NodeId) : Std.TreeMap TagId NodeId :=
  children.foldl (fun last child =>
    match tree.tagId? child with
    | some tag => last.insert tag child
    | none => last) ∅

end Tree

namespace StructuralPseudoClass

def holds (test : StructuralPseudoClass) (tree : Tree) (node : NodeId) : Bool :=
  let siblings := tree.elementSiblings node
  match test with
  | firstChild => siblings.head? == some node
  | lastChild => siblings.getLast? == some node
  | onlyChild => siblings.length == 1
  | firstOfType => siblings.find? (tree.sameTag node) == some node
  | lastOfType => siblings.reverse.find? (tree.sameTag node) == some node
  | onlyOfType => (siblings.filter (tree.sameTag node)).length == 1
  | empty => tree.isElement node && (tree.children node).all tree.isInsignificant
  | root => tree.documentElement? == some node

/-- The element children of a container that pass. -/
def childMatches (test : StructuralPseudoClass) (tree : Tree)
    (container : NodeId) : List NodeId :=
  let children := tree.childElements container
  match test with
  | firstChild => children.head?.toList
  | lastChild => children.getLast?.toList
  | onlyChild => if children.length = 1 then children else []
  | firstOfType => tree.firstOfEachTag ∅ children
  | lastOfType =>
      let last := tree.lastByTag children
      children.filter fun child => ((tree.tagId? child).bind fun tag => last[tag]?) == some child
  | onlyOfType =>
      let counts := Tally.ofList (children.filterMap tree.tagId?)
      children.filter fun child => ((tree.tagId? child).bind fun tag => counts[tag]?) == some 1
  | empty | root => children.filter (test.holds tree)

end StructuralPseudoClass

end CssQuery
