import CssQuery.Dom.Basic

/-!
# Walking through a tree

Walks along one kind of link, and the descendants of a node in document
order.  A walk through a tree without cycles meets no node twice, so it is
over after as many steps as there are nodes.
-/

namespace CssQuery

namespace Tree

/-- The nodes met by following a link from a node, for a number of steps. -/
def follow (step : NodeId → Option NodeId) : (steps : Nat) → NodeId → List NodeId
  | 0, _ => []
  | steps + 1, id =>
      match step id with
      | none => []
      | some next => next :: follow step steps next

def ancestors (tree : Tree) (id : NodeId) : List NodeId :=
  follow tree.parent? tree.size id

/-- The siblings before a node, the nearest first. -/
def precedingSiblings (tree : Tree) (id : NodeId) : List NodeId :=
  follow tree.previous? tree.size id

/-- The nodes met by taking the first pending node and putting its children
in its place, for a number of steps. -/
def unfold (tree : Tree) : (steps : Nat) → (pending : List NodeId) → List NodeId
  | 0, _ => []
  | _ + 1, [] => []
  | steps + 1, id :: pending => id :: unfold tree steps (tree.children id ++ pending)

/-- The nodes below a node in document order. -/
def descendants (tree : Tree) (id : NodeId) : List NodeId :=
  tree.unfold tree.size (tree.children id)

def childElements (tree : Tree) (id : NodeId) : List NodeId :=
  (tree.children id).filter tree.isElement

/-- The first element among the children of the document. -/
def documentElement? (tree : Tree) : Option NodeId :=
  (tree.childElements root).head?

def isDescendant (tree : Tree) (id ancestor : NodeId) : Bool :=
  (tree.ancestors id).contains ancestor

def elementsBelow (tree : Tree) (id : NodeId) : List NodeId :=
  (tree.descendants id).filter tree.isElement

/-- The nearest element among the siblings before a node. -/
def previousElement? (tree : Tree) (id : NodeId) : Option NodeId :=
  (tree.precedingSiblings id).find? tree.isElement

end Tree

end CssQuery
