import CssQuery.Dom.Basic

/-!
# Moving nodes

Three operations attach and detach nodes.  Each keeps the four kinds of link
consistent: a node is in its parent's list of children, and its neighbours are
those beside it in that list.  A node that is attached somewhere is detached
from there before it is attached again.
-/

namespace CssQuery

namespace Tree

def modify? (tree : Tree) (id : Option NodeId) (change : Node → Node) : Tree :=
  match id with
  | some id => tree.modify id change
  | none => tree

/-- Detaches `child` from `parent`; nothing happens unless it is a child. -/
def removeChild (tree : Tree) (parent child : NodeId) : Tree :=
  if child ∈ tree.children parent then
    let previous := tree.previous? child
    let next := tree.next? child
    (((tree.modify parent fun node =>
        { node with children := node.children.erase child }).modify? previous
          fun node => { node with next := next }).modify? next
          fun node => { node with previous := previous }).modify child
          fun node => { node with parent := none, previous := none, next := none }
  else tree

def detach (tree : Tree) (child : NodeId) : Tree :=
  match tree.parent? child with
  | some parent => tree.removeChild parent child
  | none => tree

/-- Makes `child` the last child of `parent`. -/
def appendChild (tree : Tree) (parent child : NodeId) : Tree :=
  let detached := tree.detach child
  let last := (detached.children parent).getLast?
  ((detached.modify parent fun node =>
      { node with children := node.children ++ [child] }).modify child
      fun node =>
        { node with parent := some parent, previous := last, next := none }).modify?
      last fun node => { node with next := some child }

/-- Makes `child` the child of `parent` directly before `reference`, or its
last child if `reference` is no child of `parent`.  A node put before itself
stays where it is. -/
def insertBefore (tree : Tree) (parent child reference : NodeId) : Tree :=
  if child = reference then tree
  else
    let detached := tree.detach child
    match (detached.children parent).idxOf? reference with
    | none => detached.appendChild parent child
    | some index =>
        let previous := detached.previous? reference
        (((detached.modify parent fun node =>
            { node with children := node.children.insertIdx index child }).modify
            child fun node =>
              { node with
                parent := some parent
                previous := previous
                next := some reference }).modify
            reference fun node => { node with previous := some child }).modify?
            previous fun node => { node with next := some child }

def appendElement (tree : Tree) (parent : NodeId) (tag : String) : NodeId × Tree :=
  let created := tree.createElement tag []
  (created.1, created.2.appendChild parent created.1)

def appendText (tree : Tree) (parent : NodeId) (text : String) : NodeId × Tree :=
  let created := tree.createText text
  (created.1, created.2.appendChild parent created.1)

end Tree

end CssQuery
