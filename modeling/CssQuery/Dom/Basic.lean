import CssQuery.Text.LetterCase
import CssQuery.Text.Space

/-!
# Document trees

A tree keeps its nodes in an arena and names them by their index there; the
document node has index zero.  Every node stores its parent, its children in
order and its two neighbours among its siblings.

Tag names are compared without regard to ASCII letter case.  Each tree numbers
the names that occur in it in the order in which it first sees them.
-/

namespace CssQuery

/-- The index of a node in its tree. -/
abbrev NodeId := Nat

/-- The number of a tag name in its tree. -/
abbrev TagId := Nat

/-- Attribute names with their values; a name occurs at most once. -/
abbrev Attributes := List (String × String)

namespace Attributes

def set (attributes : Attributes) (name value : String) : Attributes :=
  attributes.filter (fun entry => entry.1 != name) ++ [(name, value)]

/-- The attributes listed, of which a later one replaces an earlier one. -/
def ofList (entries : List (String × String)) : Attributes :=
  entries.foldl (fun attributes entry => attributes.set entry.1 entry.2) []

end Attributes

/-- The data of an element. -/
structure Element where
  /-- The tag name in lowercase. -/
  tagName : String
  tagId : TagId
  attributes : Attributes
deriving DecidableEq, Repr

namespace Element

def attribute? (element : Element) (name : String) : Option String :=
  element.attributes.lookup name

def identifier? (element : Element) : Option String :=
  element.attribute? "id"

def classNames (element : Element) : List String :=
  (words ((element.attribute? "class").getD "").toList).map String.ofList

end Element

/-- What a node stands for. -/
inductive NodeData where
  | document
  | element (element : Element)
  | text (text : String)
  | comment (text : String)
deriving DecidableEq, Repr

/-- The kind of a node without its data. -/
inductive NodeKind where
  | document
  | element
  | text
  | comment
deriving DecidableEq, Repr

namespace NodeData

def kind : NodeData → NodeKind
  | document => .document
  | element _ => .element
  | text _ => .text
  | comment _ => .comment

end NodeData

/-- A node with its links to other nodes. -/
structure Node where
  data : NodeData
  parent : Option NodeId := none
  children : List NodeId := []
  previous : Option NodeId := none
  next : Option NodeId := none
deriving DecidableEq, Repr

/-- An arena of nodes and the tag names that occur in it. -/
structure Tree where
  nodes : Array Node
  /-- The tag names in lowercase, each at the place of its number. -/
  tagNames : List String
deriving DecidableEq, Repr

namespace Tree

/-- The tree with a document node only. -/
def empty : Tree :=
  ⟨#[⟨.document, none, [], none, none⟩], []⟩

/-- The document node. -/
def root : NodeId := 0

def size (tree : Tree) : Nat :=
  tree.nodes.size

def node? (tree : Tree) (id : NodeId) : Option Node :=
  tree.nodes[id]?

/-- Changes one node; nothing happens if there is no such node. -/
def modify (tree : Tree) (id : NodeId) (change : Node → Node) : Tree :=
  { tree with nodes := tree.nodes.modify id change }

theorem node?_modify (tree : Tree) (id other : NodeId) (change : Node → Node) :
    (tree.modify id change).node? other =
      if id = other then (tree.node? other).map change else tree.node? other := by
  simp [modify, node?, Array.getElem?_modify]

def lookupTag (tree : Tree) (name : String) : Option TagId :=
  tree.tagNames.idxOf? (lowercaseAscii name)

def tagNameOf (tree : Tree) (id : TagId) : Option String :=
  tree.tagNames[id]?

/-- The number of a tag name, which becomes the next free one if the name is
new to the tree. -/
def internTag (tree : Tree) (name : String) : TagId × Tree :=
  match tree.lookupTag name with
  | some id => (id, tree)
  | none =>
      (tree.tagNames.length,
        { tree with tagNames := tree.tagNames ++ [lowercaseAscii name] })

/-- Adds a node without links and returns its index. -/
def create (tree : Tree) (data : NodeData) : NodeId × Tree :=
  (tree.size,
    { tree with nodes := tree.nodes.push ⟨data, none, [], none, none⟩ })

def createElement (tree : Tree) (tag : String)
    (attributes : List (String × String)) : NodeId × Tree :=
  let interned := tree.internTag tag
  interned.2.create
    (.element ⟨lowercaseAscii tag, interned.1, Attributes.ofList attributes⟩)

def createText (tree : Tree) (text : String) : NodeId × Tree :=
  tree.create (.text text)

def createComment (tree : Tree) (text : String) : NodeId × Tree :=
  tree.create (.comment text)

def kind? (tree : Tree) (id : NodeId) : Option NodeKind :=
  (tree.node? id).map fun node => node.data.kind

/-- The index names an element. -/
def isElement (tree : Tree) (id : NodeId) : Bool :=
  tree.kind? id == some .element

def element? (tree : Tree) (id : NodeId) : Option Element :=
  match (tree.node? id).map Node.data with
  | some (.element element) => some element
  | _ => none

def text? (tree : Tree) (id : NodeId) : Option String :=
  match (tree.node? id).map Node.data with
  | some (.text text) => some text
  | _ => none

def tagId? (tree : Tree) (id : NodeId) : Option TagId :=
  (tree.element? id).map Element.tagId

def tagName? (tree : Tree) (id : NodeId) : Option String :=
  (tree.element? id).map Element.tagName

def attribute? (tree : Tree) (id : NodeId) (name : String) : Option String :=
  (tree.element? id).bind fun element => element.attribute? name

theorem isElement_iff (tree : Tree) (id : NodeId) :
    tree.isElement id = true ↔ ∃ element, tree.element? id = some element := by
  simp only [isElement, kind?, element?]
  cases tree.node? id with
  | none => simp
  | some found => cases data : found.data <;> simp [NodeData.kind, data]

theorem isElement_of_element? {tree : Tree} {id : NodeId} {element : Element}
    (found : tree.element? id = some element) : tree.isElement id = true :=
  (tree.isElement_iff id).mpr ⟨element, found⟩

theorem isElement_eq_false {tree : Tree} {id : NodeId} (none : tree.element? id = none) :
    tree.isElement id = false := by
  rw [Bool.eq_false_iff]
  intro isElement
  obtain ⟨element, found⟩ := (tree.isElement_iff id).mp isElement
  rw [none] at found
  cases found

theorem exists_tagId?_of_isElement {tree : Tree} {id : NodeId} (isElement : tree.isElement id) :
    ∃ tag, tree.tagId? id = some tag := by
  obtain ⟨element, found⟩ := (tree.isElement_iff id).mp isElement
  exact ⟨element.tagId, by rw [tagId?, found, Option.map_some]⟩

def parent? (tree : Tree) (id : NodeId) : Option NodeId :=
  (tree.node? id).bind Node.parent

/-- The children of a node in order; an unknown node has none. -/
def children (tree : Tree) (id : NodeId) : List NodeId :=
  ((tree.node? id).map Node.children).getD []

def previous? (tree : Tree) (id : NodeId) : Option NodeId :=
  (tree.node? id).bind Node.previous

def next? (tree : Tree) (id : NodeId) : Option NodeId :=
  (tree.node? id).bind Node.next

end Tree

end CssQuery
