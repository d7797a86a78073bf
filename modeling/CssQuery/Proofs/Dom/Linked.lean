import CssQuery.Dom.Links
import Mathlib.Data.List.Basic

/-!
# Consistent links

The structure of a tree is written down four times: in the lists of children,
in the parents, and in the two neighbours of every node.  `Linked` says that
the four agree.

Every operation that moves a node comes down to two changes of the links,
taking a node out of a list and putting it between two pieces of a list.
Each is described here node by node, and each keeps the links consistent.
-/

namespace CssQuery

namespace Tree

/-- The four kinds of link agree, and no node is in a list twice. -/
structure Linked (tree : Tree) : Prop where
  nodup : ∀ id, (tree.children id).Nodup
  mem_children_iff : ∀ parent child,
    child ∈ tree.children parent ↔ tree.parent? child = some parent
  neighbours : ∀ parent before child after,
    tree.children parent = before ++ child :: after →
      tree.previous? child = before.getLast? ∧ tree.next? child = after.head?
  detached : ∀ child, tree.parent? child = none →
    tree.previous? child = none ∧ tree.next? child = none

/-- Two trees read the same links at a node. -/
structure SameLinksAt (tree other : Tree) (id : NodeId) : Prop where
  parent : other.parent? id = tree.parent? id
  children : other.children id = tree.children id
  previous : other.previous? id = tree.previous? id
  next : other.next? id = tree.next? id

def SameLinks (tree other : Tree) : Prop :=
  ∀ id, SameLinksAt tree other id

/-- A node after `child` has been put between two pieces of the list of
`parent`. -/
def linkIn (parent child : NodeId) (before after : List NodeId) (id : NodeId)
    (node : Node) : Node where
  data := node.data
  parent := if id = child then some parent else node.parent
  children := if id = parent then before ++ child :: after else node.children
  previous :=
    if id = child then before.getLast?
    else if after.head? = some id then some child else node.previous
  next :=
    if id = child then after.head?
    else if before.getLast? = some id then some child else node.next

/-- A node after `child` has been taken out from between two pieces of the
list of `parent`. -/
def linkOut (parent child : NodeId) (before after : List NodeId) (id : NodeId)
    (node : Node) : Node where
  data := node.data
  parent := if id = child then none else node.parent
  children := if id = parent then before ++ after else node.children
  previous :=
    if id = child then none
    else if after.head? = some id then before.getLast? else node.previous
  next :=
    if id = child then none
    else if before.getLast? = some id then after.head? else node.next

section Getters

variable {tree changed : Tree} {change : NodeId → Node → Node}

theorem parent?_of_node? (maps : ∀ id, changed.node? id = (tree.node? id).map (change id))
    (id : NodeId) :
    changed.parent? id = (tree.node? id).bind fun node => (change id node).parent := by
  rw [parent?, maps, Option.bind_map]
  rfl

theorem children_of_node? (maps : ∀ id, changed.node? id = (tree.node? id).map (change id))
    (id : NodeId) :
    changed.children id =
      ((tree.node? id).map fun node => (change id node).children).getD [] := by
  rw [children, maps, Option.map_map]
  rfl

theorem previous?_of_node? (maps : ∀ id, changed.node? id = (tree.node? id).map (change id))
    (id : NodeId) :
    changed.previous? id = (tree.node? id).bind fun node => (change id node).previous := by
  rw [previous?, maps, Option.bind_map]
  rfl

theorem next?_of_node? (maps : ∀ id, changed.node? id = (tree.node? id).map (change id))
    (id : NodeId) :
    changed.next? id = (tree.node? id).bind fun node => (change id node).next := by
  rw [next?, maps, Option.bind_map]
  rfl

end Getters

namespace Linked

variable {tree : Tree}

theorem of_sameLinks {other : Tree} (linked : tree.Linked) (same : tree.SameLinks other) :
    other.Linked where
  nodup id := by
    rw [(same id).children]
    exact linked.nodup id
  mem_children_iff parent child := by
    rw [(same parent).children, (same child).parent]
    exact linked.mem_children_iff parent child
  neighbours parent before child after split := by
    rw [(same parent).children] at split
    rw [(same child).previous, (same child).next]
    exact linked.neighbours parent before child after split
  detached child alone := by
    rw [(same child).parent] at alone
    rw [(same child).previous, (same child).next]
    exact linked.detached child alone

theorem empty : Tree.empty.Linked where
  nodup id := by
    rcases id with _ | id <;> simp [children, node?, Tree.empty]
  mem_children_iff parent child := by
    rcases parent with _ | parent <;> rcases child with _ | child <;>
      simp [children, parent?, node?, Tree.empty]
  neighbours parent before child after split := by
    rcases parent with _ | parent <;> simp [children, node?, Tree.empty] at split
  detached child _ := by
    rcases child with _ | child <;> simp [previous?, next?, node?, Tree.empty]

theorem known_of_parent? {child parent : NodeId} (attached : tree.parent? child = some parent) :
    ∃ node, tree.node? child = some node := by
  rw [parent?] at attached
  obtain ⟨node, found, -⟩ := Option.bind_eq_some_iff.mp attached
  exact ⟨node, found⟩

theorem known_of_mem (linked : tree.Linked) {child parent : NodeId}
    (member : child ∈ tree.children parent) : ∃ node, tree.node? child = some node :=
  known_of_parent? ((linked.mem_children_iff parent child).mp member)

theorem parent_unique (linked : tree.Linked) {child first second : NodeId}
    (inFirst : child ∈ tree.children first) (inSecond : child ∈ tree.children second) :
    first = second := by
  rw [linked.mem_children_iff] at inFirst inSecond
  exact Option.some.inj (inFirst.symm.trans inSecond)

end Linked

theorem split_append {α : Type} {before after pieces rest : List α} {value : α}
    (split : before ++ after = pieces ++ value :: rest) :
    (∃ inner, before = pieces ++ value :: inner ∧ rest = inner ++ after) ∨
      ∃ inner, after = inner ++ value :: rest ∧ pieces = before ++ inner := by
  rcases List.append_eq_append_iff.mp split with
    ⟨inner, piecesSplit, afterSplit⟩ | ⟨inner, beforeSplit, restSplit⟩
  · exact .inr ⟨inner, afterSplit, piecesSplit⟩
  · cases inner with
    | nil => exact .inr ⟨[], by simpa using restSplit.symm, by simpa using beforeSplit.symm⟩
    | cons first inner =>
        obtain ⟨same, restEq⟩ := List.cons_eq_cons.mp (restSplit.trans List.cons_append)
        subst same
        exact .inl ⟨inner, beforeSplit, restEq⟩

theorem head?_ne_some {α : Type} {list : List α} {value : α} (absent : value ∉ list) :
    list.head? ≠ some value :=
  fun first => absent (List.mem_of_head? first)

theorem getLast?_ne_some {α : Type} {list : List α} {value : α} (absent : value ∉ list) :
    list.getLast? ≠ some value :=
  fun last => absent (List.mem_of_getLast? last)

/-- A field of a node that is replaced where `replaced` holds. -/
theorem bind_replaced {node : Option Node} {replaced : Prop} [Decidable replaced]
    {value : Option NodeId} {field : Node → Option NodeId}
    (known : replaced → value ≠ none → ∃ found, node = some found) :
    (node.bind fun node => if replaced then value else field node) =
      if replaced then value else node.bind field := by
  by_cases holds : replaced
  · simp only [holds, if_true]
    by_cases absent : value = none
    · rw [absent, Option.bind_fun_none]
    · obtain ⟨found, rfl⟩ := known holds absent
      rfl
  · simp only [holds, if_false]

section LinkOut

variable {tree changed : Tree} {parent child : NodeId} {before after : List NodeId}

theorem parent?_linkOut
    (maps : ∀ id, changed.node? id = (tree.node? id).map (linkOut parent child before after id))
    (id : NodeId) :
    changed.parent? id = if id = child then none else tree.parent? id := by
  rw [parent?_of_node? maps]
  exact bind_replaced fun _ absent => absurd rfl absent

theorem children_linkOut
    (maps : ∀ id, changed.node? id = (tree.node? id).map (linkOut parent child before after id))
    (split : tree.children parent = before ++ child :: after) (id : NodeId) :
    changed.children id = if id = parent then before ++ after else tree.children id := by
  rw [children_of_node? maps]
  simp only [linkOut]
  split
  · rename_i same
    subst same
    cases found : tree.node? id with
    | none => simp [children, found] at split
    | some node => rfl
  · rfl

theorem Linked.previous?_linkOut (linked : tree.Linked)
    (maps : ∀ id, changed.node? id = (tree.node? id).map (linkOut parent child before after id))
    (split : tree.children parent = before ++ child :: after) (id : NodeId) :
    changed.previous? id =
      if id = child then none
      else if after.head? = some id then before.getLast? else tree.previous? id := by
  have afterKnown : after.head? = some id → before.getLast? ≠ none →
      ∃ node, tree.node? id = some node := by
    intro first _
    have member : id ∈ tree.children parent := by
      rw [split]
      simp [List.mem_of_head? first]
    exact linked.known_of_mem member
  rw [previous?_of_node? maps]
  simp only [linkOut]
  rw [bind_replaced fun _ absent => absurd rfl absent, bind_replaced afterKnown]
  rfl

theorem Linked.next?_linkOut (linked : tree.Linked)
    (maps : ∀ id, changed.node? id = (tree.node? id).map (linkOut parent child before after id))
    (split : tree.children parent = before ++ child :: after) (id : NodeId) :
    changed.next? id =
      if id = child then none
      else if before.getLast? = some id then after.head? else tree.next? id := by
  have beforeKnown : before.getLast? = some id → after.head? ≠ none →
      ∃ node, tree.node? id = some node := by
    intro last _
    have member : id ∈ tree.children parent := by
      rw [split]
      simp [List.mem_of_getLast? last]
    exact linked.known_of_mem member
  rw [next?_of_node? maps]
  simp only [linkOut]
  rw [bind_replaced fun _ absent => absurd rfl absent, bind_replaced beforeKnown]
  rfl

theorem Linked.neighbours_linkOut (linked : tree.Linked)
    (maps : ∀ id, changed.node? id =
      (tree.node? id).map (Tree.linkOut parent child before after id))
    (split : tree.children parent = before ++ child :: after) {other : NodeId}
    (elsewhere : other ∉ tree.children parent) :
    changed.previous? other = tree.previous? other ∧
      changed.next? other = tree.next? other := by
  rw [linked.previous?_linkOut maps split, linked.next?_linkOut maps split]
  rw [split] at elsewhere
  have notChild : other ≠ child := by grind
  have notFirst : after.head? ≠ some other := head?_ne_some (by grind)
  have notLast : before.getLast? ≠ some other := getLast?_ne_some (by grind)
  rw [if_neg notChild, if_neg notFirst, if_neg notChild, if_neg notLast]
  exact ⟨rfl, rfl⟩

theorem Linked.mem_children_linkOut (linked : tree.Linked)
    (maps : ∀ id, changed.node? id =
      (tree.node? id).map (Tree.linkOut parent child before after id))
    (split : tree.children parent = before ++ child :: after) (owner other : NodeId) :
    other ∈ changed.children owner ↔ changed.parent? other = some owner := by
  have distinct := linked.nodup parent
  rw [split] at distinct
  have childOnce : child ∉ before ∧ child ∉ after := by
    constructor <;> intro member <;> grind
  rw [children_linkOut maps split, parent?_linkOut maps]
  by_cases same : other = child
  · subst same
    rw [if_pos rfl]
    split_ifs with sameOwner
    · simp [childOnce]
    · have elsewhere : other ∉ tree.children owner := by
        intro member
        refine sameOwner (linked.parent_unique member ?_)
        rw [split]
        simp
      simp [elsewhere]
  · rw [if_neg same, ← linked.mem_children_iff]
    split_ifs with sameOwner
    · subst sameOwner
      rw [split]
      simp [same]
    · rfl

/-- Of the nodes before the one taken out only the last has a new neighbour. -/
theorem Linked.neighbours_linkOut_of_before (linked : tree.Linked) {pieces inner : List NodeId}
    {other : NodeId}
    (maps : ∀ id, changed.node? id = (tree.node? id).map
      (Tree.linkOut parent child (pieces ++ other :: inner) after id))
    (split : tree.children parent = pieces ++ other :: inner ++ child :: after) :
    changed.previous? other = pieces.getLast? ∧
      changed.next? other = (inner ++ after).head? := by
  have distinct := linked.nodup parent
  rw [split] at distinct
  have old := linked.neighbours parent pieces other (inner ++ child :: after) (by simp [split])
  have notChild : other ≠ child := by grind
  have notFirst : after.head? ≠ some other := head?_ne_some (by grind)
  rw [linked.previous?_linkOut maps split, linked.next?_linkOut maps split, if_neg notChild,
    if_neg notFirst, if_neg notChild, old.1, old.2]
  refine ⟨rfl, ?_⟩
  cases inner with
  | nil => simp
  | cons first inner =>
      have notLast : (pieces ++ other :: first :: inner).getLast? ≠ some other := by
        grind
      rw [if_neg notLast]
      rfl

/-- Of the nodes behind the one taken out only the first has a new neighbour. -/
theorem Linked.neighbours_linkOut_of_after (linked : tree.Linked) {inner rest : List NodeId}
    {other : NodeId}
    (maps : ∀ id, changed.node? id = (tree.node? id).map
      (Tree.linkOut parent child before (inner ++ other :: rest) id))
    (split : tree.children parent = before ++ child :: (inner ++ other :: rest)) :
    changed.previous? other = (before ++ inner).getLast? ∧
      changed.next? other = rest.head? := by
  have distinct := linked.nodup parent
  rw [split] at distinct
  have old := linked.neighbours parent (before ++ child :: inner) other rest (by simp [split])
  have notChild : other ≠ child := by grind
  have notLast : before.getLast? ≠ some other := getLast?_ne_some (by grind)
  rw [linked.previous?_linkOut maps split, linked.next?_linkOut maps split, if_neg notChild,
    if_neg notChild, if_neg notLast, old.1, old.2]
  refine ⟨?_, rfl⟩
  cases inner with
  | nil => simp
  | cons first inner =>
      have notFirst : (first :: inner ++ other :: rest).head? ≠ some other := by
        grind
      rw [if_neg notFirst]
      simp [List.getLast?_append]

/-- Taking a node out of a list keeps the links consistent. -/
theorem Linked.linkOut (linked : tree.Linked)
    (maps : ∀ id, changed.node? id =
      (tree.node? id).map (Tree.linkOut parent child before after id))
    (split : tree.children parent = before ++ child :: after) : changed.Linked := by
  have children := children_linkOut maps split
  constructor
  case nodup =>
    intro id
    have distinct := linked.nodup parent
    rw [children]
    split_ifs with same
    · rw [split] at distinct
      exact distinct.sublist (by simp)
    · exact linked.nodup id
  case mem_children_iff => exact linked.mem_children_linkOut maps split
  case neighbours =>
    intro owner pieces other rest changedSplit
    rw [children] at changedSplit
    split_ifs at changedSplit with sameOwner
    · rcases split_append changedSplit with
        ⟨inner, rfl, rfl⟩ | ⟨inner, rfl, rfl⟩
      · exact linked.neighbours_linkOut_of_before maps split
      · exact linked.neighbours_linkOut_of_after maps split
    · have inOwner : other ∈ tree.children owner := by simp [changedSplit]
      have notHere : other ∉ tree.children parent := fun member =>
        sameOwner (linked.parent_unique inOwner member)
      have kept := linked.neighbours_linkOut maps split notHere
      rw [kept.1, kept.2]
      exact linked.neighbours owner pieces other rest changedSplit
  case detached =>
    intro other alone
    rw [parent?_linkOut maps] at alone
    by_cases same : other = child
    · rw [linked.previous?_linkOut maps split, linked.next?_linkOut maps split, if_pos same,
        if_pos same]
      exact ⟨rfl, rfl⟩
    · rw [if_neg same] at alone
      have notHere : other ∉ tree.children parent := by
        rw [linked.mem_children_iff, alone]
        simp
      have kept := linked.neighbours_linkOut maps split notHere
      rw [kept.1, kept.2]
      exact linked.detached other alone

end LinkOut

section LinkIn

variable {tree changed : Tree} {parent child : NodeId} {before after : List NodeId}

theorem parent?_linkIn
    (maps : ∀ id, changed.node? id = (tree.node? id).map (linkIn parent child before after id))
    (childKnown : ∃ node, tree.node? child = some node) (id : NodeId) :
    changed.parent? id = if id = child then some parent else tree.parent? id := by
  rw [parent?_of_node? maps]
  refine bind_replaced ?_
  intro same _
  rw [same]
  exact childKnown

theorem children_linkIn
    (maps : ∀ id, changed.node? id = (tree.node? id).map (linkIn parent child before after id))
    (parentKnown : ∃ node, tree.node? parent = some node) (id : NodeId) :
    changed.children id =
      if id = parent then before ++ child :: after else tree.children id := by
  rw [children_of_node? maps]
  simp only [linkIn]
  split
  · rename_i same
    subst same
    obtain ⟨node, found⟩ := parentKnown
    rw [found]
    rfl
  · rfl

theorem Linked.previous?_linkIn (linked : tree.Linked)
    (maps : ∀ id, changed.node? id = (tree.node? id).map (linkIn parent child before after id))
    (childKnown : ∃ node, tree.node? child = some node)
    (split : tree.children parent = before ++ after) (id : NodeId) :
    changed.previous? id =
      if id = child then before.getLast?
      else if after.head? = some id then some child else tree.previous? id := by
  have afterKnown : after.head? = some id → some child ≠ none →
      ∃ node, tree.node? id = some node := by
    intro first _
    have member : id ∈ tree.children parent := by
      rw [split]
      simp [List.mem_of_head? first]
    exact linked.known_of_mem member
  rw [previous?_of_node? maps]
  simp only [linkIn]
  rw [bind_replaced fun same _ => same ▸ childKnown, bind_replaced afterKnown]
  rfl

theorem Linked.next?_linkIn (linked : tree.Linked)
    (maps : ∀ id, changed.node? id = (tree.node? id).map (linkIn parent child before after id))
    (childKnown : ∃ node, tree.node? child = some node)
    (split : tree.children parent = before ++ after) (id : NodeId) :
    changed.next? id =
      if id = child then after.head?
      else if before.getLast? = some id then some child else tree.next? id := by
  have beforeKnown : before.getLast? = some id → some child ≠ none →
      ∃ node, tree.node? id = some node := by
    intro last _
    have member : id ∈ tree.children parent := by
      rw [split]
      simp [List.mem_of_getLast? last]
    exact linked.known_of_mem member
  rw [next?_of_node? maps]
  simp only [linkIn]
  rw [bind_replaced fun same _ => same ▸ childKnown, bind_replaced beforeKnown]
  rfl

theorem Linked.neighbours_linkIn (linked : tree.Linked)
    (maps : ∀ id, changed.node? id =
      (tree.node? id).map (Tree.linkIn parent child before after id))
    (childKnown : ∃ node, tree.node? child = some node)
    (split : tree.children parent = before ++ after) {other : NodeId}
    (notChild : other ≠ child) (elsewhere : other ∉ tree.children parent) :
    changed.previous? other = tree.previous? other ∧
      changed.next? other = tree.next? other := by
  rw [linked.previous?_linkIn maps childKnown split,
    linked.next?_linkIn maps childKnown split]
  rw [split] at elsewhere
  have notFirst : after.head? ≠ some other := head?_ne_some (by grind)
  have notLast : before.getLast? ≠ some other := getLast?_ne_some (by grind)
  rw [if_neg notChild, if_neg notFirst, if_neg notChild, if_neg notLast]
  exact ⟨rfl, rfl⟩

theorem Linked.not_mem_children_of_alone (linked : tree.Linked)
    (alone : tree.parent? child = none) (owner : NodeId) : child ∉ tree.children owner := by
  rw [linked.mem_children_iff, alone]
  simp

theorem Linked.mem_children_linkIn (linked : tree.Linked)
    (maps : ∀ id, changed.node? id =
      (tree.node? id).map (Tree.linkIn parent child before after id))
    (childKnown : ∃ node, tree.node? child = some node)
    (parentKnown : ∃ node, tree.node? parent = some node)
    (alone : tree.parent? child = none)
    (split : tree.children parent = before ++ after) (owner other : NodeId) :
    other ∈ changed.children owner ↔ changed.parent? other = some owner := by
  rw [children_linkIn maps parentKnown, parent?_linkIn maps childKnown]
  by_cases same : other = child
  · subst same
    rw [if_pos rfl]
    split_ifs with sameOwner
    · simp [sameOwner]
    · simp [linked.not_mem_children_of_alone alone, Ne.symm sameOwner]
  · rw [if_neg same, ← linked.mem_children_iff]
    split_ifs with sameOwner
    · subst sameOwner
      rw [split]
      simp [same]
    · rfl

/-- Of the nodes before the one put in only the last has a new neighbour. -/
theorem Linked.neighbours_linkIn_of_before (linked : tree.Linked) {pieces inner : List NodeId}
    {other : NodeId}
    (maps : ∀ id, changed.node? id = (tree.node? id).map
      (Tree.linkIn parent child (pieces ++ other :: inner) after id))
    (childKnown : ∃ node, tree.node? child = some node)
    (alone : tree.parent? child = none)
    (split : tree.children parent = pieces ++ other :: inner ++ after) :
    changed.previous? other = pieces.getLast? ∧
      changed.next? other = (inner ++ child :: after).head? := by
  have distinct := linked.nodup parent
  have childNotHere := linked.not_mem_children_of_alone alone parent
  rw [split] at distinct childNotHere
  have old := linked.neighbours parent pieces other (inner ++ after) (by simp [split])
  have notChild : other ≠ child := by grind
  have notFirst : after.head? ≠ some other := head?_ne_some (by grind)
  rw [linked.previous?_linkIn maps childKnown split, linked.next?_linkIn maps childKnown split,
    if_neg notChild, if_neg notFirst, if_neg notChild, old.1, old.2]
  refine ⟨rfl, ?_⟩
  cases inner with
  | nil => simp
  | cons first inner =>
      have notLast : (pieces ++ other :: first :: inner).getLast? ≠ some other := by
        grind
      rw [if_neg notLast]
      rfl

/-- Of the nodes behind the one put in only the first has a new neighbour. -/
theorem Linked.neighbours_linkIn_of_after (linked : tree.Linked) {inner rest : List NodeId}
    {other : NodeId}
    (maps : ∀ id, changed.node? id = (tree.node? id).map
      (Tree.linkIn parent child before (inner ++ other :: rest) id))
    (childKnown : ∃ node, tree.node? child = some node)
    (alone : tree.parent? child = none)
    (split : tree.children parent = before ++ (inner ++ other :: rest)) :
    changed.previous? other = (before ++ child :: inner).getLast? ∧
      changed.next? other = rest.head? := by
  have distinct := linked.nodup parent
  have childNotHere := linked.not_mem_children_of_alone alone parent
  rw [split] at distinct childNotHere
  have old := linked.neighbours parent (before ++ inner) other rest (by simp [split])
  have notChild : other ≠ child := by grind
  have notLast : before.getLast? ≠ some other := getLast?_ne_some (by grind)
  rw [linked.previous?_linkIn maps childKnown split, linked.next?_linkIn maps childKnown split,
    if_neg notChild, if_neg notChild, if_neg notLast, old.1, old.2]
  refine ⟨?_, rfl⟩
  cases inner with
  | nil => simp
  | cons first inner =>
      have notFirst : (first :: inner ++ other :: rest).head? ≠ some other := by
        grind
      rw [if_neg notFirst]
      simp [List.getLast?_append]

/-- Putting a detached node between two pieces of a list keeps the links
consistent. -/
theorem Linked.linkIn (linked : tree.Linked)
    (maps : ∀ id, changed.node? id =
      (tree.node? id).map (Tree.linkIn parent child before after id))
    (childKnown : ∃ node, tree.node? child = some node)
    (parentKnown : ∃ node, tree.node? parent = some node)
    (alone : tree.parent? child = none)
    (split : tree.children parent = before ++ after) : changed.Linked := by
  have children := children_linkIn maps parentKnown
  constructor
  case nodup =>
    intro id
    have distinct := linked.nodup parent
    have childNotHere := linked.not_mem_children_of_alone alone parent
    rw [children]
    split_ifs with same
    · rw [split] at distinct childNotHere
      grind
    · exact linked.nodup id
  case mem_children_iff =>
    exact linked.mem_children_linkIn maps childKnown parentKnown alone split
  case neighbours =>
    intro owner pieces other rest changedSplit
    rw [children] at changedSplit
    split_ifs at changedSplit with sameOwner
    · rcases split_append changedSplit with
        ⟨inner, rfl, rfl⟩ | ⟨inner, innerSplit, rfl⟩
      · exact linked.neighbours_linkIn_of_before maps childKnown alone split
      · cases inner with
        | nil =>
            obtain ⟨same, rfl⟩ := List.cons_eq_cons.mp innerSplit
            rw [linked.previous?_linkIn maps childKnown split,
              linked.next?_linkIn maps childKnown split, if_pos same.symm, if_pos same.symm]
            simp
        | cons first inner =>
            obtain ⟨same, rfl⟩ := List.cons_eq_cons.mp (innerSplit.trans List.cons_append)
            subst same
            exact linked.neighbours_linkIn_of_after maps childKnown alone split
    · have inOwner : other ∈ tree.children owner := by simp [changedSplit]
      have notHere : other ∉ tree.children parent := fun member =>
        sameOwner (linked.parent_unique inOwner member)
      have notChild : other ≠ child := by
        intro same
        exact linked.not_mem_children_of_alone alone owner (same ▸ inOwner)
      have kept := linked.neighbours_linkIn maps childKnown split notChild notHere
      rw [kept.1, kept.2]
      exact linked.neighbours owner pieces other rest changedSplit
  case detached =>
    intro other otherAlone
    rw [parent?_linkIn maps childKnown] at otherAlone
    split_ifs at otherAlone with same
    have notHere := linked.not_mem_children_of_alone otherAlone parent
    have kept := linked.neighbours_linkIn maps childKnown split same notHere
    rw [kept.1, kept.2]
    exact linked.detached other otherAlone

end LinkIn

end Tree

end CssQuery
