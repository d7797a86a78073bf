import CssQuery.Proofs.Dom.Moves
import CssQuery.Session.Command
import Mathlib.Logic.Relation

/-!
# Trees that can be built

Every tree comes from the tree with a document node only by a sequence of
changes.  `Built` says that a tree is one of these, where each change may be
restricted by the tree that it meets.

If the changes name nodes that are there, the links of the tree are consistent
at every moment.  They do not yet rule out that a node is put below itself;
when no change does that, every walk from a node to its parent, from there to
the next parent and so on comes to an end.
-/

namespace CssQuery

open Relation

namespace Tree

/-- The second node is the first one or one of its ancestors. -/
def Within (tree : Tree) : NodeId → NodeId → Prop :=
  ReflTransGen fun id above => tree.parent? id = some above

/-- From every node, going from parent to parent comes to an end. -/
def Acyclic (tree : Tree) : Prop :=
  WellFounded fun above id => tree.parent? id = some above

/-- The tree is reached from the empty one by changes that are permitted where
they are made. -/
inductive Built (permitted : Tree → TreeCommand → Prop) : Tree → Prop
  | empty : Built permitted Tree.empty
  | perform {tree : Tree} (earlier : Built permitted tree) (command : TreeCommand)
      (allowed : permitted tree command) : Built permitted (tree.perform command).2

end Tree

namespace TreeCommand

/-- The nodes whose links the change is to patch are in the tree. -/
def Known (tree : Tree) : TreeCommand → Prop
  | .createElement _ _ | .createText _ | .createComment _ | .internTag _ => True
  | .appendElement parent _ | .appendText parent _ => parent < tree.size
  | .appendChild parent child | .insertBefore parent child _ =>
      parent < tree.size ∧ child < tree.size
  | .removeChild parent child => parent < tree.size ∧ child < tree.size

instance (tree : Tree) : (command : TreeCommand) → Decidable (command.Known tree)
  | .createElement _ _ | .createText _ | .createComment _ | .internTag _ =>
      inferInstanceAs (Decidable True)
  | .appendElement parent _ | .appendText parent _ =>
      inferInstanceAs (Decidable (parent < tree.size))
  | .appendChild parent child | .insertBefore parent child _ =>
      inferInstanceAs (Decidable (parent < tree.size ∧ child < tree.size))
  | .removeChild parent child =>
      inferInstanceAs (Decidable (parent < tree.size ∧ child < tree.size))

/-- The change puts no node below itself. -/
def LoopFree (tree : Tree) : TreeCommand → Prop
  | .appendChild parent child | .insertBefore parent child _ => ¬ tree.Within parent child
  | _ => True

end TreeCommand

namespace Tree

variable {tree : Tree}

theorem node?_internTag (tree : Tree) (name : String) (id : NodeId) :
    (tree.internTag name).2.node? id = tree.node? id := by
  rw [internTag]
  split <;> rfl

theorem size_internTag (tree : Tree) (name : String) :
    (tree.internTag name).2.size = tree.size := by
  rw [internTag]
  split <;> rfl

theorem node?_create (tree : Tree) (data : NodeData) (id : NodeId) :
    (tree.create data).2.node? id =
      if id = tree.size then some ⟨data, none, [], none, none⟩ else tree.node? id := by
  simp only [create, node?, size, Array.getElem?_push]
  rfl

theorem size_create (tree : Tree) (data : NodeData) :
    (tree.create data).2.size = tree.size + 1 := by
  simp [create, size]

theorem node?_eq_none {id : NodeId} (unknown : tree.size ≤ id) : tree.node? id = none := by
  simpa [node?, size] using unknown

theorem SameLinks.trans {first second third : Tree} (before : first.SameLinks second)
    (after : second.SameLinks third) : first.SameLinks third := fun id =>
  ⟨(after id).parent.trans (before id).parent, (after id).children.trans (before id).children,
    (after id).previous.trans (before id).previous, (after id).next.trans (before id).next⟩

theorem sameLinks_of_node? {other : Tree} (same : ∀ id, other.node? id = tree.node? id) :
    tree.SameLinks other := by
  intro id
  constructor <;> simp only [parent?, children, previous?, next?, same]

theorem sameLinks_create (tree : Tree) (data : NodeData) :
    tree.SameLinks (tree.create data).2 := by
  intro id
  by_cases fresh : id = tree.size
  · have unknown := node?_eq_none (Nat.le_of_eq fresh.symm)
    constructor <;>
      simp only [parent?, children, previous?, next?, node?_create, if_pos fresh, unknown] <;> rfl
  · constructor <;> simp only [parent?, children, previous?, next?, node?_create, if_neg fresh]

theorem sameLinks_createElement (tree : Tree) (tag : String)
    (attributes : List (String × String)) :
    tree.SameLinks (tree.createElement tag attributes).2 :=
  (sameLinks_of_node? (node?_internTag tree tag)).trans (sameLinks_create _ _)

theorem createElement_fst (tree : Tree) (tag : String) (attributes : List (String × String)) :
    (tree.createElement tag attributes).1 = tree.size :=
  size_internTag tree tag

theorem size_createElement (tree : Tree) (tag : String) (attributes : List (String × String)) :
    (tree.createElement tag attributes).2.size = tree.size + 1 := by
  rw [createElement, size_create, size_internTag]

theorem Linked.perform (linked : tree.Linked) {command : TreeCommand}
    (known : command.Known tree) : (tree.perform command).2.Linked := by
  cases command with
  | createElement tag attributes =>
      exact linked.of_sameLinks (sameLinks_createElement tree tag attributes)
  | createText text => exact linked.of_sameLinks (sameLinks_create tree _)
  | createComment text => exact linked.of_sameLinks (sameLinks_create tree _)
  | internTag tag => exact linked.of_sameLinks (sameLinks_of_node? (node?_internTag tree tag))
  | appendElement parent tag =>
      have created := linked.of_sameLinks (sameLinks_createElement tree tag [])
      refine created.appendChild ?_ ?_ <;> rw [size_createElement]
      · exact Nat.lt_succ_of_lt known
      · rw [createElement_fst]
        exact Nat.lt_succ_self _
  | appendText parent text =>
      have created := linked.of_sameLinks (sameLinks_create tree (.text text))
      refine created.appendChild ?_ ?_ <;> rw [size_create]
      · exact Nat.lt_succ_of_lt known
      · exact Nat.lt_succ_self _
  | appendChild parent child => exact linked.appendChild known.1 known.2
  | insertBefore parent child reference => exact linked.insertBefore reference known.1 known.2
  | removeChild parent child => exact linked.removeChild parent child

theorem Built.linked {permitted : Tree → TreeCommand → Prop}
    (known : ∀ tree command, permitted tree command → command.Known tree)
    (built : tree.Built permitted) : tree.Linked := by
  induction built with
  | empty => exact Linked.empty
  | perform earlier command allowed ih => exact ih.perform (known _ _ allowed)

/-- Where every walk to the parent comes to an end, it still does when a node
that has no part in the walk from `parent` is put below `parent`. -/
theorem Acyclic.reparent {changed : Tree} (acyclic : tree.Acyclic) {parent child : NodeId}
    (outside : ¬ tree.Within parent child)
    (parents : ∀ id, changed.parent? id = if id = child then some parent else tree.parent? id) :
    changed.Acyclic := by
  have fromOutside : ∀ id, ¬ tree.Within id child →
      Acc (fun above id => changed.parent? id = some above) id := by
    intro id
    induction id using acyclic.induction with
    | _ id ih =>
    intro idOutside
    constructor
    intro above step
    have notChild : id ≠ child := by
      intro same
      exact idOutside (same ▸ ReflTransGen.refl)
    rw [parents, if_neg notChild] at step
    exact ih above step fun reaches => idOutside (reaches.head step)
  have fromChild : Acc (fun above id => changed.parent? id = some above) child := by
    constructor
    intro above step
    rw [parents, if_pos rfl, Option.some.injEq] at step
    exact step ▸ fromOutside parent outside
  constructor
  intro id
  induction id using acyclic.induction with
  | _ id ih =>
  by_cases same : id = child
  · exact same ▸ fromChild
  · constructor
    intro above step
    rw [parents, if_neg same] at step
    exact ih above step

theorem Acyclic.of_parents {changed : Tree} (acyclic : tree.Acyclic)
    (parents : ∀ id above, changed.parent? id = some above → tree.parent? id = some above) :
    changed.Acyclic :=
  Subrelation.wf (fun step => parents _ _ step) acyclic

theorem Acyclic.of_sameLinks {other : Tree} (acyclic : tree.Acyclic)
    (same : tree.SameLinks other) : other.Acyclic :=
  acyclic.of_parents fun id _ step => (same id).parent ▸ step

theorem acyclic_empty : Tree.empty.Acyclic := by
  constructor
  intro id
  constructor
  intro above step
  rcases id with _ | id <;> simp [parent?, node?, Tree.empty] at step

theorem not_within_of_childless (linked : tree.Linked) {id other : NodeId}
    (childless : tree.children id = []) (different : other ≠ id) : ¬ tree.Within other id := by
  intro within
  rcases within.cases_tail with same | ⟨below, -, step⟩
  · exact different same.symm
  · rw [← linked.mem_children_iff, childless] at step
    cases step

theorem children_eq_nil {id : NodeId} (unknown : tree.size ≤ id) : tree.children id = [] := by
  rw [children, node?_eq_none unknown]
  rfl

theorem Acyclic.appendFresh {created : Tree} (linked : tree.Linked) (acyclic : tree.Acyclic)
    (same : tree.SameLinks created) (size : created.size = tree.size + 1) {parent : NodeId}
    (known : parent < tree.size) : (created.appendChild parent tree.size).Acyclic := by
  have createdLinked := linked.of_sameLinks same
  have childless : created.children tree.size = [] := by
    rw [(same tree.size).children]
    exact children_eq_nil (Nat.le_refl _)
  have outside : ¬ created.Within parent tree.size :=
    not_within_of_childless createdLinked childless (Nat.ne_of_lt known)
  have fresh : tree.size < created.size := by
    rw [size]
    exact Nat.lt_succ_self _
  exact (acyclic.of_sameLinks same).reparent outside (createdLinked.parent?_appendChild fresh)

theorem Acyclic.perform (acyclic : tree.Acyclic) (linked : tree.Linked) {command : TreeCommand}
    (known : command.Known tree) (loopFree : command.LoopFree tree) :
    (tree.perform command).2.Acyclic := by
  cases command with
  | createElement tag attributes =>
      exact acyclic.of_sameLinks (sameLinks_createElement tree tag attributes)
  | createText text => exact acyclic.of_sameLinks (sameLinks_create tree _)
  | createComment text => exact acyclic.of_sameLinks (sameLinks_create tree _)
  | internTag tag => exact acyclic.of_sameLinks (sameLinks_of_node? (node?_internTag tree tag))
  | appendElement parent tag =>
      have fresh := acyclic.appendFresh linked (sameLinks_createElement tree tag [])
        (size_createElement tree tag []) known
      rw [← createElement_fst tree tag []] at fresh
      exact fresh
  | appendText parent text =>
      exact acyclic.appendFresh linked (sameLinks_create tree (.text text))
        (size_create tree _) known
  | appendChild parent child =>
      exact acyclic.reparent loopFree (linked.parent?_appendChild known.2)
  | insertBefore parent child reference =>
      by_cases same : child = reference
      · subst same
        show (tree.insertBefore parent child child).Acyclic
        rw [insertBefore_self]
        exact acyclic
      · exact acyclic.reparent loopFree (linked.parent?_insertBefore same known.2)
  | removeChild parent child =>
      refine acyclic.of_parents fun id above step => ?_
      rw [show (tree.perform (.removeChild parent child)).2 = tree.removeChild parent child from rfl,
        linked.parent?_removeChild] at step
      split_ifs at step
      exact step

theorem Built.mono {permitted allowed : Tree → TreeCommand → Prop}
    (weaker : ∀ tree command, permitted tree command → allowed tree command)
    (built : tree.Built permitted) : tree.Built allowed := by
  induction built with
  | empty => exact .empty
  | perform earlier command granted ih => exact ih.perform command (weaker _ _ granted)

theorem Built.acyclic
    (built : tree.Built fun tree command => command.Known tree ∧ command.LoopFree tree) :
    tree.Acyclic := by
  induction built with
  | empty => exact acyclic_empty
  | perform earlier command allowed ih =>
      have linked := earlier.linked fun _ _ permitted => permitted.1
      exact ih.perform linked allowed.1 allowed.2

/-- The neighbours of a child are beside it in the list of its parent. -/
theorem Linked.neighbours_getElem? (linked : tree.Linked) {parent child : NodeId} {index : Nat}
    (place : (tree.children parent)[index]? = some child) :
    tree.previous? child = (if index = 0 then none else (tree.children parent)[index - 1]?) ∧
      tree.next? child = (tree.children parent)[index + 1]? := by
  obtain ⟨small, found⟩ := List.getElem?_eq_some_iff.mp place
  have split : tree.children parent =
      (tree.children parent).take index ++ child :: (tree.children parent).drop (index + 1) := by
    rw [← found, List.getElem_cons_drop, List.take_append_drop]
  obtain ⟨previous, next⟩ := linked.neighbours parent _ child _ split
  rw [previous, next, List.head?_drop]
  refine ⟨?_, rfl⟩
  cases index with
  | zero => rfl
  | succ before =>
      rw [List.getLast?_eq_getElem?, if_neg (Nat.succ_ne_zero before), List.length_take,
        Nat.min_eq_left (Nat.le_of_lt small), List.getElem?_take]
      simp

/-- In every tree that is built from known nodes the four kinds of link agree,
and no walk from parent to parent goes on forever unless a change has put a
node below itself. -/
theorem links_of_built (built : tree.Built fun tree command => command.Known tree) :
    (∀ id, (tree.children id).Nodup) ∧
      (∀ parent child, child ∈ tree.children parent ↔ tree.parent? child = some parent) ∧
      (∀ parent child index, (tree.children parent)[index]? = some child →
        tree.previous? child =
            (if index = 0 then none else (tree.children parent)[index - 1]?) ∧
          tree.next? child = (tree.children parent)[index + 1]?) ∧
      (∀ child, tree.parent? child = none →
        tree.previous? child = none ∧ tree.next? child = none) ∧
      ((tree.Built fun tree command => command.Known tree ∧ command.LoopFree tree) →
        tree.Acyclic) := by
  have linked := built.linked fun _ _ known => known
  exact ⟨linked.nodup, linked.mem_children_iff, fun _ _ _ => linked.neighbours_getElem?,
    linked.detached, Built.acyclic⟩

/-- Two items of a list, of which the second is put before the first. -/
theorem links_of_moved_item :
    ∃ tree : Tree,
      (tree.Built fun tree command => command.Known tree ∧ command.LoopFree tree) ∧
      tree.children 1 = [3, 2] ∧ tree.next? 3 = some 2 ∧ tree.previous? 2 = some 3 ∧
      tree.Acyclic := by
  have listed : ((Tree.empty.perform (.appendElement 0 "ul")).2.perform
      (.appendElement 1 "li")).2.Built
        fun tree command => command.Known tree ∧ command.LoopFree tree :=
    (Built.empty.perform _ ⟨by decide, trivial⟩).perform _ ⟨by decide, trivial⟩
  have created := listed.perform (.appendElement 1 "li") ⟨by decide, trivial⟩
  have createdLinked := created.linked fun _ _ allowed => allowed.1
  have moved := created.perform (.insertBefore 1 3 2)
    ⟨by decide, not_within_of_childless createdLinked rfl (by decide)⟩
  have links := links_of_built (moved.mono fun _ _ allowed => allowed.1)
  have first := links.2.2.1 1 3 0 (by rfl)
  have second := links.2.2.1 1 2 1 (by rfl)
  exact ⟨_, moved, rfl, first.2, second.1, links.2.2.2.2 moved⟩

end Tree

end CssQuery
