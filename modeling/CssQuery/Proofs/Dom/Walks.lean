import CssQuery.Dom.Traversal
import CssQuery.Proofs.Dom.Built
import Mathlib.Data.List.Induction
import Mathlib.Data.List.Perm.Subperm
import Mathlib.Order.WellFounded

/-!
# Walks and what they meet

A walk follows one kind of link for as many steps as the tree has nodes.  In a
tree without cycles the walk to the parents meets every ancestor.  With
consistent links the walk to the previous siblings goes back through the list
of children to its beginning.
-/

namespace CssQuery

open Relation

namespace Tree

section Follow

variable {step : NodeId → Option NodeId} {steps : Nat} {id value : NodeId}

theorem transGen_of_mem_follow (member : value ∈ follow step steps id) :
    TransGen (fun id next => step id = some next) id value := by
  induction steps generalizing id with
  | zero => cases member
  | succ steps ih =>
      rw [follow] at member
      cases taken : step id with
      | none => simp [taken] at member
      | some next =>
          rw [taken] at member
          rcases List.mem_cons.mp member with rfl | later
          · exact .single taken
          · exact .head taken (ih later)

/-- A walk that is over before its steps are used up has met everything. -/
theorem mem_follow_of_transGen (finished : (follow step steps id).length < steps)
    (reached : TransGen (fun id next => step id = some next) id value) :
    value ∈ follow step steps id := by
  induction steps generalizing id with
  | zero => cases finished
  | succ steps ih =>
      obtain ⟨next, taken, rest⟩ := TransGen.head'_iff.mp reached
      rw [follow, taken] at finished ⊢
      rcases rest.cases_head with rfl | ⟨further, first, later⟩
      · exact List.mem_cons_self
      · have member := ih (by simpa using finished) (.head' first later)
        exact List.mem_cons_of_mem _ member

theorem not_transGen_self (ends : WellFounded fun next id : NodeId => step id = some next)
    (id : NodeId) : ¬ TransGen (fun id next => step id = some next) id id := by
  intro loop
  have swapped := transGen_swap.mp loop
  exact ends.transGen.asymmetric id id swapped swapped

theorem nodup_cons_follow (ends : WellFounded fun next id : NodeId => step id = some next)
    (steps : Nat) (id : NodeId) :
    (id :: follow step steps id).Nodup := by
  induction steps generalizing id with
  | zero => simp [follow]
  | succ steps ih =>
      refine List.nodup_cons.mpr
        ⟨fun member => not_transGen_self ends id (transGen_of_mem_follow member), ?_⟩
      rw [follow]
      cases step id with
      | none => exact List.nodup_nil
      | some next => exact ih next

end Follow

variable {tree : Tree}

theorem length_le_size {list : List NodeId} (distinct : list.Nodup)
    (known : ∀ id ∈ list, id < tree.size) : list.length ≤ tree.size := by
  have within : list ⊆ List.range tree.size := fun id member =>
    List.mem_range.mpr (known id member)
  simpa using (distinct.subperm within).length_le

theorem lt_size_of_parent? {child parent : NodeId} (attached : tree.parent? child = some parent) :
    child < tree.size :=
  node?_eq_some_iff.mp (Linked.known_of_parent? attached)

theorem lt_size_of_mem_children {child parent : NodeId} (member : child ∈ tree.children parent) :
    parent < tree.size := by
  by_contra unknown
  rw [children_eq_nil (Nat.not_lt.mp unknown)] at member
  cases member

/-- The walk to the parents is over before it has made as many steps as there
are nodes. -/
theorem length_ancestors_lt (linked : tree.Linked) (acyclic : tree.Acyclic) {id : NodeId}
    (known : id < tree.size) : (tree.ancestors id).length < tree.size := by
  refine length_le_size (nodup_cons_follow acyclic tree.size id) fun other member => ?_
  rcases List.mem_cons.mp member with rfl | met
  · exact known
  · obtain ⟨below, -, attached⟩ := TransGen.tail'_iff.mp (transGen_of_mem_follow met)
    exact lt_size_of_mem_children ((linked.mem_children_iff _ _).mpr attached)

/-- The walk to the parents meets every node above, and no other. -/
theorem mem_ancestors_iff (linked : tree.Linked) (acyclic : tree.Acyclic) {id above : NodeId} :
    above ∈ tree.ancestors id ↔
      TransGen (fun id above => tree.parent? id = some above) id above := by
  refine ⟨transGen_of_mem_follow, fun reached => ?_⟩
  obtain ⟨parent, attached, -⟩ := TransGen.head'_iff.mp reached
  exact mem_follow_of_transGen
    (length_ancestors_lt linked acyclic (lt_size_of_parent? attached)) reached

theorem follow_previous?_eq_reverse (linked : tree.Linked) {parent child : NodeId}
    {before after : List NodeId} (split : tree.children parent = before ++ child :: after)
    {steps : Nat} (enough : before.length < steps) :
    follow tree.previous? steps child = before.reverse := by
  induction before using List.reverseRecOn generalizing child after steps with
  | nil =>
      obtain ⟨steps, rfl⟩ := Nat.exists_eq_add_one_of_ne_zero (Nat.ne_of_gt enough)
      have first := (linked.neighbours parent [] child after split).1
      rw [follow, first]
      rfl
  | append_singleton before sibling ih =>
      obtain ⟨steps, rfl⟩ := Nat.exists_eq_add_one_of_ne_zero (Nat.ne_zero_of_lt enough)
      have previous := (linked.neighbours parent _ child after split).1
      rw [List.getLast?_concat] at previous
      rw [List.length_append] at enough
      have earlier : tree.children parent = before ++ sibling :: child :: after := by
        simpa using split
      have onward := ih earlier (Nat.lt_of_succ_lt_succ enough)
      rw [follow, previous, List.reverse_append]
      exact congrArg (sibling :: ·) onward

/-- The siblings before a node are what stands before it in the list of its
parent, in reverse. -/
theorem Linked.precedingSiblings_eq (linked : tree.Linked) {parent child : NodeId}
    {before after : List NodeId} (split : tree.children parent = before ++ child :: after) :
    tree.precedingSiblings child = before.reverse := by
  apply follow_previous?_eq_reverse linked split
  have distinct := linked.nodup parent
  have known : ∀ id ∈ tree.children parent, id < tree.size := fun id member =>
    lt_size_of_parent? ((linked.mem_children_iff _ _).mp member)
  have short := length_le_size distinct known
  rw [split, List.length_append, List.length_cons] at short
  omega

theorem Linked.precedingSiblings_of_alone (linked : tree.Linked) {child : NodeId}
    (alone : tree.parent? child = none) : tree.precedingSiblings child = [] := by
  rw [precedingSiblings]
  cases tree.size with
  | zero => rfl
  | succ steps => rw [follow, (linked.detached child alone).1]

end Tree

end CssQuery
