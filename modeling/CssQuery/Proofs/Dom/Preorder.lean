import CssQuery.Proofs.Dom.Descendants

/-!
# Descendants in preorder

The walk below a node is given as many steps as the tree has nodes.  `Unfolds`
is the same walk without a bound: nothing is pending any more when it ends.
In a tree without cycles the bounded walk ends as well, because it meets no
node twice and never the node below which it goes.

A walk over two rows of pending nodes is one over the first row and then one
over the second.  So the walk below a node meets every child and, behind it,
all that the walk below the child meets.
-/

namespace CssQuery

open Relation

namespace Tree

/-- The walk over the pending nodes ends, and `met` is what it meets. -/
inductive Unfolds (tree : Tree) : (pending met : List NodeId) → Prop
  | done : Unfolds tree [] []
  | visit {id : NodeId} {pending met : List NodeId}
      (onward : Unfolds tree (tree.children id ++ pending) met) :
      Unfolds tree (id :: pending) (id :: met)

variable {tree : Tree}

section Unbounded

variable {pending met : List NodeId}

/-- A walk that is over before its steps are used up has nothing pending. -/
theorem unfolds_of_length_lt {steps : Nat}
    (finished : (tree.unfold steps pending).length < steps) :
    tree.Unfolds pending (tree.unfold steps pending) := by
  induction steps generalizing pending with
  | zero => cases finished
  | succ steps ih =>
      cases pending with
      | nil => exact .done
      | cons id pending => exact .visit (ih (Nat.lt_of_succ_lt_succ finished))

theorem Unfolds.unique {other : List NodeId} (walk : tree.Unfolds pending met)
    (again : tree.Unfolds pending other) : met = other := by
  induction walk generalizing other with
  | done =>
      cases again
      rfl
  | @visit id pending met onward ih =>
      cases again with
      | visit onwardAgain => exact congrArg (id :: ·) (ih onwardAgain)

theorem Unfolds.append {later metLater : List NodeId} (first : tree.Unfolds pending met)
    (second : tree.Unfolds later metLater) :
    tree.Unfolds (pending ++ later) (met ++ metLater) := by
  induction first with
  | done => exact second
  | visit onward ih =>
      rw [List.append_assoc] at ih
      exact .visit ih

theorem unfolds_flatMap {below : NodeId → List NodeId}
    (each : ∀ id, tree.Unfolds (tree.children id) (below id)) (pending : List NodeId) :
    tree.Unfolds pending (pending.flatMap fun id => id :: below id) := by
  induction pending with
  | nil => exact .done
  | cons id pending ih => exact .visit ((each id).append ih)

/-- A walk that ends has met all that was pending and all children of what it
has met. -/
theorem Unfolds.closed (walk : tree.Unfolds pending met) :
    (∀ id ∈ pending, id ∈ met) ∧ ∀ id ∈ met, ∀ child ∈ tree.children id, child ∈ met := by
  induction walk with
  | done => exact ⟨fun _ member => member, fun _ member => nomatch member⟩
  | @visit id pending met onward ih =>
      obtain ⟨reached, closed⟩ := ih
      rw [List.forall_mem_cons, List.forall_mem_cons]
      refine ⟨⟨List.mem_cons_self, fun other member => ?_⟩, fun child member => ?_,
        fun other member child isChild => ?_⟩
      · exact List.mem_cons_of_mem _ (reached other (List.mem_append_right _ member))
      · exact List.mem_cons_of_mem _ (reached child (List.mem_append_left _ member))
      · exact List.mem_cons_of_mem _ (closed other member child isChild)

end Unbounded

theorem transGen_of_mem_descendants (linked : tree.Linked) {id other : NodeId}
    (member : other ∈ tree.descendants id) :
    TransGen (fun id above => tree.parent? id = some above) other id := by
  obtain ⟨child, isChild, within⟩ := exists_within_of_mem_unfold linked member
  exact TransGen.tail' within ((linked.mem_children_iff _ _).mp isChild)

theorem not_mem_descendants (linked : tree.Linked) (acyclic : tree.Acyclic) (id : NodeId) :
    id ∉ tree.descendants id :=
  fun member => not_transGen_self acyclic id (transGen_of_mem_descendants linked member)

/-- The steps that the walk below a node is given are enough. -/
theorem unfolds_descendants (linked : tree.Linked) (acyclic : tree.Acyclic) (id : NodeId) :
    tree.Unfolds (tree.children id) (tree.descendants id) := by
  by_cases childless : tree.children id = []
  · rw [descendants, childless]
    cases tree.size <;> exact .done
  · obtain ⟨child, isChild⟩ := List.exists_mem_of_ne_nil _ childless
    have distinct : (id :: tree.descendants id).Nodup :=
      List.nodup_cons.mpr
        ⟨not_mem_descendants linked acyclic id, nodup_descendants linked acyclic id⟩
    have known : ∀ other ∈ id :: tree.descendants id, other < tree.size := by
      intro other member
      rcases List.mem_cons.mp member with rfl | below
      · exact lt_size_of_mem_children isChild
      · obtain ⟨parent, attached, -⟩ :=
          TransGen.head'_iff.mp (transGen_of_mem_descendants linked below)
        exact lt_size_of_parent? attached
    exact unfolds_of_length_lt (length_le_size distinct known)

theorem mem_descendants_iff (linked : tree.Linked) (acyclic : tree.Acyclic) {id other : NodeId} :
    other ∈ tree.descendants id ↔
      TransGen (fun id above => tree.parent? id = some above) other id := by
  refine ⟨transGen_of_mem_descendants linked, fun below => ?_⟩
  obtain ⟨reached, closed⟩ := (unfolds_descendants linked acyclic id).closed
  induction below using TransGen.head_induction_on with
  | single attached => exact reached _ ((linked.mem_children_iff _ _).mpr attached)
  | head attached _ ih => exact closed _ ih _ ((linked.mem_children_iff _ _).mpr attached)

/-- In every tree without cycles that is built from known nodes, the walk below
a node ends.  It meets each child and, behind it, what the walk below the child
meets; no node is met twice, and the node itself is not met.  What it meets are
the nodes from which the walk to the parents meets the node. -/
theorem descendants_preorder (built : tree.Built fun tree command => command.Known tree)
    (acyclic : tree.Acyclic) (id : NodeId) :
    tree.Unfolds (tree.children id) (tree.descendants id) ∧
      tree.descendants id =
        (tree.children id).flatMap (fun child => child :: tree.descendants child) ∧
      (tree.descendants id).Nodup ∧
      id ∉ tree.descendants id ∧
      ∀ other,
        (other ∈ tree.descendants id ↔ tree.isDescendant other id = true) ∧
          (tree.isDescendant other id = true ↔ id ∈ tree.ancestors other) ∧
          (id ∈ tree.ancestors other ↔
            TransGen (fun id above => tree.parent? id = some above) other id) := by
  have linked := built.linked fun _ _ known => known
  have ends := unfolds_descendants linked acyclic
  have recursion := (ends id).unique (unfolds_flatMap ends (tree.children id))
  refine ⟨ends id, recursion, nodup_descendants linked acyclic id,
    not_mem_descendants linked acyclic id, fun other => ?_⟩
  have upward : tree.isDescendant other id = true ↔ id ∈ tree.ancestors other :=
    List.contains_iff_mem
  have above : id ∈ tree.ancestors other ↔
      TransGen (fun id above => tree.parent? id = some above) other id :=
    mem_ancestors_iff linked acyclic
  exact ⟨(mem_descendants_iff linked acyclic).trans (upward.trans above).symm, upward, above⟩

/-- A list in which the second item has been put before the first, which has a
text. -/
theorem descendants_of_moved_list :
    ∃ tree : Tree, (tree.Built fun tree command => command.Known tree) ∧ tree.Acyclic ∧
      tree.Unfolds [2] [2, 4, 3, 5] ∧
      tree.descendants 1 = 2 :: tree.descendants 2 ∧
      tree.isDescendant 5 1 = true ∧ 2 ∈ tree.ancestors 5 ∧ tree.isDescendant 1 5 = false := by
  have listed := (((Built.empty.perform (.appendElement 0 "body") ⟨by decide, trivial⟩).perform
    (.appendElement 1 "ul") ⟨by decide, trivial⟩).perform
    (.appendElement 2 "li") ⟨by decide, trivial⟩ : Built
      (fun tree command => command.Known tree ∧ command.LoopFree tree) _)
  have full := (listed.perform (.appendElement 2 "li") ⟨by decide, trivial⟩).perform
    (.appendText 3 "x") ⟨by decide, trivial⟩
  have linked := full.linked fun _ _ allowed => allowed.1
  have moved := full.perform (.insertBefore 2 4 3)
    ⟨by decide, not_within_of_childless linked rfl (by decide)⟩
  have built := moved.mono fun _ _ (allowed : _ ∧ _) => allowed.1
  obtain ⟨ends, recursion, -, -, agree⟩ := descendants_preorder built moved.acyclic 1
  obtain ⟨-, -, -, -, agreeBelow⟩ := descendants_preorder built moved.acyclic 2
  obtain ⟨-, -, -, -, agreeText⟩ := descendants_preorder built moved.acyclic 5
  refine ⟨_, built, moved.acyclic, ends, ?_, (agree 5).1.mp (by decide), ?_, ?_⟩
  · exact recursion.trans (List.append_nil _)
  · exact (agreeBelow 5).2.1.mp ((agreeBelow 5).1.mp (by decide))
  · exact Bool.eq_false_iff.mpr fun below => absurd ((agreeText 1).1.mpr below) (by decide)

end Tree

end CssQuery
