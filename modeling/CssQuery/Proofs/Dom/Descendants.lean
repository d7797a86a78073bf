import CssQuery.Proofs.Dom.Walks
import Mathlib.Data.List.Nodup

/-!
# Document order

The walk below a node takes the first pending node and puts its children in
its place.  In a tree without cycles the pending nodes are apart from each
other: no node lies at or below two of them.  One step of the walk keeps this,
so the walk meets no node twice, and the place where it meets a node is the
place of the node in document order.
-/

namespace CssQuery

open Relation

section Merge

variable {α : Type}

/-- A row in strict order is the merge of its two parts. -/
theorem merge_filter_eq_self {before : α → α → Bool} {list : List α}
    (ordered : list.Pairwise fun first second =>
      before first second = true ∧ before second first = false) (keeps : α → Bool) :
    (list.filter keeps).merge (list.filter fun value => !keeps value) before = list := by
  induction ordered with
  | nil => exact List.nil_merge []
  | @cons first list later _ ih =>
      cases kept : keeps first with
      | true =>
          rw [List.filter_cons_of_pos kept, List.filter_cons_of_neg (by simp [kept])]
          cases others : list.filter fun value => !keeps value with
          | nil =>
              rw [others, List.merge_right] at ih
              rw [List.merge_right, ih]
          | cons second others =>
              have member : second ∈ list :=
                List.mem_of_mem_filter (others ▸ List.mem_cons_self)
              rw [others] at ih
              rw [List.cons_merge_cons_pos _ _ _ (later second member).1, ih]
      | false =>
          rw [List.filter_cons_of_neg (by simp [kept]), List.filter_cons_of_pos (by simp [kept])]
          cases others : list.filter keeps with
          | nil =>
              rw [others, List.nil_merge] at ih
              rw [List.nil_merge, ih]
          | cons second others =>
              have member : second ∈ list :=
                List.mem_of_mem_filter (others ▸ List.mem_cons_self)
              rw [others] at ih
              rw [List.cons_merge_cons_neg _ _ _ (by simp [(later second member).2]), ih]

theorem pairwise_idxOf_lt [BEq α] [LawfulBEq α] {list : List α} (distinct : list.Nodup) :
    list.Pairwise fun first second => list.idxOf first < list.idxOf second := by
  rw [List.pairwise_iff_getElem]
  intro first second firstSmall secondSmall less
  rwa [distinct.idxOf_getElem, distinct.idxOf_getElem]

end Merge

namespace Tree

variable {tree : Tree}

/-- No node lies at or below both nodes. -/
def Apart (tree : Tree) (first second : NodeId) : Prop :=
  ∀ id, tree.Within id first → ¬ tree.Within id second

theorem not_within_child (acyclic : tree.Acyclic) {parent child : NodeId}
    (attached : tree.parent? child = some parent) : ¬ tree.Within parent child :=
  fun within => not_transGen_self acyclic child (TransGen.head' attached within)

theorem apart_of_siblings (acyclic : tree.Acyclic) {parent first second : NodeId}
    (firstAttached : tree.parent? first = some parent)
    (secondAttached : tree.parent? second = some parent) (different : first ≠ second) :
    tree.Apart first second := by
  have strict : ∀ {id other : NodeId}, tree.parent? id = some parent →
      tree.parent? other = some parent → id ≠ other → ¬ tree.Within id other := by
    intro id other attached otherAttached different within
    rcases within.cases_head with same | ⟨above, step, onward⟩
    · exact different same
    · rw [attached, Option.some.injEq] at step
      subst step
      exact not_within_child acyclic otherAttached onward
  intro id underFirst underSecond
  have unique : Relator.RightUnique fun id above => tree.parent? id = some above := by
    intro id above other step otherStep
    exact Option.some.inj (step.symm.trans otherStep)
  rcases ReflTransGen.total_of_right_unique unique underFirst underSecond with within | within
  · exact strict firstAttached secondAttached different within
  · exact strict secondAttached firstAttached different.symm within

/-- What the walk meets lies at or below a pending node. -/
theorem exists_within_of_mem_unfold (linked : tree.Linked) {steps : Nat} {pending : List NodeId}
    {id : NodeId} (member : id ∈ tree.unfold steps pending) :
    ∃ above ∈ pending, tree.Within id above := by
  induction steps generalizing pending with
  | zero => cases member
  | succ steps ih =>
      cases pending with
      | nil => cases member
      | cons first pending =>
          rcases List.mem_cons.mp member with rfl | later
          · exact ⟨id, List.mem_cons_self, .refl⟩
          · obtain ⟨above, among, within⟩ := ih later
            rcases List.mem_append.mp among with child | other
            · exact ⟨first, List.mem_cons_self,
                within.tail ((linked.mem_children_iff _ _).mp child)⟩
            · exact ⟨above, List.mem_cons_of_mem _ other, within⟩

theorem apart_children (linked : tree.Linked) (acyclic : tree.Acyclic) (id : NodeId) :
    (tree.children id).Pairwise tree.Apart :=
  List.Nodup.pairwise_of_forall_ne (linked.nodup id) fun _ first _ second different =>
    apart_of_siblings acyclic ((linked.mem_children_iff _ _).mp first)
      ((linked.mem_children_iff _ _).mp second) different

/-- Pending nodes that are apart stay so when the first one gives way to its
children. -/
theorem apart_pending (linked : tree.Linked) (acyclic : tree.Acyclic) {first : NodeId}
    {pending : List NodeId} (apart : (first :: pending).Pairwise tree.Apart) :
    (tree.children first ++ pending).Pairwise tree.Apart := by
  obtain ⟨fromFirst, others⟩ := List.pairwise_cons.mp apart
  refine List.pairwise_append.mpr ⟨apart_children linked acyclic first, others, ?_⟩
  intro child isChild other among id underChild underOther
  have underFirst := underChild.tail ((linked.mem_children_iff _ _).mp isChild)
  exact fromFirst other among id underFirst underOther

theorem nodup_unfold (linked : tree.Linked) (acyclic : tree.Acyclic) (steps : Nat)
    {pending : List NodeId} (apart : pending.Pairwise tree.Apart) :
    (tree.unfold steps pending).Nodup := by
  induction steps generalizing pending with
  | zero => exact List.nodup_nil
  | succ steps ih =>
      cases pending with
      | nil => exact List.nodup_nil
      | cons first pending =>
          refine List.nodup_cons.mpr ⟨?_, ih (apart_pending linked acyclic apart)⟩
          intro again
          obtain ⟨above, among, within⟩ := exists_within_of_mem_unfold linked again
          rcases List.mem_append.mp among with child | other
          · exact not_within_child acyclic ((linked.mem_children_iff _ _).mp child) within
          · exact (List.pairwise_cons.mp apart).1 above other first .refl within

theorem nodup_descendants (linked : tree.Linked) (acyclic : tree.Acyclic) (id : NodeId) :
    (tree.descendants id).Nodup :=
  nodup_unfold linked acyclic tree.size (apart_children linked acyclic id)

theorem nodup_elementsBelow (linked : tree.Linked) (acyclic : tree.Acyclic) (id : NodeId) :
    (tree.elementsBelow id).Nodup :=
  (nodup_descendants linked acyclic id).filter _

/-- In document order below a root, the first node does not come after the
second. -/
def inOrder (tree : Tree) (root first second : NodeId) : Bool :=
  (tree.descendants root).idxOf first ≤ (tree.descendants root).idxOf second

/-- What a test keeps of the elements below a root and what it drops, merged
in document order, are all of them. -/
theorem merge_filter_elementsBelow (linked : tree.Linked) (acyclic : tree.Acyclic)
    (root : NodeId) (keeps : NodeId → Bool) :
    ((tree.elementsBelow root).filter keeps).merge
        ((tree.elementsBelow root).filter fun id => !keeps id) (tree.inOrder root) =
      tree.elementsBelow root := by
  apply merge_filter_eq_self
  refine ((pairwise_idxOf_lt (nodup_descendants linked acyclic root)).filter _).imp ?_
  intro first second less
  simp only [inOrder, decide_eq_true_eq, decide_eq_false_iff_not]
  omega

end Tree

end CssQuery
