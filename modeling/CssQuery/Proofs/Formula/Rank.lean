import CssQuery.Formula.Position
import CssQuery.Proofs.Dom.Tags
import CssQuery.Proofs.PseudoClass.Structural
import CssQuery.Proofs.Selector.Staged

/-!
# Ranks among siblings

An element is counted in a group of siblings: all element children of its
parent, or those of them with its tag.  Its index is the place where it stands
in its group, from the beginning or from the end.  All members of a group have
the same group, so their indices are the places of the group, each once.

The index is found by numbers of tags.  What it says is stated by tag names.
-/

namespace CssQuery

variable {tree : Tree}

namespace Tree

/-- The siblings among which an element is counted, the element among them;
none for a node that is detached or no element. -/
def siblingGroup (tree : Tree) (ofType : Bool) (node : NodeId) : List NodeId :=
  (tree.elementSiblings node).filter fun sibling => !ofType || tree.sameTag node sibling

/-- The sibling is an element and, if only siblings of the same type count, its
tag name is that of the node. -/
def isPeer (tree : Tree) (ofType : Bool) (node sibling : NodeId) : Bool :=
  tree.isElement sibling && (!ofType || tree.tagName? sibling == tree.tagName? node)

theorem elementSiblings_of_attached {node parent : NodeId} (element : tree.isElement node = true)
    (attached : tree.parent? node = some parent) :
    tree.elementSiblings node = tree.childElements parent := by
  rw [elementSiblings, if_pos element, attached]
  rfl

theorem attached_of_mem_elementSiblings {node sibling : NodeId}
    (member : sibling ∈ tree.elementSiblings node) :
    tree.isElement node = true ∧
      ∃ parent, tree.parent? node = some parent ∧ sibling ∈ tree.childElements parent := by
  rw [elementSiblings] at member
  split_ifs at member with element
  · refine ⟨element, ?_⟩
    cases attached : tree.parent? node with
    | none =>
        rw [attached] at member
        cases member
    | some parent =>
        rw [attached] at member
        exact ⟨parent, rfl, member⟩
  · cases member

theorem Linked.mem_siblingGroup_self (linked : tree.Linked) (ofType : Bool)
    {node parent : NodeId} (element : tree.isElement node = true)
    (attached : tree.parent? node = some parent) : node ∈ tree.siblingGroup ofType node := by
  have inside := (linked.mem_children_iff _ _).mpr attached
  rw [siblingGroup, elementSiblings_of_attached element attached, List.mem_filter,
    tree.sameTag_self, Bool.or_true]
  exact ⟨List.mem_filter.mpr ⟨inside, element⟩, rfl⟩

theorem Linked.nodup_siblingGroup (linked : tree.Linked) (ofType : Bool) (node : NodeId) :
    (tree.siblingGroup ofType node).Nodup := by
  apply List.Nodup.filter
  cases siblings : tree.elementSiblings node with
  | nil => exact List.nodup_nil
  | cons first others =>
      obtain ⟨element, parent, attached, -⟩ :=
        attached_of_mem_elementSiblings (siblings ▸ List.mem_cons_self)
      rw [← siblings, elementSiblings_of_attached element attached]
      exact linked.nodup_childElements parent

/-- All members of a group have the same group. -/
theorem Linked.siblingGroup_eq_of_mem (linked : tree.Linked) {ofType : Bool}
    {node sibling : NodeId} (member : sibling ∈ tree.siblingGroup ofType node) :
    tree.siblingGroup ofType sibling = tree.siblingGroup ofType node := by
  obtain ⟨among, sameType⟩ := List.mem_filter.mp member
  obtain ⟨element, parent, attached, inside⟩ := attached_of_mem_elementSiblings among
  have siblings := (linked.elementSiblings_eq inside).trans
    (elementSiblings_of_attached element attached).symm
  rw [siblingGroup, siblings, siblingGroup]
  apply List.filter_congr
  intro other _
  cases ofType with
  | false => rfl
  | true =>
      have sameId : tree.tagId? node = tree.tagId? sibling := beq_iff_eq.mp sameType
      rw [sameTag, sameTag, sameId]

/-- The group of an attached element, by tag names. -/
theorem Tagged.siblingGroup_eq (tagged : tree.Tagged) (ofType : Bool) {node parent : NodeId}
    (element : tree.isElement node = true) (attached : tree.parent? node = some parent) :
    tree.siblingGroup ofType node = (tree.children parent).filter (tree.isPeer ofType node) := by
  rw [siblingGroup, elementSiblings_of_attached element attached, childElements,
    List.filter_filter]
  apply List.filter_congr
  intro sibling _
  have sameType : tree.sameTag node sibling =
      (tree.tagName? sibling == tree.tagName? node) := by
    rw [sameTag, Bool.eq_iff_iff, beq_iff_eq, beq_iff_eq, tagged.tagId?_eq_iff]
    exact eq_comm
  rw [sameType, isPeer, Bool.and_comm]

end Tree

namespace Counting

theorem counts_eq (counting : Counting) (tree : Tree) (node sibling : NodeId) :
    counting.counts tree (tree.tagId? node) sibling =
      (!counting.ofType || tree.sameTag node sibling) := by
  rw [counts, Tree.sameTag, Bool.beq_comm]

/-- The index of a node is its place in its group. -/
theorem indexOf_eq_idxOf? (counting : Counting) (tree : Tree) (node : NodeId) :
    counting.indexOf tree node =
      (if counting.fromLast then (tree.siblingGroup counting.ofType node).reverse
        else tree.siblingGroup counting.ofType node).idxOf? node := by
  rw [indexOf, Tree.siblingGroup, Tree.elementSiblings]
  cases attached : tree.parent? node with
  | none => simp
  | some parent =>
      cases found : tree.element? node with
      | none => simp [Tree.tagId?, found, Tree.isElement_eq_false found]
      | some element =>
          have tag : tree.tagId? node = some element.tagId := by
            rw [Tree.tagId?, found]
            rfl
          have counted := funext (counting.counts_eq tree node)
          rw [tag] at counted
          rw [if_pos (Tree.isElement_of_element? found), tag]
          simp only [Option.map_some, Option.getD_some, counted]
          cases counting.fromLast with
          | false => rfl
          | true => simp only [if_true, List.filter_reverse]

theorem isSome_indexOf_iff (linked : tree.Linked) (counting : Counting) (node : NodeId) :
    (counting.indexOf tree node).isSome = true ↔
      tree.isElement node = true ∧ ∃ parent, tree.parent? node = some parent := by
  have found : (counting.indexOf tree node).isSome = true ↔
      node ∈ tree.siblingGroup counting.ofType node := by
    rw [indexOf_eq_idxOf?, List.isSome_idxOf?]
    split <;> simp
  rw [found]
  constructor
  · intro member
    obtain ⟨element, parent, attached, -⟩ :=
      Tree.attached_of_mem_elementSiblings (List.mem_filter.mp member).1
    exact ⟨element, parent, attached⟩
  · rintro ⟨element, parent, attached⟩
    exact linked.mem_siblingGroup_self _ element attached

section Places

variable {ofType : Bool} {node : NodeId}

/-- A member of a group has as its index the number of members before it, or
behind it if counting begins at the last. -/
theorem indexOf_of_split (linked : tree.Linked) {sibling : NodeId} {before after : List NodeId}
    (split : tree.siblingGroup ofType node = before ++ sibling :: after) :
    Counting.indexOf ⟨ofType, false⟩ tree sibling = some before.length ∧
      Counting.indexOf ⟨ofType, true⟩ tree sibling = some after.length := by
  have member : sibling ∈ tree.siblingGroup ofType node := by simp [split]
  have distinct := linked.nodup_siblingGroup ofType node
  rw [split] at distinct
  have notBefore : sibling ∉ before := by grind
  have notAfter : sibling ∉ after.reverse := by grind
  rw [indexOf_eq_idxOf?, indexOf_eq_idxOf?, linked.siblingGroup_eq_of_mem member, split]
  refine ⟨Tree.idxOf?_append_cons notBefore after, ?_⟩
  rw [if_pos rfl, List.reverse_append, List.reverse_cons, List.append_assoc,
    List.singleton_append, Tree.idxOf?_append_cons notAfter, List.length_reverse]

/-- What is known of each place of a list holds of all its places in order. -/
theorem map_eq_range {α : Type} {list : List α} {place : α → Option Nat}
    (places : ∀ before value after, list = before ++ value :: after →
      place value = some before.length) :
    list.map place = (List.range list.length).map some := by
  apply List.ext_getElem
  · simp
  · intro index small _
    rw [List.length_map] at small
    have split : list = list.take index ++ list[index] :: list.drop (index + 1) := by simp
    rw [List.getElem_map, places _ _ _ split]
    simp [Nat.min_eq_left (Nat.le_of_lt small)]

theorem map_indexOf_siblingGroup (linked : tree.Linked) (ofType : Bool) (node : NodeId) :
    (tree.siblingGroup ofType node).map (Counting.indexOf ⟨ofType, false⟩ tree) =
        (List.range (tree.siblingGroup ofType node).length).map some ∧
      (tree.siblingGroup ofType node).reverse.map (Counting.indexOf ⟨ofType, true⟩ tree) =
        (List.range (tree.siblingGroup ofType node).length).map some := by
  constructor
  · exact map_eq_range fun before sibling after split => (indexOf_of_split linked split).1
  · have mirrored : ∀ before sibling after,
        (tree.siblingGroup ofType node).reverse = before ++ sibling :: after →
          Counting.indexOf ⟨ofType, true⟩ tree sibling = some before.length := by
      intro before sibling after split
      have forward : tree.siblingGroup ofType node =
          after.reverse ++ sibling :: before.reverse := by
        rw [← List.reverse_reverse (tree.siblingGroup ofType node), split]
        simp
      rw [(indexOf_of_split linked forward).2, List.length_reverse]
    rw [map_eq_range mirrored, List.length_reverse]

end Places

/-- The index of a node among its siblings is the number of element children of
its parent that stand before it, or behind it when counting begins at the last;
where only siblings of the same type count, only those with the same tag name.
So the two indices and the node itself make up the group, and the indices in a
group are its places in order. -/
theorem indexOf_ranks (built : tree.Built fun tree command => command.Known tree)
    (ofType : Bool) (node : NodeId) :
    (∀ fromLast, (Counting.indexOf ⟨ofType, fromLast⟩ tree node).isSome = true ↔
        tree.isElement node = true ∧ ∃ parent, tree.parent? node = some parent) ∧
      ∀ parent, tree.isElement node = true → tree.parent? node = some parent →
        ∃ before after,
          tree.children parent = before ++ node :: after ∧ node ∉ before ∧ node ∉ after ∧
          Counting.indexOf ⟨ofType, false⟩ tree node =
            some (before.countP (tree.isPeer ofType node)) ∧
          Counting.indexOf ⟨ofType, true⟩ tree node =
            some (after.countP (tree.isPeer ofType node)) ∧
          let group := (tree.children parent).filter (tree.isPeer ofType node)
          before.countP (tree.isPeer ofType node) + after.countP (tree.isPeer ofType node) + 1 =
            group.length ∧
          group.map (Counting.indexOf ⟨ofType, false⟩ tree) =
            (List.range group.length).map some ∧
          group.reverse.map (Counting.indexOf ⟨ofType, true⟩ tree) =
            (List.range group.length).map some := by
  have linked := built.linked fun _ _ known => known
  refine ⟨fun fromLast => isSome_indexOf_iff linked _ node, fun parent element attached => ?_⟩
  have inside := (linked.mem_children_iff _ _).mpr attached
  obtain ⟨before, after, split⟩ := List.append_of_mem inside
  have distinct := linked.nodup parent
  rw [split] at distinct
  have self : tree.isPeer ofType node node = true := by simp [Tree.isPeer, element]
  have group := built.tagged.siblingGroup_eq ofType element attached
  have groupSplit : tree.siblingGroup ofType node =
      before.filter (tree.isPeer ofType node) ++ node :: after.filter (tree.isPeer ofType node) := by
    rw [group, split, List.filter_append, List.filter_cons_of_pos self]
  obtain ⟨forward, backward⟩ := indexOf_of_split linked groupSplit
  have places := map_indexOf_siblingGroup linked ofType node
  rw [← List.countP_eq_length_filter] at forward backward
  rw [group] at places groupSplit
  refine ⟨before, after, split, by grind, by grind, forward, backward, ?_, places⟩
  rw [groupSplit, List.length_append, List.length_cons, ← List.countP_eq_length_filter,
    ← List.countP_eq_length_filter]
  omega

/-- The second of three items of a list, with a text and a term before it. -/
theorem indexOf_among_items :
    ∃ tree : Tree, (tree.Built fun tree command => command.Known tree) ∧
      tree.children 1 = [2, 3, 4, 5, 6] ∧
      tree.isElement 5 = true ∧ tree.parent? 5 = some 1 ∧
      [2, 5, 6].map (Counting.indexOf ⟨true, false⟩ tree) = [some 0, some 1, some 2] ∧
      [6, 5, 2].map (Counting.indexOf ⟨true, true⟩ tree) = [some 0, some 1, some 2] ∧
      (Counting.indexOf ⟨true, false⟩ tree 3).isSome = false := by
  have first : Tree.Built (fun tree command => command.Known tree) _ :=
    ((Tree.Built.empty.perform (.appendElement 0 "dl") (by decide)).perform
      (.appendElement 1 "li") (by decide)).perform (.appendText 1 "x") (by decide)
  have built := ((first.perform (.appendElement 1 "dt") (by decide)).perform
    (.appendElement 1 "LI") (by decide)).perform (.appendElement 1 "li") (by decide)
  generalize tree_eq : (Tree.perform _ _).2 = tree at built
  have group : (tree.children 1).filter (tree.isPeer true 5) = [2, 5, 6] := by
    subst tree_eq
    decide +kernel
  have facts : tree.children 1 = [2, 3, 4, 5, 6] ∧ tree.isElement 5 = true ∧
      tree.parent? 5 = some 1 ∧ tree.isElement 3 = false := by
    subst tree_eq
    decide +kernel
  obtain ⟨children, element, attached, text⟩ := facts
  obtain ⟨before, after, -, -, -, -, -, -, forward, backward⟩ :=
    (indexOf_ranks built true 5).2 1 element attached
  rw [group] at forward backward
  refine ⟨tree, built, children, element, attached, forward, backward, ?_⟩
  rw [Bool.eq_false_iff, Ne, (indexOf_ranks built true 3).1, text]
  exact fun counted => nomatch counted.1

end Counting

end CssQuery
