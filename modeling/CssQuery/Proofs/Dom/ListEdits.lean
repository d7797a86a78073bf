import CssQuery.Proofs.Dom.Built

/-!
# Moves as operations on lists

Seen through the lists of children, appending a node, putting it before
another one and removing it are three plain operations on lists: the node is
erased from the list that held it, and is then put somewhere into the list of
its new parent.  `Moved` is what such a move leaves alone: all other lists, the
parents of all other nodes, the nodes themselves with their data, and the
names of the tags.
-/

namespace CssQuery

namespace Tree

/-- A list with a value put directly before another one, or at the end if that
is not in the list. -/
def putBefore (value reference : NodeId) : List NodeId → List NodeId
  | [] => [value]
  | first :: rest =>
      if first = reference then value :: first :: rest
      else first :: putBefore value reference rest

/-- The trees have the same nodes with the same data, and the same tag names. -/
structure SameNodes (tree other : Tree) : Prop where
  size : other.size = tree.size
  data : ∀ id, (other.node? id).map Node.data = (tree.node? id).map Node.data
  tagNames : other.tagNames = tree.tagNames

/-- Nothing but the place of `child` has changed, which is now a child of
`owner`, if it is the child of any node.  What has become of the list of
`owner` is left open. -/
structure Moved (tree changed : Tree) (child : NodeId) (owner : Option NodeId) : Prop where
  parent : ∀ id, changed.parent? id = if id = child then owner else tree.parent? id
  erased : ∀ id, tree.parent? child = some id → owner ≠ some id →
    changed.children id = (tree.children id).erase child
  kept : ∀ id, tree.parent? child ≠ some id → owner ≠ some id →
    changed.children id = tree.children id
  sameNodes : tree.SameNodes changed

variable {tree : Tree}

section Lists

theorem putBefore_of_split {before after : List NodeId} {reference : NodeId}
    (absent : reference ∉ before) (value : NodeId) :
    putBefore value reference (before ++ reference :: after) =
      before ++ value :: reference :: after := by
  induction before with
  | nil => exact if_pos rfl
  | cons first before ih =>
      obtain ⟨different, later⟩ := not_or.mp (List.mem_cons.not.mp absent)
      rw [List.cons_append, putBefore, if_neg (Ne.symm different), ih later]
      rfl

theorem putBefore_of_not_mem {list : List NodeId} {reference : NodeId}
    (absent : reference ∉ list) (value : NodeId) :
    putBefore value reference list = list ++ [value] := by
  induction list with
  | nil => rfl
  | cons first rest ih =>
      obtain ⟨different, later⟩ := not_or.mp (List.mem_cons.not.mp absent)
      rw [putBefore, if_neg (Ne.symm different), ih later]
      rfl

end Lists

namespace SameNodes

theorem refl (tree : Tree) : tree.SameNodes tree :=
  ⟨rfl, fun _ => rfl, rfl⟩

theorem trans {first second third : Tree} (before : first.SameNodes second)
    (after : second.SameNodes third) : first.SameNodes third :=
  ⟨after.size.trans before.size, fun id => (after.data id).trans (before.data id),
    after.tagNames.trans before.tagNames⟩

theorem modify (tree : Tree) (id : NodeId) {change : Node → Node}
    (keeps : ∀ node, (change node).data = node.data) : tree.SameNodes (tree.modify id change) where
  size := size_modify tree id change
  data other := by
    rw [node?_modify_map, Option.map_map]
    apply Option.map_congr
    intro node _
    simp only [Function.comp_apply]
    split_ifs
    · exact keeps node
    · rfl
  tagNames := rfl

theorem modify? (tree : Tree) (id : Option NodeId) {change : Node → Node}
    (keeps : ∀ node, (change node).data = node.data) :
    tree.SameNodes (tree.modify? id change) := by
  cases id with
  | none => exact refl tree
  | some id => exact modify tree id keeps

theorem removeChild (tree : Tree) (parent child : NodeId) :
    tree.SameNodes (tree.removeChild parent child) := by
  unfold Tree.removeChild
  split
  · refine (modify _ _ ?_).trans ((modify? _ _ ?_).trans ((modify? _ _ ?_).trans
      (modify _ _ ?_))) <;> exact fun _ => rfl
  · exact refl tree

theorem detach (tree : Tree) (child : NodeId) : tree.SameNodes (tree.detach child) := by
  unfold Tree.detach
  split
  · exact removeChild _ _ _
  · exact refl tree

theorem appendChild (tree : Tree) (parent child : NodeId) :
    tree.SameNodes (tree.appendChild parent child) := by
  refine (detach tree child).trans ((modify _ _ ?_).trans ((modify _ _ ?_).trans
    (modify? _ _ ?_))) <;> exact fun _ => rfl

theorem insertBefore (tree : Tree) (parent child reference : NodeId) :
    tree.SameNodes (tree.insertBefore parent child reference) := by
  unfold Tree.insertBefore
  dsimp only
  split
  · exact refl tree
  · refine (detach tree child).trans ?_
    split
    · exact appendChild _ _ _
    · refine (modify _ _ ?_).trans ((modify _ _ ?_).trans ((modify _ _ ?_).trans
        (modify? _ _ ?_))) <;> exact fun _ => rfl

end SameNodes

namespace Linked

theorem erase_eq_of_other_parent (linked : tree.Linked) {child id : NodeId}
    (other : tree.parent? child ≠ some id) :
    (tree.children id).erase child = tree.children id := by
  rw [List.erase_of_not_mem]
  rwa [linked.mem_children_iff]

theorem children_removeChild (linked : tree.Linked) (parent child id : NodeId) :
    (tree.removeChild parent child).children id =
      if id = parent then (tree.children id).erase child else tree.children id := by
  by_cases member : child ∈ tree.children parent
  · obtain ⟨before, after, split⟩ := List.append_of_mem member
    rw [children_linkOut (linked.removeChild_eq split) split]
    split_ifs with same
    · have distinct := linked.nodup parent
      rw [split] at distinct
      rw [same, split, List.erase_append_right _ (by grind), List.erase_cons_head]
    · rfl
  · rw [removeChild_of_not_mem member]
    split_ifs with same
    · rw [same, List.erase_of_not_mem member]
    · rfl

theorem children_removeChild_of_parent? (linked : tree.Linked) {parent child : NodeId}
    (attached : tree.parent? child = some parent) (id : NodeId) :
    (tree.removeChild parent child).children id = (tree.children id).erase child := by
  rw [linked.children_removeChild]
  split_ifs with same
  · rfl
  · refine (linked.erase_eq_of_other_parent ?_).symm
    rw [attached]
    exact fun held => same (Option.some.inj held).symm

theorem children_detach (linked : tree.Linked) (child id : NodeId) :
    (tree.detach child).children id = (tree.children id).erase child := by
  rw [Tree.detach]
  cases attached : tree.parent? child with
  | none => exact (linked.erase_eq_of_other_parent (by simp [attached])).symm
  | some owner =>
      show (tree.removeChild owner child).children id = _
      exact linked.children_removeChild_of_parent? attached id

/-- The list that the reference is looked for in is split where it stands, or
at the end. -/
theorem children_insertBefore (linked : tree.Linked) {parent child reference : NodeId}
    (parentKnown : parent < tree.size) (different : child ≠ reference) (id : NodeId) :
    (tree.insertBefore parent child reference).children id =
      if id = parent then putBefore child reference ((tree.children id).erase child)
      else (tree.children id).erase child := by
  obtain ⟨before, after, split, ⟨notBefore, place⟩, maps⟩ :=
    linked.insertBefore_eq parent different
  rw [← size_detach tree child, ← node?_eq_some_iff] at parentKnown
  rw [children_linkIn maps parentKnown]
  rw [linked.children_detach] at split
  split_ifs with same
  · rw [same, split]
    rcases place with rfl | first
    · rw [List.append_nil, putBefore_of_not_mem notBefore]
    · obtain ⟨after, rfl⟩ := List.head?_eq_some_iff.mp first
      exact (putBefore_of_split notBefore child).symm
  · exact linked.children_detach child id

theorem children_appendChild (linked : tree.Linked) {parent child : NodeId}
    (parentKnown : parent < tree.size) (id : NodeId) :
    (tree.appendChild parent child).children id =
      if id = parent then (tree.children id).erase child ++ [child]
      else (tree.children id).erase child := by
  rw [← size_detach tree child, ← node?_eq_some_iff] at parentKnown
  rw [children_linkIn (linked.appendChild_eq parent child) parentKnown]
  split_ifs with same
  · rw [same, linked.children_detach]
  · exact linked.children_detach child id

/-- Where no list but that of the new parent has been changed otherwise,
erasing the child from every list is erasing it from the one that held it. -/
theorem moved_of_children (linked : tree.Linked) {changed : Tree} {child : NodeId}
    {owner : Option NodeId}
    (parents : ∀ id, changed.parent? id = if id = child then owner else tree.parent? id)
    (lists : ∀ id, owner ≠ some id → changed.children id = (tree.children id).erase child)
    (sameNodes : tree.SameNodes changed) : tree.Moved changed child owner where
  parent := parents
  erased id _ other := lists id other
  kept id notHeld other := by
    rw [lists id other, linked.erase_eq_of_other_parent notHeld]
  sameNodes := sameNodes

theorem moved_appendChild (linked : tree.Linked) {parent child : NodeId}
    (parentKnown : parent < tree.size) (childKnown : child < tree.size) :
    tree.Moved (tree.appendChild parent child) child (some parent) := by
  refine linked.moved_of_children (linked.parent?_appendChild childKnown) ?_
    (SameNodes.appendChild tree parent child)
  intro id other
  rw [linked.children_appendChild parentKnown, if_neg fun same => other (congrArg some same.symm)]

theorem moved_insertBefore (linked : tree.Linked) {parent child reference : NodeId}
    (parentKnown : parent < tree.size) (childKnown : child < tree.size)
    (different : child ≠ reference) :
    tree.Moved (tree.insertBefore parent child reference) child (some parent) := by
  refine linked.moved_of_children (linked.parent?_insertBefore different childKnown) ?_
    (SameNodes.insertBefore tree parent child reference)
  intro id other
  rw [linked.children_insertBefore parentKnown different,
    if_neg fun same => other (congrArg some same.symm)]

theorem moved_removeChild (linked : tree.Linked) {parent child : NodeId}
    (member : child ∈ tree.children parent) :
    tree.Moved (tree.removeChild parent child) child none := by
  have attached := (linked.mem_children_iff parent child).mp member
  refine linked.moved_of_children ?_
    (fun id _ => linked.children_removeChild_of_parent? attached id)
    (SameNodes.removeChild tree parent child)
  intro id
  rw [linked.parent?_removeChild, attached]
  simp only [and_true]

end Linked

/-- The three ways to move a node are operations on the lists of children: it
is erased from the list that held it, and put last into the list of its new
parent, or directly before the reference if that is in the list then, or
nowhere.  A node that is put before itself, or removed from a node whose child
it is not, leaves the tree as it is.  Nothing else changes. -/
theorem moves_edit_lists (built : tree.Built fun tree command => command.Known tree)
    {parent child : NodeId} (parentKnown : parent < tree.size) (childKnown : child < tree.size) :
    (tree.Moved (tree.appendChild parent child) child (some parent) ∧
        (tree.appendChild parent child).children parent =
          (tree.children parent).erase child ++ [child]) ∧
      (∀ reference, child ≠ reference →
        tree.Moved (tree.insertBefore parent child reference) child (some parent) ∧
          (tree.insertBefore parent child reference).children parent =
            putBefore child reference ((tree.children parent).erase child)) ∧
      tree.insertBefore parent child child = tree ∧
      (child ∈ tree.children parent →
        tree.Moved (tree.removeChild parent child) child none ∧
          (tree.removeChild parent child).children parent =
            (tree.children parent).erase child) ∧
      (child ∉ tree.children parent → tree.removeChild parent child = tree) := by
  have linked := built.linked fun _ _ known => known
  refine ⟨⟨linked.moved_appendChild parentKnown childKnown, ?_⟩, ?_,
    insertBefore_self tree parent child, ?_, removeChild_of_not_mem⟩
  · rw [linked.children_appendChild parentKnown, if_pos rfl]
  · intro reference different
    refine ⟨linked.moved_insertBefore parentKnown childKnown different, ?_⟩
    rw [linked.children_insertBefore parentKnown different, if_pos rfl]
  · intro member
    refine ⟨linked.moved_removeChild member, ?_⟩
    rw [linked.children_removeChild, if_pos rfl]

/-- Three items of a list, of which the first is put before the last: the
reference has moved up by then. -/
theorem insertBefore_within_list :
    ∃ tree : Tree, (tree.Built fun tree command => command.Known tree) ∧
      tree.children 1 = [2, 3, 4] ∧
      (tree.insertBefore 1 2 4).children 1 = [3, 2, 4] ∧
      (tree.insertBefore 1 2 4).parent? 3 = some 1 := by
  have listed : Built (fun tree command => command.Known tree) _ :=
    (Built.empty.perform (.appendElement 0 "ul") (by decide)).perform
      (.appendElement 1 "li") (by decide)
  have full := (listed.perform (.appendElement 1 "li") (by decide)).perform
    (.appendText 1 "x") (by decide)
  have moves := moves_edit_lists full (show 1 < _ by decide) (show 2 < _ by decide)
  obtain ⟨moved, list⟩ := moves.2.1 4 (by decide)
  exact ⟨_, full, rfl, list, moved.parent 3⟩

end Tree

end CssQuery
