import CssQuery.Proofs.Dom.Linked

/-!
# Moves as changes of links

The operations on trees patch one link after another, and find the links to
patch in the tree that they change.  When the links are consistent, all the
patches of one operation together are one of the two changes `linkOut` and
`linkIn`; so every operation keeps the links consistent, and what it does to
the parents and to the lists of children can be read off.
-/

namespace CssQuery

namespace Tree

variable {tree : Tree}

theorem node?_modify_map (tree : Tree) (id other : NodeId) (change : Node → Node) :
    (tree.modify id change).node? other =
      (tree.node? other).map fun node => if other = id then change node else node := by
  rw [node?_modify]
  by_cases same : other = id
  · simp [same]
  · simp [same, Ne.symm same]

theorem node?_modify? (tree : Tree) (id : Option NodeId) (other : NodeId)
    (change : Node → Node) :
    (tree.modify? id change).node? other =
      (tree.node? other).map fun node => if id = some other then change node else node := by
  cases id with
  | none => simp [modify?]
  | some id =>
      rw [modify?, node?_modify_map]
      simp [eq_comm]

theorem children_of_found {id : NodeId} {node : Node} (found : tree.node? id = some node) :
    tree.children id = node.children := by
  rw [children, found]
  rfl

theorem Linked.removeChild_eq (linked : tree.Linked) {parent child : NodeId}
    {before after : List NodeId} (split : tree.children parent = before ++ child :: after)
    (id : NodeId) :
    (tree.removeChild parent child).node? id =
      (tree.node? id).map (Tree.linkOut parent child before after id) := by
  have member : child ∈ tree.children parent := by simp [split]
  have distinct := linked.nodup parent
  rw [split] at distinct
  have notBefore : child ∉ before := by grind
  have notFirst : after.head? ≠ some child := head?_ne_some (by grind)
  have notLast : before.getLast? ≠ some child := getLast?_ne_some (by grind)
  obtain ⟨previous, next⟩ := linked.neighbours parent before child after split
  rw [Tree.removeChild, if_pos member]
  simp only [node?_modify_map, node?_modify?, Option.map_map, previous, next]
  apply Option.map_congr
  intro node found
  have erased : id = parent → node.children.erase child = before ++ after := by
    intro same
    rw [← children_of_found found, same, split, List.erase_append_right _ notBefore,
      List.erase_cons_head]
  simp only [Function.comp_apply, Tree.linkOut]
  split_ifs <;> simp_all

theorem removeChild_of_not_mem {parent child : NodeId} (absent : child ∉ tree.children parent) :
    tree.removeChild parent child = tree := by
  rw [removeChild, if_neg absent]

theorem Linked.removeChild (linked : tree.Linked) (parent child : NodeId) :
    (tree.removeChild parent child).Linked := by
  by_cases member : child ∈ tree.children parent
  · obtain ⟨before, after, split⟩ := List.append_of_mem member
    exact linked.linkOut (linked.removeChild_eq split) split
  · rw [removeChild_of_not_mem member]
    exact linked

theorem Linked.parent?_removeChild (linked : tree.Linked) (parent child id : NodeId) :
    (tree.removeChild parent child).parent? id =
      if id = child ∧ tree.parent? child = some parent then none else tree.parent? id := by
  by_cases member : child ∈ tree.children parent
  · obtain ⟨before, after, split⟩ := List.append_of_mem member
    rw [parent?_linkOut (linked.removeChild_eq split)]
    simp [(linked.mem_children_iff parent child).mp member]
  · rw [removeChild_of_not_mem member]
    rw [linked.mem_children_iff] at member
    simp [member]

theorem size_modify (tree : Tree) (id : NodeId) (change : Node → Node) :
    (tree.modify id change).size = tree.size := by
  simp [modify, size]

theorem size_modify? (tree : Tree) (id : Option NodeId) (change : Node → Node) :
    (tree.modify? id change).size = tree.size := by
  cases id with
  | none => rfl
  | some id => exact size_modify tree id change

theorem size_removeChild (tree : Tree) (parent child : NodeId) :
    (tree.removeChild parent child).size = tree.size := by
  rw [removeChild]
  split
  · simp only [size_modify, size_modify?]
  · rfl

theorem size_detach (tree : Tree) (child : NodeId) : (tree.detach child).size = tree.size := by
  rw [detach]
  split
  · exact size_removeChild _ _ _
  · rfl

theorem node?_eq_some_iff {id : NodeId} :
    (∃ node, tree.node? id = some node) ↔ id < tree.size := by
  rw [node?, size, ← Option.isSome_iff_exists]
  simp

theorem detach_of_alone {child : NodeId} (alone : tree.parent? child = none) :
    tree.detach child = tree := by
  rw [detach, alone]

theorem Linked.detach (linked : tree.Linked) (child : NodeId) : (tree.detach child).Linked := by
  rw [Tree.detach]
  split
  · exact linked.removeChild _ _
  · exact linked

theorem Linked.parent?_detach (linked : tree.Linked) (child id : NodeId) :
    (tree.detach child).parent? id = if id = child then none else tree.parent? id := by
  rw [Tree.detach]
  cases attached : tree.parent? child with
  | none =>
      by_cases same : id = child
      · rw [same, attached, if_pos rfl]
      · rw [if_neg same]
  | some parent =>
      show (tree.removeChild parent child).parent? id = _
      rw [linked.parent?_removeChild]
      simp [attached]

theorem Linked.alone_detach (linked : tree.Linked) (child : NodeId) :
    (tree.detach child).parent? child = none := by
  rw [linked.parent?_detach, if_pos rfl]

theorem Linked.not_mem_children_detach (linked : tree.Linked) (child owner : NodeId) :
    child ∉ (tree.detach child).children owner := by
  rw [(linked.detach child).mem_children_iff, linked.alone_detach]
  simp

/-- What putting a detached node at the end of a list changes. -/
theorem Linked.appendChild_eq (linked : tree.Linked) (parent child id : NodeId) :
    (tree.appendChild parent child).node? id =
      ((tree.detach child).node? id).map
        (Tree.linkIn parent child ((tree.detach child).children parent) [] id) := by
  have notLast : ((tree.detach child).children parent).getLast? ≠ some child :=
    getLast?_ne_some (linked.not_mem_children_detach child parent)
  rw [Tree.appendChild]
  simp only [node?_modify_map, node?_modify?, Option.map_map]
  apply Option.map_congr
  intro node found
  have appended : id = parent →
      node.children ++ [child] = (tree.detach child).children parent ++ [child] := by
    intro same
    rw [← children_of_found found, same]
  simp only [Function.comp_apply, Tree.linkIn]
  split_ifs <;> simp_all

theorem Linked.appendChild (linked : tree.Linked) {parent child : NodeId}
    (parentKnown : parent < tree.size) (childKnown : child < tree.size) :
    (tree.appendChild parent child).Linked := by
  rw [← size_detach tree child, ← node?_eq_some_iff] at parentKnown childKnown
  exact (linked.detach child).linkIn (linked.appendChild_eq parent child) childKnown parentKnown
    (linked.alone_detach child) (List.append_nil _).symm

theorem Linked.parent?_appendChild (linked : tree.Linked) {parent child : NodeId}
    (childKnown : child < tree.size) (id : NodeId) :
    (tree.appendChild parent child).parent? id =
      if id = child then some parent else tree.parent? id := by
  rw [← size_detach tree child, ← node?_eq_some_iff] at childKnown
  rw [parent?_linkIn (linked.appendChild_eq parent child) childKnown, linked.parent?_detach]
  grind

theorem idxOf?_append_cons {before : List NodeId} {value : NodeId}
    (absent : value ∉ before) (after : List NodeId) :
    (before ++ value :: after).idxOf? value = some before.length := by
  rw [List.idxOf?_eq_some_iff]
  refine ⟨by simp, by simp, ?_⟩
  intro index small same
  rw [List.getElem_append_left small] at same
  exact absent (same ▸ List.getElem_mem small)

theorem insertIdx_append (before after : List NodeId) (value : NodeId) :
    (before ++ after).insertIdx before.length value = before ++ value :: after := by
  induction before with
  | nil => rfl
  | cons first before ih =>
      rw [List.cons_append, List.length_cons, List.insertIdx_succ_cons, ih]
      rfl

/-- What putting a node before another one changes: it is put between two
pieces of the list, of which the first is without the reference and the second
begins with it or, if it is not in the list, is empty. -/
theorem Linked.insertBefore_eq (linked : tree.Linked) (parent : NodeId)
    {child reference : NodeId} (different : child ≠ reference) :
    ∃ before after, (tree.detach child).children parent = before ++ after ∧
      (reference ∉ before ∧ (after = [] ∨ after.head? = some reference)) ∧
      ∀ id, (tree.insertBefore parent child reference).node? id =
        ((tree.detach child).node? id).map (Tree.linkIn parent child before after id) := by
  rw [Tree.insertBefore, if_neg different]
  dsimp only
  have detached := linked.detach child
  have alone := linked.alone_detach child
  have notHere := linked.not_mem_children_detach child parent
  generalize tree.detach child = base at detached alone notHere
  by_cases member : reference ∈ base.children parent
  · obtain ⟨before, after, split, notBefore⟩ := List.eq_append_cons_of_mem member
    have distinct := detached.nodup parent
    rw [split] at distinct notHere
    have index := idxOf?_append_cons notBefore after
    have inserted := insertIdx_append before (reference :: after) child
    have notLast : before.getLast? ≠ some child := getLast?_ne_some (by grind)
    have notReference : before.getLast? ≠ some reference := getLast?_ne_some (by grind)
    obtain ⟨previous, -⟩ := detached.neighbours parent before reference after split
    refine ⟨before, reference :: after, split, ⟨notBefore, .inr rfl⟩, ?_⟩
    intro id
    rw [split, index]
    simp only [node?_modify_map, node?_modify?, Option.map_map, previous]
    apply Option.map_congr
    intro node found
    have children : id = parent →
        node.children.insertIdx before.length child = before ++ child :: reference :: after := by
      intro same
      rw [← children_of_found found, same, split, inserted]
    simp only [Function.comp_apply, Tree.linkIn]
    split_ifs <;> simp_all
  · refine ⟨base.children parent, [], (List.append_nil _).symm, ⟨member, .inl rfl⟩, ?_⟩
    rw [List.idxOf?_eq_none_iff.mpr member]
    intro id
    have unchanged := detached.appendChild_eq parent child id
    rw [detach_of_alone alone] at unchanged
    exact unchanged

theorem insertBefore_self (tree : Tree) (parent child : NodeId) :
    tree.insertBefore parent child child = tree := by
  rw [Tree.insertBefore, if_pos rfl]

theorem Linked.insertBefore (linked : tree.Linked) {parent child : NodeId} (reference : NodeId)
    (parentKnown : parent < tree.size) (childKnown : child < tree.size) :
    (tree.insertBefore parent child reference).Linked := by
  by_cases same : child = reference
  · rw [same, insertBefore_self]
    exact linked
  · obtain ⟨before, after, split, -, maps⟩ := linked.insertBefore_eq parent same
    rw [← size_detach tree child, ← node?_eq_some_iff] at parentKnown childKnown
    exact (linked.detach child).linkIn maps childKnown parentKnown
      (linked.alone_detach child) split

theorem Linked.parent?_insertBefore (linked : tree.Linked) {parent child reference : NodeId}
    (different : child ≠ reference) (childKnown : child < tree.size) (id : NodeId) :
    (tree.insertBefore parent child reference).parent? id =
      if id = child then some parent else tree.parent? id := by
  obtain ⟨before, after, -, -, maps⟩ := linked.insertBefore_eq parent different
  rw [← size_detach tree child, ← node?_eq_some_iff] at childKnown
  rw [parent?_linkIn maps childKnown, linked.parent?_detach]
  grind

end Tree

end CssQuery
