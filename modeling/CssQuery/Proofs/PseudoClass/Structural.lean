import CssQuery.PseudoClass.Structural
import CssQuery.Proofs.Dom.Linked
import Mathlib.Data.List.Induction
import Mathlib.Data.List.Nodup

/-!
# Children that pass a structural pseudo-class

The enumeration of a container's children takes a first or last child, or
keeps account of the tags that it meets; the point test looks at the siblings
of one node.  They agree because every element child of the container has the
same siblings, all of them once.
-/

namespace CssQuery

namespace Tree

variable {tree : Tree}

theorem Linked.nodup_childElements (linked : tree.Linked) (container : NodeId) :
    (tree.childElements container).Nodup :=
  (linked.nodup container).filter _

/-- The siblings of an element child are all element children. -/
theorem Linked.elementSiblings_eq (linked : tree.Linked) {container child : NodeId}
    (member : child ∈ tree.childElements container) :
    tree.elementSiblings child = tree.childElements container := by
  obtain ⟨inside, element⟩ := List.mem_filter.mp member
  rw [elementSiblings, if_pos element, (linked.mem_children_iff _ _).mp inside]
  rfl

theorem sameTag_self (tree : Tree) (node : NodeId) : tree.sameTag node node = true := by
  simp [sameTag]

theorem find?_sameTag_eq_none {list : List NodeId} {node : NodeId} :
    list.find? (tree.sameTag node) = none ↔ tree.tagId? node ∉ list.map tree.tagId? := by
  rw [List.find?_eq_none, List.mem_map, not_exists]
  refine forall_congr' fun other => ?_
  rw [sameTag, beq_iff_eq, not_and, eq_comm]

/-- The first child with a tag is the one that no child with its tag precedes. -/
theorem find?_sameTag_self_iff {done later : List NodeId} {child : NodeId} (absent : child ∉ done) :
    (done ++ child :: later).find? (tree.sameTag child) = some child ↔
      tree.tagId? child ∉ done.map tree.tagId? := by
  rw [← find?_sameTag_eq_none, List.find?_append]
  cases found : done.find? (tree.sameTag child) with
  | none => simp [tree.sameTag_self]
  | some other =>
      have different : other ≠ child := fun same => absent (same ▸ List.mem_of_find?_eq_some found)
      simp [different]

/-- The set holds the tags of the children that have been passed, and the first
child with a tag is the one that is passed before its tag is there. -/
theorem firstOfEachTag_eq_filter (done rest : List NodeId) (seen : Std.TreeSet TagId)
    (known : ∀ tag, tag ∈ seen ↔ some tag ∈ done.map tree.tagId?)
    (elements : ∀ child ∈ rest, tree.isElement child = true) (distinct : (done ++ rest).Nodup) :
    tree.firstOfEachTag seen rest =
      rest.filter fun node => (done ++ rest).find? (tree.sameTag node) == some node := by
  induction rest generalizing done seen with
  | nil => rfl
  | cons child later ih =>
      obtain ⟨tag, hasTag⟩ := exists_tagId?_of_isElement (elements child List.mem_cons_self)
      have moved : done ++ child :: later = (done ++ [child]) ++ later := by simp
      have absent : child ∉ done := by grind
      have inserted : ∀ other, other ∈ seen.insert tag ↔
          some other ∈ (done ++ [child]).map tree.tagId? := by
        intro other
        rw [Std.TreeSet.mem_insert, Std.compare_eq_iff_eq, known, List.map_append, List.mem_append,
          List.map_singleton, List.mem_singleton, hasTag, Option.some.injEq]
        grind
      have onward := ih (done ++ [child]) (seen.insert tag) inserted
        (fun other member => elements other (List.mem_cons_of_mem _ member)) (moved ▸ distinct)
      have isFirst : ((done ++ child :: later).find? (tree.sameTag child) == some child) =
          !seen.contains tag := by
        rw [Bool.eq_iff_iff, beq_iff_eq, find?_sameTag_self_iff absent, hasTag, ← known,
          Std.TreeSet.mem_iff_contains, Bool.not_eq_true', Bool.not_eq_true]
      rw [firstOfEachTag, hasTag, List.filter_cons, isFirst]
      simp only [Std.TreeSet.containsThenInsert_fst, Std.TreeSet.containsThenInsert_snd]
      rw [onward, ← moved]
      cases seen.contains tag with
      | true => rfl
      | false => rfl

theorem lastByTag_concat (tree : Tree) (children : List NodeId) (child : NodeId) :
    tree.lastByTag (children ++ [child]) =
      match tree.tagId? child with
      | some tag => (tree.lastByTag children).insert tag child
      | none => tree.lastByTag children := by
  rw [lastByTag, List.foldl_append]
  rfl

/-- The map has at each tag the last child with this tag. -/
theorem getElem?_lastByTag (tree : Tree) (children : List NodeId) (tag : TagId) :
    (tree.lastByTag children)[tag]? =
      children.reverse.find? fun child => tree.tagId? child == some tag := by
  induction children using List.reverseRecOn with
  | nil => exact Std.TreeMap.getElem?_emptyc
  | append_singleton children child ih =>
      rw [lastByTag_concat, List.reverse_append, List.reverse_singleton, List.singleton_append,
        List.find?_cons]
      cases hasTag : tree.tagId? child with
      | none => exact ih
      | some other =>
          simp only [Std.TreeMap.getElem?_insert, Std.compare_eq_iff_eq, ih]
          by_cases same : other = tag
          · simp [same]
          · have differs : (other == tag) = false := beq_eq_false_iff_ne.mpr same
            simp [same, differs]

theorem count_filterMap_tagId? (children : List NodeId) {child : NodeId} {tag : TagId}
    (hasTag : tree.tagId? child = some tag) :
    (children.filterMap tree.tagId?).count tag = (children.filter (tree.sameTag child)).length := by
  rw [List.count_filterMap, ← List.countP_eq_length_filter]
  refine List.countP_congr fun other _ => ?_
  rw [sameTag, hasTag, beq_iff_eq, beq_iff_eq, eq_comm]

end Tree

section Ends

theorem toList_head?_eq_filter {list : List NodeId} (distinct : list.Nodup) :
    list.head?.toList = list.filter fun node => list.head? == some node := by
  cases list with
  | nil => rfl
  | cons first later =>
      obtain ⟨absent, -⟩ := List.nodup_cons.mp distinct
      have others : later.filter (fun node => first == node) = [] :=
        List.filter_eq_nil_iff.mpr fun node member same => absent (beq_iff_eq.mp same ▸ member)
      simp [others]

theorem toList_getLast?_eq_filter {list : List NodeId} (distinct : list.Nodup) :
    list.getLast?.toList = list.filter fun node => list.getLast? == some node := by
  have mirrored := toList_head?_eq_filter (List.nodup_reverse.mpr distinct)
  rw [List.head?_reverse, List.filter_reverse] at mirrored
  have reversed := congrArg List.reverse mirrored
  rw [List.reverse_reverse] at reversed
  rw [← reversed]
  cases list.getLast? <;> rfl

end Ends

/-- The enumeration yields the element children that pass the point test. -/
theorem StructuralPseudoClass.childMatches_eq_filter {tree : Tree} (linked : tree.Linked)
    (test : StructuralPseudoClass) (container : NodeId) :
    test.childMatches tree container =
      (tree.childElements container).filter (test.holds tree) := by
  have distinct := linked.nodup_childElements container
  have siblings : ∀ child ∈ tree.childElements container,
      tree.elementSiblings child = tree.childElements container :=
    fun child member => linked.elementSiblings_eq member
  have elements : ∀ child ∈ tree.childElements container, tree.isElement child = true :=
    fun child member => (List.mem_filter.mp member).2
  cases test with
  | firstChild =>
      refine (toList_head?_eq_filter distinct).trans ?_
      exact List.filter_congr fun child member => by simp only [holds, siblings child member]
  | lastChild =>
      refine (toList_getLast?_eq_filter distinct).trans ?_
      exact List.filter_congr fun child member => by simp only [holds, siblings child member]
  | onlyChild =>
      have same : (tree.childElements container).filter (onlyChild.holds tree) =
          (tree.childElements container).filter fun _ =>
            (tree.childElements container).length == 1 :=
        List.filter_congr fun child member => by simp only [holds, siblings child member]
      rw [same]
      simp only [childMatches]
      split_ifs with single <;> simp [single]
  | firstOfType =>
      have none : ∀ tag, tag ∈ (∅ : Std.TreeSet TagId) ↔
          some tag ∈ ([] : List NodeId).map tree.tagId? := by simp
      refine (Tree.firstOfEachTag_eq_filter [] _ ∅ none elements distinct).trans ?_
      exact List.filter_congr fun child member => by
        simp only [holds, siblings child member]
        rfl
  | lastOfType =>
      refine List.filter_congr fun child member => ?_
      obtain ⟨tag, hasTag⟩ := Tree.exists_tagId?_of_isElement (elements child member)
      have sameTag : tree.sameTag child = fun other => tree.tagId? other == some tag := by
        funext other
        rw [Tree.sameTag, hasTag, Bool.beq_comm]
      simp only [holds, siblings child member, sameTag, hasTag, Option.bind_some,
        Tree.getElem?_lastByTag]
  | onlyOfType =>
      refine List.filter_congr fun child member => ?_
      obtain ⟨tag, hasTag⟩ := Tree.exists_tagId?_of_isElement (elements child member)
      have met : tag ∈ (tree.childElements container).filterMap tree.tagId? :=
        List.mem_filterMap.mpr ⟨child, member, hasTag⟩
      simp only [holds, siblings child member, hasTag, Option.bind_some,
        (Tally.counts_ofList _).getElem?_of_mem met, Tree.count_filterMap_tagId? _ hasTag]
      rfl
  | empty => rfl
  | root => rfl

end CssQuery
