import CssQuery.Engine
import CssQuery.Proofs.Formula.Rank

/-!
# Structural pseudo-classes as positions

Six structural pseudo-classes say where an element stands in its group of
siblings: at the beginning, at the end, or alone.  The first two are positions
that a formula can name, counted from the first or from the last, and an
element that is at the beginning and at the end is alone.

The point tests look at the siblings themselves and the formulas at an index
among them, so they are compared by way of the group.
-/

namespace CssQuery

variable {tree : Tree}

/-- On every cache the engine builds the pseudo-class, and on every cache the
pseudo-class has this answer for a node.  No cache is changed. -/
def EngineConfig.Answers (config : EngineConfig) (name : String) (argument : Option String)
    (tree : Tree) (node : NodeId) (answer : Bool) : Prop :=
  ∃ condition, (∀ cache, (config.pseudoClass name argument).runOn cache = (.ok condition, cache)) ∧
    ∀ cache, (condition.holds tree node).runOn cache = (answer, cache)

namespace Tree

/-- The node is the first of its group. -/
def isFirst (tree : Tree) (ofType : Bool) (node : NodeId) : Bool :=
  (tree.siblingGroup ofType node).head? == some node

/-- The node is the last of its group. -/
def isLast (tree : Tree) (ofType : Bool) (node : NodeId) : Bool :=
  (tree.siblingGroup ofType node).getLast? == some node

theorem siblingGroup_false (tree : Tree) (node : NodeId) :
    tree.siblingGroup false node = tree.elementSiblings node :=
  List.filter_true _

theorem siblingGroup_true (tree : Tree) (node : NodeId) :
    tree.siblingGroup true node = (tree.elementSiblings node).filter (tree.sameTag node) :=
  rfl

theorem length_eq_one_of_ends {list : List NodeId} {node : NodeId} (distinct : list.Nodup)
    (member : ∀ other ∈ list, node ∈ list) :
    (list.length == 1) = (list.head? == some node && list.getLast? == some node) := by
  match list with
  | [] => rfl
  | [only] =>
      have same : node = only := List.mem_singleton.mp (member only List.mem_cons_self)
      simp [same]
  | first :: second :: others =>
      have apart : first ∉ second :: others := (List.nodup_cons.mp distinct).1
      have different : (first :: second :: others).getLast? ≠ some first := by
        rw [List.getLast?_cons_cons]
        exact fun last => apart (List.mem_of_getLast? last)
      grind

/-- A member of a group is alone in it if it is the first and the last. -/
theorem Linked.isAlone_eq (linked : tree.Linked) (ofType : Bool) (node : NodeId) :
    ((tree.siblingGroup ofType node).length == 1) =
      (tree.isFirst ofType node && tree.isLast ofType node) := by
  apply length_eq_one_of_ends (linked.nodup_siblingGroup ofType node)
  intro sibling member
  obtain ⟨element, parent, attached, -⟩ :=
    attached_of_mem_elementSiblings (List.mem_filter.mp member).1
  exact linked.mem_siblingGroup_self ofType element attached

end Tree

namespace StructuralPseudoClass

theorem holds_first (tree : Tree) (node : NodeId) :
    firstChild.holds tree node = tree.isFirst false node ∧
      firstOfType.holds tree node = tree.isFirst true node := by
  rw [Tree.isFirst, Tree.isFirst, Tree.siblingGroup_false, Tree.siblingGroup_true,
    List.head?_filter]
  exact ⟨rfl, rfl⟩

theorem holds_last (tree : Tree) (node : NodeId) :
    lastChild.holds tree node = tree.isLast false node ∧
      lastOfType.holds tree node = tree.isLast true node := by
  rw [Tree.isLast, Tree.isLast, Tree.siblingGroup_false, Tree.siblingGroup_true,
    ← List.head?_reverse, ← List.head?_reverse, ← List.filter_reverse, List.head?_filter]
  refine ⟨?_, rfl⟩
  rw [List.head?_reverse]
  rfl

theorem holds_only (linked : tree.Linked) (node : NodeId) :
    onlyChild.holds tree node = (tree.isFirst false node && tree.isLast false node) ∧
      onlyOfType.holds tree node = (tree.isFirst true node && tree.isLast true node) := by
  rw [← linked.isAlone_eq, ← linked.isAlone_eq, Tree.siblingGroup_false]
  exact ⟨rfl, rfl⟩

end StructuralPseudoClass

/-- The place that the literal `1` names is the beginning of a list. -/
theorem Formula.matchesIndex_literal_one (list : List NodeId) (node : NodeId) :
    (match list.idxOf? node with
      | some index => (Formula.literal 1).matchesIndex index
      | none => pure false) = pure (list.head? == some node) := by
  cases list with
  | nil => rfl
  | cons first rest =>
      rw [List.idxOf?_cons, List.head?_cons]
      split_ifs with same
      · rw [beq_iff_eq.mp same, beq_self_eq_true]
        rfl
      · have other : (some first == some node) = false := by simpa using same
        rw [other]
        cases rest.idxOf? node with
        | none => rfl
        | some index =>
            have later : ((1 : Int) == (index + 1 : Nat) + 1) = false := by
              rw [beq_eq_false_iff_ne]
              omega
            exact congrArg pure later

theorem NodeTest.holds_literal_one (tree : Tree) (ofType : Bool) (node : NodeId) :
    NodeTest.holds (.nth (.literal 1) ⟨ofType, false⟩) tree node = pure (tree.isFirst ofType node) ∧
      NodeTest.holds (.nth (.literal 1) ⟨ofType, true⟩) tree node =
        pure (tree.isLast ofType node) := by
  rw [NodeTest.holds, NodeTest.holds, Counting.indexOf_eq_idxOf?, Counting.indexOf_eq_idxOf?,
    Tree.isLast, ← List.head?_reverse]
  exact ⟨Formula.matchesIndex_literal_one _ node, Formula.matchesIndex_literal_one _ node⟩

namespace EngineConfig

variable {config : EngineConfig} {name : String} {argument : Option String} {node : NodeId}

theorem answers_of_holds {test : NodeTest} {answer : Bool}
    (builds : ∀ cache, (config.pseudoClass name argument).runOn cache = (.ok (.test test), cache))
    (holds : test.holds tree node = pure answer) :
    config.Answers name argument tree node answer := by
  refine ⟨.test test, builds, fun cache => ?_⟩
  rw [PseudoClass.holds, holds, Cached.runOn_pure]

theorem Answers.unique {first second : Bool} (one : config.Answers name argument tree node first)
    (other : config.Answers name argument tree node second) : first = second := by
  obtain ⟨condition, builds, holds⟩ := one
  obtain ⟨again, buildsAgain, holdsAgain⟩ := other
  have built := (builds {}).symm.trans (buildsAgain {})
  simp only [Prod.mk.injEq, Except.ok.injEq, and_true] at built
  subst built
  exact congrArg Prod.fst ((holds {}).symm.trans (holdsAgain {}))

/-- For every node of a tree that is built from known nodes, the structural
pseudo-classes for the first and the last of a group have the answers of the
formula `1` counted from that end, and those for the only one have both. -/
theorem structural_as_positions (built : tree.Built fun tree command => command.Known tree)
    (config : EngineConfig) (node : NodeId) :
    ∃ first last firstOfType lastOfType : Bool,
      (config.Answers "first-child" none tree node first ∧
        config.Answers "nth-child" (some "1") tree node first) ∧
      (config.Answers "last-child" none tree node last ∧
        config.Answers "nth-last-child" (some "1") tree node last) ∧
      (config.Answers "first-of-type" none tree node firstOfType ∧
        config.Answers "nth-of-type" (some "1") tree node firstOfType) ∧
      (config.Answers "last-of-type" none tree node lastOfType ∧
        config.Answers "nth-last-of-type" (some "1") tree node lastOfType) ∧
      config.Answers "only-child" none tree node (first && last) ∧
      config.Answers "only-of-type" none tree node (firstOfType && lastOfType) := by
  have linked := built.linked fun _ _ known => known
  obtain ⟨firstChild, firstOfType⟩ := StructuralPseudoClass.holds_first tree node
  obtain ⟨lastChild, lastOfType⟩ := StructuralPseudoClass.holds_last tree node
  obtain ⟨onlyChild, onlyOfType⟩ := StructuralPseudoClass.holds_only linked node
  obtain ⟨nthChild, nthLastChild⟩ := NodeTest.holds_literal_one tree false node
  obtain ⟨nthOfType, nthLastOfType⟩ := NodeTest.holds_literal_one tree true node
  refine ⟨tree.isFirst false node, tree.isLast false node, tree.isFirst true node,
    tree.isLast true node, ⟨?_, ?_⟩, ⟨?_, ?_⟩, ⟨?_, ?_⟩, ⟨?_, ?_⟩, ?_, ?_⟩
  · exact answers_of_holds (fun _ => rfl) (congrArg pure firstChild)
  · exact answers_of_holds (fun _ => rfl) nthChild
  · exact answers_of_holds (fun _ => rfl) (congrArg pure lastChild)
  · exact answers_of_holds (fun _ => rfl) nthLastChild
  · exact answers_of_holds (fun _ => rfl) (congrArg pure firstOfType)
  · exact answers_of_holds (fun _ => rfl) nthOfType
  · exact answers_of_holds (fun _ => rfl) (congrArg pure lastOfType)
  · exact answers_of_holds (fun _ => rfl) nthLastOfType
  · exact answers_of_holds (fun _ => rfl) (congrArg pure onlyChild)
  · exact answers_of_holds (fun _ => rfl) (congrArg pure onlyOfType)

/-- The second paragraph of two, which is the last child, and a detached
element. -/
theorem structural_of_last_paragraph :
    ∃ tree : Tree, (tree.Built fun tree command => command.Known tree) ∧
      (⟨none, true⟩ : EngineConfig).Answers "nth-last-child" (some "1") tree 5 true ∧
      (⟨none, true⟩ : EngineConfig).Answers "nth-of-type" (some "1") tree 5 false ∧
      (⟨none, true⟩ : EngineConfig).Answers "nth-child" (some "1") tree 6 false := by
  have first : Tree.Built (fun tree command => command.Known tree) _ :=
    ((Tree.Built.empty.perform (.appendElement 0 "div") (by decide)).perform
      (.appendElement 1 "p") (by decide)).perform (.appendText 1 "x") (by decide)
  have built := ((first.perform (.appendElement 1 "span") (by decide)).perform
    (.appendElement 1 "p") (by decide)).perform (.createElement "p" []) (by decide)
  generalize tree_eq : (Tree.perform _ _).2 = tree at built
  have tested : StructuralPseudoClass.lastChild.holds tree 5 = true ∧
      StructuralPseudoClass.firstOfType.holds tree 5 = false ∧
      StructuralPseudoClass.firstChild.holds tree 6 = false := by
    subst tree_eq
    decide +kernel
  obtain ⟨lastHolds, secondHolds, detachedHolds⟩ := tested
  obtain ⟨_, _, _, _, -, ⟨lastChild, nthLastChild⟩, ⟨firstOfType, nthOfType⟩, -⟩ :=
    structural_as_positions built ⟨none, true⟩ 5
  obtain ⟨_, _, _, _, ⟨firstChild, nthChild⟩, -⟩ :=
    structural_as_positions built ⟨none, true⟩ 6
  have last := lastChild.unique (answers_of_holds (fun _ => rfl) (congrArg pure lastHolds))
  have second :=
    firstOfType.unique (answers_of_holds (fun _ => rfl) (congrArg pure secondHolds))
  have detached :=
    firstChild.unique (answers_of_holds (fun _ => rfl) (congrArg pure detachedHolds))
  exact ⟨tree, built, last ▸ nthLastChild, second ▸ nthOfType, detached ▸ nthChild⟩

end EngineConfig

end CssQuery
