import CssQuery.Proofs.Formula.Rank

/-!
# Enumerations of positions

An enumeration passes the children of a container one after the other.  It
never looks back at those that it has passed: for each group of siblings it has
a counter of the members passed, and if counting begins at the last, it counts
whole groups before its first step.  `Consistent` says that the counters hold
what they are meant to hold, and every step preserves it.

So the position that is read off the counters is the number of members that
stand before a child or behind it, which is the position that the point test
finds for that child.  An enumeration has still to yield the children that pass
the point test among those that remain, and a step takes the first of them
away.  That does not change when the cache is asked other things in between.
-/

namespace CssQuery

variable {tree : Tree} {base : FormulaCache}

namespace Counting

theorem counts_eq_group (counting : Counting) (tree : Tree) (child sibling : NodeId) :
    counting.counts tree (tree.tagId? child) sibling =
      (counting.group tree sibling == counting.group tree child) := by
  obtain ⟨ofType, fromLast⟩ := counting
  cases ofType with
  | false => rfl
  | true => rfl

/-- How often a group occurs is how many of the children count for a member. -/
theorem count_groups (counting : Counting) (tree : Tree) (children : List NodeId)
    (child : NodeId) :
    (counting.groups tree children).count (counting.group tree child) =
      (children.filter tree.isElement).countP (counting.counts tree (tree.tagId? child)) := by
  rw [groups, funext (counting.counts_eq_group tree child), List.count, List.countP_map]
  rfl

/-- A group has its members before an element, the element, and those behind. -/
theorem count_groups_split (counting : Counting) (before later : List NodeId) {child : NodeId}
    (element : tree.isElement child = true) :
    (counting.groups tree (before ++ child :: later)).count (counting.group tree child) =
      (before.filter tree.isElement).countP (counting.counts tree (tree.tagId? child)) + 1 +
        (later.filter tree.isElement).countP (counting.counts tree (tree.tagId? child)) := by
  have self : counting.counts tree (tree.tagId? child) child = true := by
    rw [counts_eq, tree.sameTag_self, Bool.or_true]
  rw [count_groups, List.filter_append, List.filter_cons_of_pos element, List.countP_append,
    List.countP_cons_of_pos self]
  omega

theorem groups_append (counting : Counting) (tree : Tree) (first second : List NodeId) :
    counting.groups tree (first ++ second) =
      counting.groups tree first ++ counting.groups tree second := by
  rw [groups, List.filter_append, List.map_append, groups, groups]

theorem groups_singleton (counting : Counting) (tree : Tree) (child : NodeId) :
    counting.groups tree [child] =
      if tree.isElement child then [counting.group tree child] else [] := by
  rw [groups, List.filter_cons]
  split <;> rfl

end Counting

namespace NthWalk

section Lists

/-- The element children that have been passed. -/
def passed (tree : Tree) (walk : NthWalk) : List NodeId :=
  (walk.children.take walk.cursor).filter tree.isElement

/-- The element children that have not been passed. -/
def remaining (tree : Tree) (walk : NthWalk) : List NodeId :=
  (walk.children.drop walk.cursor).filter tree.isElement

/-- How many of the children that count stand before a child, or behind it when
counting begins at the last. -/
def index (counting : Counting) (tree : Tree) (before : List NodeId)
    (child : NodeId) (later : List NodeId) : Nat :=
  (if counting.fromLast then later else before).countP
    (counting.counts tree (tree.tagId? child))

/-- The children that an enumeration has still to yield, given which indices
its formula selects. -/
def pendingFrom (selects : Nat → Bool) (tree : Tree) (counting : Counting) :
    (before remaining : List NodeId) → List NodeId
  | _, [] => []
  | before, child :: later =>
      if selects (index counting tree before child later) then
        child :: pendingFrom selects tree counting (before ++ [child]) later
      else pendingFrom selects tree counting (before ++ [child]) later

def pending (answers : FormulaAnswers) (tree : Tree) (walk : NthWalk) : List NodeId :=
  pendingFrom (answers walk.formula) tree walk.counting (walk.passed tree) (walk.remaining tree)

theorem length_pendingFrom_le (selects : Nat → Bool) (counting : Counting)
    (before remaining : List NodeId) :
    (pendingFrom selects tree counting before remaining).length ≤ remaining.length := by
  induction remaining generalizing before with
  | nil => exact Nat.le_refl _
  | cons child later ih =>
      have onward := ih (before ++ [child])
      rw [pendingFrom]
      split
      · exact Nat.succ_le_succ onward
      · exact Nat.le_succ_of_le onward

theorem length_pending_le (answers : FormulaAnswers) (walk : NthWalk) :
    (walk.pending answers tree).length ≤ walk.children.length - walk.cursor := by
  have remaining := List.length_filter_le tree.isElement (walk.children.drop walk.cursor)
  rw [List.length_drop] at remaining
  exact Nat.le_trans (length_pendingFrom_le _ _ _ _) remaining

/-- The point test finds for a child the index that is counted in the lists. -/
theorem indexOf_eq_index (linked : tree.Linked) (counting : Counting)
    {container child : NodeId} {before later : List NodeId}
    (split : tree.childElements container = before ++ child :: later) :
    counting.indexOf tree child = some (index counting tree before child later) := by
  obtain ⟨ofType, fromLast⟩ := counting
  have member : child ∈ tree.childElements container := by simp [split]
  have group : tree.siblingGroup ofType child =
      before.filter (Counting.counts ⟨ofType, fromLast⟩ tree (tree.tagId? child)) ++
        child :: later.filter (Counting.counts ⟨ofType, fromLast⟩ tree (tree.tagId? child)) := by
    rw [Tree.siblingGroup, linked.elementSiblings_eq member, split,
      ← funext (Counting.counts_eq ⟨ofType, fromLast⟩ tree child), List.filter_append,
      List.filter_cons_of_pos (by rw [Counting.counts_eq, tree.sameTag_self, Bool.or_true])]
  obtain ⟨forward, backward⟩ := Counting.indexOf_of_split linked group
  rw [← List.countP_eq_length_filter] at forward backward
  cases fromLast with
  | false => exact forward
  | true => exact backward

theorem pendingFrom_eq_filter (linked : tree.Linked) (answers : FormulaAnswers)
    (formula : Formula) (counting : Counting) {container : NodeId}
    {before remaining : List NodeId}
    (split : tree.childElements container = before ++ remaining) :
    pendingFrom (answers formula) tree counting before remaining =
      remaining.filter ((NodeTest.nth formula counting).meaning answers tree) := by
  induction remaining generalizing before with
  | nil => rfl
  | cons child later ih =>
      have onward := @ih (before ++ [child]) (split.trans (List.append_cons _ _ _))
      have meaning : (NodeTest.nth formula counting).meaning answers tree child =
          answers formula (index counting tree before child later) := by
        simp only [NodeTest.meaning, indexOf_eq_index linked counting split, Option.map_some,
          Option.getD_some]
      rw [pendingFrom, onward, List.filter_cons, meaning]

end Lists

/-- The counters hold the numbers of the members that have been passed, and the
totals, which only counting from the last ever needs, the sizes of the groups. -/
structure Consistent (tree : Tree) (walk : NthWalk) : Prop where
  seen : walk.seen.Counts (walk.counting.groups tree (walk.children.take walk.cursor))
  totals : ∀ totals, walk.totals = some totals →
    walk.counting.fromLast = true ∧ totals.Counts (walk.counting.groups tree walk.children)

section Counters

variable {walk : NthWalk}

theorem consistent_start (tree : Tree) (container : NodeId) (formula : Formula)
    (counting : Counting) : (start tree container formula counting).Consistent tree where
  seen := Tally.Counts.empty
  totals _ totalled := nomatch totalled

/-- The sizes of the groups are there when a step needs them. -/
theorem Consistent.tallied (consistent : walk.Consistent tree) :
    (walk.tallied tree).Consistent tree ∧
      (walk.tallied tree).totals.isSome = walk.counting.fromLast := by
  obtain ⟨formula, ⟨ofType, fromLast⟩, children, cursor, seen, totals⟩ := walk
  cases totals with
  | some totals =>
      obtain rfl := (consistent.totals totals rfl).1
      exact ⟨consistent, rfl⟩
  | none =>
      cases fromLast with
      | false => exact ⟨consistent, rfl⟩
      | true =>
          refine ⟨⟨consistent.seen, ?_⟩, rfl⟩
          rintro _ ⟨⟩
          exact ⟨rfl, Tally.counts_ofList _⟩

variable {child : NodeId} {later : List NodeId}
  (split : walk.children.drop walk.cursor = child :: later)

include split

theorem take_pass :
    walk.children.take (walk.cursor + 1) = walk.children.take walk.cursor ++ [child] := by
  rw [List.take_add_one, ← List.head?_drop, split]
  rfl

theorem drop_pass : walk.children.drop (walk.cursor + 1) = later := by
  rw [← List.tail_drop, split]
  rfl

/-- A child that is passed is counted if it is an element. -/
theorem Consistent.pass (consistent : walk.Consistent tree) :
    (walk.pass tree child).Consistent tree where
  seen := by
    change Tally.Counts (if tree.isElement child then _ else _)
      (walk.counting.groups tree (walk.children.take (walk.cursor + 1)))
    rw [take_pass split, Counting.groups_append, Counting.groups_singleton]
    cases tree.isElement child with
    | false => exact (List.append_nil _).symm ▸ consistent.seen
    | true => exact consistent.seen.add _
  totals := consistent.totals

/-- The position that the counters give an element when it is passed. -/
theorem Consistent.position_pass (consistent : walk.Consistent tree)
    (totalled : walk.totals.isSome = walk.counting.fromLast)
    (element : tree.isElement child = true) :
    (walk.pass tree child).position (walk.counting.group tree child) - 1 =
      index walk.counting tree (walk.passed tree) child (later.filter tree.isElement) := by
  have seen : (walk.pass tree child).seen.getD (walk.counting.group tree child) 0 =
      (walk.passed tree).countP (walk.counting.counts tree (tree.tagId? child)) + 1 := by
    refine ((consistent.pass split).seen.getD_zero _).trans ?_
    change (walk.counting.groups tree (walk.children.take (walk.cursor + 1))).count _ = _
    rw [take_pass split]
    exact walk.counting.count_groups_split _ [] element
  rw [position, seen, index]
  cases totals_eq : walk.totals with
  | none =>
      rw [totals_eq] at totalled
      rw [← totalled, show (walk.pass tree child).totals = none from totals_eq]
      exact Nat.add_sub_cancel _ 1
  | some totals =>
      obtain ⟨fromLast, counts⟩ := consistent.totals totals totals_eq
      have size := walk.counting.count_groups_split (walk.children.take walk.cursor) later element
      rw [← split, List.take_append_drop] at size
      have member : walk.counting.group tree child ∈ walk.counting.groups tree walk.children :=
        List.count_pos_iff.mp (by omega)
      rw [if_pos fromLast, show (walk.pass tree child).totals = some totals from totals_eq]
      dsimp only
      rw [Std.TreeMap.getD_eq_getD_getElem?, counts.getElem?_of_mem member, Option.getD_some, size,
        passed]
      omega

/-- A child that is passed is yielded if its index is selected. -/
theorem pending_pass (answers : FormulaAnswers) :
    walk.pending answers tree =
      (if tree.isElement child && answers walk.formula
          (index walk.counting tree (walk.passed tree) child (later.filter tree.isElement))
        then [child] else []) ++ (walk.pass tree child).pending answers tree := by
  have passed : (walk.pass tree child).passed tree =
      walk.passed tree ++ if tree.isElement child then [child] else [] := by
    change (walk.children.take (walk.cursor + 1)).filter tree.isElement = _
    rw [take_pass split, List.filter_append, List.filter_cons]
    rfl
  have remaining : (walk.pass tree child).remaining tree = later.filter tree.isElement :=
    congrArg (List.filter tree.isElement) (drop_pass split)
  rw [pending, pending, passed, remaining, NthWalk.remaining, split, List.filter_cons]
  cases tree.isElement child with
  | false => rw [if_neg Bool.false_ne_true, if_neg Bool.false_ne_true, List.append_nil]; rfl
  | true =>
      rw [if_pos rfl, if_pos rfl, pendingFrom, Bool.true_and]
      split <;> rfl

end Counters

/-- Going on from a child yields the first one still to come. -/
theorem steady_advance (tree : Tree) (baseSound : base.Sound) {later : List NodeId}
    {walk : NthWalk} (known : walk.formula.Known base) (consistent : walk.Consistent tree)
    (totalled : walk.totals.isSome = walk.counting.fromLast)
    (split : walk.children.drop walk.cursor = later) :
    ∃ behind, Cached.Steady base (advance tree later walk)
        ((walk.pending base.answers tree).head?, behind) ∧
      behind.pending base.answers tree = (walk.pending base.answers tree).tail ∧
      behind.formula.Known base ∧ behind.Consistent tree := by
  induction later generalizing walk with
  | nil =>
      have finished : walk.pending base.answers tree = [] := by
        rw [pending, remaining, split]
        rfl
      rw [finished]
      exact ⟨walk, .pure _, finished, known, consistent⟩
  | cons child later ih =>
      have onward := @ih (walk.pass tree child) known (consistent.pass split) totalled
        (drop_pass split)
      rw [advance, pending_pass split]
      cases element : tree.isElement child with
      | false => exact onward
      | true =>
          dsimp only
          rw [if_pos rfl, Bool.true_and, consistent.position_pass split totalled element]
          generalize index walk.counting tree (walk.passed tree) child
            (later.filter tree.isElement) = place
          have asked : Cached.Steady base (walk.formula.matchesIndex place)
            (base.answers walk.formula place) := known.steady baseSound place
          cases selected : base.answers walk.formula place with
          | false =>
              obtain ⟨behind, steady, rest⟩ := onward
              rw [selected] at asked
              exact ⟨behind, asked.bind steady, rest⟩
          | true =>
              rw [selected] at asked
              exact ⟨walk.pass tree child, asked.bind (.pure _), rfl, known,
                consistent.pass split⟩

/-- A step yields the first child still to come and leaves the others.  When no
child is left it yields nothing, however often it is taken. -/
theorem steady_next (tree : Tree) (baseSound : base.Sound) {walk : NthWalk}
    (known : walk.formula.Known base) (consistent : walk.Consistent tree) :
    ∃ behind, Cached.Steady base (walk.next tree)
        ((walk.pending base.answers tree).head?, behind) ∧
      behind.pending base.answers tree = (walk.pending base.answers tree).tail ∧
      behind.formula.Known base ∧ behind.Consistent tree := by
  obtain ⟨prepared, totalled⟩ := consistent.tallied
  exact steady_advance tree baseSound known prepared totalled rfl

theorem steady_take (baseSound : base.Sound) (limit : Nat) {walk : NthWalk}
    (known : walk.formula.Known base) (consistent : walk.Consistent tree) :
    Cached.Steady base (walk.take tree limit)
      ((walk.pending base.answers tree).take limit) := by
  induction limit generalizing walk with
  | zero => exact .pure []
  | succ limit ih =>
      obtain ⟨behind, stepped, rest, behindKnown, behindConsistent⟩ :=
        steady_next tree baseSound known consistent
      have taken := ih behindKnown behindConsistent
      rw [rest] at taken
      rw [take]
      refine stepped.bind ?_
      generalize walk.pending base.answers tree = pending at taken ⊢
      cases pending with
      | nil => exact .pure []
      | cons child later => exact taken.bind (.pure _)

end NthWalk

end CssQuery
