import CssQuery.Proofs.Dom.Walks
import CssQuery.Proofs.Selector.Staged

/-!
# Chains of combinators

A complex selector matches an element if elements can be found for its whole
chain, each in its relation to the one before.  The point test looks for them
from the subject to the left and tries every relative at each combinator, so it
misses no combination of choices.

The relations are stated by parents and lists of children alone.  That the
walks of the point test agree with them rests on the consistency of the links.
-/

namespace CssQuery

open Relation

/-- How an element stands to the left of another one under a combinator. -/
def Combinator.Relates (combinator : Combinator) (tree : Tree) (left right : NodeId) : Prop :=
  match combinator with
  | descendant => TransGen (fun id above => tree.parent? id = some above) right left
  | child => tree.parent? right = some left
  | nextSibling => ∃ parent before after, tree.children parent = before ++ right :: after ∧
      (before.filter tree.isElement).getLast? = some left
  | subsequentSibling => ∃ parent before after,
      tree.children parent = before ++ right :: after ∧ left ∈ before

/-- Whether a node is an element that satisfies every condition of a compound
selector. -/
def CompoundSelector.holds (compound : CompoundSelector) (tree : Tree) (node : NodeId) :
    Cached Bool :=
  match tree.element? node with
  | some element => CompoundSelector.allHold tree node element compound
  | none => pure false

/-- The compound selectors of a complex selector, the subject first. -/
def ComplexSelector.compounds (selector : ComplexSelector) : List CompoundSelector :=
  selector.subject :: selector.chain.map Prod.snd

/-- A row of elements, one for each compound selector of a chain, of which each
stands in its relation to the one before and the first to the given node. -/
inductive ComplexSelector.Chained (tree : Tree) (satisfied : CompoundSelector → NodeId → Prop) :
    NodeId → List (Combinator × CompoundSelector) → List NodeId → Prop
  | nil {node : NodeId} : Chained tree satisfied node [] []
  | cons {node left : NodeId} {combinator : Combinator} {compound : CompoundSelector}
      {chain : List (Combinator × CompoundSelector)} {relatives : List NodeId}
      (element : tree.isElement left = true) (related : combinator.Relates tree left node)
      (holds : satisfied compound left) (onward : Chained tree satisfied left chain relatives) :
      Chained tree satisfied node ((combinator, compound) :: chain) (left :: relatives)

section Relatives

variable {tree : Tree}

/-- A node without a parent has no siblings; any other stands in the list of
its parent. -/
theorem Tree.Linked.siblings_cases (linked : tree.Linked) (node : NodeId) :
    (tree.precedingSiblings node = [] ∧ ∀ parent, node ∉ tree.children parent) ∨
      ∃ parent before after, tree.children parent = before ++ node :: after ∧
        tree.precedingSiblings node = before.reverse := by
  cases attached : tree.parent? node with
  | none =>
      refine .inl ⟨linked.precedingSiblings_of_alone attached, fun parent member => ?_⟩
      rw [linked.mem_children_iff, attached] at member
      cases member
  | some parent =>
      have member := (linked.mem_children_iff parent node).mpr attached
      obtain ⟨before, after, split⟩ := List.append_of_mem member
      exact .inr ⟨parent, before, after, split, linked.precedingSiblings_eq split⟩

theorem Tree.Linked.mem_precedingSiblings_iff (linked : tree.Linked) {left node : NodeId} :
    left ∈ tree.precedingSiblings node ↔
      ∃ parent before after, tree.children parent = before ++ node :: after ∧ left ∈ before := by
  constructor
  · intro member
    rcases linked.siblings_cases node with ⟨none, -⟩ | ⟨parent, before, after, split, walk⟩
    · rw [none] at member
      cases member
    · rw [walk, List.mem_reverse] at member
      exact ⟨parent, before, after, split, member⟩
  · rintro ⟨parent, before, after, split, member⟩
    rw [linked.precedingSiblings_eq split, List.mem_reverse]
    exact member

theorem Tree.Linked.previousElement?_eq_some_iff (linked : tree.Linked) {left node : NodeId} :
    tree.previousElement? node = some left ↔
      ∃ parent before after, tree.children parent = before ++ node :: after ∧
        (before.filter tree.isElement).getLast? = some left := by
  have nearest : ∀ before : List NodeId, before.reverse.find? tree.isElement =
      (before.filter tree.isElement).getLast? := by
    intro before
    rw [← List.head?_filter, List.filter_reverse, List.head?_reverse]
  constructor
  · intro found
    rw [Tree.previousElement?] at found
    rcases linked.siblings_cases node with ⟨none, -⟩ | ⟨parent, before, after, split, walk⟩
    · rw [none] at found
      cases found
    · rw [walk, nearest] at found
      exact ⟨parent, before, after, split, found⟩
  · rintro ⟨parent, before, after, split, found⟩
    rw [Tree.previousElement?, linked.precedingSiblings_eq split, nearest]
    exact found

/-- The relatives that the point test tries are those in the relation. -/
theorem Combinator.mem_relatives_iff (linked : tree.Linked) (acyclic : tree.Acyclic)
    {combinator : Combinator} {left node : NodeId} (element : tree.isElement left = true) :
    left ∈ combinator.relatives tree node ↔ combinator.Relates tree left node := by
  cases combinator with
  | descendant => exact Tree.mem_ancestors_iff linked acyclic
  | child => exact Option.mem_toList
  | nextSibling => exact Option.mem_toList.trans linked.previousElement?_eq_some_iff
  | subsequentSibling =>
      rw [Combinator.relatives, List.mem_filter, linked.mem_precedingSiblings_iff]
      exact and_iff_left element

end Relatives

/-- A compound selector whose formulas are entries of a sound cache says the
same of a node whatever the cache is asked later. -/
theorem CompoundSelector.steady_holds {tree : Tree} {base : FormulaCache}
    (baseSound : base.Sound)
    {compound : CompoundSelector}
    (known : CompoundSelector.AllFormulas (Formula.Known base) compound) (node : NodeId) :
    Cached.Steady base (compound.holds tree node)
      (tree.isElement node && CompoundSelector.meaning base.answers tree compound node) := by
  rw [CompoundSelector.holds]
  cases found : tree.element? node with
  | none =>
      rw [Tree.isElement_eq_false found]
      exact .pure false
  | some element =>
      rw [Tree.isElement_of_element? found, Bool.true_and]
      exact CompoundSelector.steady_allHold baseSound found compound known

namespace ComplexSelector

variable {tree : Tree} {family : FormulaCache → Prop}

theorem Chained.imp {first second : CompoundSelector → NodeId → Prop}
    {chain : List (Combinator × CompoundSelector)} {node : NodeId} {relatives : List NodeId}
    (weaker : ∀ compound ∈ chain.map Prod.snd, ∀ node, first compound node → second compound node)
    (chained : Chained tree first node chain relatives) :
    Chained tree second node chain relatives := by
  induction chained with
  | nil => exact .nil
  | cons element related holds onward ih =>
      exact .cons element related (weaker _ List.mem_cons_self _ holds)
        (ih fun compound member => weaker compound (List.mem_cons_of_mem _ member))

theorem exists_chained_cons_iff {satisfied : CompoundSelector → NodeId → Prop} {node : NodeId}
    {combinator : Combinator} {compound : CompoundSelector}
    {chain : List (Combinator × CompoundSelector)} :
    (∃ relatives, Chained tree satisfied node ((combinator, compound) :: chain) relatives) ↔
      ∃ left, tree.isElement left = true ∧ combinator.Relates tree left node ∧
        satisfied compound left ∧ ∃ relatives, Chained tree satisfied left chain relatives := by
  constructor
  · rintro ⟨_, chained⟩
    cases chained with
    | cons element related holds onward => exact ⟨_, element, related, holds, _, onward⟩
  · rintro ⟨left, element, related, holds, relatives, onward⟩
    exact ⟨left :: relatives, .cons element related holds onward⟩

open Classical in
/-- The search through the relatives succeeds exactly if there is a row of
elements for the chain. -/
theorem constantOn_chainHolds (linked : tree.Linked) (acyclic : tree.Acyclic)
    {satisfied : CompoundSelector → NodeId → Bool}
    {chain : List (Combinator × CompoundSelector)}
    (constant : ∀ compound ∈ chain.map Prod.snd, ∀ node,
      Cached.ConstantOn family (compound.holds tree node) (satisfied compound node))
    (node : NodeId) :
    Cached.ConstantOn family (chainHolds tree chain node)
      (decide (∃ relatives, Chained tree (satisfied · · = true) node chain relatives)) := by
  induction chain generalizing node with
  | nil =>
      have trivial : ∃ relatives, Chained tree (satisfied · · = true) node [] relatives :=
        ⟨[], .nil⟩
      rw [decide_eq_true trivial]
      exact .pure true
  | cons link chain ih =>
      obtain ⟨combinator, compound⟩ := link
      have onward := ih fun compound member => constant compound (List.mem_cons_of_mem _ member)
      have here := constant compound List.mem_cons_self
      -- Each relative is tried with the whole rest of the chain, so what is known of
      -- the rest is used at all of them and not only at the first that satisfies.
      have tried : Cached.ConstantOn family (chainHolds tree ((combinator, compound) :: chain) node)
          ((combinator.relatives tree node).any fun left =>
            tree.isElement left && (satisfied compound left &&
              decide (∃ relatives, Chained tree (satisfied · · = true) left chain relatives))) := by
        rw [chainHolds]
        refine .anyM fun left _ => ?_
        have test := here left
        rw [CompoundSelector.holds] at test
        cases found : tree.element? left with
        | none =>
            rw [Tree.isElement_eq_false found]
            exact .pure false
        | some element =>
            rw [found] at test
            rw [Tree.isElement_of_element? found, Bool.true_and]
            refine test.bind ?_
            cases satisfied compound left with
            | false => exact .pure false
            | true => exact onward left
      have same : ((combinator.relatives tree node).any fun left =>
            tree.isElement left && (satisfied compound left &&
              decide (∃ relatives, Chained tree (satisfied · · = true) left chain relatives))) =
          decide (∃ relatives,
            Chained tree (satisfied · · = true) node ((combinator, compound) :: chain)
              relatives) := by
        rw [Bool.eq_iff_iff, List.any_eq_true, decide_eq_true_eq, exists_chained_cons_iff]
        simp only [Bool.and_eq_true, decide_eq_true_eq]
        refine exists_congr fun left => ?_
        constructor
        · rintro ⟨member, element, holds⟩
          exact ⟨element, (Combinator.mem_relatives_iff linked acyclic element).mp member, holds⟩
        · rintro ⟨element, related, holds⟩
          exact ⟨(Combinator.mem_relatives_iff linked acyclic element).mpr related, element, holds⟩
      exact same ▸ tried

open Classical in
theorem constantOn_holds (linked : tree.Linked) (acyclic : tree.Acyclic)
    {satisfied : CompoundSelector → NodeId → Bool} {selector : ComplexSelector}
    (constant : ∀ compound ∈ selector.compounds, ∀ node,
      Cached.ConstantOn family (compound.holds tree node) (satisfied compound node))
    (node : NodeId) :
    Cached.ConstantOn family (selector.holds tree node)
      (tree.isElement node && (satisfied selector.subject node &&
        decide (∃ relatives,
          Chained tree (satisfied · · = true) node selector.chain relatives))) := by
  have subject := constant selector.subject List.mem_cons_self node
  have chain := constantOn_chainHolds linked acyclic
    (fun compound member => constant compound (List.mem_cons_of_mem _ member)) node
  rw [CompoundSelector.holds] at subject
  rw [ComplexSelector.holds]
  cases found : tree.element? node with
  | none =>
      rw [Tree.isElement_eq_false found]
      exact .pure false
  | some element =>
      rw [found] at subject
      rw [Tree.isElement_of_element? found, Bool.true_and]
      refine subject.bind ?_
      cases satisfied selector.subject node with
      | false => exact .pure false
      | true => exact chain

theorem holds_iff_of_constantOn (linked : tree.Linked) (acyclic : tree.Acyclic)
    {satisfied : CompoundSelector → NodeId → Bool} {selector : ComplexSelector}
    (constant : ∀ compound ∈ selector.compounds, ∀ node,
      Cached.ConstantOn family (compound.holds tree node) (satisfied compound node))
    {cache : FormulaCache} (member : family cache) (node : NodeId) :
    ((selector.holds tree node).runOn cache).1 = true ↔
      tree.isElement node = true ∧ satisfied selector.subject node = true ∧
        ∃ relatives, Chained tree (satisfied · · = true) node selector.chain relatives := by
  rw [(constantOn_holds linked acyclic constant node cache member).1]
  simp only [Bool.and_eq_true, decide_eq_true_eq]

theorem chainAllFormulas_of_mem {property : Formula → Prop}
    {chain : List (Combinator × CompoundSelector)} (all : ChainAllFormulas property chain)
    {compound : CompoundSelector} (member : compound ∈ chain.map Prod.snd) :
    CompoundSelector.AllFormulas property compound := by
  induction chain with
  | nil => cases member
  | cons link chain ih =>
      rcases List.mem_cons.mp member with rfl | later
      · exact all.1
      · exact ih all.2 later

theorem allFormulas_of_mem_compounds {property : Formula → Prop} {selector : ComplexSelector}
    (all : selector.AllFormulas property) {compound : CompoundSelector}
    (member : compound ∈ selector.compounds) :
    CompoundSelector.AllFormulas property compound := by
  cases selector with
  | mk subject chain =>
      rcases List.mem_cons.mp member with rfl | later
      · exact all.1
      · exact chainAllFormulas_of_mem all.2 later

/-- The point test of a complex selector is a complete search: it succeeds
exactly on an element that satisfies the subject and from which a row of
elements leads through the chain.  This needs no more than that each compound
selector always says the same of the same node; so it is with the formulas of
every cache for linear formulas, whatever the cache has been asked. -/
theorem holds_iff_exists_chained
    (built : tree.Built fun tree command => command.Known tree ∧ command.LoopFree tree)
    (selector : ComplexSelector) :
    (∀ (family : FormulaCache → Prop) (satisfied : CompoundSelector → NodeId → Bool),
      (∀ compound ∈ selector.compounds, ∀ node,
        Cached.ConstantOn family (compound.holds tree node) (satisfied compound node)) →
      ∀ (cache : FormulaCache) (node : NodeId), family cache →
        (((selector.holds tree node).runOn cache).1 = true ↔
          tree.isElement node = true ∧ satisfied selector.subject node = true ∧
            ∃ relatives, Chained tree (satisfied · · = true) node selector.chain relatives)) ∧
    ∀ (capacity : Option Nat) (history : List CacheCommand),
      selector.AllFormulas (Formula.Known ((FormulaCache.empty capacity).run history)) →
      ∀ (asked : List CacheCommand) (between : CompoundSelector → NodeId → List CacheCommand)
        (satisfied : CompoundSelector → NodeId → Prop),
      (∀ compound node, satisfied compound node ↔
        ((compound.holds tree node).runOn
          (((FormulaCache.empty capacity).run history).run (between compound node))).1 = true) →
      ∀ node : NodeId,
        (((selector.holds tree node).runOn
            (((FormulaCache.empty capacity).run history).run asked)).1 = true ↔
          tree.isElement node = true ∧ satisfied selector.subject node ∧
            ∃ relatives, Chained tree satisfied node selector.chain relatives) := by
  have linked := built.linked fun _ _ allowed => allowed.1
  refine ⟨fun family satisfied constant cache node member =>
    holds_iff_of_constantOn linked built.acyclic constant member node, ?_⟩
  intro capacity history known asked between satisfied satisfied_iff node
  generalize base_eq : (FormulaCache.empty capacity).run history = base at *
  have baseSound : base.Sound := base_eq ▸ (FormulaCache.Sound.empty capacity).run history
  have later : ∀ history, base.Later (base.run history) := fun history =>
    ⟨FormulaCache.Extends.run base history, baseSound.run history⟩
  have constant : ∀ compound ∈ selector.compounds, ∀ node,
      Cached.ConstantOn base.Later (compound.holds tree node)
        (tree.isElement node && CompoundSelector.meaning base.answers tree compound node) :=
    fun compound member node => Cached.steady_iff.mp
      (CompoundSelector.steady_holds baseSound (allFormulas_of_mem_compounds known member) node)
  have same : ∀ compound ∈ selector.compounds, ∀ node, satisfied compound node ↔
      (tree.isElement node && CompoundSelector.meaning base.answers tree compound node) = true := by
    intro compound member node
    rw [satisfied_iff, (constant compound member node _ (later _)).1]
  have sameChain := fun compound (member : compound ∈ selector.chain.map Prod.snd) =>
    same compound (List.mem_cons_of_mem _ member)
  rw [holds_iff_of_constantOn linked built.acyclic constant (later asked),
    same selector.subject List.mem_cons_self]
  refine and_congr_right fun _ => and_congr_right fun _ => exists_congr fun relatives => ?_
  exact ⟨Chained.imp fun compound member node => (sameChain compound member node).mpr,
    Chained.imp fun compound member node => (sameChain compound member node).mp⟩

/-- The nearest `b` above the `c` is no child of an `a` and is not the first
child of its parent either; the farther one is both. -/
theorem holds_by_farther_ancestor :
    ∃ tree : Tree,
      (tree.Built fun tree command => command.Known tree ∧ command.LoopFree tree) ∧
      ((ComplexSelector.holds
          (.mk [.hasTag "c"]
            [(.descendant, [.hasTag "b",
              .pseudoClass (.test (.nth (.expression 0) ⟨false, false⟩))]),
              (.child, [.hasTag "a"])]) tree 6).runOn
        (((FormulaCache.empty (some 1)).run [.request "2n+1", .request "n"]).run
          [.contains 0 5])).1 = true := by
  have start : Tree.empty.Built fun tree command =>
      command.Known tree ∧ command.LoopFree tree := .empty
  have outer := ((start.perform (.appendElement 0 "a") ⟨by decide, trivial⟩).perform
    (.appendElement 1 "b") ⟨by decide, trivial⟩).perform
    (.appendElement 2 "d") ⟨by decide, trivial⟩
  have inner := ((outer.perform (.appendElement 3 "i") ⟨by decide, trivial⟩).perform
    (.appendElement 3 "b") ⟨by decide, trivial⟩).perform
    (.appendElement 5 "c") ⟨by decide, trivial⟩
  refine ⟨_, inner, ((holds_iff_exists_chained inner _).2 (some 1)
    [.request "2n+1", .request "n"] ?_ [.contains 0 5] (fun _ node => [.contains 0 node])
    _ (fun _ _ => Iff.rfl) 6).mpr ⟨by decide +kernel, by decide +kernel, [2, 1], ?_⟩⟩
  · have known : 0 < ((FormulaCache.empty (some 1)).run
        [.request "2n+1", .request "n"]).entries.size := by decide +kernel
    exact ⟨⟨trivial, trivial⟩, ⟨trivial, known, trivial⟩, ⟨trivial, trivial⟩, trivial⟩
  · refine .cons (by decide +kernel) (.head (b := 5) ?_ (.head (b := 3) ?_ (.single ?_)))
      (by decide +kernel) (.cons (by decide +kernel) (?_ : Tree.parent? _ 2 = some 1)
        (by decide +kernel) .nil) <;> decide +kernel

end ComplexSelector

end CssQuery
