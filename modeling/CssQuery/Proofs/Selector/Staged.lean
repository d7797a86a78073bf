import CssQuery.Proofs.Formula.Steady
import CssQuery.Proofs.Selector.Meaning

/-!
# The point test and the staged filter

Both ways to match a selector compute its meaning: the point test for one
node, the staged filter for every candidate.  The two are defined in terms of
each other, since the point test of `:not()` filters a single candidate, so
both are settled by one induction on the selector.

A stage of the filter sees only candidates that passed the stages before it.
Its result is still a filter of them node by node, so neither the other
candidates, nor repeats, nor the scope have a part in it.
-/

namespace CssQuery

variable {base : FormulaCache} {tree : Tree}

/-- The formulas of a selector, answered by the base cache. -/
abbrev FormulaCache.answers (base : FormulaCache) : FormulaAnswers :=
  Formula.answer base

theorem NodeTest.steady_holds (baseSound : base.Sound) {test : NodeTest}
    (known : (PseudoClass.test test).AllFormulas (Formula.Known base)) (node : NodeId) :
    Cached.Steady base (test.holds tree node) (test.meaning base.answers tree node) := by
  cases test with
  | structural test => exact .pure _
  | contains search => exact .pure _
  | nth formula counting =>
      simp only [NodeTest.holds, NodeTest.meaning]
      cases counting.indexOf tree node with
      | none => exact .pure false
      | some index => exact Formula.Known.steady known baseSound index

/-- What a compound selector says about an element beside its pseudo-classes. -/
theorem SimpleSelector.meaning_plain (answers : FormulaAnswers) {node : NodeId}
    {element : Element} (found : tree.element? node = some element) {simple : SimpleSelector}
    (plain : simple.isPseudoClass = false) :
    simple.meaning answers tree node = simple.holdsPlainly element := by
  cases simple with
  | pseudoClass condition => cases plain
  | universal => exact Tree.isElement_of_element? found
  | hasTag name => simp only [SimpleSelector.meaning, found, Option.any_some]
  | hasClass name => simp only [SimpleSelector.meaning, found, Option.any_some]
  | hasId value => simp only [SimpleSelector.meaning, found, Option.any_some]
  | hasAttribute condition =>
      simp only [SimpleSelector.meaning, found, Option.any_some, SimpleSelector.holdsPlainly]

/-- What the pseudo-classes of a compound selector say about a node. -/
def CompoundSelector.stagedMeaning (answers : FormulaAnswers) (tree : Tree)
    (compound : CompoundSelector) (node : NodeId) : Bool :=
  compound.all fun simple => !simple.isPseudoClass || simple.meaning answers tree node

theorem CompoundSelector.meaning_eq_plain_and_staged (answers : FormulaAnswers)
    {node : NodeId} {element : Element} (found : tree.element? node = some element)
    (compound : CompoundSelector) :
    CompoundSelector.meaning answers tree compound node =
      (compound.all (SimpleSelector.holdsPlainly element) &&
        CompoundSelector.stagedMeaning answers tree compound node) := by
  induction compound with
  | nil => rfl
  | cons simple others ih =>
      rw [CompoundSelector.meaning, ih]
      simp only [CompoundSelector.stagedMeaning, List.all_cons]
      cases kind : simple.isPseudoClass with
      | true =>
          have passes : simple.holdsPlainly element = true := by
            cases simple <;> first | rfl | cases kind
          rw [passes]
          simp only [Bool.not_true, Bool.false_or, Bool.true_and, Bool.and_left_comm]
      | false =>
          rw [SimpleSelector.meaning_plain answers found kind]
          simp only [Bool.not_false, Bool.true_or, Bool.true_and, Bool.and_assoc]

/-- The first stage and the later ones of a filter together. -/
theorem CompoundSelector.filter_retainPlain (answers : FormulaAnswers)
    (compound : CompoundSelector) (candidates : List NodeId) :
    (CompoundSelector.retainPlain compound tree candidates).filter
        (CompoundSelector.stagedMeaning answers tree compound) =
      candidates.filter fun node =>
        tree.isElement node && CompoundSelector.meaning answers tree compound node := by
  rw [CompoundSelector.retainPlain, List.filter_filter]
  apply List.filter_congr
  intro node _
  cases found : tree.element? node with
  | none => simp [Tree.isElement_eq_false found]
  | some element =>
      rw [Tree.isElement_of_element? found,
        CompoundSelector.meaning_eq_plain_and_staged answers found, Bool.true_and, Bool.and_comm]

theorem CompoundSelector.isElement_of_mem_retainPlain {compound : CompoundSelector}
    {candidates : List NodeId} {node : NodeId}
    (member : node ∈ CompoundSelector.retainPlain compound tree candidates) :
    tree.isElement node = true := by
  have passed := (List.mem_filter.mp member).2
  cases found : tree.element? node with
  | none => simp [found] at passed
  | some element => exact Tree.isElement_of_element? found

/-- What a pseudo-class keeps of any candidates.  A negation keeps what is not
an element. -/
def PseudoClass.keeps (answers : FormulaAnswers) (tree : Tree) (condition : PseudoClass)
    (node : NodeId) : Bool :=
  match condition with
  | .test plain => plain.meaning answers tree node
  | .not inner => !SelectorList.meaning answers tree inner node

theorem PseudoClass.filter_keeps (answers : FormulaAnswers) (condition : PseudoClass)
    {candidates : List NodeId} (elements : ∀ node ∈ candidates, tree.isElement node = true) :
    candidates.filter (condition.keeps answers tree) =
      candidates.filter (condition.meaning answers tree) := by
  apply List.filter_congr
  intro node member
  cases condition with
  | test test => rfl
  | not inner =>
      rw [PseudoClass.keeps, PseudoClass.meaning, elements node member, Bool.true_and]

/-- What each selector keeps of a list, taken together, are the candidates that
some selector matches. -/
theorem SelectorList.contains_flatMap (answers : FormulaAnswers) (selectors : SelectorList)
    {candidates : List NodeId} {node : NodeId} (member : node ∈ candidates) :
    (selectors.flatMap fun selector =>
        candidates.filter (selector.meaning answers tree)).contains node =
      SelectorList.meaning answers tree selectors node := by
  induction selectors with
  | nil => rfl
  | cons selector others ih =>
      rw [List.flatMap_cons, SelectorList.meaning, ← ih, List.contains_append]
      congr 1
      rw [Bool.eq_iff_iff]
      simp [member]

mutual

theorem SimpleSelector.steady_holds (baseSound : base.Sound) {node : NodeId} {element : Element}
    (found : tree.element? node = some element) : (simple : SimpleSelector) →
      simple.AllFormulas (Formula.Known base) →
        Cached.Steady base (simple.holds tree node element)
          (simple.meaning base.answers tree node)
  | .pseudoClass condition, known => PseudoClass.steady_holds baseSound condition known node
  | .universal, _ => by
      rw [SimpleSelector.meaning_plain _ found rfl]
      exact .pure true
  | .hasTag name, _ => by
      rw [SimpleSelector.meaning_plain _ found rfl]
      exact .pure _
  | .hasClass name, _ => by
      rw [SimpleSelector.meaning_plain _ found rfl]
      exact .pure _
  | .hasId value, _ => by
      rw [SimpleSelector.meaning_plain _ found rfl]
      exact .pure _
  | .hasAttribute condition, _ => by
      rw [SimpleSelector.meaning_plain _ found rfl]
      exact .pure _

theorem PseudoClass.steady_holds (baseSound : base.Sound) : (condition : PseudoClass) →
    condition.AllFormulas (Formula.Known base) → (node : NodeId) →
      Cached.Steady base (condition.holds tree node) (condition.meaning base.answers tree node)
  | .test test, known, node => NodeTest.steady_holds baseSound known node
  | .not inner, known, node => by
      rw [PseudoClass.holds, PseudoClass.meaning]
      cases element : tree.isElement node with
      | false => exact .pure false
      | true =>
          have filtered := SelectorList.steady_apply baseSound inner known Tree.root [node]
          refine filtered.bind ?_
          have isEmpty : ([node].filter (SelectorList.meaning base.answers tree inner)).isEmpty =
              (true && !SelectorList.meaning base.answers tree inner node) := by
            cases inside : SelectorList.meaning base.answers tree inner node <;> simp [inside]
          rw [isEmpty]
          exact .pure _

theorem CompoundSelector.steady_allHold (baseSound : base.Sound) {node : NodeId}
    {element : Element} (found : tree.element? node = some element) :
    (compound : List SimpleSelector) →
      CompoundSelector.AllFormulas (Formula.Known base) compound →
        Cached.Steady base (CompoundSelector.allHold tree node element compound)
          (CompoundSelector.meaning base.answers tree compound node)
  | [], _ => .pure true
  | simple :: others, known => by
      have first := SimpleSelector.steady_holds baseSound found simple known.1
      have rest := CompoundSelector.steady_allHold baseSound found others known.2
      rw [CompoundSelector.allHold, CompoundSelector.meaning]
      refine first.bind ?_
      cases simple.meaning base.answers tree node with
      | false => exact .pure false
      | true => exact rest

theorem ComplexSelector.steady_chainHolds (baseSound : base.Sound) :
    (chain : List (Combinator × List SimpleSelector)) →
      ComplexSelector.ChainAllFormulas (Formula.Known base) chain → (node : NodeId) →
        Cached.Steady base (ComplexSelector.chainHolds tree chain node)
          (ComplexSelector.chainMeaning base.answers tree chain node)
  | [], _, _ => .pure true
  | (combinator, compound) :: others, known, node => by
      rw [ComplexSelector.chainHolds, ComplexSelector.chainMeaning]
      refine Cached.Steady.anyM fun relative _ => ?_
      cases found : tree.element? relative with
      | none =>
          rw [Tree.isElement_eq_false found]
          exact .pure false
      | some element =>
          have here := CompoundSelector.steady_allHold baseSound found compound known.1
          have onward := ComplexSelector.steady_chainHolds baseSound others known.2 relative
          rw [Tree.isElement_of_element? found, Bool.true_and]
          refine here.bind ?_
          cases CompoundSelector.meaning base.answers tree compound relative with
          | false => exact .pure false
          | true => exact onward

theorem PseudoClass.steady_retain (baseSound : base.Sound) (scope : NodeId)
    (candidates : List NodeId) : (condition : PseudoClass) →
      condition.AllFormulas (Formula.Known base) →
        Cached.Steady base (condition.retain tree scope candidates)
          (candidates.filter (condition.keeps base.answers tree))
  | .test test, known =>
      Cached.Steady.filterM fun node _ => NodeTest.steady_holds baseSound known node
  | .not inner, known => by
      have excluded := SelectorList.steady_apply baseSound inner known scope candidates
      rw [PseudoClass.retain]
      refine excluded.bind ?_
      have same : (candidates.filter fun node =>
            !(candidates.filter (SelectorList.meaning base.answers tree inner)).contains node) =
          candidates.filter ((PseudoClass.not inner).keeps base.answers tree) := by
        apply List.filter_congr
        intro node member
        rw [PseudoClass.keeps, Bool.eq_iff_iff]
        simp [member]
      rw [← same]
      exact .pure _

theorem CompoundSelector.steady_retainStaged (baseSound : base.Sound) (scope : NodeId) :
    (compound : List SimpleSelector) →
      CompoundSelector.AllFormulas (Formula.Known base) compound →
      (candidates : List NodeId) → (∀ node ∈ candidates, tree.isElement node = true) →
        Cached.Steady base (CompoundSelector.retainStaged tree scope compound candidates)
          (candidates.filter (CompoundSelector.stagedMeaning base.answers tree compound))
  | [], _, candidates, _ => by
      have all : candidates.filter (CompoundSelector.stagedMeaning base.answers tree []) =
          candidates := List.filter_eq_self.mpr fun _ _ => rfl
      rw [all]
      exact .pure candidates
  | .pseudoClass condition :: others, known, candidates, elements => by
      have stage : Cached.Steady base (condition.retain tree scope candidates) _ :=
        PseudoClass.steady_retain baseSound scope candidates condition known.1
      rw [PseudoClass.filter_keeps base.answers condition elements] at stage
      have later := CompoundSelector.steady_retainStaged baseSound scope others known.2
        (candidates.filter (condition.meaning base.answers tree))
        fun node member => elements node (List.mem_filter.mp member).1
      rw [CompoundSelector.retainStaged]
      refine stage.bind ?_
      rw [List.filter_filter] at later
      have same : (candidates.filter fun node =>
            CompoundSelector.stagedMeaning base.answers tree others node &&
              condition.meaning base.answers tree node) =
          candidates.filter (CompoundSelector.stagedMeaning base.answers tree
            (.pseudoClass condition :: others)) :=
        List.filter_congr fun node _ => Bool.and_comm _ _
      exact same ▸ later
  | .universal :: others, known, candidates, elements =>
      CompoundSelector.steady_retainStaged baseSound scope others known.2 candidates elements
  | .hasTag _ :: others, known, candidates, elements =>
      CompoundSelector.steady_retainStaged baseSound scope others known.2 candidates elements
  | .hasClass _ :: others, known, candidates, elements =>
      CompoundSelector.steady_retainStaged baseSound scope others known.2 candidates elements
  | .hasId _ :: others, known, candidates, elements =>
      CompoundSelector.steady_retainStaged baseSound scope others known.2 candidates elements
  | .hasAttribute _ :: others, known, candidates, elements =>
      CompoundSelector.steady_retainStaged baseSound scope others known.2 candidates elements

theorem ComplexSelector.steady_retain (baseSound : base.Sound) (scope : NodeId)
    (candidates : List NodeId) : (selector : ComplexSelector) →
      selector.AllFormulas (Formula.Known base) →
        Cached.Steady base (selector.retain tree scope candidates)
          (candidates.filter (selector.meaning base.answers tree))
  | .mk subject chain, known => by
      have staged := CompoundSelector.steady_retainStaged baseSound scope subject known.1
        (CompoundSelector.retainPlain subject tree candidates)
        fun node => CompoundSelector.isElement_of_mem_retainPlain
      rw [CompoundSelector.filter_retainPlain] at staged
      rw [ComplexSelector.retain]
      refine staged.bind ?_
      have led := Cached.Steady.filterM fun node
          (_ : node ∈ candidates.filter fun node => tree.isElement node &&
            CompoundSelector.meaning base.answers tree subject node) =>
        ComplexSelector.steady_chainHolds baseSound chain known.2 node
      rw [List.filter_filter] at led
      have same : (candidates.filter fun node =>
            ComplexSelector.chainMeaning base.answers tree chain node &&
              (tree.isElement node &&
                CompoundSelector.meaning base.answers tree subject node)) =
          candidates.filter ((ComplexSelector.mk subject chain).meaning base.answers tree) :=
        List.filter_congr fun node _ => Bool.and_comm _ _
      exact same ▸ led

theorem SelectorList.steady_retainEach (baseSound : base.Sound) (scope : NodeId)
    (candidates : List NodeId) : (selectors : List ComplexSelector) →
      SelectorList.AllFormulas (Formula.Known base) selectors →
        Cached.Steady base (SelectorList.retainEach tree scope candidates selectors)
          (selectors.flatMap fun selector =>
            candidates.filter (selector.meaning base.answers tree))
  | [], _ => .pure []
  | selector :: others, known => by
      have first := ComplexSelector.steady_retain baseSound scope candidates selector known.1
      have rest := SelectorList.steady_retainEach baseSound scope candidates others known.2
      rw [SelectorList.retainEach, List.flatMap_cons]
      exact first.bind (rest.bind (.pure _))

theorem SelectorList.steady_apply (baseSound : base.Sound) : (selectors : List ComplexSelector) →
    SelectorList.AllFormulas (Formula.Known base) selectors → (scope : NodeId) →
      (candidates : List NodeId) →
        Cached.Steady base (SelectorList.apply tree scope candidates selectors)
          (candidates.filter (SelectorList.meaning base.answers tree selectors))
  | [], _, _, candidates => by
      have none : candidates.filter (SelectorList.meaning base.answers tree []) = [] :=
        List.filter_eq_nil_iff.mpr fun _ _ => Bool.false_ne_true
      rw [none]
      exact .pure []
  | first :: others, known, scope, candidates => by
      have alone := ComplexSelector.steady_retain baseSound scope candidates first known.1
      have rest := SelectorList.steady_retainEach baseSound scope candidates others known.2
      rw [SelectorList.apply]
      refine alone.bind ?_
      cases others with
      | nil =>
          have same : candidates.filter (first.meaning base.answers tree) =
              candidates.filter (SelectorList.meaning base.answers tree [first]) :=
            List.filter_congr fun node _ => (Bool.or_false _).symm
          exact same ▸ .pure _
      | cons second others =>
          refine rest.bind ?_
          have same : (candidates.filter (candidates.filter (first.meaning base.answers tree) ++
                (second :: others).flatMap fun selector =>
                  candidates.filter (selector.meaning base.answers tree)).contains) =
              candidates.filter (SelectorList.meaning base.answers tree
                (first :: second :: others)) :=
            List.filter_congr fun node member =>
              SelectorList.contains_flatMap base.answers (first :: second :: others) member
          exact same ▸ .pure _

end

theorem ComplexSelector.steady_holds (baseSound : base.Sound) {selector : ComplexSelector}
    (known : selector.AllFormulas (Formula.Known base)) (node : NodeId) :
    Cached.Steady base (selector.holds tree node) (selector.meaning base.answers tree node) := by
  cases selector with
  | mk subject chain =>
      rw [ComplexSelector.holds, ComplexSelector.meaning]
      cases found : tree.element? node with
      | none =>
          rw [Tree.isElement_eq_false found]
          exact .pure false
      | some element =>
          have here := CompoundSelector.steady_allHold baseSound found subject known.1
          rw [Tree.isElement_of_element? found, Bool.true_and]
          refine here.bind ?_
          cases CompoundSelector.meaning base.answers tree subject node with
          | false => exact .pure false
          | true => exact ComplexSelector.steady_chainHolds baseSound chain known.2 node

theorem SelectorList.meaning_eq_any (answers : FormulaAnswers) (selectors : SelectorList)
    (node : NodeId) :
    SelectorList.meaning answers tree selectors node =
      selectors.any fun selector => selector.meaning answers tree node := by
  induction selectors with
  | nil => rfl
  | cons selector others ih => rw [SelectorList.meaning, ih, List.any_cons]

theorem SelectorList.allFormulas_of_mem {property : Formula → Prop} {selectors : SelectorList}
    (all : SelectorList.AllFormulas property selectors) {selector : ComplexSelector}
    (member : selector ∈ selectors) : selector.AllFormulas property := by
  induction selectors with
  | nil => cases member
  | cons first others ih =>
      rcases List.mem_cons.mp member with rfl | later
      · exact all.1
      · exact ih all.2 later

/-- The point test of a selector list computes its meaning. -/
theorem SelectorList.steady_holds (baseSound : base.Sound) {selectors : SelectorList}
    (known : SelectorList.AllFormulas (Formula.Known base) selectors) (node : NodeId) :
    Cached.Steady base (SelectorList.holds selectors tree node)
      (SelectorList.meaning base.answers tree selectors node) := by
  rw [SelectorList.meaning_eq_any]
  exact Cached.Steady.anyM fun selector member =>
    ComplexSelector.steady_holds baseSound (SelectorList.allFormulas_of_mem known member) node

end CssQuery
