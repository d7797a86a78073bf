import CssQuery.Proofs.Dom.Descendants
import CssQuery.Proofs.Engine.Selection
import CssQuery.Proofs.Selector.Negation

/-!
# Negation is complement

A selector list and its negation divide the elements below a root between
them, and negating twice changes nothing.  The negation is read as that of
what the text is read as, so its meaning on elements is the opposite; what it
selects is then the other part of the same row in document order.
-/

namespace CssQuery

theorem SelectorList.meaning_negation (answers : FormulaAnswers) (tree : Tree)
    (inner : SelectorList) (node : NodeId) :
    SelectorList.meaning answers tree [.mk [.pseudoClass (.not inner)] []] node =
      (tree.isElement node && !SelectorList.meaning answers tree inner node) := by
  simp only [SelectorList.meaning, ComplexSelector.meaning, CompoundSelector.meaning,
    SimpleSelector.meaning, PseudoClass.meaning, ComplexSelector.chainMeaning, Bool.and_true,
    Bool.or_false]
  cases tree.isElement node <;> rfl

namespace EngineConfig

variable {config : EngineConfig} {text : String} {cache parsed : FormulaCache}
  {selectors : SelectorList}

/-- Where a text and its negation are accepted, the negation is read as that of
what the text is read as. -/
theorem parse_negationOf_of_parse (accepted : config.accepts (negationOf text) = true)
    (sound : cache.Sound) (parse : (config.parse text).runOn cache = (.ok selectors, parsed)) :
    (config.parse (negationOf text)).runOn cache =
      (.ok [.mk [.pseudoClass (.not selectors)] []], parsed) := by
  obtain ⟨negated, behind, parseNegation⟩ := (accepts_iff_exists_parse sound).mp accepted
  rw [config.parse_negationOf (isSpan_of_parse parse parseNegation)]
  exact Compiling.runOn_map_eq_ok.mpr ⟨selectors, parse, rfl⟩

theorem filter_meaning_negation (answers : FormulaAnswers) (tree : Tree) (inner : SelectorList)
    (root : NodeId) :
    (tree.elementsBelow root).filter
        (SelectorList.meaning answers tree [.mk [.pseudoClass (.not inner)] []]) =
      (tree.elementsBelow root).filter fun node =>
        !SelectorList.meaning answers tree inner node := by
  apply List.filter_congr
  intro node member
  rw [SelectorList.meaning_negation, (List.mem_filter.mp member).2, Bool.true_and]

/-- Whenever a text and its negation are both accepted, they select disjoint
parts of the elements below a root, which merged in document order are all of
them.  If the double negation is accepted too, it selects what the text
selects. -/
theorem select_negation_complements (accepted : config.accepts text = true)
    (negationAccepted : config.accepts (negationOf text) = true) {tree : Tree}
    (built : tree.Built fun tree command => command.Known tree ∧ command.LoopFree tree)
    (root : NodeId) :
    ∃ selected rest,
      config.Selects tree root text selected ∧
      config.Selects tree root (negationOf text) rest ∧
      selected.Disjoint rest ∧
      selected.merge rest (tree.inOrder root) = tree.elementsBelow root ∧
      (config.accepts (negationOf (negationOf text)) = true →
        config.Selects tree root (negationOf (negationOf text)) selected) := by
  have linked := built.linked fun _ _ allowed => allowed.1
  have sound := FormulaCache.Sound.empty none
  obtain ⟨selectors, parsed, parse⟩ := (accepts_iff_exists_parse sound).mp accepted
  have parseNegation := parse_negationOf_of_parse negationAccepted sound parse
  have selects := selects_of_parse sound parse tree root
  have selectsNegation := selects_of_parse sound parseNegation tree root
  rw [filter_meaning_negation] at selectsNegation
  refine ⟨_, _, selects, selectsNegation, ?_, ?_, ?_⟩
  · intro node kept dropped
    have holds := (List.mem_filter.mp kept).2
    have fails := (List.mem_filter.mp dropped).2
    rw [holds] at fails
    cases fails
  · exact Tree.merge_filter_elementsBelow linked built.acyclic root _
  · intro doubleAccepted
    have parseDouble := parse_negationOf_of_parse doubleAccepted sound parseNegation
    have selectsDouble := selects_of_parse sound parseDouble tree root
    rw [filter_meaning_negation] at selectsDouble
    have same : (tree.elementsBelow root).filter (fun node =>
          !SelectorList.meaning parsed.answers tree [.mk [.pseudoClass (.not selectors)] []] node) =
        (tree.elementsBelow root).filter
          (SelectorList.meaning parsed.answers tree selectors) := by
      apply List.filter_congr
      intro node member
      rw [SelectorList.meaning_negation, (List.mem_filter.mp member).2, Bool.true_and,
        Bool.not_not]
    rwa [same] at selectsDouble

/-- A group with a negation of its own and a quoted parenthesis, on a list of
two items and a paragraph. -/
theorem select_later_items_or_rest :
    ∃ tree : Tree,
      (tree.Built fun tree command => command.Known tree ∧ command.LoopFree tree) ∧
      ({} : EngineConfig).accepts (negationOf "li:not(:first-child), [title=\")\"] p") = true ∧
      ({} : EngineConfig).Selects tree 0 "li:not(:first-child), [title=\")\"] p" [3] ∧
      ({} : EngineConfig).Selects tree 0
        (negationOf "li:not(:first-child), [title=\")\"] p") [1, 2, 4] ∧
      ({} : EngineConfig).Selects tree 0
        (negationOf (negationOf "li:not(:first-child), [title=\")\"] p")) [3] := by
  let text := "li:not(:first-child), [title=\")\"] p"
  have accepted : ({} : EngineConfig).accepts text = true := by decide +kernel
  have negationAccepted : ({} : EngineConfig).accepts (negationOf text) = true := by
    decide +kernel
  have doubleAccepted : ({} : EngineConfig).accepts (negationOf (negationOf text)) = true := by
    decide +kernel
  let list := ((Tree.empty.perform (.appendElement 0 "ul")).2.perform
    (.appendElement 1 "li")).2
  let tree := ((list.perform (.appendElement 1 "li")).2.perform (.appendElement 1 "p")).2
  have builtList : list.Built fun tree command => command.Known tree ∧ command.LoopFree tree :=
    (Tree.Built.empty.perform _ ⟨by decide, trivial⟩).perform _ ⟨by decide, trivial⟩
  have built : tree.Built fun tree command => command.Known tree ∧ command.LoopFree tree :=
    (builtList.perform (.appendElement 1 "li") ⟨by decide, trivial⟩).perform
      (.appendElement 1 "p") ⟨by decide, trivial⟩
  have computed : ((({} : EngineConfig).select tree 0 text).runOn {}).1 = .ok [3] ∧
      ((({} : EngineConfig).select tree 0 (negationOf text)).runOn {}).1 = .ok [1, 2, 4] := by
    decide +kernel
  obtain ⟨selected, rest, selects, selectsNegation, -, -, double⟩ :=
    select_negation_complements accepted negationAccepted built 0
  obtain rfl : selected = [3] := Except.ok.inj ((selects _ (.empty none)).symm.trans computed.1)
  obtain rfl : rest = [1, 2, 4] :=
    Except.ok.inj ((selectsNegation _ (.empty none)).symm.trans computed.2)
  exact ⟨tree, built, negationAccepted, selects, selectsNegation, double doubleAccepted⟩

end EngineConfig

end CssQuery
