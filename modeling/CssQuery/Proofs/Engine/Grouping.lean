import CssQuery.Proofs.Dom.Descendants
import CssQuery.Proofs.Engine.Selection
import CssQuery.Proofs.Selector.Grouping

/-!
# Grouping is union in document order

A group selects what one of its two parts selects.  What a text selects is
part of one row, the elements below the root in document order, and so is the
union; it does not matter which part stands first, or whether it stands there
twice.
-/

namespace CssQuery

theorem SelectorList.meaning_append (answers : FormulaAnswers) (tree : Tree)
    (front back : SelectorList) :
    SelectorList.meaning answers tree (front ++ back) = fun node =>
      SelectorList.meaning answers tree front node ||
        SelectorList.meaning answers tree back node := by
  funext node
  induction front with
  | nil => rfl
  | cons selector front ih =>
      simp only [List.cons_append, SelectorList.meaning, ih, Bool.or_assoc]

namespace Tree

variable {tree : Tree} {root : NodeId}

/-- The elements below a root that are in one of two lists. -/
def eitherBelow (tree : Tree) (root : NodeId) (left right : List NodeId) : List NodeId :=
  (tree.elementsBelow root).filter fun node => left.contains node || right.contains node

theorem eitherBelow_comm (left right : List NodeId) :
    tree.eitherBelow root left right = tree.eitherBelow root right left :=
  List.filter_congr fun _ _ => Bool.or_comm _ _

theorem contains_filter_elementsBelow (keeps : NodeId → Bool) {node : NodeId}
    (below : node ∈ tree.elementsBelow root) :
    ((tree.elementsBelow root).filter keeps).contains node = keeps node := by
  rw [Bool.eq_iff_iff]
  simp [below]

theorem eitherBelow_filter (keeps others : NodeId → Bool) :
    tree.eitherBelow root ((tree.elementsBelow root).filter keeps)
        ((tree.elementsBelow root).filter others) =
      (tree.elementsBelow root).filter fun node => keeps node || others node := by
  apply List.filter_congr
  intro node below
  rw [contains_filter_elementsBelow keeps below, contains_filter_elementsBelow others below]

end Tree

namespace EngineConfig

variable {config : EngineConfig} {first second : String} {tree : Tree} {root : NodeId}

/-- On any sound cache a group of two accepted texts is read as what its parts
are read as, one after the other. -/
theorem exists_parse_groupOf (firstAccepted : config.accepts first = true)
    (secondAccepted : config.accepts second = true) {cache : FormulaCache} (sound : cache.Sound) :
    ∃ front middle back after,
      (config.parse first).runOn cache = (.ok front, middle) ∧
      (config.parse second).runOn middle = (.ok back, after) ∧
      (config.parse (groupOf first second)).runOn cache = (.ok (front ++ back), after) := by
  obtain ⟨front, middle, parseFirst⟩ := (accepts_iff_exists_parse sound).mp firstAccepted
  have middleSound := (allFormulas_of_parse sound parseFirst).1
  obtain ⟨back, after, parseSecond⟩ :=
    (accepts_iff_exists_parse middleSound).mp secondAccepted
  refine ⟨front, middle, back, after, parseFirst, parseSecond, ?_⟩
  rw [parse_groupOf parseFirst parseSecond]
  exact Compiling.runOn_bind_eq_ok.mpr ⟨front, middle, parseFirst,
    Compiling.runOn_bind_eq_ok.mpr ⟨back, after, parseSecond, rfl⟩⟩

theorem accepts_groupOf (firstAccepted : config.accepts first = true)
    (secondAccepted : config.accepts second = true) :
    config.accepts (groupOf first second) = true := by
  have sound := FormulaCache.Sound.empty none
  obtain ⟨front, _, back, after, -, -, parse⟩ :=
    exists_parse_groupOf firstAccepted secondAccepted sound
  exact (accepts_iff_exists_parse sound).mpr ⟨front ++ back, after, parse⟩

/-- What an accepted text selects is what some test keeps of the elements below
the root. -/
theorem exists_selects (accepted : config.accepts first = true) (tree : Tree) (root : NodeId) :
    ∃ keeps : NodeId → Bool,
      config.Selects tree root first ((tree.elementsBelow root).filter keeps) := by
  have sound := FormulaCache.Sound.empty none
  obtain ⟨selectors, parsed, parse⟩ := (accepts_iff_exists_parse sound).mp accepted
  exact ⟨_, selects_of_parse sound parse tree root⟩

theorem selects_groupOf (firstAccepted : config.accepts first = true)
    (secondAccepted : config.accepts second = true) {left right : List NodeId}
    (selectsFirst : config.Selects tree root first left)
    (selectsSecond : config.Selects tree root second right) :
    config.Selects tree root (groupOf first second) (tree.eitherBelow root left right) := by
  have sound := FormulaCache.Sound.empty none
  obtain ⟨front, middle, back, after, parseFirst, parseSecond, parse⟩ :=
    exists_parse_groupOf firstAccepted secondAccepted sound
  have middleSound := (allFormulas_of_parse sound parseFirst).1
  obtain ⟨later, -, -⟩ := config.agree_parse middleSound middleSound second
  rw [parseSecond] at later
  have selects := selects_of_parse sound parse tree root
  rw [SelectorList.meaning_append, meaning_of_later sound parseFirst later,
    ← Tree.eitherBelow_filter] at selects
  rwa [← (selects_of_parse sound parseFirst tree root).unique selectsFirst,
    ← (selects_of_parse middleSound parseSecond tree root).unique selectsSecond]

/-- A group of two accepted texts is accepted.  Its selectors are those of the
first text followed by those of the second, with the specificities that they
have where the texts are read alone.  It selects the elements below the root
that one of the texts selects, in document order and each once; so the order
of the texts does not matter, and a group of a text with itself selects what
the text selects. -/
theorem select_group_unites (firstAccepted : config.accepts first = true)
    (secondAccepted : config.accepts second = true) :
    config.accepts (groupOf first second) = true ∧
    (∀ cache : FormulaCache, cache.Reached →
      ∃ front middle back after,
        (config.parse first).runOn cache = (.ok front, middle) ∧
        (config.parse second).runOn middle = (.ok back, after) ∧
        (config.parse (groupOf first second)).runOn cache = (.ok (front ++ back), after)) ∧
    (∀ (cache firstCache secondCache : FormulaCache) (both front back : SelectorList),
      ((config.parse (groupOf first second)).runOn cache).1 = .ok both →
      ((config.parse first).runOn firstCache).1 = .ok front →
      ((config.parse second).runOn secondCache).1 = .ok back →
        both.map ComplexSelector.specificity =
          front.map ComplexSelector.specificity ++ back.map ComplexSelector.specificity) ∧
    ∀ tree : Tree, (tree.Built fun tree command => command.Known tree ∧ command.LoopFree tree) →
      ∀ root, ∃ left right both,
        config.Selects tree root first left ∧
        config.Selects tree root second right ∧
        config.Selects tree root (groupOf first second) both ∧
        both.Sublist (tree.elementsBelow root) ∧
        both.Nodup ∧
        (∀ node, node ∈ both ↔ node ∈ left ∨ node ∈ right) ∧
        config.Selects tree root (groupOf second first) both ∧
        config.Selects tree root (groupOf first first) left := by
  refine ⟨accepts_groupOf firstAccepted secondAccepted, ?_, ?_, ?_⟩
  · exact fun cache reached => exists_parse_groupOf firstAccepted secondAccepted reached.sound
  · intro cache firstCache secondCache both front back parse parseFirst parseSecond
    exact specificity_parse_groupOf (Prod.ext parse rfl) (Prod.ext parseFirst rfl)
      (Prod.ext parseSecond rfl)
  · intro tree built root
    have linked := built.linked fun _ _ allowed => allowed.1
    obtain ⟨keeps, selectsFirst⟩ := exists_selects firstAccepted tree root
    obtain ⟨others, selectsSecond⟩ := exists_selects secondAccepted tree root
    have selectsBoth := selects_groupOf firstAccepted secondAccepted selectsFirst selectsSecond
    have selectsSwapped := selects_groupOf secondAccepted firstAccepted selectsSecond selectsFirst
    have selectsTwice := selects_groupOf firstAccepted firstAccepted selectsFirst selectsFirst
    rw [Tree.eitherBelow_comm] at selectsSwapped
    simp only [Tree.eitherBelow_filter, Bool.or_self] at selectsTwice
    refine ⟨_, _, _, selectsFirst, selectsSecond, selectsBoth, List.filter_sublist,
      (Tree.nodup_elementsBelow linked built.acyclic root).filter _, ?_, selectsSwapped,
      selectsTwice⟩
    intro node
    simp only [Tree.eitherBelow_filter, List.mem_filter, Bool.or_eq_true, and_or_left]

/-- The first text ends in space behind a span with a comma, the second in a
span, and what the second selects comes first in the document. -/
theorem select_paragraphs_or_items :
    ∃ tree : Tree,
      (tree.Built fun tree command => command.Known tree ∧ command.LoopFree tree) ∧
      ({} : EngineConfig).accepts (groupOf "p , [title=\",\"] " "li:nth-child(odd)") = true ∧
      ({} : EngineConfig).Selects tree 0 "p , [title=\",\"] " [3] ∧
      ({} : EngineConfig).Selects tree 0 "li:nth-child(odd)" [2] ∧
      ({} : EngineConfig).Selects tree 0
        (groupOf "p , [title=\",\"] " "li:nth-child(odd)") [2, 3] ∧
      ({} : EngineConfig).Selects tree 0
        (groupOf "li:nth-child(odd)" "p , [title=\",\"] ") [2, 3] := by
  let first := "p , [title=\",\"] "
  let second := "li:nth-child(odd)"
  have firstAccepted : ({} : EngineConfig).accepts first = true := by decide +kernel
  have secondAccepted : ({} : EngineConfig).accepts second = true := by decide +kernel
  let list := (Tree.empty.perform (.appendElement 0 "ul")).2
  let tree := ((list.perform (.appendElement 1 "li")).2.perform (.appendElement 1 "p")).2
  have built : tree.Built fun tree command => command.Known tree ∧ command.LoopFree tree :=
    ((Tree.Built.empty.perform (.appendElement 0 "ul") ⟨by decide, trivial⟩).perform
      (.appendElement 1 "li") ⟨by decide, trivial⟩).perform (.appendElement 1 "p")
        ⟨by decide, trivial⟩
  have computed : ((({} : EngineConfig).select tree 0 first).runOn {}).1 = .ok [3] ∧
      ((({} : EngineConfig).select tree 0 second).runOn {}).1 = .ok [2] ∧
      ((({} : EngineConfig).select tree 0 (groupOf first second)).runOn {}).1 = .ok [2, 3] := by
    decide +kernel
  obtain ⟨accepted, -, -, selections⟩ := select_group_unites firstAccepted secondAccepted
  obtain ⟨left, right, both, selectsFirst, selectsSecond, selectsBoth, -, -, -, swapped, -⟩ :=
    selections tree built 0
  obtain rfl : left = [3] :=
    Except.ok.inj ((selectsFirst _ (.empty none)).symm.trans computed.1)
  obtain rfl : right = [2] :=
    Except.ok.inj ((selectsSecond _ (.empty none)).symm.trans computed.2.1)
  obtain rfl : both = [2, 3] :=
    Except.ok.inj ((selectsBoth _ (.empty none)).symm.trans computed.2.2)
  exact ⟨tree, built, accepted, selectsFirst, selectsSecond, selectsBoth, swapped⟩

end EngineConfig

end CssQuery
