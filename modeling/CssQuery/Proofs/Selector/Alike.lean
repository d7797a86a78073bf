import CssQuery.Proofs.Selector.Meaning

/-!
# Selectors alike up to their formulas

A selector refers to entries of the cache on which it was read, so the same
text read on two caches gives two selectors with different entries.  They are
alike in everything else: one can be laid over the other, and where one has a
formula the other has a related one.

Selectors that are alike mean the same, provided that related formulas give
the same answers.
-/

namespace CssQuery

mutual

inductive SimpleSelector.Alike (related : Formula → Formula → Prop) :
    SimpleSelector → SimpleSelector → Prop
  | plain {simple : SimpleSelector} (isPlain : simple.isPseudoClass = false) :
      SimpleSelector.Alike related simple simple
  | pseudoClass {first second : PseudoClass}
      (condition : PseudoClass.Alike related first second) :
      SimpleSelector.Alike related (.pseudoClass first) (.pseudoClass second)

inductive PseudoClass.Alike (related : Formula → Formula → Prop) :
    PseudoClass → PseudoClass → Prop
  | structural (test : StructuralPseudoClass) :
      PseudoClass.Alike related (.test (.structural test)) (.test (.structural test))
  | contains (search : TextSearch) :
      PseudoClass.Alike related (.test (.contains search)) (.test (.contains search))
  | nth {first second : Formula} (counting : Counting) (formula : related first second) :
      PseudoClass.Alike related (.test (.nth first counting)) (.test (.nth second counting))
  | not {first second : List ComplexSelector}
      (inner : SelectorList.Alike related first second) :
      PseudoClass.Alike related (.not first) (.not second)

inductive CompoundSelector.Alike (related : Formula → Formula → Prop) :
    List SimpleSelector → List SimpleSelector → Prop
  | nil : CompoundSelector.Alike related [] []
  | cons {first second : SimpleSelector} {others rest : List SimpleSelector}
      (simple : SimpleSelector.Alike related first second)
      (further : CompoundSelector.Alike related others rest) :
      CompoundSelector.Alike related (first :: others) (second :: rest)

inductive ComplexSelector.ChainAlike (related : Formula → Formula → Prop) :
    List (Combinator × List SimpleSelector) → List (Combinator × List SimpleSelector) → Prop
  | nil : ComplexSelector.ChainAlike related [] []
  | cons {first second : List SimpleSelector}
      {others rest : List (Combinator × List SimpleSelector)} (combinator : Combinator)
      (compound : CompoundSelector.Alike related first second)
      (further : ComplexSelector.ChainAlike related others rest) :
      ComplexSelector.ChainAlike related ((combinator, first) :: others)
        ((combinator, second) :: rest)

inductive ComplexSelector.Alike (related : Formula → Formula → Prop) :
    ComplexSelector → ComplexSelector → Prop
  | mk {first second : List SimpleSelector}
      {firstChain secondChain : List (Combinator × List SimpleSelector)}
      (subject : CompoundSelector.Alike related first second)
      (chain : ComplexSelector.ChainAlike related firstChain secondChain) :
      ComplexSelector.Alike related (.mk first firstChain) (.mk second secondChain)

inductive SelectorList.Alike (related : Formula → Formula → Prop) :
    List ComplexSelector → List ComplexSelector → Prop
  | nil : SelectorList.Alike related [] []
  | cons {first second : ComplexSelector} {others rest : List ComplexSelector}
      (selector : ComplexSelector.Alike related first second)
      (further : SelectorList.Alike related others rest) :
      SelectorList.Alike related (first :: others) (second :: rest)

end

section

variable {related weaker : Formula → Formula → Prop}

mutual

theorem SimpleSelector.Alike.imp (implies : ∀ first second, related first second →
    weaker first second) {first second : SimpleSelector} :
    SimpleSelector.Alike related first second → SimpleSelector.Alike weaker first second
  | .plain isPlain => .plain isPlain
  | .pseudoClass condition => .pseudoClass (PseudoClass.Alike.imp implies condition)

theorem PseudoClass.Alike.imp (implies : ∀ first second, related first second →
    weaker first second) {first second : PseudoClass} :
    PseudoClass.Alike related first second → PseudoClass.Alike weaker first second
  | .structural test => .structural test
  | .contains search => .contains search
  | .nth counting formula => .nth counting (implies _ _ formula)
  | .not inner => .not (SelectorList.Alike.imp implies inner)

theorem CompoundSelector.Alike.imp (implies : ∀ first second, related first second →
    weaker first second) {first second : List SimpleSelector} :
    CompoundSelector.Alike related first second → CompoundSelector.Alike weaker first second
  | .nil => .nil
  | .cons simple further =>
      .cons (SimpleSelector.Alike.imp implies simple)
        (CompoundSelector.Alike.imp implies further)

theorem ComplexSelector.ChainAlike.imp (implies : ∀ first second, related first second →
    weaker first second) {first second : List (Combinator × List SimpleSelector)} :
    ComplexSelector.ChainAlike related first second →
      ComplexSelector.ChainAlike weaker first second
  | .nil => .nil
  | .cons combinator compound further =>
      .cons combinator (CompoundSelector.Alike.imp implies compound)
        (ComplexSelector.ChainAlike.imp implies further)

theorem ComplexSelector.Alike.imp (implies : ∀ first second, related first second →
    weaker first second) {first second : ComplexSelector} :
    ComplexSelector.Alike related first second → ComplexSelector.Alike weaker first second
  | .mk subject chain =>
      .mk (CompoundSelector.Alike.imp implies subject)
        (ComplexSelector.ChainAlike.imp implies chain)

theorem SelectorList.Alike.imp (implies : ∀ first second, related first second →
    weaker first second) {first second : List ComplexSelector} :
    SelectorList.Alike related first second → SelectorList.Alike weaker first second
  | .nil => .nil
  | .cons selector further =>
      .cons (ComplexSelector.Alike.imp implies selector) (SelectorList.Alike.imp implies further)

end

mutual

theorem SimpleSelector.Alike.allFormulas {property : Formula → Prop}
    (holds : ∀ first second, related first second → property first)
    {first second : SimpleSelector} :
    SimpleSelector.Alike related first second → first.AllFormulas property
  | .plain isPlain => by
      cases first with
      | pseudoClass condition => cases isPlain
      | _ => trivial
  | .pseudoClass condition => PseudoClass.Alike.allFormulas holds condition

theorem PseudoClass.Alike.allFormulas {property : Formula → Prop}
    (holds : ∀ first second, related first second → property first)
    {first second : PseudoClass} :
    PseudoClass.Alike related first second → first.AllFormulas property
  | .structural _ | .contains _ => trivial
  | .nth _ formula => holds _ _ formula
  | .not inner => SelectorList.Alike.allFormulas holds inner

theorem CompoundSelector.Alike.allFormulas {property : Formula → Prop}
    (holds : ∀ first second, related first second → property first)
    {first second : List SimpleSelector} :
    CompoundSelector.Alike related first second → CompoundSelector.AllFormulas property first
  | .nil => trivial
  | .cons simple further =>
      ⟨SimpleSelector.Alike.allFormulas holds simple,
        CompoundSelector.Alike.allFormulas holds further⟩

theorem ComplexSelector.ChainAlike.allFormulas {property : Formula → Prop}
    (holds : ∀ first second, related first second → property first)
    {first second : List (Combinator × List SimpleSelector)} :
    ComplexSelector.ChainAlike related first second →
      ComplexSelector.ChainAllFormulas property first
  | .nil => trivial
  | .cons _ compound further =>
      ⟨CompoundSelector.Alike.allFormulas holds compound,
        ComplexSelector.ChainAlike.allFormulas holds further⟩

theorem ComplexSelector.Alike.allFormulas {property : Formula → Prop}
    (holds : ∀ first second, related first second → property first)
    {first second : ComplexSelector} :
    ComplexSelector.Alike related first second → first.AllFormulas property
  | .mk subject chain =>
      ⟨CompoundSelector.Alike.allFormulas holds subject,
        ComplexSelector.ChainAlike.allFormulas holds chain⟩

theorem SelectorList.Alike.allFormulas {property : Formula → Prop}
    (holds : ∀ first second, related first second → property first)
    {first second : List ComplexSelector} :
    SelectorList.Alike related first second → SelectorList.AllFormulas property first
  | .nil => trivial
  | .cons selector further =>
      ⟨ComplexSelector.Alike.allFormulas holds selector,
        SelectorList.Alike.allFormulas holds further⟩

end

mutual

theorem SimpleSelector.Alike.symm {first second : SimpleSelector} :
    SimpleSelector.Alike related first second →
      SimpleSelector.Alike (fun formula other => related other formula) second first
  | .plain isPlain => .plain isPlain
  | .pseudoClass condition => .pseudoClass (PseudoClass.Alike.symm condition)

theorem PseudoClass.Alike.symm {first second : PseudoClass} :
    PseudoClass.Alike related first second →
      PseudoClass.Alike (fun formula other => related other formula) second first
  | .structural test => .structural test
  | .contains search => .contains search
  | .nth counting formula => .nth counting formula
  | .not inner => .not (SelectorList.Alike.symm inner)

theorem CompoundSelector.Alike.symm {first second : List SimpleSelector} :
    CompoundSelector.Alike related first second →
      CompoundSelector.Alike (fun formula other => related other formula) second first
  | .nil => .nil
  | .cons simple further =>
      .cons (SimpleSelector.Alike.symm simple) (CompoundSelector.Alike.symm further)

theorem ComplexSelector.ChainAlike.symm
    {first second : List (Combinator × List SimpleSelector)} :
    ComplexSelector.ChainAlike related first second →
      ComplexSelector.ChainAlike (fun formula other => related other formula) second first
  | .nil => .nil
  | .cons combinator compound further =>
      .cons combinator (CompoundSelector.Alike.symm compound)
        (ComplexSelector.ChainAlike.symm further)

theorem ComplexSelector.Alike.symm {first second : ComplexSelector} :
    ComplexSelector.Alike related first second →
      ComplexSelector.Alike (fun formula other => related other formula) second first
  | .mk subject chain =>
      .mk (CompoundSelector.Alike.symm subject) (ComplexSelector.ChainAlike.symm chain)

theorem SelectorList.Alike.symm {first second : List ComplexSelector} :
    SelectorList.Alike related first second →
      SelectorList.Alike (fun formula other => related other formula) second first
  | .nil => .nil
  | .cons selector further =>
      .cons (ComplexSelector.Alike.symm selector) (SelectorList.Alike.symm further)

end

end

section

variable {related : Formula → Formula → Prop} {answers others : FormulaAnswers}

mutual

theorem SimpleSelector.Alike.meaning_eq (tree : Tree)
    (agree : ∀ first second, related first second → answers first = others second)
    {first second : SimpleSelector} (alike : SimpleSelector.Alike related first second)
    (node : NodeId) :
    first.meaning answers tree node = second.meaning others tree node :=
  match alike with
  | .plain isPlain => by
      cases first with
      | pseudoClass condition => cases isPlain
      | _ => rfl
  | .pseudoClass condition => PseudoClass.Alike.meaning_eq tree agree condition node

theorem PseudoClass.Alike.meaning_eq (tree : Tree)
    (agree : ∀ first second, related first second → answers first = others second)
    {first second : PseudoClass} (alike : PseudoClass.Alike related first second)
    (node : NodeId) :
    first.meaning answers tree node = second.meaning others tree node :=
  match alike with
  | .structural _ | .contains _ => rfl
  | .nth counting formula => by
      simp only [PseudoClass.meaning, NodeTest.meaning, agree _ _ formula]
  | .not inner => by
      rw [PseudoClass.meaning, SelectorList.Alike.meaning_eq tree agree inner node,
        PseudoClass.meaning]

theorem CompoundSelector.Alike.meaning_eq (tree : Tree)
    (agree : ∀ first second, related first second → answers first = others second)
    {first second : List SimpleSelector} (alike : CompoundSelector.Alike related first second)
    (node : NodeId) :
    CompoundSelector.meaning answers tree first node =
      CompoundSelector.meaning others tree second node :=
  match alike with
  | .nil => rfl
  | .cons simple further => by
      rw [CompoundSelector.meaning, SimpleSelector.Alike.meaning_eq tree agree simple node,
        CompoundSelector.Alike.meaning_eq tree agree further node, CompoundSelector.meaning]

theorem ComplexSelector.ChainAlike.meaning_eq (tree : Tree)
    (agree : ∀ first second, related first second → answers first = others second)
    {first second : List (Combinator × List SimpleSelector)}
    (alike : ComplexSelector.ChainAlike related first second) (node : NodeId) :
    ComplexSelector.chainMeaning answers tree first node =
      ComplexSelector.chainMeaning others tree second node :=
  match alike with
  | .nil => rfl
  | .cons combinator compound further => by
      simp only [ComplexSelector.chainMeaning,
        CompoundSelector.Alike.meaning_eq tree agree compound,
        ComplexSelector.ChainAlike.meaning_eq tree agree further]

theorem ComplexSelector.Alike.meaning_eq (tree : Tree)
    (agree : ∀ first second, related first second → answers first = others second)
    {first second : ComplexSelector} (alike : ComplexSelector.Alike related first second)
    (node : NodeId) :
    first.meaning answers tree node = second.meaning others tree node :=
  match alike with
  | .mk subject chain => by
      rw [ComplexSelector.meaning, CompoundSelector.Alike.meaning_eq tree agree subject node,
        ComplexSelector.ChainAlike.meaning_eq tree agree chain node, ComplexSelector.meaning]

theorem SelectorList.Alike.meaning_eq (tree : Tree)
    (agree : ∀ first second, related first second → answers first = others second)
    {first second : List ComplexSelector} (alike : SelectorList.Alike related first second)
    (node : NodeId) :
    SelectorList.meaning answers tree first node = SelectorList.meaning others tree second node :=
  match alike with
  | .nil => rfl
  | .cons selector further => by
      rw [SelectorList.meaning, ComplexSelector.Alike.meaning_eq tree agree selector node,
        SelectorList.Alike.meaning_eq tree agree further node, SelectorList.meaning]

end

end

variable {related : Formula → Formula → Prop}

theorem CompoundSelector.Alike.append {first second others rest : CompoundSelector}
    (left : CompoundSelector.Alike related first second)
    (right : CompoundSelector.Alike related others rest) :
    CompoundSelector.Alike related (first ++ others) (second ++ rest) := by
  induction first generalizing second with
  | nil =>
      cases left
      exact right
  | cons simple first ih =>
      cases left with
      | cons simple further => exact .cons simple (ih further)

theorem SelectorList.Alike.append {first second others rest : SelectorList}
    (left : SelectorList.Alike related first second)
    (right : SelectorList.Alike related others rest) :
    SelectorList.Alike related (first ++ others) (second ++ rest) := by
  induction first generalizing second with
  | nil =>
      cases left
      exact right
  | cons selector first ih =>
      cases left with
      | cons selector further => exact .cons selector (ih further)

end CssQuery
