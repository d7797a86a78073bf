import CssQuery.Proofs.Selector.Recognition

/-!
# Reading a group

Two texts that are read as selector lists may be written one behind the other
with a comma between them.  A comma is never part of a word, so the last token
of the first text ends where it did, whether that is space, a name or a span
with commas of its own.  What the two texts derive is derived one behind the
other, and so it is built.
-/

namespace CssQuery

/-- The text of two selector lists as one group. -/
def groupOf (first second : String) : String :=
  first ++ "," ++ second

theorem toList_groupOf (first second : String) :
    (groupOf first second).toList = first.toList ++ ',' :: second.toList := by
  simp [groupOf]

theorem SelectorToken.Lexes.append {front back : List SelectorToken} {text rest : List Char}
    (lexes : Lexes front text) (later : Lexes back rest) :
    Lexes (front ++ back) (text ++ rest) := by
  induction lexes with
  | nil => exact later
  | cons spells _ ih =>
      rw [List.append_assoc]
      exact .cons spells ih

theorem ListLayout.append {list others : List ComplexSyntax} {tokens later : List SelectorToken}
    (layout : ListLayout list tokens) (behind : ListLayout others later) :
    ListLayout (list ++ others) (tokens ++ .comma :: later) := by
  induction layout with
  | last before after links =>
      simp only [List.append_assoc]
      exact .more before after links behind
  | more before after links _ ih =>
      simp only [List.append_assoc, List.cons_append]
      exact .more before after links ih

theorem Derives.append {text rest : List Char} {list others : List ComplexSyntax}
    (derives : Derives text list) (behind : Derives rest others) :
    Derives (text ++ ',' :: rest) (list ++ others) := by
  obtain ⟨tokens, layout, lexes⟩ := derives
  obtain ⟨later, laterLayout, laterLexes⟩ := behind
  exact ⟨_, layout.append laterLayout, lexes.append (.cons .comma laterLexes)⟩

theorem ComplexSyntax.selectors_append (build : PseudoClassBuilder)
    (list others : List ComplexSyntax) :
    ComplexSyntax.selectors build (list ++ others) = do
      let front ← ComplexSyntax.selectors build list
      let back ← ComplexSyntax.selectors build others
      return front ++ back :=
  List.mapM_append

namespace EngineConfig

variable {config : EngineConfig} {first second : String}
  {cache after other behind third last : FormulaCache} {front back both : SelectorList}

/-- A group is read as its first part and then, on the same cache, its second
part. -/
theorem parse_groupOf (parseFirst : (config.parse first).runOn cache = (.ok front, after))
    (parseSecond : (config.parse second).runOn other = (.ok back, behind)) :
    config.parse (groupOf first second) = do
      let front ← config.parse first
      let back ← config.parse second
      return front ++ back := by
  rw [config.parse_eq] at parseFirst parseSecond
  obtain ⟨list, derives⟩ := exists_derives_of_parse parseFirst
  obtain ⟨others, secondDerives⟩ := exists_derives_of_parse parseSecond
  simp only [config.parse_eq, toList_groupOf]
  rw [parse_eq_of_derives _ (derives.append secondDerives), parse_eq_of_derives _ derives,
    parse_eq_of_derives _ secondDerives, ComplexSyntax.selectors_append]

/-- The specificities of the selectors in a text do not depend on the cache on
which it is read. -/
theorem specificity_parse_eq {selectors others : SelectorList}
    (parse : (config.parse first).runOn cache = (.ok selectors, after))
    (again : (config.parse first).runOn other = (.ok others, behind)) :
    selectors.map ComplexSelector.specificity = others.map ComplexSelector.specificity := by
  rw [config.parse_eq] at parse again
  obtain ⟨list, derives⟩ := exists_derives_of_parse parse
  rw [parse_eq_of_derives config.builder derives] at parse again
  exact (ComplexSyntax.specificity_selectors parse).trans
    (ComplexSyntax.specificity_selectors again).symm

theorem specificity_parse_groupOf
    (parse : (config.parse (groupOf first second)).runOn third = (.ok both, last))
    (parseFirst : (config.parse first).runOn cache = (.ok front, after))
    (parseSecond : (config.parse second).runOn other = (.ok back, behind)) :
    both.map ComplexSelector.specificity =
      front.map ComplexSelector.specificity ++ back.map ComplexSelector.specificity := by
  rw [parse_groupOf parseFirst parseSecond] at parse
  obtain ⟨frontHere, _, parseFront, rest⟩ := Compiling.runOn_bind_eq_ok.mp parse
  obtain ⟨backHere, _, parseBack, returned⟩ := Compiling.runOn_bind_eq_ok.mp rest
  cases returned
  rw [List.map_append, specificity_parse_eq parseFront parseFirst,
    specificity_parse_eq parseBack parseSecond]

end EngineConfig

end CssQuery
