import CssQuery.Proofs.Engine.Selection
import CssQuery.Proofs.Selector.Comparison

/-!
# Marks and attributes

A class or an identifier behind its mark is read by the scanner of words; in
an attribute selector the same word is first a part of a bracketed span and
then a value without quotes.  An identifier has no brackets, quotes or space
in it, so both ways lead to one condition on an element.

A text with a single condition that is no pseudo-class selects the elements
with this condition.  What is known of the comparisons of attribute values
therefore holds of the texts in which they are written.
-/

namespace CssQuery

/-- The elements below a root that pass a test of their data. -/
def Tree.elementsWith (tree : Tree) (root : NodeId) (test : Element → Bool) : List NodeId :=
  (tree.elementsBelow root).filter fun node => (tree.element? node).any test

theorem SelectorList.meaning_single (answers : FormulaAnswers) (tree : Tree)
    {simple : SimpleSelector} (plain : simple.isPseudoClass = false) :
    SelectorList.meaning answers tree [.mk [simple] []] = fun node =>
      (tree.element? node).any fun element => simple.holdsPlainly element := by
  funext node
  simp only [SelectorList.meaning, ComplexSelector.meaning, CompoundSelector.meaning,
    ComplexSelector.chainMeaning, Bool.and_true, Bool.or_false]
  cases found : tree.element? node with
  | none => rw [Tree.isElement_eq_false found, Bool.false_and, Option.any_none]
  | some element =>
      rw [Tree.isElement_of_element? found, SimpleSelector.meaning_plain answers found plain,
        Bool.true_and, Option.any_some]

/-- An identifier can be written as a value without quotes. -/
theorem SpellsValue.of_isIdentifier {word : List Char} (identifier : IsIdentifier word) :
    SpellsValue word word := by
  have unbroken : ∀ c ∈ word, isSpace c = false := by
    intro c member
    have part := Recogniser.isIdentifierPart_of_mem identifier member
    rw [Bool.eq_false_iff]
    intro space
    rw [SelectorToken.not_isIdentifierPart_of_isSpace space] at part
    cases part
  obtain ⟨first, tail, rfl, starts⟩ := Recogniser.head_of_isIdentifier identifier
  have plain : isQuote first = false := by
    rw [Bool.eq_false_iff]
    intro quotes
    rcases isQuote_cases quotes with rfl | rfl <;>
      rcases starts with starts | starts <;> cases starts
  exact .bare plain unbroken

namespace EngineConfig

variable (config : EngineConfig) {word : String} (identifier : IsIdentifier word.toList)

section Reading

include identifier

theorem parse_dotText : config.parse ("." ++ word) = pure [.mk [.hasClass word] []] := by
  have spells : (ConditionSyntax.dot word.toList).token.Spells ("." ++ word).toList := by
    rw [String.toList_append]
    exact .dot identifier
  rw [config.parse_eq, SelectorList.parse_condition _ spells, ConditionSyntax.selector,
    String.ofList_toList, map_pure]

theorem parse_hashText : config.parse ("#" ++ word) = pure [.mk [.hasId word] []] := by
  have spells : (ConditionSyntax.hash word.toList).token.Spells ("#" ++ word).toList := by
    rw [String.toList_append]
    exact .hash identifier
  rw [config.parse_eq, SelectorList.parse_condition _ spells, ConditionSyntax.selector,
    String.ofList_toList, map_pure]

/-- The value of an attribute selector may be an identifier without quotes. -/
theorem parse_bareText {text name : String} (operator : AttributeOperator)
    (whole : Recogniser.attributeName name.toList = some (.plain name.toList []))
    (spelled : text.toList =
      '[' :: (name.toList ++ (operator.symbol.toList ++ word.toList)) ++ [']']) :
    config.parse text = pure [.mk [.hasAttribute (.compare operator name word)] []] := by
  have parts : ∀ c ∈ word.toList, isMarkupNamePart c = true := by
    intro c member
    simp [isMarkupNamePart, Recogniser.isIdentifierPart_of_mem identifier member]
  have value : Balanced SelectorToken.bracketBounds word.toList :=
    balanced_of_isMarkupNamePart (.inl rfl) parts
  have balanced := (balanced_attributeName (.inl rfl) whole).append
    ((balanced_symbol (.inl rfl) operator).append value)
  have writes : AttributeSelector.Writes (.compare operator name word) _ :=
    .compare .nil (Recogniser.name_whole_iff.mp whole) .nil .nil
      (.of_isIdentifier identifier) .nil
  simp only [List.nil_append, List.append_nil] at writes
  exact config.parse_bracketText spelled balanced (AttributeSelector.parse_of_writes writes)

end Reading

theorem selects_of_parse_plain {text : String} {simple : SimpleSelector}
    (plain : simple.isPseudoClass = false)
    (parse : config.parse text = pure [.mk [simple] []]) (tree : Tree) (root : NodeId) :
    config.Selects tree root text
      (tree.elementsWith root fun element => simple.holdsPlainly element) := by
  have sound := FormulaCache.Sound.empty none
  have parsed : (config.parse text).runOn (.empty none) =
      (.ok [ComplexSelector.mk [simple] []], .empty none) := by
    rw [parse]
    rfl
  have selects := selects_of_parse sound parsed tree root
  rwa [SelectorList.meaning_single _ tree plain] at selects

/-- Two texts whose conditions hold of the same elements select the same. -/
theorem selects_alike {first second : String} {simple other : SimpleSelector}
    (plain : simple.isPseudoClass = false) (otherPlain : other.isPseudoClass = false)
    (same : ∀ element, simple.holdsPlainly element = other.holdsPlainly element)
    (parseFirst : config.parse first = pure [.mk [simple] []])
    (parseSecond : config.parse second = pure [.mk [other] []]) (tree : Tree) (root : NodeId) :
    config.Selects tree root first
        (tree.elementsWith root fun element => simple.holdsPlainly element) ∧
      config.Selects tree root second
        (tree.elementsWith root fun element => simple.holdsPlainly element) := by
  have selectsSecond := config.selects_of_parse_plain otherPlain parseSecond tree root
  simp only [← same] at selectsSecond
  exact ⟨config.selects_of_parse_plain plain parseFirst tree root, selectsSecond⟩

include identifier in
/-- A class behind its mark and as a word of the attribute. -/
theorem selects_class (tree : Tree) (root : NodeId) :
    config.Selects tree root ("." ++ word)
        (tree.elementsWith root fun element => element.classNames.contains word) ∧
      config.Selects tree root ("[class~=" ++ word ++ "]")
        (tree.elementsWith root fun element => element.classNames.contains word) := by
  have spelled : ("[class~=" ++ word ++ "]").toList =
      '[' :: ("class".toList ++ (AttributeOperator.word.symbol.toList ++ word.toList)) ++ [']'] := by
    simp [AttributeOperator.symbol]
  exact config.selects_alike rfl rfl (SimpleSelector.holdsPlainly_hasClass · word)
    (config.parse_dotText identifier) (config.parse_bareText identifier .word rfl spelled) tree root

include identifier in
/-- An identifier behind its mark and as the attribute's value. -/
theorem selects_identifier (tree : Tree) (root : NodeId) :
    config.Selects tree root ("#" ++ word)
        (tree.elementsWith root fun element => element.identifier? == some word) ∧
      config.Selects tree root ("[id=" ++ word ++ "]")
        (tree.elementsWith root fun element => element.identifier? == some word) := by
  have spelled : ("[id=" ++ word ++ "]").toList =
      '[' :: ("id".toList ++ (AttributeOperator.equal.symbol.toList ++ word.toList)) ++ [']'] := by
    simp [AttributeOperator.symbol]
  exact config.selects_alike rfl rfl (SimpleSelector.holdsPlainly_hasId · word)
    (config.parse_hashText identifier) (config.parse_bareText identifier .equal rfl spelled)
    tree root

/-- For every identifier, class and `class` attribute select the same elements,
and so do identifier and `id` attribute.  A comparison with a quoted value
selects the elements for which it holds; and for every element, attribute and
value the answers of the comparisons belong together. -/
theorem shorthand_and_comparisons (tree : Tree) (root : NodeId) :
    (∀ word : String, IsIdentifier word.toList →
      (config.Selects tree root ("." ++ word)
          (tree.elementsWith root fun element => element.classNames.contains word) ∧
        config.Selects tree root ("[class~=" ++ word ++ "]")
          (tree.elementsWith root fun element => element.classNames.contains word)) ∧
      config.Selects tree root ("#" ++ word)
          (tree.elementsWith root fun element => element.identifier? == some word) ∧
        config.Selects tree root ("[id=" ++ word ++ "]")
          (tree.elementsWith root fun element => element.identifier? == some word)) ∧
    ∀ name value : String,
      (∀ operator quote, Recogniser.attributeName name.toList = some (.plain name.toList []) →
        isQuote quote = true → quote ∉ value.toList →
          config.Selects tree root (attributeText name operator quote value)
            (tree.elementsWith root (AttributeSelector.compare operator name value).holds)) ∧
      ∀ element, ComparisonsAgree (fun operator value =>
        (AttributeSelector.compare operator name value).holds element = true) value := by
  refine ⟨?_, ?_⟩
  · intro word identifier
    exact ⟨config.selects_class identifier tree root,
      config.selects_identifier identifier tree root⟩
  · intro name value
    refine ⟨?_, fun element => AttributeSelector.comparisonsAgree element name value⟩
    intro operator quote whole quotes inert
    exact config.selects_of_parse_plain rfl
      (config.parse_attributeText quotes inert whole operator) tree root

/-- Identifiers with a hyphen in front and beyond ASCII, a class among others
and a value with a bracket in it. -/
theorem select_hyphened_class :
    ∃ tree : Tree, (tree.element? 1).map Element.attributes =
        some [("class", "nav -x"), ("id", "café"), ("title", "a]-b")] ∧
      ({} : EngineConfig).Selects tree 0 ".-x" [1] ∧
      ({} : EngineConfig).Selects tree 0 "[class~=-x]" [1] ∧
      ({} : EngineConfig).Selects tree 0 "#café" [1] ∧
      ({} : EngineConfig).Selects tree 0 "[id=café]" [1] ∧
      ({} : EngineConfig).Selects tree 0 "[title|=\"a]\"]" [1] ∧
      ({} : EngineConfig).Selects tree 0 "[title^=\"a]-\"]" [1] := by
  let tree := ((Tree.empty.perform (.createElement "div"
    [("class", "nav -x"), ("id", "café"), ("title", "a]-b")])).2.perform (.appendChild 0 1)).2
  have classed : tree.elementsWith 0 (fun element => element.classNames.contains "-x") = [1] := by
    decide +kernel
  have identified : tree.elementsWith 0 (fun element => element.identifier? == some "café") =
      [1] := by
    decide +kernel
  have dashed : tree.elementsWith 0 (AttributeSelector.compare .dash "title" "a]").holds =
      [1] := by
    decide +kernel
  have starting : tree.elementsWith 0 (AttributeSelector.compare .start "title" "a]-").holds =
      [1] := by
    decide +kernel
  obtain ⟨shorthand, comparisons⟩ := shorthand_and_comparisons {} tree 0
  obtain ⟨⟨dot, word⟩, -⟩ := shorthand "-x" rfl
  obtain ⟨-, hash, value⟩ := shorthand "café" rfl
  have dash := (comparisons "title" "a]").1 .dash '\x22' (by decide) (by decide) (by decide)
  have start := (comparisons "title" "a]-").1 .start '\x22' (by decide) (by decide) (by decide)
  rw [classed] at dot word
  rw [identified] at hash value
  rw [dashed] at dash
  rw [starting] at start
  exact ⟨tree, by decide +kernel, dot, word, hash, value, dash, start⟩

end EngineConfig

end CssQuery
