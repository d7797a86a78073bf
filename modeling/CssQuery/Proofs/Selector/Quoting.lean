import CssQuery.Proofs.PseudoClass.SearchArgument
import CssQuery.Proofs.Selector.Negation
import CssQuery.Proofs.Token.Balanced

/-!
# Quoted values are inert

A value between quotes may hold every character but its quote.  The scanner
of brackets, the scanner of parentheses and the readers of attribute selectors
and search texts each stop at that quote and nowhere else, so the value is
read as it was written, at every depth of nested negations.
-/

namespace CssQuery

section Texts

def quotedText (quote : Char) (value : String) : String :=
  String.singleton quote ++ value ++ String.singleton quote

/-- What stands between the brackets of an attribute selector with a value. -/
def comparisonText (name : String) (operator : AttributeOperator) (quote : Char)
    (value : String) : String :=
  name ++ operator.symbol ++ quotedText quote value

def attributeText (name : String) (operator : AttributeOperator) (quote : Char)
    (value : String) : String :=
  "[" ++ comparisonText name operator quote value ++ "]"

def containsText (quote : Char) (value : String) : String :=
  ":contains(" ++ quotedText quote value ++ ")"

/-- A text behind a number of `:not(` and in front of as many `)`. -/
def negatedText (depth : Nat) (text : String) : String :=
  String.join (List.replicate depth ":not(") ++ text ++ String.join (List.replicate depth ")")

/-- A condition inside a number of nested negations. -/
def SimpleSelector.negated : (depth : Nat) → SimpleSelector → SimpleSelector
  | 0, simple => simple
  | depth + 1, simple => .pseudoClass (.not [.mk [negated depth simple] []])

theorem toList_quotedText (quote : Char) (value : String) :
    (quotedText quote value).toList = quote :: value.toList ++ [quote] := by
  simp [quotedText]

theorem toList_comparisonText (name : String) (operator : AttributeOperator) (quote : Char)
    (value : String) :
    (comparisonText name operator quote value).toList =
      name.toList ++ (operator.symbol.toList ++ (quotedText quote value).toList) := by
  simp [comparisonText]

theorem toList_attributeText (name : String) (operator : AttributeOperator) (quote : Char)
    (value : String) :
    (attributeText name operator quote value).toList =
      '[' :: (comparisonText name operator quote value).toList ++ [']'] := by
  simp [attributeText]

theorem toList_containsText (quote : Char) (value : String) :
    (containsText quote value).toList =
      ':' :: "contains".toList ++ ('(' :: (quotedText quote value).toList ++ [')']) := by
  simp [containsText]

theorem negatedText_zero (text : String) : negatedText 0 text = text := by
  simp [negatedText]

theorem negatedText_succ (depth : Nat) (text : String) :
    negatedText (depth + 1) text = negationOf (negatedText depth text) := by
  have opened : String.join (List.replicate (depth + 1) ":not(") =
      ":not(" ++ String.join (List.replicate depth ":not(") := by
    rw [List.replicate_succ, String.join_cons]
  have closed : String.join (List.replicate (depth + 1) ")") =
      String.join (List.replicate depth ")") ++ ")" := by
    rw [List.replicate_succ', String.join_append, String.join_cons, String.join_nil,
      String.append_empty]
  simp only [negatedText, negationOf, opened, closed, String.append_assoc]

end Texts

section Reading

theorem TextSearch.parseArgument_quotedText {quote : Char} (quotes : isQuote quote = true)
    {value : String} (inert : quote ∉ value.toList) :
    parseArgument (quotedText quote value).toList = .ok value.toList := by
  have spells := Spells.quoted .nil quotes inert .nil
  rw [List.nil_append, List.append_nil, ← toList_quotedText] at spells
  exact parseArgument_eq_ok_iff.mpr spells

/-- A comparison without any space is one way to write the attribute selector. -/
theorem AttributeSelector.parse_comparisonText {name : String}
    (whole : Recogniser.attributeName name.toList = some (.plain name.toList []))
    (operator : AttributeOperator) {quote : Char} (quotes : isQuote quote = true)
    {value : String} (inert : quote ∉ value.toList) :
    parse (comparisonText name operator quote value).toList =
      .ok (.compare operator name value) := by
  have writes : Writes (.compare operator name value) _ :=
    .compare .nil (Recogniser.name_whole_iff.mp whole) .nil .nil (.quoted quotes inert) .nil
  simp only [List.nil_append, List.append_nil, ← toList_quotedText,
    ← toList_comparisonText] at writes
  exact parse_of_writes writes

end Reading

section Spans

open SelectorToken

variable {bounds : Bounds} {quote : Char} (quotes : isQuote quote = true) {value : String}
  (inert : quote ∉ value.toList)

theorem areBrackets_bracketBounds : bracketBounds.AreBrackets := ⟨by decide, rfl, rfl⟩

theorem areBrackets_argumentBounds : argumentBounds.AreBrackets := ⟨by decide, rfl, rfl⟩

/-- Names have neither brackets nor quotes in them. -/
theorem balanced_of_isMarkupNamePart (either : bounds = bracketBounds ∨ bounds = argumentBounds)
    {name : List Char} (parts : ∀ c ∈ name, isMarkupNamePart c = true) :
    Balanced bounds name := by
  apply Balanced.of_all_plain
  rw [List.all_eq_true]
  intro c member
  have part := parts c member
  have differs : ∀ mark, isMarkupNamePart mark = false → (c != mark) = true := by
    intro mark notPart
    rw [bne_iff_ne]
    rintro rfl
    rw [notPart] at part
    cases part
  have notQuote : isQuote c = false := by
    rw [Bool.eq_false_iff]
    intro quotes
    rcases isQuote_cases quotes with rfl | rfl <;> cases part
  rcases either with rfl | rfl <;>
    rw [Bounds.leavesPlain, differs _ rfl, differs _ rfl, notQuote] <;> rfl

theorem balanced_attributeName (either : bounds = bracketBounds ∨ bounds = argumentBounds)
    {name : String}
    (whole : Recogniser.attributeName name.toList = some (.plain name.toList [])) :
    Balanced bounds name.toList := by
  have isName : IsAttributeName name.toList := Recogniser.name_whole_iff.mp whole
  exact balanced_of_isMarkupNamePart either fun _ => isName.isMarkupNamePart_of_mem

theorem balanced_symbol (either : bounds = bracketBounds ∨ bounds = argumentBounds)
    (operator : AttributeOperator) : Balanced bounds operator.symbol.toList := by
  apply Balanced.of_all_plain
  rcases either with rfl | rfl <;> cases operator <;> rfl

include quotes inert

theorem balanced_quotedText : Balanced bounds (quotedText quote value).toList := by
  rw [toList_quotedText]
  exact .quoted quotes inert

theorem balanced_comparisonText (either : bounds = bracketBounds ∨ bounds = argumentBounds)
    {name : String} (whole : Recogniser.attributeName name.toList = some (.plain name.toList []))
    (operator : AttributeOperator) :
    Balanced bounds (comparisonText name operator quote value).toList := by
  have behind := (balanced_symbol either operator).append (balanced_quotedText quotes inert)
  rw [toList_comparisonText]
  exact (balanced_attributeName either whole).append behind

theorem balanced_attributeText {name : String}
    (whole : Recogniser.attributeName name.toList = some (.plain name.toList []))
    (operator : AttributeOperator) :
    Balanced argumentBounds (attributeText name operator quote value).toList := by
  have opening : Balanced argumentBounds ['['] := .plain (by decide) (by decide) rfl
  have inside := balanced_comparisonText quotes inert (.inr rfl) whole operator
  have closing : Balanced argumentBounds [']'] := .plain (by decide) (by decide) rfl
  rw [toList_attributeText]
  exact (opening.append inside).append closing

theorem balanced_containsText :
    Balanced argumentBounds (containsText quote value).toList := by
  rw [toList_containsText]
  exact .append (.of_all_plain rfl) (.nested (balanced_quotedText quotes inert))

omit quotes inert

theorem balanced_negatedText {text : String} (balanced : Balanced argumentBounds text.toList)
    (depth : Nat) : Balanced argumentBounds (negatedText depth text).toList := by
  induction depth with
  | zero => rwa [negatedText_zero]
  | succ depth ih =>
      have front : Balanced argumentBounds (':' :: "not".toList) := .of_all_plain rfl
      have both := front.append (.nested ih)
      rw [negatedText_succ, toList_negationOf]
      exact both

end Spans

namespace EngineConfig

variable (config : EngineConfig)

theorem parse_negatedText {text : String}
    (balanced : Balanced SelectorToken.argumentBounds text.toList) {simple : SimpleSelector}
    (parse : config.parse text = pure [.mk [simple] []]) (depth : Nat) :
    config.parse (negatedText depth text) = pure [.mk [simple.negated depth] []] := by
  induction depth with
  | zero =>
      rw [negatedText_zero]
      exact parse
  | succ depth ih =>
      have span := (balanced_negatedText balanced depth).isSpan areBrackets_argumentBounds
      rw [negatedText_succ, config.parse_negationOf span, ih, map_pure]
      rfl

theorem builder_contains (argument : List Char) :
    config.builder (String.ofList "contains".toList) (some argument) =
      PseudoClass.contains argument config.caseSensitiveContains := by
  rw [builder, String.ofList_toList, Option.map_some, pseudoClass_contains,
    String.toList_ofList]

/-- A balanced text between brackets is read as the attribute selector that is
written in it. -/
theorem parse_bracketText {text : String} {body : List Char} {condition : AttributeSelector}
    (spelled : text.toList = '[' :: body ++ [']'])
    (balanced : Balanced SelectorToken.bracketBounds body)
    (parse : AttributeSelector.parse body = .ok condition) :
    config.parse text = pure [.mk [.hasAttribute condition] []] := by
  have span := balanced.isSpan areBrackets_bracketBounds
  have spells : (ConditionSyntax.brackets body).token.Spells text.toList := by
    rw [spelled]
    exact .brackets span
  rw [config.parse_eq, SelectorList.parse_condition _ spells, ConditionSyntax.selector, parse]
  rfl

variable {quote : Char} (quotes : isQuote quote = true) {value : String}
  (inert : quote ∉ value.toList)

include quotes inert

theorem parse_attributeText {name : String}
    (whole : Recogniser.attributeName name.toList = some (.plain name.toList []))
    (operator : AttributeOperator) :
    config.parse (attributeText name operator quote value) =
      pure [.mk [.hasAttribute (.compare operator name value)] []] :=
  config.parse_bracketText (toList_attributeText name operator quote value)
    (balanced_comparisonText quotes inert (.inl rfl) whole operator)
    (AttributeSelector.parse_comparisonText whole operator quotes inert)

theorem parse_containsText :
    config.parse (containsText quote value) =
      pure [.mk [.pseudoClass (.test (.contains
        (.ofText value config.caseSensitiveContains)))] []] := by
  have spells : (ConditionSyntax.colon "contains".toList
      (some (quotedText quote value).toList)).token.Spells
        (containsText quote value).toList := by
    rw [toList_containsText]
    exact .call rfl ((balanced_quotedText quotes inert).isSpan areBrackets_argumentBounds)
  rw [config.parse_eq, SelectorList.parse_condition _ spells, ConditionSyntax.selector,
    builder_contains, PseudoClass.contains, TextSearch.parseArgument_quotedText quotes inert,
    Except.map, String.ofList_toList]
  rfl

/-- Inside any number of negations, an attribute selector with a quoted value
is read as the comparison with just that value, and `:contains()` with a quoted
text as the search for just that text.  Nothing else is read, no error is
raised and the formula cache is not touched. -/
theorem parse_quoted_inside_negations (depth : Nat) :
    (∀ (name : String) (operator : AttributeOperator),
      Recogniser.attributeName name.toList = some (.plain name.toList []) →
        config.parse (negatedText depth (attributeText name operator quote value)) =
          pure [.mk [.negated depth (.hasAttribute (.compare operator name value))] []]) ∧
    (config.caseSensitiveContains = true →
      config.parse (negatedText depth (containsText quote value)) =
        pure [.mk [.negated depth (.pseudoClass (.test (.contains ⟨value, true⟩)))] []]) := by
  refine ⟨?_, ?_⟩
  · intro name operator whole
    exact config.parse_negatedText (balanced_attributeText quotes inert whole operator)
      (config.parse_attributeText quotes inert whole operator) depth
  · intro sensitive
    have parse := config.parse_containsText quotes inert
    rw [sensitive] at parse
    exact config.parse_negatedText (balanced_containsText quotes inert) parse depth

omit quotes inert

/-- A value with brackets, parentheses and the other quote, two negations
deep. -/
theorem parse_brackets_inside_two_negations :
    ({} : EngineConfig).parse ":not(:not([data-x|=\"a)](\x27,\"]))" =
      pure [.mk [.pseudoClass (.not [.mk [.pseudoClass (.not
        [.mk [.hasAttribute (.compare .dash "data-x" "a)](\x27,")] []])] []])] []] ∧
    ({} : EngineConfig).parse ":not(:not(:contains(\"a)](\x27,\")))" =
      pure [.mk [.pseudoClass (.not [.mk [.pseudoClass (.not
        [.mk [.pseudoClass (.test (.contains ⟨"a)](\x27,", true⟩))] []])] []])] []] := by
  have quotes : isQuote '\x22' = true := by decide
  have inert : '\x22' ∉ "a)](\x27,".toList := by decide
  obtain ⟨compares, contains⟩ := parse_quoted_inside_negations {} quotes inert 2
  exact ⟨compares "data-x" .dash (by decide), contains rfl⟩

end EngineConfig

end CssQuery
