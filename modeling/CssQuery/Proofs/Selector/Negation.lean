import CssQuery.Proofs.Selector.Recognition

/-!
# Reading a negation

A text that is put between `:not(` and `)` is cut out again by the scanner of
bounded spans, which knows nothing of selectors.  Where it stops earlier, the
piece that it cuts out is followed by a closing parenthesis, and no selector
list goes on with one.  So if the text and its negation can both be read, the
piece is the text, and the negation is read as that of what the text is read
as.
-/

namespace CssQuery

/-- The text of the negation of a selector list. -/
def negationOf (text : String) : String :=
  ":not(" ++ text ++ ")"

theorem toList_negationOf (text : String) :
    (negationOf text).toList = ':' :: ("not".toList ++ ('(' :: (text.toList ++ [')']))) := by
  simp [negationOf]

theorem isIdentifier_not : IsIdentifier "not".toList := rfl

/-- A text that spells one condition is read as a selector list with nothing
else in it. -/
theorem SelectorList.parse_condition (build : PseudoClassBuilder) {condition : ConditionSyntax}
    {text : List Char} (spells : condition.token.Spells text) :
    SelectorList.parse build text =
      (fun simple => [ComplexSelector.mk [simple] []]) <$> condition.selector build := by
  let compound : CompoundSyntax := ⟨none, [condition], .inr (List.cons_ne_nil _ _)⟩
  have layout : ListLayout [⟨compound, []⟩] (blanks 0 ++ (compound.tokens ++ ([] ++ blanks 0))) :=
    .last 0 0 .nil
  have lexes : SelectorToken.Lexes [condition.token] text := by
    have alone := SelectorToken.Lexes.cons spells .nil
    rwa [List.append_nil] at alone
  rw [parse_eq_of_derives build ⟨_, layout, lexes⟩]
  simp only [ComplexSyntax.selectors, ComplexSyntax.selector, CompoundSyntax.selector, compound,
    List.mapM_cons, List.mapM_nil, Option.toList_none, List.map_nil, List.nil_append, bind_assoc,
    pure_bind, map_eq_pure_bind]
  rfl

namespace EngineConfig

/-- The engine reads the argument of `:not()` as it reads any selector list. -/
theorem builder_not (config : EngineConfig) (text : String) :
    config.builder (String.ofList "not".toList) (some text.toList) =
      PseudoClass.not <$> config.parse text := by
  have enough : ((some text.toList).getD []).length ≤ text.toList.length := Nat.le_refl _
  have deeper := PseudoClass.build_eq config (Nat.le_refl _) (Nat.le_succ _)
    (String.ofList "not".toList) enough
  unfold builder pseudoClass
  rw [Option.map_some, String.ofList_toList, Option.map_some]
  exact deeper.trans rfl

theorem parse_negationOf (config : EngineConfig) {text : String}
    (span : IsSpan SelectorToken.argumentBounds text.toList) :
    config.parse (negationOf text) =
      (fun inner => [ComplexSelector.mk [.pseudoClass (.not inner)] []]) <$>
        config.parse text := by
  have spells : (ConditionSyntax.colon "not".toList (some text.toList)).token.Spells
      (negationOf text).toList := by
    rw [toList_negationOf]
    exact .call isIdentifier_not span
  rw [config.parse_eq (negationOf text), SelectorList.parse_condition _ spells,
    ConditionSyntax.selector, builder_not, bind_map_left, map_bind, map_eq_pure_bind]
  rfl

end EngineConfig

namespace SelectorToken

theorem next_closing (offset : Nat) (rest : List Char) : next offset ')' rest = (.other, 0) := rfl

theorem ends_closing (rest : List Char) : Ends (')' :: rest) := by
  refine ⟨.cons rfl _, ?_⟩
  rintro ⟨⟩

/-- What is read first of a negation is `:not` with the span that begins at
its parenthesis, if there is one. -/
theorem read_negationOf {text : String}
    (wellFormed : ∀ placed ∈ read (negationOf text).toList, placed.token.isWellFormed = true) :
    ∃ body behind others, IsSpan argumentBounds body ∧
      text.toList ++ [')'] = body ++ ')' :: behind ∧
      read (negationOf text).toList =
        ⟨0, ':', .colon "not".toList (some body)⟩ :: others := by
  have stops : Stops isIdentifierPart ('(' :: (text.toList ++ [')'])) := .cons rfl _
  have taken := Recogniser.cssIdentifier_append isIdentifier_not stops
  have first : next 0 ':' ("not".toList ++ ('(' :: (text.toList ++ [')']))) =
      pseudoClass 0 ("not".toList ++ ('(' :: (text.toList ++ [')']))) := rfl
  have opens : ('(' :: (text.toList ++ [')'])).head? = some argumentBounds.opening := rfl
  have unfolded : read (negationOf text).toList = readFrom 0 0 (negationOf text).toList := rfl
  rw [unfolded, toList_negationOf, readFrom_zero, first, pseudoClass, taken] at wellFormed ⊢
  dsimp only [Token.plain] at wellFormed ⊢
  rw [if_pos opens] at wellFormed ⊢
  cases argument : (spanPattern argumentBounds).recognise ('(' :: (text.toList ++ [')'])) with
  | none =>
      rw [argument] at wellFormed
      cases wellFormed _ List.mem_cons_self
  | some inside =>
      obtain ⟨body, behind, span, split, rfl⟩ := of_recognise_span argument
      exact ⟨body, behind, _, span, (List.cons_eq_cons.mp split).2, rfl⟩

end SelectorToken

/-- A text that can be read and whose negation can be read is a span between
parentheses. -/
theorem isSpan_of_parse {config : EngineConfig} {text : String}
    {cache after other behind : FormulaCache} {selectors negated : SelectorList}
    (parse : (config.parse text).runOn cache = (.ok selectors, after))
    (parseNegation : (config.parse (negationOf text)).runOn other = (.ok negated, behind)) :
    IsSpan SelectorToken.argumentBounds text.toList := by
  rw [config.parse_eq] at parse parseNegation
  obtain ⟨body, rest, others, span, split, read⟩ :=
    SelectorToken.read_negationOf (allows_of_parse parseNegation).1
  rcases List.eq_nil_or_concat rest with rfl | ⟨front, last, rfl⟩
  · rwa [List.append_cancel_right split]
  exfalso
  -- The span ends before the text does, so its content is a selector list in
  -- front of a closing parenthesis.
  have early : text.toList = body ++ ')' :: front := by
    have ends : text.toList ++ [')'] = (body ++ ')' :: front) ++ [last] := by
      rw [split]
      simp
    exact (List.append_inj' ends rfl).1
  obtain ⟨list, tokens, layout, lexes⟩ : ∃ list, Derives body list := by
    obtain ⟨progress, _, ran, -⟩ := Compiling.runOn_bind_eq_ok.mp parseNegation
    rw [read, List.foldlM_cons] at ran
    obtain ⟨between, _, first, -⟩ := Compiling.runOn_bind_eq_ok.mp ran
    obtain ⟨condition, _, built, -⟩ := Compiling.runOn_bind_eq_ok.mp first
    rw [← String.toList_ofList (l := body), config.builder_not] at built
    obtain ⟨inner, parseBody, -⟩ := Compiling.runOn_map_eq_ok.mp built
    rw [config.parse_eq, String.toList_ofList] at parseBody
    exact exists_derives_of_parse parseBody
  have tokensRead := lexes.read_append (SelectorToken.separated_list layout)
    (SelectorToken.ends_closing front) 0
  rw [← early, SelectorToken.readFrom_zero, SelectorToken.next_closing] at tokensRead
  have stray : SelectorToken.other ∈
      (SelectorToken.readFrom 0 0 text.toList).map Placed.token := by
    rw [tokensRead]
    simp
  obtain ⟨placed, member, token⟩ := List.mem_map.mp stray
  have wellFormed := (allows_of_parse parse).1 placed member
  rw [token] at wellFormed
  cases wellFormed

end CssQuery
