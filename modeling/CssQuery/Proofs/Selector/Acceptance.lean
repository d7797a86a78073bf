import CssQuery.Proofs.Formula.Running
import CssQuery.Proofs.Selector.Lexing

/-!
# Whatever the reader accepts is derivable

The reader of selector lists goes from state to state, and each state allows
the rest of the tokens to be of certain forms: the rest of a compound
selector, of a complex selector, or a complex selector that is still to begin.
Behind space both are possible, since space may separate compound selectors or
stand beside a combinator, a comma or the end.

Going back from the end of the tokens, the form that the rest has behind a
token determines the form that it has before it.  So a text that the reader
accepts has the form of the initial state, which is that of a selector list.
-/

namespace CssQuery

/-- What may follow a compound selector that is complete: further ones with
their combinators, then space, then the end or a comma and a selector list. -/
def RestOfComplex (tokens : List SelectorToken) : Prop :=
  ∃ links rest after tail, LinksLayout links rest ∧ tokens = rest ++ (blanks after ++ tail) ∧
    (tail = [] ∨ ∃ list later, ListLayout list later ∧ tail = .comma :: later)

/-- What may follow where a complex selector, or the next compound selector of
one, must begin. -/
def RestFromCompound (tokens : List SelectorToken) : Prop :=
  ∃ before compound rest, RestOfComplex rest ∧
    tokens = blanks before ++ (CompoundSyntax.tokens compound ++ rest)

/-- What may follow a compound selector that may go on. -/
def RestOfCompound (tokens : List SelectorToken) : Prop :=
  ∃ (conditions : List ConditionSyntax) (rest : List SelectorToken), RestOfComplex rest ∧
    tokens = conditions.map ConditionSyntax.token ++ rest

/-- What the rest of the tokens may be in a state of the reader. -/
def SelectorReading.Allows : SelectorReading → List SelectorToken → Prop
  | .opening, tokens => RestFromCompound tokens
  | .compound _, tokens => RestOfCompound tokens
  | .spaced _, tokens => RestOfComplex (.space :: tokens)

theorem listLayout_of_rest {tokens : List SelectorToken} (rest : RestFromCompound tokens) :
    ∃ list, ListLayout list tokens := by
  obtain ⟨before, compound, _, ⟨links, rest, after, tail, layout, rfl, ends⟩, rfl⟩ := rest
  rcases ends with rfl | ⟨list, later, others, rfl⟩
  · rw [List.append_nil]
    exact ⟨[⟨compound, links⟩], .last before after layout⟩
  · exact ⟨⟨compound, links⟩ :: list, .more before after layout others⟩

namespace RestOfComplex

theorem nil : RestOfComplex [] :=
  ⟨[], [], 0, [], .nil, rfl, .inl rfl⟩

theorem space {tokens : List SelectorToken} (rest : RestOfComplex tokens) :
    RestOfComplex (.space :: tokens) := by
  obtain ⟨links, _, after, tail, layout, rfl, ends⟩ := rest
  cases layout with
  | nil => exact ⟨[], [], after + 1, tail, .nil, rfl, ends⟩
  | @cons combinator compound links between later separator layout =>
      have spaced : combinator.Layout (.space :: between) := by
        cases separator with
        | blank more => exact .blank (more + 1)
        | symbol _ before behind => exact .symbol combinator (before + 1) behind
      exact ⟨(combinator, compound) :: links, (.space :: between) ++ (compound.tokens ++ later),
        after, tail, .cons spaced layout, rfl, ends⟩

theorem combinator {tokens : List SelectorToken} (rest : RestFromCompound tokens)
    (combinator : Combinator) : RestOfComplex (.combinator combinator :: tokens) := by
  obtain ⟨before, compound, _, ⟨links, rest, after, tail, layout, rfl, ends⟩, rfl⟩ := rest
  refine ⟨(combinator, compound) :: links,
    (blanks 0 ++ .combinator combinator :: blanks before) ++ (compound.tokens ++ rest),
    after, tail, .cons (.symbol combinator 0 before) layout, ?_, ends⟩
  simp only [blanks, List.replicate_zero, List.nil_append, List.cons_append, List.append_assoc]

theorem comma {tokens : List SelectorToken} (rest : RestFromCompound tokens) :
    RestOfComplex (.comma :: tokens) := by
  obtain ⟨list, layout⟩ := listLayout_of_rest rest
  exact ⟨[], [], 0, _, .nil, rfl, .inr ⟨list, tokens, layout, rfl⟩⟩

theorem compound {tokens : List SelectorToken} (rest : RestOfComplex tokens)
    (compound : CompoundSyntax) : RestOfComplex (.space :: (compound.tokens ++ tokens)) := by
  obtain ⟨links, rest, after, tail, layout, rfl, ends⟩ := rest
  refine ⟨(.descendant, compound) :: links, blanks 1 ++ (compound.tokens ++ rest),
    after, tail, .cons (.blank 0) layout, ?_, ends⟩
  simp only [blanks, List.replicate_one, List.cons_append, List.nil_append, List.append_assoc]

end RestOfComplex

theorem RestFromCompound.space {tokens : List SelectorToken} (rest : RestFromCompound tokens) :
    RestFromCompound (.space :: tokens) := by
  obtain ⟨before, compound, behind, rest, rfl⟩ := rest
  exact ⟨before + 1, compound, behind, rest, rfl⟩

theorem RestOfComplex.toCompound {tokens : List SelectorToken} (rest : RestOfComplex tokens) :
    RestOfCompound tokens :=
  ⟨[], tokens, rest, rfl⟩

namespace SelectorReading

theorem allows_head {reading : SelectorReading} {tokens : List SelectorToken}
    (fresh : ∀ conditions, reading ≠ .compound conditions) (head : HeadSyntax)
    (rest : RestOfCompound tokens) : reading.Allows (head.token :: tokens) := by
  obtain ⟨conditions, behind, rest, rfl⟩ := rest
  have nonempty : some head ≠ none ∨ conditions ≠ [] := .inl (Option.some_ne_none head)
  cases reading with
  | opening => exact ⟨0, ⟨some head, conditions, nonempty⟩, behind, rest, rfl⟩
  | compound conditions => exact absurd rfl (fresh conditions)
  | spaced _ => exact rest.compound ⟨some head, conditions, nonempty⟩

theorem allows_condition (reading : SelectorReading) {tokens : List SelectorToken}
    (condition : ConditionSyntax) (rest : RestOfCompound tokens) :
    reading.Allows (condition.token :: tokens) := by
  obtain ⟨conditions, behind, rest, rfl⟩ := rest
  have nonempty : (none : Option HeadSyntax) ≠ none ∨ condition :: conditions ≠ [] :=
    .inr (List.cons_ne_nil _ _)
  cases reading with
  | opening => exact ⟨0, ⟨none, condition :: conditions, nonempty⟩, behind, rest, rfl⟩
  | compound _ => exact ⟨condition :: conditions, behind, rest, rfl⟩
  | spaced _ => exact rest.compound ⟨none, condition :: conditions, nonempty⟩

end SelectorReading

namespace SelectorProgress

variable {build : PseudoClassBuilder} {progress next : SelectorProgress}
  {placed : Placed SelectorToken} {cache after : FormulaCache} {tokens : List SelectorToken}

theorem reading_addCondition (progress : SelectorProgress) (condition : SimpleSelector) :
    ∃ conditions, (progress.addCondition condition).reading = .compound conditions := by
  unfold addCondition
  cases progress.reading <;> exact ⟨_, rfl⟩

theorem restOfCompound_of_addCondition {condition : SimpleSelector}
    (allows : (progress.addCondition condition).reading.Allows tokens) :
    RestOfCompound tokens := by
  obtain ⟨conditions, reading⟩ := progress.reading_addCondition condition
  rw [reading] at allows
  exact allows

theorem beginWith_eq_ok {condition : SimpleSelector}
    (read : (progress.beginWith placed condition).runOn cache = (.ok next, after)) :
    (∀ conditions, progress.reading ≠ .compound conditions) ∧
      next = progress.addCondition condition := by
  unfold beginWith at read
  cases state : progress.reading with
  | compound conditions =>
      rw [state] at read
      cases read
  | opening =>
      rw [state] at read
      cases read
      exact ⟨fun _ => nofun, rfl⟩
  | spaced conditions =>
      rw [state] at read
      cases read
      exact ⟨fun _ => nofun, rfl⟩

/-- The form of the rest behind a token determines that before it. -/
theorem allows_of_readToken
    (read : (progress.readToken build placed).runOn cache = (.ok next, after))
    (allows : next.reading.Allows tokens) :
    progress.reading.Allows (placed.token :: tokens) := by
  unfold readToken at read
  cases token : placed.token with
  | space =>
      rw [token] at read
      cases state : progress.reading with
      | opening =>
          simp only [state] at read
          cases read
          rw [state] at allows
          exact RestFromCompound.space allows
      | compound conditions =>
          simp only [state] at read
          cases read
          exact RestOfComplex.toCompound allows
      | spaced conditions =>
          simp only [state] at read
          cases read
          rw [state] at allows
          exact RestOfComplex.space allows
  | combinator combinator =>
      rw [token] at read
      cases state : progress.reading with
      | opening =>
          simp only [state] at read
          cases read
      | compound conditions =>
          simp only [state] at read
          cases read
          exact (RestOfComplex.combinator allows combinator).toCompound
      | spaced conditions =>
          simp only [state] at read
          cases read
          exact (RestOfComplex.combinator allows combinator).space
  | comma =>
      rw [token] at read
      cases state : progress.reading with
      | opening =>
          simp only [state] at read
          cases read
      | compound conditions =>
          simp only [state] at read
          cases read
          exact (RestOfComplex.comma allows).toCompound
      | spaced conditions =>
          simp only [state] at read
          cases read
          exact (RestOfComplex.comma allows).space
  | star =>
      rw [token] at read
      obtain ⟨fresh, rfl⟩ := beginWith_eq_ok read
      exact SelectorReading.allows_head fresh .star (restOfCompound_of_addCondition allows)
  | name word =>
      rw [token] at read
      obtain ⟨fresh, rfl⟩ := beginWith_eq_ok read
      exact SelectorReading.allows_head fresh (.name word) (restOfCompound_of_addCondition allows)
  | hash word =>
      rw [token] at read
      cases read
      exact progress.reading.allows_condition (.hash word) (restOfCompound_of_addCondition allows)
  | dot word =>
      rw [token] at read
      cases read
      exact progress.reading.allows_condition (.dot word) (restOfCompound_of_addCondition allows)
  | brackets body =>
      rw [token] at read
      obtain ⟨condition, _, -, added⟩ := Compiling.runOn_bind_eq_ok.mp read
      cases added
      exact progress.reading.allows_condition (.brackets body)
        (restOfCompound_of_addCondition allows)
  | colon word argument =>
      rw [token] at read
      obtain ⟨condition, _, -, added⟩ := Compiling.runOn_bind_eq_ok.mp read
      cases added
      exact progress.reading.allows_condition (.colon word argument)
        (restOfCompound_of_addCondition allows)
  | broken error =>
      rw [token] at read
      cases read
  | other =>
      rw [token] at read
      cases read

theorem isWellFormed_of_readToken
    (read : (progress.readToken build placed).runOn cache = (.ok next, after)) :
    placed.token.isWellFormed = true := by
  unfold readToken at read
  cases token : placed.token with
  | broken error =>
      rw [token] at read
      cases read
  | other =>
      rw [token] at read
      cases read
  | _ => rfl

/-- At the end a compound selector must have been read. -/
theorem allows_of_finish {length : Nat} {selectors : SelectorList}
    (finished : progress.finish length = .ok selectors) : progress.reading.Allows [] := by
  unfold finish at finished
  cases state : progress.reading with
  | opening =>
      rw [state] at finished
      dsimp only at finished
      split at finished <;> cases finished
  | compound conditions => exact RestOfComplex.nil.toCompound
  | spaced conditions => exact RestOfComplex.nil.space

/-- Tokens over which the reader goes without an error are well formed, and
the state before them allows them. -/
theorem allows_of_foldlM {list : List (Placed SelectorToken)}
    (read : (list.foldlM (readToken build) progress).runOn cache = (.ok next, after))
    (allows : next.reading.Allows tokens) :
    (∀ placed ∈ list, placed.token.isWellFormed = true) ∧
      progress.reading.Allows (list.map Placed.token ++ tokens) := by
  induction list generalizing progress cache with
  | nil =>
      cases read
      exact ⟨fun _ member => (nomatch member), allows⟩
  | cons placed list ih =>
      rw [List.foldlM_cons] at read
      obtain ⟨between, middle, first, later⟩ := Compiling.runOn_bind_eq_ok.mp read
      obtain ⟨wellFormed, behind⟩ := ih later
      refine ⟨?_, allows_of_readToken first behind⟩
      intro other member
      rcases List.mem_cons.mp member with rfl | member
      · exact isWellFormed_of_readToken first
      · exact wellFormed other member

end SelectorProgress

section Parse

variable {build : PseudoClassBuilder} {text : List Char} {cache after : FormulaCache}
  {selectors : SelectorList}

/-- A text that the reader accepts has well-formed tokens in an order that the
initial state allows. -/
theorem allows_of_parse
    (parse : (SelectorList.parse build text).runOn cache = (.ok selectors, after)) :
    (∀ placed ∈ SelectorToken.read text, placed.token.isWellFormed = true) ∧
      RestFromCompound ((SelectorToken.read text).map Placed.token) := by
  obtain ⟨progress, middle, read, finished⟩ := Compiling.runOn_bind_eq_ok.mp parse
  have finished : progress.finish text.length = .ok selectors :=
    congrArg Prod.fst finished
  obtain ⟨wellFormed, allows⟩ := SelectorProgress.allows_of_foldlM read
    (SelectorProgress.allows_of_finish finished)
  rw [List.append_nil] at allows
  exact ⟨wellFormed, allows⟩

/-- A text that the reader accepts is one way to write a selector list. -/
theorem exists_derives_of_parse
    (parse : (SelectorList.parse build text).runOn cache = (.ok selectors, after)) :
    ∃ list, Derives text list := by
  obtain ⟨wellFormed, allows⟩ := allows_of_parse parse
  obtain ⟨list, layout⟩ := listLayout_of_rest allows
  exact ⟨list, _, layout, SelectorToken.lexes_of_read wellFormed⟩

end Parse

end CssQuery
