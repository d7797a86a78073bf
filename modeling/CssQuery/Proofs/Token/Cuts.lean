import CssQuery.Proofs.Token.Locality

/-!
# What a token takes

Every recogniser takes its token off the front of the text, and what the token
stands for is a stretch of the characters taken.  A token therefore never
reaches beyond the end of its text.
-/

namespace CssQuery

/-- The token takes its characters off the front of a text and stands for a
stretch of them. -/
structure Token.CutFrom (token : Token) (text : List Char) : Prop where
  text_eq : text = token.lexeme ++ token.rest
  value_infix : token.value <:+: token.lexeme

theorem Token.cutFrom_plain (lexeme rest : List Char) :
    (Token.plain lexeme rest).CutFrom (lexeme ++ rest) :=
  ⟨rfl, List.infix_refl _⟩

namespace Recogniser

/-- Whatever token the recogniser takes, it cuts it from the text. -/
def Cuts (recogniser : Recogniser) : Prop :=
  ∀ ⦃text token⦄, recogniser text = some token → token.CutFrom text

theorem character_cuts : Cuts character := by
  intro text token taken
  cases text with
  | nil => cases taken
  | cons c rest =>
      cases taken
      exact Token.cutFrom_plain [c] rest

theorem literal_cuts (expected : List Char) : Cuts (literal expected) := by
  intro text token taken
  obtain ⟨rest, rfl, rfl⟩ := of_literal taken
  exact Token.cutFrom_plain expected rest

theorem run_cuts (test : Char → Bool) : Cuts (run test) := by
  intro text token taken
  obtain ⟨word, rest, -, -, rfl, rfl⟩ := of_run taken
  exact Token.cutFrom_plain word rest

theorem name_cuts (start part : Char → Bool) : Cuts (name start part) := by
  intro text token taken
  obtain ⟨word, rest, -, rfl, rfl⟩ := of_name taken
  exact Token.cutFrom_plain word rest

theorem cssIdentifier_cuts : Cuts cssIdentifier := by
  intro text token taken
  obtain ⟨word, rest, -, rfl, rfl⟩ := of_cssIdentifier taken
  exact Token.cutFrom_plain word rest

theorem splitSign_append (text : List Char) :
    (splitSign text).1 ++ (splitSign text).2 = text := by
  unfold splitSign
  split <;> rfl

theorem splitFraction_append (text : List Char) :
    (splitFraction text).1 ++ (splitFraction text).2 = text := by
  unfold splitFraction
  split
  · rw [List.cons_append, List.takeWhile_append_dropWhile]
  · rfl

theorem decimal_cuts : Cuts decimal := by
  intro text token taken
  unfold decimal at taken
  simp only at taken
  split at taken
  case isTrue =>
    cases taken
    refine ⟨?_, List.infix_refl _⟩
    simp only [Token.plain]
    rw [List.append_assoc, splitFraction_append, List.append_assoc,
      List.takeWhile_append_dropWhile, splitSign_append]
  case isFalse => cases taken

theorem spacedDecimal_cuts : Cuts spacedDecimal := by
  intro text token taken
  exact decimal_cuts (Option.filter_eq_some_iff.mp taken).1

theorem boundedBy_cuts (bounds : Bounds) (honourQuotes : Bool) :
    Cuts (boundedBy bounds honourQuotes) := by
  intro text token taken
  cases text with
  | nil => cases taken
  | cons c text =>
      rw [boundedBy] at taken
      split at taken
      case isTrue =>
        obtain ⟨⟨content, rest⟩, found, rfl⟩ := Option.map_eq_some_iff.mp taken
        obtain ⟨rfl, -⟩ := of_splitAtClosing found
        exact ⟨by simp, [c], [bounds.closing], rfl⟩
      case isFalse => cases taken

theorem bounded_cuts (honourQuotes : Bool) : Cuts (bounded honourQuotes) := by
  intro text token taken
  cases text with
  | nil => cases taken
  | cons c rest =>
      obtain ⟨closing, -, taken⟩ := Option.bind_eq_some_iff.mp taken
      exact boundedBy_cuts _ _ taken

theorem quoted_cuts : Cuts quoted := by
  intro text token taken
  obtain ⟨quote, value, rest, -, -, rfl, rfl⟩ := of_quoted taken
  exact ⟨by simp, [quote], [quote], rfl⟩

theorem value_cuts (terminators : List Char) : Cuts (value terminators) := by
  intro text token taken
  unfold value at taken
  split at taken
  · exact quoted_cuts taken
  · exact run_cuts _ taken

end Recogniser

theorem Pattern.cuts (pattern : Pattern) : pattern.recognise.Cuts := by
  cases pattern with
  | bounded bounds honourQuotes =>
      cases bounds with
      | none => exact Recogniser.bounded_cuts honourQuotes
      | some bounds => exact Recogniser.boundedBy_cuts bounds honourQuotes
  | quoted => exact Recogniser.quoted_cuts
  | value terminators => exact Recogniser.value_cuts terminators
  | number strict =>
      cases strict with
      | false => exact Recogniser.decimal_cuts
      | true => exact Recogniser.spacedDecimal_cuts
  | cssIdentifier => exact Recogniser.cssIdentifier_cuts
  | attributeName => exact Recogniser.name_cuts _ _
  | tagName => exact Recogniser.name_cuts _ _

end CssQuery
