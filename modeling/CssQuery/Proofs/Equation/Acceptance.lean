import CssQuery.Proofs.Equation.Reading
import CssQuery.Proofs.Equation.Sums

/-!
# Accepted formulas

A text is accepted when the grammar derives it and its numbers are in the
range.  The equation is then the sum of the terms of any derivation, and its
variables are the runs of letters of the text.
-/

namespace CssQuery

/-- The letters of the variable. -/
def Term.letters? (term : Term) : Option (List Char) :=
  term.variableName.map String.toList

theorem Sign.letters?_token (sign : Sign) : sign.token.letters? = none := by
  cases sign <;> rfl

theorem Sign.token_ne_other (sign : Sign) : sign.token ≠ .other := by
  cases sign <;> exact nofun

namespace TermSyntax

theorem letters_tokens (written : TermSyntax) (sign : Int) :
    written.tokens.filterMap FormulaToken.letters? =
      [written.term sign].filterMap Term.letters? := by
  cases written with
  | number digits => rfl
  | word letters => simp [tokens, term, FormulaToken.letters?, Term.letters?]
  | multiple digits isStarred letters =>
      cases isStarred <;>
        simp [tokens, term, List.filterMap_cons, FormulaToken.letters?, Term.letters?]

theorem letters_row (row : List (Sign × TermSyntax)) :
    (rowTokens row).filterMap FormulaToken.letters? =
      (rowTerms row).filterMap Term.letters? := by
  induction row with
  | nil => rfl
  | cons signed row ih =>
      obtain ⟨sign, written⟩ := signed
      rw [rowTokens_cons, List.filterMap_cons_none sign.letters?_token, List.filterMap_append, ih,
        written.letters_tokens sign.value, ← List.filterMap_append]
      rfl

theorem tokens_ne_other (written : TermSyntax) : ∀ token ∈ written.tokens, token ≠ .other := by
  cases written with
  | number | word => simp [tokens]
  | multiple digits isStarred letters => cases isStarred <;> simp [tokens]

theorem rowTokens_ne_other (row : List (Sign × TermSyntax)) :
    ∀ token ∈ rowTokens row, token ≠ .other := by
  intro token member
  obtain ⟨⟨sign, written⟩, -, inside⟩ := List.mem_flatMap.mp member
  rcases List.mem_cons.mp inside with rfl | inside
  · exact sign.token_ne_other
  · exact written.tokens_ne_other token inside

end TermSyntax

namespace FormulaSyntax

variable {formula : FormulaSyntax} {text : List Char}

/-- The runs of letters are the variables of the terms, one by one. -/
theorem letters_tokens (formula : FormulaSyntax) :
    formula.tokens.filterMap FormulaToken.letters? =
      formula.terms.filterMap Term.letters? := by
  obtain ⟨sign, first, others⟩ := formula
  have unsigned : (first.tokens ++ TermSyntax.rowTokens others).filterMap FormulaToken.letters? =
      (first.term (sign.getD .plus).value :: TermSyntax.rowTerms others).filterMap
        Term.letters? := by
    rw [List.filterMap_append, first.letters_tokens (sign.getD .plus).value,
      TermSyntax.letters_row, ← List.filterMap_append]
    rfl
  cases sign with
  | none => exact unsigned
  | some sign => exact (List.filterMap_cons_none sign.letters?_token).trans unsigned

theorem tokens_ne_other (formula : FormulaSyntax) : ∀ token ∈ formula.tokens, token ≠ .other := by
  intro token member
  rcases List.mem_append.mp member with inSign | member
  · obtain ⟨sign, -, rfl⟩ := List.mem_map.mp inSign
    exact sign.token_ne_other
  · rcases List.mem_append.mp member with inFirst | inRow
    · exact formula.first.tokens_ne_other token inFirst
    · exact TermSyntax.rowTokens_ne_other formula.others token inRow

/-- The derivations of a text are those of the tokens that are read from it. -/
theorem spells_iff :
    formula.Spells text ↔ (FormulaToken.read text).map Placed.token = formula.tokens := by
  constructor
  · intro spells
    exact spells.read_eq formula.separated_tokens 0
  · intro read
    have writes : FormulaToken.Writes ((FormulaToken.read text).map Placed.token) text := by
      refine FormulaToken.writes_of_read fun placed member => ?_
      refine formula.tokens_ne_other placed.token ?_
      rw [← read]
      exact List.mem_map_of_mem member
    rw [read] at writes
    exact writes

end FormulaSyntax

namespace LinearEquation

variable {text : List Char} {terms : List Term}

/-- All numbers of a text are in the range if its runs of digits are. -/
theorem fits_iff {formula : FormulaSyntax} (spells : formula.Spells text) :
    (∀ placed ∈ FormulaToken.read text, placed.token.Fits) ↔
      ∀ digits ∈ maximalRuns Char.isDigit text, (digitsValue digits : Int) ≤ maxInteger := by
  have read := FormulaSyntax.spells_iff.mp spells
  rw [spells.digits_eq formula.separated_tokens, ← read]
  simp only [List.mem_filterMap, List.mem_map, FormulaToken.Fits]
  constructor
  · rintro fits digits ⟨_, ⟨placed, member, rfl⟩, isRun⟩
    exact fits placed member digits isRun
  · intro fits placed member digits isRun
    exact fits digits ⟨_, ⟨placed, member, rfl⟩, isRun⟩

theorem parseTerms_iff :
    parseTerms text = .ok terms ↔
      (∀ digits ∈ maximalRuns Char.isDigit text, (digitsValue digits : Int) ≤ maxInteger) ∧
        ∃ formula : FormulaSyntax, formula.Spells text ∧ terms = formula.terms := by
  rw [parseTerms_eq_ok_iff]
  constructor
  · rintro ⟨fits, formula, read, rfl⟩
    have spells := FormulaSyntax.spells_iff.mpr read
    exact ⟨(fits_iff spells).mp fits, formula, spells, rfl⟩
  · rintro ⟨fits, formula, spells, rfl⟩
    exact ⟨(fits_iff spells).mpr fits, formula, FormulaSyntax.spells_iff.mp spells, rfl⟩

theorem parse_eq_ok_iff {equation : LinearEquation} :
    parse text = .ok equation ↔
      (∀ digits ∈ maximalRuns Char.isDigit text, (digitsValue digits : Int) ≤ maxInteger) ∧
        ∃ formula : FormulaSyntax, formula.Spells text ∧ equation = ofTerms formula.terms := by
  have parsed : parse text = .ok equation ↔
      ∃ terms, parseTerms text = .ok terms ∧ equation = ofTerms terms := by
    rw [parse]
    cases parseTerms text <;> simp [Except.map, eq_comm]
  rw [parsed]
  constructor
  · rintro ⟨terms, read, rfl⟩
    obtain ⟨fits, formula, spells, rfl⟩ := parseTerms_iff.mp read
    exact ⟨fits, formula, spells, rfl⟩
  · rintro ⟨fits, formula, spells, rfl⟩
    exact ⟨_, parseTerms_iff.mpr ⟨fits, formula, spells, rfl⟩, rfl⟩

theorem names_iff {formula : FormulaSyntax} (spells : formula.Spells text) (name : String) :
    some name ∈ formula.terms.map Term.variableName ↔
      name.toList ∈ maximalRuns Char.isAlpha text := by
  rw [spells.letters_eq formula.separated_tokens, formula.letters_tokens, List.mem_filterMap,
    List.mem_map]
  constructor
  · rintro ⟨term, member, variableName⟩
    exact ⟨term, member, by rw [Term.letters?, variableName, Option.map_some]⟩
  · rintro ⟨term, member, letters⟩
    obtain ⟨other, variableName, same⟩ := Option.map_eq_some_iff.mp letters
    exact ⟨term, member, by rw [variableName, String.toList_inj.mp same]⟩

/-- What a formula means.  A text is accepted exactly when the grammar derives
it and the number of each of its runs of digits is in the range.  In a
derivation every run is as long as the text allows.  The variables of the
equation come in increasing order and are the runs of letters, those included
whose terms cancel out; each coefficient and the constant are sums from left to
right that stop at the ends of the range. -/
theorem parse_follows_grammar (text : List Char) :
    ((∃ equation, parse text = .ok equation) ↔
      (∃ formula : FormulaSyntax, formula.Spells text) ∧
        ∀ digits ∈ maximalRuns Char.isDigit text, (digitsValue digits : Int) ≤ maxInteger) ∧
    (∀ formula : FormulaSyntax, formula.Spells text →
      formula.tokens.filterMap FormulaToken.digits? = maximalRuns Char.isDigit text ∧
        formula.tokens.filterMap FormulaToken.letters? = maximalRuns Char.isAlpha text) ∧
    ∀ equation, parse text = .ok equation →
      equation.variableNames.Pairwise (· < ·) ∧
      (∀ name : String,
        name ∈ equation.variableNames ↔ name.toList ∈ maximalRuns Char.isAlpha text) ∧
      ∀ formula : FormulaSyntax, formula.Spells text →
        (∀ name, equation.coefficient name = Term.total (some name) formula.terms) ∧
          equation.constant = Term.total none formula.terms := by
  refine ⟨⟨?_, ?_⟩, ?_, ?_⟩
  · rintro ⟨equation, parsed⟩
    obtain ⟨fits, formula, spells, -⟩ := parse_eq_ok_iff.mp parsed
    exact ⟨⟨formula, spells⟩, fits⟩
  · rintro ⟨⟨formula, spells⟩, fits⟩
    exact ⟨_, parse_eq_ok_iff.mpr ⟨fits, formula, spells, rfl⟩⟩
  · intro formula spells
    exact ⟨(spells.digits_eq formula.separated_tokens).symm,
      (spells.letters_eq formula.separated_tokens).symm⟩
  · intro equation parsed
    obtain ⟨fits, formula, spells, rfl⟩ := parse_eq_ok_iff.mp parsed
    have sums := sums_ofTerms formula.terms
    refine ⟨sums.increasing, fun name => ?_, fun other spellsOther => ?_⟩
    · exact (sums.names name).trans (names_iff spells name)
    · -- two derivations of one text have the same terms, since the reader has read them
      have read := parseTerms_iff.mpr ⟨fits, formula, spells, rfl⟩
      have readOther := parseTerms_iff.mpr ⟨fits, other, spellsOther, rfl⟩
      rw [read] at readOther
      obtain same : formula.terms = other.terms := Except.ok.inj readOther
      rw [← same]
      exact ⟨sums.coefficient, sums.constant⟩

/-- A variable that occurs twice, one with a star, one that counts nothing and
the space of selectors in between. -/
theorem parse_of_mixed_terms :
    let text := " 2n - 3*x+ 1+0y-n".toList
    let formula : FormulaSyntax :=
      ⟨none, .multiple ['2'] false ['n'],
        [(.minus, .multiple ['3'] true ['x']), (.plus, .number ['1']),
          (.plus, .multiple ['0'] false ['y']), (.minus, .word ['n'])]⟩
    let equation : LinearEquation := ⟨[("n", 1), ("x", -3), ("y", 0)], 1⟩
    formula.Spells text ∧ parse text = .ok equation ∧
      (∀ digits ∈ maximalRuns Char.isDigit text, (digitsValue digits : Int) ≤ maxInteger) ∧
      maximalRuns Char.isAlpha text = [['n'], ['x'], ['y'], ['n']] ∧
      equation.coefficient "n" = Term.total (some "n") formula.terms ∧
      equation.constant = Term.total none formula.terms := by
  intro text formula equation
  obtain ⟨accepted, runs, meaning⟩ := parse_follows_grammar text
  have spells : formula.Spells text := FormulaSyntax.spells_iff.mpr (by decide +kernel)
  have parsed : parse text = .ok equation := by decide +kernel
  obtain ⟨-, -, sums⟩ := meaning equation parsed
  obtain ⟨coefficient, constant⟩ := sums formula spells
  obtain ⟨-, fits⟩ := accepted.mp ⟨equation, parsed⟩
  exact ⟨spells, parsed, fits, (runs formula spells).2.symm, coefficient "n", constant⟩

end LinearEquation

end CssQuery
