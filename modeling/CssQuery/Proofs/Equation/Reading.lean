import CssQuery.Proofs.Equation.Lexing

/-!
# Reading a formula

What the reader keeps of the current term decides which tokens may follow and
which terms they stand for.  `Completes` says this in terms of the grammar, for
each state of the reader.  A token can be read exactly when it may follow and
its number is in the range, and what may follow then is what the next state
says; so the reader accepts the rows of tokens that complete its state.
-/

namespace CssQuery

/-- The number that the token writes, if it writes one, is in the range. -/
def FormulaToken.Fits (token : FormulaToken) : Prop :=
  ∀ digits, token.digits? = some digits → (digitsValue digits : Int) ≤ maxInteger

namespace TermSyntax

theorem nil_ne_tokens_append (written : TermSyntax) (tokens : List FormulaToken) :
    [] ≠ written.tokens ++ tokens := by
  cases written <;> exact nofun

theorem eq_nil_of_rowTokens {row : List (Sign × TermSyntax)} (empty : [] = rowTokens row) :
    row = [] := by
  cases row with
  | nil => rfl
  | cons signed row =>
      rw [rowTokens_cons] at empty
      cases empty

end TermSyntax

namespace LinearEquation

open TermSyntax

/-- With the tokens that follow, the formula has all these terms. -/
def Completes : Progress → List FormulaToken → List Term → Prop
  | (terms, .start), tokens, all =>
      ∃ formula : FormulaSyntax, tokens = formula.tokens ∧ all = terms ++ formula.terms
  | (terms, .signed sign), tokens, all =>
      ∃ (first : TermSyntax) (row : List (Sign × TermSyntax)),
        tokens = first.tokens ++ rowTokens row ∧ all = terms ++ first.term sign :: rowTerms row
  | (terms, .counted amount), tokens, all =>
      (∃ row, tokens = rowTokens row ∧ all = terms ++ ⟨amount, none⟩ :: rowTerms row) ∨
      ∃ (isStarred : Bool) (letters : List Char) (row : List (Sign × TermSyntax)),
        tokens = (if isStarred then [.star] else []) ++ .letters letters :: rowTokens row ∧
          all = terms ++ ⟨amount, some (String.ofList letters)⟩ :: rowTerms row
  | (terms, .starred amount), tokens, all =>
      ∃ letters row, tokens = .letters letters :: rowTokens row ∧
        all = terms ++ ⟨amount, some (String.ofList letters)⟩ :: rowTerms row
  | (terms, .complete), tokens, all =>
      ∃ row, tokens = rowTokens row ∧ all = terms ++ rowTerms row

section Following

variable {terms all : List Term} {token : FormulaToken} {tokens : List FormulaToken}

/-- A further term begins with its sign. -/
theorem completes_complete_iff :
    Completes (terms, .complete) (token :: tokens) all ↔
      (token = .plus ∧ Completes (terms, .signed 1) tokens all) ∨
      (token = .minus ∧ Completes (terms, .signed (-1)) tokens all) := by
  constructor
  · rintro ⟨row, split, rfl⟩
    cases row with
    | nil => cases split
    | cons signed row =>
        obtain ⟨sign, first⟩ := signed
        rw [rowTokens_cons] at split
        cases split
        cases sign with
        | plus => exact .inl ⟨rfl, first, row, rfl, rfl⟩
        | minus => exact .inr ⟨rfl, first, row, rfl, rfl⟩
  · rintro (⟨rfl, first, row, rfl, rfl⟩ | ⟨rfl, first, row, rfl, rfl⟩)
    · exact ⟨(.plus, first) :: row, (rowTokens_cons (.plus, first) row).symm, rfl⟩
    · exact ⟨(.minus, first) :: row, (rowTokens_cons (.minus, first) row).symm, rfl⟩

theorem completes_starred_iff {amount : Int} :
    Completes (terms, .starred amount) (token :: tokens) all ↔
      ∃ letters, token = .letters letters ∧
        Completes (terms ++ [⟨amount, some (String.ofList letters)⟩], .complete) tokens all := by
  constructor
  · rintro ⟨letters, row, split, rfl⟩
    cases split
    exact ⟨letters, rfl, row, rfl, by simp⟩
  · rintro ⟨letters, rfl, row, rfl, rfl⟩
    exact ⟨letters, row, rfl, by simp⟩

theorem completes_counted_iff {amount : Int} :
    Completes (terms, .counted amount) (token :: tokens) all ↔
      (token = .star ∧ Completes (terms, .starred amount) tokens all) ∨
      Completes (terms, .starred amount) (token :: tokens) all ∨
      Completes (terms ++ [⟨amount, none⟩], .complete) (token :: tokens) all := by
  constructor
  · rintro (⟨row, split, rfl⟩ | ⟨isStarred, letters, row, split, rfl⟩)
    · exact .inr (.inr ⟨row, split, by simp⟩)
    · cases isStarred with
      | false => exact .inr (.inl ⟨letters, row, split, rfl⟩)
      | true =>
          cases split
          exact .inl ⟨rfl, letters, row, rfl, rfl⟩
  · rintro (⟨rfl, letters, row, rfl, rfl⟩ | ⟨letters, row, split, rfl⟩ | ⟨row, split, rfl⟩)
    · exact .inr ⟨true, letters, row, rfl, rfl⟩
    · exact .inr ⟨false, letters, row, split, rfl⟩
    · exact .inl ⟨row, split, by simp⟩

theorem completes_signed_iff {sign : Int} :
    Completes (terms, .signed sign) (token :: tokens) all ↔
      (∃ digits, token = .digits digits ∧
        Completes (terms, .counted (sign * digitsValue digits)) tokens all) ∨
      ∃ letters, token = .letters letters ∧
        Completes (terms ++ [⟨sign, some (String.ofList letters)⟩], .complete) tokens all := by
  constructor
  · rintro ⟨first, row, split, rfl⟩
    cases first with
    | number digits =>
        cases split
        exact .inl ⟨digits, rfl, .inl ⟨row, rfl, rfl⟩⟩
    | word letters =>
        cases split
        exact .inr ⟨letters, rfl, row, rfl, by simp [term]⟩
    | multiple digits isStarred letters =>
        cases split
        exact .inl ⟨digits, rfl, .inr ⟨isStarred, letters, row, by simp, rfl⟩⟩
  · rintro (⟨digits, rfl, ⟨row, rfl, rfl⟩ | ⟨isStarred, letters, row, rfl, rfl⟩⟩ |
      ⟨letters, rfl, row, rfl, rfl⟩)
    · exact ⟨.number digits, row, rfl, rfl⟩
    · exact ⟨.multiple digits isStarred letters, row, by simp [TermSyntax.tokens], rfl⟩
    · exact ⟨.word letters, row, rfl, by simp [term]⟩

/-- The first term may do without its sign. -/
theorem completes_start_iff :
    Completes (terms, .start) (token :: tokens) all ↔
      (token = .plus ∧ Completes (terms, .signed 1) tokens all) ∨
      (token = .minus ∧ Completes (terms, .signed (-1)) tokens all) ∨
      Completes (terms, .signed 1) (token :: tokens) all := by
  constructor
  · rintro ⟨⟨sign, first, row⟩, split, rfl⟩
    cases sign with
    | none => exact .inr (.inr ⟨first, row, split, rfl⟩)
    | some sign =>
        cases split
        cases sign with
        | plus => exact .inl ⟨rfl, first, row, rfl, rfl⟩
        | minus => exact .inr (.inl ⟨rfl, first, row, rfl, rfl⟩)
  · rintro (⟨rfl, first, row, rfl, rfl⟩ | ⟨rfl, first, row, rfl, rfl⟩ | ⟨first, row, split, rfl⟩)
    · exact ⟨⟨some .plus, first, row⟩, rfl, rfl⟩
    · exact ⟨⟨some .minus, first, row⟩, rfl, rfl⟩
    · exact ⟨⟨none, first, row⟩, split, rfl⟩

end Following

section Steps

variable {formula : List Char} {all : List Term} {tokens : List FormulaToken}

theorem exists_readSign_iff (terms : List Term) (placed : Placed FormulaToken) :
    (∃ later, readSign terms placed = .ok later ∧ Completes later tokens all) ↔
      placed.token.Fits ∧ Completes (terms, .complete) (placed.token :: tokens) all := by
  obtain ⟨offset, lead, token⟩ := placed
  rw [completes_complete_iff]
  cases token <;> simp [readSign, FormulaToken.Fits, FormulaToken.digits?]

theorem exists_readSigned_iff (terms : List Term) (sign : Int) (placed : Placed FormulaToken) :
    (∃ later, readSigned formula terms sign placed = .ok later ∧ Completes later tokens all) ↔
      placed.token.Fits ∧ Completes (terms, .signed sign) (placed.token :: tokens) all := by
  obtain ⟨offset, lead, token⟩ := placed
  rw [completes_signed_iff]
  cases token with
  | digits digits =>
      by_cases fits : (digitsValue digits : Int) ≤ maxInteger
      · simp [readSigned, FormulaToken.Fits, FormulaToken.digits?, fits]
      · simp [readSigned, FormulaToken.Fits, FormulaToken.digits?, fits]
  | _ => simp [readSigned, FormulaToken.Fits, FormulaToken.digits?]

/-- One token: it is read exactly if it may follow and its number fits. -/
theorem exists_readToken_iff (progress : Progress) (placed : Placed FormulaToken) :
    (∃ later, readToken formula progress placed = .ok later ∧ Completes later tokens all) ↔
      placed.token.Fits ∧ Completes progress (placed.token :: tokens) all := by
  obtain ⟨terms, state⟩ := progress
  cases state with
  | start =>
      have unsigned := @exists_readSigned_iff formula all tokens terms 1 placed
      obtain ⟨offset, lead, token⟩ := placed
      rw [completes_start_iff]
      cases token with
      | plus | minus =>
          simp [readToken, completes_signed_iff, FormulaToken.Fits, FormulaToken.digits?]
      | _ => simpa [readToken] using unsigned
  | signed sign => exact exists_readSigned_iff terms sign placed
  | counted amount =>
      have alone := @exists_readSign_iff all tokens (terms ++ [⟨amount, none⟩]) placed
      obtain ⟨offset, lead, token⟩ := placed
      rw [completes_counted_iff, completes_starred_iff]
      cases token with
      | star | letters =>
          simp [readToken, completes_complete_iff, FormulaToken.Fits, FormulaToken.digits?]
      | _ => simpa [readToken] using alone
  | starred amount =>
      obtain ⟨offset, lead, token⟩ := placed
      rw [completes_starred_iff]
      cases token <;> simp [readToken, FormulaToken.Fits, FormulaToken.digits?]
  | complete => exact exists_readSign_iff terms placed

/-- At the end the formula is complete, unless a term has been begun that
lacks its number or variable. -/
theorem finish_eq_ok_iff (progress : Progress) :
    finish formula progress = .ok all ↔ Completes progress [] all := by
  obtain ⟨terms, state⟩ := progress
  cases state with
  | start =>
      refine ⟨nofun, ?_⟩
      rintro ⟨⟨sign, first, row⟩, empty, -⟩
      cases sign with
      | none => exact absurd empty (first.nil_ne_tokens_append _)
      | some sign => cases empty
  | signed sign =>
      refine ⟨nofun, ?_⟩
      rintro ⟨first, row, empty, -⟩
      exact absurd empty (first.nil_ne_tokens_append _)
  | counted amount =>
      constructor
      · rintro ⟨⟩
        exact .inl ⟨[], rfl, rfl⟩
      · rintro (⟨row, empty, rfl⟩ | ⟨isStarred, letters, row, empty, -⟩)
        · obtain rfl := eq_nil_of_rowTokens empty
          rfl
        · cases isStarred <;> cases empty
  | starred amount =>
      refine ⟨nofun, ?_⟩
      rintro ⟨letters, row, empty, -⟩
      cases empty
  | complete =>
      constructor
      · rintro ⟨⟩
        exact ⟨[], rfl, (List.append_nil _).symm⟩
      · rintro ⟨row, empty, rfl⟩
        obtain rfl := eq_nil_of_rowTokens empty
        exact congrArg Except.ok (List.append_nil _).symm

/-- The whole run: the rows of tokens that are read from a state are those
that complete it. -/
theorem run_eq_ok_iff (list : List (Placed FormulaToken)) (progress : Progress) :
    list.foldlM (readToken formula) progress >>= finish formula = .ok all ↔
      (∀ placed ∈ list, placed.token.Fits) ∧
        Completes progress (list.map Placed.token) all := by
  induction list generalizing progress with
  | nil => simpa using finish_eq_ok_iff progress
  | cons placed list ih =>
      rw [List.foldlM_cons, List.forall_mem_cons, List.map_cons, and_right_comm,
        ← exists_readToken_iff progress placed]
      cases read : readToken formula progress placed with
      | error error => exact ⟨nofun, fun ⟨⟨_, failed, _⟩, _⟩ => nomatch failed⟩
      | ok later =>
          change list.foldlM (readToken formula) later >>= finish formula = .ok all ↔ _
          rw [ih later]
          simp [and_comm]

theorem parseTerms_eq_ok_iff (text : List Char) (terms : List Term) :
    parseTerms text = .ok terms ↔
      (∀ placed ∈ FormulaToken.read text, placed.token.Fits) ∧
        ∃ formula : FormulaSyntax,
          (FormulaToken.read text).map Placed.token = formula.tokens ∧ terms = formula.terms :=
  run_eq_ok_iff (FormulaToken.read text) ([], .start)

end Steps

end LinearEquation

end CssQuery
