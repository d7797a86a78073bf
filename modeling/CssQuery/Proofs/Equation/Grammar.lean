import CssQuery.Equation.Parser
import CssQuery.Proofs.Token.Locality

/-!
# The grammar of linear formulas

A formula is a row of terms, each with a sign; the first may do without.

    formula := sign? term (sign term)*
    term    := digits | letters | digits '*'? letters

Selector space may stand before every token and at the end.  In a row of
tokens that has this form no two runs of digits and no two runs of letters are
neighbours, so every run goes as far in the text as its characters do.  That
is why the tokens of a text can be found without regard to the grammar.
-/

namespace CssQuery

/-- The longest pieces of a text whose characters all pass a test, in their
order. -/
def maximalRuns (test : Char → Bool) (text : List Char) : List (List Char) :=
  (text.splitOnP fun c => !test c).filter fun run => !run.isEmpty

section Runs

variable {test : Char → Bool}

@[simp]
theorem maximalRuns_nil : maximalRuns test [] = [] := by
  simp [maximalRuns]

theorem maximalRuns_cons {c : Char} (refused : test c = false) (rest : List Char) :
    maximalRuns test (c :: rest) = maximalRuns test rest := by
  simp [maximalRuns, List.splitOnP_cons_eq_if_modifyHead, refused]

theorem maximalRuns_append_of_refused {front : List Char} (refused : ∀ c ∈ front, test c = false)
    (rest : List Char) : maximalRuns test (front ++ rest) = maximalRuns test rest := by
  induction front with
  | nil => rfl
  | cons c front ih =>
      obtain ⟨first, others⟩ := List.forall_mem_cons.mp refused
      rw [List.cons_append, maximalRuns_cons first, ih others]

theorem maximalRuns_append {run rest : List Char} (nonempty : run ≠ [])
    (all : ∀ c ∈ run, test c = true) (stops : Stops test rest) :
    maximalRuns test (run ++ rest) = run :: maximalRuns test rest := by
  have inside : ∀ c ∈ run, (!test c) = false := by simpa using all
  cases rest with
  | nil => simp [maximalRuns, List.splitOnP_eq_singleton inside, nonempty]
  | cons c rest =>
      have refused := stops c rfl
      rw [maximalRuns_cons refused]
      simp [maximalRuns, List.splitOnP_append_cons_of_forall_mem inside, refused, nonempty]

end Runs

namespace FormulaToken

/-- A token with the characters that spell it. -/
inductive Spells : FormulaToken → List Char → Prop
  | plus : Spells .plus ['+']
  | minus : Spells .minus ['-']
  | star : Spells .star ['*']
  | digits {run : List Char} (nonempty : run ≠ []) (all : ∀ c ∈ run, c.isDigit = true) :
      Spells (.digits run) run
  | letters {run : List Char} (nonempty : run ≠ []) (all : ∀ c ∈ run, c.isAlpha = true) :
      Spells (.letters run) run

/-- A row of tokens with a text in which it is written. -/
inductive Writes : List FormulaToken → List Char → Prop
  | nil : Writes [] []
  | space {c : Char} {tokens : List FormulaToken} {text : List Char} (blank : isSpace c = true)
      (later : Writes tokens text) : Writes tokens (c :: text)
  | token {token : FormulaToken} {tokens : List FormulaToken} {front text : List Char}
      (spells : token.Spells front) (later : Writes tokens text) :
      Writes (token :: tokens) (front ++ text)

def digits? : FormulaToken → Option (List Char)
  | digits run => some run
  | _ => none

def letters? : FormulaToken → Option (List Char)
  | letters run => some run
  | _ => none

end FormulaToken

/-- The sign of a term. -/
inductive Sign where
  | plus
  | minus
deriving DecidableEq, Repr

/-- A term as it is written, without its sign. -/
inductive TermSyntax where
  | number (digits : List Char)
  | word (letters : List Char)
  | multiple (digits : List Char) (starred : Bool) (letters : List Char)
deriving DecidableEq, Repr

/-- A formula as it is written. -/
structure FormulaSyntax where
  sign : Option Sign
  first : TermSyntax
  others : List (Sign × TermSyntax)
deriving DecidableEq, Repr

namespace Sign

def token : Sign → FormulaToken
  | plus => .plus
  | minus => .minus

def value : Sign → Int
  | plus => 1
  | minus => -1

end Sign

namespace TermSyntax

def tokens : TermSyntax → List FormulaToken
  | number digits => [.digits digits]
  | word letters => [.letters letters]
  | multiple digits starred letters =>
      .digits digits :: ((if starred then [.star] else []) ++ [.letters letters])

/-- The term that is meant; a variable alone is taken once. -/
def term (sign : Int) : TermSyntax → Term
  | number digits => ⟨sign * digitsValue digits, none⟩
  | word letters => ⟨sign, some (String.ofList letters)⟩
  | multiple digits _ letters => ⟨sign * digitsValue digits, some (String.ofList letters)⟩

/-- The tokens of terms with their signs. -/
def rowTokens (row : List (Sign × TermSyntax)) : List FormulaToken :=
  row.flatMap fun signed => signed.1.token :: signed.2.tokens

def rowTerms (row : List (Sign × TermSyntax)) : List Term :=
  row.map fun signed => signed.2.term signed.1.value

end TermSyntax

namespace FormulaSyntax

def tokens (formula : FormulaSyntax) : List FormulaToken :=
  formula.sign.toList.map Sign.token ++
    (formula.first.tokens ++ TermSyntax.rowTokens formula.others)

/-- The terms with their signs from left to right. -/
def terms (formula : FormulaSyntax) : List Term :=
  formula.first.term (formula.sign.getD .plus).value :: TermSyntax.rowTerms formula.others

/-- The text is one way to write the formula. -/
def Spells (formula : FormulaSyntax) (text : List Char) : Prop :=
  FormulaToken.Writes formula.tokens text

end FormulaSyntax

end CssQuery
