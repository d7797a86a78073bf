import CssQuery.Proofs.Equation.Grammar
import Mathlib.Data.List.Chain

/-!
# Tokens of a formula and their spelling

Each token is read as long as possible, so a row of tokens is read back from
a text in which it is written as soon as no run stands next to a run of its
kind.  Every formula is such a row, and its runs are the maximal runs of any
text in which it is written.
-/

namespace CssQuery

section Characters

variable {c : Char}

theorem not_isDigit_of_isSpace (blank : isSpace c = true) : c.isDigit = false := by
  rcases isSpace_iff.mp blank with rfl | rfl | rfl | rfl | rfl <;> decide

theorem not_isAlpha_of_isSpace (blank : isSpace c = true) : c.isAlpha = false := by
  rcases isSpace_iff.mp blank with rfl | rfl | rfl | rfl | rfl <;> decide

/-- The digits stand before the letters in the order of characters. -/
theorem not_isDigit_of_isAlpha (letter : c.isAlpha = true) : c.isDigit = false := by
  rw [Bool.eq_false_iff]
  intro digit
  delta Char.isAlpha Char.isUpper Char.isLower at letter
  simp only [Char.isDigit, Bool.or_eq_true, Bool.and_eq_true, decide_eq_true_eq,
    UInt32.le_iff_toNat_le, ge_iff_le] at letter digit
  have : 'A'.val.toNat = 65 := rfl
  have : 'a'.val.toNat = 97 := rfl
  have : '9'.val.toNat = 57 := rfl
  omega

/-- Of two tests that exclude each other, what passes one fails the other. -/
theorem fails_of_passes {first second : Char → Bool}
    (exclude : ∀ x, first x = true → second x = false) (passes : second c = true) :
    first c = false := by
  rw [Bool.eq_false_iff]
  intro both
  rw [exclude c both] at passes
  cases passes

theorem not_isAlpha_of_isDigit (digit : c.isDigit = true) : c.isAlpha = false :=
  fails_of_passes (fun _ => not_isDigit_of_isAlpha) digit

theorem not_isSpace_of_isDigit (digit : c.isDigit = true) : isSpace c = false :=
  fails_of_passes (fun _ => not_isDigit_of_isSpace) digit

theorem not_isSpace_of_isAlpha (letter : c.isAlpha = true) : isSpace c = false :=
  fails_of_passes (fun _ => not_isAlpha_of_isSpace) letter

end Characters

namespace FormulaToken

variable {token : FormulaToken} {tokens : List FormulaToken} {front text : List Char}

/-- The characters that continue a token. -/
def part : FormulaToken → Char → Bool
  | digits _ => Char.isDigit
  | letters _ => Char.isAlpha
  | _ => fun _ => false

/-- Both tokens are runs of the same kind, so that one would continue the
other. -/
def joins : FormulaToken → FormulaToken → Bool
  | digits _, digits _ | letters _, letters _ => true
  | _, _ => false

/-- No two runs of the same kind are neighbours. -/
def Separated (tokens : List FormulaToken) : Prop :=
  tokens.IsChain fun first second => first.joins second = false

theorem part_of_isSpace {c : Char} (blank : isSpace c = true) (token : FormulaToken) :
    token.part c = false := by
  cases token with
  | digits => exact not_isDigit_of_isSpace blank
  | letters => exact not_isAlpha_of_isSpace blank
  | _ => rfl

theorem Spells.eq_cons (spells : token.Spells front) : ∃ c tail, front = c :: tail := by
  cases spells with
  | digits nonempty => exact List.exists_cons_of_ne_nil nonempty
  | letters nonempty => exact List.exists_cons_of_ne_nil nonempty
  | _ => exact ⟨_, _, rfl⟩

/-- A token does not continue another one unless both are runs of a kind. -/
theorem Spells.stops {first : FormulaToken} (spells : token.Spells front)
    (apart : first.joins token = false) (rest : List Char) : Stops first.part (front ++ rest) := by
  obtain ⟨c, tail, rfl⟩ := spells.eq_cons
  refine .cons ?_ _
  cases spells with
  | digits nonempty all =>
      cases first with
      | digits => cases apart
      | letters => exact not_isAlpha_of_isDigit (all c List.mem_cons_self)
      | _ => rfl
  | letters nonempty all =>
      cases first with
      | letters => cases apart
      | digits => exact not_isDigit_of_isAlpha (all c List.mem_cons_self)
      | _ => rfl
  | _ => cases first <;> rfl

theorem Writes.stops {first : FormulaToken} (writes : Writes tokens text)
    (separated : Separated (first :: tokens)) : Stops first.part text := by
  cases writes with
  | nil => exact fun _ head => nomatch head
  | space blank later => exact .cons (part_of_isSpace blank first) _
  | token spells later => exact spells.stops (List.isChain_cons_cons.mp separated).1 _

/-- A spelling that is not continued is read back as its token. -/
theorem Spells.next_eq (spells : token.Spells front) (stops : Stops token.part text) :
    ∃ c tail, front = c :: tail ∧
      ∀ offset, next offset c (tail ++ text) = (some token, tail.length) := by
  cases spells with
  | plus => exact ⟨'+', [], rfl, fun offset => rfl⟩
  | minus => exact ⟨'-', [], rfl, fun offset => rfl⟩
  | star => exact ⟨'*', [], rfl, fun offset => rfl⟩
  | digits nonempty all =>
      obtain ⟨c, tail, rfl⟩ := List.exists_cons_of_ne_nil nonempty
      obtain ⟨digit, others⟩ := List.forall_mem_cons.mp all
      refine ⟨c, tail, rfl, fun offset => ?_⟩
      simp [next, not_isSpace_of_isDigit digit, digit,
        Recogniser.takeWhile_append_stops others stops]
  | letters nonempty all =>
      obtain ⟨c, tail, rfl⟩ := List.exists_cons_of_ne_nil nonempty
      obtain ⟨letter, others⟩ := List.forall_mem_cons.mp all
      refine ⟨c, tail, rfl, fun offset => ?_⟩
      simp [next, not_isSpace_of_isAlpha letter, not_isDigit_of_isAlpha letter, letter,
        Recogniser.takeWhile_append_stops others stops]

theorem readFrom_of_some {c : Char} {rest : List Char} {skip offset : Nat}
    (read : next offset c rest = (some token, skip)) :
    Placed.readFrom next 0 offset (c :: rest) =
      ⟨offset, c, token⟩ :: Placed.readFrom next skip (offset + 1) rest := by
  rw [Placed.readFrom, read]

theorem readFrom_of_none {c : Char} {rest : List Char} {skip offset : Nat}
    (read : next offset c rest = (none, skip)) :
    Placed.readFrom next 0 offset (c :: rest) =
      Placed.readFrom next skip (offset + 1) rest := by
  rw [Placed.readFrom, read]

/-- A row of tokens without runs that join is read back as it was written. -/
theorem Writes.read_eq (writes : Writes tokens text) (separated : Separated tokens)
    (offset : Nat) : (Placed.readFrom next 0 offset text).map Placed.token = tokens := by
  induction writes generalizing offset with
  | nil => rfl
  | @space c tokens text blank later ih =>
      have read : next offset c text = (none, 0) := if_pos blank
      rw [readFrom_of_none read, ih separated]
  | @token token tokens front text spells later ih =>
      obtain ⟨c, tail, rfl, read⟩ := spells.next_eq (later.stops separated)
      rw [List.cons_append, readFrom_of_some (read offset), Placed.readFrom_append, List.map_cons,
        ih separated.tail]

/-- A character is blank, or begins a token, or is none that a formula
contains. -/
theorem next_cases (offset : Nat) (c : Char) (rest : List Char) :
    (isSpace c = true ∧ next offset c rest = (none, 0)) ∨
    (∃ (token : FormulaToken) (tail : List Char), token.Spells (c :: tail) ∧
      rest = tail ++ rest.drop tail.length ∧
      next offset c rest = (some token, tail.length)) ∨
    next offset c rest = (some .other, 0) := by
  unfold next
  by_cases blank : isSpace c = true
  · exact .inl ⟨blank, if_pos blank⟩
  rw [if_neg blank]
  have run_split (test : Char → Bool) :
      rest = rest.takeWhile test ++ rest.drop (rest.takeWhile test).length :=
    (List.prefix_iff_eq_append.mp (List.takeWhile_prefix test)).symm
  have run_all {test : Char → Bool} (first : test c = true) :
      ∀ x ∈ c :: rest.takeWhile test, test x = true :=
    List.forall_mem_cons.mpr ⟨first, fun _ member => List.mem_takeWhile_imp member⟩
  by_cases digit : c.isDigit = true
  · rw [if_pos digit]
    exact .inr (.inl ⟨_, _, .digits (List.cons_ne_nil _ _) (run_all digit), run_split _, rfl⟩)
  rw [if_neg digit]
  by_cases letter : c.isAlpha = true
  · rw [if_pos letter]
    exact .inr (.inl ⟨_, _, .letters (List.cons_ne_nil _ _) (run_all letter), run_split _, rfl⟩)
  rw [if_neg letter]
  by_cases plus : c = '+'
  · exact .inr (.inl ⟨_, [], plus ▸ .plus, rfl, if_pos plus⟩)
  rw [if_neg plus]
  by_cases minus : c = '-'
  · exact .inr (.inl ⟨_, [], minus ▸ .minus, rfl, if_pos minus⟩)
  rw [if_neg minus]
  by_cases star : c = '*'
  · exact .inr (.inl ⟨_, [], star ▸ .star, rfl, if_pos star⟩)
  exact .inr (.inr (if_neg star))

/-- The tokens that are read are written in the text, if all its characters
are characters of formulas. -/
theorem writes_of_read {skip offset : Nat}
    (known : ∀ placed ∈ Placed.readFrom next skip offset text, placed.token ≠ .other) :
    Writes ((Placed.readFrom next skip offset text).map Placed.token) (text.drop skip) := by
  induction text generalizing skip offset with
  | nil =>
      rw [List.drop_nil]
      exact .nil
  | cons c rest ih =>
      cases skip with
      | succ skip => exact ih known
      | zero =>
          rcases next_cases offset c rest with ⟨blank, read⟩ | ⟨token, tail, spells, split, read⟩ |
            read
          · rw [readFrom_of_none read] at known ⊢
            exact .space blank (ih known)
          · rw [readFrom_of_some read] at known ⊢
            have later := ih fun placed member => known placed (List.mem_cons_of_mem _ member)
            have writes := Writes.token spells later
            rw [List.cons_append, ← split] at writes
            exact writes
          · rw [readFrom_of_some read] at known
            exact absurd rfl (known _ List.mem_cons_self)

/-- The tokens of one kind of run are the maximal runs of their characters. -/
theorem Writes.maximalRuns_eq {test : Char → Bool} {run? : FormulaToken → Option (List Char)}
    (blank : ∀ {c : Char}, isSpace c = true → test c = false)
    (inside : ∀ {token : FormulaToken} {front run : List Char}, token.Spells front →
      run? token = some run →
      front = run ∧ run ≠ [] ∧ (∀ c ∈ run, test c = true) ∧ token.part = test)
    (outside : ∀ {token : FormulaToken} {front : List Char}, token.Spells front →
      run? token = none → ∀ c ∈ front, test c = false)
    (writes : Writes tokens text) (separated : Separated tokens) :
    maximalRuns test text = tokens.filterMap run? := by
  induction writes with
  | nil => exact maximalRuns_nil
  | space isBlank later ih => rw [maximalRuns_cons (blank isBlank), ih separated]
  | @token token tokens front text spells later ih =>
      cases isRun : run? token with
      | none =>
          rw [maximalRuns_append_of_refused (outside spells isRun), ih separated.tail,
            List.filterMap_cons_none isRun]
      | some run =>
          obtain ⟨rfl, nonempty, all, same⟩ := inside spells isRun
          have stops := later.stops separated
          rw [same] at stops
          rw [maximalRuns_append nonempty all stops, ih separated.tail,
            List.filterMap_cons_some isRun]

theorem Writes.digits_eq (writes : Writes tokens text) (separated : Separated tokens) :
    maximalRuns Char.isDigit text = tokens.filterMap digits? := by
  refine writes.maximalRuns_eq not_isDigit_of_isSpace ?_ ?_ separated
  · intro token front run spells isRun
    cases spells with
    | digits nonempty all =>
        cases isRun
        exact ⟨rfl, nonempty, all, rfl⟩
    | _ => cases isRun
  · intro token front spells notRun
    cases spells with
    | digits => cases notRun
    | letters nonempty all => exact fun c member => not_isDigit_of_isAlpha (all c member)
    | _ => exact List.forall_mem_singleton.mpr rfl

theorem Writes.letters_eq (writes : Writes tokens text) (separated : Separated tokens) :
    maximalRuns Char.isAlpha text = tokens.filterMap letters? := by
  refine writes.maximalRuns_eq not_isAlpha_of_isSpace ?_ ?_ separated
  · intro token front run spells isRun
    cases spells with
    | letters nonempty all =>
        cases isRun
        exact ⟨rfl, nonempty, all, rfl⟩
    | _ => cases isRun
  · intro token front spells notRun
    cases spells with
    | letters => cases notRun
    | digits nonempty all => exact fun c member => not_isAlpha_of_isDigit (all c member)
    | _ => exact List.forall_mem_singleton.mpr rfl

end FormulaToken

section Separation

open FormulaToken

theorem Sign.joins_left (sign : Sign) (token : FormulaToken) :
    sign.token.joins token = false := by
  cases sign <;> rfl

theorem Sign.joins_right (sign : Sign) (token : FormulaToken) :
    token.joins sign.token = false := by
  cases sign <;> cases token <;> rfl

theorem TermSyntax.separated_tokens (term : TermSyntax) : Separated term.tokens := by
  cases term with
  | number | word => exact .singleton _
  | multiple digits starred letters => cases starred <;> simp [Separated, tokens, joins]

theorem TermSyntax.rowTokens_cons (signed : Sign × TermSyntax)
    (row : List (Sign × TermSyntax)) :
    rowTokens (signed :: row) = signed.1.token :: (signed.2.tokens ++ rowTokens row) := by
  simp [rowTokens]

/-- Every further term begins with a sign, which joins nothing. -/
theorem TermSyntax.joins_row (first : FormulaToken) (row : List (Sign × TermSyntax)) :
    ∀ second ∈ (rowTokens row).head?, first.joins second = false := by
  cases row with
  | nil => exact fun _ head => nomatch head
  | cons signed row =>
      rw [rowTokens_cons]
      rintro _ ⟨⟩
      exact signed.1.joins_right first

theorem TermSyntax.separated_row (row : List (Sign × TermSyntax)) : Separated (rowTokens row) := by
  induction row with
  | nil => exact .nil
  | cons signed row ih =>
      rw [rowTokens_cons]
      have later : Separated (signed.2.tokens ++ rowTokens row) :=
        signed.2.separated_tokens.append ih fun first _ => joins_row first row
      exact .cons later fun second _ => signed.1.joins_left second

/-- In a formula no two runs of a kind are neighbours. -/
theorem FormulaSyntax.separated_tokens (formula : FormulaSyntax) : Separated formula.tokens := by
  have unsigned : Separated (formula.first.tokens ++ TermSyntax.rowTokens formula.others) :=
    formula.first.separated_tokens.append (TermSyntax.separated_row formula.others)
      fun first _ => TermSyntax.joins_row first formula.others
  rw [tokens]
  cases formula.sign with
  | none => exact unsigned
  | some sign => exact .cons unsigned fun second _ => sign.joins_left second

end Separation

end CssQuery
