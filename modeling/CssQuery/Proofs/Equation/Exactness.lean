import CssQuery.Proofs.Equation.Acceptance
import Mathlib.Algebra.BigOperators.Ring.List
import Mathlib.Algebra.Order.Ring.Int
import Mathlib.Data.List.Infix
import Mathlib.Data.List.Nodup

/-!
# When a formula has its exact value

A sum that has stopped at an end of the range goes on from there.  What is
added behind it is added to a wrong number, and the result can be wrong even
where the right one lies in the range.  This may happen to the coefficient of
a variable that occurs several times, to the constant, to a product, and where
the products are added up in the order of the variables.

If none of these leaves the range, the value is exact.  All of them are sums
over some of the terms, so each lies between what the falling terms and what
the rising terms add up to.  Where these two are in the range, neither the
order of the terms nor that of the variables matters.
-/

namespace CssQuery

section Sums

/-- The sum of every beginning of the row is in the range. -/
def RunningSumsFit (amounts : List Int) : Prop :=
  ∀ front, front <+: amounts → InRange front.sum

instance (amounts : List Int) : Decidable (RunningSumsFit amounts) :=
  decidable_of_iff (∀ front ∈ amounts.inits, InRange front.sum)
    (by simp only [RunningSumsFit, List.mem_inits])

/-- What the numbers above zero add up to. -/
def risingSum (values : List Int) : Int :=
  (values.map fun value => max 0 value).sum

/-- What the numbers below zero add up to. -/
def fallingSum (values : List Int) : Int :=
  (values.map fun value => min 0 value).sum

/-- As long as no sum on the way leaves the range, clamped addition adds. -/
theorem foldl_addClamped_eq (start : Int) {amounts : List Int}
    (fit : ∀ front, front <+: amounts → InRange (start + front.sum)) :
    amounts.foldl addClamped start = start + amounts.sum := by
  induction amounts generalizing start with
  | nil => simp
  | cons amount amounts ih =>
      have first : addClamped start amount = start + amount := by
        apply clamp_eq_self
        simpa using fit [amount] (List.prefix_append [amount] amounts)
      rw [List.foldl_cons, first, ih (start + amount), List.sum_cons, Int.add_assoc]
      intro front isPrefix
      have longer := fit (amount :: front) (List.cons_prefix_cons.mpr ⟨rfl, isPrefix⟩)
      rwa [List.sum_cons, ← Int.add_assoc] at longer

/-- A sum over some numbers of a row lies between those of the falling and the
rising ones. -/
theorem sum_bounds_of_sublist {part whole : List Int} (sublist : part.Sublist whole) :
    fallingSum whole ≤ part.sum ∧ part.sum ≤ risingSum whole := by
  induction sublist with
  | slnil => simp [fallingSum, risingSum]
  | cons value _ ih | cons_cons value _ ih =>
      simp only [fallingSum, risingSum, List.map_cons, List.sum_cons] at ih ⊢
      omega

theorem fallingSum_add_risingSum (values : List Int) :
    fallingSum values + risingSum values = values.sum := by
  induction values with
  | nil => rfl
  | cons value values ih =>
      simp only [fallingSum, risingSum, List.map_cons, List.sum_cons] at ih ⊢
      omega

theorem fallingSum_of_nonneg {values : List Int} (nonneg : ∀ value ∈ values, 0 ≤ value) :
    fallingSum values = 0 := by
  apply List.sum_eq_zero
  intro least member
  obtain ⟨value, among, rfl⟩ := List.mem_map.mp member
  exact Int.min_eq_left (nonneg value among)

theorem risingSum_of_nonpos {values : List Int} (nonpos : ∀ value ∈ values, value ≤ 0) :
    risingSum values = 0 := by
  apply List.sum_eq_zero
  intro greatest member
  obtain ⟨value, among, rfl⟩ := List.mem_map.mp member
  exact Int.max_eq_left (nonpos value among)

theorem inRange_of_sublist {part whole : List Int} (falling : InRange (fallingSum whole))
    (rising : InRange (risingSum whole)) (sublist : part.Sublist whole) : InRange part.sum := by
  obtain ⟨lower, upper⟩ := sum_bounds_of_sublist sublist
  exact ⟨Int.le_trans falling.1 lower, Int.le_trans upper rising.2⟩

/-- Division by a positive number does not lead out of the range. -/
theorem inRange_of_mul {number factor : Int} (positive : 0 < factor)
    (inRange : InRange (number * factor)) : InRange number := by
  have one : 1 ≤ factor := positive
  obtain ⟨lower, upper⟩ := inRange
  rcases Int.le_total 0 number with rises | falls
  · exact ⟨Int.le_trans (by decide) rises, Int.le_trans (le_mul_of_one_le_right rises one) upper⟩
  · exact ⟨Int.le_trans lower (mul_le_of_one_le_right falls one), Int.le_trans falls (by decide)⟩

end Sums

namespace Term

/-- What the variable of a term is replaced by; a number alone is taken once. -/
def factor (n : Int) : Option String → Int
  | some _ => n
  | none => 1

/-- The exact value of a term. -/
def value (n : Int) (term : Term) : Int :=
  term.amount * factor n term.variableName

/-- The amounts of the terms of one variable; without a variable, the numbers
that stand alone. -/
def amountsOf (variableName : Option String) (terms : List Term) : List Int :=
  (terms.filter fun term => term.variableName = variableName).map Term.amount

/-- The term is a number or has a variable that does not come after the given
one. -/
def isUpTo (last : String) (term : Term) : Bool :=
  term.variableName.all fun name => name ≤ last

/-- No number on the way to the value at `n` leaves the range.  Only a
coefficient that is multiplied by zero may do so. -/
structure Unclamped (terms : List Term) (n : Int) : Prop where
  constant : RunningSumsFit (amountsOf none terms)
  coefficients : n ≠ 0 → ∀ name, RunningSumsFit (amountsOf (some name) terms)
  products : ∀ name, InRange ((amountsOf (some name) terms).sum * n)
  /-- The products are added in the order of the variables. -/
  sums : ∀ last, InRange ((terms.filter (isUpTo last)).map (value n)).sum

variable {terms : List Term} {n : Int}

theorem total_eq_sum {variableName : Option String}
    (fit : RunningSumsFit (amountsOf variableName terms)) :
    total variableName terms = (amountsOf variableName terms).sum := by
  have exact := foldl_addClamped_eq 0 fun front isPrefix => by simpa using fit front isPrefix
  rwa [amountsOf, List.foldl_map, Int.zero_add] at exact

theorem map_mul_amountsOf (variableName : Option String) (terms : List Term) (n : Int) :
    (amountsOf variableName terms).map (· * factor n variableName) =
      (terms.filter fun term => term.variableName = variableName).map (value n) := by
  rw [amountsOf, List.map_map]
  apply List.map_congr_left
  intro term member
  obtain rfl : term.variableName = variableName := by simpa using (List.mem_filter.mp member).2
  rfl

theorem sum_amountsOf_mul (variableName : Option String) (terms : List Term) (n : Int) :
    (amountsOf variableName terms).sum * factor n variableName =
      ((terms.filter fun term => term.variableName = variableName).map (value n)).sum := by
  rw [← map_mul_amountsOf, List.sum_map_mul_right, List.map_id']

/-- Terms may be added up variable by variable. -/
theorem sum_amountsOf_keys (terms : List Term) (n : Int) {keys : List (Option String)}
    (distinct : keys.Nodup) :
    (keys.map fun key => (amountsOf key terms).sum * factor n key).sum =
      ((terms.filter fun term => term.variableName ∈ keys).map (value n)).sum := by
  induction keys with
  | nil => simp
  | cons key keys ih =>
      obtain ⟨absent, distinct⟩ := List.nodup_cons.mp distinct
      let among := terms.filter fun term => term.variableName ∈ key :: keys
      have first : among.filter (fun term => term.variableName = key) =
          terms.filter fun term => term.variableName = key := by
        rw [List.filter_filter]
        exact List.filter_congr fun term _ => by simp +contextual
      have others : among.filter (fun term => !decide (term.variableName = key)) =
          terms.filter fun term => term.variableName ∈ keys := by
        rw [List.filter_filter]
        refine List.filter_congr fun term _ => ?_
        by_cases same : term.variableName = key <;> simp [same, absent]
      have split := List.filter_append_perm (fun term => decide (term.variableName = key)) among
      rw [List.map_cons, List.sum_cons, ih distinct, sum_amountsOf_mul, ← first, ← others,
        ← List.sum_append, ← List.map_append]
      exact (split.map _).sum_eq

/-- Where the rising terms fit and the falling terms fit, everything does. -/
theorem unclamped_of_parts (nonneg : 0 ≤ n) (falling : InRange (fallingSum (terms.map (value n))))
    (rising : InRange (risingSum (terms.map (value n)))) : Unclamped terms n := by
  have part : ∀ {keeps : Term → Bool} {front : List Int},
      front.Sublist ((terms.filter keeps).map (value n)) → InRange front.sum := by
    intro keeps front sublist
    exact inRange_of_sublist falling rising (sublist.trans (List.filter_sublist.map _))
  have running : ∀ key front, front <+: amountsOf key terms → InRange (front.sum * factor n key) := by
    intro key front isPrefix
    have multiplied := isPrefix.map (· * factor n key)
    rw [map_mul_amountsOf] at multiplied
    have inRange := part multiplied.sublist
    rwa [List.sum_map_mul_right, List.map_id'] at inRange
  refine ⟨fun front isPrefix => ?_, fun nonzero name front isPrefix => ?_, fun name => ?_,
    fun last => part (.refl _)⟩
  · have inRange := running none front isPrefix
    rwa [factor, Int.mul_one] at inRange
  · have positive : 0 < n := Int.lt_iff_le_and_ne.mpr ⟨nonneg, Ne.symm nonzero⟩
    exact inRange_of_mul positive (running (some name) front isPrefix)
  · exact running (some name) _ List.prefix_rfl

end Term

namespace LinearEquation

variable {equation : LinearEquation} {terms : List Term} {n : Int}

theorem Increasing.map_snd {coefficients : List (String × Int)}
    (increasing : Increasing coefficients) :
    coefficients.map Prod.snd =
      (coefficients.map Prod.fst).map fun name => (coefficients.lookup name).getD 0 := by
  induction coefficients with
  | nil => rfl
  | cons first rest ih =>
      obtain ⟨name, total⟩ := first
      obtain ⟨least, later⟩ := increasing_cons.mp increasing
      rw [List.map_cons, List.map_cons, List.map_cons, List.lookup_cons_self, ih later]
      congr 1
      rw [List.map_map, List.map_map]
      apply List.map_congr_left
      intro entry member
      have differs : entry.1 ≠ name := fun same => String.lt_irrefl _ (same ▸ least entry member)
      rw [Function.comp_apply, Function.comp_apply, lookup_cons_of_ne differs]

/-- The products are added to the constant one variable after the other. -/
theorem evaluate_eq_foldl (increasing : Increasing equation.coefficients) (n : Int) :
    equation.evaluate n =
      (equation.variableNames.map fun name =>
        mulClamped (equation.coefficient name) n).foldl addClamped equation.constant := by
  have products : (equation.variableNames.map fun name =>
      mulClamped (equation.coefficient name) n) =
        equation.coefficients.map fun entry => mulClamped entry.2 n := by
    have row := congrArg (List.map (mulClamped · n)) increasing.map_snd
    rw [List.map_map, List.map_map] at row
    exact row.symm
  rw [products, List.foldl_map]
  rfl

theorem Sums.mulClamped_coefficient (sums : equation.Sums terms) (unclamped : Term.Unclamped terms n)
    (name : String) :
    mulClamped (equation.coefficient name) n = (Term.amountsOf (some name) terms).sum * n := by
  by_cases zero : n = 0
  · rw [zero, Int.mul_zero, mulClamped, Int.mul_zero]
    rfl
  · rw [sums.coefficient, Term.total_eq_sum (unclamped.coefficients zero name)]
    exact clamp_eq_self (unclamped.products name)

/-- Adding the products of some variables to the constant adds up the numbers
and the terms of these variables. -/
theorem constant_add_products (terms : List Term) (n : Int) {names : List String}
    (distinct : names.Nodup) :
    (Term.amountsOf none terms).sum +
        (names.map fun name => (Term.amountsOf (some name) terms).sum * n).sum =
      ((terms.filter fun term => term.variableName ∈ none :: names.map some).map
        (Term.value n)).sum := by
  have keys : (none :: names.map some).Nodup :=
    List.nodup_cons.mpr
      ⟨by simp, (List.nodup_map_iff (Option.some_injective String)).mpr distinct⟩
  rw [← Term.sum_amountsOf_keys terms n keys, List.map_cons, List.sum_cons, List.map_map,
    Term.factor, Int.mul_one]
  rfl

theorem Sums.nodup_variableNames (sums : equation.Sums terms) : equation.variableNames.Nodup := by
  have ordered : equation.variableNames.Pairwise (· < ·) := sums.increasing
  refine ordered.imp fun less same => ?_
  rw [same] at less
  exact String.lt_irrefl _ less

theorem Sums.mem_variableNames (sums : equation.Sums terms) {term : Term} (member : term ∈ terms)
    {name : String} (named : term.variableName = some name) : name ∈ equation.variableNames :=
  (sums.names name).mpr (List.mem_map.mpr ⟨term, member, named⟩)

theorem Sums.filter_names (sums : equation.Sums terms) :
    terms.filter (fun term => term.variableName ∈ none :: equation.variableNames.map some) =
      terms := by
  rw [List.filter_eq_self]
  intro term member
  cases named : term.variableName with
  | none => simp
  | some name => simp [sums.mem_variableNames member named]

/-- The variables that have been met up to one of them are those that do not
come after it. -/
theorem Sums.filter_front (sums : equation.Sums terms) {front back : List String} {last : String}
    (names : equation.variableNames = front ++ [last] ++ back) :
    terms.filter (fun term => term.variableName ∈ none :: (front ++ [last]).map some) =
      terms.filter (Term.isUpTo last) := by
  have ordered : (front ++ [last] ++ back).Pairwise (· < ·) := names ▸ sums.increasing
  obtain ⟨met, -, ahead⟩ := List.pairwise_append.mp ordered
  obtain ⟨-, -, before⟩ := List.pairwise_append.mp met
  apply List.filter_congr
  intro term member
  cases named : term.variableName with
  | none => simp [Term.isUpTo, named]
  | some name =>
      have listed := sums.mem_variableNames member named
      rw [names] at listed
      have upTo : name ∈ front ++ [last] ↔ name ≤ last := by
        constructor
        · intro among
          rcases List.mem_append.mp among with inFront | isLast
          · exact Std.le_of_lt (before name inFront last List.mem_cons_self)
          · exact Std.le_of_eq (List.mem_singleton.mp isLast)
        · intro notAfter
          refine (List.mem_append.mp listed).resolve_right fun inBack => notAfter ?_
          exact ahead last (by simp) name inBack
      rw [Bool.eq_iff_iff]
      simpa [Term.isUpTo, named] using upTo

/-- The equation has the exact value of its terms where nothing leaves the
range on the way to it. -/
theorem Sums.evaluate_eq (sums : equation.Sums terms) (unclamped : Term.Unclamped terms n) :
    equation.evaluate n = (terms.map (Term.value n)).sum := by
  have distinct := sums.nodup_variableNames
  have constant : equation.constant = (Term.amountsOf none terms).sum :=
    sums.constant.trans (Term.total_eq_sum unclamped.constant)
  have fit : ∀ front, front <+: (equation.variableNames.map fun name =>
        (Term.amountsOf (some name) terms).sum * n) →
      InRange ((Term.amountsOf none terms).sum + front.sum) := by
    intro products isPrefix
    obtain ⟨names, ⟨back, split⟩, rfl⟩ := List.prefix_map_iff.mp isPrefix
    rcases List.eq_nil_or_concat' names with rfl | ⟨front, last, rfl⟩
    · rw [List.map_nil, List.sum_nil, Int.add_zero]
      exact unclamped.constant _ List.prefix_rfl
    · have met : (front ++ [last]).Nodup := (split ▸ distinct).of_append_left
      rw [constant_add_products terms n met, sums.filter_front split.symm]
      exact unclamped.sums last
  rw [evaluate_eq_foldl sums.increasing, constant]
  simp only [sums.mulClamped_coefficient unclamped]
  rw [foldl_addClamped_eq _ fit, constant_add_products terms n distinct, sums.filter_names]

end LinearEquation

/-- The value of a written term without its sign. -/
def TermSyntax.value (n : Int) : TermSyntax → Int
  | number digits => digitsValue digits
  | word _ => n
  | multiple digits _ _ => digitsValue digits * n

theorem TermSyntax.value_term (written : TermSyntax) (sign n : Int) :
    (written.term sign).value n = sign * written.value n := by
  cases written <;> simp [term, value, Term.value, Term.factor, Int.mul_assoc]

namespace FormulaSyntax

/-- The values of the terms with their signs. -/
def termValues (formula : FormulaSyntax) (n : Int) : List Int :=
  ((formula.sign.getD .plus, formula.first) :: formula.others).map fun signed =>
    signed.1.value * signed.2.value n

/-- The value of a written formula in exact arithmetic, with every variable
replaced by `n`. -/
def value (formula : FormulaSyntax) (n : Int) : Int :=
  (formula.termValues n).sum

theorem map_value_terms (formula : FormulaSyntax) (n : Int) :
    formula.terms.map (Term.value n) = formula.termValues n := by
  simp [terms, termValues, TermSyntax.rowTerms, TermSyntax.value_term, Function.comp_def]

end FormulaSyntax

namespace LinearEquation

variable {text : List Char} {equation : LinearEquation}

/-- When the equation of a text has the exact value of the formula written
there.  It does if nothing on the way to the value leaves the range, and so it
does if what the rising terms add up to and what the falling terms add up to
are both in the range.  In particular it does for a formula whose terms do not
have different signs as soon as the value is in the range. -/
theorem evaluate_exact (parsed : parse text = .ok equation) :
    (∃ formula : FormulaSyntax, formula.Spells text) ∧
    ∀ formula : FormulaSyntax, formula.Spells text → ∀ n : Int,
      (Term.Unclamped formula.terms n → equation.evaluate n = formula.value n) ∧
      (0 ≤ n → InRange (fallingSum (formula.termValues n)) →
        InRange (risingSum (formula.termValues n)) → equation.evaluate n = formula.value n) ∧
      (0 ≤ n → ((∀ value ∈ formula.termValues n, 0 ≤ value) ∨
          ∀ value ∈ formula.termValues n, value ≤ 0) →
        InRange (formula.value n) → equation.evaluate n = formula.value n) := by
  obtain ⟨fits, written, spellsWritten, -⟩ := parse_eq_ok_iff.mp parsed
  refine ⟨⟨written, spellsWritten⟩, fun formula spells n => ?_⟩
  have again := parse_eq_ok_iff.mpr ⟨fits, formula, spells, rfl⟩
  obtain rfl : equation = ofTerms formula.terms := Except.ok.inj (parsed.symm.trans again)
  have exact : Term.Unclamped formula.terms n →
      (ofTerms formula.terms).evaluate n = formula.value n := by
    intro unclamped
    rw [(sums_ofTerms formula.terms).evaluate_eq unclamped, formula.map_value_terms]
    rfl
  have exactOfParts : 0 ≤ n → InRange (fallingSum (formula.termValues n)) →
      InRange (risingSum (formula.termValues n)) →
        (ofTerms formula.terms).evaluate n = formula.value n := by
    intro nonneg falling rising
    rw [← formula.map_value_terms] at falling rising
    exact exact (Term.unclamped_of_parts nonneg falling rising)
  refine ⟨exact, exactOfParts, fun nonneg signs inRange => ?_⟩
  have parts := fallingSum_add_risingSum (formula.termValues n)
  have zero : InRange 0 := by decide
  rw [FormulaSyntax.value, ← parts] at inRange
  rcases signs with rising | falling
  · have none := fallingSum_of_nonneg rising
    rw [none, Int.zero_add] at inRange
    exact exactOfParts nonneg (none ▸ zero) inRange
  · have none := risingSum_of_nonpos falling
    rw [none, Int.add_zero] at inRange
    exact exactOfParts nonneg inRange (none ▸ zero)

/-- The product is cut off at the end of the range before the constant, which
would bring it back, is added. -/
theorem evaluate_clamps_product :
    let text := "9223372036854775807n-9223372036854775807".toList
    let formula : FormulaSyntax :=
      ⟨none, .multiple "9223372036854775807".toList false ['n'],
        [(.minus, .number "9223372036854775807".toList)]⟩
    let equation : LinearEquation := ⟨[("n", maxInteger)], -maxInteger⟩
    formula.Spells text ∧ parse text = .ok equation ∧
      formula.value 2 = maxInteger ∧ InRange maxInteger ∧ equation.evaluate 2 = 0 := by
  intro text formula equation
  have spells : formula.Spells text := FormulaSyntax.spells_iff.mpr (by decide +kernel)
  exact ⟨spells, by decide +kernel, by decide +kernel, by decide, by decide +kernel⟩

/-- The coefficient and the constant come close to the two ends of the range
and make up for each other.  At one the falling terms alone do not fit; at zero
no term rises. -/
theorem evaluate_between_ends :
    let text := "9223372036854775807n - n - 9223372036854775807 - 1".toList
    let formula : FormulaSyntax :=
      ⟨none, .multiple "9223372036854775807".toList false ['n'],
        [(.minus, .word ['n']), (.minus, .number "9223372036854775807".toList),
          (.minus, .number ['1'])]⟩
    let equation : LinearEquation := ⟨[("n", maxInteger - 1)], minInteger⟩
    parse text = .ok equation ∧ formula.Spells text ∧
      Term.Unclamped formula.terms 1 ∧ ¬ InRange (fallingSum (formula.termValues 1)) ∧
      equation.evaluate 1 = formula.value 1 ∧ formula.value 1 = -2 ∧
      equation.evaluate 0 = formula.value 0 ∧ formula.value 0 = minInteger := by
  intro text formula equation
  have parsed : parse text = .ok equation := by decide +kernel
  have spells : formula.Spells text := FormulaSyntax.spells_iff.mpr (by decide +kernel)
  have terms : formula.terms =
      [⟨maxInteger, some "n"⟩, ⟨-1, some "n"⟩, ⟨-maxInteger, none⟩, ⟨-1, none⟩] := by
    decide +kernel
  have amounts : ∀ name, Term.amountsOf (some name) formula.terms =
      if "n" = name then [maxInteger, -1] else [] := by
    intro name
    by_cases same : "n" = name <;> simp [Term.amountsOf, terms, same]
  have upTo : ∀ last, formula.terms.filter (Term.isUpTo last) =
      if "n" ≤ last then formula.terms else [⟨-maxInteger, none⟩, ⟨-1, none⟩] := by
    intro last
    by_cases reached : "n" ≤ last <;> simp [Term.isUpTo, terms, reached]
  have unclamped : Term.Unclamped formula.terms 1 := by
    refine ⟨?_, fun _ name => ?_, fun name => ?_, fun last => ?_⟩
    · rw [terms]
      decide
    · rw [amounts]
      split <;> decide
    · rw [amounts]
      split <;> decide
    · rw [upTo, terms]
      split <;> decide
  obtain ⟨-, exact⟩ := evaluate_exact parsed
  refine ⟨parsed, spells, unclamped, by decide +kernel, (exact formula spells 1).1 unclamped,
    by decide +kernel, ?_, by decide +kernel⟩
  exact (exact formula spells 0).2.2 (by decide) (.inr (by decide +kernel)) (by decide +kernel)

end LinearEquation

end CssQuery
