import CssQuery.Equation.Parser
import CssQuery.Proofs.Formula.Coverage

/-!
# Linear formulas as sequences

A formula whose only variable is `n` is a line `an + b`, whose values stop at
the ends of the 64-bit range.  Clamping keeps a line monotone, and a line that
has come to rest stays where it is, so the sequence is reliable whatever the
two numbers are.
-/

namespace CssQuery

namespace LinearEquation

def line (slope constant : Int) : LinearEquation :=
  ⟨[("n", slope)], constant⟩

theorem evaluate_line (slope constant n : Int) :
    (line slope constant).evaluate n = clamp (constant + clamp (slope * n)) :=
  rfl

/-- All numbers of an equation are of the 64-bit range. -/
structure Bounded (equation : LinearEquation) : Prop where
  constant : InRange equation.constant
  coefficients : ∀ entry ∈ equation.coefficients, InRange entry.2

theorem addCoefficient_inRange (variableName : String) (amount : Int)
    {coefficients : List (String × Int)}
    (inRange : ∀ entry ∈ coefficients, InRange entry.2) :
    ∀ entry ∈ addCoefficient variableName amount coefficients, InRange entry.2 := by
  induction coefficients with
  | nil =>
      simp only [addCoefficient, List.mem_singleton]
      rintro entry rfl
      exact clamp_inRange _
  | cons first rest ih =>
      obtain ⟨other, total⟩ := first
      rw [List.forall_mem_cons] at inRange
      simp only [addCoefficient]
      split
      · exact List.forall_mem_cons.mpr ⟨clamp_inRange _, inRange.2⟩
      · split
        · exact List.forall_mem_cons.mpr
            ⟨clamp_inRange _, List.forall_mem_cons.mpr inRange⟩
        · exact List.forall_mem_cons.mpr ⟨inRange.1, ih inRange.2⟩

theorem Bounded.addTerm {equation : LinearEquation} (bounded : Bounded equation)
    (term : Term) : Bounded (equation.addTerm term) := by
  unfold LinearEquation.addTerm
  split
  · exact ⟨bounded.constant, addCoefficient_inRange _ _ bounded.coefficients⟩
  · exact ⟨clamp_inRange _, bounded.coefficients⟩

theorem bounded_ofTerms (terms : List Term) : Bounded (ofTerms terms) := by
  have start : Bounded zero := ⟨by decide, by simp [zero]⟩
  suffices folded : ∀ equation, Bounded equation →
      Bounded (terms.foldl addTerm equation) from folded zero start
  induction terms with
  | nil => exact fun _ bounded => bounded
  | cons term terms ih => exact fun _ bounded => ih _ (bounded.addTerm term)

theorem bounded_of_parse {formula : List Char} {equation : LinearEquation}
    (parsed : parse formula = .ok equation) : Bounded equation := by
  unfold parse at parsed
  cases terms : parseTerms formula with
  | error error => simp [terms, Except.map] at parsed
  | ok terms =>
      simp only [*, Except.map, Except.ok.injEq] at parsed
      exact parsed ▸ bounded_ofTerms _

theorem eq_line {equation : LinearEquation} (names : equation.variableNames = ["n"]) :
    equation = line (equation.coefficient "n") equation.constant := by
  obtain ⟨coefficients, constant⟩ := equation
  match coefficients, names with
  | [(name, slope)], names =>
      simp only [variableNames, List.map_cons, List.map_nil, List.cons.injEq,
        and_true] at names
      subst name
      simp [line, coefficient]

theorem mul_succ_eq_add (slope : Int) (n : Nat) :
    slope * (n + 1 : Nat) = slope * n + slope := by
  rw [Int.natCast_succ, Int.mul_add, Int.mul_one]

section Line

variable {slope constant : Int}

theorem evaluate_line_mono (constant : Int) (rising : 0 ≤ slope) {first second : Nat}
    (le : first ≤ second) :
    (line slope constant).evaluate first ≤ (line slope constant).evaluate second := by
  have product : slope * first ≤ slope * second :=
    Int.mul_le_mul_of_nonneg_left (by omega) rising
  simp only [evaluate_line]
  exact clamp_mono (Int.add_le_add_left (clamp_mono product) constant)

theorem evaluate_line_anti (constant : Int) (falling : slope ≤ 0) {first second : Nat}
    (le : first ≤ second) :
    (line slope constant).evaluate second ≤ (line slope constant).evaluate first := by
  have product : slope * second ≤ slope * first :=
    Int.mul_le_mul_of_nonpos_left falling (by omega)
  simp only [evaluate_line]
  exact clamp_mono (Int.add_le_add_left (clamp_mono product) constant)

/-- A line that has come to rest stays where it is. -/
theorem evaluate_line_rest (inRange : InRange constant) {n later : Nat}
    (rest : (line slope constant).evaluate n =
      (line slope constant).evaluate (n + 1 : Nat)) (after : n < later) :
    (line slope constant).evaluate later =
      (line slope constant).evaluate (n + 1 : Nat) := by
  have next := mul_succ_eq_add slope n
  simp only [evaluate_line, clamp, minInteger, maxInteger, InRange] at rest inRange ⊢
  rcases Int.lt_trichotomy slope 0 with falling | rfl | rising
  · have negative : slope * n ≤ 0 :=
      Int.mul_nonpos_of_nonpos_of_nonneg (Int.le_of_lt falling) (by omega)
    have beyond : slope * later ≤ slope * (n + 1 : Nat) :=
      Int.mul_le_mul_of_nonpos_left (Int.le_of_lt falling) (by omega)
    omega
  · simp only [Int.zero_mul]
  · have positive : 0 ≤ slope * n := Int.mul_nonneg (Int.le_of_lt rising) (by omega)
    have beyond : slope * (n + 1 : Nat) ≤ slope * later :=
      Int.mul_le_mul_of_nonneg_left (by omega) (Int.le_of_lt rising)
    omega

theorem reliable_line (inRange : InRange constant) :
    Coverage.Reliable (line slope constant).evaluate where
  rises n later rise after := by
    rcases Int.le_total 0 slope with rising | falling
    · exact evaluate_line_mono constant rising after
    · have fall := evaluate_line_anti constant falling (Nat.le_succ n)
      exact Int.le_of_eq (evaluate_line_rest inRange (Int.le_antisymm rise fall) after).symm
  rests n later fall _ low after := by
    rcases Int.le_total 0 slope with rising | falling
    · have rise := evaluate_line_mono constant rising (Nat.le_succ (n + 1))
      exact .inr (evaluate_line_rest inRange (Int.le_antisymm rise fall)
        (Nat.lt_of_succ_lt after))
    · have lower := evaluate_line_anti constant falling (Nat.le_of_lt after)
      rcases low with low | rest
      · exact .inl (Int.le_trans lower low)
      · exact .inr (evaluate_line_rest inRange rest.symm (Nat.lt_of_succ_lt after))

end Line

end LinearEquation

namespace EquationParser

theorem linear_eq_ok {formula : String} {equation : Equation}
    (read : linear formula = .ok equation) :
    ∃ parsed, LinearEquation.parse formula.toList = .ok parsed ∧
      equation = parsed.toEquation := by
  unfold linear at read
  split at read
  case h_1 parsed accepted =>
    exact ⟨parsed, accepted, (Except.ok.inj read).symm⟩
  case h_2 => cases read
  case h_3 => cases read

theorem reliable_of_linear {formula : String} {equation : Equation}
    (read : linear formula = .ok equation) (names : equation.variableNames = ["n"]) :
    Coverage.Reliable equation.evaluate := by
  obtain ⟨parsed, accepted, rfl⟩ := linear_eq_ok read
  change Coverage.Reliable parsed.evaluate
  rw [LinearEquation.eq_line names]
  exact LinearEquation.reliable_line (LinearEquation.bounded_of_parse accepted).constant

end EquationParser

end CssQuery
