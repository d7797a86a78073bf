import CssQuery.Proofs.Formula.Questions

/-!
# Equations that fall and then rise

A search gives up for good on values that are not positive and fall without
slowing down.  An equation that falls in ever smaller steps and rises after a
turning point may dip far below zero and come back, and its differences may be
clamped; the search still never gives up on it too early, because two falls in
a row that both leave the 64-bit range would leave the range of the values.

As values of the range cannot rise for ever, every question about such an
equation comes to an end.
-/

namespace CssQuery

namespace Coverage

/-- The values fall in strictly shrinking steps up to a turning point.  After
it they never fall, and rest only in the first step or for good. -/
structure Turns (evaluate : Int → Int) (turn : Nat) : Prop where
  falls : ∀ n < turn, evaluate (n + 1 : Nat) < evaluate n
  slows : ∀ n, n + 2 ≤ turn → evaluate (n + 1 : Nat) - evaluate n <
    evaluate (n + 2 : Nat) - evaluate (n + 1 : Nat)
  rises : ∀ n ≥ turn, evaluate n ≤ evaluate (n + 1 : Nat)
  rests : ∀ n > turn, evaluate (n + 1 : Nat) = evaluate n →
    ∀ later ≥ n, evaluate later = evaluate n

namespace Turns

variable {evaluate : Int → Int} {turn : Nat}

theorem mono (turns : Turns evaluate turn) {n later : Nat} (turned : turn ≤ n)
    (le : n ≤ later) : evaluate n ≤ evaluate later := by
  induction le with
  | refl => exact Int.le_refl _
  | @step later le ih =>
      exact Int.le_trans ih (turns.rises later (Nat.le_trans turned le))

/-- Clamping the differences does not hide that the falls get smaller. -/
theorem subClamped_lt (turns : Turns evaluate turn)
    (inRange : ∀ n : Nat, InRange (evaluate n)) {n : Nat} (before : n + 2 ≤ turn) :
    subClamped (evaluate (n + 1 : Nat)) (evaluate n) <
      subClamped (evaluate (n + 2 : Nat)) (evaluate (n + 1 : Nat)) := by
  have first := turns.falls n (by omega)
  have second : evaluate (n + 2 : Nat) < evaluate (n + 1 : Nat) :=
    turns.falls (n + 1) (by omega)
  have slower := turns.slows n before
  have highest := (inRange n).2
  have lowest := (inRange (n + 2)).1
  simp only [subClamped, clamp, minInteger, maxInteger] at highest lowest ⊢
  omega

theorem reliable (turns : Turns evaluate turn)
    (inRange : ∀ n : Nat, InRange (evaluate n)) : Reliable evaluate where
  rises n later rise after := by
    have turned : turn ≤ n := by
      by_contra falling
      have fall := turns.falls n (by omega)
      omega
    exact turns.mono (by omega) after
  rests n later fall steady _ after := by
    -- A fall that does not slow down is none: the values have come to rest.
    have turned : turn ≤ n + 1 := by
      by_contra falling
      have slower := turns.subClamped_lt inRange (n := n) (by omega)
      omega
    have rest : evaluate (n + 2 : Nat) = evaluate (n + 1 : Nat) :=
      Int.le_antisymm fall (turns.rises (n + 1) turned)
    have flat : subClamped (evaluate (n + 2 : Nat)) (evaluate (n + 1 : Nat)) = 0 :=
      subClamped_eq_zero_iff.mpr rest
    have risen : evaluate n ≤ evaluate (n + 1 : Nat) :=
      subClamped_nonneg_iff.mp (flat ▸ steady)
    have past : turn < n + 1 := by
      by_contra atTurn
      have fell := turns.falls n (by omega)
      omega
    right
    rw [turns.rests (n + 1) past rest later (by omega), rest]

/-- Values of the range cannot rise at every argument. -/
theorem exists_rest (turns : Turns evaluate turn)
    (inRange : ∀ n : Nat, InRange (evaluate n)) (start : Nat) :
    ∃ n ≥ start, turn < n ∧ evaluate (n + 1 : Nat) = evaluate n := by
  by_contra never
  push Not at never
  have climbs : ∀ count : Nat,
      evaluate (start + turn + 1 : Nat) + count ≤ evaluate (start + turn + 1 + count : Nat) := by
    intro count
    induction count with
    | zero => simp
    | succ count ih =>
        have moves := never (start + turn + 1 + count) (by omega) (by omega)
        have rises := turns.rises (start + turn + 1 + count) (by omega)
        rw [← Nat.add_assoc]
        omega
  have lowest := (inRange (start + turn + 1)).1
  have highest := (inRange (start + turn + 1 + 2 ^ 64)).2
  have climbed := climbs (2 ^ 64)
  simp only [minInteger, maxInteger] at lowest highest
  omega

/-- From every argument on there is one that decides a position. -/
theorem exists_decided (turns : Turns evaluate turn)
    (inRange : ∀ n : Nat, InRange (evaluate n)) (index : Int) (start : Nat) :
    ∃ last ≥ start, verdict evaluate index last ≠ .undecided := by
  obtain ⟨n, after, turned, rest⟩ := turns.exists_rest inRange start
  have later : evaluate (n + 2 : Nat) = evaluate n :=
    turns.rests n turned rest (n + 2) (by omega)
  refine ⟨n + 2, by omega, verdict_of_fall ?_ ?_ (.inr ?_)⟩
  · omega
  · exact Int.le_of_eq (by rw [later, rest])
  · omega

theorem exists_answers (turns : Turns evaluate turn)
    (inRange : ∀ n : Nat, InRange (evaluate n)) {before : Coverage}
    (traces : Traces evaluate before) (index : Int) :
    ∃ after, Answers evaluate index before after := by
  by_cases covered : before.covers index = true
  · exact ⟨before, .known covered⟩
  · obtain ⟨last, start, decided⟩ :=
      turns.exists_decided inRange index before.nextArgument
    have settles := (search_settles traces (last + 1) decided start (by omega)).1
    exact ⟨_, .searched (by simpa using covered) settles⟩

theorem exists_asked (turns : Turns evaluate turn)
    (inRange : ∀ n : Nat, InRange (evaluate n)) {before : Coverage}
    (traces : Traces evaluate before) (questions : List Int) :
    ∃ after, Asked evaluate questions before after := by
  induction questions generalizing before with
  | nil => exact ⟨before, .nil⟩
  | cons index questions ih =>
      obtain ⟨middle, answers⟩ := turns.exists_answers inRange traces index
      obtain ⟨after, asked⟩ := ih (answers.traces traces)
      exact ⟨after, .cons answers asked⟩

end Turns

section Answers

variable {evaluate : Int → Int} {index : Int} {questions : List Int}
  {before after : Coverage}

/-- What is found is a positive value. -/
theorem Traces.of_contains (traces : Traces evaluate after)
    (found : after.contains index = true) :
    1 ≤ index ∧ ∃ n : Nat, evaluate n = index := by
  rw [contains, List.contains_iff_mem, traces.mem_positions] at found
  obtain ⟨positive, n, -, value⟩ := found
  exact ⟨positive, n, value⟩

/-- A reliable equation is known without a limit to its arguments, since any
limit past the arguments tried gives the same coverage. -/
theorem Asked.contains_iff (reliable : Reliable evaluate)
    (asked : Asked evaluate questions {} before)
    (answers : Answers evaluate index before after) :
    after.contains index = true ↔ 1 ≤ index ∧ ∃ n : Nat, evaluate n = index := by
  have traces := asked.traces .empty
  refine ⟨(answers.traces traces).of_contains, ?_⟩
  rintro ⟨positive, n, value⟩
  have nothing : Knows (max after.nextArgument (n + 1)) evaluate {} := .empty
  have knows := nothing.extendAll reliable questions
  have enough : after.nextArgument ≤ max after.nextArgument (n + 1) := Nat.le_max_left _ _
  have start := Nat.le_trans answers.nextArgument_le enough
  have extended := knows.extendTo reliable index
  have covered := covers_extendTo (max after.nextArgument (n + 1)) evaluate index before
  rw [asked.extendAll_eq .empty start, answers.extendTo_eq traces enough] at extended
  rw [answers.extendTo_eq traces enough] at covered
  exact (extended.contains_iff covered).mpr ⟨positive, n, by omega, value⟩

/-- Whatever the equation and the questions, only positive values are found,
the greatest position decided never gets smaller, and over all questions each
argument is evaluated once, in increasing order.  If the values fall and then
rise, every question comes to an end with the right answer. -/
theorem answers_of_turning (text : String) (equation : Equation) :
    (∀ questions index before after,
      Asked equation.evaluate questions {} before →
      Answers equation.evaluate index before after →
        (after.contains index = true →
          1 ≤ index ∧ ∃ n : Nat, equation.evaluate n = index) ∧
        before.maxIndex ≤ after.maxIndex ∧
        (∀ limit ≥ after.nextArgument,
          (extendAllM limit (recorded equation.evaluate) (questions ++ [index]) {}).run [] =
            (after, argumentsBelow after.nextArgument)) ∧
        (after.nextArgument ≤ horizon →
          (FormulaEntry.askAll ⟨text, equation, {}⟩ (questions ++ [index])).coverage =
            after)) ∧
    ∀ turn, (∀ n : Nat, InRange (equation.evaluate n)) → Turns equation.evaluate turn →
      (∀ questions,
        (∃ before, Asked equation.evaluate questions {} before) ∧
        ∀ before index, Asked equation.evaluate questions {} before →
          (∃ after, Answers equation.evaluate index before after) ∧
          ∀ after, Answers equation.evaluate index before after →
            (after.contains index = true ↔
              1 ≤ index ∧ ∃ n : Nat, equation.evaluate n = index)) ∧
      ∀ questions index,
        (FormulaEntry.askAll ⟨text, equation, {}⟩ (questions ++ [index])).coverage.contains
            index = true ↔
          1 ≤ index ∧ ∃ n : Nat, n < horizon ∧ equation.evaluate n = index := by
  constructor
  · intro questions index before after asked answers
    have traces := asked.traces .empty
    have whole := asked.concat answers
    refine ⟨(answers.traces traces).of_contains, answers.maxIndex_le, ?_, ?_⟩
    · intro limit enough
      have run := @run_extendAllM equation.evaluate limit (questions ++ [index]) {}
      rwa [whole.extendAll_eq .empty enough] at run
    · intro enough
      rw [FormulaEntry.askAll_eq]
      exact whole.extendAll_eq .empty enough
  · intro turn inRange turns
    have reliable := turns.reliable inRange
    refine ⟨fun questions => ⟨turns.exists_asked inRange .empty questions, ?_⟩, ?_⟩
    · intro before index asked
      exact ⟨turns.exists_answers inRange (asked.traces .empty) index,
        fun after answers => asked.contains_iff reliable answers⟩
    · intro questions index
      have nothing : Knows horizon equation.evaluate {} := .empty
      have knows := nothing.extendAll reliable questions
      have covered := covers_extendTo horizon equation.evaluate index
        (extendAll horizon equation.evaluate questions {})
      rw [FormulaEntry.askAll_eq, extendAll, List.foldl_append]
      exact (knows.extendTo reliable index).contains_iff covered

/-- The parabola `n² - 6n + 5`, below zero from 2 to 4. -/
def parabola : Equation :=
  ⟨["n"], fun n => clamp (n * n - 6 * n + 5)⟩

theorem turns_parabola : Turns parabola.evaluate 3 := by
  have step : ∀ n : Nat, ((n + 1 : Nat) : Int) * (n + 1 : Nat) = n * n + 2 * n + 1 :=
    fun n => by grind
  have rises : ∀ n : Nat, n ≥ 3 →
      parabola.evaluate n ≤ parabola.evaluate (n + 1 : Nat) := by
    intro n turned
    have next := step n
    exact clamp_mono (by omega)
  refine ⟨by decide, ?_, rises, ?_⟩
  · intro n before
    obtain rfl | rfl : n = 0 ∨ n = 1 := by omega
    · decide
    · decide
  · -- Only the end of the range brings the values to rest.
    intro n turned rest later after
    have next := step n
    have vertex : (0 : Int) ≤ n * n - 6 * n + 9 := by
      have square := Int.mul_nonneg (a := (n : Int) - 3) (b := n - 3) (by omega) (by omega)
      grind
    have highest : parabola.evaluate n = maxInteger := by
      simp only [parabola, clamp, minInteger, maxInteger, next] at rest ⊢
      omega
    have higher : parabola.evaluate n ≤ parabola.evaluate later := by
      induction after with
      | refl => exact Int.le_refl _
      | @step later after ih =>
          exact Int.le_trans ih (rises later (Nat.le_trans (Nat.le_of_lt turned) after))
    have lower := (clamp_inRange (later * later - 6 * later + 5)).2
    exact Int.le_antisymm (highest ▸ lower) higher

/-- A position that the parabola takes after its dip, asked for when a higher
one, one that is none and one from before the dip have been. -/
theorem answers_parabola :
    (∀ n : Nat, InRange (parabola.evaluate n)) ∧ Turns parabola.evaluate 3 ∧
      ∃ before after, Asked parabola.evaluate [20, -1, 5] {} before ∧
        Answers parabola.evaluate 12 before after ∧
        before.maxIndex ≤ after.maxIndex ∧ after.contains 12 = true := by
  have inRange : ∀ n : Nat, InRange (parabola.evaluate n) := fun n => clamp_inRange _
  obtain ⟨general, turning⟩ := answers_of_turning "n * n - 6 * n + 5" parabola
  obtain ⟨⟨before, asked⟩, exact⟩ := (turning 3 inRange turns_parabola).1 [20, -1, 5]
  obtain ⟨⟨after, answers⟩, right⟩ := exact before 12 asked
  exact ⟨inRange, turns_parabola, before, after, asked, answers,
    (general _ _ _ _ asked answers).2.1,
    (right after answers).mpr ⟨by decide, 7, rfl⟩⟩

end Answers

end Coverage

end CssQuery
