import CssQuery.Proofs.Formula.History
import CssQuery.Proofs.Formula.Running

/-!
# Exact membership

The positions that a formula `an + b` selects are the positive integers
`an + b` with a natural number `n`.  Clamped arithmetic and the early ends of
the search get this right for every position that stays `|b| + 2` below the end
of the 64-bit range: up to there no value is clamped into a position, and the
search for it comes to an end before the arguments run out.
-/

namespace CssQuery

namespace Coverage

/-- An answer to a question, for which there is no limit to the number of
evaluations. -/
inductive Answers (evaluate : Int → Int) (index : Int) (coverage : Coverage) :
    Coverage → Prop
  | known (covered : coverage.covers index = true) : Answers evaluate index coverage coverage
  | searched {settled : Coverage} (uncovered : coverage.covers index = false)
      (settles : Settles evaluate index coverage settled) :
      Answers evaluate index coverage
        { settled with maxIndex := max coverage.maxIndex index }

/-- A search ends for good, or with a value past the position that does not
fall. -/
theorem Settles.exhausted_or_rise {evaluate : Int → Int} {index : Int}
    {coverage settled : Coverage} (settles : Settles evaluate index coverage settled) :
    settled.exhausted = true ∨ ∃ n : Nat, evaluate n ≤ evaluate (n + 1 : Nat) ∧
      index < evaluate (n + 1 : Nat) := by
  induction settles with
  | passed judged =>
      obtain ⟨n, -, rise, past⟩ := verdict_eq_passed judged
      exact .inr ⟨n, rise, past⟩
  | exhausted judged => exact .inl rfl
  | undecided judged settles ih => exact ih

end Coverage

namespace LinearEquation

section Line

variable {slope constant index : Int}

/-- Clamping neither adds a position within reach nor loses one. -/
theorem evaluate_line_eq_iff (positive : 0 < index)
    (reach : index + constant.natAbs + 2 ≤ maxInteger) :
    (∃ n : Nat, n < Coverage.horizon ∧ (line slope constant).evaluate n = index) ↔
      ∃ n : Nat, slope * n + constant = index := by
  simp only [evaluate_line, clamp, minInteger, maxInteger, Coverage.horizon] at reach ⊢
  constructor
  · rintro ⟨n, -, value⟩
    exact ⟨n, by omega⟩
  · rintro ⟨n, value⟩
    rcases Int.lt_trichotomy slope 0 with falling | rfl | rising
    · have steep : slope * n ≤ -1 * n :=
        Int.mul_le_mul_of_nonneg_right (by omega) (by omega)
      exact ⟨n, by omega, by omega⟩
    · exact ⟨0, by omega, by omega⟩
    · have steep : 1 * (n : Int) ≤ slope * n :=
        Int.mul_le_mul_of_nonneg_right (by omega) (by omega)
      exact ⟨n, by omega, by omega⟩

/-- A line that does not fall has decided a position after `|b| + 2` further
arguments. -/
theorem verdict_line_of_nonneg (rising : 0 ≤ slope) (positive : 0 < index)
    (reach : index + constant.natAbs + 2 ≤ maxInteger) :
    Coverage.verdict (line slope constant).evaluate index
      (index.toNat + constant.natAbs + 1) ≠ .undecided := by
  rcases Int.lt_or_eq_of_le rising with rising | flat
  · have rise := evaluate_line_mono constant (Int.le_of_lt rising)
      (Nat.le_succ (index.toNat + constant.natAbs))
    have past : index < (line slope constant).evaluate
        (index.toNat + constant.natAbs + 1 : Nat) := by
      have steep : 1 * ((index.toNat + constant.natAbs + 1 : Nat) : Int) ≤
          slope * (index.toNat + constant.natAbs + 1 : Nat) :=
        Int.mul_le_mul_of_nonneg_right (by omega) (by omega)
      simp only [evaluate_line, clamp, minInteger, maxInteger] at reach ⊢
      omega
    rw [Coverage.verdict_of_rise rise past]
    simp
  · subst flat
    obtain ⟨n, argument⟩ : ∃ n, index.toNat + constant.natAbs + 1 = n + 2 :=
      ⟨index.toNat + constant.natAbs - 1, by omega⟩
    rw [argument]
    apply Coverage.verdict_of_fall
    · simp only [evaluate_line, Int.zero_mul, Int.le_refl]
    · simp only [evaluate_line, Int.zero_mul, Int.le_refl]
    · simp only [evaluate_line, Int.zero_mul, or_true]

/-- Up to an argument at which a falling line still moves, it is exact. -/
theorem evaluate_line_eq_of_moves (falling : slope < 0) (inRange : InRange constant)
    {n : Nat} (moves : (line slope constant).evaluate n ≠
      (line slope constant).evaluate (n + 1 : Nat)) (earlier : Nat) (le : earlier ≤ n) :
    (line slope constant).evaluate earlier = constant + slope * earlier := by
  have next := mul_succ_eq_add slope n
  have above : slope * n ≤ slope * earlier :=
    Int.mul_le_mul_of_nonpos_left (Int.le_of_lt falling) (by omega)
  have negative : slope * earlier ≤ 0 :=
    Int.mul_nonpos_of_nonpos_of_nonneg (Int.le_of_lt falling) (by omega)
  simp only [evaluate_line, clamp, minInteger, maxInteger, InRange] at moves inRange ⊢
  omega

/-- A falling line has decided every position at the latest two arguments
after it has fallen to zero. -/
theorem verdict_line_of_neg (index : Int) (falling : slope < 0) (inRange : InRange constant) :
    ∃ last ≤ max 2 constant.toNat + 2,
      Coverage.verdict (line slope constant).evaluate index last ≠ .undecided := by
  obtain ⟨n, zero⟩ : ∃ n, max 2 constant.toNat = n + 2 :=
    ⟨max 2 constant.toNat - 2, by omega⟩
  rw [zero]
  by_cases rest : (line slope constant).evaluate (n + 2 : Nat) =
      (line slope constant).evaluate (n + 3 : Nat)
  · -- The values have been clamped and rest.
    have resting := evaluate_line_rest inRange rest (Nat.lt_add_of_pos_right Nat.two_pos)
    refine ⟨n + 4, Nat.le_refl _, Coverage.verdict_of_fall ?_ ?_ ?_⟩
    · exact Int.le_of_eq resting
    · exact Int.le_of_eq (by rw [resting, rest])
    · exact .inr resting
  · -- The values are exact up to here, so that all steps are equal.
    have zeroth := evaluate_line_eq_of_moves falling inRange rest n (by omega)
    have first := evaluate_line_eq_of_moves falling inRange rest (n + 1) (by omega)
    have second := evaluate_line_eq_of_moves falling inRange rest (n + 2) (by omega)
    have firstStep := mul_succ_eq_add slope n
    have secondStep : slope * (n + 2 : Nat) = slope * (n + 1 : Nat) + slope :=
      mul_succ_eq_add slope (n + 1)
    have steep : slope * (n + 2 : Nat) ≤ -1 * (n + 2 : Nat) :=
      Int.mul_le_mul_of_nonneg_right (by omega) (by omega)
    refine ⟨n + 2, by omega, Coverage.verdict_of_fall ?_ ?_ ?_⟩
    · omega
    · have equal : (line slope constant).evaluate (n + 2 : Nat) -
            (line slope constant).evaluate (n + 1 : Nat) =
          (line slope constant).evaluate (n + 1 : Nat) -
            (line slope constant).evaluate n := by
        omega
      rw [subClamped, equal]
      exact Int.le_refl _
    · exact .inl (by omega)

/-- A falling line never passes a position while it does not fall. -/
theorem evaluate_line_nonpos_of_rise (falling : slope < 0) (inRange : InRange constant)
    {n : Nat} (rise : (line slope constant).evaluate n ≤
      (line slope constant).evaluate (n + 1 : Nat)) :
    (line slope constant).evaluate (n + 1 : Nat) ≤ 0 := by
  have next := mul_succ_eq_add slope n
  have negative : slope * n ≤ 0 :=
    Int.mul_nonpos_of_nonpos_of_nonneg (Int.le_of_lt falling) (by omega)
  simp only [evaluate_line, clamp, minInteger, maxInteger, InRange] at rise inRange ⊢
  omega

/-- How far a coverage of a line has come after questions within reach: it is
exhausted, or untouched, or at most `|b| + 2` arguments past the greatest
position. -/
def Paced (slope constant : Int) (coverage : Coverage) : Prop :=
  coverage.nextArgument < Coverage.horizon ∧ 0 ≤ coverage.maxIndex ∧
    (coverage.exhausted = true ∨ coverage.nextArgument = 0 ∨
      (0 ≤ slope ∧ (coverage.nextArgument : Int) ≤
        coverage.maxIndex + constant.natAbs + 2))

theorem paced_empty : Paced slope constant {} :=
  ⟨by decide, Int.le_refl _, .inr (.inl rfl)⟩

/-- A question within reach is answered before the arguments run out, and
keeps the pace. -/
theorem Paced.extendTo {coverage : Coverage} (paced : Paced slope constant coverage)
    (traces : Coverage.Traces (line slope constant).evaluate coverage)
    (inRange : InRange constant) (reach : index + constant.natAbs + 2 ≤ maxInteger) :
    Paced slope constant
        (coverage.extendTo Coverage.horizon (line slope constant).evaluate index) ∧
      Coverage.Answers (line slope constant).evaluate index coverage
        (coverage.extendTo Coverage.horizon (line slope constant).evaluate index) := by
  obtain ⟨below, nonneg, pace⟩ := paced
  unfold Coverage.extendTo
  by_cases covered : coverage.covers index = true
  · rw [if_pos covered]
    exact ⟨⟨below, nonneg, pace⟩, .known covered⟩
  rw [if_neg covered]
  have uncovered := covered
  simp only [Coverage.covers, Bool.or_eq_true, decide_eq_true_eq, not_or] at uncovered
  have positive : 0 < index := by omega
  replace pace := pace.resolve_left uncovered.1
  simp only [maxInteger] at reach
  have reach' : index + constant.natAbs + 2 ≤ maxInteger := by
    simp only [maxInteger]
    omega
  simp only [Coverage.horizon] at below
  -- The search ends by itself at `last`, which is no later than allowed.
  obtain ⟨last, start, soon, decided, slow⟩ : ∃ last, coverage.nextArgument ≤ last ∧
      last + 1 < 2 ^ 63 ∧
      Coverage.verdict (line slope constant).evaluate index last ≠ .undecided ∧
      (0 ≤ slope → (last : Int) + 1 ≤ index + constant.natAbs + 2) := by
    rcases Int.lt_or_le slope 0 with falling | rising
    · obtain ⟨last, early, decided⟩ := verdict_line_of_neg index falling inRange
      exact ⟨last, by omega, by omega, decided, by omega⟩
    · exact ⟨_, by omega, by omega, verdict_line_of_nonneg rising positive reach',
        by omega⟩
  obtain ⟨settles, ended⟩ := Coverage.search_settles traces
    (Coverage.horizon - coverage.nextArgument) decided start
    (by simp only [Coverage.horizon]; omega)
  refine ⟨⟨?_, ?_, ?_⟩, .searched (by simpa using covered) settles⟩
  · simp only [Coverage.horizon] at ended ⊢
    omega
  · simp only
    omega
  · rcases settles.exhausted_or_rise with exhausted | ⟨n, rise, past⟩
    · exact .inl exhausted
    · rcases Int.lt_or_le slope 0 with falling | rising
      · have low := evaluate_line_nonpos_of_rise falling inRange rise
        omega
      · refine .inr (.inr ⟨rising, ?_⟩)
        have latest := slow rising
        simp only
        omega

end Line

end LinearEquation

namespace FormulaCache

def Paced (cache : FormulaCache) (id : EntryId) (slope constant : Int) : Prop :=
  ∀ entry, cache.entries[id]? = some entry →
    entry.equation = (LinearEquation.line slope constant).toEquation →
      LinearEquation.Paced slope constant entry.coverage

section Paced

variable {cache : FormulaCache} {id : EntryId} {slope constant : Int}

theorem paced_empty (capacity : Option Nat) :
    (FormulaCache.empty capacity).Paced id slope constant :=
  Keeps.empty capacity

theorem Paced.request (paced : cache.Paced id slope constant) (text : String) :
    (cache.request text).2.Paced id slope constant :=
  Keeps.request paced LinearEquation.paced_empty text

theorem Paced.run (paced : cache.Paced id slope constant) (sound : cache.Sound)
    (inRange : InRange constant) (history : List CacheCommand)
    (reach : ∀ index, .contains id index ∈ history →
      index + constant.natAbs + 2 ≤ maxInteger) :
    (cache.run history).Paced id slope constant := by
  refine Keeps.run paced sound LinearEquation.paced_empty history ?_
  intro index asked coverage traces kept
  exact (kept.extendTo traces inRange (reach index asked)).1

end Paced

end FormulaCache

namespace Formula

/-- A compiled formula is an entry that holds the line its text writes. -/
theorem entry_of_compile {cache compiled : FormulaCache} {text : String} {id : EntryId}
    (sound : cache.Sound)
    (compile : Compiling.runOn (compile text) cache = (.ok (.expression id), compiled)) :
    cache.request (normalize text) = (.ok id, compiled) ∧
      ∃ equation entry, LinearEquation.parse (normalize text).toList = .ok equation ∧
        equation = .line (equation.coefficient "n") equation.constant ∧
        InRange equation.constant ∧
        compiled.entries[id]? = some entry ∧ entry.equation = equation.toEquation := by
  have requested : cache.request (normalize text) = (.ok id, compiled) := by
    rcases runOn_compile_eq_ok.mp compile with ⟨_, _, ⟨⟩, _⟩ | ⟨_, _, ⟨⟩, requested⟩
    exact requested
  have requestedSound := sound.request (normalize text)
  rw [requested] at requestedSound
  obtain ⟨entry, found, text_eq⟩ := requestedSound.2 id rfl
  have entrySound := requestedSound.1.entries id entry found
  obtain ⟨equation, parsed, equation_eq⟩ := EquationParser.linear_eq_ok entrySound.parsed
  rw [text_eq] at parsed
  have names := entrySound.variableNames_eq
  rw [equation_eq] at names
  exact ⟨requested, equation, entry, parsed, LinearEquation.eq_line names,
    (LinearEquation.bounded_of_parse parsed).constant, found, equation_eq⟩

/-- A compiled formula `an + b` answers every question within reach exactly,
whatever was asked before it, of this entry or of another, and however the
texts held have changed.  The evaluation comes to an end by itself, and before
its argument leaves the 64-bit range. -/
theorem contains_iff_exists_multiple {capacity : Option Nat}
    {history : List CacheCommand} {text : String} {id : EntryId}
    {compiled : FormulaCache}
    (compile : Compiling.runOn (compile text) ((FormulaCache.empty capacity).run history) =
      (.ok (.expression id), compiled)) :
    ∃ equation, LinearEquation.parse (normalize text).toList = .ok equation ∧
      ∀ (later : List CacheCommand) (index : Int),
        (∀ asked, .contains id asked ∈ history ++ later ++ [.contains id index] →
          asked + equation.constant.natAbs + 2 ≤ maxInteger) →
        ∃ before after,
          (compiled.run later).entries[id]? = some before ∧
          ((compiled.run later).contains id index).2.entries[id]? = some after ∧
          Coverage.Answers equation.evaluate index before.coverage after.coverage ∧
          after.coverage.nextArgument < Coverage.horizon ∧
          (((compiled.run later).contains id index).1 = true ↔
            1 ≤ index ∧
              ∃ n : Nat, equation.coefficient "n" * n + equation.constant = index) := by
  have sound := (FormulaCache.Sound.empty capacity).run history
  obtain ⟨requested, equation, entry, parsed, line, inRange, found, equation_eq⟩ :=
    entry_of_compile sound compile
  have compiledSound := (sound.request (normalize text)).1
  rw [requested] at compiledSound
  refine ⟨equation, parsed, fun later index reach => ?_⟩
  -- The entry keeps its equation, and its coverage keeps pace with it.
  obtain ⟨before, foundBefore, -, equationBefore⟩ :=
    FormulaCache.Extends.run compiled later id entry found
  have laterSound := compiledSound.run later
  have beforeSound := laterSound.entries id before foundBefore
  have line_eq : before.equation =
      (LinearEquation.line (equation.coefficient "n") equation.constant).toEquation := by
    rw [equationBefore, equation_eq, ← line]
  have start : (FormulaCache.empty capacity).Paced id (equation.coefficient "n")
      equation.constant := FormulaCache.paced_empty capacity
  have paced := start.run (FormulaCache.Sound.empty capacity) inRange history
    fun asked known => reach asked (by simp [known])
  have pacedCompiled := paced.request (normalize text)
  rw [requested] at pacedCompiled
  have pacedBefore := pacedCompiled.run compiledSound inRange later
    fun asked known => reach asked (by simp [known])
  have traces := beforeSound.knows.toTraces
  rw [line_eq] at traces
  have within := reach index (by simp)
  obtain ⟨pacedAfter, answers⟩ :=
    (pacedBefore before foundBefore line_eq).extendTo traces inRange within
  refine ⟨before, before.ask index, foundBefore, ?_, ?_, ?_, ?_⟩
  · rw [FormulaCache.entries_contains, if_pos rfl, foundBefore, Option.map_some]
  · rw [FormulaEntry.ask, line_eq]
    rw [← line] at answers ⊢
    exact answers
  · rw [FormulaEntry.ask, line_eq]
    exact pacedAfter.1
  · rw [laterSound.contains_iff, FormulaCache.Selects]
    simp only [foundBefore, Option.some.injEq, exists_eq_left', FormulaEntry.Selects, line_eq]
    constructor
    · rintro ⟨positive, value⟩
      exact ⟨positive, (LinearEquation.evaluate_line_eq_iff positive within).mp value⟩
    · rintro ⟨positive, value⟩
      exact ⟨positive, (LinearEquation.evaluate_line_eq_iff positive within).mpr value⟩

/-- The third formula of a cache that holds one text, asked for a position past
all of its own and then for one of them. -/
theorem contains_descending_formula :
    ∃ compiled, Compiling.runOn (compile " -3N + 10 ")
        ((FormulaCache.empty (some 1)).run [.request "2n", .contains 0 4, .request "n"]) =
          (.ok (.expression 2), compiled) ∧
      ((compiled.run [.contains 2 20, .contains 0 9]).contains 2 7).1 = true := by
  have compiled : Compiling.runOn (compile " -3N + 10 ")
      ((FormulaCache.empty (some 1)).run [.request "2n", .contains 0 4, .request "n"]) =
        (.ok (.expression 2), _) := rfl
  refine ⟨_, compiled, ?_⟩
  obtain ⟨equation, parsed, exact⟩ := contains_iff_exists_multiple compiled
  have line : LinearEquation.parse (normalize " -3N + 10 ").toList =
      .ok (LinearEquation.line (-3) 10) := rfl
  obtain rfl := Except.ok.inj (parsed.symm.trans line)
  obtain ⟨before, after, -, -, -, -, selected⟩ :=
    exact [.contains 2 20, .contains 0 9] 7 (by
      simp only [LinearEquation.line, maxInteger, List.cons_append, List.nil_append,
        List.mem_cons, CacheCommand.contains.injEq, reduceCtorEq, false_or]
      rintro asked (⟨⟨⟩, -⟩ | ⟨-, rfl⟩ | ⟨⟨⟩, -⟩ | ⟨-, rfl⟩ | ⟨⟨⟩⟩)
      · decide
      · decide)
  exact selected.mpr ⟨by decide, 1, rfl⟩

end Formula

end CssQuery
