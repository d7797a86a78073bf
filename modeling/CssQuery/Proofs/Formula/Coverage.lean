import CssQuery.Formula.Coverage

/-!
# What a coverage knows

A coverage stops evaluating its equation on the strength of the last two steps
alone.  Whether that is right depends on the values still to come: `Reliable`
is the condition on a sequence of values under which neither reason to stop
ever loses a position.

For any equation a coverage traces the values tried so far.  For a reliable
one it also knows every position that it has decided, whatever the questions
were and in whichever order they came.
-/

namespace CssQuery

namespace Coverage

def lastValue (evaluate : Int → Int) : (tried : Nat) → Option Int
  | 0 => none
  | n + 1 => some (evaluate n)

/-- The difference of the last two of the first `tried` values. -/
def lastStep (evaluate : Int → Int) : (tried : Nat) → Option Int
  | 0 | 1 => none
  | n + 2 => some (subClamped (evaluate (n + 1 : Nat)) (evaluate n))

/-- What the value at an argument says about a position. -/
def verdict (evaluate : Int → Int) (index : Int) (argument : Nat) : CoverageStop :=
  judge index (evaluate argument) (lastStep evaluate argument)
    (lastStep evaluate (argument + 1))

/-- The values that a stop of the search is right about.  Once the values do
not fall they never fall again, and where the search takes them to be at rest
or to fall for good, no later value is a new position. -/
structure Reliable (evaluate : Int → Int) : Prop where
  rises : ∀ n later : Nat, evaluate n ≤ evaluate (n + 1 : Nat) → n < later →
    evaluate (n + 1 : Nat) ≤ evaluate later
  rests : ∀ n later : Nat, evaluate (n + 2 : Nat) ≤ evaluate (n + 1 : Nat) →
    subClamped (evaluate (n + 2 : Nat)) (evaluate (n + 1 : Nat)) ≤
      subClamped (evaluate (n + 1 : Nat)) (evaluate n) →
    evaluate (n + 2 : Nat) ≤ 0 ∨ evaluate (n + 2 : Nat) = evaluate (n + 1 : Nat) →
    n + 2 < later → evaluate later ≤ 0 ∨ evaluate later = evaluate (n + 2 : Nat)

/-- The fields of a coverage agree with the values at the arguments tried. -/
structure Traces (evaluate : Int → Int) (coverage : Coverage) : Prop where
  mem_positions : ∀ position, position ∈ coverage.positions ↔
    0 < position ∧ ∃ n : Nat, n < coverage.nextArgument ∧ evaluate n = position
  previous_eq : coverage.previous = lastValue evaluate coverage.nextArgument
  previousStep_eq : coverage.previousStep = lastStep evaluate coverage.nextArgument

/-- A coverage traces the values tried, and of the positions it has decided
it has found every one that is the value at an argument below `limit`. -/
structure Knows (limit : Nat) (evaluate : Int → Int) (coverage : Coverage) : Prop
    extends Traces evaluate coverage where
  nextArgument_le : coverage.nextArgument ≤ limit
  maxIndex_nonneg : 0 ≤ coverage.maxIndex
  complete : ∀ position, 0 < position → coverage.covers position = true →
    ∀ n : Nat, n < limit → evaluate n = position → position ∈ coverage.positions

/-- Evaluation at further arguments, with no limit to their number, comes to
an end when the position is decided. -/
inductive Settles (evaluate : Int → Int) (index : Int) : Coverage → Coverage → Prop
  | passed {coverage : Coverage}
      (judged : verdict evaluate index coverage.nextArgument = .passed) :
      Settles evaluate index coverage (coverage.advance evaluate)
  | exhausted {coverage : Coverage}
      (judged : verdict evaluate index coverage.nextArgument = .exhausted) :
      Settles evaluate index coverage
        { coverage.advance evaluate with exhausted := true }
  | undecided {coverage settled : Coverage}
      (judged : verdict evaluate index coverage.nextArgument = .undecided)
      (settles : Settles evaluate index (coverage.advance evaluate) settled) :
      Settles evaluate index coverage settled

section Judgement

variable {evaluate : Int → Int} {index : Int}

theorem verdict_zero : verdict evaluate index 0 = .undecided := rfl

theorem verdict_eq_passed {argument : Nat}
    (passed : verdict evaluate index argument = .passed) :
    ∃ n : Nat, argument = n + 1 ∧ evaluate n ≤ evaluate (n + 1 : Nat) ∧
      index < evaluate (n + 1 : Nat) := by
  cases argument with
  | zero => simp [verdict_zero] at passed
  | succ n =>
      refine ⟨n, rfl, ?_⟩
      simp only [verdict, lastStep, judge, subClamped_nonneg_iff] at passed
      split at passed
      · rename_i condition
        exact ⟨condition.2, condition.1⟩
      · split at passed
        · simp at passed
        · split at passed <;> simp at passed

theorem verdict_eq_exhausted {argument : Nat}
    (exhausted : verdict evaluate index argument = .exhausted) :
    ∃ n : Nat, argument = n + 2 ∧
      evaluate (n + 2 : Nat) ≤ evaluate (n + 1 : Nat) ∧
      subClamped (evaluate (n + 2 : Nat)) (evaluate (n + 1 : Nat)) ≤
        subClamped (evaluate (n + 1 : Nat)) (evaluate n) ∧
      (evaluate (n + 2 : Nat) ≤ 0 ∨
        evaluate (n + 2 : Nat) = evaluate (n + 1 : Nat)) := by
  match argument with
  | 0 => simp [verdict_zero] at exhausted
  | 1 =>
      simp only [verdict, lastStep, judge] at exhausted
      split at exhausted <;> simp at exhausted
  | n + 2 =>
      refine ⟨n, rfl, ?_⟩
      simp only [verdict, lastStep, judge, subClamped_nonpos_iff,
        subClamped_eq_zero_iff] at exhausted
      split at exhausted
      · simp at exhausted
      · split at exhausted
        · rename_i condition
          exact condition
        · simp at exhausted

/-- A value past the position that is no smaller than the one before it ends
the search. -/
theorem verdict_of_rise {n : Nat} (rise : evaluate n ≤ evaluate (n + 1 : Nat))
    (past : index < evaluate (n + 1 : Nat)) :
    verdict evaluate index (n + 1) = .passed := by
  simp only [verdict, lastStep, judge, subClamped_nonneg_iff]
  exact if_pos ⟨past, rise⟩

theorem verdict_of_fall {n : Nat}
    (fall : evaluate (n + 2 : Nat) ≤ evaluate (n + 1 : Nat))
    (steady : subClamped (evaluate (n + 2 : Nat)) (evaluate (n + 1 : Nat)) ≤
      subClamped (evaluate (n + 1 : Nat)) (evaluate n))
    (low : evaluate (n + 2 : Nat) ≤ 0 ∨
      evaluate (n + 2 : Nat) = evaluate (n + 1 : Nat)) :
    verdict evaluate index (n + 2) ≠ .undecided := by
  simp only [verdict, lastStep, judge, subClamped_nonpos_iff, subClamped_eq_zero_iff]
  split
  · simp
  · rw [if_pos ⟨fall, steady, low⟩]
    simp

end Judgement

namespace Traces

variable {evaluate : Int → Int} {coverage : Coverage}

theorem empty : Traces evaluate {} :=
  ⟨by simp, rfl, rfl⟩

theorem advance (traces : Traces evaluate coverage) :
    Traces evaluate (coverage.advance evaluate) where
  mem_positions position := by
    have tried : (∃ n : Nat, n < coverage.nextArgument + 1 ∧ evaluate n = position) ↔
        position = evaluate coverage.nextArgument ∨
          ∃ n : Nat, n < coverage.nextArgument ∧ evaluate n = position := by
      constructor
      · rintro ⟨n, below, rfl⟩
        rcases Nat.lt_succ_iff_lt_or_eq.mp below with below | rfl
        · exact .inr ⟨n, below, rfl⟩
        · exact .inl rfl
      · rintro (rfl | ⟨n, below, rfl⟩)
        · exact ⟨_, Nat.lt_succ_self _, rfl⟩
        · exact ⟨n, Nat.lt_succ_of_lt below, rfl⟩
    simp only [Coverage.advance]
    rw [tried]
    split
    · rw [List.mem_cons, traces.mem_positions]
      constructor
      · rintro (rfl | found)
        · exact ⟨by assumption, .inl rfl⟩
        · exact ⟨found.1, .inr found.2⟩
      · rintro ⟨positive, rfl | found⟩
        · exact .inl rfl
        · exact .inr ⟨positive, found⟩
    · rw [traces.mem_positions]
      constructor
      · exact fun found => ⟨found.1, .inr found.2⟩
      · rintro ⟨positive, rfl | found⟩
        · exact absurd positive (by assumption)
        · exact ⟨positive, found⟩
  previous_eq := rfl
  previousStep_eq := by
    simp only [Coverage.advance, traces.previous_eq]
    cases coverage.nextArgument <;> rfl

theorem exhaust (traces : Traces evaluate coverage) :
    Traces evaluate { coverage with exhausted := true } :=
  ⟨traces.mem_positions, traces.previous_eq, traces.previousStep_eq⟩

theorem setMaxIndex (traces : Traces evaluate coverage) (maxIndex : Int) :
    Traces evaluate { coverage with maxIndex := maxIndex } :=
  ⟨traces.mem_positions, traces.previous_eq, traces.previousStep_eq⟩

theorem judge_eq (traces : Traces evaluate coverage) (index : Int) :
    judge index (evaluate coverage.nextArgument) coverage.previousStep
        (coverage.advance evaluate).previousStep =
      verdict evaluate index coverage.nextArgument := by
  rw [traces.previousStep_eq, traces.advance.previousStep_eq]
  rfl

end Traces

section Search

variable {evaluate : Int → Int} {index : Int} {coverage : Coverage}

/-- Three cases for one round of the search, told apart by what the value says
about the position. -/
theorem search_succ (traces : Traces evaluate coverage) (budget : Nat) :
    search evaluate index (budget + 1) coverage =
      match verdict evaluate index coverage.nextArgument with
      | .undecided => search evaluate index budget (coverage.advance evaluate)
      | .passed => coverage.advance evaluate
      | .exhausted => { coverage.advance evaluate with exhausted := true } := by
  rw [← traces.judge_eq]
  rfl

theorem search_traces (traces : Traces evaluate coverage) (budget : Nat) :
    Traces evaluate (search evaluate index budget coverage) := by
  induction budget generalizing coverage with
  | zero => exact traces.exhaust
  | succ budget ih =>
      rw [search_succ traces]
      split
      · exact ih traces.advance
      · exact traces.advance
      · exact traces.advance.exhaust

theorem search_nextArgument_le (budget : Nat) :
    (search evaluate index budget coverage).nextArgument ≤
      coverage.nextArgument + budget := by
  induction budget generalizing coverage with
  | zero => exact Nat.le_refl _
  | succ budget ih =>
      simp only [search]
      split
      · have later := @ih (coverage.advance evaluate)
        simp only [advance] at later ⊢
        omega
      · simp only [advance]
        omega
      · simp only [advance]
        omega

/-- A search that has the arguments below `limit` at its disposal misses no
value among them that it claims to know. -/
theorem search_complete {limit : Nat} (reliable : Reliable evaluate)
    (traces : Traces evaluate coverage) (open' : coverage.exhausted = false)
    (budget : Nat) (enough : coverage.nextArgument + budget = limit)
    {position : Int} (positive : 0 < position)
    (claimed : (search evaluate index budget coverage).exhausted = true ∨
      position ≤ index)
    {n : Nat} (below : n < limit) (value : evaluate n = position) :
    position ∈ (search evaluate index budget coverage).positions := by
  induction budget generalizing coverage with
  | zero => exact (traces.mem_positions position).mpr ⟨positive, n, by omega, value⟩
  | succ budget ih =>
      -- A value among those tried has been found; only later ones could be lost.
      have found : n < coverage.nextArgument + 1 →
          position ∈ (coverage.advance evaluate).positions := fun tried =>
        (traces.advance.mem_positions position).mpr ⟨positive, n, tried, value⟩
      rw [search_succ traces] at claimed ⊢
      split at claimed
      case h_1 judged =>
        exact ih traces.advance open' (by simp only [advance]; omega) claimed
      case h_2 judged =>
        have reached : position ≤ index := by
          rcases claimed with exhausted | reached
          · simp [advance, open'] at exhausted
          · exact reached
        obtain ⟨previous, last, rise, past⟩ := verdict_eq_passed judged
        by_cases tried : n < coverage.nextArgument + 1
        · exact found tried
        · have higher := reliable.rises previous n rise (by omega)
          omega
      case h_3 judged =>
        obtain ⟨previous, last, fall, steady, low⟩ := verdict_eq_exhausted judged
        by_cases tried : n < coverage.nextArgument + 1
        · exact found tried
        · rcases reliable.rests previous n fall steady low (by omega) with lower | same
          · omega
          · exact (traces.advance.mem_positions position).mpr
              ⟨positive, previous + 2, by simp only [advance]; omega, by omega⟩

/-- If some argument within the budget decides the position, the search comes
to its end by itself, at that argument at the latest. -/
theorem search_settles (traces : Traces evaluate coverage) (budget : Nat) {last : Nat}
    (decided : verdict evaluate index last ≠ .undecided)
    (start : coverage.nextArgument ≤ last)
    (enough : last < coverage.nextArgument + budget) :
    Settles evaluate index coverage (search evaluate index budget coverage) ∧
      (search evaluate index budget coverage).nextArgument ≤ last + 1 := by
  induction budget generalizing coverage with
  | zero => omega
  | succ budget ih =>
      rw [search_succ traces]
      split
      case h_1 judged =>
        have before : coverage.nextArgument ≠ last := by
          rintro rfl
          exact decided judged
        have later := ih traces.advance (by simp only [advance]; omega)
          (by simp only [advance]; omega)
        exact ⟨.undecided judged later.1, later.2⟩
      case h_2 judged =>
        exact ⟨.passed judged, by simp only [advance]; omega⟩
      case h_3 judged =>
        exact ⟨.exhausted judged, by simp only [advance]; omega⟩

end Search

namespace Knows

variable {evaluate : Int → Int} {coverage : Coverage} {limit : Nat}

theorem empty : Knows limit evaluate {} where
  toTraces := .empty
  nextArgument_le := Nat.zero_le _
  maxIndex_nonneg := Int.le_refl _
  complete position positive covered := by
    simp only [covers, Bool.false_or, decide_eq_true_eq] at covered
    omega

/-- A question about any position keeps what is known. -/
theorem extendTo (reliable : Reliable evaluate) (knows : Knows limit evaluate coverage)
    (index : Int) : Knows limit evaluate (coverage.extendTo limit evaluate index) := by
  unfold Coverage.extendTo
  split
  · exact knows
  · rename_i uncovered
    simp only [covers, Bool.or_eq_true, decide_eq_true_eq, not_or] at uncovered
    have bound := knows.nextArgument_le
    refine ⟨(search_traces knows.toTraces _).setMaxIndex _, ?_, ?_, ?_⟩
    · have searched := @search_nextArgument_le evaluate index coverage
        (limit - coverage.nextArgument)
      simp only
      omega
    · have nonneg := knows.maxIndex_nonneg
      simp only
      omega
    · intro position positive covered n below value
      refine search_complete reliable knows.toTraces (by simpa using uncovered.1) _
        (by omega) positive ?_ below value
      simp only [covers, Bool.or_eq_true, decide_eq_true_eq] at covered
      rcases covered with exhausted | reached
      · exact .inl exhausted
      · exact .inr (by omega)

/-- Whatever was asked before, a decided position is found exactly when it is
one of the values. -/
theorem contains_iff (knows : Knows limit evaluate coverage) {index : Int}
    (covered : coverage.covers index = true) :
    coverage.contains index = true ↔
      0 < index ∧ ∃ n : Nat, n < limit ∧ evaluate n = index := by
  rw [Coverage.contains, List.contains_iff_mem, knows.mem_positions]
  constructor
  · rintro ⟨positive, n, tried, value⟩
    exact ⟨positive, n, Nat.lt_of_lt_of_le tried knows.nextArgument_le, value⟩
  · rintro ⟨positive, n, below, value⟩
    exact (knows.mem_positions index).mp
      (knows.complete index positive covered n below value)

end Knows

theorem covers_extendTo (limit : Nat) (evaluate : Int → Int) (index : Int)
    (coverage : Coverage) :
    (coverage.extendTo limit evaluate index).covers index = true := by
  unfold extendTo
  split
  · assumption
  · simp only [covers, Bool.or_eq_true, decide_eq_true_eq]
    omega

end Coverage

end CssQuery
