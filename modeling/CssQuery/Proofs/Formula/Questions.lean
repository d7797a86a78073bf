import CssQuery.Proofs.Formula.Membership

/-!
# Rows of questions

An entry is asked about one position after another and keeps its coverage in
between.  `Asked` is a row of questions each of which comes to an end by
itself, for an equation of any kind and with no limit to its arguments; an
entry whose arguments do not run out ends up with the same coverage.

An equation that is a function does not show how often it is evaluated.
`extendToM` is the search over an evaluation with effects.  It finds the same
coverage, and an evaluation that keeps a record shows that each argument is
evaluated once, in increasing order, over all the questions together.
-/

namespace CssQuery

namespace Coverage

/-- A row of questions, each of them answered. -/
inductive Asked (evaluate : Int → Int) : List Int → Coverage → Coverage → Prop
  | nil {coverage : Coverage} : Asked evaluate [] coverage coverage
  | cons {index : Int} {questions : List Int} {before middle after : Coverage}
      (answers : Answers evaluate index before middle)
      (asked : Asked evaluate questions middle after) :
      Asked evaluate (index :: questions) before after

/-- Questions for which the arguments below `limit` are available. -/
def extendAll (limit : Nat) (evaluate : Int → Int) (questions : List Int)
    (coverage : Coverage) : Coverage :=
  questions.foldl (fun coverage index => coverage.extendTo limit evaluate index) coverage

section Effects

variable {m : Type → Type} [Monad m]

/-- The search with an evaluation that has effects. -/
def searchM (evaluate : Int → m Int) (index : Int) : (budget : Nat) → Coverage → m Coverage
  | 0, coverage => pure { coverage with exhausted := true }
  | budget + 1, coverage => do
      let value ← evaluate coverage.nextArgument
      let advanced := coverage.advance fun _ => value
      match judge index value coverage.previousStep advanced.previousStep with
      | .undecided => searchM evaluate index budget advanced
      | .passed => pure advanced
      | .exhausted => pure { advanced with exhausted := true }

def extendToM (limit : Nat) (evaluate : Int → m Int) (index : Int)
    (coverage : Coverage) : m Coverage :=
  if coverage.covers index then pure coverage
  else do
    let searched ← searchM evaluate index (limit - coverage.nextArgument) coverage
    pure { searched with maxIndex := max coverage.maxIndex index }

def extendAllM (limit : Nat) (evaluate : Int → m Int) (questions : List Int)
    (coverage : Coverage) : m Coverage :=
  questions.foldlM (fun coverage index => coverage.extendToM limit evaluate index) coverage

end Effects

/-- An evaluation that notes its arguments in the order of the calls. -/
def recorded (evaluate : Int → Int) (argument : Int) : StateM (List Int) Int := do
  modify (· ++ [argument])
  pure (evaluate argument)

/-- The first arguments of an equation in increasing order. -/
def argumentsBelow (count : Nat) : List Int :=
  (List.range count).map Int.ofNat

theorem argumentsBelow_succ (count : Nat) :
    argumentsBelow (count + 1) = argumentsBelow count ++ [(count : Int)] := by
  simp [argumentsBelow, List.range_succ]

section Record

variable {evaluate : Int → Int} {index : Int}

theorem run_bind_of_run_eq {State First Second : Type} {first : StateM State First}
    {next : First → StateM State Second} {state reached : State} {value : First}
    (run : first.run state = (value, reached)) :
    (first >>= next).run state = (next value).run reached := by
  rw [StateT.run_bind, run]
  rfl

/-- A record of the arguments tried so far stays one. -/
theorem run_searchM (budget : Nat) (coverage : Coverage) :
    (searchM (recorded evaluate) index budget coverage).run
        (argumentsBelow coverage.nextArgument) =
      (search evaluate index budget coverage,
        argumentsBelow (search evaluate index budget coverage).nextArgument) := by
  induction budget generalizing coverage with
  | zero => rfl
  | succ budget ih =>
      have tried : argumentsBelow coverage.nextArgument ++ [(coverage.nextArgument : Int)] =
        argumentsBelow (coverage.advance evaluate).nextArgument :=
        (argumentsBelow_succ _).symm
      have evaluated : (recorded evaluate coverage.nextArgument).run
          (argumentsBelow coverage.nextArgument) =
            (evaluate coverage.nextArgument,
              argumentsBelow (coverage.advance evaluate).nextArgument) :=
        congrArg (Prod.mk _) tried
      have advanced : (coverage.advance fun _ => evaluate coverage.nextArgument) =
        coverage.advance evaluate := rfl
      rw [searchM, run_bind_of_run_eq evaluated, search]
      simp only [advanced]
      -- Both searches judge the same value, and go on from the same coverage.
      cases judge index (evaluate coverage.nextArgument) coverage.previousStep
          (coverage.advance evaluate).previousStep with
      | undecided => exact ih (coverage.advance evaluate)
      | passed => rfl
      | exhausted => rfl

theorem run_extendToM (limit : Nat) (index : Int) (coverage : Coverage) :
    (coverage.extendToM limit (recorded evaluate) index).run
        (argumentsBelow coverage.nextArgument) =
      (coverage.extendTo limit evaluate index,
        argumentsBelow (coverage.extendTo limit evaluate index).nextArgument) := by
  unfold extendToM extendTo
  split
  · rfl
  · rw [run_bind_of_run_eq (run_searchM _ coverage)]
    rfl

theorem run_extendAllM (limit : Nat) (questions : List Int) (coverage : Coverage) :
    (extendAllM limit (recorded evaluate) questions coverage).run
        (argumentsBelow coverage.nextArgument) =
      (extendAll limit evaluate questions coverage,
        argumentsBelow (extendAll limit evaluate questions coverage).nextArgument) := by
  induction questions generalizing coverage with
  | nil => rfl
  | cons index questions ih =>
      rw [extendAllM, List.foldlM_cons, run_bind_of_run_eq (run_extendToM limit index coverage)]
      exact ih (coverage.extendTo limit evaluate index)

end Record

section Asked

variable {evaluate : Int → Int} {index : Int} {questions : List Int}
  {before middle after : Coverage} {limit : Nat}

theorem Traces.extendTo (traces : Traces evaluate before) (limit : Nat) (index : Int) :
    Traces evaluate (before.extendTo limit evaluate index) := by
  unfold Coverage.extendTo
  split
  · exact traces
  · exact (search_traces traces _).setMaxIndex _

theorem Settles.nextArgument_lt (settles : Settles evaluate index before after) :
    before.nextArgument < after.nextArgument := by
  induction settles with
  | passed judged => exact Nat.lt_succ_self _
  | exhausted judged => exact Nat.lt_succ_self _
  | undecided judged settles ih => exact Nat.lt_of_succ_lt ih

/-- A search that comes to an end within the budget is the one without a
budget. -/
theorem Settles.search_eq (settles : Settles evaluate index before after)
    (traces : Traces evaluate before) {budget : Nat}
    (enough : after.nextArgument ≤ before.nextArgument + budget) :
    search evaluate index budget before = after := by
  induction settles generalizing budget with
  | passed judged =>
      obtain ⟨rest, rfl⟩ : ∃ rest, budget = rest + 1 :=
        ⟨budget - 1, by simp only [advance] at enough; omega⟩
      rw [search_succ traces, judged]
  | exhausted judged =>
      obtain ⟨rest, rfl⟩ : ∃ rest, budget = rest + 1 :=
        ⟨budget - 1, by simp only [advance] at enough; omega⟩
      rw [search_succ traces, judged]
  | @undecided coverage settled judged settles ih =>
      have later := settles.nextArgument_lt
      have advanced : (coverage.advance evaluate).nextArgument =
        coverage.nextArgument + 1 := rfl
      obtain ⟨rest, rfl⟩ : ∃ rest, budget = rest + 1 := ⟨budget - 1, by omega⟩
      rw [search_succ traces, judged]
      exact ih traces.advance (by omega)

namespace Answers

theorem nextArgument_le (answers : Answers evaluate index before after) :
    before.nextArgument ≤ after.nextArgument := by
  cases answers with
  | known covered => exact Nat.le_refl _
  | searched uncovered settles => exact Nat.le_of_lt settles.nextArgument_lt

theorem maxIndex_le (answers : Answers evaluate index before after) :
    before.maxIndex ≤ after.maxIndex := by
  cases answers with
  | known covered => exact Int.le_refl _
  | searched uncovered settles => exact Int.le_max_left _ _

theorem extendTo_eq (answers : Answers evaluate index before after)
    (traces : Traces evaluate before) (enough : after.nextArgument ≤ limit) :
    before.extendTo limit evaluate index = after := by
  cases answers with
  | known covered => rw [extendTo, if_pos covered]
  | @searched settled uncovered settles =>
      have later := settles.nextArgument_lt
      change settled.nextArgument ≤ limit at enough
      rw [extendTo, if_neg (by simp [uncovered]), settles.search_eq traces (by omega)]

theorem traces (answers : Answers evaluate index before after)
    (traces : Traces evaluate before) : Traces evaluate after := by
  rw [← answers.extendTo_eq traces (Nat.le_refl _)]
  exact traces.extendTo _ _

end Answers

namespace Asked

theorem concat (asked : Asked evaluate questions before middle)
    (answers : Answers evaluate index middle after) :
    Asked evaluate (questions ++ [index]) before after := by
  induction asked with
  | nil => exact .cons answers .nil
  | cons first asked ih => exact .cons first (ih answers)

theorem nextArgument_le (asked : Asked evaluate questions before after) :
    before.nextArgument ≤ after.nextArgument := by
  induction asked with
  | nil => exact Nat.le_refl _
  | cons first asked ih => exact Nat.le_trans first.nextArgument_le ih

theorem traces (asked : Asked evaluate questions before after)
    (traces : Traces evaluate before) : Traces evaluate after := by
  induction asked with
  | nil => exact traces
  | cons first asked ih => exact ih (first.traces traces)

/-- Questions that come to an end below the limit are answered as without
it. -/
theorem extendAll_eq (asked : Asked evaluate questions before after)
    (traces : Traces evaluate before) (enough : after.nextArgument ≤ limit) :
    extendAll limit evaluate questions before = after := by
  induction asked with
  | nil => rfl
  | cons first asked ih =>
      have reached := first.extendTo_eq traces
        (Nat.le_trans asked.nextArgument_le enough)
      have rest := ih (first.traces traces) enough
      rw [extendAll, List.foldl_cons, reached]
      exact rest

end Asked

theorem Knows.extendAll (reliable : Reliable evaluate) (knows : Knows limit evaluate before)
    (questions : List Int) :
    Knows limit evaluate (before.extendAll limit evaluate questions) := by
  induction questions generalizing before with
  | nil => exact knows
  | cons index questions ih => exact ih (knows.extendTo reliable index)

end Asked

end Coverage

namespace FormulaEntry

def askAll (entry : FormulaEntry) (questions : List Int) : FormulaEntry :=
  questions.foldl ask entry

theorem askAll_eq (entry : FormulaEntry) (questions : List Int) :
    entry.askAll questions =
      { entry with
        coverage := entry.coverage.extendAll Coverage.horizon entry.equation.evaluate
          questions } := by
  induction questions generalizing entry with
  | nil => rfl
  | cons index questions ih => exact ih (entry.ask index)

end FormulaEntry

end CssQuery
