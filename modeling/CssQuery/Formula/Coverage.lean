import CssQuery.Equation.Basic

/-!
# Coverage of a formula

A formula selects the positive values that its equation takes at 0, 1, 2, ….
`Coverage` is what has been found out about them so far.  It only grows: a
question about a position that is not yet decided evaluates the equation at
the next arguments until the answer is certain.

Evaluation stops when a value lies past the position and the values do not
fall.  It stops for good when no later value can be positive: when the values
have come to rest, or are not positive and fall without slowing down.  At most
`horizon` arguments are ever tried.
-/

namespace CssQuery

/-- The values of an equation at its first arguments. -/
structure Coverage where
  /-- The positive values found. -/
  positions : List Int := []
  nextArgument : Nat := 0
  /-- The greatest position that a question has decided. -/
  maxIndex : Int := 0
  /-- The last value found. -/
  previous : Option Int := none
  /-- The difference of the last two values found. -/
  previousStep : Option Int := none
  /-- No later value can be positive. -/
  exhausted : Bool := false
deriving DecidableEq, Repr

/-- What one more value says about going on. -/
inductive CoverageStop where
  /-- A later value may be the position in question. -/
  | undecided
  /-- Every later value lies past the position in question. -/
  | passed
  /-- No later value is positive. -/
  | exhausted
deriving DecidableEq, Repr

namespace Coverage

/-- The arguments of an equation are 63-bit natural numbers: those below `2 ^ 63`. -/
def horizon : Nat := 9223372036854775808

/-- Whether a position is decided. -/
def covers (coverage : Coverage) (index : Int) : Bool :=
  coverage.exhausted || index ≤ coverage.maxIndex

def advance (evaluate : Int → Int) (coverage : Coverage) : Coverage :=
  let value := evaluate coverage.nextArgument
  { coverage with
    positions :=
      if 0 < value then value :: coverage.positions else coverage.positions
    nextArgument := coverage.nextArgument + 1
    previous := some value
    previousStep :=
      coverage.previous.map fun previous => subClamped value previous }

/-- Judges the last value, reached by `step` after a step of `earlier`. -/
def judge (index value : Int) (earlier step : Option Int) : CoverageStop :=
  match step with
  | none => .undecided
  | some step =>
      if index < value ∧ 0 ≤ step then .passed
      else
        match earlier with
        | none => .undecided
        | some earlier =>
            if step ≤ 0 ∧ step ≤ earlier ∧ (value ≤ 0 ∨ step = 0) then .exhausted
            else .undecided

/-- Evaluates the equation at further arguments, at most `budget` of them,
until the position is decided. -/
def search (evaluate : Int → Int) (index : Int) :
    (budget : Nat) → Coverage → Coverage
  | 0, coverage => { coverage with exhausted := true }
  | budget + 1, coverage =>
      let advanced := coverage.advance evaluate
      match judge index (evaluate coverage.nextArgument) coverage.previousStep
          advanced.previousStep with
      | .undecided => search evaluate index budget advanced
      | .passed => advanced
      | .exhausted => { advanced with exhausted := true }

/-- Extends the coverage until the position is decided. -/
def extendTo (limit : Nat) (evaluate : Int → Int) (index : Int)
    (coverage : Coverage) : Coverage :=
  if coverage.covers index then coverage
  else
    let searched :=
      search evaluate index (limit - coverage.nextArgument) coverage
    { searched with maxIndex := max coverage.maxIndex index }

/-- Whether a decided position is one of the values. -/
def contains (coverage : Coverage) (index : Int) : Bool :=
  coverage.positions.contains index

end Coverage

end CssQuery
