/-!
# Bounded integers

Formula arithmetic is arithmetic on 64-bit signed integers in which a result
beyond the range becomes the nearest end of the range.  Values are kept as
`Int`; `clamp` brings a result back into the range.
-/

namespace CssQuery

/-- The largest 64-bit signed integer, `2 ^ 63 - 1`. -/
def maxInteger : Int := 9223372036854775807

/-- The least 64-bit signed integer, `-2 ^ 63`. -/
def minInteger : Int := -9223372036854775808

/-- The integers that a formula can take as a value. -/
def InRange (value : Int) : Prop :=
  minInteger ≤ value ∧ value ≤ maxInteger

instance (value : Int) : Decidable (InRange value) :=
  inferInstanceAs (Decidable (_ ∧ _))

/-- The integer of the range nearest to a value. -/
def clamp (value : Int) : Int :=
  max minInteger (min maxInteger value)

theorem clamp_inRange (value : Int) : InRange (clamp value) := by
  simp only [InRange, clamp, minInteger, maxInteger]
  omega

theorem clamp_eq_self {value : Int} (inRange : InRange value) :
    clamp value = value := by
  simp only [InRange, clamp, minInteger, maxInteger] at *
  omega

theorem clamp_mono {first second : Int} (le : first ≤ second) :
    clamp first ≤ clamp second := by
  simp only [clamp, minInteger, maxInteger]
  omega

/-- Addition that stops at the ends of the range. -/
def addClamped (first second : Int) : Int :=
  clamp (first + second)

/-- Subtraction that stops at the ends of the range. -/
def subClamped (first second : Int) : Int :=
  clamp (first - second)

theorem subClamped_nonneg_iff {first second : Int} :
    0 ≤ subClamped first second ↔ second ≤ first := by
  simp only [subClamped, clamp, minInteger, maxInteger]
  omega

theorem subClamped_nonpos_iff {first second : Int} :
    subClamped first second ≤ 0 ↔ first ≤ second := by
  simp only [subClamped, clamp, minInteger, maxInteger]
  omega

theorem subClamped_eq_zero_iff {first second : Int} :
    subClamped first second = 0 ↔ first = second := by
  simp only [subClamped, clamp, minInteger, maxInteger]
  omega

/-- Multiplication that stops at the ends of the range. -/
def mulClamped (first second : Int) : Int :=
  clamp (first * second)

def digitValue (digit : Char) : Nat :=
  digit.toNat - '0'.toNat

/-- The number that a run of decimal digits writes. -/
def digitsValue (digits : List Char) : Nat :=
  digits.foldl (fun value digit => 10 * value + digitValue digit) 0

/-- The integer of the range that a text writes with an optional sign. -/
def parseInteger? (text : List Char) : Option Int :=
  let unsigned : List Char :=
    match text with
    | '+' :: rest => rest
    | '-' :: rest => rest
    | _ => text
  let value : Int :=
    if text.head? = some '-' then -digitsValue unsigned else digitsValue unsigned
  if unsigned ≠ [] ∧ unsigned.all Char.isDigit ∧ InRange value then some value
  else none

end CssQuery
