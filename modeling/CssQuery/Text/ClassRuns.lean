import CssQuery.Text.CharClass

/-!
# Runs of equal class

A table of the classes of a range of code points, shortened to the places
where the class changes.
-/

namespace CssQuery

/-- The code point is a character and no surrogate. -/
def isScalarValue (code : Nat) : Bool :=
  code < 0xD800 || (0xDFFF < code && code < 0x110000)

/-- The characters of a range of code points at which the class differs from
that of the character before, each with its class in bits.  The first
character of the range is always among them. -/
def classRuns (first stop : Nat) : List (Nat × Nat) :=
  let codes := (List.range' first (stop - first)).filter isScalarValue
  let collect (runs : List (Nat × Nat)) (code : Nat) : List (Nat × Nat) :=
    let bits := (CharClass.ofChar (Char.ofNat code)).bits
    if (runs.head?.map Prod.snd) = some bits then runs else (code, bits) :: runs
  (codes.foldl collect []).reverse

end CssQuery
