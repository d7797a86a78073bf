import CssQuery.Proofs.Token.Cuts
import CssQuery.Token.Cursor

/-!
# Places of errors

An error that something was not expected names a place and the character there.
A cursor that is where it says, in the text that it was started on, only raises
errors that are right about that text.
-/

namespace CssQuery

/-- If the error is that something was not expected, it names a place in the
text and the character there, or the end of the text and none. -/
def Error.PointsAt (text : List Char) (error : Error) : Prop :=
  ∀ position expected found, error = .scan (.unexpected position expected found) →
    position ≤ text.length ∧ found = text[position]?

theorem Error.pointsAt_unexpected {text : List Char} {position : Nat} (inside : position ≤ text.length)
    (expected : Option String) :
    Error.PointsAt text (.scan (.unexpected position expected text[position]?)) := by
  rintro _ _ _ ⟨⟩
  exact ⟨inside, rfl⟩

/-- Every error of a result is one of those permitted. -/
def FailsWith {α : Type} (permitted : Error → Prop) (result : Except Error α) : Prop :=
  ∀ error, result = .error error → permitted error

namespace FailsWith

variable {α β : Type} {permitted : Error → Prop}

theorem ok (value : α) : FailsWith permitted (.ok value : Except Error α) :=
  nofun

theorem error {error : Error} (here : permitted error) :
    FailsWith permitted (.error error : Except Error α) := by
  rintro _ ⟨⟩
  exact here

theorem bind {result : Except Error α} {next : α → Except Error β}
    (first : FailsWith permitted result)
    (second : ∀ value, result = .ok value → FailsWith permitted (next value)) :
    FailsWith permitted (result >>= next) := by
  cases result with
  | error cause => exact error (first cause rfl)
  | ok value => exact second value rfl

theorem map {result : Except Error α} (fails : FailsWith permitted result) (change : α → β) :
    FailsWith permitted (result.map change) := by
  cases result with
  | error cause => exact error (fails cause rfl)
  | ok value => exact ok _

end FailsWith

namespace Cursor

/-- The cursor is at its place in the text, which is all that lies ahead. -/
structure IsIn (cursor : Cursor) (text : List Char) : Prop where
  offset_le : cursor.offset ≤ text.length
  ahead_eq : cursor.ahead = text.drop cursor.offset

theorem isIn_start (text : List Char) : IsIn ⟨0, text⟩ text :=
  ⟨Nat.zero_le _, rfl⟩

namespace IsIn

variable {cursor : Cursor} {text : List Char}

theorem advance (isIn : cursor.IsIn text) {piece rest : List Char}
    (split : cursor.ahead = piece ++ rest) : IsIn ⟨cursor.offset + piece.length, rest⟩ text := by
  have ahead := split.symm.trans isIn.ahead_eq
  constructor
  · have length := congrArg List.length ahead
    rw [List.length_append, List.length_drop] at length
    have inside := isIn.offset_le
    simp only
    omega
  · rw [← List.drop_drop, ← ahead, List.drop_left]

theorem skipSpace (isIn : cursor.IsIn text) : cursor.skipSpace.IsIn text :=
  isIn.advance List.takeWhile_append_dropWhile.symm

theorem take? (isIn : cursor.IsIn text) {recogniser : Recogniser} (cuts : recogniser.Cuts)
    {value : List Char} {behind : Cursor}
    (taken : cursor.take? recogniser = some (value, behind)) : behind.IsIn text := by
  obtain ⟨token, recognised, same⟩ := Option.map_eq_some_iff.mp taken
  cases same
  exact isIn.skipSpace.advance (cuts recognised).text_eq

theorem pointsAt_unexpected (isIn : cursor.IsIn text) (expected : String) :
    (cursor.unexpected expected).PointsAt text := by
  have next := isIn.skipSpace
  rw [unexpected, next.ahead_eq, List.head?_drop]
  exact Error.pointsAt_unexpected next.offset_le _

theorem expect (isIn : cursor.IsIn text) {pattern : Pattern} {value : List Char}
    {behind : Cursor} (taken : cursor.expect pattern = .ok (value, behind)) :
    behind.IsIn text := by
  rw [Cursor.expect] at taken
  split at taken
  case h_1 found =>
    cases taken
    exact isIn.take? pattern.cuts found
  case h_2 => cases taken

theorem failsWith_expect (isIn : cursor.IsIn text) (pattern : Pattern) :
    FailsWith (Error.PointsAt text) (cursor.expect pattern) := by
  rw [Cursor.expect]
  split
  · exact .ok _
  · exact .error (isIn.pointsAt_unexpected _)

end IsIn

theorem failsWith_expectEnd (cursor : Cursor) (text : List Char) :
    FailsWith (Error.PointsAt text) cursor.expectEnd := by
  rw [expectEnd]
  split
  · exact .ok _
  · exact .error nofun

end Cursor

end CssQuery
