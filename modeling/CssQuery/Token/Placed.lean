import CssQuery.Error

/-!
# Token streams

A grammar that is read token by token first turns its text into a list of
placed tokens.  Each keeps its offset in the text and its first character, so
that an error can point at it.

The reader decides from one character and the text behind it which token
begins there, if any, and how many of the characters behind it belong to it.
-/

namespace CssQuery

/-- A token with its place in the text. -/
structure Placed (kind : Type) where
  offset : Nat
  lead : Char
  token : kind

namespace Placed

/-- The tokens of a text that starts at `offset`, after its first `skip`
characters, which belong to an earlier token. -/
def readFrom {kind : Type}
    (next : Nat → Char → List Char → Option kind × Nat) :
    (skip offset : Nat) → List Char → List (Placed kind)
  | _, _, [] => []
  | skip + 1, offset, _ :: rest => readFrom next skip (offset + 1) rest
  | 0, offset, c :: rest =>
      let read := next offset c rest
      let others := readFrom next read.2 (offset + 1) rest
      match read.1 with
      | some token => ⟨offset, c, token⟩ :: others
      | none => others

/-- Characters that belong to an earlier token are passed over. -/
theorem readFrom_append {kind : Type} (next : Nat → Char → List Char → Option kind × Nat)
    (front back : List Char) (offset : Nat) :
    readFrom next front.length offset (front ++ back) =
      readFrom next 0 (offset + front.length) back := by
  induction front generalizing offset with
  | nil => rfl
  | cons c front ih =>
      have moved := ih (offset + 1)
      rw [Nat.add_right_comm] at moved
      exact moved

/-- The tokens of a text. -/
def read {kind : Type} (next : Nat → Char → List Char → Option kind × Nat)
    (text : List Char) : List (Placed kind) :=
  readFrom next 0 0 text

/-- The error that something else was expected in place of the token. -/
def unexpected {kind : Type} (placed : Placed kind) (expected : String) : Error :=
  .scan (.unexpected placed.offset (some expected) (some placed.lead))

end Placed

/-- The error that something was expected at the end of a text. -/
def unexpectedEnd (length : Nat) (expected : String) : Error :=
  .scan (.unexpected length (some expected) none)

end CssQuery
