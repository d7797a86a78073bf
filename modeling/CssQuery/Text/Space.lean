import CssQuery.Text.CharClass

/-!
# Space around and between words

Two notions of space occur.  Selector space is the five characters of
`isSpace`; it separates tokens and the words of an attribute value.  Unicode
space is the property `White_Space`; text that a user wrote is trimmed by it.
Every selector space is a Unicode space, and not the other way round.
-/

namespace CssQuery

/-- The characters of the Unicode property `White_Space`. -/
def isUnicodeSpace (c : Char) : Bool :=
  (0x09 ≤ c.toNat && c.toNat ≤ 0x0D) || c.toNat == 0x20 || c.toNat == 0x85
    || c.toNat == 0xA0 || c.toNat == 0x1680
    || (0x2000 ≤ c.toNat && c.toNat ≤ 0x200A) || c.toNat == 0x2028
    || c.toNat == 0x2029 || c.toNat == 0x202F || c.toNat == 0x205F
    || c.toNat == 0x3000

theorem isUnicodeSpace_of_isSpace {c : Char} (space : isSpace c = true) :
    isUnicodeSpace c = true := by
  rcases isSpace_iff.mp space with rfl | rfl | rfl | rfl | rfl <;> decide

/-- The text without its leading Unicode space. -/
def trimStart (text : List Char) : List Char :=
  text.dropWhile isUnicodeSpace

/-- The text without its trailing Unicode space. -/
def trimEnd (text : List Char) : List Char :=
  (text.reverse.dropWhile isUnicodeSpace).reverse

/-- The text without the Unicode space around it. -/
def trim (text : List Char) : List Char :=
  trimEnd (trimStart text)

/-- The maximal runs of characters other than selector space, in order. -/
def words : List Char → List (List Char)
  | [] => []
  | c :: rest =>
      if isSpace c then words rest
      else match rest.head?, words rest with
        | some next, word :: more =>
            if isSpace next then [c] :: word :: more else (c :: word) :: more
        | _, more => [c] :: more

end CssQuery
