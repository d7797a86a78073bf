import CssQuery.Text.Bounds

/-!
# Character classes

Each grammar of the library asks whether a character belongs to one of
seventeen kinds.  A `CharClass` is a set of kinds; the class of a character
is the set of all kinds it has, and a test is an intersection of two sets.

The kinds follow the grammars built on them.  Identifiers and names take
letters, the underscore and every character from U+00A1 on except the two
noncharacters U+FFFE and U+FFFF; what may stand inside a name but not begin
it differs from grammar to grammar.
-/

namespace CssQuery

/-- Space, tab, line feed, form feed and carriage return. -/
def isSpace (c : Char) : Bool :=
  c == ' ' || c == '\t' || c == '\n' || c == '\r' || c == '\x0c'

theorem isSpace_iff {c : Char} :
    isSpace c = true ↔ c = ' ' ∨ c = '\t' ∨ c = '\n' ∨ c = '\r' ∨ c = '\x0c' := by
  simp [isSpace, or_assoc]

/-- The two quotes that delimit a quoted string. -/
def isQuote (c : Char) : Bool :=
  c == '\x22' || c == '\x27'

/-- Characters beyond Latin-1 controls that names may contain. -/
def isNonAsciiName (c : Char) : Bool :=
  0xA1 ≤ c.toNat && c.toNat != 0xFFFE && c.toNat != 0xFFFF

/-- Characters with which every kind of name may begin. -/
def isNameStart (c : Char) : Bool :=
  c.isAlpha || c == '_' || isNonAsciiName c

/-- Characters that continue a CSS identifier. -/
def isIdentifierPart (c : Char) : Bool :=
  isNameStart c || c.isDigit || c == '-'

/-- Characters that continue a tag name or an attribute name. -/
def isMarkupNamePart (c : Char) : Bool :=
  isIdentifierPart c || c == '.' || c == ':'

/-- A property of characters that some grammar tests. -/
inductive CharKind where
  | space
  | letter
  | digit
  | numeric
  | operator
  | opening
  | closing
  | quote
  | escape
  | nonAsciiName
  | identifierStart
  | identifierPart
  | tagNameStart
  | tagNamePart
  | attributeNameStart
  | attributeNamePart
  | terminator
deriving DecidableEq, Repr

namespace CharKind

/-- Every kind, in the order of the bits that stand for them. -/
def all : List CharKind :=
  [.space, .letter, .digit, .numeric, .operator, .opening, .closing, .quote,
    .escape, .nonAsciiName, .identifierStart, .identifierPart, .tagNameStart,
    .tagNamePart, .attributeNameStart, .attributeNamePart, .terminator]

theorem mem_all (kind : CharKind) : kind ∈ all := by
  cases kind <;> decide

def holds (kind : CharKind) (c : Char) : Bool :=
  match kind with
  | space => isSpace c
  | letter => c.isAlpha
  | digit => c.isDigit
  | numeric => c.isDigit || c == '.' || c == '+' || c == '-'
  | operator =>
      ['!', '+', '-', '*', '/', '%', '<', '>', '=', '&', '^', '|', '~'].contains c
  | opening => Bounds.opens c
  | closing => Bounds.closes c
  | quote => isQuote c
  | escape => c == '\\'
  | nonAsciiName => isNonAsciiName c
  | identifierStart => isNameStart c
  | identifierPart => isIdentifierPart c
  | tagNameStart => isNameStart c
  | tagNamePart => isMarkupNamePart c
  | attributeNameStart => isNameStart c
  | attributeNamePart => isMarkupNamePart c
  | terminator => isSpace c || [',', ':', '[', '>', '~', '+', '.', '#'].contains c

end CharKind

/-- A set of character kinds. -/
structure CharClass where
  has : CharKind → Bool

namespace CharClass

def empty : CharClass :=
  ⟨fun _ => false⟩

def of (kind : CharKind) : CharClass :=
  ⟨fun other => other == kind⟩

/-- The kinds of either class. -/
def union (first second : CharClass) : CharClass :=
  ⟨fun kind => first.has kind || second.has kind⟩

def ofKinds (kinds : List CharKind) : CharClass :=
  ⟨fun kind => kinds.contains kind⟩

def ofChar (c : Char) : CharClass :=
  ⟨fun kind => kind.holds c⟩

/-- The set written in binary, the first kind as the lowest bit. -/
def bits (charClass : CharClass) : Nat :=
  CharKind.all.foldr
    (fun kind higher => (charClass.has kind).toNat + 2 * higher) 0

/-- Every kind of `second` is in `first`. -/
def contains (first second : CharClass) : Bool :=
  CharKind.all.all fun kind => !second.has kind || first.has kind

/-- The two classes share a kind. -/
def intersects (first second : CharClass) : Bool :=
  CharKind.all.any fun kind => first.has kind && second.has kind

def isEmpty (charClass : CharClass) : Bool :=
  !CharKind.all.any charClass.has

@[ext]
theorem ext {first second : CharClass}
    (same : ∀ kind, first.has kind = second.has kind) : first = second := by
  cases first
  cases second
  congr
  exact funext same

instance : DecidableEq CharClass := fun first second =>
  decidable_of_iff
    (∀ kind ∈ CharKind.all, first.has kind = second.has kind)
    ⟨fun same => ext fun kind => same kind kind.mem_all,
      fun same kind _ => by rw [same]⟩

theorem intersects_iff {first second : CharClass} :
    first.intersects second = true ↔
      ∃ kind, first.has kind = true ∧ second.has kind = true := by
  simp [intersects, CharKind.mem_all]

theorem contains_iff {first second : CharClass} :
    first.contains second = true ↔
      ∀ kind, second.has kind = true → first.has kind = true := by
  simp [contains, CharKind.mem_all]
  grind

/-- Testing a character against one kind asks whether it is of that kind. -/
@[simp]
theorem intersects_ofChar_of (c : Char) (kind : CharKind) :
    (ofChar c).intersects (of kind) = kind.holds c := by
  rw [Bool.eq_iff_iff, intersects_iff]
  simp [ofChar, of]

end CharClass

/-- Whether a character is of some kind in the class. -/
def CharClass.holds (charClass : CharClass) (c : Char) : Bool :=
  (CharClass.ofChar c).intersects charClass

end CssQuery
