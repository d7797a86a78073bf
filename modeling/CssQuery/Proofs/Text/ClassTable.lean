import CssQuery.Text.CharClass

/-!
# Classes kept in a table

The class of a character can be computed from the tests of its kinds, or it can
be looked up.  The table has a class for each code point of 16 bits and is
filled from a list of entries, each of which gives some kinds to some code
points; an entry adds to what earlier ones gave.  Every character beyond the
table has the class of a letter that is not ASCII.

Both ways give the same class to every character.
-/

namespace CssQuery

/-- Code points that receive the same kinds. -/
structure ClassEntry where
  codes : List Nat
  kinds : List CharKind

/-- The classes of the code points from zero on. -/
abbrev ClassTable := Array CharClass

namespace ClassEntry

def ofText (text : String) (kinds : List CharKind) : ClassEntry :=
  ⟨text.toList.map Char.toNat, kinds⟩

def gives (entry : ClassEntry) (code : Nat) (kind : CharKind) : Bool :=
  entry.codes.contains code && entry.kinds.contains kind

end ClassEntry

namespace ClassTable

/-- The kinds of a character that may stand anywhere in a name of any sort. -/
def nameKinds : List CharKind :=
  [.identifierStart, .identifierPart, .tagNameStart, .tagNamePart, .attributeNameStart,
    .attributeNamePart]

/-- What the table is filled from.  The last code points given to names leave out
the surrogates and the two noncharacters at the end of the plane. -/
def entries : List ClassEntry :=
  [.ofText " \t\n\r\x0c" [.space],
    .ofText "0123456789" [.digit, .numeric],
    .ofText ".+-" [.numeric],
    .ofText "!+-*/%<>=&^|~" [.operator],
    .ofText "\x22\x27" [.quote],
    .ofText "\\" [.escape],
    .ofText " \t\n\r\x0c,:[>~+.#" [.terminator],
    .ofText "_" [.identifierStart, .identifierPart],
    .ofText "-" [.identifierPart],
    .ofText "0123456789" [.identifierPart],
    .ofText "_" [.tagNameStart, .tagNamePart, .attributeNameStart, .attributeNamePart],
    .ofText "0123456789-.:" [.tagNamePart, .attributeNamePart],
    ⟨List.range' 0x61 26 ++ List.range' 0x41 26, .letter :: nameKinds⟩,
    ⟨List.range' 0xA1 (0xD800 - 0xA1) ++ List.range' 0xE000 (0xFFFE - 0xE000),
      .nonAsciiName :: nameKinds⟩,
    ⟨Bounds.all.map fun bounds => bounds.opening.toNat, [.opening]⟩,
    ⟨Bounds.all.map fun bounds => bounds.closing.toNat, [.closing]⟩]

/-- How many code points have a place in the table. -/
def planeSize : Nat := 0x10000

/-- The class of every character beyond the table. -/
def astral : CharClass :=
  .ofKinds (.nonAsciiName :: nameKinds)

/-- Adds the kinds of an entry to the classes of its code points. -/
def fill (table : ClassTable) (entry : ClassEntry) : ClassTable :=
  entry.codes.foldl (fun table code => table.modify code (·.union (.ofKinds entry.kinds))) table

def build : ClassTable :=
  entries.foldl fill (Array.replicate planeSize .empty)

/-- The class of a character by the table. -/
def classOf (c : Char) : CharClass :=
  build[c.toNat]?.getD astral

/-- Whether a character is of the kind by the table. -/
def holds (c : Char) (kind : CharKind) : Bool :=
  (classOf c).intersects (.of kind)

section Filling

/-- Whether the table gives the kind to the code point. -/
def has (table : ClassTable) (code : Nat) (kind : CharKind) : Bool :=
  table[code]?.any (·.has kind)

variable {code : Nat} {kind : CharKind}

theorem size_foldl_modify (codes : List Nat) (change : CharClass → CharClass)
    (table : ClassTable) :
    (codes.foldl (fun table code => table.modify code change) table).size = table.size := by
  induction codes generalizing table with
  | nil => rfl
  | cons code codes ih => rw [List.foldl_cons, ih, Array.size_modify]

theorem size_fill (table : ClassTable) (entry : ClassEntry) :
    (table.fill entry).size = table.size :=
  size_foldl_modify _ _ _

theorem size_foldl_fill (entries : List ClassEntry) (table : ClassTable) :
    (entries.foldl fill table).size = table.size := by
  induction entries generalizing table with
  | nil => rfl
  | cons entry entries ih => rw [List.foldl_cons, ih, size_fill]

theorem has_modify {table : ClassTable} (inside : code < table.size) (other : Nat)
    (kinds : List CharKind) :
    has (table.modify other (·.union (.ofKinds kinds))) code kind =
      (table.has code kind || (other == code && kinds.contains kind)) := by
  rw [has, has, Array.getElem?_modify, Array.getElem?_eq_getElem inside]
  by_cases same : other = code
  · simp [same, CharClass.union, CharClass.ofKinds]
  · simp [same]

/-- An entry adds what it gives and takes nothing away. -/
theorem has_fill {table : ClassTable} (inside : code < table.size) (entry : ClassEntry) :
    (table.fill entry).has code kind = (table.has code kind || entry.gives code kind) := by
  rw [fill, ClassEntry.gives]
  induction entry.codes generalizing table with
  | nil => simp
  | cons other codes ih =>
      rw [List.foldl_cons, ih (by rwa [Array.size_modify]), has_modify inside, List.contains_cons,
        Bool.or_assoc, ← Bool.and_or_distrib_right, BEq.comm]

theorem has_foldl_fill {table : ClassTable} (inside : code < table.size)
    (entries : List ClassEntry) :
    (entries.foldl fill table).has code kind =
      (table.has code kind || entries.any (·.gives code kind)) := by
  induction entries generalizing table with
  | nil => simp
  | cons entry entries ih =>
      rw [List.foldl_cons, ih (by rwa [size_fill]), has_fill inside, List.any_cons, Bool.or_assoc]

end Filling

section Agreement

theorem toNat_of_surrogates (c : Char) : c.toNat < 0xD800 ∨ 0xDFFF < c.toNat := by
  rcases c.valid with below | ⟨above, -⟩
  · exact .inl below
  · exact .inr above

theorem isAlpha_iff_toNat {c : Char} :
    c.isAlpha = true ↔ 65 ≤ c.toNat ∧ c.toNat ≤ 90 ∨ 97 ≤ c.toNat ∧ c.toNat ≤ 122 := by
  delta Char.isAlpha Char.isUpper Char.isLower
  simp [UInt32.le_iff_toNat_le]

theorem has_build {code : Nat} (inside : code < planeSize) (kind : CharKind) :
    build.has code kind = entries.any (·.gives code kind) := by
  have vacant : has (Array.replicate planeSize .empty) code kind = false := by
    simp [has, inside, CharClass.empty]
  have room : code < (Array.replicate planeSize CharClass.empty).size := by
    rwa [Array.size_replicate]
  rw [build, has_foldl_fill room, vacant, Bool.false_or]

theorem has_classOf (c : Char) (kind : CharKind) :
    (classOf c).has kind =
      if c.toNat < planeSize then entries.any (·.gives c.toNat kind)
      else (CharKind.nonAsciiName :: nameKinds).contains kind := by
  have size : build.size = planeSize := by
    rw [build, size_foldl_fill, Array.size_replicate]
  split
  case isTrue inside =>
    have found := Array.getElem?_eq_getElem (size.symm ▸ inside : c.toNat < build.size)
    rw [← has_build inside, has, classOf, found, Option.getD_some, Option.any_some]
  case isFalse beyond =>
    have missing : build[c.toNat]? = none :=
      Array.getElem?_eq_none (size.symm ▸ Nat.le_of_not_lt beyond)
    rw [classOf, missing, Option.getD_none, astral, CharClass.ofKinds]

/-- The table knows the kinds of every character. -/
theorem classOf_eq_ofChar (c : Char) : classOf c = CharClass.ofChar c := by
  ext kind
  have surrogates := toNat_of_surrogates c
  rw [has_classOf, CharClass.ofChar, Bool.eq_iff_iff, planeSize]
  -- each kind is a union of ranges of code points on both sides
  cases kind <;> split <;>
    simp [entries, ClassEntry.gives, ClassEntry.ofText, nameKinds, CharKind.holds, isSpace,
      Bounds.opens, Bounds.closes, Bounds.all, isQuote, isNonAsciiName, isNameStart,
      isIdentifierPart, isMarkupNamePart, ← Char.toNat_inj, List.mem_range'_1,
      Char.isDigit_iff_toNat, isAlpha_iff_toNat] <;>
    omega

theorem holds_eq (c : Char) (kind : CharKind) : holds c kind = kind.holds c := by
  rw [holds, classOf_eq_ofChar, CharClass.intersects_ofChar_of]

end Agreement

end ClassTable

end CssQuery
