import CssQuery.Text.LetterCase.Table

/-!
# Lowercase text

A text is lowercased character by character, with two exceptions to the
simple mapping: `İ` becomes two characters, and `Σ` becomes the final form
`ς` at the end of a word.  A word ends at `Σ` when the nearest character
before it that is not ignorable is cased and the nearest one after it is not.
-/

namespace CssQuery

def inRanges (ranges : List (Nat × Nat)) (code : Nat) : Bool :=
  ranges.any fun range => range.1 ≤ code && code ≤ range.2

/-- The character has letter case and is not ignorable. -/
def isCased (c : Char) : Bool :=
  inRanges casedRanges c.toNat

/-- The character is passed over when a word's case is examined. -/
def isCaseIgnorable (c : Char) : Bool :=
  inRanges caseIgnorableRanges c.toNat

/-- The lowercase form of one character, apart from its neighbours. -/
def lowercaseChar (c : Char) : List Char :=
  if c = 'İ' then ['i', '\u0307']
  else match lowercaseRanges.find? fun range => range.covers c.toNat with
    | some range => [Char.ofNat (c.toNat + range.offset).toNat]
    | none => [c]

/-- The first character that is not ignorable is cased. -/
def meetsCased (text : List Char) : Bool :=
  ((text.dropWhile isCaseIgnorable).head?.map isCased).getD false

/-- The lowercase form of `Σ` between two pieces of text, the first of them
in reverse. -/
def lowercaseSigma (before after : List Char) : Char :=
  if meetsCased before && !meetsCased after then 'ς' else 'σ'

/-- Lowercases a text that follows the reverse of `before`. -/
def lowercaseAfter (before : List Char) : List Char → List Char
  | [] => []
  | c :: rest =>
      (if c = 'Σ' then [lowercaseSigma before rest] else lowercaseChar c)
        ++ lowercaseAfter (c :: before) rest

def lowercase (text : List Char) : List Char :=
  lowercaseAfter [] text

def lowercaseAscii (text : String) : String :=
  String.ofList (text.toList.map Char.toLower)

end CssQuery
