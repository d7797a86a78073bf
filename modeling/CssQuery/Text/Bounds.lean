/-!
# Brackets and quotes

Ten pairs of characters enclose a span of text.  Brackets and typographic
quotes have two different ends; the two ASCII quotes close themselves.
-/

namespace CssQuery

/-- A pair of characters that enclose a span. -/
structure Bounds where
  opening : Char
  closing : Char
deriving DecidableEq, Repr

namespace Bounds

/-- The recognised pairs, in the order in which they are searched. -/
def all : List Bounds :=
  [⟨'(', ')'⟩, ⟨'[', ']'⟩, ⟨'\x7b', '\x7d'⟩, ⟨'<', '>'⟩, ⟨'\x22', '\x22'⟩,
    ⟨'\x27', '\x27'⟩, ⟨'“', '”'⟩, ⟨'‘', '’'⟩, ⟨'«', '»'⟩, ⟨'‹', '›'⟩]

def opens (c : Char) : Bool :=
  all.any fun bounds => bounds.opening == c

def closes (c : Char) : Bool :=
  all.any fun bounds => bounds.closing == c

/-- The character that closes a span opened by `c`. -/
def closer? (c : Char) : Option Char :=
  (all.find? fun bounds => bounds.opening == c).map Bounds.closing

/-- The other end of a pair, seen from either end. -/
def counterpart? (c : Char) : Option Char :=
  all.findSome? fun bounds =>
    if bounds.opening == c then some bounds.closing
    else if bounds.closing == c then some bounds.opening
    else none

/-- A character has a closer exactly when it opens a pair. -/
theorem isSome_closer? (c : Char) : (closer? c).isSome = opens c := by
  rw [closer?, Option.isSome_map, List.isSome_find?, opens]

end Bounds

end CssQuery
