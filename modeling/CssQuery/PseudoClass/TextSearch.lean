import CssQuery.Dom.Traversal
import CssQuery.Text.Search
import CssQuery.Token.Cursor

/-!
# Searching for text

`:contains()` looks for a text in the text nodes below a node.  Each text node
is searched on its own; comments are not searched.  When letter case does not
matter, the text sought and each text node are lowercased as a whole first.
-/

namespace CssQuery

/-- A text to look for in text nodes. -/
structure TextSearch where
  /-- The text sought, in lowercase if letter case does not matter. -/
  needle : String
  caseSensitive : Bool
deriving DecidableEq, Repr

namespace TextSearch

def ofText (text : String) (caseSensitive : Bool) : TextSearch :=
  ⟨if caseSensitive then text else String.ofList (lowercase text.toList),
    caseSensitive⟩

/-- The needle occurs in the text of one text node. -/
def matchesText (search : TextSearch) (text : String) : Bool :=
  occursIn search.needle.toList
    (if search.caseSensitive then text.toList else lowercase text.toList)

/-- Looks for a text node that matches, in a number of levels of which the
node itself is the first. -/
def matchesWithin (search : TextSearch) (tree : Tree) :
    (levels : Nat) → NodeId → Bool
  | 0, _ => false
  | levels + 1, node =>
      match (tree.node? node).map Node.data with
      | some (.text text) => search.matchesText text
      | some .document | some (.element _) =>
          (tree.children node).any (search.matchesWithin tree levels)
      | some (.comment _) | none => false

/-- The node is a text node that matches, or an element or the document above
one.  A tree without cycles has no more levels than nodes. -/
def holds (search : TextSearch) (tree : Tree) (node : NodeId) : Bool :=
  search.matchesWithin tree tree.size node

/-- The text sought by an argument, which is quoted or trimmed. -/
def parseArgument (argument : List Char) : Except Error (List Char) :=
  if ((trimStart argument).head?.map isQuote).getD false then do
    let (text, cursor) ← Cursor.expect ⟨0, argument⟩ .quoted
    cursor.expectEnd
    return text
  else if trim argument = [] then
    .error (.invalidSelector .missingSearchText)
  else .ok (trim argument)

end TextSearch

end CssQuery
