import CssQuery.Config
import CssQuery.Selector.Matching
import CssQuery.Selector.Parser

/-!
# The selector engine

An engine reads selectors under a configuration, builds their pseudo-classes
and selects elements with them.  Its formulas are kept in a formula cache, on
which every operation here runs.

The argument of `:not()` is itself a selector list.  It is shorter than the
text it stands in, so the nesting is no deeper than that text is long.
-/

namespace CssQuery

/-- The cache of an engine that does not share one. -/
def EngineConfig.newCache (config : EngineConfig) : FormulaCache :=
  { capacity := config.formulaCacheCapacity }

namespace PseudoClass

def nth (argument : List Char) (counting : Counting) : Compiling PseudoClass := do
  return .test (.nth (← Formula.compile (String.ofList argument)) counting)

def contains (argument : List Char) (caseSensitive : Bool) : Compiling PseudoClass :=
  ExceptT.mk (pure ((TextSearch.parseArgument argument).map fun text =>
    .test (.contains (.ofText (String.ofList text) caseSensitive))))

/-- Builds a pseudo-class of a known kind, with a way to read the argument of
`:not()`.  The argument is empty for a kind that takes none. -/
def ofKind (config : EngineConfig)
    (parseInner : List Char → Compiling SelectorList) (kind : PseudoClassKind)
    (argument : List Char) : Compiling PseudoClass :=
  match kind with
  | .firstChild => pure (.test (.structural .firstChild))
  | .lastChild => pure (.test (.structural .lastChild))
  | .onlyChild => pure (.test (.structural .onlyChild))
  | .firstOfType => pure (.test (.structural .firstOfType))
  | .lastOfType => pure (.test (.structural .lastOfType))
  | .onlyOfType => pure (.test (.structural .onlyOfType))
  | .empty => pure (.test (.structural .empty))
  | .root => pure (.test (.structural .root))
  | .nthChild => nth argument ⟨false, false⟩
  | .nthLastChild => nth argument ⟨false, true⟩
  | .nthOfType => nth argument ⟨true, false⟩
  | .nthLastOfType => nth argument ⟨true, true⟩
  | .contains => contains argument config.caseSensitiveContains
  | .not => PseudoClass.not <$> parseInner argument

/-- Builds a pseudo-class by name.  The name and the number of arguments are
checked before the argument is looked at. -/
def ofName (config : EngineConfig)
    (parseInner : List Char → Compiling SelectorList) : PseudoClassBuilder :=
  fun name argument =>
    match PseudoClassKind.ofName? name with
    | none => throw (.invalidSelector (.unsupportedPseudoClass name))
    | some kind =>
        if kind.arity = argument.toList.length then
          ofKind config parseInner kind (argument.getD [])
        else throw (.invalidSelector (.argumentCount kind))

/-- Builds a pseudo-class in which `:not()` is nested no deeper than `depth`.
The argument of the innermost `:not()` is then empty. -/
def build (config : EngineConfig) : (depth : Nat) → PseudoClassBuilder
  | 0 => ofName config fun argument =>
      throw (.scan (.state argument.length "empty selector"))
  | depth + 1 => ofName config (SelectorList.parse (build config depth))

end PseudoClass

namespace EngineConfig

def pseudoClass (config : EngineConfig) (name : String) (argument : Option String) :
    Compiling PseudoClass :=
  let argument := argument.map String.toList
  PseudoClass.build config (argument.getD []).length name argument

def parse (config : EngineConfig) (text : String) : Compiling SelectorList :=
  SelectorList.parse (PseudoClass.build config text.toList.length) text.toList

/-- The elements below a node that a selector selects, in document order. -/
def select (config : EngineConfig) (tree : Tree) (root : NodeId) (selector : String) :
    Compiling (List NodeId) := do
  let selectors ← config.parse selector
  SelectorList.apply tree root (tree.elementsBelow root) selectors

end EngineConfig

end CssQuery
