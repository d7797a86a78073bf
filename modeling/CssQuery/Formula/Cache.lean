import CssQuery.Equation.Parser
import CssQuery.Formula.Coverage

/-!
# The formula cache

Formulas are read once per text and their coverage is shared by everyone who
uses the same text.  A cache keeps every entry it has ever made, so that an
entry in use outlives its eviction, and a list of the texts that it still
holds, the most recently requested first.  A bounded cache drops the last of
them when there are too many.
-/

namespace CssQuery

/-- A formula in the variable `n` with what is known about its positions. -/
structure FormulaEntry where
  text : String
  equation : Equation
  coverage : Coverage := {}

/-- The index of an entry in its cache. -/
abbrev EntryId := Nat

/-- All entries made for one parser, and those still held. -/
structure FormulaCache where
  parser : EquationParser := EquationParser.linear
  /-- How many texts are held at most; without it, all are. -/
  capacity : Option Nat := none
  entries : Array FormulaEntry := #[]
  /-- The texts held with their entries, the most recently requested first. -/
  held : List (String × EntryId) := []

namespace FormulaCache

def length (cache : FormulaCache) : Nat :=
  cache.held.length

def isBounded (cache : FormulaCache) : Bool :=
  cache.capacity.isSome

def describe (cache : FormulaCache) : String :=
  "FormulaCache \x7b len: " ++ toString cache.length ++ ", bounded: "
    ++ (if cache.isBounded then "true" else "false") ++ ", .. \x7d"

/-- Puts a text at the front of those held and drops what exceeds the
capacity. -/
def hold (cache : FormulaCache) (text : String) (id : EntryId) : FormulaCache :=
  let held := (text, id) :: cache.held.filter fun entry => entry.1 != text
  { cache with held := (cache.capacity.map held.take).getD held }

/-- The entry for a formula text.  A new text is read and must have `n` as its
only variable; a text that is refused leaves the cache as it is. -/
def request (cache : FormulaCache) (text : String) :
    Except Error EntryId × FormulaCache :=
  match cache.held.lookup text with
  | some id => (.ok id, cache.hold text id)
  | none =>
      match cache.parser text with
      | .error error => (.error error, cache)
      | .ok equation =>
          if equation.variableNames = ["n"] then
            let id := cache.entries.size
            (.ok id,
              { cache with
                entries := cache.entries.push ⟨text, equation, {}⟩ }.hold text id)
          else
            (.error (.invalidSelector (.foreignVariables text)), cache)

/-- Whether an entry's formula selects a position, counted from one. -/
def contains (cache : FormulaCache) (id : EntryId) (index : Int) :
    Bool × FormulaCache :=
  match cache.entries[id]? with
  | none => (false, cache)
  | some entry =>
      let coverage :=
        entry.coverage.extendTo Coverage.horizon entry.equation.evaluate index
      (coverage.contains index,
        { cache with
          entries := cache.entries.modify id fun entry =>
            { entry with coverage := coverage } })

/-- The greatest position of an entry that has been decided. -/
def maxIndex (cache : FormulaCache) (id : EntryId) : Int :=
  (cache.entries[id]?.map fun entry => entry.coverage.maxIndex).getD 0

end FormulaCache

end CssQuery
