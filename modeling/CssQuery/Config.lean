/-!
# Configuration

Two settings govern an engine.  They can be read from loosely typed data, a
record of named settings or a list of settings in order; what is missing keeps
its default.
-/

namespace CssQuery

/-- The settings of an engine. -/
structure EngineConfig where
  /-- How many formulas the engine's cache holds; without it, all of them. -/
  formulaCacheCapacity : Option Nat := none
  /-- Whether letter case matters to `:contains()`. -/
  caseSensitiveContains : Bool := true
deriving DecidableEq, Repr

/-- Data from which a setting can be read. -/
inductive SettingValue where
  | null
  | boolean (value : Bool)
  | integer (value : Int)
  | other
deriving DecidableEq, Repr

/-- Data from which a configuration can be read. -/
inductive ConfigData where
  | record (settings : List (String × SettingValue))
  | list (settings : List SettingValue)
  | other
deriving DecidableEq, Repr

namespace EngineConfig

/-- Reads a capacity, which is null or a positive integer below `2 ^ 64`.  The
result is a missing value if the data is no capacity. -/
def capacityOf? : SettingValue → Option (Option Nat)
  | .null => some none
  | .integer value =>
      if 1 ≤ value ∧ value < 18446744073709551616 then some (some value.toNat) else none
  | _ => none

def switchOf? : SettingValue → Option Bool
  | .boolean value => some value
  | _ => none

def ofSettings? (capacity caseSensitive : Option SettingValue) : Option EngineConfig := do
  let default : EngineConfig := {}
  let capacity ← (capacity.map capacityOf?).getD (some default.formulaCacheCapacity)
  let caseSensitive ←
    (caseSensitive.map switchOf?).getD (some default.caseSensitiveContains)
  return ⟨capacity, caseSensitive⟩

/-- Reads a configuration.  Unknown names in a record are ignored; a list has
no more entries than there are settings. -/
def ofData? : ConfigData → Option EngineConfig
  | .record settings =>
      ofSettings? (settings.lookup "formula_cache_capacity")
        (settings.lookup "case_sensitive_contains")
  | .list settings =>
      if settings.length ≤ 2 then ofSettings? settings[0]? settings[1]? else none
  | .other => none

end EngineConfig

end CssQuery
