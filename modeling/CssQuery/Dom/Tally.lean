import Std.Data.TreeMap.Lemmas

/-!
# Tallies

A tally counts how often each key has been met.  It is brought up to date with
one key after the other, so it can be read at any point of the way through a
list, and then it has counted the part of the list that lies behind.
-/

namespace CssQuery

/-- How often each key has been met.  A key that has not been met is absent. -/
abbrev Tally (Key : Type) [Ord Key] := Std.TreeMap Key Nat

namespace Tally

variable {Key : Type} [Ord Key]

def add (tally : Tally Key) (key : Key) : Tally Key :=
  tally.insert key (tally.getD key 0 + 1)

/-- The tally of a list, taken in one pass. -/
def ofList (keys : List Key) : Tally Key :=
  keys.foldl add ∅

variable [BEq Key] [LawfulBEq Key]

/-- The keys of the list, and no others, have been counted. -/
def Counts (tally : Tally Key) (keys : List Key) : Prop :=
  ∀ key, tally[key]? = if key ∈ keys then some (keys.count key) else none

variable {tally : Tally Key} {keys : List Key}

theorem Counts.getElem?_of_mem (counts : tally.Counts keys) {key : Key} (member : key ∈ keys) :
    tally[key]? = some (keys.count key) :=
  (counts key).trans (if_pos member)

variable [Std.TransOrd Key]

theorem Counts.empty : Counts (∅ : Tally Key) [] :=
  fun _ => Std.TreeMap.getElem?_emptyc

theorem Counts.getD_zero (counts : tally.Counts keys) (key : Key) :
    tally.getD key 0 = keys.count key := by
  rw [Std.TreeMap.getD_eq_getD_getElem?, counts key]
  split
  case isTrue member => rfl
  case isFalse absent => exact (List.count_eq_zero.mpr absent).symm

/-- One more key is counted. -/
theorem Counts.add [Std.LawfulEqOrd Key] (counts : tally.Counts keys) (key : Key) :
    (tally.add key).Counts (keys ++ [key]) := by
  intro other
  rw [Tally.add, Std.TreeMap.getElem?_insert, counts.getD_zero, counts other]
  by_cases same : key = other
  · subst same
    simp [List.count_append]
  · have different : compare key other ≠ .eq := fun equal => same (Std.compare_eq_iff_eq.mp equal)
    have notLast : other ≠ key := fun equal => same equal.symm
    simp [different, notLast, List.count_append, same]

theorem Counts.foldl [Std.LawfulEqOrd Key] (counts : tally.Counts keys) (later : List Key) :
    Counts (later.foldl Tally.add tally) (keys ++ later) := by
  induction later generalizing tally keys with
  | nil => rwa [List.append_nil]
  | cons key later ih =>
      rw [List.append_cons]
      exact ih (counts.add key)

theorem counts_ofList [Std.LawfulEqOrd Key] (keys : List Key) : (ofList keys).Counts keys :=
  Counts.empty.foldl keys

end Tally

end CssQuery
