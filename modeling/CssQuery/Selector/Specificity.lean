import CssQuery.Selector.Basic

/-!
# Specificity

The specificity of a selector counts its conditions in three groups.  Two
specificities are compared by the first group in which they differ.

The counts may be kept in words of 32 bits.  As long as a selector has fewer
than `2 ^ 32` conditions, none of them overflows.
-/

namespace CssQuery

/-- How specific a selector is. -/
structure Specificity where
  identifiers : Nat
  classes : Nat
  tags : Nat
deriving DecidableEq, Repr

namespace Specificity

def zero : Specificity :=
  ⟨0, 0, 0⟩

/-- The sum of two specificities, group by group. -/
def add (first second : Specificity) : Specificity :=
  ⟨first.identifiers + second.identifiers, first.classes + second.classes,
    first.tags + second.tags⟩

/-- Compares the groups in order. -/
def compare (first second : Specificity) : Ordering :=
  (Ord.compare first.identifiers second.identifiers).then
    ((Ord.compare first.classes second.classes).then
      (Ord.compare first.tags second.tags))

/-- The number of conditions counted. -/
def total (specificity : Specificity) : Nat :=
  specificity.identifiers + specificity.classes + specificity.tags

theorem total_add (first second : Specificity) :
    (first.add second).total = first.total + second.total := by
  simp only [add, total]
  omega

end Specificity

namespace SimpleSelector

def specificity : SimpleSelector → Specificity
  | universal => .zero
  | hasTag _ => ⟨0, 0, 1⟩
  | hasClass _ | hasAttribute _ | pseudoClass _ => ⟨0, 1, 0⟩
  | hasId _ => ⟨1, 0, 0⟩

end SimpleSelector

def CompoundSelector.specificity (compound : CompoundSelector) : Specificity :=
  (compound.map SimpleSelector.specificity).foldl .add .zero

def ComplexSelector.specificity (selector : ComplexSelector) : Specificity :=
  (selector.chain.map fun link => CompoundSelector.specificity link.2).foldl .add
    (CompoundSelector.specificity selector.subject)

/-- The number of conditions in all compound selectors. -/
def ComplexSelector.conditionCount (selector : ComplexSelector) : Nat :=
  selector.subject.length + (selector.chain.flatMap Prod.snd).length

section Words

/-- A specificity that is counted in words of 32 bits. -/
structure SpecificityWords where
  identifiers : UInt32 := 0
  classes : UInt32 := 0
  tags : UInt32 := 0
deriving DecidableEq, Repr

namespace SpecificityWords

def add (first second : SpecificityWords) : SpecificityWords :=
  ⟨first.identifiers + second.identifiers, first.classes + second.classes,
    first.tags + second.tags⟩

/-- The specificity that the words stand for. -/
def toSpecificity (words : SpecificityWords) : Specificity :=
  ⟨words.identifiers.toNat, words.classes.toNat, words.tags.toNat⟩

end SpecificityWords

/-- Counts one more condition. -/
def SimpleSelector.countIn (words : SpecificityWords) : SimpleSelector → SpecificityWords
  | universal => words
  | hasTag _ => { words with tags := words.tags + 1 }
  | hasClass _ | hasAttribute _ | pseudoClass _ => { words with classes := words.classes + 1 }
  | hasId _ => { words with identifiers := words.identifiers + 1 }

def CompoundSelector.specificityWords (compound : CompoundSelector) : SpecificityWords :=
  compound.foldl SimpleSelector.countIn {}

def ComplexSelector.specificityWords (selector : ComplexSelector) : SpecificityWords :=
  selector.chain.foldl
    (fun words link => words.add (CompoundSelector.specificityWords link.2))
    (CompoundSelector.specificityWords selector.subject)

/-- The words in which a specificity is counted, each up to a multiple of
`2 ^ 32`. -/
def Specificity.toWords (specificity : Specificity) : SpecificityWords :=
  ⟨.ofNat specificity.identifiers, .ofNat specificity.classes, .ofNat specificity.tags⟩

theorem Specificity.toWords_add (first second : Specificity) :
    (first.add second).toWords = first.toWords.add second.toWords := by
  simp only [add, toWords, SpecificityWords.add, UInt32.ofNat_add]

theorem SimpleSelector.countIn_toWords (simple : SimpleSelector) (counted : Specificity) :
    simple.countIn counted.toWords = (counted.add simple.specificity).toWords := by
  rw [Specificity.toWords_add]
  cases simple <;> simp [countIn, specificity, Specificity.zero, Specificity.toWords,
    SpecificityWords.add]

theorem CompoundSelector.foldl_countIn (compound : CompoundSelector) (counted : Specificity) :
    compound.foldl SimpleSelector.countIn counted.toWords =
      ((compound.map SimpleSelector.specificity).foldl .add counted).toWords := by
  induction compound generalizing counted with
  | nil => rfl
  | cons simple compound ih =>
      rw [List.foldl_cons, SimpleSelector.countIn_toWords, ih, List.map_cons, List.foldl_cons]

theorem CompoundSelector.specificityWords_eq (compound : CompoundSelector) :
    compound.specificityWords = compound.specificity.toWords :=
  foldl_countIn compound .zero

theorem ComplexSelector.specificityWords_eq (selector : ComplexSelector) :
    selector.specificityWords = selector.specificity.toWords := by
  obtain ⟨subject, chain⟩ := selector
  rw [specificityWords, specificity, CompoundSelector.specificityWords_eq]
  dsimp only [ComplexSelector.chain, ComplexSelector.subject]
  generalize CompoundSelector.specificity subject = counted
  induction chain generalizing counted with
  | nil => rfl
  | cons link chain ih =>
      rw [List.foldl_cons, CompoundSelector.specificityWords_eq, ← Specificity.toWords_add, ih,
        List.map_cons, List.foldl_cons]

theorem CompoundSelector.total_foldl_le (compound : CompoundSelector) (counted : Specificity) :
    ((compound.map SimpleSelector.specificity).foldl .add counted).total ≤
      counted.total + compound.length := by
  induction compound generalizing counted with
  | nil => exact Nat.le_refl _
  | cons simple compound ih =>
      have single : simple.specificity.total ≤ 1 := by
        cases simple <;> simp [SimpleSelector.specificity, Specificity.zero, Specificity.total]
      have others := ih (counted.add simple.specificity)
      rw [Specificity.total_add] at others
      rw [List.map_cons, List.foldl_cons, List.length_cons]
      omega

theorem CompoundSelector.total_specificity_le (compound : CompoundSelector) :
    compound.specificity.total ≤ compound.length :=
  Nat.le_trans (total_foldl_le compound .zero) (Nat.le_of_eq (Nat.zero_add _))

theorem ComplexSelector.total_specificity_le (selector : ComplexSelector) :
    selector.specificity.total ≤ selector.conditionCount := by
  obtain ⟨subject, chain⟩ := selector
  have first := CompoundSelector.total_specificity_le subject
  rw [specificity, conditionCount]
  dsimp only [ComplexSelector.chain, ComplexSelector.subject]
  generalize CompoundSelector.specificity subject = counted at first ⊢
  generalize subject.length = count at first ⊢
  induction chain generalizing counted count with
  | nil => exact first
  | cons link chain ih =>
      have behind := CompoundSelector.total_specificity_le link.2
      rw [List.map_cons, List.foldl_cons, List.flatMap_cons, List.length_append, ← Nat.add_assoc]
      refine ih _ _ ?_
      rw [Specificity.total_add]
      exact Nat.add_le_add first behind

/-- No count of a selector with fewer than `2 ^ 32` conditions overflows. -/
theorem ComplexSelector.toSpecificity_specificityWords {selector : ComplexSelector}
    (few : selector.conditionCount < UInt32.size) :
    selector.specificityWords.toSpecificity = selector.specificity := by
  have small : selector.specificity.total < 4294967296 :=
    Nat.lt_of_le_of_lt selector.total_specificity_le few
  rw [specificityWords_eq]
  generalize selector.specificity = counted at small
  obtain ⟨identifiers, classes, tags⟩ := counted
  simp only [Specificity.total] at small
  simp only [SpecificityWords.toSpecificity, Specificity.toWords, UInt32.toNat_ofNat',
    Specificity.mk.injEq]
  omega

end Words

end CssQuery
