import CssQuery.Equation.Basic
import Mathlib.Data.List.Induction

/-!
# Sums of terms

A linear equation lists its variables in increasing order, each once.  That is
why adding a term changes one entry only, and the coefficient of a variable is
the sum of the terms of that variable alone, in the order in which they come.
The order matters, since a sum that has reached an end of the range may leave
it again.
-/

namespace CssQuery

namespace Term

/-- What the terms of a variable add up to from left to right; without a
variable, the numbers that stand alone. -/
def total (variableName : Option String) (terms : List Term) : Int :=
  (terms.filter fun term => term.variableName = variableName).foldl
    (fun sum term => addClamped sum term.amount) 0

theorem total_append_same (terms : List Term) (term : Term) :
    total term.variableName (terms ++ [term]) =
      addClamped (total term.variableName terms) term.amount := by
  simp [total, List.filter_append]

theorem total_append_other {variableName : Option String} {term : Term}
    (other : term.variableName ≠ variableName) (terms : List Term) :
    total variableName (terms ++ [term]) = total variableName terms := by
  simp [total, List.filter_append, other]

end Term

namespace LinearEquation

section Coefficients

variable {coefficients : List (String × Int)}

/-- The variables come in increasing order. -/
def Increasing (coefficients : List (String × Int)) : Prop :=
  (coefficients.map Prod.fst).Pairwise (· < ·)

theorem increasing_cons {first : String × Int} :
    Increasing (first :: coefficients) ↔
      (∀ entry ∈ coefficients, first.1 < entry.1) ∧ Increasing coefficients := by
  simp [Increasing, List.pairwise_cons]

theorem mem_addCoefficient (name variableName : String) (amount : Int)
    (coefficients : List (String × Int)) :
    name ∈ (addCoefficient variableName amount coefficients).map Prod.fst ↔
      name = variableName ∨ name ∈ coefficients.map Prod.fst := by
  induction coefficients with
  | nil => simp [addCoefficient]
  | cons first rest ih =>
      obtain ⟨other, total⟩ := first
      simp only [addCoefficient]
      split
      case isTrue same => simp [same]
      case isFalse =>
        split
        case isTrue => simp
        case isFalse =>
          rw [List.map_cons, List.mem_cons, ih, List.map_cons, List.mem_cons]
          exact or_left_comm

theorem Increasing.addCoefficient (increasing : Increasing coefficients) (variableName : String)
    (amount : Int) :
    Increasing (LinearEquation.addCoefficient variableName amount coefficients) := by
  induction coefficients with
  | nil => exact List.pairwise_singleton _ _
  | cons first rest ih =>
      obtain ⟨other, total⟩ := first
      obtain ⟨least, later⟩ := increasing_cons.mp increasing
      simp only [LinearEquation.addCoefficient]
      split
      case isTrue => exact increasing_cons.mpr ⟨least, later⟩
      case isFalse differs =>
        split
        case isTrue before =>
          refine increasing_cons.mpr ⟨List.forall_mem_cons.mpr ⟨before, ?_⟩, increasing⟩
          exact fun entry member => String.lt_trans before (least entry member)
        case isFalse notBefore =>
          have after : other < variableName :=
            Std.lt_of_le_of_ne (String.not_lt.mp notBefore) (Ne.symm differs)
          refine increasing_cons.mpr ⟨fun entry member => ?_, ih later⟩
          have name := List.mem_map_of_mem (f := Prod.fst) member
          rcases (mem_addCoefficient _ _ _ _).mp name with new | old
          · exact new ▸ after
          · obtain ⟨known, inside, same⟩ := List.mem_map.mp old
            exact same ▸ least known inside

theorem lookup_cons_of_ne {name other : String} (differs : name ≠ other) (total : Int) :
    ((other, total) :: coefficients).lookup name = coefficients.lookup name := by
  rw [List.lookup_cons, beq_false_of_ne differs]

/-- What stands before the first variable has no entry. -/
theorem lookup_of_lt {name : String} (before : ∀ entry ∈ coefficients, name < entry.1) :
    coefficients.lookup name = none := by
  rw [List.lookup_eq_none_iff]
  intro entry member
  rw [bne_iff_ne]
  intro same
  exact String.lt_irrefl _ (same ▸ before entry member)

theorem lookup_addCoefficient_other {name variableName : String} (differs : name ≠ variableName)
    (amount : Int) (coefficients : List (String × Int)) :
    (addCoefficient variableName amount coefficients).lookup name = coefficients.lookup name := by
  induction coefficients with
  | nil => exact lookup_cons_of_ne differs _
  | cons first rest ih =>
      obtain ⟨other, total⟩ := first
      simp only [addCoefficient]
      split
      case isTrue same =>
        have different : name ≠ other := same ▸ differs
        rw [lookup_cons_of_ne different, lookup_cons_of_ne different]
      case isFalse =>
        split
        case isTrue => exact lookup_cons_of_ne differs _
        case isFalse => rw [List.lookup_cons, List.lookup_cons, ih]

/-- A variable that is not yet listed counts as zero. -/
theorem lookup_addCoefficient_same (increasing : Increasing coefficients) (variableName : String)
    (amount : Int) :
    (addCoefficient variableName amount coefficients).lookup variableName =
      some (addClamped ((coefficients.lookup variableName).getD 0) amount) := by
  induction coefficients with
  | nil => simp [addCoefficient]
  | cons first rest ih =>
      obtain ⟨other, total⟩ := first
      obtain ⟨least, later⟩ := increasing_cons.mp increasing
      simp only [addCoefficient]
      split
      case isTrue same => simp [same]
      case isFalse differs =>
        split
        case isTrue before =>
          have absent : ((other, total) :: rest).lookup variableName = none := by
            refine lookup_of_lt (List.forall_mem_cons.mpr ⟨before, ?_⟩)
            exact fun entry member => String.lt_trans before (least entry member)
          rw [absent, List.lookup_cons_self]
          rfl
        case isFalse => rw [lookup_cons_of_ne differs, ih later, lookup_cons_of_ne differs]

end Coefficients

/-- The equation is the sum of the terms, and lists the variables of all of
them, also one whose terms cancel out. -/
structure Sums (equation : LinearEquation) (terms : List Term) : Prop where
  increasing : Increasing equation.coefficients
  names : ∀ name, name ∈ equation.variableNames ↔ some name ∈ terms.map Term.variableName
  coefficient : ∀ name, equation.coefficient name = Term.total (some name) terms
  constant : equation.constant = Term.total none terms

namespace Sums

variable {equation : LinearEquation} {terms : List Term}

theorem addTerm (sums : equation.Sums terms) (term : Term) :
    (equation.addTerm term).Sums (terms ++ [term]) := by
  obtain ⟨amount, variableName⟩ := term
  cases variableName with
  | none =>
      refine ⟨sums.increasing, fun name => ?_, fun name => ?_, ?_⟩
      · have known : some name ∈ (terms ++ [(⟨amount, none⟩ : Term)]).map Term.variableName ↔
            some name ∈ terms.map Term.variableName := by simp
        exact (sums.names name).trans known.symm
      · rw [Term.total_append_other (by simp)]
        exact sums.coefficient name
      · have same := Term.total_append_same terms ⟨amount, none⟩
        rw [← sums.constant] at same
        exact same.symm
  | some variableName =>
      refine ⟨sums.increasing.addCoefficient _ _, fun name => ?_, fun name => ?_, ?_⟩
      · have known : some name ∈ (terms ++ [(⟨amount, some variableName⟩ : Term)]).map
              Term.variableName ↔
            name = variableName ∨ some name ∈ terms.map Term.variableName := by
          rw [List.map_append, List.mem_append, or_comm]
          simp
        rw [known, ← sums.names]
        exact mem_addCoefficient name variableName amount equation.coefficients
      · by_cases same : name = variableName
        · subst same
          have added := Term.total_append_same terms ⟨amount, some name⟩
          rw [← sums.coefficient] at added
          rw [added]
          exact congrArg (Option.getD · 0) (lookup_addCoefficient_same sums.increasing name amount)
        · have differs : some variableName ≠ some name := by simpa using Ne.symm same
          rw [Term.total_append_other differs, ← sums.coefficient]
          exact congrArg (Option.getD · 0) (lookup_addCoefficient_other same amount _)
      · rw [Term.total_append_other (by simp)]
        exact sums.constant

end Sums

theorem sums_ofTerms (terms : List Term) : (ofTerms terms).Sums terms := by
  induction terms using List.reverseRecOn with
  | nil => exact ⟨.nil, by simp [ofTerms, zero, variableNames], fun _ => rfl, rfl⟩
  | append_singleton terms term ih =>
      rw [ofTerms, List.foldl_append]
      exact ih.addTerm term

end LinearEquation

end CssQuery
