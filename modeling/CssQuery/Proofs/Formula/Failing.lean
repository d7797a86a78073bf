import CssQuery.Proofs.Formula.Running
import CssQuery.Proofs.Token.Places

/-!
# How computations on a cache fail

A computation on a cache fails with the errors of its own steps and with those
of the cache's parser of formulas.  A parser that only ever refuses a formula
raises no error about a place in a text, so that what a computation says about
places is settled by its steps.
-/

namespace CssQuery

variable {α β : Type}

/-- The parser of the cache never fails with an error about a place. -/
def FormulaCache.NeverScans (cache : FormulaCache) : Prop :=
  ∀ formula cause, cache.parser formula ≠ .error (.scan cause)

theorem EquationParser.linear_ne_scan (formula : String) (cause : ScanError) :
    linear formula ≠ .error (.scan cause) := by
  unfold linear
  split
  · nofun
  · nofun
  · rename_i error notScan _
    rintro ⟨⟩
    exact notScan cause rfl

theorem FormulaCache.request_fails {cache : FormulaCache} (neverScans : cache.NeverScans)
    (text : String) {permitted : Error → Prop}
    (others : ∀ error, (∀ cause, error ≠ .scan cause) → permitted error) :
    FailsWith permitted (cache.request text).1 ∧ (cache.request text).2.NeverScans := by
  unfold request
  split
  · exact ⟨.ok _, neverScans⟩
  · split
    · rename_i error refused
      refine ⟨.error (others error ?_), neverScans⟩
      rintro cause rfl
      exact neverScans text cause refused
    · split
      · exact ⟨.ok _, neverScans⟩
      · exact ⟨.error (others _ nofun), neverScans⟩

/-- The computation fails only with permitted errors, if the parser of the
cache raises none about a place. -/
def Compiling.FailsWith (permitted : Error → Prop) (run : Compiling α) : Prop :=
  ∀ cache, cache.NeverScans →
    CssQuery.FailsWith permitted (runOn run cache).1 ∧ (runOn run cache).2.NeverScans

namespace Compiling.FailsWith

variable {permitted : Error → Prop}

theorem ofResult {result : Except Error α} (fails : CssQuery.FailsWith permitted result) :
    FailsWith permitted (ExceptT.mk (Pure.pure result) : Compiling α) :=
  fun _ neverScans => ⟨fails, neverScans⟩

theorem pure (value : α) : FailsWith permitted (Pure.pure value : Compiling α) :=
  ofResult (.ok value)

theorem throw {error : Error} (here : permitted error) :
    FailsWith permitted (MonadExcept.throw error : Compiling α) :=
  ofResult (.error here)

theorem bind {run : Compiling α} {next : α → Compiling β} (first : FailsWith permitted run)
    (second : ∀ value, FailsWith permitted (next value)) :
    FailsWith permitted (run >>= next) := by
  intro cache neverScans
  obtain ⟨fails, between⟩ := first cache neverScans
  rw [runOn_bind]
  rcases ran : runOn run cache with ⟨_ | value, after⟩
  · rw [ran] at fails between
    exact ⟨.error (fails _ rfl), between⟩
  · rw [ran] at between
    exact second value after between

theorem map {run : Compiling α} (fails : FailsWith permitted run) (change : α → β) :
    FailsWith permitted (change <$> run) := by
  rw [map_eq_pure_bind]
  exact fails.bind fun value => pure (change value)

theorem mono {others : Error → Prop} {run : Compiling α} (fails : FailsWith permitted run)
    (weaker : ∀ error, permitted error → others error) : FailsWith others run := by
  intro cache neverScans
  obtain ⟨errors, after⟩ := fails cache neverScans
  exact ⟨fun error raised => weaker error (errors error raised), after⟩

theorem foldlM {step : β → α → Compiling β} {list : List α}
    (steps : ∀ state, ∀ value ∈ list, FailsWith permitted (step state value)) (state : β) :
    FailsWith permitted (list.foldlM step state) := by
  induction list generalizing state with
  | nil => exact pure state
  | cons first list ih =>
      rw [List.foldlM_cons]
      refine (steps state first List.mem_cons_self).bind fun behind => ?_
      exact ih (fun state value member => steps state value (List.mem_cons_of_mem _ member)) behind

theorem compile (text : String)
    (others : ∀ error, (∀ cause, error ≠ .scan cause) → permitted error) :
    FailsWith permitted (Formula.compile text) := by
  rw [Formula.compile]
  split
  · exact pure _
  · refine FailsWith.map ?_ _
    exact fun cache neverScans => cache.request_fails neverScans _ others

end Compiling.FailsWith

end CssQuery
