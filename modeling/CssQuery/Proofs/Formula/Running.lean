import CssQuery.Formula.Basic
import Mathlib.Data.List.Forall2

/-!
# Running computations on a cache

A computation that uses a formula cache is a function from a cache to a result
and a cache.  The equations here open the combinators one at a time.
-/

namespace CssQuery

variable {α β γ : Type}

/-- The result of a computation on a cache, and the cache behind it. -/
def Cached.runOn (run : Cached α) (cache : FormulaCache) : α × FormulaCache :=
  run cache

def Compiling.runOn (run : Compiling α) (cache : FormulaCache) :
    Except Error α × FormulaCache :=
  run cache

namespace Cached

@[simp]
theorem runOn_pure (value : α) (cache : FormulaCache) :
    runOn (pure value) cache = (value, cache) := rfl

theorem runOn_bind (run : Cached α) (next : α → Cached β) (cache : FormulaCache) :
    runOn (run >>= next) cache =
      runOn (next (runOn run cache).1) (runOn run cache).2 := rfl

theorem map_mapM (run : α → Cached β) (change : β → γ) (list : List α) :
    (List.map change <$> list.mapM run) = list.mapM fun value => change <$> run value := by
  induction list with
  | nil => rfl
  | cons first list ih =>
      rw [List.mapM_cons, List.mapM_cons, ← ih]
      simp only [map_bind, map_pure, List.map_cons, bind_map_left]

end Cached

namespace Compiling

theorem runOn_bind (run : Compiling α) (next : α → Compiling β) (cache : FormulaCache) :
    runOn (run >>= next) cache =
      match runOn run cache with
      | (.ok value, after) => runOn (next value) after
      | (.error error, after) => (.error error, after) := by
  change Cached.runOn (ExceptT.bindCont next (runOn run cache).1) (runOn run cache).2 = _
  rcases runOn run cache with ⟨_ | _, after⟩
  · rfl
  · rfl

theorem runOn_map (change : α → β) (run : Compiling α) (cache : FormulaCache) :
    runOn (change <$> run) cache =
      ((runOn run cache).1.map change, (runOn run cache).2) := by
  change runOn (run >>= fun value => pure (change value)) cache = _
  rw [runOn_bind]
  rcases runOn run cache with ⟨_ | _, after⟩
  · rfl
  · rfl

theorem runOn_bind_eq_ok {run : Compiling α} {next : α → Compiling β}
    {cache after : FormulaCache} {result : β} :
    runOn (run >>= next) cache = (.ok result, after) ↔
      ∃ value between, runOn run cache = (.ok value, between) ∧
        runOn (next value) between = (.ok result, after) := by
  rw [runOn_bind]
  rcases runOn run cache with ⟨_ | value, between⟩
  · simp
  · simp only [Prod.mk.injEq, Except.ok.injEq]
    constructor
    · exact fun returned => ⟨value, between, ⟨rfl, rfl⟩, returned⟩
    · rintro ⟨_, _, ⟨rfl, rfl⟩, returned⟩
      exact returned

theorem runOn_map_eq_ok {change : α → β} {run : Compiling α}
    {cache after : FormulaCache} {result : β} :
    runOn (change <$> run) cache = (.ok result, after) ↔
      ∃ value, runOn run cache = (.ok value, after) ∧ change value = result := by
  rw [runOn_map]
  rcases runOn run cache with ⟨_ | value, between⟩
  · simp [Except.map]
  · simp only [Except.map, Prod.mk.injEq, Except.ok.injEq]
    constructor
    · rintro ⟨rfl, rfl⟩
      exact ⟨value, ⟨rfl, rfl⟩, rfl⟩
    · rintro ⟨_, ⟨rfl, rfl⟩, rfl⟩
      exact ⟨rfl, rfl⟩

/-- A row of computations returns one result for each. -/
theorem forall₂_of_runOn_mapM {run : α → Compiling β} {relation : α → β → Prop}
    (returns : ∀ {value cache result after}, runOn (run value) cache = (.ok result, after) →
      relation value result) {list : List α} {results : List β} {cache after : FormulaCache}
    (finished : runOn (list.mapM run) cache = (.ok results, after)) :
    List.Forall₂ relation list results := by
  induction list generalizing cache results with
  | nil =>
      cases finished
      exact .nil
  | cons value list ih =>
      rw [List.mapM_cons] at finished
      obtain ⟨first, _, ran, rest⟩ := runOn_bind_eq_ok.mp finished
      obtain ⟨others, _, ranOthers, returned⟩ := runOn_bind_eq_ok.mp rest
      cases returned
      exact .cons (returns ran) (ih ranOthers)

end Compiling

namespace Formula

@[simp]
theorem runOn_request (text : String) (cache : FormulaCache) :
    Compiling.runOn (request text) cache = cache.request text := rfl

/-- A bare integer leaves the cache alone; any other formula is the entry
requested for its normal text. -/
theorem runOn_compile_eq_ok {text : String} {formula : Formula}
    {cache after : FormulaCache} :
    Compiling.runOn (compile text) cache = (.ok formula, after) ↔
      (∃ position, parseInteger? (normalize text).toList = some position ∧
        formula = literal position ∧ after = cache) ∨
      (parseInteger? (normalize text).toList = none ∧
        ∃ id, formula = expression id ∧
          cache.request (normalize text) = (.ok id, after)) := by
  simp only [compile]
  cases parseInteger? (normalize text).toList with
  | some position =>
      have ran : Compiling.runOn (pure (literal position)) cache = (.ok (literal position), cache) :=
        rfl
      simp [ran, eq_comm]
  | none =>
      simp only [Compiling.runOn_map_eq_ok, runOn_request, reduceCtorEq, false_and,
        exists_false, true_and, false_or]
      constructor
      · rintro ⟨id, requested, rfl⟩
        exact ⟨id, rfl, requested⟩
      · rintro ⟨id, rfl, requested⟩
        exact ⟨id, requested, rfl⟩

end Formula

end CssQuery
