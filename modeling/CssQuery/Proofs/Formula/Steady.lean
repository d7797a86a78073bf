import CssQuery.Proofs.Formula.History
import CssQuery.Proofs.Formula.Running

/-!
# Answers that do not depend on the cache

A computation on a cache learns positions on its way, so the cache behind it is
not the one before it.  Its result is nevertheless settled by the equations of
the entries, and these an entry never changes.  A computation is constant on a
family of caches that it does not lead out of if it has one result on all of
them; it is steady over a base cache if the family is that of the later caches.
-/

namespace CssQuery

variable {α β : Type} {base : FormulaCache}

/-- On every cache of a family the computation has the given result, and the
cache that it leaves behind is of the family again. -/
def Cached.ConstantOn (family : FormulaCache → Prop) (run : Cached α) (value : α) : Prop :=
  ∀ cache, family cache → (run.runOn cache).1 = value ∧ family (run.runOn cache).2

namespace Cached.ConstantOn

variable {family : FormulaCache → Prop}

theorem pure (value : α) : ConstantOn family (Pure.pure value) value :=
  fun _ member => ⟨rfl, member⟩

theorem bind {run : Cached α} {next : α → Cached β} {value : α} {result : β}
    (first : ConstantOn family run value) (second : ConstantOn family (next value) result) :
    ConstantOn family (run >>= next) result := by
  intro cache member
  obtain ⟨value_eq, between⟩ := first cache member
  rw [Cached.runOn_bind, value_eq]
  exact second _ between

theorem filterM {test : α → Cached Bool} {holds : α → Bool} {list : List α}
    (constant : ∀ value ∈ list, ConstantOn family (test value) (holds value)) :
    ConstantOn family (list.filterM test) (list.filter holds) := by
  have collected : ∀ kept : List α,
      ConstantOn family (list.filterAuxM test kept) ((list.filter holds).reverse ++ kept) := by
    induction list with
    | nil => exact fun kept => pure kept
    | cons first list ih =>
        intro kept
        have others := ih fun value member => constant value (List.mem_cons_of_mem _ member)
        have decided := constant first List.mem_cons_self
        refine decided.bind ?_
        cases answer : holds first with
        | false =>
            rw [List.filter_cons_of_neg (by simp [answer])]
            exact others kept
        | true =>
            rw [List.filter_cons_of_pos answer, List.reverse_cons, List.append_assoc]
            exact others (first :: kept)
  refine (collected []).bind ?_
  rw [List.append_nil, List.reverse_reverse]
  exact pure _

theorem anyM {test : α → Cached Bool} {holds : α → Bool} {list : List α}
    (constant : ∀ value ∈ list, ConstantOn family (test value) (holds value)) :
    ConstantOn family (list.anyM test) (list.any holds) := by
  induction list with
  | nil => exact pure false
  | cons first list ih =>
      have others := ih fun value member => constant value (List.mem_cons_of_mem _ member)
      have decided := constant first List.mem_cons_self
      refine decided.bind ?_
      rw [List.any_cons]
      cases holds first with
      | false => exact others
      | true => exact pure true

theorem mapM {run : α → Cached β} {result : α → β} {list : List α}
    (constant : ∀ value ∈ list, ConstantOn family (run value) (result value)) :
    ConstantOn family (list.mapM run) (list.map result) := by
  induction list with
  | nil => exact pure []
  | cons first list ih =>
      have others := ih fun value member => constant value (List.mem_cons_of_mem _ member)
      have here := constant first List.mem_cons_self
      rw [List.mapM_cons]
      exact here.bind (others.bind (pure _))

end Cached.ConstantOn

/-- The cache comes later than the base: it is sound, and has every entry of
the base with the same equation. -/
def FormulaCache.Later (base cache : FormulaCache) : Prop :=
  base.Extends cache ∧ cache.Sound

/-- On every sound cache that extends the base the computation has the given
result, and leaves behind such a cache. -/
def Cached.Steady (base : FormulaCache) (run : Cached α) (value : α) : Prop :=
  ∀ cache, base.Extends cache → cache.Sound →
    (run.runOn cache).1 = value ∧ base.Extends (run.runOn cache).2 ∧
      (run.runOn cache).2.Sound

theorem Cached.steady_iff {run : Cached α} {value : α} :
    Steady base run value ↔ ConstantOn base.Later run value :=
  ⟨fun steady cache later => steady cache later.1 later.2,
    fun constant cache extension sound => constant cache ⟨extension, sound⟩⟩

namespace Cached.Steady

theorem pure (value : α) : Steady base (Pure.pure value) value :=
  steady_iff.mpr (.pure value)

theorem bind {run : Cached α} {next : α → Cached β} {value : α} {result : β}
    (first : Steady base run value) (second : Steady base (next value) result) :
    Steady base (run >>= next) result :=
  steady_iff.mpr ((steady_iff.mp first).bind (steady_iff.mp second))

theorem map {run : Cached α} {value : α} (steady : Steady base run value) (change : α → β) :
    Steady base (change <$> run) (change value) := by
  rw [map_eq_pure_bind]
  exact steady.bind (pure (change value))

theorem filterM {test : α → Cached Bool} {holds : α → Bool} {list : List α}
    (steady : ∀ value ∈ list, Steady base (test value) (holds value)) :
    Steady base (list.filterM test) (list.filter holds) :=
  steady_iff.mpr (.filterM fun value member => steady_iff.mp (steady value member))

theorem anyM {test : α → Cached Bool} {holds : α → Bool} {list : List α}
    (steady : ∀ value ∈ list, Steady base (test value) (holds value)) :
    Steady base (list.anyM test) (list.any holds) :=
  steady_iff.mpr (.anyM fun value member => steady_iff.mp (steady value member))

theorem mapM {run : α → Cached β} {result : α → β} {list : List α}
    (steady : ∀ value ∈ list, Steady base (run value) (result value)) :
    Steady base (list.mapM run) (list.map result) :=
  steady_iff.mpr (.mapM fun value member => steady_iff.mp (steady value member))

end Cached.Steady

namespace Formula

/-- The formula needs no entry that the cache does not have. -/
def Known (cache : FormulaCache) : Formula → Prop
  | .literal _ => True
  | .expression entry => entry < cache.entries.size

/-- The answer of a cache about an index, counted from zero. -/
def answer (cache : FormulaCache) (formula : Formula) (index : Nat) : Bool :=
  ((formula.matchesIndex index).runOn cache).1

theorem runOn_matchesIndex_of_le {index : Nat} (small : (index : Int) + 1 ≤ maxInteger)
    (entry : EntryId) (cache : FormulaCache) :
    ((expression entry).matchesIndex index).runOn cache =
      cache.contains entry (index + 1) := by
  rw [matchesIndex, if_pos small]
  rfl

theorem matchesIndex_of_lt {index : Nat} (large : ¬ (index : Int) + 1 ≤ maxInteger)
    (entry : EntryId) : (expression entry).matchesIndex index = pure false := by
  rw [matchesIndex, if_neg large]

/-- The answers of the base are those of every later cache. -/
theorem Known.steady {formula : Formula} (known : formula.Known base) (baseSound : base.Sound)
    (index : Nat) :
    Cached.Steady base (formula.matchesIndex index) (answer base formula index) := by
  cases formula with
  | literal position => exact Cached.Steady.pure _
  | expression entry =>
      by_cases small : (index : Int) + 1 ≤ maxInteger
      · intro cache extension sound
        have asked := sound.contains_iff entry (index + 1)
        have baseAsked := baseSound.contains_iff entry (index + 1)
        have same := extension.selects_iff known (index + 1)
        rw [answer, runOn_matchesIndex_of_le small, runOn_matchesIndex_of_le small]
        refine ⟨Bool.eq_iff_iff.mpr (asked.trans (same.trans baseAsked.symm)), ?_, ?_⟩
        · exact extension.trans (FormulaCache.Extends.contains cache entry (index + 1))
        · exact sound.contains entry (index + 1)
      · rw [answer, matchesIndex_of_lt small]
        exact Cached.Steady.pure false

end Formula

end CssQuery
