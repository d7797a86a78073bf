import CssQuery.Dom.Links
import CssQuery.Proofs.Selector.Agreement
import CssQuery.Proofs.Selector.Staged

/-!
# What reading a selector leaves in the cache

A selector that has been read refers to entries of the cache on which it was
read.  Reading adds entries and never loses one, so everything that has been
read so far can rely on the entries that it refers to.

With it the two ways to match a selector agree on whatever the engine reads.
-/

namespace CssQuery

variable {α : Type}

/-- Whether or not the computation succeeds, it keeps the cache sound and only
adds to it.  A value that it returns has a property on the cache behind it. -/
def Compiling.Ensures (before : FormulaCache → Prop) (run : Compiling α)
    (after : FormulaCache → α → Prop) : Prop :=
  ∀ cache, cache.Sound → before cache →
    (run.runOn cache).2.Sound ∧ cache.Extends (run.runOn cache).2 ∧
      ∀ value, (run.runOn cache).1 = .ok value → after (run.runOn cache).2 value

/-- What a computation agrees on with itself. -/
theorem Compiling.Agree.ensures {run : Compiling α}
    {related : FormulaCache → FormulaCache → α → α → Prop} {after : FormulaCache → α → Prop}
    (agree : ∀ cache, cache.Sound → Agree cache cache run run related)
    (holds : ∀ cache value other, related cache cache value other → after cache value) :
    Ensures (fun _ => True) run after := by
  intro cache sound _
  obtain ⟨later, -, outcome⟩ := agree cache sound
  refine ⟨later.2, later.1, fun value returned => ?_⟩
  rw [returned] at outcome
  cases outcome with
  | ok same => exact holds _ _ _ same

theorem EngineConfig.ensures_parse (config : EngineConfig) (text : String) :
    Compiling.Ensures (fun _ => True) (config.parse text)
      fun cache selectors => SelectorList.AllFormulas (Formula.Known cache) selectors :=
  Compiling.Agree.ensures (fun _ sound => config.agree_parse sound sound text)
    fun _ _ _ => SelectorList.Alike.allFormulas fun _ _ same => same.known

theorem EngineConfig.ensures_pseudoClass (config : EngineConfig) (name : String)
    (argument : Option String) :
    Compiling.Ensures (fun _ => True) (config.pseudoClass name argument)
      fun cache condition => condition.AllFormulas (Formula.Known cache) :=
  Compiling.Agree.ensures (fun _ sound => config.agree_pseudoClass sound sound name argument)
    fun _ _ _ => PseudoClass.Alike.allFormulas fun _ _ same => same.known

/-- The staged filter keeps exactly the candidates that pass the point test, in
their order and with their repeats.  It does not matter below which node they
were found, nor what else the cache has been asked since the selector was
read, nor whether the tests share one cache. -/
theorem SelectorList.apply_eq_filter_holds {config : EngineConfig} {text : String}
    {capacity : Option Nat} {history : List CacheCommand} {selectors : SelectorList}
    {parsed : FormulaCache}
    (parse : (config.parse text).runOn ((FormulaCache.empty capacity).run history) =
      (.ok selectors, parsed))
    (tree : Tree) (scope : NodeId) (candidates : List NodeId) (before : List CacheCommand) :
    (∀ between : NodeId → List CacheCommand,
      ((SelectorList.apply tree scope candidates selectors).runOn (parsed.run before)).1 =
        candidates.filter fun node =>
          ((SelectorList.holds selectors tree node).runOn (parsed.run (between node))).1) ∧
    ∀ between : List CacheCommand,
      ((SelectorList.apply tree scope candidates selectors).runOn (parsed.run before)).1 =
        ((candidates.filterM (SelectorList.holds selectors tree)).runOn
          (parsed.run between)).1 := by
  have historySound := (FormulaCache.Sound.empty capacity).run history
  have ensured := config.ensures_parse text _ historySound trivial
  rw [parse] at ensured
  obtain ⟨parsedSound, -, returned⟩ := ensured
  have known := returned selectors rfl
  have extension := FormulaCache.Extends.run parsed
  have sound := parsedSound.run
  have filtered : ((SelectorList.apply tree scope candidates selectors).runOn
      (parsed.run before)).1 =
        candidates.filter (SelectorList.meaning parsed.answers tree selectors) :=
    (SelectorList.steady_apply parsedSound selectors known scope candidates _
      (extension before) (sound before)).1
  have tested : ∀ node, Cached.Steady parsed (SelectorList.holds selectors tree node)
      (SelectorList.meaning parsed.answers tree selectors node) :=
    SelectorList.steady_holds parsedSound known
  constructor
  · intro between
    rw [filtered]
    apply List.filter_congr
    intro node _
    exact (tested node _ (extension (between node)) (sound (between node))).1.symm
  · intro between
    have stepwise := Cached.Steady.filterM fun node (_ : node ∈ candidates) => tested node
    rw [filtered]
    exact (stepwise _ (extension between) (sound between)).1.symm

/-- Candidates out of order, with a repeat, a text node and an unknown index,
filtered by a group with a negated formula, on a cache for one text from which
the text of the formula had been displaced. -/
theorem SelectorList.apply_negated_formula :
    ∃ selectors parsed tree,
      ((⟨none, true⟩ : EngineConfig).parse "li:not(:nth-child(2n)), ul > p + li").runOn
          ((FormulaCache.empty (some 1)).run [.request "2n", .contains 0 1, .request "n"]) =
        (.ok selectors, parsed) ∧
      ((SelectorList.apply tree 4 [5, 2, 4, 9, 2, 3] selectors).runOn
        (parsed.run [.contains 2 7])).1 = [5, 2, 2] := by
  let items := (((Tree.empty.appendElement 0 "ul").2.appendElement 1 "li").2.appendElement
    1 "li").2
  let tree := ((items.appendText 1 "x").2.appendElement 1 "li").2
  have tested :
      (match ((⟨none, true⟩ : EngineConfig).parse "li:not(:nth-child(2n)), ul > p + li").runOn
          ((FormulaCache.empty (some 1)).run [.request "2n", .contains 0 1, .request "n"]) with
      | (.ok selectors, parsed) =>
          [5, 2, 4, 9, 2, 3].filter (fun node =>
            ((SelectorList.holds selectors tree node).runOn
              (parsed.run [.contains 2 node])).1) == [5, 2, 2]
      | _ => false) = true := by decide +kernel
  split at tested
  case h_1 selectors parsed parse =>
    have filtered := (SelectorList.apply_eq_filter_holds parse tree 4 [5, 2, 4, 9, 2, 3]
      [.contains 2 7]).1 fun node => [.contains 2 node]
    exact ⟨selectors, parsed, tree, parse, filtered.trans (beq_iff_eq.mp tested)⟩
  case h_2 => cases tested

end CssQuery
