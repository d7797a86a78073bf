import CssQuery.Proofs.Session.Queries

/-!
# What an engine selects

An engine may have any history: its cache has been asked for formulas and
positions by other selectors, other trees and other engines.  Whether it reads
a text, and which elements the text selects, is the same after every history.
So a text can be said to be accepted, and to select certain elements, without
a word about the cache.
-/

namespace CssQuery

namespace FormulaCache

/-- The cache is what some history leaves of an empty one. -/
def Reached (cache : FormulaCache) : Prop :=
  ∃ capacity history, cache = (empty capacity).run history

theorem Reached.empty (capacity : Option Nat) : (empty capacity).Reached :=
  ⟨capacity, [], rfl⟩

theorem Reached.sound {cache : FormulaCache} (reached : cache.Reached) : cache.Sound := by
  obtain ⟨capacity, history, rfl⟩ := reached
  exact (Sound.empty capacity).run history

end FormulaCache

namespace EngineConfig

/-- A new engine reads the text as a selector list. -/
def accepts (config : EngineConfig) (text : String) : Bool :=
  (config.afresh fun config => config.parse text).isOk

/-- After every history the engine selects these nodes. -/
def Selects (config : EngineConfig) (tree : Tree) (root : NodeId) (selector : String)
    (nodes : List NodeId) : Prop :=
  ∀ cache : FormulaCache, cache.Reached →
    ((config.select tree root selector).runOn cache).1 = .ok nodes

variable {config : EngineConfig} {text : String} {cache parsed : FormulaCache}
  {selectors : SelectorList}

/-- Whether a text is accepted can be told on any sound cache. -/
theorem accepts_iff_exists_parse (sound : cache.Sound) :
    config.accepts text = true ↔
      ∃ selectors after, (config.parse text).runOn cache = (.ok selectors, after) := by
  obtain ⟨-, -, outcome⟩ := config.agree_parse_renewed sound text
  rw [accepts, afresh]
  generalize ((config.renewed.parse text).runOn config.renewed.newCache).1 = fresh at outcome ⊢
  rcases ran : (config.parse text).runOn cache with ⟨result, after⟩
  rw [ran] at outcome
  cases outcome with
  | ok alike => exact iff_of_true rfl ⟨_, after, rfl⟩
  | error error => exact iff_of_false (by simp [Except.toBool]) (by simp)

theorem allFormulas_of_parse (sound : cache.Sound)
    (parse : (config.parse text).runOn cache = (.ok selectors, parsed)) :
    parsed.Sound ∧ SelectorList.AllFormulas (Formula.Known parsed) selectors := by
  obtain ⟨parsedSound, -, returned⟩ := config.ensures_parse text cache sound trivial
  rw [parse] at parsedSound returned
  exact ⟨parsedSound, returned selectors rfl⟩

/-- What the selectors in a text mean does not change while their cache grows. -/
theorem meaning_of_later (sound : cache.Sound)
    (parse : (config.parse text).runOn cache = (.ok selectors, parsed)) {after : FormulaCache}
    (later : parsed.Later after) (tree : Tree) :
    SelectorList.meaning after.answers tree selectors =
      SelectorList.meaning parsed.answers tree selectors := by
  obtain ⟨isLater, -, outcome⟩ := config.agree_parse sound sound text
  rw [parse] at isLater outcome
  cases outcome with
  | ok alike =>
      have same : SelectorList.Alike (Formula.SameText after parsed) selectors selectors :=
        SelectorList.Alike.imp (fun _ _ same => same.later later (.refl isLater.2)) alike
      exact same.meaning_answers later.2 isLater.2 tree

/-- What the selectors mean that are read on one cache is selected after every
history. -/
theorem selects_of_parse (sound : cache.Sound)
    (parse : (config.parse text).runOn cache = (.ok selectors, parsed)) (tree : Tree)
    (root : NodeId) :
    config.Selects tree root text
      ((tree.elementsBelow root).filter
        (SelectorList.meaning parsed.answers tree selectors)) := by
  intro other reached
  obtain ⟨parsedSound, known⟩ := allFormulas_of_parse sound parse
  have filtered : Cached.Steady parsed
      (SelectorList.apply tree root (tree.elementsBelow root) selectors) _ :=
    SelectorList.steady_apply parsedSound selectors known root (tree.elementsBelow root)
  have here : ((config.select tree root text).runOn cache).1 =
      .ok ((tree.elementsBelow root).filter
        (SelectorList.meaning parsed.answers tree selectors)) := by
    rw [select, Compiling.runOn_bind, parse]
    exact congrArg Except.ok (filtered.runOn_fst parsedSound)
  have fresh := (config.steady_select tree root text).runOn_fst sound
  have there := (config.steady_select tree root text).runOn_fst reached.sound
  exact there.trans (fresh.symm.trans here)

theorem Selects.unique {tree : Tree} {root : NodeId} {nodes others : List NodeId}
    (selects : config.Selects tree root text nodes)
    (again : config.Selects tree root text others) : nodes = others :=
  Except.ok.inj ((selects _ (.empty none)).symm.trans (again _ (.empty none)))

end EngineConfig

end CssQuery
