import CssQuery.Formula.Cache
import CssQuery.Proofs.Formula.Linear

/-!
# The history of a formula cache

Two things can happen to a formula cache: a text is requested, or an entry is
asked for a position.  A history is a list of such events.

Every history of a cache for linear formulas keeps it sound: each entry holds
the equation of its text and knows the positions that it has decided, and the
texts held lead to their own entries.  An entry never changes its equation.
What an entry answers is therefore a matter of its equation alone.
-/

namespace CssQuery

inductive CacheCommand where
  | request (text : String)
  | contains (entry : EntryId) (index : Int)
deriving DecidableEq

namespace FormulaEntry

/-- An entry holds the equation that its text writes, in `n` alone, and a
coverage that knows the positions it has decided. -/
structure Sound (entry : FormulaEntry) : Prop where
  parsed : EquationParser.linear entry.text = .ok entry.equation
  variableNames_eq : entry.equation.variableNames = ["n"]
  knows : Coverage.Knows Coverage.horizon entry.equation.evaluate entry.coverage

theorem Sound.reliable {entry : FormulaEntry} (sound : entry.Sound) :
    Coverage.Reliable entry.equation.evaluate :=
  EquationParser.reliable_of_linear sound.parsed sound.variableNames_eq

/-- The entry after a question about a position. -/
def ask (entry : FormulaEntry) (index : Int) : FormulaEntry :=
  { entry with
    coverage := entry.coverage.extendTo Coverage.horizon entry.equation.evaluate index }

theorem Sound.ask {entry : FormulaEntry} (sound : entry.Sound) (index : Int) :
    (entry.ask index).Sound :=
  ⟨sound.parsed, sound.variableNames_eq, sound.knows.extendTo sound.reliable index⟩

/-- The formula of an entry selects a position: it is one of the positive
values of the equation. -/
def Selects (entry : FormulaEntry) (index : Int) : Prop :=
  0 < index ∧ ∃ n : Nat, n < Coverage.horizon ∧ entry.equation.evaluate n = index

theorem Sound.contains_ask_iff {entry : FormulaEntry} (sound : entry.Sound) (index : Int) :
    (entry.ask index).coverage.contains index = true ↔ entry.Selects index :=
  (sound.ask index).knows.contains_iff (Coverage.covers_extendTo _ _ _ _)

end FormulaEntry

namespace FormulaCache

/-- A cache without entries for linear formulas. -/
def empty (capacity : Option Nat) : FormulaCache :=
  { capacity := capacity }

def perform (cache : FormulaCache) : CacheCommand → FormulaCache
  | .request text => (cache.request text).2
  | .contains id index => (cache.contains id index).2

def run (cache : FormulaCache) (history : List CacheCommand) : FormulaCache :=
  history.foldl perform cache

section Equations

variable {cache : FormulaCache}

@[simp]
theorem entries_hold (text : String) (id : EntryId) :
    (cache.hold text id).entries = cache.entries := rfl

theorem mem_hold {text : String} {id : EntryId} {pair : String × EntryId}
    (held : pair ∈ (cache.hold text id).held) :
    pair = (text, id) ∨ pair ∈ cache.held := by
  have among : pair ∈ (text, id) :: cache.held.filter fun entry => entry.1 != text := by
    simp only [hold] at held
    cases bound : cache.capacity with
    | none => simpa only [bound, Option.map_none, Option.getD_none] using held
    | some capacity =>
        simp only [bound, Option.map_some, Option.getD_some] at held
        exact List.mem_of_mem_take held
  rcases List.mem_cons.mp among with new | old
  · exact .inl new
  · exact .inr (List.mem_filter.mp old).1

theorem contains_eq (id : EntryId) (index : Int) :
    (cache.contains id index).1 =
      ((cache.entries[id]?).map fun entry =>
        (entry.ask index).coverage.contains index).getD false := by
  unfold contains
  cases cache.entries[id]? <;> rfl

theorem parser_contains (id : EntryId) (index : Int) :
    (cache.contains id index).2.parser = cache.parser := by
  unfold contains
  cases cache.entries[id]? <;> rfl

theorem held_contains (id : EntryId) (index : Int) :
    (cache.contains id index).2.held = cache.held := by
  unfold contains
  cases cache.entries[id]? <;> rfl

theorem entries_contains (id other : EntryId) (index : Int) :
    (cache.contains id index).2.entries[other]? =
      if id = other then (cache.entries[other]?).map fun entry => entry.ask index
      else cache.entries[other]? := by
  unfold contains
  by_cases same : id = other
  · subst same
    cases found : cache.entries[id]? with
    | none => simp [found]
    | some entry => simp [found, FormulaEntry.ask, Array.getElem?_modify]
  · cases cache.entries[id]? with
    | none => simp [same]
    | some entry => simp [same, Array.getElem?_modify]

/-- A text that is held leads to its entry; a new text is read, and becomes
an entry if it is a formula in `n` alone. -/
theorem request_cases (cache : FormulaCache) (text : String) :
    (∃ id, (text, id) ∈ cache.held ∧ cache.request text = (.ok id, cache.hold text id)) ∨
    (∃ equation, cache.parser text = .ok equation ∧ equation.variableNames = ["n"] ∧
      cache.request text = (.ok cache.entries.size,
        { cache with entries := cache.entries.push ⟨text, equation, {}⟩ }.hold text
          cache.entries.size)) ∨
    (∃ error, cache.request text = (.error error, cache)) := by
  unfold request
  split
  case h_1 id found =>
    obtain ⟨before, after, split, -⟩ := List.lookup_eq_some_iff.mp found
    exact .inl ⟨id, by simp [split], rfl⟩
  case h_2 =>
    split
    case h_1 error refused => exact .inr (.inr ⟨error, rfl⟩)
    case h_2 equation accepted =>
      split
      · rename_i names
        exact .inr (.inl ⟨equation, accepted, names, rfl⟩)
      · exact .inr (.inr ⟨_, rfl⟩)

end Equations

/-- A cache for linear formulas whose entries are sound and whose texts lead
to their entries. -/
structure Sound (cache : FormulaCache) : Prop where
  parser_eq : cache.parser = EquationParser.linear
  entries : ∀ (id : EntryId) entry, cache.entries[id]? = some entry → entry.Sound
  held : ∀ pair ∈ cache.held,
    ∃ entry, cache.entries[pair.2]? = some entry ∧ entry.text = pair.1

/-- Every entry of the first cache is an entry of the second with the same
text and equation. -/
def Extends (earlier later : FormulaCache) : Prop :=
  ∀ (id : EntryId) entry, earlier.entries[id]? = some entry →
    ∃ newer, later.entries[id]? = some newer ∧ newer.text = entry.text ∧
      newer.equation = entry.equation

/-- The formula of an entry selects a position. -/
def Selects (cache : FormulaCache) (id : EntryId) (index : Int) : Prop :=
  ∃ entry, cache.entries[id]? = some entry ∧ entry.Selects index

namespace Extends

theorem refl (cache : FormulaCache) : cache.Extends cache :=
  fun _ entry found => ⟨entry, found, rfl, rfl⟩

theorem trans {first second third : FormulaCache} (earlier : first.Extends second)
    (later : second.Extends third) : first.Extends third := by
  intro id entry found
  obtain ⟨middle, foundMiddle, textMiddle, equationMiddle⟩ := earlier id entry found
  obtain ⟨last, foundLast, textLast, equationLast⟩ := later id middle foundMiddle
  exact ⟨last, foundLast, textLast.trans textMiddle, equationLast.trans equationMiddle⟩

theorem contains (cache : FormulaCache) (id : EntryId) (index : Int) :
    cache.Extends (cache.contains id index).2 := by
  intro other entry found
  rw [entries_contains]
  split
  · exact ⟨entry.ask index, by rw [found]; rfl, rfl, rfl⟩
  · exact ⟨entry, found, rfl, rfl⟩

theorem request (cache : FormulaCache) (text : String) :
    cache.Extends (cache.request text).2 := by
  intro id entry found
  rcases request_cases cache text with
    ⟨held, -, request⟩ | ⟨equation, -, -, request⟩ | ⟨error, request⟩
  · exact ⟨entry, by rw [request]; exact found, rfl, rfl⟩
  · refine ⟨entry, ?_, rfl, rfl⟩
    rw [request, entries_hold, Array.getElem?_push]
    have known : id < cache.entries.size := (Array.getElem?_eq_some_iff.mp found).1
    rw [if_neg (Nat.ne_of_lt known)]
    exact found
  · exact ⟨entry, by rw [request]; exact found, rfl, rfl⟩

theorem perform (cache : FormulaCache) (command : CacheCommand) :
    cache.Extends (cache.perform command) := by
  cases command with
  | request text => exact request cache text
  | contains id index => exact contains cache id index

theorem run (cache : FormulaCache) (history : List CacheCommand) :
    cache.Extends (cache.run history) := by
  induction history generalizing cache with
  | nil => exact refl cache
  | cons command history ih =>
      exact (perform cache command).trans (ih (cache.perform command))

/-- The answers of an entry are those that it will always give. -/
theorem selects_iff {earlier later : FormulaCache} (extension : earlier.Extends later)
    {id : EntryId} (known : id < earlier.entries.size) (index : Int) :
    later.Selects id index ↔ earlier.Selects id index := by
  have found : earlier.entries[id]? = some earlier.entries[id] :=
    Array.getElem?_eq_getElem known
  obtain ⟨newer, foundNewer, -, equation⟩ := extension id _ found
  simp only [Selects, found, foundNewer, Option.some.injEq, exists_eq_left',
    FormulaEntry.Selects, equation]

theorem size_le {earlier later : FormulaCache} (extension : earlier.Extends later) :
    earlier.entries.size ≤ later.entries.size := by
  rcases Nat.eq_zero_or_pos earlier.entries.size with none | some
  · omega
  · have found := Array.getElem?_eq_getElem (Nat.sub_one_lt_of_lt some)
    obtain ⟨newer, foundNewer, -⟩ := extension _ _ found
    have known := (Array.getElem?_eq_some_iff.mp foundNewer).1
    omega

end Extends

namespace Sound

theorem empty (capacity : Option Nat) : (empty capacity).Sound where
  parser_eq := rfl
  entries id entry found := by simp [FormulaCache.empty] at found
  held pair held := by simp [FormulaCache.empty] at held

theorem contains {cache : FormulaCache} (sound : cache.Sound) (id : EntryId)
    (index : Int) : (cache.contains id index).2.Sound where
  parser_eq := by rw [parser_contains, sound.parser_eq]
  entries other entry found := by
    rw [entries_contains] at found
    split at found
    · obtain ⟨before, foundBefore, rfl⟩ := Option.map_eq_some_iff.mp found
      exact (sound.entries other before foundBefore).ask index
    · exact sound.entries other entry found
  held pair held := by
    rw [held_contains] at held
    obtain ⟨entry, found, text⟩ := sound.held pair held
    obtain ⟨newer, foundNewer, textNewer, -⟩ := Extends.contains cache id index _ _ found
    exact ⟨newer, foundNewer, textNewer.trans text⟩

theorem hold {cache : FormulaCache} (sound : cache.Sound) {text : String} {id : EntryId}
    (entry : FormulaEntry) (found : cache.entries[id]? = some entry)
    (text_eq : entry.text = text) : (cache.hold text id).Sound where
  parser_eq := sound.parser_eq
  entries := sound.entries
  held pair held := by
    rcases mem_hold held with rfl | old
    · exact ⟨entry, found, text_eq⟩
    · exact sound.held pair old

theorem push {cache : FormulaCache} (sound : cache.Sound) (entry : FormulaEntry)
    (entrySound : entry.Sound) :
    { cache with entries := cache.entries.push entry }.Sound where
  parser_eq := sound.parser_eq
  entries id other found := by
    rw [Array.getElem?_push] at found
    split at found
    · exact Option.some.inj found ▸ entrySound
    · exact sound.entries id other found
  held pair held := by
    obtain ⟨other, found, text⟩ := sound.held pair held
    have known : pair.2 < cache.entries.size := (Array.getElem?_eq_some_iff.mp found).1
    refine ⟨other, ?_, text⟩
    rw [Array.getElem?_push, if_neg (Nat.ne_of_lt known)]
    exact found

/-- A request keeps the cache sound, and the entry it returns is one for the
text requested. -/
theorem request {cache : FormulaCache} (sound : cache.Sound) (text : String) :
    (cache.request text).2.Sound ∧ ∀ id, (cache.request text).1 = .ok id →
      ∃ entry, (cache.request text).2.entries[id]? = some entry ∧ entry.text = text := by
  rcases request_cases cache text with
    ⟨id, held, request⟩ | ⟨equation, accepted, names, request⟩ | ⟨error, request⟩
  · obtain ⟨entry, found, text_eq⟩ := sound.held _ held
    rw [request]
    refine ⟨sound.hold entry found text_eq, ?_⟩
    rintro _ ⟨⟩
    exact ⟨entry, found, text_eq⟩
  · rw [sound.parser_eq] at accepted
    have pushed := sound.push ⟨text, equation, {}⟩ ⟨accepted, names, .empty⟩
    rw [request]
    refine ⟨pushed.hold ⟨text, equation, {}⟩ (by simp) rfl, ?_⟩
    rintro _ ⟨⟩
    exact ⟨⟨text, equation, {}⟩, by simp, rfl⟩
  · rw [request]
    exact ⟨sound, fun _ returned => nomatch returned⟩

theorem perform {cache : FormulaCache} (sound : cache.Sound) (command : CacheCommand) :
    (cache.perform command).Sound := by
  cases command with
  | request text => exact (sound.request text).1
  | contains id index => exact sound.contains id index

theorem run {cache : FormulaCache} (sound : cache.Sound) (history : List CacheCommand) :
    (cache.run history).Sound := by
  induction history generalizing cache with
  | nil => exact sound
  | cons command history ih => exact ih (sound.perform command)

/-- Whatever the history, the answer of an entry is that of its equation. -/
theorem contains_iff {cache : FormulaCache} (sound : cache.Sound) (id : EntryId)
    (index : Int) : (cache.contains id index).1 = true ↔ cache.Selects id index := by
  rw [contains_eq, Selects]
  cases found : cache.entries[id]? with
  | none => simp
  | some entry =>
      simpa using (sound.entries id entry found).contains_ask_iff index

end Sound

/-- If there is such an entry and it has the equation, its coverage has the
property. -/
def Keeps (cache : FormulaCache) (id : EntryId) (equation : Equation)
    (property : Coverage → Prop) : Prop :=
  ∀ entry, cache.entries[id]? = some entry → entry.equation = equation →
    property entry.coverage

namespace Keeps

variable {cache : FormulaCache} {id : EntryId} {equation : Equation} {property : Coverage → Prop}

theorem empty (capacity : Option Nat) : (empty capacity).Keeps id equation property := by
  intro entry found
  simp [FormulaCache.empty] at found

/-- A new entry has an untouched coverage. -/
theorem request (keeps : cache.Keeps id equation property) (untouched : property {})
    (text : String) : (cache.request text).2.Keeps id equation property := by
  intro entry found same
  rcases request_cases cache text with
    ⟨held, -, request⟩ | ⟨fresh, -, -, request⟩ | ⟨error, request⟩
  · rw [request] at found
    exact keeps entry found same
  · rw [request, entries_hold, Array.getElem?_push] at found
    split at found
    · obtain rfl := Option.some.inj found
      exact untouched
    · exact keeps entry found same
  · rw [request] at found
    exact keeps entry found same

theorem contains (keeps : cache.Keeps id equation property) (sound : cache.Sound)
    (other : EntryId) (index : Int)
    (step : other = id → ∀ coverage, Coverage.Traces equation.evaluate coverage →
      property coverage →
        property (coverage.extendTo Coverage.horizon equation.evaluate index)) :
    (cache.contains other index).2.Keeps id equation property := by
  intro entry found equation_eq
  rw [entries_contains] at found
  split at found
  case isTrue same =>
    obtain ⟨before, foundBefore, rfl⟩ := Option.map_eq_some_iff.mp found
    obtain rfl : before.equation = equation := equation_eq
    have traces := (sound.entries id before foundBefore).knows.toTraces
    exact step same before.coverage traces (keeps before foundBefore rfl)
  case isFalse => exact keeps entry found equation_eq

/-- What every question to an entry preserves, a whole history preserves. -/
theorem run (keeps : cache.Keeps id equation property) (sound : cache.Sound)
    (untouched : property {}) (history : List CacheCommand)
    (step : ∀ index, .contains id index ∈ history → ∀ coverage,
      Coverage.Traces equation.evaluate coverage → property coverage →
        property (coverage.extendTo Coverage.horizon equation.evaluate index)) :
    (cache.run history).Keeps id equation property := by
  induction history generalizing cache with
  | nil => exact keeps
  | cons command history ih =>
      have stepped : (cache.perform command).Keeps id equation property := by
        cases command with
        | request text => exact keeps.request untouched text
        | contains other index =>
            apply keeps.contains sound
            rintro rfl
            exact step index List.mem_cons_self
      exact ih stepped (sound.perform command)
        fun index asked => step index (List.mem_cons_of_mem _ asked)

end Keeps

end FormulaCache

end CssQuery
