import CssQuery.Proofs.Formula.Recency

/-!
# Formula caches over other maps

The entries of a formula cache are kept in a concurrent hash map, or in a map
that drops what was used least recently.  Both come from elsewhere and are
known by their documentation only.  Here they are parameters, and what is
documented of them are hypotheses; requests look into the map, read the text
if it is not there, and look again before they insert the new entry.

Over all maps that do what is documented, requests have the outcomes that they
have on a `FormulaCache`, and a bounded map holds the same texts in the same
order.
-/

namespace CssQuery

/-- A hash map from texts to entries. -/
structure SharedMap where
  State : Type
  new : State
  get : State → String → Option EntryId
  /-- The entry of a text, which is the given one if there was none. -/
  orInsert : State → String → EntryId → EntryId × State
  length : State → Nat

/-- A bounded map from texts to entries that knows in which order they were
used. -/
structure LruMap where
  State : Type
  /-- An empty map with a capacity. -/
  new : Nat → State
  get : State → String → Option EntryId × State
  push : State → String → EntryId → State
  capacity : State → Nat
  /-- The texts with their entries, the most recently used first. -/
  entries : State → List (String × EntryId)
  length : State → Nat

/-- What is documented of a hash map. -/
structure SharedMap.Documented (shared : SharedMap) : Prop where
  get_new : ∀ text, shared.get shared.new text = none
  length_new : shared.length shared.new = 0
  orInsert_fst : ∀ map text id,
    (shared.orInsert map text id).1 = (shared.get map text).getD id
  get_orInsert : ∀ map text id other, shared.get (shared.orInsert map text id).2 other =
    if other = text then some ((shared.get map text).getD id) else shared.get map other
  length_orInsert : ∀ map text id, shared.length (shared.orInsert map text id).2 =
    if (shared.get map text).isSome then shared.length map else shared.length map + 1

/-- What is documented of a map that drops the least recently used text: `get`
makes a text the most recent one, and pushing a new text into a full map drops
the last one. -/
structure LruMap.Documented (lru : LruMap) : Prop where
  entries_new : ∀ capacity, 0 < capacity → lru.entries (lru.new capacity) = []
  capacity_new : ∀ capacity, 0 < capacity → lru.capacity (lru.new capacity) = capacity
  get_fst : ∀ map text, (lru.get map text).1 = (lru.entries map).lookup text
  entries_get_found : ∀ map text id, (lru.entries map).lookup text = some id →
    lru.entries (lru.get map text).2 =
      (text, id) :: (lru.entries map).filter fun pair => pair.1 != text
  entries_get_absent : ∀ map text, (lru.entries map).lookup text = none →
    lru.entries (lru.get map text).2 = lru.entries map
  capacity_get : ∀ map text, lru.capacity (lru.get map text).2 = lru.capacity map
  entries_push : ∀ map text id, (lru.entries map).lookup text = none →
    lru.entries (lru.push map text id) = (text, id) ::
      if (lru.entries map).length < lru.capacity map then lru.entries map
      else (lru.entries map).dropLast
  capacity_push : ∀ map text id, lru.capacity (lru.push map text id) = lru.capacity map
  length_eq : ∀ map, lru.length map = (lru.entries map).length

inductive FormulaStore (shared : SharedMap) (lru : LruMap) where
  | unbounded (map : shared.State)
  | bounded (map : lru.State)

/-- A formula cache over given maps. -/
structure StoredCache (shared : SharedMap) (lru : LruMap) where
  parser : EquationParser
  entries : Array FormulaEntry
  store : FormulaStore shared lru

namespace StoredCache

variable {shared : SharedMap} {lru : LruMap}

/-- A cache that drops nothing. -/
def new (shared : SharedMap) (lru : LruMap) (parser : EquationParser) : StoredCache shared lru :=
  ⟨parser, #[], .unbounded shared.new⟩

def withCapacity (shared : SharedMap) (lru : LruMap) (capacity : Nat) (parser : EquationParser) :
    StoredCache shared lru :=
  ⟨parser, #[], .bounded (lru.new capacity)⟩

def length (cache : StoredCache shared lru) : Nat :=
  match cache.store with
  | .unbounded map => shared.length map
  | .bounded map => lru.length map

/-- The texts in a bounded cache with their entries, the most recently used
first.  A hash map has no such order. -/
def held (cache : StoredCache shared lru) : List (String × EntryId) :=
  match cache.store with
  | .unbounded _ => []
  | .bounded map => lru.entries map

def lookup (cache : StoredCache shared lru) (text : String) :
    Option EntryId × StoredCache shared lru :=
  match cache.store with
  | .unbounded map => (shared.get map text, cache)
  | .bounded map =>
      let found := lru.get map text
      (found.1, { cache with store := .bounded found.2 })

/-- Puts a new entry into the map, unless there is one for its text by now. -/
def insert (cache : StoredCache shared lru) (entry : FormulaEntry) :
    EntryId × StoredCache shared lru :=
  let id := cache.entries.size
  let entries := cache.entries.push entry
  match cache.store with
  | .unbounded map =>
      let inserted := shared.orInsert map entry.text id
      (inserted.1, { cache with entries := entries, store := .unbounded inserted.2 })
  | .bounded map =>
      match lru.get map entry.text with
      | (some existing, map) =>
          (existing, { cache with entries := entries, store := .bounded map })
      | (none, map) =>
          (id, { cache with entries := entries, store := .bounded (lru.push map entry.text id) })

def getOrCompute (cache : StoredCache shared lru) (text : String) :
    Except Error EntryId × StoredCache shared lru :=
  match cache.lookup text with
  | (some id, after) => (.ok id, after)
  | (none, after) =>
      match after.parser text with
      | .error error => (.error error, after)
      | .ok equation =>
          if equation.variableNames = ["n"] then
            let inserted := after.insert ⟨text, equation, {}⟩
            (.ok inserted.1, inserted.2)
          else
            (.error (.invalidSelector (.foreignVariables text)), after)

end StoredCache

section Simulation

variable {State Other : Type} {related : State → Other → Prop}
  {request : State → String → Except Error EntryId × State}
  {otherRequest : Other → String → Except Error EntryId × Other}
  {start : State} {otherStart : Other} {parser : EquationParser}

/-- Requests have the same outcomes in related states and leave related states
behind. -/
def Simulates (related : State → Other → Prop)
    (request : State → String → Except Error EntryId × State)
    (otherRequest : Other → String → Except Error EntryId × Other) : Prop :=
  ∀ {state other}, related state other → ∀ text,
    (request state text).1 = (otherRequest other text).1 ∧
      related (request state text).2 (otherRequest other text).2

theorem Simulates.requests (simulates : Simulates related request otherRequest)
    (starts : related start otherStart) (texts : List String) :
    related (afterRequests request start texts)
      (afterRequests otherRequest otherStart texts) := by
  induction texts generalizing start otherStart with
  | nil => exact starts
  | cons text texts ih => exact ih (simulates starts text).2

theorem KeepsRecent.of_simulates {held : State → List (String × EntryId)}
    {otherHeld : Other → List (String × EntryId)} {length : State → Nat}
    {otherLength : Other → Nat} {capacity : Nat}
    (keeps : KeepsRecent otherRequest otherHeld otherLength parser capacity otherStart)
    (simulates : Simulates related request otherRequest) (starts : related start otherStart)
    (sees : ∀ {state other}, related state other → held state = otherHeld other)
    (counts : ∀ {state other}, related state other → length state = otherLength other) :
    KeepsRecent request held length parser capacity start := by
  have along := simulates.requests starts
  have outcome texts text := (simulates (along texts) text).1
  refine ⟨fun texts => ?_, fun texts => ?_, fun texts text => ?_, fun before text between => ?_,
    fun texts text refused => ?_⟩
  · rw [sees (along texts)]
    exact keeps.held_texts texts
  · rw [counts (along texts)]
    exact keeps.length_eq texts
  · rw [outcome]
    exact keeps.outcome texts text
  · rw [outcome, outcome]
    exact keeps.same_entry_iff before text between
  · rw [sees (along texts), sees (simulates (along texts) text).2]
    exact keeps.refused texts text refused

theorem KeepsAll.of_simulates {length : State → Nat} {otherLength : Other → Nat}
    (keeps : KeepsAll otherRequest otherLength parser otherStart)
    (simulates : Simulates related request otherRequest) (starts : related start otherStart)
    (counts : ∀ {state other}, related state other → length state = otherLength other) :
    KeepsAll request length parser start := by
  have along := simulates.requests starts
  have outcome texts text := (simulates (along texts) text).1
  refine ⟨fun texts text => ?_, fun before text between => ?_, fun texts => ?_⟩
  · rw [outcome]
    exact keeps.outcome texts text
  · rw [outcome, outcome]
    exact keeps.same_entry before text between
  · rw [counts (along texts)]
    exact keeps.length_eq texts

end Simulation

section Lists

variable {list : List (String × EntryId)} {text : String}

theorem filter_eq_self_of_lookup_none (absent : list.lookup text = none) :
    list.filter (fun pair => pair.1 != text) = list := by
  rw [List.filter_eq_self]
  intro pair member
  have differs := bne_iff_ne.mp (List.lookup_eq_none_iff.mp absent pair member)
  exact bne_iff_ne.mpr (Ne.symm differs)

theorem lookup_cons_filter (text : String) (id : EntryId) (other : String) :
    ((text, id) :: list.filter fun pair => pair.1 != text).lookup other =
      if other = text then some id else list.lookup other := by
  by_cases same : other = text
  · rw [if_pos same, same, List.lookup_cons_self]
  · have differs : (other == text) = false := beq_eq_false_iff_ne.mpr same
    rw [if_neg same, List.lookup_cons, differs]
    dsimp only
    induction list with
    | nil => rfl
    | cons pair list ih =>
        obtain ⟨first, held⟩ := pair
        by_cases moved : first = text
        · rw [List.filter_cons_of_neg (by simpa using moved), ih, List.lookup_cons, moved, differs]
        · rw [List.filter_cons_of_pos (by simpa using moved), List.lookup_cons, List.lookup_cons,
            ih]

theorem length_filter_succ (nodup : (list.map Prod.fst).Nodup) {id : EntryId}
    (found : list.lookup text = some id) :
    (list.filter fun pair => pair.1 != text).length + 1 = list.length := by
  have member : text ∈ list.map Prod.fst :=
    List.mem_map.mpr ⟨_, (lookup_eq_some_iff_mem nodup).mp found, rfl⟩
  have erased := List.length_erase_of_mem member
  have positive := List.length_pos_of_mem member
  rw [nodup.erase_eq_filter, List.filter_map, List.length_map, List.length_map] at erased
  rw [List.length_map] at positive
  have same : (list.filter ((· != text) ∘ Prod.fst)).length =
    (list.filter fun pair => pair.1 != text).length := rfl
  omega

theorem take_cons_filter_of_found (nodup : (list.map Prod.fst).Nodup) {id : EntryId}
    (found : list.lookup text = some id) {count : Nat} (fits : list.length ≤ count) :
    ((text, id) :: list.filter fun pair => pair.1 != text).take count =
      (text, id) :: list.filter fun pair => pair.1 != text := by
  have shorter := length_filter_succ nodup found
  apply List.take_of_length_le
  rw [List.length_cons, shorter]
  exact fits

/-- Putting a new text in front of those that fit drops the last of them if
there is no room. -/
theorem take_cons_filter_of_absent (absent : list.lookup text = none) (id : EntryId)
    {count : Nat} (positive : 0 < count) (fits : list.length ≤ count) :
    ((text, id) :: list.filter fun pair => pair.1 != text).take count =
      (text, id) :: if list.length < count then list else list.dropLast := by
  obtain ⟨count, rfl⟩ := Nat.exists_eq_add_of_lt positive
  rw [filter_eq_self_of_lookup_none absent, Nat.zero_add, List.take_succ_cons]
  congr 1
  split
  case isTrue room => exact List.take_of_length_le (by omega)
  case isFalse full =>
      rw [List.dropLast_eq_take]
      congr 1
      omega

end Lists

namespace StoredCache

variable {shared : SharedMap} {lru : LruMap}

/-- Looking a text up moves it to the front as a request for it does, and a new
entry is inserted as a request holds it. -/
structure Corresponds (related : StoredCache shared lru → FormulaCache → Prop) : Prop where
  parser_eq : ∀ {stored cache}, related stored cache → stored.parser = cache.parser
  lookup_fst : ∀ {stored cache}, related stored cache → ∀ text,
    (stored.lookup text).1 = cache.held.lookup text
  lookup_found : ∀ {stored cache}, related stored cache → ∀ {text id},
    cache.held.lookup text = some id → related (stored.lookup text).2 (cache.hold text id)
  lookup_absent : ∀ {stored cache}, related stored cache → ∀ {text},
    cache.held.lookup text = none → related (stored.lookup text).2 cache
  insert : ∀ {stored cache}, related stored cache → ∀ entry : FormulaEntry,
    cache.held.lookup entry.text = none →
      (stored.insert entry).1 = cache.entries.size ∧
      related (stored.insert entry).2
        ({ cache with entries := cache.entries.push entry }.hold entry.text cache.entries.size)

theorem Corresponds.simulates {related : StoredCache shared lru → FormulaCache → Prop}
    (corresponds : Corresponds related) :
    Simulates related getOrCompute FormulaCache.request := by
  intro stored cache isRelated text
  rcases looked : stored.lookup text with ⟨found, after⟩
  have found_eq := corresponds.lookup_fst isRelated text
  rw [looked] at found_eq
  obtain rfl : found = cache.held.lookup text := found_eq
  rw [getOrCompute, looked, FormulaCache.request]
  cases held : cache.held.lookup text with
  | some id =>
      have moved := corresponds.lookup_found isRelated held
      rw [looked] at moved
      exact ⟨rfl, moved⟩
  | none =>
      have unchanged := corresponds.lookup_absent isRelated held
      rw [looked] at unchanged
      dsimp only
      rw [corresponds.parser_eq unchanged]
      cases cache.parser text with
      | error error => exact ⟨rfl, unchanged⟩
      | ok equation =>
          dsimp only
          split
          case isTrue names =>
              obtain ⟨id_eq, inserted⟩ :=
                corresponds.insert unchanged ⟨text, equation, {}⟩ held
              exact ⟨congrArg Except.ok id_eq, inserted⟩
          case isFalse foreign => exact ⟨rfl, unchanged⟩

/-- A bounded cache in which the map has the texts of a `FormulaCache`. -/
inductive MirrorsBounded : StoredCache shared lru → FormulaCache → Prop
  | mk {parser : EquationParser} {entries : Array FormulaEntry} {map : lru.State}
      {count : Nat} {held : List (String × EntryId)} (entries_eq : lru.entries map = held)
      (capacity_eq : lru.capacity map = count) (positive : 0 < count)
      (nodup : (held.map Prod.fst).Nodup) (fits : held.length ≤ count) :
      MirrorsBounded ⟨parser, entries, .bounded map⟩ ⟨parser, some count, entries, held⟩

/-- A cache over a hash map with the texts of a `FormulaCache`. -/
inductive MirrorsUnbounded : StoredCache shared lru → FormulaCache → Prop
  | mk {parser : EquationParser} {entries : Array FormulaEntry} {map : shared.State}
      {held : List (String × EntryId)} (found : ∀ text, shared.get map text = held.lookup text)
      (length_eq : shared.length map = held.length) (nodup : (held.map Prod.fst).Nodup) :
      MirrorsUnbounded ⟨parser, entries, .unbounded map⟩ ⟨parser, none, entries, held⟩

theorem nodup_texts_hold (cache : FormulaCache) (nodup : (cache.held.map Prod.fst).Nodup)
    (text : String) (id : EntryId) : ((cache.hold text id).held.map Prod.fst).Nodup := by
  rw [FormulaCache.texts_hold]
  refine (List.nodup_cons.mpr ⟨?_, nodup.filter _⟩).sublist (FormulaCache.within_sublist _ _)
  simp

theorem MirrorsBounded.hold {parser : EquationParser} {entries : Array FormulaEntry}
    {map : lru.State} {count : Nat} {held : List (String × EntryId)} {text : String}
    {id : EntryId} (positive : 0 < count) (nodup : (held.map Prod.fst).Nodup)
    (entries_eq : lru.entries map =
      ((text, id) :: held.filter fun pair => pair.1 != text).take count)
    (capacity_eq : lru.capacity map = count) :
    MirrorsBounded (⟨parser, entries, .bounded map⟩ : StoredCache shared lru)
      (FormulaCache.hold ⟨parser, some count, entries, held⟩ text id) :=
  .mk entries_eq capacity_eq positive
    (nodup_texts_hold ⟨parser, some count, entries, held⟩ nodup text id)
    (List.length_take_le _ _)

/-- A text that is not there when it is looked for again is pushed. -/
theorem insert_bounded (shared : SharedMap) (documented : lru.Documented) (parser : EquationParser)
    (entries : Array FormulaEntry) (map : lru.State) (entry : FormulaEntry)
    (absent : (lru.entries map).lookup entry.text = none) :
    ∃ pushed, insert (⟨parser, entries, .bounded map⟩ : StoredCache shared lru) entry =
        (entries.size, ⟨parser, entries.push entry, .bounded pushed⟩) ∧
      lru.entries pushed = (entry.text, entries.size) ::
        (if (lru.entries map).length < lru.capacity map then lru.entries map
          else (lru.entries map).dropLast) ∧
      lru.capacity pushed = lru.capacity map := by
  have again := documented.get_fst map entry.text
  have entries_get := documented.entries_get_absent map entry.text absent
  have capacity_get := documented.capacity_get map entry.text
  rw [absent] at again
  rcases found : lru.get map entry.text with ⟨_, looked⟩
  rw [found] at again entries_get capacity_get
  obtain rfl := again
  rw [← entries_get] at absent
  refine ⟨lru.push looked entry.text entries.size, ?_, ?_, ?_⟩
  · rw [insert]
    dsimp only
    rw [found]
  · rw [documented.entries_push looked entry.text entries.size absent, entries_get, capacity_get]
  · exact (documented.capacity_push looked entry.text entries.size).trans capacity_get

theorem corresponds_bounded (documented : lru.Documented) :
    Corresponds (MirrorsBounded : StoredCache shared lru → FormulaCache → Prop) where
  parser_eq := by
    rintro _ _ ⟨_, _, _, _, _⟩
    rfl
  lookup_fst := by
    rintro _ _ ⟨rfl, _, _, _, _⟩ text
    exact documented.get_fst _ text
  lookup_found := by
    rintro _ _ ⟨rfl, capacity_eq, positive, nodup, fits⟩ text id found
    refine .hold positive nodup ?_ ((documented.capacity_get _ text).trans capacity_eq)
    rw [documented.entries_get_found _ text id found]
    exact (take_cons_filter_of_found nodup found fits).symm
  lookup_absent := by
    rintro _ _ ⟨rfl, capacity_eq, positive, nodup, fits⟩ text absent
    exact .mk (documented.entries_get_absent _ text absent)
      ((documented.capacity_get _ text).trans capacity_eq) positive nodup fits
  insert := by
    rintro _ _ ⟨rfl, rfl, positive, nodup, fits⟩ entry absent
    obtain ⟨pushed, inserted, entries_pushed, capacity_pushed⟩ :=
      insert_bounded shared documented _ _ _ entry absent
    rw [inserted]
    refine ⟨rfl, .hold positive nodup ?_ capacity_pushed⟩
    rw [entries_pushed]
    exact (take_cons_filter_of_absent absent _ positive fits).symm

theorem corresponds_unbounded (documented : shared.Documented) :
    Corresponds (MirrorsUnbounded : StoredCache shared lru → FormulaCache → Prop) where
  parser_eq := by
    rintro _ _ ⟨_, _, _⟩
    rfl
  lookup_fst := by
    rintro _ _ ⟨same, _, _⟩ text
    exact same text
  lookup_found := by
    rintro _ _ ⟨same, length_eq, nodup⟩ text id found
    refine .mk ?_ ?_ (nodup_texts_hold ⟨_, none, _, _⟩ nodup text id)
    · -- The map stays as it is, and the list only moves the text to its front.
      intro other
      refine (same other).trans ((lookup_cons_filter text id other).trans ?_).symm
      split
      case isTrue again => rw [again, found]
      case isFalse => rfl
    · exact length_eq.trans (length_filter_succ nodup found).symm
  lookup_absent := by
    rintro _ _ ⟨same, length_eq, nodup⟩ text _
    exact .mk same length_eq nodup
  insert := by
    rintro _ _ ⟨same, length_eq, nodup⟩ entry absent
    have notThere := (same entry.text).trans absent
    refine ⟨?_, .mk ?_ ?_ (nodup_texts_hold ⟨_, none, _, _⟩ nodup entry.text _)⟩
    · exact (documented.orInsert_fst _ entry.text _).trans (by rw [notThere, Option.getD_none])
    · intro other
      rw [documented.get_orInsert, notThere, same other]
      exact (lookup_cons_filter entry.text _ other).symm
    · have kept := congrArg List.length (filter_eq_self_of_lookup_none absent)
      rw [documented.length_orInsert, notThere, length_eq]
      exact congrArg Nat.succ kept.symm

theorem mirrorsBounded_withCapacity (documented : lru.Documented) (parser : EquationParser)
    {count : Nat} (positive : 0 < count) :
    MirrorsBounded (withCapacity shared lru count parser)
      { parser := parser, capacity := some count } :=
  .mk (documented.entries_new count positive) (documented.capacity_new count positive) positive
    List.nodup_nil (Nat.zero_le count)

theorem mirrorsUnbounded_new (documented : shared.Documented) (parser : EquationParser) :
    MirrorsUnbounded (new shared lru parser) { parser := parser } :=
  .mk documented.get_new documented.length_new List.nodup_nil

/-- A bounded cache holds the most recently requested texts that its parser
admits, up to its capacity and in this order.  It returns the entry that it
returned before if and only if fewer other texts were admitted since, and a
refused text changes nothing.  An unbounded cache holds all admitted texts and
always returns the same entry.  This is so of a `FormulaCache`, and of a cache
over any maps that do what is documented of them. -/
theorem requests_keep_recent_texts (parser : EquationParser) (sharedDocumented : shared.Documented)
    (lruDocumented : lru.Documented) :
    (∀ capacity, 0 < capacity →
      KeepsRecent FormulaCache.request FormulaCache.held FormulaCache.length parser capacity
        { parser := parser, capacity := some capacity } ∧
      KeepsRecent getOrCompute held length parser capacity
        (withCapacity shared lru capacity parser)) ∧
    KeepsAll FormulaCache.request FormulaCache.length parser { parser := parser } ∧
    KeepsAll getOrCompute length parser (new shared lru parser) := by
  refine ⟨fun capacity positive => ⟨FormulaCache.keepsRecent parser positive, ?_⟩,
    FormulaCache.keepsAll parser, ?_⟩
  · refine (FormulaCache.keepsRecent parser positive).of_simulates
      (corresponds_bounded lruDocumented).simulates
      (mirrorsBounded_withCapacity lruDocumented parser positive) ?_ ?_
    · rintro _ _ ⟨entries_eq, _, _, _, _⟩
      exact entries_eq
    · rintro _ _ ⟨rfl, _, _, _, _⟩
      exact lruDocumented.length_eq _
  · refine (FormulaCache.keepsAll parser).of_simulates
      (corresponds_unbounded sharedDocumented).simulates (mirrorsUnbounded_new sharedDocumented parser) ?_
    rintro _ _ ⟨_, length_eq, _⟩
    exact length_eq

end StoredCache

section Lists

/-- A hash map as a list. -/
def SharedMap.ofList : SharedMap where
  State := List (String × EntryId)
  new := []
  get := fun map text => map.lookup text
  orInsert := fun map text id =>
    ((map.lookup text).getD id, if (map.lookup text).isSome then map else (text, id) :: map)
  length := List.length

/-- A bounded map as a list with its capacity, the most recently used text
first. -/
def LruMap.ofList : LruMap where
  State := Nat × List (String × EntryId)
  new := fun capacity => (capacity, [])
  get := fun map text =>
    let moved (id : EntryId) := (text, id) :: map.2.filter fun pair => pair.1 != text
    (map.2.lookup text, (map.1, ((map.2.lookup text).map moved).getD map.2))
  push := fun map text id =>
    let others := map.2.filter fun pair => pair.1 != text
    (map.1, (text, id) :: if others.length < map.1 then others else others.dropLast)
  capacity := Prod.fst
  entries := Prod.snd
  length := fun map => map.2.length

theorem SharedMap.documented_ofList : SharedMap.ofList.Documented where
  get_new := fun _ => rfl
  length_new := rfl
  orInsert_fst := fun _ _ _ => rfl
  get_orInsert := by
    intro (map : List (String × EntryId)) text id other
    change (if (map.lookup text).isSome then map else (text, id) :: map).lookup other =
      if other = text then some ((map.lookup text).getD id) else map.lookup other
    by_cases same : other = text
    · subst same
      cases found : map.lookup other <;> simp [found]
    · have differs : (other == text) = false := beq_eq_false_iff_ne.mpr same
      split <;> simp [List.lookup_cons, differs]
  length_orInsert := by
    intro (map : List (String × EntryId)) text id
    change (if (map.lookup text).isSome then map else (text, id) :: map).length =
      if (map.lookup text).isSome then map.length else map.length + 1
    split <;> rfl

theorem LruMap.documented_ofList : LruMap.ofList.Documented where
  entries_new := fun _ _ => rfl
  capacity_new := fun _ _ => rfl
  get_fst := fun _ _ => rfl
  entries_get_found := by
    intro map text id found
    change (Option.map _ (List.lookup text map.2)).getD map.2 = _
    rw [show map.2.lookup text = some id from found]
    rfl
  entries_get_absent := by
    intro map text absent
    change (Option.map _ (List.lookup text map.2)).getD map.2 = _
    rw [show map.2.lookup text = none from absent]
    rfl
  capacity_get := fun _ _ => rfl
  entries_push := by
    intro (map : Nat × List (String × EntryId)) text id absent
    have others := filter_eq_self_of_lookup_none absent
    change ((text, id) :: if (map.2.filter fun pair => pair.1 != text).length < map.1 then
      map.2.filter fun pair => pair.1 != text else
        (map.2.filter fun pair => pair.1 != text).dropLast) = _
    rw [show (map.2.filter fun pair => pair.1 != text) = map.2 from others]
    rfl
  capacity_push := fun _ _ _ => rfl
  length_eq := fun _ => rfl

end Lists

/-- Three formulas in a cache for two: the one that was not asked for again is
dropped, and a text that is no formula in `n` changes nothing. -/
theorem StoredCache.requests_of_three_formulas :
    let start := StoredCache.withCapacity .ofList .ofList 2 EquationParser.linear
    let texts := ["n+1", "n+2", "x+1", "n+1", "n+3"]
    (held (afterRequests getOrCompute start texts)).map Prod.fst = ["n+3", "n+1"] ∧
      (getOrCompute (afterRequests getOrCompute start texts) "n+1").1 =
        (getOrCompute (afterRequests getOrCompute start ["n+1", "n+2", "x+1"]) "n+1").1 ∧
      (getOrCompute (afterRequests getOrCompute start texts) "n+2").1 ≠
        (getOrCompute (afterRequests getOrCompute start ["n+1"]) "n+2").1 ∧
      length (afterRequests getOrCompute
        (StoredCache.new .ofList .ofList EquationParser.linear) texts) = 3 := by
  intro start texts
  obtain ⟨bounded, -, all⟩ := requests_keep_recent_texts EquationParser.linear
    SharedMap.documented_ofList LruMap.documented_ofList
  have keeps := (bounded 2 (by decide)).2
  have recent : recentTexts EquationParser.linear texts = ["n+3", "n+1", "n+2"] := by
    decide +kernel
  refine ⟨?_, ?_, ?_, ?_⟩
  · rw [keeps.held_texts, recent]
    rfl
  · exact (keeps.same_entry_iff ["n+1", "n+2", "x+1"] "n+1" ["n+3"] (by decide +kernel)
      (by decide)).mpr (by decide +kernel)
  · intro same
    exact absurd ((keeps.same_entry_iff ["n+1"] "n+2" ["x+1", "n+1", "n+3"] (by decide +kernel)
      (by decide)).mp same) (by decide +kernel)
  · rw [all.length_eq, recent]
    rfl

end CssQuery
