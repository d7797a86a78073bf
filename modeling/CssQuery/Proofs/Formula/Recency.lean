import CssQuery.Proofs.Formula.History
import Mathlib.Data.List.Dedup

/-!
# Which formulas a cache holds

A cache that is asked for one text after the other holds the texts that were
asked for most recently, without those that its parser refuses.  Which those
are is a matter of the requests alone: the distinct texts among them in the
order of their last request.  A text moves to the front when it is asked for
again, and so the texts in front of it are the distinct texts asked for since.

A text that is held keeps its entry.  Once dropped, it gets a new one.
-/

namespace CssQuery

section Lists

variable {α : Type} [DecidableEq α]

theorem dedup_append_eq (front back : List α) :
    (front ++ back).dedup = (front.dedup.filter fun value => value ∉ back) ++ back.dedup := by
  induction front with
  | nil => rfl
  | cons value front ih =>
      by_cases again : value ∈ front
      · rw [List.cons_append, List.dedup_cons_of_mem (List.mem_append_left _ again), ih,
          List.dedup_cons_of_mem again]
      · rw [List.cons_append, List.dedup_cons_of_notMem again]
        by_cases later : value ∈ back
        · rw [List.dedup_cons_of_mem (List.mem_append_right _ later), ih,
            List.filter_cons_of_neg (by simpa using later)]
        · rw [List.dedup_cons_of_notMem (by simp [again, later]), ih,
            List.filter_cons_of_pos (by simpa using later), List.cons_append]

/-- Taking one value more than needed makes up for a value that is left out. -/
theorem take_filter_take_succ {list : List α} (nodup : list.Nodup) (value : α) (count : Nat) :
    ((list.take (count + 1)).filter (· != value)).take count =
      (list.filter (· != value)).take count := by
  induction list generalizing count with
  | nil => rfl
  | cons first list ih =>
      obtain ⟨absent, nodup⟩ := List.nodup_cons.mp nodup
      by_cases same : first = value
      · subst same
        have others : ∀ part : List α, part ⊆ list → part.filter (· != first) = part := by
          intro part within
          apply List.filter_eq_self.mpr
          intro other member
          rw [bne_iff_ne]
          rintro rfl
          exact absent (within member)
        rw [List.take_succ_cons, List.filter_cons_of_neg (by simp),
          List.filter_cons_of_neg (by simp), others _ (List.take_subset _ _),
          others list fun _ => id, List.take_take, Nat.min_self]
      · rw [List.take_succ_cons, List.filter_cons_of_pos (by simpa using same),
          List.filter_cons_of_pos (by simpa using same)]
        cases count with
        | zero => rfl
        | succ count => rw [List.take_succ_cons, List.take_succ_cons, ih nodup]

theorem lookup_eq_some_iff_mem {β : Type} {list : List (α × β)}
    (nodup : (list.map Prod.fst).Nodup) {key : α} {value : β} :
    list.lookup key = some value ↔ (key, value) ∈ list := by
  induction list with
  | nil => simp
  | cons pair list ih =>
      obtain ⟨first, held⟩ := pair
      obtain ⟨absent, nodup⟩ := List.nodup_cons.mp nodup
      by_cases same : key = first
      · subst same
        have elsewhere : (key, value) ∉ list := fun member =>
          absent (List.mem_map.mpr ⟨_, member, rfl⟩)
        simp [elsewhere, eq_comm]
      · have differs : (key == first) = false := beq_eq_false_iff_ne.mpr same
        rw [List.lookup_cons, differs, ih nodup]
        simp [same]

end Lists

namespace EquationParser

/-- Whether a text is read as an equation in `n` alone, and the error if it is
not. -/
def check (parser : EquationParser) (text : String) : Except Error Unit :=
  match parser text with
  | .error error => .error error
  | .ok equation =>
      if equation.variableNames = ["n"] then .ok ()
      else .error (.invalidSelector (.foreignVariables text))

def admits (parser : EquationParser) (text : String) : Bool :=
  (parser.check text).isOk

variable {parser : EquationParser} {text : String}

theorem admits_of_check_ok (admitted : parser.check text = .ok ()) :
    parser.admits text = true := by
  rw [admits, admitted]
  rfl

theorem check_of_admits (admitted : parser.admits text = true) : parser.check text = .ok () := by
  cases checked : parser.check text with
  | ok _ => rfl
  | error error =>
      rw [admits, checked] at admitted
      cases admitted

theorem admits_of_check_error {error : Error} (refused : parser.check text = .error error) :
    parser.admits text = false := by
  rw [admits, refused]
  rfl

end EquationParser

/-- The distinct texts among some requests that the parser admits, the most
recently requested first. -/
def recentTexts (parser : EquationParser) (texts : List String) : List String :=
  (texts.filter parser.admits).dedup.reverse

section RecentTexts

variable {parser : EquationParser}

theorem nodup_recentTexts (texts : List String) : (recentTexts parser texts).Nodup :=
  List.nodup_reverse.mpr (List.nodup_dedup _)

theorem mem_recentTexts_iff {texts : List String} {text : String} :
    text ∈ recentTexts parser texts ↔ text ∈ texts ∧ parser.admits text = true := by
  rw [recentTexts, List.mem_reverse, List.mem_dedup, List.mem_filter]

/-- Later requests stand in front and leave the other texts in their order. -/
theorem recentTexts_append (texts later : List String) :
    recentTexts parser (texts ++ later) =
      recentTexts parser later ++
        (recentTexts parser texts).filter fun text => text ∉ later := by
  have same : ((texts.filter parser.admits).dedup.filter
        fun text => text ∉ later.filter parser.admits) =
      (texts.filter parser.admits).dedup.filter fun text => text ∉ later := by
    apply List.filter_congr
    intro text member
    have admitted := (List.mem_filter.mp (List.mem_dedup.mp member)).2
    simp [List.mem_filter, admitted]
  rw [recentTexts, List.filter_append, dedup_append_eq, same, List.reverse_append,
    ← List.filter_reverse]
  rfl

theorem recentTexts_concat {text : String} (admitted : parser.admits text = true)
    (texts : List String) :
    recentTexts parser (texts ++ [text]) =
      text :: (recentTexts parser texts).filter (· != text) := by
  have single : recentTexts parser [text] = [text] := by simp [recentTexts, admitted]
  have others : ((recentTexts parser texts).filter fun other => other ∉ [text]) =
      (recentTexts parser texts).filter (· != text) := by
    apply List.filter_congr
    intro other _
    rw [Bool.eq_iff_iff]
    simp
  rw [recentTexts_append, single, others, List.singleton_append]

theorem recentTexts_concat_of_refused {text : String} (refused : parser.admits text = false)
    (texts : List String) : recentTexts parser (texts ++ [text]) = recentTexts parser texts := by
  rw [recentTexts, List.filter_append, List.filter_cons_of_neg (by simp [refused]),
    List.filter_nil, List.append_nil, recentTexts]

/-- Behind its last request, the texts in front of a text are those requested
since. -/
theorem recentTexts_since {text : String} (admitted : parser.admits text = true)
    (before : List String) {between : List String} (absent : text ∉ between) :
    ∃ rest, recentTexts parser (before ++ text :: between) =
      recentTexts parser between ++ text :: rest := by
  rw [List.append_cons, recentTexts_append, recentTexts_concat admitted,
    List.filter_cons_of_pos (by simpa using absent)]
  exact ⟨_, rfl⟩

end RecentTexts

section Laws

variable {State : Type}

/-- What a row of requests leaves behind. -/
def afterRequests (request : State → String → Except Error EntryId × State) (start : State)
    (texts : List String) : State :=
  texts.foldl (fun state text => (request state text).2) start

/-- A cache that holds the most recently requested texts that its parser
admits, up to a capacity.  A text gets the entry that it got before as long as
fewer other texts were requested since, and a refused text changes nothing. -/
structure KeepsRecent (request : State → String → Except Error EntryId × State)
    (held : State → List (String × EntryId)) (length : State → Nat) (parser : EquationParser)
    (capacity : Nat) (start : State) : Prop where
  held_texts : ∀ texts, (held (afterRequests request start texts)).map Prod.fst =
    (recentTexts parser texts).take capacity
  length_eq : ∀ texts, length (afterRequests request start texts) =
    min capacity (recentTexts parser texts).length
  outcome : ∀ texts text,
    (request (afterRequests request start texts) text).1.map (fun _ => ()) = parser.check text
  same_entry_iff : ∀ before text between, parser.admits text = true → text ∉ between →
    ((request (afterRequests request start (before ++ text :: between)) text).1 =
        (request (afterRequests request start before) text).1 ↔
      (recentTexts parser between).length < capacity)
  refused : ∀ texts text, parser.admits text = false →
    held (request (afterRequests request start texts) text).2 =
      held (afterRequests request start texts)

/-- A cache that holds every text that its parser admits, and always returns the
same entry for it. -/
structure KeepsAll (request : State → String → Except Error EntryId × State)
    (length : State → Nat) (parser : EquationParser) (start : State) : Prop where
  outcome : ∀ texts text,
    (request (afterRequests request start texts) text).1.map (fun _ => ()) = parser.check text
  same_entry : ∀ before text between, parser.admits text = true →
    (request (afterRequests request start (before ++ text :: between)) text).1 =
      (request (afterRequests request start before) text).1
  length_eq : ∀ texts, length (afterRequests request start texts) =
    (recentTexts parser texts).length

end Laws

namespace FormulaCache

/-- What a capacity leaves of a list. -/
def within {α : Type} (capacity : Option Nat) (list : List α) : List α :=
  (capacity.map list.take).getD list

/-- The cache is what requests for the texts leave of an empty one, as far as
the texts held and the indices of their entries go. -/
structure Recalls (parser : EquationParser) (capacity : Option Nat) (texts : List String)
    (cache : FormulaCache) : Prop where
  parser_eq : cache.parser = parser
  capacity_eq : cache.capacity = capacity
  held_texts : cache.held.map Prod.fst = within capacity (recentTexts parser texts)
  known : ∀ pair ∈ cache.held, pair.2 < cache.entries.size

variable {parser : EquationParser} {capacity : Option Nat} {texts : List String}
  {cache : FormulaCache} {text : String}

theorem within_sublist {α : Type} (capacity : Option Nat) (list : List α) :
    (within capacity list).Sublist list := by
  cases capacity with
  | none => exact .refl list
  | some count => exact List.take_sublist count list

theorem map_within {α β : Type} (capacity : Option Nat) (change : α → β) (list : List α) :
    (within capacity list).map change = within capacity (list.map change) := by
  cases capacity with
  | none => rfl
  | some count => exact List.map_take

/-- There is room for one text at least. -/
def HasRoom (capacity : Option Nat) : Prop :=
  ∀ count, capacity = some count → 0 < count

theorem hasRoom_none : HasRoom none :=
  fun _ => nofun

theorem hasRoom_some {count : Nat} (positive : 0 < count) : HasRoom (some count) := by
  rintro _ ⟨⟩
  exact positive

theorem within_cons_filter_within (room : HasRoom capacity) {list : List String}
    (nodup : list.Nodup) (text : String) :
    within capacity (text :: (within capacity list).filter (· != text)) =
      within capacity (text :: list.filter (· != text)) := by
  cases capacity with
  | none => rfl
  | some count =>
      cases count with
      | zero => exact absurd (room 0 rfl) (Nat.lt_irrefl 0)
      | succ count =>
          simp only [within, Option.map_some, Option.getD_some, List.take_succ_cons,
            take_filter_take_succ nodup]

theorem mem_within_cons (room : HasRoom capacity) {α : Type} (value : α)
    (list : List α) : value ∈ within capacity (value :: list) := by
  cases capacity with
  | none => exact List.mem_cons_self
  | some count =>
      cases count with
      | zero => exact absurd (room 0 rfl) (Nat.lt_irrefl 0)
      | succ count => exact List.mem_cons_self

theorem held_hold (text : String) (id : EntryId) :
    (cache.hold text id).held =
      within cache.capacity ((text, id) :: cache.held.filter fun pair => pair.1 != text) := rfl

theorem texts_hold (text : String) (id : EntryId) :
    (cache.hold text id).held.map Prod.fst =
      within cache.capacity (text :: (cache.held.map Prod.fst).filter (· != text)) := by
  rw [held_hold, map_within, List.map_cons, List.filter_map]
  rfl

/-- A request finds the text, or makes an entry for it, or refuses it. -/
theorem request_outcomes (cache : FormulaCache) (text : String) :
    (∃ id, cache.held.lookup text = some id ∧
      cache.request text = (.ok id, cache.hold text id)) ∨
    (cache.held.lookup text = none ∧ cache.parser.check text = .ok () ∧
      ∃ entry, cache.request text = (.ok cache.entries.size,
        { cache with entries := cache.entries.push entry }.hold text cache.entries.size)) ∨
    (cache.held.lookup text = none ∧
      ∃ error, cache.parser.check text = .error error ∧
        cache.request text = (.error error, cache)) := by
  unfold request EquationParser.check
  cases cache.held.lookup text with
  | some id => exact .inl ⟨id, rfl, rfl⟩
  | none =>
      cases cache.parser text with
      | error error => exact .inr (.inr ⟨rfl, error, rfl, rfl⟩)
      | ok equation =>
          by_cases names : equation.variableNames = ["n"]
          · exact .inr (.inl ⟨rfl, if_pos names, _, if_pos names⟩)
          · exact .inr (.inr ⟨rfl, _, if_neg names, if_neg names⟩)

namespace Recalls

theorem empty (parser : EquationParser) (capacity : Option Nat) :
    Recalls parser capacity [] { parser := parser, capacity := capacity } where
  parser_eq := rfl
  capacity_eq := rfl
  held_texts := by cases capacity <;> simp [within, recentTexts]
  known := fun _ member => nomatch member

theorem nodup (recalls : Recalls parser capacity texts cache) :
    (cache.held.map Prod.fst).Nodup := by
  rw [recalls.held_texts]
  exact (nodup_recentTexts texts).sublist (within_sublist _ _)

theorem admits (recalls : Recalls parser capacity texts cache) {id : EntryId}
    (held : (text, id) ∈ cache.held) : parser.admits text = true := by
  have member : text ∈ cache.held.map Prod.fst := List.mem_map.mpr ⟨_, held, rfl⟩
  rw [recalls.held_texts] at member
  exact (mem_recentTexts_iff.mp ((within_sublist _ _).subset member)).2

theorem lookup_eq_some_iff (recalls : Recalls parser capacity texts cache) {id : EntryId} :
    cache.held.lookup text = some id ↔ (text, id) ∈ cache.held :=
  lookup_eq_some_iff_mem recalls.nodup

theorem notMem_of_lookup_eq_none (recalls : Recalls parser capacity texts cache)
    (absent : cache.held.lookup text = none) : text ∉ cache.held.map Prod.fst := by
  intro member
  obtain ⟨⟨name, id⟩, held, named⟩ := List.mem_map.mp member
  obtain rfl : text = name := named.symm
  rw [recalls.lookup_eq_some_iff.mpr held] at absent
  cases absent

/-- A text that is held is admitted, and so is one that gets a new entry; a
request that is refused changes nothing. -/
theorem request_cases (recalls : Recalls parser capacity texts cache) (text : String) :
    (parser.admits text = true ∧ ∃ id, (text, id) ∈ cache.held ∧
      cache.request text = (.ok id, cache.hold text id)) ∨
    (parser.admits text = true ∧ text ∉ cache.held.map Prod.fst ∧
      ∃ entry, cache.request text = (.ok cache.entries.size,
        { cache with entries := cache.entries.push entry }.hold text cache.entries.size)) ∨
    (parser.admits text = false ∧ ∃ error, parser.check text = .error error ∧
      cache.request text = (.error error, cache)) := by
  rw [← recalls.parser_eq]
  obtain ⟨id, found, request⟩ | ⟨absent, admitted, made⟩ | ⟨_, error, refused, request⟩ :=
    cache.request_outcomes text
  · have held := recalls.lookup_eq_some_iff.mp found
    exact .inl ⟨recalls.parser_eq ▸ recalls.admits held, id, held, request⟩
  · exact .inr (.inl ⟨EquationParser.admits_of_check_ok admitted,
      recalls.notMem_of_lookup_eq_none absent, made⟩)
  · exact .inr (.inr ⟨EquationParser.admits_of_check_error refused, error, refused, request⟩)

theorem request (room : HasRoom capacity)
    (recalls : Recalls parser capacity texts cache) (text : String) :
    Recalls parser capacity (texts ++ [text]) (cache.request text).2 := by
  -- In both cases in which the text is held afterwards, the texts held are these.
  have moved (admitted : parser.admits text = true) :
      within cache.capacity (text :: (cache.held.map Prod.fst).filter (· != text)) =
        within capacity (recentTexts parser (texts ++ [text])) := by
    rw [recalls.capacity_eq, recalls.held_texts, recentTexts_concat admitted,
      within_cons_filter_within room (nodup_recentTexts texts)]
  obtain ⟨admitted, id, held, request⟩ | ⟨admitted, -, entry, request⟩ | ⟨refused, _, -, request⟩ :=
    recalls.request_cases text
  · rw [request]
    refine ⟨recalls.parser_eq, recalls.capacity_eq, ?_, ?_⟩
    · exact (texts_hold text id).trans (moved admitted)
    · intro pair member
      rcases mem_hold member with rfl | old
      · exact recalls.known _ held
      · exact recalls.known pair old
  · rw [request]
    refine ⟨recalls.parser_eq, recalls.capacity_eq, ?_, ?_⟩
    · exact (texts_hold text _).trans (moved admitted)
    · intro pair member
      rw [entries_hold, Array.size_push]
      rcases mem_hold member with rfl | old
      · exact Nat.lt_succ_self _
      · exact Nat.lt_succ_of_lt (recalls.known pair old)
  · rw [request]
    exact ⟨recalls.parser_eq, recalls.capacity_eq,
      by rw [recentTexts_concat_of_refused refused, recalls.held_texts], recalls.known⟩

theorem requests (room : HasRoom capacity)
    (recalls : Recalls parser capacity texts cache) (later : List String) :
    Recalls parser capacity (texts ++ later)
      (afterRequests FormulaCache.request cache later) := by
  induction later generalizing texts cache with
  | nil =>
      rw [List.append_nil]
      exact recalls
  | cons text later ih =>
      rw [List.append_cons]
      exact ih (recalls.request room text)

theorem outcome (recalls : Recalls parser capacity texts cache) (text : String) :
    (cache.request text).1.map (fun _ => ()) = parser.check text := by
  obtain ⟨admitted, id, -, request⟩ | ⟨admitted, -, entry, request⟩ | ⟨-, _, refused, request⟩ :=
    recalls.request_cases text
  · rw [request, EquationParser.check_of_admits admitted]
    rfl
  · rw [request, EquationParser.check_of_admits admitted]
    rfl
  · rw [request, refused]
    rfl

/-- An admitted text is held behind the request for it. -/
theorem held_of_admits (room : HasRoom capacity)
    (recalls : Recalls parser capacity texts cache) (admitted : parser.admits text = true) :
    ∃ id, (cache.request text).1 = .ok id ∧ (text, id) ∈ (cache.request text).2.held := by
  rw [← recalls.capacity_eq] at room
  obtain ⟨-, id, -, request⟩ | ⟨-, -, entry, request⟩ | ⟨refused, -⟩ := recalls.request_cases text
  · rw [request]
    exact ⟨id, rfl, mem_within_cons room _ _⟩
  · rw [request]
    exact ⟨_, rfl, mem_within_cons room _ _⟩
  · rw [refused] at admitted
    cases admitted

/-- A refused request leaves the cache as it is. -/
theorem request_of_refused (recalls : Recalls parser capacity texts cache)
    (refused : parser.admits text = false) : (cache.request text).2 = cache := by
  obtain ⟨admitted, -⟩ | ⟨admitted, -⟩ | ⟨-, _, -, request⟩ := recalls.request_cases text
  · rw [refused] at admitted
    cases admitted
  · rw [refused] at admitted
    cases admitted
  · rw [request]

end Recalls

section Entries

/-- A request for another text makes no entry for this one. -/
theorem held_of_held_request {pair : String × EntryId} (other : pair.1 ≠ text)
    (held : pair ∈ (cache.request text).2.held) : pair ∈ cache.held := by
  obtain ⟨id, _, request⟩ | ⟨_, _, entry, request⟩ | ⟨_, error, _, request⟩ :=
    cache.request_outcomes text
  · rw [request] at held
    rcases mem_hold held with rfl | old
    · exact absurd rfl other
    · exact old
  · rw [request] at held
    rcases mem_hold held with rfl | old
    · exact absurd rfl other
    · exact old
  · rwa [request] at held

theorem held_of_held_requests {pair : String × EntryId} {later : List String}
    (absent : pair.1 ∉ later)
    (held : pair ∈ (afterRequests FormulaCache.request cache later).held) :
    pair ∈ cache.held := by
  induction later generalizing cache with
  | nil => exact held
  | cons text later ih =>
      have other := List.ne_of_not_mem_cons absent
      have elsewhere := List.not_mem_of_not_mem_cons absent
      exact held_of_held_request other (ih elsewhere held)

theorem size_le_requests (cache : FormulaCache) (later : List String) :
    cache.entries.size ≤ (afterRequests FormulaCache.request cache later).entries.size := by
  induction later generalizing cache with
  | nil => exact Nat.le_refl _
  | cons text later ih =>
      exact Nat.le_trans (Extends.request cache text).size_le (ih (cache.request text).2)

theorem mem_held_hold_of_ne (unbounded : cache.capacity = none) {pair : String × EntryId}
    (held : pair ∈ cache.held) (other : pair.1 ≠ text) (id : EntryId) :
    pair ∈ (cache.hold text id).held := by
  rw [held_hold, unbounded]
  exact List.mem_cons_of_mem _ (List.mem_filter.mpr ⟨held, by simpa using other⟩)

/-- Without a capacity, a request keeps what is held. -/
theorem Recalls.held_request (recalls : Recalls parser none texts cache)
    {pair : String × EntryId} (held : pair ∈ cache.held) (text : String) :
    pair ∈ (cache.request text).2.held := by
  obtain ⟨-, id, heldText, request⟩ | ⟨-, absent, entry, request⟩ | ⟨-, _, -, request⟩ :=
    recalls.request_cases text
  · rw [request]
    by_cases same : pair.1 = text
    · have found := recalls.lookup_eq_some_iff.mpr held
      rw [same, recalls.lookup_eq_some_iff.mpr heldText] at found
      obtain rfl : (text, id) = pair := Prod.ext same.symm (Option.some.inj found)
      exact mem_within_cons (by rw [recalls.capacity_eq]; exact hasRoom_none) _ _
    · exact mem_held_hold_of_ne recalls.capacity_eq held same id
  · rw [request]
    have other : pair.1 ≠ text := by
      rintro rfl
      exact absent (List.mem_map.mpr ⟨pair, held, rfl⟩)
    exact mem_held_hold_of_ne recalls.capacity_eq held other _
  · rwa [request]

theorem Recalls.held_requests (recalls : Recalls parser none texts cache)
    {pair : String × EntryId} (held : pair ∈ cache.held) (later : List String) :
    pair ∈ (afterRequests FormulaCache.request cache later).held := by
  induction later generalizing texts cache with
  | nil => exact held
  | cons text later ih =>
      have recallsNext := recalls.request hasRoom_none text
      exact ih recallsNext (recalls.held_request held text)

theorem Recalls.request_of_held (recalls : Recalls parser capacity texts cache) {id : EntryId}
    (held : (text, id) ∈ cache.held) : (cache.request text).1 = .ok id := by
  rw [FormulaCache.request, recalls.lookup_eq_some_iff.mpr held]

/-- An admitted text that is not held gets a new entry. -/
theorem Recalls.request_of_absent (recalls : Recalls parser capacity texts cache)
    (admitted : parser.admits text = true) (absent : text ∉ cache.held.map Prod.fst) :
    (cache.request text).1 = .ok cache.entries.size := by
  obtain ⟨-, id, held, -⟩ | ⟨-, -, entry, request⟩ | ⟨refused, -⟩ := recalls.request_cases text
  · exact absurd (List.mem_map.mpr ⟨_, held, rfl⟩) absent
  · rw [request]
  · rw [refused] at admitted
    cases admitted

/-- A text gets the same entry again if and only if it is still held. -/
theorem Recalls.request_again_eq_iff (room : HasRoom capacity)
    (recalls : Recalls parser capacity texts cache) (admitted : parser.admits text = true)
    {between : List String} (absent : text ∉ between) :
    ((afterRequests FormulaCache.request (cache.request text).2 between).request text).1 =
        (cache.request text).1 ↔
      text ∈ (afterRequests FormulaCache.request (cache.request text).2 between).held.map
        Prod.fst := by
  have recallsSecond := recalls.request room text
  have recallsThird := recallsSecond.requests room between
  obtain ⟨id, returned, held⟩ := recalls.held_of_admits room admitted
  rw [returned]
  constructor
  · intro same
    by_contra dropped
    have known := recallsSecond.known _ held
    have new := recallsThird.request_of_absent admitted dropped
    rw [new] at same
    have grown := size_le_requests (cache.request text).2 between
    exact Nat.ne_of_lt (Nat.lt_of_lt_of_le known grown) (Except.ok.inj same).symm
  · intro kept
    obtain ⟨⟨name, other⟩, still, named⟩ := List.mem_map.mp kept
    obtain rfl : text = name := named.symm
    have before : (text, other) ∈ (cache.request text).2.held :=
      held_of_held_requests absent still
    have found := recallsSecond.lookup_eq_some_iff.mpr held
    rw [recallsSecond.lookup_eq_some_iff.mpr before] at found
    rw [recallsThird.request_of_held still, Option.some.inj found]

end Entries

theorem mem_take_recentTexts_iff (admitted : parser.admits text = true) (before : List String)
    {between : List String} (absent : text ∉ between) (count : Nat) :
    text ∈ (recentTexts parser (before ++ text :: between)).take count ↔
      (recentTexts parser between).length < count := by
  obtain ⟨rest, since⟩ := recentTexts_since admitted before absent
  have notAmong : text ∉ recentTexts parser between := fun member =>
    absent (mem_recentTexts_iff.mp member).1
  rw [since, List.take_append]
  constructor
  · intro member
    by_contra full
    rcases List.mem_append.mp member with among | behind
    · exact notAmong (List.mem_of_mem_take among)
    · rw [Nat.sub_eq_zero_of_le (Nat.le_of_not_lt full)] at behind
      cases behind
  · intro room
    obtain ⟨more, rfl⟩ := Nat.exists_eq_add_of_lt room
    apply List.mem_append_right
    rw [show (recentTexts parser between).length + more + 1 -
      (recentTexts parser between).length = more + 1 by omega]
    exact List.mem_cons_self

section Laws

theorem afterRequests_append {State : Type}
    (request : State → String → Except Error EntryId × State) (start : State)
    (texts later : List String) :
    afterRequests request start (texts ++ later) =
      afterRequests request (afterRequests request start texts) later :=
  List.foldl_append

/-- A bounded cache holds the most recent texts. -/
theorem keepsRecent (parser : EquationParser) {count : Nat} (positive : 0 < count) :
    KeepsRecent FormulaCache.request FormulaCache.held FormulaCache.length parser count
      { parser := parser, capacity := some count } := by
  have recalls := (Recalls.empty parser (some count)).requests (hasRoom_some positive)
  refine ⟨fun texts => (recalls texts).held_texts, ?_,
    fun texts => (recalls texts).outcome, ?_, ?_⟩
  · intro texts
    have lengths := congrArg List.length (recalls texts).held_texts
    rw [List.length_map] at lengths
    exact lengths.trans List.length_take
  · intro before text between admitted absent
    have held := (recalls (before ++ text :: between)).held_texts
    have again := (recalls before).request_again_eq_iff (hasRoom_some positive) admitted absent
    rw [afterRequests_append] at held ⊢
    exact again.trans (held ▸ mem_take_recentTexts_iff admitted before absent count)
  · intro texts text refused
    have unchanged := (recalls texts).request_of_refused refused
    exact congrArg FormulaCache.held unchanged

/-- An unbounded cache holds all texts. -/
theorem keepsAll (parser : EquationParser) :
    KeepsAll FormulaCache.request FormulaCache.length parser { parser := parser } := by
  have recalls := (Recalls.empty parser none).requests hasRoom_none
  refine ⟨fun texts => (recalls texts).outcome, ?_, ?_⟩
  · intro before text between admitted
    obtain ⟨id, returned, held⟩ := (recalls before).held_of_admits hasRoom_none admitted
    have recallsNext := (recalls before).request hasRoom_none text
    have still := recallsNext.held_requests held between
    have recallsLast := recallsNext.requests hasRoom_none between
    rw [afterRequests_append, returned]
    exact recallsLast.request_of_held still
  · intro texts
    have lengths := congrArg List.length (recalls texts).held_texts
    rw [List.length_map] at lengths
    exact lengths

end Laws

end FormulaCache

end CssQuery
