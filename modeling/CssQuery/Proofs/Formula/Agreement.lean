import CssQuery.Proofs.Formula.Steady

/-!
# The same computation on two caches

A computation that reads a formula returns an entry of its cache, so on two
caches it returns different entries.  What does not differ is the text of the
entry, and whether there is an error and which one: a text that a cache still
holds has once been accepted, and would be accepted again.

Two computations agree on a pair of caches if they raise the same error or
return values that are related on the caches behind them.
-/

namespace CssQuery

variable {α β γ δ : Type} {cache peer : FormulaCache}

namespace FormulaCache.Later

theorem refl (sound : cache.Sound) : cache.Later cache :=
  ⟨.refl cache, sound⟩

theorem trans {first second third : FormulaCache} (earlier : first.Later second)
    (later : second.Later third) : first.Later third :=
  ⟨earlier.1.trans later.1, later.2⟩

end FormulaCache.Later

/-- The same error, or related values. -/
inductive SameOutcome (related : α → β → Prop) : Except Error α → Except Error β → Prop
  | error (error : Error) : SameOutcome related (.error error) (.error error)
  | ok {first : α} {second : β} (holds : related first second) :
      SameOutcome related (.ok first) (.ok second)

theorem SameOutcome.eq {first second : Except Error α} (same : SameOutcome Eq first second) :
    first = second := by
  cases same with
  | error error => rfl
  | ok holds => rw [holds]

/-- Two computations, each on its own cache, have the same outcome up to a
relation of the values on the caches behind them.  Both keep their caches
sound and only add to them. -/
structure Compiling.Agree (cache peer : FormulaCache) (first : Compiling α)
    (second : Compiling β) (related : FormulaCache → FormulaCache → α → β → Prop) : Prop where
  later : cache.Later (first.runOn cache).2
  peerLater : peer.Later (second.runOn peer).2
  outcome : SameOutcome (related (first.runOn cache).2 (second.runOn peer).2)
    (first.runOn cache).1 (second.runOn peer).1

namespace Compiling.Agree

variable {related : FormulaCache → FormulaCache → α → β → Prop}

theorem ofOutcome (sound : cache.Sound) (peerSound : peer.Sound) {first : Except Error α}
    {second : Except Error β} (same : SameOutcome (related cache peer) first second) :
    Agree cache peer (ExceptT.mk (Pure.pure first)) (ExceptT.mk (Pure.pure second)) related :=
  ⟨.refl sound, .refl peerSound, same⟩

theorem pure (sound : cache.Sound) (peerSound : peer.Sound) {first : α} {second : β}
    (holds : related cache peer first second) :
    Agree cache peer (Pure.pure first) (Pure.pure second) related :=
  ofOutcome sound peerSound (.ok holds)

theorem throw (sound : cache.Sound) (peerSound : peer.Sound) (error : Error) :
    Agree cache peer (MonadExcept.throw error) (MonadExcept.throw error) related :=
  ofOutcome sound peerSound (.error error)

theorem bind {behind : FormulaCache → FormulaCache → γ → δ → Prop} {first : Compiling α}
    {second : Compiling β} {next : α → Compiling γ} {peerNext : β → Compiling δ}
    (agree : Agree cache peer first second related)
    (onward : ∀ later peerLater, cache.Later later → peer.Later peerLater →
      ∀ value other, related later peerLater value other →
        Agree later peerLater (next value) (peerNext other) behind) :
    Agree cache peer (first >>= next) (second >>= peerNext) behind := by
  obtain ⟨later, peerLater, outcome⟩ := agree
  have firstBind := Compiling.runOn_bind first next cache
  have secondBind := Compiling.runOn_bind second peerNext peer
  rcases ran : first.runOn cache with ⟨result, after⟩
  rcases peerRan : second.runOn peer with ⟨peerResult, peerAfter⟩
  rw [ran] at later outcome firstBind
  rw [peerRan] at peerLater outcome secondBind
  cases outcome with
  | error error =>
      refine ⟨?_, ?_, ?_⟩
      · rw [firstBind]
        exact later
      · rw [secondBind]
        exact peerLater
      · rw [firstBind, secondBind]
        exact .error error
  | ok holds =>
      obtain ⟨further, peerFurther, final⟩ := onward _ _ later peerLater _ _ holds
      refine ⟨?_, ?_, ?_⟩
      · rw [firstBind]
        exact later.trans further
      · rw [secondBind]
        exact peerLater.trans peerFurther
      · rw [firstBind, secondBind]
        exact final

theorem map {behind : FormulaCache → FormulaCache → γ → δ → Prop} {first : Compiling α}
    {second : Compiling β} {change : α → γ} {peerChange : β → δ}
    (agree : Agree cache peer first second related)
    (holds : ∀ later peerLater value other, related later peerLater value other →
      behind later peerLater (change value) (peerChange other)) :
    Agree cache peer (change <$> first) (peerChange <$> second) behind := by
  rw [map_eq_pure_bind, map_eq_pure_bind]
  exact agree.bind fun later peerLater cacheLater isLater value other related =>
    .pure cacheLater.2 isLater.2 (holds later peerLater value other related)

/-- A relation that every step keeps is kept by the whole row of steps. -/
theorem foldlM {invariant : FormulaCache → FormulaCache → γ → δ → Prop}
    {step : γ → α → Compiling γ} {peerStep : δ → α → Compiling δ}
    (keeps : ∀ {cache peer : FormulaCache}, cache.Sound → peer.Sound → ∀ state other,
      invariant cache peer state other → ∀ value,
        Agree cache peer (step state value) (peerStep other value) invariant)
    (sound : cache.Sound) (peerSound : peer.Sound) (list : List α) {state : γ} {other : δ}
    (start : invariant cache peer state other) :
    Agree cache peer (list.foldlM step state) (list.foldlM peerStep other) invariant := by
  induction list generalizing cache peer state other with
  | nil => exact .pure sound peerSound start
  | cons value list ih =>
      rw [List.foldlM_cons, List.foldlM_cons]
      exact (keeps sound peerSound state other start value).bind
        fun later peerLater isLater isPeerLater state other kept =>
          ih isLater.2 isPeerLater.2 kept

/-- Computations that are steady on their caches, with the same value. -/
theorem ofSteady (sound : cache.Sound) (peerSound : peer.Sound) {first second : Cached α}
    {value other : α} (steady : Cached.Steady cache first value)
    (peerSteady : Cached.Steady peer second other) (same : value = other) :
    Agree cache peer (liftM first : Compiling α) (liftM second : Compiling α)
      fun _ _ => Eq := by
  obtain ⟨returned, later⟩ := steady cache (.refl cache) sound
  obtain ⟨peerReturned, peerLater⟩ := peerSteady peer (.refl peer) peerSound
  exact ⟨later, peerLater, .ok (returned.trans (same.trans peerReturned.symm))⟩

end Compiling.Agree

namespace Formula

/-- The same position, or entries of the two caches with the same text. -/
inductive SameText (cache peer : FormulaCache) : Formula → Formula → Prop
  | literal (position : Int) : SameText cache peer (literal position) (literal position)
  | expression {id other : EntryId} {entry peerEntry : FormulaEntry}
      (found : cache.entries[id]? = some entry)
      (peerFound : peer.entries[other]? = some peerEntry)
      (text : entry.text = peerEntry.text) :
      SameText cache peer (expression id) (expression other)

namespace SameText

variable {first second : Formula}

theorem later {later peerLater : FormulaCache} (same : SameText cache peer first second)
    (isLater : cache.Later later) (isPeerLater : peer.Later peerLater) :
    SameText later peerLater first second := by
  cases same with
  | literal position => exact .literal position
  | expression found peerFound text =>
      obtain ⟨newer, foundNewer, textNewer, -⟩ := isLater.1 _ _ found
      obtain ⟨peerNewer, foundPeer, textPeer, -⟩ := isPeerLater.1 _ _ peerFound
      exact .expression foundNewer foundPeer (textNewer.trans (text.trans textPeer.symm))

theorem known (same : SameText cache peer first second) : first.Known cache := by
  cases same with
  | literal position => trivial
  | expression found _ _ => exact (Array.getElem?_eq_some_iff.mp found).1

theorem peerKnown (same : SameText cache peer first second) : second.Known peer := by
  cases same with
  | literal position => trivial
  | expression _ peerFound _ => exact (Array.getElem?_eq_some_iff.mp peerFound).1

/-- Entries with the same text select the same positions. -/
theorem contains_eq (sound : cache.Sound) (peerSound : peer.Sound) {id other : EntryId}
    (same : SameText cache peer (.expression id) (.expression other)) (index : Int) :
    (cache.contains id index).1 = (peer.contains other index).1 := by
  cases same with
  | @expression _ _ entry peerEntry found peerFound text =>
      have parsed := (sound.entries id entry found).parsed
      rw [text, (peerSound.entries other peerEntry peerFound).parsed] at parsed
      have equation : peerEntry.equation = entry.equation := Except.ok.inj parsed
      rw [Bool.eq_iff_iff, sound.contains_iff, peerSound.contains_iff]
      simp only [FormulaCache.Selects, found, peerFound, Option.some.injEq, exists_eq_left',
        FormulaEntry.Selects, equation]

theorem answer_eq (sound : cache.Sound) (peerSound : peer.Sound)
    (same : SameText cache peer first second) : answer cache first = answer peer second := by
  funext index
  cases same with
  | literal position => rfl
  | expression found peerFound text =>
      by_cases small : (index : Int) + 1 ≤ maxInteger
      · rw [answer, answer, runOn_matchesIndex_of_le small, runOn_matchesIndex_of_le small]
        exact contains_eq sound peerSound (.expression found peerFound text) (index + 1)
      · rw [answer, answer, matchesIndex_of_lt small, matchesIndex_of_lt small]
        rfl

end SameText

/-- Whether a text is a formula in `n` alone, and the error if it is not. -/
def accepted (text : String) : Except Error Unit :=
  match EquationParser.linear text with
  | .error error => .error error
  | .ok equation =>
      if equation.variableNames = ["n"] then .ok ()
      else .error (.invalidSelector (.foreignVariables text))

theorem accepted_eq_ok {text : String} {equation : Equation}
    (parsed : EquationParser.linear text = .ok equation)
    (names : equation.variableNames = ["n"]) : accepted text = .ok () := by
  simp only [accepted, parsed, if_pos names]

/-- Whether a request succeeds is a matter of the text alone, also when the
text is held. -/
theorem map_request (sound : cache.Sound) (text : String) :
    (cache.request text).1.map (fun _ => ()) = accepted text := by
  unfold FormulaCache.request
  split
  case h_1 id found =>
    obtain ⟨before, after, split, -⟩ := List.lookup_eq_some_iff.mp found
    obtain ⟨entry, foundEntry, rfl⟩ := sound.held (text, id) (by simp [split])
    have entrySound := sound.entries id entry foundEntry
    exact (accepted_eq_ok entrySound.parsed entrySound.variableNames_eq).symm
  case h_2 =>
    rw [sound.parser_eq, accepted]
    cases EquationParser.linear text with
    | error error => rfl
    | ok equation =>
        dsimp only
        split <;> rfl

theorem agree_request (sound : cache.Sound) (peerSound : peer.Sound) (text : String) :
    Compiling.Agree cache peer (request text) (request text) fun later peerLater id other =>
      SameText later peerLater (.expression id) (.expression other) := by
  obtain ⟨requestedSound, requested⟩ := sound.request text
  obtain ⟨peerRequestedSound, peerRequested⟩ := peerSound.request text
  refine ⟨⟨FormulaCache.Extends.request cache text, requestedSound⟩,
    ⟨FormulaCache.Extends.request peer text, peerRequestedSound⟩, ?_⟩
  have same := (map_request sound text).trans (map_request peerSound text).symm
  simp only [runOn_request] at same ⊢
  cases outcome : (cache.request text).1 with
  | error error =>
      cases peerOutcome : (peer.request text).1 with
      | ok other => simp [outcome, peerOutcome, Except.map] at same
      | error peerError =>
          simp only [outcome, peerOutcome, Except.map, Except.error.injEq] at same
          rw [same]
          exact .error peerError
  | ok id =>
      cases peerOutcome : (peer.request text).1 with
      | error error => simp [outcome, peerOutcome, Except.map] at same
      | ok other =>
          obtain ⟨entry, found, text_eq⟩ := requested id outcome
          obtain ⟨peerEntry, peerFound, peerText⟩ := peerRequested other peerOutcome
          exact .ok (.expression found peerFound (text_eq.trans peerText.symm))

theorem agree_compile (sound : cache.Sound) (peerSound : peer.Sound) (text : String) :
    Compiling.Agree cache peer (compile text) (compile text) SameText := by
  unfold compile
  dsimp only
  cases parseInteger? (normalize text).toList with
  | some position => exact .pure sound peerSound (.literal position)
  | none =>
      exact (agree_request sound peerSound (normalize text)).map fun _ _ _ _ same => same

end Formula

end CssQuery
