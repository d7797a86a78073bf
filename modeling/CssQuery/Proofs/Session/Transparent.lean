import CssQuery.Proofs.Session.Queries

/-!
# The caches of a session do not show

A session and its reference without caches go through the same commands.  At
every moment they have the same tree, and what the session has compiled is
alike to what a new engine makes of the text that the reference keeps, up to
entries with the same texts.  An entry stays in its cache when its text is
dropped, so this outlives eviction.

The caches are only ever added to, whoever uses them and for whatever, so each
command keeps this relation and both answer the same.
-/

namespace CssQuery

variable {α : Type} {session behind : Session} {uncached : UncachedSession}

namespace SessionAnswer

/-- The nodes, if nodes are the answer. -/
def nodes? : SessionAnswer → Option (List NodeId)
  | .nodes answered => some answered
  | _ => none

theorem filterMap_nodes?_eq {first second : List SessionAnswer}
    (agree : List.Forall₂ Agrees first second) :
    first.filterMap nodes? = second.filterMap nodes? := by
  induction agree with
  | nil => rfl
  | cons head _ ih =>
      simp only [List.filterMap_cons, ih]
      cases head with
      | same => rfl
      | selectors => rfl
      | positions => rfl

end SessionAnswer

namespace Session

/-- The caches of the second session come later than those of the first. -/
structure Later (session later : Session) : Prop where
  length_eq : later.caches.length = session.caches.length
  cache : ∀ index, (session.cache index).Later (later.cache index)

theorem cache_withCache (session : Session) (index other : Nat) (run : Cached α) :
    (session.withCache index run).2.cache other =
      if index = other ∧ index < session.caches.length then (run.runOn (session.cache index)).2
      else session.cache other := by
  simp only [withCache, cache, List.getElem?_set]
  by_cases same : index = other
  · subst same
    by_cases known : index < session.caches.length
    · simp [known, Cached.runOn]
    · simp [known]
  · simp [same]

theorem Later.withCache (sound : ∀ index, (session.cache index).Sound) {index : Nat}
    {run : Cached α}
    (ran : (session.cache index).Later (run.runOn (session.cache index)).2) :
    session.Later (session.withCache index run).2 where
  length_eq := List.length_set
  cache other := by
    rw [cache_withCache]
    split
    case isTrue same => exact same.1 ▸ ran
    case isFalse => exact .refl (sound other)

theorem program?_addProgram (session : Session) (program : Program) (name : String) :
    (session.addProgram program).program? name =
      if program.name = name then some program else session.program? name := by
  simp only [Session.addProgram, Session.program?, List.find?_cons, List.find?_filter]
  by_cases replaced : program.name = name
  · rw [if_pos replaced, beq_iff_eq.mpr replaced]
  · rw [if_neg replaced, beq_false_of_ne replaced]
    dsimp only
    congr 1
    funext found
    by_cases same : found.name = name
    · simp [same, Ne.symm replaced]
    · simp [same]

/-- The formula is alike to what a new engine reads from the text. -/
def HandleReads (session : Session) (handle : FormulaHandle) (source : FormulaSource) : Prop :=
  handle.cache < session.caches.length ∧
    ∃ formula peer, peer.Sound ∧
      source.read.runOn ({} : EngineConfig).renewed.newCache = (.ok formula, peer) ∧
      Formula.SameText (session.cache handle.cache) peer handle.formula formula

/-- The program is alike to what a new engine reads from the text. -/
def ProgramReads (session : Session) (program : Program) (source : ProgramSource) : Prop :=
  program.cache < session.caches.length ∧
    ∃ selectors peer, peer.Sound ∧
      (source.config.renewed.parse source.selector).runOn source.config.renewed.newCache =
        (.ok selectors, peer) ∧
      SelectorList.Alike (Formula.SameText (session.cache program.cache) peer)
        program.selectors selectors

theorem HandleReads.later {handle : FormulaHandle} {source : FormulaSource}
    (reads : session.HandleReads handle source) (isLater : session.Later behind) :
    behind.HandleReads handle source := by
  obtain ⟨known, formula, peer, peerSound, read, same⟩ := reads
  exact ⟨isLater.length_eq ▸ known, formula, peer, peerSound, read,
    same.later (isLater.cache _) (.refl peerSound)⟩

theorem ProgramReads.later {program : Program} {source : ProgramSource}
    (reads : session.ProgramReads program source) (isLater : session.Later behind) :
    behind.ProgramReads program source := by
  obtain ⟨known, selectors, peer, peerSound, read, alike⟩ := reads
  exact ⟨isLater.length_eq ▸ known, selectors, peer, peerSound, read,
    SelectorList.Alike.imp (fun _ _ same => same.later (isLater.cache _) (.refl peerSound)) alike⟩

/-- The reference is in the state of the session. -/
structure Mirrors (session : Session) (uncached : UncachedSession) : Prop where
  tree_eq : uncached.tree = session.tree
  config_eq : ∀ index, uncached.config index = (session.engine index).config
  used : ∀ index, (session.engine index).cache < session.caches.length
  sound : ∀ index, (session.cache index).Sound
  programs : ∀ name, Option.Rel session.ProgramReads (session.program? name)
    (uncached.programs name)
  handles : List.Forall₂ session.HandleReads session.handles uncached.handles

/-- A command is answered alike, and the reference is in the state of the
session again. -/
def InStep (session : Session) (uncached : UncachedSession) (command : SessionCommand) : Prop :=
  (session.perform command).1.Agrees (uncached.perform command).1 ∧
    (session.perform command).2.Mirrors (uncached.perform command).2

theorem rel_getElem? {β : Type} {related : α → β → Prop} {first : List α} {second : List β}
    (all : List.Forall₂ related first second) (index : Nat) :
    Option.Rel related first[index]? second[index]? := by
  induction all generalizing index with
  | nil => exact .none
  | cons head _ ih =>
      cases index with
      | zero => exact .some head
      | succ index => simpa using ih index

namespace Mirrors

/-- Using the caches, and nothing else, keeps the relation. -/
theorem withCaches (mirrors : session.Mirrors uncached) {caches : List FormulaCache}
    (isLater : session.Later { session with caches := caches }) :
    Mirrors { session with caches := caches } uncached where
  tree_eq := mirrors.tree_eq
  config_eq := mirrors.config_eq
  used index := Nat.lt_of_lt_of_eq (mirrors.used index) isLater.length_eq.symm
  sound index := (isLater.cache index).2
  programs name := by
    have reads := mirrors.programs name
    change Option.Rel _ (session.program? name) _
    generalize session.program? name = program at reads
    generalize uncached.programs name = source at reads
    cases reads with
    | none => exact .none
    | some reads => exact .some (reads.later isLater)
  handles := mirrors.handles.imp fun _ _ reads => reads.later isLater

/-- A computation that is steady on its cache, on one of the session. -/
theorem withCache (mirrors : session.Mirrors uncached) (index : Nat) {run : Cached α}
    {value : α} (steady : Cached.Steady (session.cache index) run value) :
    (session.withCache index run).1 = value ∧
      Mirrors (session.withCache index run).2 uncached := by
  obtain ⟨returned, isLater⟩ := steady _ (.refl _) (mirrors.sound index)
  exact ⟨returned, mirrors.withCaches (Later.withCache mirrors.sound isLater)⟩

/-- A query that answers what new engines answer. -/
theorem query (mirrors : session.Mirrors uncached) (engine : Nat)
    (run : EngineConfig → Compiling α) {outcome : Except Error α}
    (onSuccess : α → SessionAnswer)
    (steady : ∀ base, Cached.Steady base (run (uncached.config engine)).run outcome) :
    (answer onSuccess (session.withEngine engine run)).1.Agrees
        (UncachedSession.answer onSuccess outcome) ∧
      Mirrors (answer onSuccess (session.withEngine engine run)).2 uncached := by
  rw [mirrors.config_eq] at steady
  obtain ⟨returned, kept⟩ := mirrors.withCache (session.engine engine).cache (steady _)
  change (session.withEngine engine run).1 = outcome at returned
  change Mirrors (session.withEngine engine run).2 uncached at kept
  rcases ran : session.withEngine engine run with ⟨result, behind⟩
  rw [ran] at returned kept
  subst returned
  cases result with
  | error error => exact ⟨.same _, kept⟩
  | ok value => exact ⟨.same _, kept⟩

/-- What an engine builds is alike to what a new engine builds. -/
theorem build (mirrors : session.Mirrors uncached) (engine : Nat)
    {build : EngineConfig → Compiling α}
    {related : FormulaCache → FormulaCache → α → α → Prop}
    (agree : ∀ config : EngineConfig, ∀ cache, cache.Sound →
      Compiling.Agree cache config.renewed.newCache (build config) (build config.renewed)
        related) :
    ∃ outcome behind result peer,
      session.withEngine engine build = (outcome, behind) ∧
      (build (uncached.config engine).renewed).runOn
        (uncached.config engine).renewed.newCache = (result, peer) ∧
      behind.Mirrors uncached ∧ peer.Sound ∧
      behind.engine engine = session.engine engine ∧
      SameOutcome (related (behind.cache (session.engine engine).cache) peer) outcome result := by
  obtain ⟨isLater, isPeerLater, same⟩ := agree (session.engine engine).config
    (session.cache (session.engine engine).cache) (mirrors.sound _)
  have behind := cache_withCache session (session.engine engine).cache
    (session.engine engine).cache (build (session.engine engine).config).run
  rw [if_pos ⟨rfl, mirrors.used engine⟩] at behind
  rw [mirrors.config_eq]
  refine ⟨(session.withEngine engine build).1, (session.withEngine engine build).2, _, _, rfl, rfl,
    mirrors.withCaches (Later.withCache mirrors.sound isLater), isPeerLater.2, rfl, ?_⟩
  rw [withEngine, behind]
  exact same

/-- A text that an engine reads, and what becomes of it. -/
theorem parse (mirrors : session.Mirrors uncached) (engine : Nat) (selector : String) :
    InStep session uncached (.parse engine selector) := by
  obtain ⟨outcome, behind, result, peer, ran, peerRan, kept, -, -, same⟩ := mirrors.build engine
    fun config cache sound => config.agree_parse_renewed sound selector
  have afresh : ((uncached.config engine).afresh fun config => config.parse selector) = result :=
    congrArg Prod.fst peerRan
  rw [InStep, Session.perform, ran, UncachedSession.perform, afresh]
  cases same with
  | error error => exact ⟨.same _, kept⟩
  | ok alike =>
      have sameTexts := SelectorList.Alike.imp (fun _ _ => Formula.SameText.sameButEntry) alike
      exact ⟨.selectors sameTexts, kept⟩

theorem addProgram (mirrors : session.Mirrors uncached) {program : Program}
    {source : ProgramSource} (reads : session.ProgramReads program source) :
    Mirrors (session.addProgram program)
      { uncached with
        programs := fun other =>
          if program.name = other then some source else uncached.programs other } where
  tree_eq := mirrors.tree_eq
  config_eq := mirrors.config_eq
  used := mirrors.used
  sound := mirrors.sound
  programs name := by
    rw [program?_addProgram]
    dsimp only
    split
    · exact .some reads
    · exact mirrors.programs name
  handles := mirrors.handles

theorem addHandle (mirrors : session.Mirrors uncached) {handle : FormulaHandle}
    {source : FormulaSource} (reads : session.HandleReads handle source) :
    (session.addHandle handle).1 = uncached.handles.length ∧
      Mirrors (session.addHandle handle).2
        { uncached with handles := uncached.handles ++ [source] } := by
  refine ⟨mirrors.handles.length_eq, ?_⟩
  exact {
    tree_eq := mirrors.tree_eq
    config_eq := mirrors.config_eq
    used := mirrors.used
    sound := mirrors.sound
    programs := mirrors.programs
    handles := List.rel_append mirrors.handles (.cons reads .nil) }

theorem compile (mirrors : session.Mirrors uncached) (engine : Nat) (selector name : String) :
    InStep session uncached (.compile engine selector name) := by
  obtain ⟨outcome, behind, result, peer, ran, peerRan, kept, peerSound, engines, same⟩ :=
    mirrors.build engine fun config cache sound => config.agree_parse_renewed sound selector
  have afresh : ((uncached.config engine).afresh fun config => config.parse selector) = result :=
    congrArg Prod.fst peerRan
  rw [InStep, Session.perform, ran, UncachedSession.perform, afresh]
  cases same with
  | error error => exact ⟨.same _, kept⟩
  | @ok selectors read alike =>
      -- The program stays with this cache, and its entries are never taken out of it.
      have known := engines ▸ kept.used engine
      exact ⟨.same _, kept.addProgram ⟨known, read, peer, peerSound, peerRan, alike⟩⟩

theorem run (mirrors : session.Mirrors uncached) (name : String) (scope : NodeId)
    (candidates : List NodeId) :
    InStep session uncached (.run name scope candidates) := by
  have reads := mirrors.programs name
  rw [InStep, Session.perform, UncachedSession.perform]
  generalize session.program? name = program at reads
  generalize uncached.programs name = source at reads
  cases reads with
  | none => exact ⟨.same _, mirrors⟩
  | @some program source reads =>
      obtain ⟨-, selectors, peer, peerSound, read, alike⟩ := reads
      obtain ⟨kept, keeps, peerKeeps⟩ := alike.coincide_apply (mirrors.sound program.cache)
        peerSound session.tree scope candidates
      obtain ⟨returned, still⟩ := mirrors.withCache program.cache keeps
      have afresh : source.config.withSelector source.selector
          (SelectorList.apply uncached.tree scope candidates) = .ok kept := by
        rw [mirrors.tree_eq]
        exact (source.config.afresh_bind_of_ok (fun config => config.parse source.selector) _
          read).trans (congrArg Except.ok (peerKeeps.runOn_fst peerSound))
      dsimp only
      rw [returned, afresh]
      exact ⟨.same _, still⟩

/-- A formula that an engine reads, and what becomes of it. -/
theorem keepFormula (mirrors : session.Mirrors uncached) (engine : Nat)
    (source : FormulaSource) :
    (perform.keepFormula engine (session.withEngine engine fun _ => source.read)).1.Agrees
        (UncachedSession.perform.keepFormula uncached source).1 ∧
      (perform.keepFormula engine (session.withEngine engine fun _ => source.read)).2.Mirrors
        (UncachedSession.perform.keepFormula uncached source).2 := by
  obtain ⟨outcome, behind, result, peer, ran, peerRan, kept, peerSound, engines, same⟩ :=
    mirrors.build engine fun config cache sound =>
      source.agree_read sound (EngineConfig.sound_newCache config.renewed)
  have afresh : (({} : EngineConfig).afresh fun _ => source.read) = result :=
    congrArg Prod.fst peerRan
  rw [ran, UncachedSession.perform.keepFormula, afresh]
  cases same with
  | error error => exact ⟨.same _, kept⟩
  | @ok formula read same =>
      have known := kept.used engine
      rw [← engines] at same
      have reads : behind.HandleReads ⟨formula, (behind.engine engine).cache⟩ source :=
        ⟨known, read, peer, peerSound, peerRan, same⟩
      obtain ⟨number, added⟩ := kept.addHandle reads
      rw [perform.keepFormula]
      dsimp only
      rw [number]
      exact ⟨.same _, added⟩

theorem contains (mirrors : session.Mirrors uncached) (handle : Nat) (positions : List Int) :
    InStep session uncached (.contains handle positions) := by
  have reads := rel_getElem? mirrors.handles handle
  rw [InStep, Session.perform, UncachedSession.perform]
  generalize session.handles[handle]? = kept at reads
  generalize uncached.handles[handle]? = source at reads
  cases reads with
  | none => exact ⟨.same _, mirrors⟩
  | @some kept source reads =>
      obtain ⟨-, formula, peer, peerSound, read, same⟩ := reads
      have cacheSound := mirrors.sound kept.cache
      obtain ⟨selected, still⟩ := mirrors.withCache kept.cache
        (same.known.steady_askPositions cacheSound positions)
      have afresh : ∀ position, (source.withFormula fun formula =>
          askPositions formula [position]) = _ := fun position =>
        EngineConfig.afresh_bind_of_ok {} (fun _ => source.read) _ read
      have each : ∀ position, ((askPositions formula [position]).runOn peer).1.map Prod.fst =
          [formula.selectsPosition peer position] := fun position =>
        (same.peerKnown.steady_askPositions peerSound [position]).runOn_fst peerSound
      dsimp only
      simp only [afresh, mapM_ok]
      -- How far the entry has been decided depends on what was asked before; only
      -- what is selected is compared.
      refine ⟨.positions ?_, still⟩
      refine selected.trans ?_
      rw [same.selectsPosition_eq cacheSound peerSound, List.map_flatten, List.map_map]
      simp only [Function.comp_def, each]
      exact List.map_eq_flatMap

theorem matchesIndex (mirrors : session.Mirrors uncached) (handle : Nat) (indices : List Nat) :
    InStep session uncached (.matchesIndex handle indices) := by
  have reads := rel_getElem? mirrors.handles handle
  rw [InStep, Session.perform, UncachedSession.perform]
  generalize session.handles[handle]? = kept at reads
  generalize uncached.handles[handle]? = source at reads
  cases reads with
  | none => exact ⟨.same _, mirrors⟩
  | @some kept source reads =>
      obtain ⟨-, formula, peer, peerSound, read, same⟩ := reads
      choose selects tests peerTests using
        same.coincide_matchesIndex (mirrors.sound kept.cache) peerSound
      obtain ⟨selected, still⟩ := mirrors.withCache kept.cache
        (Cached.Steady.mapM fun index (_ : index ∈ indices) => tests index)
      have afresh : ∀ index, (source.withFormula fun formula => formula.matchesIndex index) =
          .ok (selects index) := fun index =>
        (EngineConfig.afresh_bind_of_ok {} (fun _ => source.read) _ read).trans
          (congrArg Except.ok ((peerTests index).runOn_fst peerSound))
      dsimp only
      simp only [selected, afresh, mapM_ok]
      exact ⟨.same _, still⟩

/-- One command keeps the relation and is answered alike. -/
theorem perform (mirrors : session.Mirrors uncached) (command : SessionCommand) :
    InStep session uncached command := by
  cases command with
  | change command =>
      rw [InStep, Session.perform, UncachedSession.perform, mirrors.tree_eq]
      exact ⟨.same _, rfl, mirrors.config_eq, mirrors.used, mirrors.sound, mirrors.programs,
        mirrors.handles⟩
  | select engine root selector =>
      rw [InStep, Session.perform, UncachedSession.perform, mirrors.tree_eq]
      exact mirrors.query engine (fun config => config.select session.tree root selector) .nodes
        fun _ => EngineConfig.steady_select _ _ _ _
  | parse engine selector => exact mirrors.parse engine selector
  | apply engine selector scope candidates =>
      rw [InStep, Session.perform, UncachedSession.perform, mirrors.tree_eq]
      exact mirrors.query engine (applySelector session.tree selector scope candidates) _
        fun _ => steady_applySelector _ _ _ _ _
  | compile engine selector name => exact mirrors.compile engine selector name
  | run name scope candidates => exact mirrors.run name scope candidates
  | pseudoClass engine name argument scope candidates limit =>
      rw [InStep, Session.perform, UncachedSession.perform, mirrors.tree_eq]
      exact mirrors.query engine
        (applyPseudoClass session.tree name argument scope candidates limit) _
        fun _ => steady_applyPseudoClass _ _ _ _ _ _ _
  | formula engine text => exact mirrors.keepFormula engine (.formula text)
  | request engine text => exact mirrors.keepFormula engine (.request text)
  | contains handle positions => exact mirrors.contains handle positions
  | matchesIndex handle indices => exact mirrors.matchesIndex handle indices
  | isNth engine nodes formula counting =>
      rw [InStep, Session.perform, UncachedSession.perform, mirrors.tree_eq]
      exact mirrors.query engine (fun _ => ExceptT.mk (.ok <$> nodes.mapM fun node =>
        (isNth session.tree formula counting node).run)) .results
        fun _ => steady_isNth_each (uncached.config engine) _ _ _ _
  | nthChildren engine container formula counting limit =>
      rw [InStep, Session.perform, UncachedSession.perform, mirrors.tree_eq]
      dsimp only
      exact mirrors.query engine
        (fun _ => nthChildren session.tree container formula counting limit) .nodes
        fun _ => steady_nthChildren (uncached.config engine) _ _ _ _ _

/-- A row of commands is answered alike. -/
theorem answers (mirrors : session.Mirrors uncached) (commands : List SessionCommand) :
    List.Forall₂ SessionAnswer.Agrees (session.answers commands) (uncached.answers commands) := by
  induction commands generalizing session uncached with
  | nil => exact .nil
  | cons command later ih =>
      obtain ⟨agrees, behind⟩ := mirrors.perform command
      exact .cons agrees (ih behind)

/-- Before anything has been asked, nothing has been compiled. -/
theorem start {engines : List SessionEngine} {capacities : List (Option Nat)}
    (present : capacities ≠ [])
    (placed : ∀ engine ∈ engines, engine.cache < capacities.length) :
    Mirrors (Session.start engines capacities) { configs := engines.map (·.config) } where
  tree_eq := rfl
  config_eq index := by
    rw [UncachedSession.config, Session.engine, Session.start, List.getElem?_map]
    cases engines[index]? with
    | none => rfl
    | some engine => rfl
  used index := by
    rw [Session.engine, Session.start, List.length_map]
    cases found : engines[index]? with
    | none => exact List.length_pos_iff.mpr present
    | some engine => exact placed engine (List.mem_of_getElem? found)
  sound index := by
    rw [Session.cache, Session.start, List.getElem?_map]
    cases capacities[index]? with
    | none => exact FormulaCache.Sound.empty none
    | some capacity => exact FormulaCache.Sound.empty capacity
  programs _ := .none
  handles := .nil

end Mirrors

/-- **Transparency of the formula caches.**  Each command of a session is
answered as by engines that were never asked anything before, each with an empty
cache without bounds, on the tree at that moment. -/
theorem answers_agree_uncached (engines : List SessionEngine) (capacities : List (Option Nat))
    (present : capacities ≠ [])
    (placed : ∀ engine ∈ engines, engine.cache < capacities.length)
    (commands : List SessionCommand) :
    List.Forall₂ SessionAnswer.Agrees
      ((Session.start engines capacities).answers commands)
      (UncachedSession.answers { configs := engines.map (·.config) } commands) :=
  (Mirrors.start present placed).answers commands

/-- Two engines share a cache that holds one text.  A program answers after the
text of its formula has been displaced, on the tree as it then is, and so does
an engine that reads the same text again. -/
theorem answers_after_eviction :
    ((Session.start [⟨{}, 0⟩, ⟨{}, 0⟩] [some 1]).answers [
      .change (.appendElement 0 "ul"), .change (.appendElement 1 "li"),
      .change (.appendElement 1 "li"), .change (.appendElement 1 "li"),
      .compile 0 "li:nth-child(odd)" "odd", .select 1 0 "li:nth-last-child(2n+2)",
      .run "odd" 0 [2, 3, 4], .change (.removeChild 1 2), .run "odd" 0 [2, 3, 4],
      .nthChildren 1 1 "odd" ⟨false, true⟩ none]).filterMap SessionAnswer.nodes? =
        [[3], [2, 4], [3], [4]] := by
  have agree := answers_agree_uncached [⟨{}, 0⟩, ⟨{}, 0⟩] [some 1] (by simp) (by simp)
  refine (SessionAnswer.filterMap_nodes?_eq (agree _)).trans ?_
  decide +kernel

end Session

end CssQuery
