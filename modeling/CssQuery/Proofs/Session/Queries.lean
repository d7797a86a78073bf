import CssQuery.Proofs.Selector.Compiled
import CssQuery.Proofs.Selector.Enumeration
import CssQuery.Proofs.Session.Uncached

/-!
# Queries and new engines

A query reads a selector, a pseudo-class or a formula and uses it.  What is
read on the cache of a session and what a new engine reads are alike up to
entries with the same texts, and using them gives the same result.  So every
query on a sound cache answers what a new engine answers, and leaves behind a
sound cache.
-/

namespace CssQuery

variable {α β γ : Type} {base cache peer : FormulaCache}

/-- Only the regard to letter case has a part in how a pseudo-class is
built. -/
theorem PseudoClass.build_renewed (config : EngineConfig) (depth : Nat) :
    PseudoClass.build config.renewed depth = PseudoClass.build config depth := by
  have kinds : PseudoClass.ofKind config.renewed = PseudoClass.ofKind config := by
    funext parseInner kind argument
    cases kind <;> rfl
  have names : PseudoClass.ofName config.renewed = PseudoClass.ofName config := by
    funext parseInner name argument
    rw [PseudoClass.ofName, PseudoClass.ofName, kinds]
  induction depth with
  | zero => rw [PseudoClass.build, PseudoClass.build, names]
  | succ depth ih => rw [PseudoClass.build, PseudoClass.build, names, ih]

namespace EngineConfig

theorem parse_renewed (config : EngineConfig) (text : String) :
    config.renewed.parse text = config.parse text := by
  rw [parse, parse, PseudoClass.build_renewed]

theorem pseudoClass_renewed (config : EngineConfig) (name : String) (argument : Option String) :
    config.renewed.pseudoClass name argument = config.pseudoClass name argument := by
  rw [pseudoClass, pseudoClass, PseudoClass.build_renewed]

theorem sound_newCache (config : EngineConfig) : config.newCache.Sound :=
  FormulaCache.Sound.empty config.formulaCacheCapacity

theorem agree_parse_renewed (config : EngineConfig) (sound : cache.Sound) (text : String) :
    Compiling.Agree cache config.renewed.newCache (config.parse text)
      (config.renewed.parse text)
      fun later peerLater => SelectorList.Alike (Formula.SameText later peerLater) := by
  rw [parse_renewed]
  exact config.agree_parse sound (sound_newCache _) text

theorem agree_pseudoClass_renewed (config : EngineConfig) (sound : cache.Sound) (name : String)
    (argument : Option String) :
    Compiling.Agree cache config.renewed.newCache (config.pseudoClass name argument)
      (config.renewed.pseudoClass name argument)
      fun later peerLater => PseudoClass.Alike (Formula.SameText later peerLater) := by
  rw [pseudoClass_renewed]
  exact config.agree_pseudoClass sound (sound_newCache _) name argument

theorem afresh_bind_of_error (config : EngineConfig) (build : EngineConfig → Compiling α)
    (use : α → Cached β) {error : Error}
    (refused : ((build config.renewed).runOn config.renewed.newCache).1 = .error error) :
    (config.afresh fun config => build config >>= fun value => liftM (use value)) =
      .error error := by
  rw [afresh, Compiling.runOn_bind]
  rcases ran : (build config.renewed).runOn config.renewed.newCache with ⟨result, after⟩
  rw [ran] at refused
  cases refused
  rfl

theorem afresh_bind_of_ok (config : EngineConfig) (build : EngineConfig → Compiling α)
    (use : α → Cached β) {value : α} {after : FormulaCache}
    (ran : (build config.renewed).runOn config.renewed.newCache = (.ok value, after)) :
    (config.afresh fun config => build config >>= fun value => liftM (use value)) =
      .ok ((use value).runOn after).1 := by
  rw [afresh, Compiling.runOn_bind, ran]
  rfl

/-- A query that agrees with that of a new engine answers what that engine
answers. -/
theorem steady_afresh (config : EngineConfig) (query : EngineConfig → Compiling α)
    (agree : ∀ cache, cache.Sound → Compiling.Agree cache config.renewed.newCache
      (query config) (query config.renewed) fun _ _ => Eq) :
    Cached.Steady base (query config).run (config.afresh query) := by
  intro cache extension sound
  obtain ⟨later, -, same⟩ := agree cache sound
  exact ⟨same.eq, extension.trans later.1, later.2⟩

end EngineConfig

theorem Cached.Steady.runOn_fst {run : Cached α} {value : α} (steady : Steady base run value)
    (sound : base.Sound) : (run.runOn base).1 = value :=
  (steady base (.refl base) sound).1

theorem Cached.Steady.lift_bind {run : Cached α} {next : α → Compiling β} {value : α}
    {outcome : Except Error β} (first : Steady base run value)
    (second : Steady base (next value).run outcome) :
    Steady base ((liftM run : Compiling α) >>= next).run outcome := by
  intro cache extension sound
  obtain ⟨returned, between, betweenSound⟩ := first cache extension sound
  have final := second _ between betweenSound
  rw [← returned] at final
  exact final

/-- What is built on a cache and on its peer, and then used. -/
theorem Compiling.Agree.steady_bind {build : Compiling α} {peerBuild : Compiling β}
    {related : FormulaCache → FormulaCache → α → β → Prop} {use : α → Compiling γ}
    {outcome : Except Error γ}
    (agree : ∀ cache, cache.Sound → Agree cache peer build peerBuild related)
    (refused : ∀ error, (peerBuild.runOn peer).1 = .error error → outcome = .error error)
    (used : ∀ {later peerLater : FormulaCache}, later.Sound → peerLater.Sound →
      ∀ value other, (peerBuild.runOn peer) = (.ok other, peerLater) →
        related later peerLater value other → Cached.Steady later (use value).run outcome) :
    Cached.Steady base (build >>= use).run outcome := by
  intro cache extension sound
  -- The outcome is one for all caches, so the run of the peer decides which of
  -- the two cases it is.
  obtain ⟨later, peerLater, same⟩ := agree cache sound
  have ranBind := Compiling.runOn_bind build use cache
  rcases ran : build.runOn cache with ⟨result, after⟩
  rcases peerRan : peerBuild.runOn peer with ⟨peerResult, peerAfter⟩
  rw [ran] at later same ranBind
  rw [peerRan] at peerLater same
  have behind := extension.trans later.1
  change (Compiling.runOn (build >>= use) cache).1 = outcome ∧
    base.Extends (Compiling.runOn (build >>= use) cache).2 ∧
      (Compiling.runOn (build >>= use) cache).2.Sound
  rw [ranBind]
  cases same with
  | error error => exact ⟨(refused error (by rw [peerRan])).symm, behind, later.2⟩
  | ok holds =>
      have final := used later.2 peerLater.2 _ _ peerRan holds _ (.refl after) later.2
      exact ⟨final.1, behind.trans final.2.1, final.2.2⟩

/-- On the two caches and whatever they become the computations have the same
result. -/
def Cached.Coincide (cache peer : FormulaCache) (first second : Cached α) : Prop :=
  ∃ value, Steady cache first value ∧ Steady peer second value

section Selectors

variable {first second : SelectorList}
  (alike : SelectorList.Alike (Formula.SameText cache peer) first second)

include alike

theorem SelectorList.Alike.known : SelectorList.AllFormulas (Formula.Known cache) first :=
  SelectorList.Alike.allFormulas (fun _ _ same => same.known) alike

theorem SelectorList.Alike.peerKnown : SelectorList.AllFormulas (Formula.Known peer) second :=
  SelectorList.Alike.allFormulas (fun _ _ same => same.peerKnown) (SelectorList.Alike.symm alike)

theorem SelectorList.Alike.meaning_answers (sound : cache.Sound) (peerSound : peer.Sound)
    (tree : Tree) :
    SelectorList.meaning cache.answers tree first =
      SelectorList.meaning peer.answers tree second :=
  funext (SelectorList.Alike.meaning_eq tree
    (fun _ _ same => same.answer_eq sound peerSound) alike)

theorem SelectorList.Alike.coincide_apply (sound : cache.Sound) (peerSound : peer.Sound)
    (tree : Tree) (scope : NodeId) (candidates : List NodeId) :
    Cached.Coincide cache peer (SelectorList.apply tree scope candidates first)
      (SelectorList.apply tree scope candidates second) := by
  refine ⟨_, SelectorList.steady_apply sound first alike.known scope candidates, ?_⟩
  rw [alike.meaning_answers sound peerSound tree]
  exact SelectorList.steady_apply peerSound second alike.peerKnown scope candidates

theorem SelectorList.Alike.coincide_holds (sound : cache.Sound) (peerSound : peer.Sound)
    (tree : Tree) (node : NodeId) :
    Cached.Coincide cache peer (SelectorList.holds first tree node)
      (SelectorList.holds second tree node) := by
  refine ⟨_, SelectorList.steady_holds sound alike.known node, ?_⟩
  rw [alike.meaning_answers sound peerSound tree]
  exact SelectorList.steady_holds peerSound alike.peerKnown node

end Selectors

section Conditions

variable {first second : PseudoClass}
  (alike : PseudoClass.Alike (Formula.SameText cache peer) first second)

include alike

theorem PseudoClass.Alike.known : first.AllFormulas (Formula.Known cache) :=
  PseudoClass.Alike.allFormulas (fun _ _ same => same.known) alike

theorem PseudoClass.Alike.peerKnown : second.AllFormulas (Formula.Known peer) :=
  PseudoClass.Alike.allFormulas (fun _ _ same => same.peerKnown) (PseudoClass.Alike.symm alike)

theorem PseudoClass.Alike.coincide_holds (sound : cache.Sound) (peerSound : peer.Sound)
    (tree : Tree) (node : NodeId) :
    Cached.Coincide cache peer (first.holds tree node) (second.holds tree node) := by
  refine ⟨_, PseudoClass.steady_holds sound first alike.known node, ?_⟩
  rw [PseudoClass.Alike.meaning_eq tree (fun _ _ same => same.answer_eq sound peerSound) alike]
  exact PseudoClass.steady_holds peerSound second alike.peerKnown node

theorem PseudoClass.Alike.keeps_answers (sound : cache.Sound) (peerSound : peer.Sound)
    (tree : Tree) : first.keeps cache.answers tree = second.keeps peer.answers tree := by
  funext node
  have meaning := PseudoClass.Alike.meaning_eq tree
    (fun _ _ same => same.answer_eq sound peerSound) alike node
  cases alike with
  | structural test => exact meaning
  | contains search => exact meaning
  | nth counting formula => exact meaning
  | not inner =>
      rw [PseudoClass.keeps, inner.meaning_answers sound peerSound tree, PseudoClass.keeps]

theorem PseudoClass.Alike.coincide_retain (sound : cache.Sound) (peerSound : peer.Sound)
    (tree : Tree) (scope : NodeId) (candidates : List NodeId) :
    Cached.Coincide cache peer (first.retain tree scope candidates)
      (second.retain tree scope candidates) := by
  refine ⟨_, PseudoClass.steady_retain sound scope candidates first alike.known, ?_⟩
  rw [alike.keeps_answers sound peerSound tree]
  exact PseudoClass.steady_retain peerSound scope candidates second alike.peerKnown

theorem PseudoClass.Alike.enumerated_answers (sound : cache.Sound) (peerSound : peer.Sound)
    (tree : Tree) (container : NodeId) :
    first.enumerated cache.answers tree container =
      second.enumerated peer.answers tree container := by
  have keeps := alike.keeps_answers sound peerSound tree
  cases alike with
  | structural test => rfl
  | contains search => rfl
  | nth counting formula =>
      simp only [PseudoClass.enumerated, NthWalk.pending, NthWalk.start, NthWalk.passed,
        NthWalk.remaining, formula.answer_eq sound peerSound]
  | not inner => rw [PseudoClass.enumerated, keeps, PseudoClass.enumerated]

theorem PseudoClass.Alike.coincide_children (sound : cache.Sound) (peerSound : peer.Sound)
    (tree : Tree) (limit : Option Nat) (container : NodeId) :
    Cached.Coincide cache peer (first.childWalk tree container >>= ChildWalk.take tree limit)
      (second.childWalk tree container >>= ChildWalk.take tree limit) := by
  obtain ⟨walk, begun, known, pending⟩ :=
    PseudoClass.steady_childWalk tree sound alike.known container
  obtain ⟨peerWalk, peerBegun, peerKnown, peerPending⟩ :=
    PseudoClass.steady_childWalk tree peerSound alike.peerKnown container
  have same : walk.pending cache.answers tree = peerWalk.pending peer.answers tree := by
    rw [pending, peerPending, alike.enumerated_answers sound peerSound]
  refine ⟨_, begun.bind (ChildWalk.steady_take tree sound known limit), ?_⟩
  rw [same]
  exact peerBegun.bind (ChildWalk.steady_take tree peerSound peerKnown limit)

end Conditions

theorem EngineConfig.steady_select (config : EngineConfig) (tree : Tree) (root : NodeId)
    (selector : String) :
    Cached.Steady base (config.select tree root selector).run
      (config.afresh fun config => config.select tree root selector) := by
  refine config.steady_afresh (fun config => config.select tree root selector) fun _ sound =>
    (config.agree_parse_renewed sound selector).bind ?_
  intro later peerLater isLater isPeerLater first second alike
  obtain ⟨kept, keeps, peerKeeps⟩ :=
    alike.coincide_apply isLater.2 isPeerLater.2 tree root (tree.elementsBelow root)
  exact .ofSteady isLater.2 isPeerLater.2 keeps peerKeeps rfl

theorem mapM_ok (list : List α) (result : α → β) :
    (list.mapM fun value => (.ok (result value) : Except Error β)) = .ok (list.map result) :=
  List.mapM_pure

theorem filterM_ok (list : List α) (test : α → Bool) :
    (list.filterM fun value => (.ok (test value) : Except Error Bool)) =
      .ok (list.filter test) := by
  have collected : ∀ kept : List α,
      (list.filterAuxM (fun value => (.ok (test value) : Except Error Bool)) kept) =
        .ok ((list.filter test).reverse ++ kept) := by
    induction list with
    | nil => exact fun kept => rfl
    | cons first list ih =>
        intro kept
        rw [List.filterAuxM]
        cases answer : test first <;> simp [answer, ih, bind, Except.bind]
  rw [List.filterM, collected, List.append_nil]
  exact congrArg Except.ok (List.reverse_reverse _)

namespace Session

theorem steady_applySelector (config : EngineConfig) (tree : Tree) (selector : String)
    (scope : NodeId) (candidates : List NodeId) :
    Cached.Steady base (applySelector tree selector scope candidates config).run
      (UncachedSession.applySelector tree selector scope candidates config) := by
  refine Compiling.Agree.steady_bind
    (fun _ sound => config.agree_parse_renewed sound selector) ?_ ?_
  · intro error refused
    have afresh : config.withSelector selector (SelectorList.apply tree scope candidates) = _ :=
      config.afresh_bind_of_error (fun config => config.parse selector) _ refused
    rw [UncachedSession.applySelector, afresh]
    rfl
  · intro later peerLater sound peerSound first second ran alike
    obtain ⟨kept, keeps, peerKeeps⟩ := alike.coincide_apply sound peerSound tree scope candidates
    choose holds tests peerTests using alike.coincide_holds sound peerSound tree
    have afresh : ∀ {γ : Type} {use : SelectorList → Cached γ} {result : γ},
        Cached.Steady peerLater (use second) result →
          config.withSelector selector use = .ok result := fun steady =>
      (config.afresh_bind_of_ok (fun config => config.parse selector) _ ran).trans
        (congrArg Except.ok (steady.runOn_fst peerSound))
    have outcome : UncachedSession.applySelector tree selector scope candidates config =
        .ok (kept, candidates.map holds) := by
      have holdsAfresh : ∀ node, (config.withSelector selector fun selectors =>
          SelectorList.holds selectors tree node) = .ok (holds node) :=
        fun node => afresh (peerTests node)
      rw [UncachedSession.applySelector, afresh peerKeeps]
      simp only [holdsAfresh, mapM_ok]
      rfl
    rw [outcome]
    have flags := Cached.Steady.mapM fun node (_ : node ∈ candidates) => tests node
    exact keeps.lift_bind (flags.lift_bind (.pure _))

theorem steady_applyPseudoClass (config : EngineConfig) (tree : Tree) (name : String)
    (argument : Option String) (scope : NodeId) (candidates : List NodeId)
    (limit : Option Nat) :
    Cached.Steady base
      (applyPseudoClass tree name argument scope candidates limit config).run
      (UncachedSession.applyPseudoClass tree name argument scope candidates limit config) := by
  refine Compiling.Agree.steady_bind
    (fun _ sound => config.agree_pseudoClass_renewed sound name argument) ?_ ?_
  · intro error refused
    have afresh : (config.withPseudoClass name argument fun condition =>
        condition.retain tree scope candidates) = _ :=
      config.afresh_bind_of_error (fun config => config.pseudoClass name argument) _ refused
    rw [UncachedSession.applyPseudoClass, afresh]
    rfl
  · intro later peerLater sound peerSound first second ran alike
    have afresh : ∀ {γ : Type} {use : PseudoClass → Cached γ} {result : γ},
        Cached.Steady peerLater (use second) result →
          config.withPseudoClass name argument use = .ok result := fun steady =>
      (config.afresh_bind_of_ok (fun config => config.pseudoClass name argument) _ ran).trans
        (congrArg Except.ok (steady.runOn_fst peerSound))
    obtain ⟨kept, keeps, peerKeeps⟩ := alike.coincide_retain sound peerSound tree scope candidates
    choose holds tests peerTests using alike.coincide_holds sound peerSound tree
    choose children walks peerWalks using alike.coincide_children sound peerSound tree limit
    have outcome :
        UncachedSession.applyPseudoClass tree name argument scope candidates limit config =
          .ok ((List.range tree.size).filter holds, (List.range tree.size).map children, kept) := by
      have holdsAfresh : ∀ node, (config.withPseudoClass name argument fun condition =>
          condition.holds tree node) = .ok (holds node) := fun node => afresh (peerTests node)
      have childrenAfresh : ∀ container, (config.withPseudoClass name argument fun condition =>
          condition.childWalk tree container >>= ChildWalk.take tree limit) =
            .ok (children container) := fun container => afresh (peerWalks container)
      rw [UncachedSession.applyPseudoClass, afresh peerKeeps]
      simp only [holdsAfresh, childrenAfresh, mapM_ok, filterM_ok]
      rfl
    rw [outcome]
    have holding := Cached.Steady.filterM fun node (_ : node ∈ List.range tree.size) => tests node
    have enumerated := Cached.Steady.mapM fun node (_ : node ∈ List.range tree.size) => walks node
    exact holding.lift_bind (enumerated.lift_bind (keeps.lift_bind (.pure _)))

theorem steady_isNth (config : EngineConfig) (tree : Tree) (formula : String)
    (counting : Counting) (node : NodeId) :
    Cached.Steady base (isNth tree formula counting node).run
      (config.afresh fun _ => isNth tree formula counting node) := by
  refine config.steady_afresh (fun _ => isNth tree formula counting node) fun _ sound =>
    (Formula.agree_compile sound (EngineConfig.sound_newCache _) formula).bind ?_
  intro later peerLater isLater isPeerLater first second same
  obtain ⟨holds, tests, peerTests⟩ := (PseudoClass.Alike.nth counting same).coincide_holds
    isLater.2 isPeerLater.2 tree node
  exact .ofSteady isLater.2 isPeerLater.2 tests peerTests rfl

theorem steady_isNth_each (config : EngineConfig) (tree : Tree) (nodes : List NodeId)
    (formula : String) (counting : Counting) :
    Cached.Steady base
      (.ok <$> nodes.mapM fun node => (isNth tree formula counting node).run :
        Cached (Except Error (List (Except Error Bool))))
      (.ok (nodes.map fun node => config.afresh fun _ => isNth tree formula counting node)) :=
  (Cached.Steady.mapM fun node _ => steady_isNth config tree formula counting node).map Except.ok

theorem steady_nthChildren (config : EngineConfig) (tree : Tree) (container : NodeId)
    (formula : String) (counting : Counting) (limit : Option Nat) :
    Cached.Steady base (nthChildren tree container formula counting limit).run
      (config.afresh fun _ => nthChildren tree container formula counting limit) := by
  refine config.steady_afresh (fun _ => nthChildren tree container formula counting limit)
    fun _ sound => (Formula.agree_compile sound (EngineConfig.sound_newCache _) formula).bind ?_
  intro later peerLater isLater isPeerLater first second same
  obtain ⟨children, walks, peerWalks⟩ := (PseudoClass.Alike.nth counting same).coincide_children
    isLater.2 isPeerLater.2 tree limit container
  exact .ofSteady isLater.2 isPeerLater.2 walks peerWalks rfl

end Session

theorem FormulaSource.agree_read (source : FormulaSource) (sound : cache.Sound)
    (peerSound : peer.Sound) :
    Compiling.Agree cache peer source.read source.read Formula.SameText := by
  cases source with
  | formula text => exact Formula.agree_compile sound peerSound text
  | request text => exact (Formula.agree_request sound peerSound text).map fun _ _ _ _ same => same

namespace Formula

theorem SameText.sameButEntry {first second : Formula}
    (same : SameText cache peer first second) : SameButEntry first second := by
  cases same with
  | literal position => exact .literal position
  | expression _ _ _ => exact .expression _ _

theorem SameText.coincide_matchesIndex {first second : Formula} (sound : cache.Sound)
    (peerSound : peer.Sound) (same : SameText cache peer first second) (index : Nat) :
    Cached.Coincide cache peer (first.matchesIndex index) (second.matchesIndex index) := by
  refine ⟨_, same.known.steady sound index, ?_⟩
  rw [same.answer_eq sound peerSound]
  exact same.peerKnown.steady peerSound index

/-- Whether a formula selects a position that it is asked for directly. -/
def selectsPosition (cache : FormulaCache) (formula : Formula) (position : Int) : Bool :=
  match formula with
  | literal only => only == position
  | expression entry => (cache.contains entry position).1

theorem SameText.selectsPosition_eq {first second : Formula} (sound : cache.Sound)
    (peerSound : peer.Sound) (same : SameText cache peer first second) :
    first.selectsPosition cache = second.selectsPosition peer := by
  funext position
  cases same with
  | literal only => rfl
  | expression found peerFound text =>
      exact SameText.contains_eq sound peerSound (.expression found peerFound text) position

theorem Known.sameText {formula : Formula} (known : formula.Known cache) :
    SameText cache cache formula formula := by
  cases formula with
  | literal position => exact .literal position
  | expression entry =>
      have found := Array.getElem?_eq_getElem known
      exact .expression found found rfl

/-- The direct answers for some positions, without what else is told. -/
theorem Known.steady_askPositions {formula : Formula} (known : formula.Known base)
    (sound : base.Sound) (positions : List Int) :
    Cached.Steady base (List.map Prod.fst <$> Session.askPositions formula positions)
      (positions.map (formula.selectsPosition base)) := by
  rw [Session.askPositions, Cached.map_mapM]
  refine Cached.Steady.mapM fun position _ => ?_
  cases formula with
  | literal only => exact .pure _
  | expression entry =>
      intro cache extension cacheSound
      have same := known.sameText.later (.refl sound) ⟨extension, cacheSound⟩
      refine ⟨(SameText.contains_eq sound cacheSound same position).symm, ?_, ?_⟩
      · exact extension.trans (FormulaCache.Extends.contains cache entry position)
      · exact cacheSound.contains entry position

end Formula

end CssQuery
