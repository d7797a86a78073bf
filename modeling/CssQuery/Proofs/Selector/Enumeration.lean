import CssQuery.Proofs.Dom.Built
import CssQuery.Proofs.Formula.Walk
import CssQuery.Proofs.Selector.Compiled

/-!
# Enumerations of the children that satisfy a pseudo-class

For every pseudo-class the enumeration and the point test are two unrelated
computations.  An enumeration is either finished as soon as it is begun, or
keeps counters and asks its formula for one position after the other while it
goes on.  In both cases it has still to yield the children that satisfy the
pseudo-class among those that remain, and a step takes the first of them away.
-/

namespace CssQuery

variable {base : FormulaCache} {tree : Tree}

namespace ChildWalk

/-- The counters of the enumeration are consistent, and its formula needs no
entry that the cache does not have. -/
def Valid (tree : Tree) (cache : FormulaCache) : ChildWalk → Prop
  | ready _ => True
  | counted walk => walk.formula.Known cache ∧ walk.Consistent tree

/-- The children that an enumeration has still to yield. -/
def pending (answers : FormulaAnswers) (tree : Tree) : ChildWalk → List NodeId
  | ready children => children
  | counted walk => walk.pending answers tree

/-- The first children, up to a number of them, when other things are asked of
the cache before each step. -/
def takeAmid (tree : Tree) (between : Nat → List CacheCommand) :
    (limit : Nat) → ChildWalk → Cached (List NodeId)
  | 0, _ => pure []
  | limit + 1, walk => do
      modify fun cache => cache.run (between limit)
      match ← walk.next tree with
      | (none, _) => return []
      | (some child, behind) => return child :: (← takeAmid tree between limit behind)

theorem steady_next (tree : Tree) (baseSound : base.Sound) {walk : ChildWalk}
    (valid : walk.Valid tree base) :
    ∃ behind, Cached.Steady base (walk.next tree)
        ((walk.pending base.answers tree).head?, behind) ∧
      behind.pending base.answers tree = (walk.pending base.answers tree).tail ∧
      behind.Valid tree base := by
  cases walk with
  | ready children => exact ⟨ready children.tail, .pure _, rfl, trivial⟩
  | counted walk =>
      obtain ⟨behind, steady, rest, known, consistent⟩ :=
        walk.steady_next tree baseSound valid.1 valid.2
      exact ⟨counted behind, steady.bind (.pure _), rest, known, consistent⟩

theorem steady_take (tree : Tree) (baseSound : base.Sound) {walk : ChildWalk}
    (valid : walk.Valid tree base) (limit : Option Nat) :
    Cached.Steady base (walk.take tree limit)
      ((limit.map (walk.pending base.answers tree).take).getD
        (walk.pending base.answers tree)) := by
  cases walk with
  | ready children => exact .pure _
  | counted walk =>
      cases limit with
      | some limit => exact NthWalk.steady_take baseSound limit valid.1 valid.2
      | none =>
          have whole : Cached.Steady base (walk.toList tree) _ :=
            NthWalk.steady_take baseSound _ valid.1 valid.2
          rw [List.take_of_length_le (walk.length_pending_le base.answers)] at whole
          exact whole

theorem steady_takeAmid (tree : Tree) (baseSound : base.Sound)
    (between : Nat → List CacheCommand) (limit : Nat) {walk : ChildWalk}
    (valid : walk.Valid tree base) :
    Cached.Steady base (walk.takeAmid tree between limit)
      ((walk.pending base.answers tree).take limit) := by
  induction limit generalizing walk with
  | zero => exact .pure []
  | succ limit ih =>
      have asked : Cached.Steady base
          (modify fun cache => cache.run (between limit) : Cached Unit) () :=
        fun cache extension sound =>
          ⟨rfl, extension.trans (FormulaCache.Extends.run cache _), sound.run _⟩
      obtain ⟨behind, stepped, rest, behindValid⟩ := steady_next tree baseSound valid
      have taken := ih behindValid
      rw [rest] at taken
      rw [takeAmid]
      refine asked.bind (stepped.bind ?_)
      generalize walk.pending base.answers tree = pending at taken ⊢
      cases pending with
      | nil => exact .pure []
      | cons child later => exact taken.bind (.pure _)

end ChildWalk

/-- The children that the enumeration of a pseudo-class yields. -/
def PseudoClass.enumerated (answers : FormulaAnswers) (tree : Tree) (container : NodeId) :
    PseudoClass → List NodeId
  | .test (.structural kind) => kind.childMatches tree container
  | .test (.nth formula counting) =>
      (NthWalk.start tree container formula counting).pending answers tree
  | .test (.contains search) => (tree.childElements container).filter (search.holds tree)
  | .not inner =>
      (tree.childElements container).filter ((PseudoClass.not inner).keeps answers tree)

theorem PseudoClass.steady_childWalk (tree : Tree) (baseSound : base.Sound)
    {condition : PseudoClass} (known : condition.AllFormulas (Formula.Known base))
    (container : NodeId) :
    ∃ walk, Cached.Steady base (condition.childWalk tree container) walk ∧
      walk.Valid tree base ∧
      walk.pending base.answers tree = condition.enumerated base.answers tree container := by
  cases condition with
  | not inner =>
      have kept : Cached.Steady base ((PseudoClass.not inner).retain tree container _) _ :=
        PseudoClass.steady_retain baseSound container (tree.childElements container)
          (.not inner) known
      exact ⟨.ready _, kept.map ChildWalk.ready, trivial, rfl⟩
  | test test =>
      cases test with
      | structural kind => exact ⟨.ready _, .pure _, trivial, rfl⟩
      | contains search => exact ⟨.ready _, .pure _, trivial, rfl⟩
      | nth formula counting =>
          exact ⟨.counted _, .pure _, ⟨known, NthWalk.consistent_start _ _ _ _⟩, rfl⟩

/-- Among the element children, those enumerated are those that satisfy the
pseudo-class. -/
theorem PseudoClass.enumerated_eq_filter (linked : tree.Linked) (answers : FormulaAnswers)
    (condition : PseudoClass) (container : NodeId) :
    condition.enumerated answers tree container =
      (tree.childElements container).filter (condition.meaning answers tree) := by
  cases condition with
  | not inner =>
      exact PseudoClass.filter_keeps answers (.not inner) fun child member =>
        (List.mem_filter.mp member).2
  | test test =>
      cases test with
      | structural kind => exact kind.childMatches_eq_filter linked container
      | contains search => rfl
      | nth formula counting =>
          exact NthWalk.pendingFrom_eq_filter linked answers formula counting rfl

/-- Enumerating the children of a container that satisfy a pseudo-class, with
the counters, sets and maps that the enumeration keeps, yields its element
children that pass the point test, each once and in their order.  It does not
matter what the cache has been asked since the pseudo-class was built, before
the enumeration, between its steps or before the tests. -/
theorem PseudoClass.childWalk_eq_filter_holds {config : EngineConfig} {name : String}
    {argument : Option String} {capacity : Option Nat} {history : List CacheCommand}
    {condition : PseudoClass} {compiled : FormulaCache}
    (build : (config.pseudoClass name argument).runOn
      ((FormulaCache.empty capacity).run history) = (.ok condition, compiled))
    {tree : Tree}
    (built : tree.Built fun tree command => command.Known tree ∧ command.LoopFree tree)
    (container : NodeId) (before : List CacheCommand) (asked : NodeId → List CacheCommand) :
    let matching := (tree.children container).filter fun child =>
      tree.isElement child &&
        ((condition.holds tree child).runOn (compiled.run (asked child))).1
    matching.Nodup ∧
    (∀ limit : Option Nat,
      (Cached.runOn (condition.childWalk tree container >>= ChildWalk.take tree limit)
        (compiled.run before)).1 = (limit.map matching.take).getD matching) ∧
    ∀ (between : Nat → List CacheCommand) (limit : Nat),
      (Cached.runOn (condition.childWalk tree container >>= ChildWalk.takeAmid tree between limit)
        (compiled.run before)).1 = matching.take limit := by
  have linked := built.linked fun _ _ allowed => allowed.1
  have historySound := (FormulaCache.Sound.empty capacity).run history
  have ensured := config.ensures_pseudoClass name argument _ historySound trivial
  rw [build] at ensured
  obtain ⟨compiledSound, -, returned⟩ := ensured
  have known := returned condition rfl
  have extension := FormulaCache.Extends.run compiled
  have sound := compiledSound.run
  obtain ⟨walk, begun, valid, pending⟩ :=
    PseudoClass.steady_childWalk tree compiledSound known container
  rw [PseudoClass.enumerated_eq_filter linked] at pending
  have matching_eq : ((tree.children container).filter fun child => tree.isElement child &&
        ((condition.holds tree child).runOn (compiled.run (asked child))).1) =
      walk.pending compiled.answers tree := by
    rw [pending, Tree.childElements, List.filter_filter]
    apply List.filter_congr
    intro child _
    rw [Bool.and_comm, (PseudoClass.steady_holds compiledSound condition known child _
      (extension _) (sound _)).1]
  intro matching
  refine ⟨(linked.nodup container).filter _, fun limit => ?_, fun between limit => ?_⟩
  · have taken := begun.bind (ChildWalk.steady_take tree compiledSound valid limit)
    rw [← matching_eq] at taken
    exact (taken _ (extension before) (sound before)).1
  · have taken := begun.bind (ChildWalk.steady_takeAmid tree compiledSound between limit valid)
    rw [← matching_eq] at taken
    exact (taken _ (extension before) (sound before)).1

/-- Every other `li` and `dt`, counted from the last of its kind, among
children of which one is a text node; the entry is evicted and asked for other
positions between the steps. -/
theorem PseudoClass.childWalk_of_two_types :
    ∃ condition compiled tree,
      ((⟨none, true⟩ : EngineConfig).pseudoClass "nth-last-of-type" (some "2n+1")).runOn
          ((FormulaCache.empty (some 1)).run [.request "n"]) = (.ok condition, compiled) ∧
      (tree.Built fun tree command => command.Known tree ∧ command.LoopFree tree) ∧
      (Cached.runOn (condition.childWalk tree 1 >>= ChildWalk.takeAmid tree
          (fun limit => [.request "3n", .contains 1 (limit + 4)]) 3)
        (compiled.run [.contains 1 2])).1 = [2, 6, 7] := by
  have start : Tree.empty.Built fun tree command =>
      command.Known tree ∧ command.LoopFree tree := .empty
  have first := ((start.perform (.appendElement 0 "dl") ⟨by decide, trivial⟩).perform
    (.appendElement 1 "li") ⟨by decide, trivial⟩).perform
    (.appendText 1 " ") ⟨by decide, trivial⟩
  have second := (first.perform (.appendElement 1 "dt") ⟨by decide, trivial⟩).perform
    (.appendElement 1 "li") ⟨by decide, trivial⟩
  have third := (second.perform (.appendElement 1 "dt") ⟨by decide, trivial⟩).perform
    (.appendElement 1 "li") ⟨by decide, trivial⟩
  generalize tree_eq : (Tree.perform _ _).2 = tree at third
  have tested :
      (match ((⟨none, true⟩ : EngineConfig).pseudoClass "nth-last-of-type" (some "2n+1")).runOn
          ((FormulaCache.empty (some 1)).run [.request "n"]) with
      | (.ok condition, compiled) =>
          ((tree.children 1).filter fun child => tree.isElement child &&
            ((condition.holds tree child).runOn (compiled.run [.contains 1 child])).1) ==
              [2, 6, 7]
      | _ => false) = true := by
    subst tree_eq
    decide +kernel
  split at tested
  case h_1 condition compiled build =>
    have taken := (PseudoClass.childWalk_eq_filter_holds build third 1 [.contains 1 2]
      fun child => [.contains 1 child]).2.2
        (fun limit => [.request "3n", .contains 1 (limit + 4)]) 3
    rw [beq_iff_eq.mp tested] at taken
    exact ⟨condition, compiled, tree, build, third, taken⟩
  case h_2 => cases tested

end CssQuery
