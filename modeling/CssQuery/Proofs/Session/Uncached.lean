import CssQuery.Proofs.Formula.History
import CssQuery.Proofs.Formula.Running
import CssQuery.Proofs.Selector.Alike
import CssQuery.Session.Command

/-!
# Sessions without a cache

What a session has to answer can be said without the formula caches.  Every
single question goes to a new engine, with the same regard to letter case and
an empty cache without bounds, which is thrown away as soon as it has answered.
Nothing that has been compiled is kept: behind the name of a program or the
number of a formula stands its text, which is read again for each question.
-/

namespace CssQuery

variable {α : Type}

namespace EngineConfig

/-- The settings of a new engine that treats letter case alike. -/
def renewed (config : EngineConfig) : EngineConfig :=
  { caseSensitiveContains := config.caseSensitiveContains }

/-- What a new engine answers that has not been asked anything before. -/
def afresh (config : EngineConfig) (query : EngineConfig → Compiling α) : Except Error α :=
  ((query config.renewed).runOn config.renewed.newCache).1

/-- What comes of a selector that a new engine reads. -/
def withSelector (config : EngineConfig) (selector : String)
    (use : SelectorList → Cached α) : Except Error α :=
  config.afresh fun config => do
    let selectors ← config.parse selector
    use selectors

/-- What comes of a pseudo-class that a new engine builds. -/
def withPseudoClass (config : EngineConfig) (name : String) (argument : Option String)
    (use : PseudoClass → Cached α) : Except Error α :=
  config.afresh fun config => do
    let condition ← config.pseudoClass name argument
    use condition

end EngineConfig

/-- The text of a program and the settings under which it was compiled. -/
structure ProgramSource where
  config : EngineConfig
  selector : String

/-- The text of a formula that is kept. -/
inductive FormulaSource where
  | formula (text : String)
  /-- The text is used as it is. -/
  | request (text : String)

namespace FormulaSource

def read : FormulaSource → Compiling Formula
  | formula text => Formula.compile text
  | request text => Formula.expression <$> Formula.request text

/-- What comes of a formula that a new engine reads. -/
def withFormula (source : FormulaSource) (use : Formula → Cached α) : Except Error α :=
  ({} : EngineConfig).afresh fun _ => do
    let formula ← source.read
    use formula

end FormulaSource

/-- A tree with the settings of the engines and the texts that were compiled. -/
structure UncachedSession where
  tree : Tree := Tree.empty
  configs : List EngineConfig := []
  programs : String → Option ProgramSource := fun _ => none
  handles : List FormulaSource := []

namespace UncachedSession

def config (session : UncachedSession) (engine : Nat) : EngineConfig :=
  session.configs[engine]?.getD {}

def answer (onSuccess : α → SessionAnswer) : Except Error α → SessionAnswer
  | .ok value => onSuccess value
  | .error error => .failed error

/-- One engine filters the candidates, and a further one tests each of them. -/
def applySelector (tree : Tree) (selector : String) (scope : NodeId)
    (candidates : List NodeId) (config : EngineConfig) :
    Except Error (List NodeId × List Bool) := do
  let kept ← config.withSelector selector (SelectorList.apply tree scope candidates)
  let holds ← candidates.mapM fun node =>
    config.withSelector selector fun selectors => SelectorList.holds selectors tree node
  return (kept, holds)

/-- One engine filters the candidates, a further one tests each node, and a
further one enumerates each node's children. -/
def applyPseudoClass (tree : Tree) (name : String) (argument : Option String)
    (scope : NodeId) (candidates : List NodeId) (limit : Option Nat) (config : EngineConfig) :
    Except Error (List NodeId × List (List NodeId) × List NodeId) := do
  let kept ← config.withPseudoClass name argument fun condition =>
    condition.retain tree scope candidates
  let nodes := List.range tree.size
  let holding ← nodes.filterM fun node =>
    config.withPseudoClass name argument fun condition => condition.holds tree node
  let children ← nodes.mapM fun container =>
    config.withPseudoClass name argument fun condition =>
      condition.childWalk tree container >>= ChildWalk.take tree limit
  return (holding, children, kept)

def perform (session : UncachedSession) : SessionCommand → SessionAnswer × UncachedSession
  | .change command =>
      let changed := session.tree.perform command
      (.changed changed.1, { session with tree := changed.2 })
  | .select engine root selector =>
      (answer .nodes ((session.config engine).afresh fun config =>
        config.select session.tree root selector), session)
  | .parse engine selector =>
      (answer .selectors ((session.config engine).afresh fun config =>
        config.parse selector), session)
  | .apply engine selector scope candidates =>
      (answer (fun result => .applied result.1 result.2)
        (applySelector session.tree selector scope candidates (session.config engine)), session)
  | .compile engine selector name =>
      match (session.config engine).afresh fun config => config.parse selector with
      | .ok _ =>
          (.compiled,
            { session with
              programs := fun other =>
                if name = other then some ⟨session.config engine, selector⟩
                else session.programs other })
      | .error error => (.failed error, session)
  | .run name scope candidates =>
      match session.programs name with
      | some program =>
          (answer .nodes (program.config.withSelector program.selector
            (SelectorList.apply session.tree scope candidates)), session)
      | none => (.nodes [], session)
  | .pseudoClass engine name argument scope candidates limit =>
      (answer (fun result => .pseudoClass result.1 result.2.1 result.2.2)
        (applyPseudoClass session.tree name argument scope candidates limit
          (session.config engine)), session)
  | .formula _ text => keepFormula (.formula text)
  | .request _ text => keepFormula (.request text)
  | .contains handle positions =>
      match session.handles[handle]? with
      | some source =>
          (answer (fun answers => .positions answers.flatten) (positions.mapM fun position =>
            source.withFormula fun formula => Session.askPositions formula [position]), session)
      | none => (.positions [], session)
  | .matchesIndex handle indices =>
      match session.handles[handle]? with
      | some source =>
          (answer .flags (indices.mapM fun index =>
            source.withFormula fun formula => formula.matchesIndex index), session)
      | none => (.flags [], session)
  | .isNth engine nodes formula counting =>
      (.results (nodes.map fun node => (session.config engine).afresh fun _ =>
        Session.isNth session.tree formula counting node), session)
  | .nthChildren engine container formula counting limit =>
      (answer .nodes ((session.config engine).afresh fun _ =>
        Session.nthChildren session.tree container formula counting limit), session)
where
  /-- Keeps the text of a formula if a new engine accepts it. -/
  keepFormula (source : FormulaSource) : SessionAnswer × UncachedSession :=
    match ({} : EngineConfig).afresh fun _ => source.read with
    | .ok _ =>
        (.kept session.handles.length, { session with handles := session.handles ++ [source] })
    | .error error => (.failed error, session)

/-- The answers to a row of commands. -/
def answers (session : UncachedSession) : List SessionCommand → List SessionAnswer
  | [] => []
  | command :: later =>
      let performed := session.perform command
      performed.1 :: answers performed.2 later

end UncachedSession

/-- A session on an empty tree, with a cache for each capacity, in which nothing
has been asked yet. -/
def Session.start (engines : List SessionEngine) (capacities : List (Option Nat)) : Session :=
  { engines := engines, caches := capacities.map FormulaCache.empty }

/-- The answers to a row of commands. -/
def Session.answers (session : Session) : List SessionCommand → List SessionAnswer
  | [] => []
  | command :: later =>
      let performed := session.perform command
      performed.1 :: answers performed.2 later

/-- The same position, or any two entries. -/
inductive Formula.SameButEntry : Formula → Formula → Prop
  | literal (position : Int) : SameButEntry (literal position) (literal position)
  | expression (id other : EntryId) : SameButEntry (expression id) (expression other)

/-- The same answer, apart from the numbers of entries and from how far an
entry has been decided. -/
inductive SessionAnswer.Agrees : SessionAnswer → SessionAnswer → Prop
  | same (answer : SessionAnswer) : Agrees answer answer
  | selectors {first second : SelectorList}
      (alike : SelectorList.Alike Formula.SameButEntry first second) :
      Agrees (.selectors first) (.selectors second)
  | positions {first second : List (Bool × Int)}
      (selected : first.map Prod.fst = second.map Prod.fst) :
      Agrees (.positions first) (.positions second)

end CssQuery
