import CssQuery.Session.Basic

/-!
# Session commands

Everything that can be asked of a session, as values: changes of its tree and
queries by its engines.  Carrying out a command answers it and leads to the
next session.
-/

namespace CssQuery

/-- A change of a tree. -/
inductive TreeCommand where
  | createElement (tag : String) (attributes : List (String × String))
  | createText (text : String)
  | createComment (text : String)
  | appendElement (parent : NodeId) (tag : String)
  | appendText (parent : NodeId) (text : String)
  | appendChild (parent child : NodeId)
  | insertBefore (parent child reference : NodeId)
  | removeChild (parent child : NodeId)
  | internTag (tag : String)
deriving DecidableEq, Repr

/-- Carries out a change; the answer is the node created or the number of the
tag name, if there is one. -/
def Tree.perform (tree : Tree) : TreeCommand → Option Nat × Tree
  | .createElement tag attributes => (tree.createElement tag attributes).map some id
  | .createText text => (tree.createText text).map some id
  | .createComment text => (tree.createComment text).map some id
  | .appendElement parent tag => (tree.appendElement parent tag).map some id
  | .appendText parent text => (tree.appendText parent text).map some id
  | .appendChild parent child => (none, tree.appendChild parent child)
  | .insertBefore parent child reference =>
      (none, tree.insertBefore parent child reference)
  | .removeChild parent child => (none, tree.removeChild parent child)
  | .internTag tag => (tree.internTag tag).map some id

/-- Something to ask of a session. -/
inductive SessionCommand where
  | change (command : TreeCommand)
  | select (engine : Nat) (root : NodeId) (selector : String)
  | parse (engine : Nat) (selector : String)
  /-- Filters candidates by a selector, and tests each of them on its own. -/
  | apply (engine : Nat) (selector : String) (scope : NodeId)
      (candidates : List NodeId)
  | compile (engine : Nat) (selector name : String)
  | run (program : String) (scope : NodeId) (candidates : List NodeId)
  /-- Tests all nodes by a pseudo-class, enumerates the children of each up to
  a limit, and filters candidates. -/
  | pseudoClass (engine : Nat) (name : String) (argument : Option String)
      (scope : NodeId) (candidates : List NodeId) (limit : Option Nat)
  | formula (engine : Nat) (text : String)
  /-- Keeps a formula whose text is used as it is. -/
  | request (engine : Nat) (text : String)
  /-- Asks a kept formula for positions, counted from one. -/
  | contains (handle : Nat) (positions : List Int)
  /-- Asks a kept formula for indices, counted from zero. -/
  | matchesIndex (handle : Nat) (indices : List Nat)
  /-- Asks for nodes whether a formula selects them among their siblings. -/
  | isNth (engine : Nat) (nodes : List NodeId) (formula : String)
      (counting : Counting)
  /-- Enumerates the children of a container that a formula selects. -/
  | nthChildren (engine : Nat) (container : NodeId) (formula : String)
      (counting : Counting) (limit : Option Nat)

/-- What a session answers. -/
inductive SessionAnswer where
  | changed (created : Option Nat)
  | nodes (nodes : List NodeId)
  | selectors (selectors : SelectorList)
  | applied (kept : List NodeId) (holds : List Bool)
  | compiled
  | pseudoClass (holding : List NodeId) (children : List (List NodeId))
      (kept : List NodeId)
  | kept (handle : Nat)
  /-- For each position whether it is selected, and the greatest position that
  has then been decided. -/
  | positions (answers : List (Bool × Int))
  | flags (flags : List Bool)
  | results (results : List (Except Error Bool))
  | failed (error : Error)

namespace Session

/-- The answer for a result that may be an error. -/
def answer {α : Type} (onSuccess : α → SessionAnswer) :
    Except Error α × Session → SessionAnswer × Session
  | (.ok value, session) => (onSuccess value, session)
  | (.error error, session) => (.failed error, session)

/-- Whether a formula selects a node among its siblings. -/
def isNth (tree : Tree) (formula : String) (counting : Counting) (node : NodeId) :
    Compiling Bool := do
  let formula ← Formula.compile formula
  NodeTest.holds (.nth formula counting) tree node

/-- The first children of a container that a formula selects. -/
def nthChildren (tree : Tree) (container : NodeId) (formula : String)
    (counting : Counting) (limit : Option Nat) : Compiling (List NodeId) := do
  let formula ← Formula.compile formula
  (ChildWalk.counted (NthWalk.start tree container formula counting)).take tree limit

def applySelector (tree : Tree) (selector : String) (scope : NodeId)
    (candidates : List NodeId) (config : EngineConfig) :
    Compiling (List NodeId × List Bool) := do
  let selectors ← config.parse selector
  let kept ← SelectorList.apply tree scope candidates selectors
  let holds ← (candidates.mapM (SelectorList.holds selectors tree) : Cached (List Bool))
  return (kept, holds)

def applyPseudoClass (tree : Tree) (name : String) (argument : Option String)
    (scope : NodeId) (candidates : List NodeId) (limit : Option Nat)
    (config : EngineConfig) :
    Compiling (List NodeId × List (List NodeId) × List NodeId) := do
  let condition ← config.pseudoClass name argument
  let nodes := List.range tree.size
  let holding ← (nodes.filterM (condition.holds tree) : Cached (List NodeId))
  let children ← (nodes.mapM fun container => do
    let walk ← condition.childWalk tree container
    walk.take tree limit : Cached (List (List NodeId)))
  let kept ← condition.retain tree scope candidates
  return (holding, children, kept)

def askPositions (formula : Formula) (positions : List Int) :
    Cached (List (Bool × Int)) :=
  positions.mapM fun position =>
    match formula with
    | .literal only => pure (only == position, 0)
    | .expression entry => do
        let selected ← (fun cache => cache.contains entry position : Cached Bool)
        return (selected, (← get).maxIndex entry)

def perform (session : Session) : SessionCommand → SessionAnswer × Session
  | .change command =>
      let changed := session.tree.perform command
      (.changed changed.1, { session with tree := changed.2 })
  | .select engine root selector =>
      answer .nodes (session.withEngine engine fun config =>
        config.select session.tree root selector)
  | .parse engine selector =>
      answer .selectors (session.withEngine engine fun config =>
        config.parse selector)
  | .apply engine selector scope candidates =>
      answer (fun result => .applied result.1 result.2)
        (session.withEngine engine
          (applySelector session.tree selector scope candidates))
  | .compile engine selector name =>
      match session.withEngine engine fun config => config.parse selector with
      | (.ok selectors, after) =>
          (.compiled,
            after.addProgram ⟨name, selector, selectors, (session.engine engine).cache⟩)
      | (.error error, after) => (.failed error, after)
  | .run name scope candidates =>
      match session.program? name with
      | some program =>
          let result := session.withCache program.cache
            (SelectorList.apply session.tree scope candidates program.selectors)
          (.nodes result.1, result.2)
      | none => (.nodes [], session)
  | .pseudoClass engine name argument scope candidates limit =>
      answer (fun result => .pseudoClass result.1 result.2.1 result.2.2)
        (session.withEngine engine
          (applyPseudoClass session.tree name argument scope candidates limit))
  | .formula engine text =>
      keepFormula engine (session.withEngine engine fun _ => Formula.compile text)
  | .request engine text =>
      keepFormula engine (session.withEngine engine fun _ =>
        Formula.expression <$> Formula.request text)
  | .contains handle positions =>
      match session.handles[handle]? with
      | some kept =>
          let result := session.withCache kept.cache
            (askPositions kept.formula positions)
          (.positions result.1, result.2)
      | none => (.positions [], session)
  | .matchesIndex handle indices =>
      match session.handles[handle]? with
      | some kept =>
          let result := session.withCache kept.cache
            (indices.mapM kept.formula.matchesIndex)
          (.flags result.1, result.2)
      | none => (.flags [], session)
  | .isNth engine nodes formula counting =>
      let results := session.withEngine engine fun _ =>
        ExceptT.mk (.ok <$> nodes.mapM fun node =>
          (isNth session.tree formula counting node).run)
      answer .results results
  | .nthChildren engine container formula counting limit =>
      answer .nodes (session.withEngine engine fun _ =>
        nthChildren session.tree container formula counting limit)
where
  /-- Keeps a formula that an engine has read. -/
  keepFormula (engine : Nat) : Except Error Formula × Session → SessionAnswer × Session
    | (.ok formula, after) =>
        let added := after.addHandle ⟨formula, (after.engine engine).cache⟩
        (.kept added.1, added.2)
    | (.error error, after) => (.failed error, after)

end Session

end CssQuery
