import CssQuery.Dom.Links
import CssQuery.Engine

/-!
# Sessions

A session is a tree with engines that query it.  Engines may have a formula
cache each or share one.  Compiled selectors and formulas are kept under a
name or a number; they stay with the cache in which they were compiled, and
the tree may change between their uses.
-/

namespace CssQuery

/-- An engine of a session. -/
structure SessionEngine where
  config : EngineConfig
  cache : Nat
deriving DecidableEq, Repr

/-- A selector compiled under a name. -/
structure Program where
  name : String
  source : String
  selectors : SelectorList
  cache : Nat

/-- A formula kept under a number. -/
structure FormulaHandle where
  formula : Formula
  cache : Nat
deriving DecidableEq, Repr

/-- A tree with engines and what they have compiled. -/
structure Session where
  tree : Tree := Tree.empty
  engines : List SessionEngine := []
  caches : List FormulaCache := []
  programs : List Program := []
  handles : List FormulaHandle := []

namespace Session

/-- Adds an engine that uses an existing cache. -/
def addEngine (session : Session) (config : EngineConfig) (cache : Nat) : Session :=
  { session with engines := session.engines ++ [⟨config, cache⟩] }

def addCache (session : Session) (cache : FormulaCache) : Nat × Session :=
  (session.caches.length, { session with caches := session.caches ++ [cache] })

/-- Adds an engine with a cache of its own. -/
def addOwnEngine (session : Session) (config : EngineConfig) : Session :=
  let added := session.addCache config.newCache
  added.2.addEngine config added.1

/-- The engine with the given number; an engine without settings on the first
cache if there is none. -/
def engine (session : Session) (index : Nat) : SessionEngine :=
  session.engines[index]?.getD ⟨{}, 0⟩

def cache (session : Session) (index : Nat) : FormulaCache :=
  session.caches[index]?.getD {}

/-- Runs a computation on one cache of the session. -/
def withCache {α : Type} (session : Session) (index : Nat) (run : Cached α) :
    α × Session :=
  let result := run (session.cache index)
  (result.1, { session with caches := session.caches.set index result.2 })

/-- Runs a computation on the cache of an engine. -/
def withEngine {α : Type} (session : Session) (index : Nat)
    (run : EngineConfig → Compiling α) : Except Error α × Session :=
  let engine := session.engine index
  session.withCache engine.cache (run engine.config).run

def addHandle (session : Session) (handle : FormulaHandle) : Nat × Session :=
  (session.handles.length, { session with handles := session.handles ++ [handle] })

/-- The smallest number under which the very same formula is kept. -/
def sameHandle (session : Session) (handle : FormulaHandle) : Nat :=
  session.handles.idxOf handle

/-- Keeps a program under its name in place of an older one. -/
def addProgram (session : Session) (program : Program) : Session :=
  { session with
    programs := program :: session.programs.filter (·.name != program.name) }

def program? (session : Session) (name : String) : Option Program :=
  session.programs.find? (·.name == name)

end Session

end CssQuery
