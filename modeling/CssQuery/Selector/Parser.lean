import CssQuery.Selector.Token

/-!
# Reading selectors

The reader goes over the tokens of a selector list once.  Space means nothing
beside a combinator or a comma and at either end; between two compound
selectors it is itself the descendant combinator.  What a run of space means
is therefore open until the token behind it is known, and `SelectorReading`
keeps it open.

Pseudo-classes are built as soon as they are read, by a function that the
reader is given.
-/

namespace CssQuery

/-- Where the reader stands in a complex selector. -/
inductive SelectorReading where
  /-- A compound selector must begin. -/
  | opening
  | compound (conditions : CompoundSelector)
  /-- A compound selector has been read, and space behind it. -/
  | spaced (conditions : CompoundSelector)

/-- What has been read of a selector list. -/
structure SelectorProgress where
  /-- The complex selectors before the last comma. -/
  complete : SelectorList := []
  /-- The chain to the left of the compound selector being read. -/
  chain : List (Combinator × CompoundSelector) := []
  reading : SelectorReading := .opening

/-- A way to build a pseudo-class from its name and its argument. -/
abbrev PseudoClassBuilder :=
  String → Option (List Char) → Compiling PseudoClass

namespace SelectorProgress

/-- Adds a condition to the compound selector being read, or begins one. -/
def addCondition (progress : SelectorProgress) (condition : SimpleSelector) :
    SelectorProgress :=
  match progress.reading with
  | .opening => { progress with reading := .compound [condition] }
  | .compound conditions =>
      { progress with reading := .compound (conditions ++ [condition]) }
  | .spaced conditions =>
      { progress with
        chain := (.descendant, conditions) :: progress.chain
        reading := .compound [condition] }

/-- The error that a token is none of those that may come next. -/
def refuse (progress : SelectorProgress) (placed : Placed SelectorToken) : Error :=
  match progress.reading with
  | .compound _ => placed.unexpected "\",\""
  | .opening | .spaced _ => placed.unexpected "a selector"

/-- Adds a condition that only the beginning of a compound selector allows. -/
def beginWith (progress : SelectorProgress) (placed : Placed SelectorToken)
    (condition : SimpleSelector) : Compiling SelectorProgress :=
  match progress.reading with
  | .compound _ => throw (progress.refuse placed)
  | .opening | .spaced _ => pure (progress.addCondition condition)

/-- Reads one token of a selector list. -/
def readToken (build : PseudoClassBuilder) (progress : SelectorProgress)
    (placed : Placed SelectorToken) : Compiling SelectorProgress :=
  match placed.token with
  | .space =>
      match progress.reading with
      | .compound conditions => pure { progress with reading := .spaced conditions }
      | .opening | .spaced _ => pure progress
  | .combinator combinator =>
      match progress.reading with
      | .opening => throw (progress.refuse placed)
      | .compound conditions | .spaced conditions =>
          pure { progress with
            chain := (combinator, conditions) :: progress.chain
            reading := .opening }
  | .comma =>
      match progress.reading with
      | .opening => throw (progress.refuse placed)
      | .compound conditions | .spaced conditions =>
          pure ⟨progress.complete ++ [.mk conditions progress.chain], [], .opening⟩
  | .star => progress.beginWith placed .universal
  | .name name =>
      progress.beginWith placed (.hasTag (lowercaseAscii (String.ofList name)))
  | .hash name => pure (progress.addCondition (.hasId (String.ofList name)))
  | .dot name => pure (progress.addCondition (.hasClass (String.ofList name)))
  | .brackets body => do
      let condition ← liftExcept (AttributeSelector.parse body)
      return progress.addCondition (.hasAttribute condition)
  | .colon name argument => do
      let condition ← build (String.ofList name) argument
      return progress.addCondition (.pseudoClass condition)
  | .broken error => throw error
  | .other => throw (progress.refuse placed)
where
  /-- Raises the error of a result, if it is one. -/
  liftExcept {α : Type} (result : Except Error α) : Compiling α :=
    ExceptT.mk (pure result)

/-- Completes the last complex selector at the end of a text. -/
def finish (length : Nat) (progress : SelectorProgress) : Except Error SelectorList :=
  match progress.reading with
  | .opening =>
      if progress.complete.isEmpty && progress.chain.isEmpty then
        .error (.scan (.state length "empty selector"))
      else .error (unexpectedEnd length "a selector")
  | .compound conditions | .spaced conditions =>
      .ok (progress.complete ++ [.mk conditions progress.chain])

end SelectorProgress

/-- Reads a selector list, with a way to build its pseudo-classes. -/
def SelectorList.parse (build : PseudoClassBuilder) (text : List Char) :
    Compiling SelectorList := do
  let progress ←
    (SelectorToken.read text).foldlM (SelectorProgress.readToken build) {}
  ExceptT.mk (pure (progress.finish text.length))

end CssQuery
