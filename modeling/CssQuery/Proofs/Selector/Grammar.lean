import CssQuery.Proofs.Token.Locality
import CssQuery.Selector.Parser
import CssQuery.Selector.Specificity

/-!
# The grammar of selector lists

A selector list is written on two levels.  `SelectorToken.Spells` says with
which characters a token is written.  A syntax tree says which compound
selectors and conditions there are; `Layout` says in which orders of tokens,
with how much space between them, a tree can be written.

    list      := ws* complex ws* (',' list)?
    complex   := compound ((ws* ('>' | '+' | '~') ws* | ws+) compound)*
    compound  := ('*' | ident)? condition*, and not empty
    condition := '#' ident | '.' ident | '[' body ']' | ':' ident ('(' arg ')')?

The trees are built in the order in which they are written, since the formulas
in a selector list are requested from one cache.
-/

namespace CssQuery

/-- A token with the characters that spell it. -/
inductive SelectorToken.Spells : SelectorToken → List Char → Prop
  | space {c : Char} (blank : isSpace c = true) : Spells .space [c]
  | child : Spells (.combinator .child) ['>']
  | nextSibling : Spells (.combinator .nextSibling) ['+']
  | subsequentSibling : Spells (.combinator .subsequentSibling) ['~']
  | comma : Spells .comma [',']
  | star : Spells .star ['*']
  | name {word : List Char} (identifier : IsIdentifier word) : Spells (.name word) word
  | hash {word : List Char} (identifier : IsIdentifier word) : Spells (.hash word) ('#' :: word)
  | dot {word : List Char} (identifier : IsIdentifier word) : Spells (.dot word) ('.' :: word)
  | brackets {body : List Char} (span : IsSpan bracketBounds body) :
      Spells (.brackets body) ('[' :: body ++ [']'])
  | colon {word : List Char} (identifier : IsIdentifier word) :
      Spells (.colon word none) (':' :: word)
  | call {word argument : List Char} (identifier : IsIdentifier word)
      (span : IsSpan argumentBounds argument) :
      Spells (.colon word (some argument)) (':' :: word ++ ('(' :: argument ++ [')']))

/-- A row of tokens with the characters that spell it. -/
inductive SelectorToken.Lexes : List SelectorToken → List Char → Prop
  | nil : Lexes [] []
  | cons {token : SelectorToken} {tokens : List SelectorToken} {text rest : List Char}
      (spells : token.Spells text) (later : Lexes tokens rest) :
      Lexes (token :: tokens) (text ++ rest)

/-- What only the beginning of a compound selector allows. -/
inductive HeadSyntax where
  | star
  | name (word : List Char)

/-- What may follow in a compound selector. -/
inductive ConditionSyntax where
  | hash (word : List Char)
  | dot (word : List Char)
  | brackets (body : List Char)
  | colon (word : List Char) (argument : Option (List Char))

structure CompoundSyntax where
  head : Option HeadSyntax
  conditions : List ConditionSyntax
  nonempty : head ≠ none ∨ conditions ≠ []

/-- A complex selector as it is written: its first compound selector, and the
others with the combinators before them. -/
structure ComplexSyntax where
  first : CompoundSyntax
  links : List (Combinator × CompoundSyntax)

section Layout

def HeadSyntax.token : HeadSyntax → SelectorToken
  | star => .star
  | name word => .name word

def ConditionSyntax.token : ConditionSyntax → SelectorToken
  | hash word => .hash word
  | dot word => .dot word
  | brackets body => .brackets body
  | colon word argument => .colon word argument

def CompoundSyntax.tokens (compound : CompoundSyntax) : List SelectorToken :=
  compound.head.toList.map HeadSyntax.token ++ compound.conditions.map ConditionSyntax.token

def blanks (count : Nat) : List SelectorToken :=
  List.replicate count .space

/-- The tokens between two compound selectors. -/
inductive Combinator.Layout : Combinator → List SelectorToken → Prop
  | blank (more : Nat) : Layout .descendant (blanks (more + 1))
  | symbol (combinator : Combinator) (before after : Nat) :
      Layout combinator (blanks before ++ .combinator combinator :: blanks after)

/-- The tokens behind the first compound selector of a complex selector. -/
inductive LinksLayout : List (Combinator × CompoundSyntax) → List SelectorToken → Prop
  | nil : LinksLayout [] []
  | cons {combinator : Combinator} {compound : CompoundSyntax}
      {links : List (Combinator × CompoundSyntax)} {between later : List SelectorToken}
      (separator : combinator.Layout between) (rest : LinksLayout links later) :
      LinksLayout ((combinator, compound) :: links) (between ++ (compound.tokens ++ later))

inductive ListLayout : List ComplexSyntax → List SelectorToken → Prop
  | last (before after : Nat) {complex : ComplexSyntax} {rest : List SelectorToken}
      (links : LinksLayout complex.links rest) :
      ListLayout [complex] (blanks before ++ (complex.first.tokens ++ (rest ++ blanks after)))
  | more (before after : Nat) {complex : ComplexSyntax} {rest : List SelectorToken}
      (links : LinksLayout complex.links rest) {others : List ComplexSyntax}
      {later : List SelectorToken} (list : ListLayout others later) :
      ListLayout (complex :: others)
        (blanks before ++ (complex.first.tokens ++
          (rest ++ (blanks after ++ .comma :: later))))

/-- The text is one way to write the selector list. -/
def Derives (text : List Char) (list : List ComplexSyntax) : Prop :=
  ∃ tokens, ListLayout list tokens ∧ SelectorToken.Lexes tokens text

end Layout

section Build

variable (build : PseudoClassBuilder)

def HeadSyntax.selector : HeadSyntax → SimpleSelector
  | star => .universal
  | name word => .hasTag (lowercaseAscii (String.ofList word))

def ConditionSyntax.selector : ConditionSyntax → Compiling SimpleSelector
  | hash word => pure (.hasId (String.ofList word))
  | dot word => pure (.hasClass (String.ofList word))
  | brackets body => do
      return .hasAttribute (← ExceptT.mk (pure (AttributeSelector.parse body)))
  | colon word argument => do return .pseudoClass (← build (String.ofList word) argument)

def CompoundSyntax.selector (compound : CompoundSyntax) : Compiling CompoundSelector := do
  let conditions ← compound.conditions.mapM (ConditionSyntax.selector build)
  return compound.head.toList.map HeadSyntax.selector ++ conditions

/-- The last compound selector is the subject.  Each combinator belongs to the
compound selector on its left, and the chain begins with the last of them. -/
def ComplexSelector.assemble (first : CompoundSelector)
    (links : List (Combinator × CompoundSelector)) : ComplexSelector :=
  let compounds := first :: links.map Prod.snd
  .mk (compounds.getLast (List.cons_ne_nil _ _))
    ((links.map Prod.fst).zip compounds).reverse

def ComplexSyntax.selector (complex : ComplexSyntax) : Compiling ComplexSelector := do
  let first ← complex.first.selector build
  let links ← complex.links.mapM fun link => do return (link.1, ← link.2.selector build)
  return .assemble first links

/-- The selector list that a row of syntax trees stands for. -/
def ComplexSyntax.selectors (list : List ComplexSyntax) : Compiling SelectorList :=
  list.mapM (ComplexSyntax.selector build)

end Build

section Counts

/-- All compound selectors of a complex selector, as they are written. -/
def ComplexSyntax.compounds (complex : ComplexSyntax) : List CompoundSyntax :=
  complex.first :: complex.links.map Prod.snd

def HeadSyntax.isName : HeadSyntax → Bool
  | star => false
  | name _ => true

def ConditionSyntax.isHash : ConditionSyntax → Bool
  | hash _ => true
  | _ => false

/-- In a row of compound selectors the number of conditions that begin with
`#`, of other conditions, and of type names. -/
def CompoundSyntax.counts (compounds : List CompoundSyntax) : Specificity where
  identifiers := (compounds.flatMap CompoundSyntax.conditions).countP ConditionSyntax.isHash
  classes :=
    (compounds.flatMap CompoundSyntax.conditions).countP fun condition => !condition.isHash
  tags := (compounds.flatMap fun compound => compound.head.toList).countP HeadSyntax.isName

end Counts

end CssQuery
