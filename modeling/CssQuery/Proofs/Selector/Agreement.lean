import CssQuery.Engine
import CssQuery.Proofs.Formula.Agreement
import CssQuery.Proofs.Selector.Alike

/-!
# The same selector read on two caches

The reader goes over the tokens of a selector once and takes pseudo-classes
from a builder.  On two caches it takes the same steps: it refuses the same
token with the same error, and what it has read is alike up to formulas with
the same texts.  This goes through every `:not()` inside, since the builder is
itself made of a reader.
-/

namespace CssQuery

variable {cache peer : FormulaCache}

inductive SelectorReading.Alike (related : Formula → Formula → Prop) :
    SelectorReading → SelectorReading → Prop
  | opening : Alike related .opening .opening
  | compound {first second : CompoundSelector}
      (conditions : CompoundSelector.Alike related first second) :
      Alike related (.compound first) (.compound second)
  | spaced {first second : CompoundSelector}
      (conditions : CompoundSelector.Alike related first second) :
      Alike related (.spaced first) (.spaced second)

theorem SelectorReading.Alike.imp {related weaker : Formula → Formula → Prop}
    (implies : ∀ first second, related first second → weaker first second)
    {first second : SelectorReading} (alike : Alike related first second) :
    Alike weaker first second := by
  cases alike with
  | opening => exact .opening
  | compound conditions => exact .compound (CompoundSelector.Alike.imp implies conditions)
  | spaced conditions => exact .spaced (CompoundSelector.Alike.imp implies conditions)

structure SelectorProgress.Alike (related : Formula → Formula → Prop)
    (first second : SelectorProgress) : Prop where
  complete : SelectorList.Alike related first.complete second.complete
  chain : ComplexSelector.ChainAlike related first.chain second.chain
  reading : first.reading.Alike related second.reading

/-- On every two sound caches the builder agrees with itself. -/
def PseudoClassBuilder.Agrees (build : PseudoClassBuilder) : Prop :=
  ∀ {cache peer : FormulaCache}, cache.Sound → peer.Sound → ∀ name argument,
    Compiling.Agree cache peer (build name argument) (build name argument)
      fun later peerLater => PseudoClass.Alike (Formula.SameText later peerLater)

namespace SelectorProgress

theorem Alike.imp {related weaker : Formula → Formula → Prop}
    (implies : ∀ first second, related first second → weaker first second)
    {first second : SelectorProgress} (alike : Alike related first second) :
    Alike weaker first second where
  complete := SelectorList.Alike.imp implies alike.complete
  chain := ComplexSelector.ChainAlike.imp implies alike.chain
  reading := alike.reading.imp implies

/-- What has been read on two caches so far. -/
abbrev SameText (cache peer : FormulaCache) : SelectorProgress → SelectorProgress → Prop :=
  Alike (Formula.SameText cache peer)

variable {progress other : SelectorProgress}

theorem Alike.addCondition {related : Formula → Formula → Prop}
    (alike : Alike related progress other) {first second : SimpleSelector}
    (condition : SimpleSelector.Alike related first second) :
    Alike related (progress.addCondition first) (other.addCondition second) := by
  obtain ⟨complete, chain, reading⟩ := progress
  obtain ⟨otherComplete, otherChain, otherReading⟩ := other
  obtain ⟨completeAlike, chainAlike, readingAlike⟩ := alike
  dsimp only at readingAlike
  cases readingAlike with
  | opening => exact ⟨completeAlike, chainAlike, .compound (.cons condition .nil)⟩
  | compound conditions =>
      exact ⟨completeAlike, chainAlike,
        .compound (conditions.append (.cons condition .nil))⟩
  | spaced conditions =>
      exact ⟨completeAlike, .cons .descendant conditions chainAlike,
        .compound (.cons condition .nil)⟩

theorem Alike.refuse_eq {related : Formula → Formula → Prop}
    (alike : Alike related progress other) (placed : Placed SelectorToken) :
    progress.refuse placed = other.refuse placed := by
  have reading := alike.reading
  unfold refuse
  cases first : progress.reading <;> cases second : other.reading <;>
    rw [first, second] at reading <;> first | rfl | cases reading

theorem agree_beginWith (sound : cache.Sound) (peerSound : peer.Sound)
    (alike : SameText cache peer progress other) (placed : Placed SelectorToken)
    {condition : SimpleSelector} (plain : condition.isPseudoClass = false) :
    Compiling.Agree cache peer (progress.beginWith placed condition)
      (other.beginWith placed condition) SameText := by
  have refused := alike.refuse_eq placed
  have added := alike.addCondition (.plain plain)
  have reading := alike.reading
  unfold beginWith
  rw [refused]
  generalize progress.reading = first at reading
  generalize other.reading = second at reading
  cases reading with
  | compound _ => exact .throw sound peerSound _
  | opening => exact .pure sound peerSound added
  | spaced _ => exact .pure sound peerSound added

theorem agree_readToken {build : PseudoClassBuilder} (builds : build.Agrees)
    (sound : cache.Sound) (peerSound : peer.Sound)
    (alike : SameText cache peer progress other) (placed : Placed SelectorToken) :
    Compiling.Agree cache peer (progress.readToken build placed)
      (other.readToken build placed) SameText := by
  have refused := alike.refuse_eq placed
  unfold readToken
  cases placed.token with
  | space =>
      obtain ⟨complete, chain, reading⟩ := alike
      generalize state : progress.reading = first at reading
      generalize otherState : other.reading = second at reading
      cases reading with
      | opening =>
          exact .pure sound peerSound ⟨complete, chain, by rw [state, otherState]; exact .opening⟩
      | compound conditions => exact .pure sound peerSound ⟨complete, chain, .spaced conditions⟩
      | spaced conditions =>
          exact .pure sound peerSound
            ⟨complete, chain, by rw [state, otherState]; exact .spaced conditions⟩
  | combinator combinator =>
      obtain ⟨complete, chain, reading⟩ := alike
      dsimp only
      rw [refused]
      generalize progress.reading = first at reading
      generalize other.reading = second at reading
      cases reading with
      | opening => exact .throw sound peerSound _
      | compound conditions =>
          exact .pure sound peerSound ⟨complete, .cons combinator conditions chain, .opening⟩
      | spaced conditions =>
          exact .pure sound peerSound ⟨complete, .cons combinator conditions chain, .opening⟩
  | comma =>
      obtain ⟨complete, chain, reading⟩ := alike
      dsimp only
      rw [refused]
      generalize progress.reading = first at reading
      generalize other.reading = second at reading
      cases reading with
      | opening => exact .throw sound peerSound _
      | compound conditions =>
          exact .pure sound peerSound
            ⟨complete.append (.cons (.mk conditions chain) .nil), .nil, .opening⟩
      | spaced conditions =>
          exact .pure sound peerSound
            ⟨complete.append (.cons (.mk conditions chain) .nil), .nil, .opening⟩
  | star => exact agree_beginWith sound peerSound alike placed rfl
  | name name => exact agree_beginWith sound peerSound alike placed rfl
  | hash name => exact .pure sound peerSound (alike.addCondition (.plain rfl))
  | dot name => exact .pure sound peerSound (alike.addCondition (.plain rfl))
  | brackets body =>
      dsimp only [readToken.liftExcept]
      cases AttributeSelector.parse body with
      | error error => exact .throw sound peerSound error
      | ok condition => exact .pure sound peerSound (alike.addCondition (.plain rfl))
  | colon name argument =>
      refine (builds sound peerSound (String.ofList name) argument).bind ?_
      intro later peerLater isLater isPeerLater condition otherCondition sameCondition
      have still : SameText later peerLater progress other :=
        alike.imp fun _ _ same => same.later isLater isPeerLater
      exact .pure isLater.2 isPeerLater.2 (still.addCondition (.pseudoClass sameCondition))
  | broken error => exact .throw sound peerSound error
  | other =>
      dsimp only
      rw [refused]
      exact .throw sound peerSound _

theorem Alike.finish {related : Formula → Formula → Prop} (alike : Alike related progress other)
    (length : Nat) :
    SameOutcome (SelectorList.Alike related) (progress.finish length) (other.finish length) := by
  obtain ⟨complete, chain, reading⟩ := alike
  unfold SelectorProgress.finish
  generalize progress.reading = first at reading
  generalize other.reading = second at reading
  cases reading with
  | compound conditions => exact .ok (complete.append (.cons (.mk conditions chain) .nil))
  | spaced conditions => exact .ok (complete.append (.cons (.mk conditions chain) .nil))
  | opening =>
      have completeEmpty : progress.complete.isEmpty = other.complete.isEmpty := by
        generalize progress.complete = first at complete
        generalize other.complete = second at complete
        cases complete <;> rfl
      have chainEmpty : progress.chain.isEmpty = other.chain.isEmpty := by
        generalize progress.chain = first at chain
        generalize other.chain = second at chain
        cases chain <;> rfl
      dsimp only
      rw [completeEmpty, chainEmpty]
      split <;> exact .error _

end SelectorProgress

theorem SelectorList.agree_parse {build : PseudoClassBuilder} (builds : build.Agrees)
    (sound : cache.Sound) (peerSound : peer.Sound) (text : List Char) :
    Compiling.Agree cache peer (SelectorList.parse build text) (SelectorList.parse build text)
      fun later peerLater => SelectorList.Alike (Formula.SameText later peerLater) := by
  have start : SelectorProgress.SameText cache peer {} {} := ⟨.nil, .nil, .opening⟩
  have tokens := Compiling.Agree.foldlM
    (fun sound peerSound _ _ => SelectorProgress.agree_readToken builds sound peerSound)
    sound peerSound (SelectorToken.read text) start
  exact tokens.bind fun later peerLater isLater isPeerLater progress other alike =>
    .ofOutcome isLater.2 isPeerLater.2 (alike.finish text.length)

namespace PseudoClass

theorem agree_nth (sound : cache.Sound) (peerSound : peer.Sound) (argument : List Char)
    (counting : Counting) :
    Compiling.Agree cache peer (PseudoClass.nth argument counting)
      (PseudoClass.nth argument counting)
      fun later peerLater => PseudoClass.Alike (Formula.SameText later peerLater) :=
  (Formula.agree_compile sound peerSound (String.ofList argument)).bind
    fun _ _ isLater isPeerLater _ _ same =>
      .pure isLater.2 isPeerLater.2 (.nth counting same)

/-- A way to read the argument of `:not()` that agrees with itself on every
two sound caches. -/
def InnerAgrees (parseInner : List Char → Compiling SelectorList) : Prop :=
  ∀ {cache peer : FormulaCache}, cache.Sound → peer.Sound → ∀ argument,
    Compiling.Agree cache peer (parseInner argument) (parseInner argument)
      fun later peerLater => SelectorList.Alike (Formula.SameText later peerLater)

theorem agree_ofKind (config : EngineConfig) {parseInner : List Char → Compiling SelectorList}
    (inner : InnerAgrees parseInner) (sound : cache.Sound) (peerSound : peer.Sound)
    (kind : PseudoClassKind) (argument : List Char) :
    Compiling.Agree cache peer (PseudoClass.ofKind config parseInner kind argument)
      (PseudoClass.ofKind config parseInner kind argument)
      fun later peerLater => PseudoClass.Alike (Formula.SameText later peerLater) := by
  cases kind with
  | nthChild => exact agree_nth sound peerSound argument _
  | nthLastChild => exact agree_nth sound peerSound argument _
  | nthOfType => exact agree_nth sound peerSound argument _
  | nthLastOfType => exact agree_nth sound peerSound argument _
  | not => exact (inner sound peerSound argument).map fun _ _ _ _ same => .not same
  | contains =>
      refine .ofOutcome sound peerSound ?_
      cases TextSearch.parseArgument argument with
      | error error => exact .error error
      | ok text => exact .ok (.contains _)
  | _ => exact .pure sound peerSound (.structural _)

theorem agrees_ofName (config : EngineConfig) {parseInner : List Char → Compiling SelectorList}
    (inner : InnerAgrees parseInner) : (PseudoClass.ofName config parseInner).Agrees := by
  intro cache peer sound peerSound name argument
  unfold PseudoClass.ofName
  cases PseudoClassKind.ofName? name with
  | none => exact .throw sound peerSound _
  | some kind =>
      dsimp only
      split
      · exact agree_ofKind config inner sound peerSound kind _
      · exact .throw sound peerSound _

theorem agrees_build (config : EngineConfig) (depth : Nat) :
    (PseudoClass.build config depth).Agrees := by
  induction depth with
  | zero => exact agrees_ofName config fun sound peerSound _ => .throw sound peerSound _
  | succ depth ih =>
      exact agrees_ofName config fun sound peerSound text =>
        SelectorList.agree_parse ih sound peerSound text

end PseudoClass

/-- On two sound caches an engine refuses the same texts with the same errors,
and reads selectors that are alike up to formulas with the same texts. -/
theorem EngineConfig.agree_parse (config : EngineConfig) (sound : cache.Sound)
    (peerSound : peer.Sound) (text : String) :
    Compiling.Agree cache peer (config.parse text) (config.parse text)
      fun later peerLater => SelectorList.Alike (Formula.SameText later peerLater) :=
  SelectorList.agree_parse (PseudoClass.agrees_build config _) sound peerSound text.toList

theorem EngineConfig.agree_pseudoClass (config : EngineConfig) (sound : cache.Sound)
    (peerSound : peer.Sound) (name : String) (argument : Option String) :
    Compiling.Agree cache peer (config.pseudoClass name argument)
      (config.pseudoClass name argument)
      fun later peerLater => PseudoClass.Alike (Formula.SameText later peerLater) :=
  PseudoClass.agrees_build config _ sound peerSound name _

end CssQuery
