import CssQuery.Engine
import CssQuery.Proofs.Selector.Acceptance
import CssQuery.Proofs.Selector.Reading

/-!
# The selector parser and its grammar

An engine reads the argument of `:not()` as a selector list again, with the
nesting bounded by the length of the text.  An argument is shorter than the
text it stands in, so the bound is never met, and the reader builds every
pseudo-class as the engine itself would.

With that a text is parsed exactly if the grammar derives it and its
conditions can be built, and the result is the tree of the derivation.
-/

namespace CssQuery

section Nesting

/-- An argument that is read from a text is shorter than the text. -/
theorem SelectorToken.length_argument_lt {text : List Char} {skip offset : Nat}
    {placed : Placed SelectorToken} (member : placed ∈ readFrom skip offset text)
    {word : List Char} {argument : Option (List Char)}
    (token : placed.token = .colon word argument) :
    (argument.getD []).length < text.length := by
  induction text generalizing skip offset with
  | nil => cases skip <;> cases member
  | cons c rest ih =>
      cases skip with
      | succ skip => exact Nat.lt_succ_of_lt (ih member)
      | zero =>
          rw [readFrom_zero] at member
          rcases List.mem_cons.mp member with rfl | later
          · have read : next offset c rest = (.colon word argument, (next offset c rest).2) :=
              Prod.ext token rfl
            obtain ⟨tail, spells, split, -⟩ := spells_of_next read rfl
            have short : (argument.getD []).length ≤ tail.length := by
              cases spells with
              | colon identifier => exact Nat.zero_le _
              | @call word argument identifier span =>
                  show argument.length ≤ (word ++ ('(' :: argument ++ [')'])).length
                  simp only [List.length_append, List.length_cons]
                  omega
            have within := congrArg List.length split
            rw [List.length_append] at within
            rw [List.length_cons]
            omega
          · exact Nat.lt_succ_of_lt (ih later)

/-- The reader asks only for pseudo-classes whose arguments are shorter than
the text. -/
theorem SelectorList.parse_congr {first second : PseudoClassBuilder} {text : List Char}
    (agree : ∀ name argument, (argument.getD []).length < text.length →
      first name argument = second name argument) :
    SelectorList.parse first text = SelectorList.parse second text := by
  have same : ∀ (list : List (Placed SelectorToken)),
      (∀ placed ∈ list, placed ∈ SelectorToken.readFrom 0 0 text) →
      ∀ progress : SelectorProgress,
        list.foldlM (SelectorProgress.readToken first) progress =
          list.foldlM (SelectorProgress.readToken second) progress := by
    intro list members
    induction list with
    | nil => exact fun _ => rfl
    | cons placed list ih =>
        intro progress
        have later := ih fun other member => members other (List.mem_cons_of_mem _ member)
        have here : progress.readToken first placed = progress.readToken second placed := by
          unfold SelectorProgress.readToken
          cases token : placed.token with
          | colon word argument =>
              have short := SelectorToken.length_argument_lt
                (members placed List.mem_cons_self) token
              dsimp only
              rw [agree (String.ofList word) argument short]
          | _ => rfl
        rw [List.foldlM_cons, List.foldlM_cons, here]
        exact bind_congr later
  unfold SelectorList.parse
  rw [show SelectorToken.read text = SelectorToken.readFrom 0 0 text from rfl,
    same _ (fun _ member => member)]

theorem SelectorList.parse_nil (build : PseudoClassBuilder) :
    SelectorList.parse build [] = throw (.scan (.state 0 "empty selector")) := rfl

theorem PseudoClass.ofName_congr (config : EngineConfig)
    {first second : List Char → Compiling SelectorList} {argument : Option (List Char)}
    (agree : first (argument.getD []) = second (argument.getD [])) (name : String) :
    PseudoClass.ofName config first name argument =
      PseudoClass.ofName config second name argument := by
  unfold PseudoClass.ofName
  cases PseudoClassKind.ofName? name with
  | none => rfl
  | some kind =>
      dsimp only
      cases kind with
      | not =>
          unfold PseudoClass.ofKind
          rw [agree]
      | _ => rfl

/-- What is allowed beyond the length of an argument makes no difference. -/
theorem PseudoClass.build_eq (config : EngineConfig) {length first second : Nat}
    (enoughFirst : length ≤ first) (enoughSecond : length ≤ second) (name : String)
    {argument : Option (List Char)} (short : (argument.getD []).length ≤ length) :
    PseudoClass.build config first name argument =
      PseudoClass.build config second name argument := by
  induction length generalizing first second name argument with
  | zero =>
      have none : argument.getD [] = [] := List.eq_nil_of_length_eq_zero (Nat.le_zero.mp short)
      have refused : ∀ depth, PseudoClass.build config depth name argument =
          PseudoClass.ofName config
            (fun _ => throw (.scan (.state 0 "empty selector"))) name argument := by
        intro depth
        cases depth with
        | zero =>
            apply PseudoClass.ofName_congr
            rw [none]
            rfl
        | succ depth =>
            apply PseudoClass.ofName_congr
            rw [none]
            exact SelectorList.parse_nil _
      rw [refused first, refused second]
  | succ length ih =>
      have inner : ∀ more other : Nat, length ≤ more → length ≤ other →
          SelectorList.parse (PseudoClass.build config more) (argument.getD []) =
            SelectorList.parse (PseudoClass.build config other) (argument.getD []) := by
        intro more other enoughMore enoughOther
        apply SelectorList.parse_congr
        intro innerName innerArgument shorter
        exact ih enoughMore enoughOther innerName (by omega)
      cases first with
      | zero => exact absurd enoughFirst (Nat.not_succ_le_zero length)
      | succ first =>
          cases second with
          | zero => exact absurd enoughSecond (Nat.not_succ_le_zero length)
          | succ second =>
              apply PseudoClass.ofName_congr
              exact inner first second (Nat.le_of_succ_le_succ enoughFirst)
                (Nat.le_of_succ_le_succ enoughSecond)

def EngineConfig.builder (config : EngineConfig) : PseudoClassBuilder :=
  fun name argument => config.pseudoClass name (argument.map String.ofList)

/-- The reader builds every pseudo-class as the engine itself does. -/
theorem EngineConfig.parse_eq (config : EngineConfig) (text : String) :
    config.parse text = SelectorList.parse config.builder text.toList := by
  apply SelectorList.parse_congr
  intro name argument shorter
  have given : (argument.map String.ofList).map String.toList = argument := by
    cases argument <;> simp
  unfold EngineConfig.builder EngineConfig.pseudoClass
  dsimp only
  rw [given]
  exact PseudoClass.build_eq config (Nat.le_of_lt shorter) (Nat.le_refl _) name (Nat.le_refl _)

end Nesting

section Specificity

namespace Specificity

theorem add_comm (first second : Specificity) : first.add second = second.add first := by
  simp only [add, Nat.add_comm]

theorem add_assoc (first second third : Specificity) :
    (first.add second).add third = first.add (second.add third) := by
  simp only [add, Nat.add_assoc]

theorem foldl_add (list : List Specificity) (first second : Specificity) :
    list.foldl add (first.add second) = (list.foldl add first).add second := by
  induction list generalizing first with
  | nil => rfl
  | cons value list ih =>
      rw [List.foldl_cons, List.foldl_cons, ← ih, add_assoc, add_comm second, ← add_assoc]

end Specificity

theorem CompoundSyntax.counts_cons (compound : CompoundSyntax)
    (compounds : List CompoundSyntax) :
    counts (compound :: compounds) = (counts [compound]).add (counts compounds) := by
  simp [counts, Specificity.add, List.countP_append]

variable {build : PseudoClassBuilder} {cache after : FormulaCache}

theorem ConditionSyntax.specificity_selector {condition : ConditionSyntax}
    {selector : SimpleSelector}
    (built : (condition.selector build).runOn cache = (.ok selector, after)) :
    selector.specificity = if condition.isHash then ⟨1, 0, 0⟩ else ⟨0, 1, 0⟩ := by
  cases condition with
  | hash word =>
      cases built
      rfl
  | dot word =>
      cases built
      rfl
  | brackets body =>
      obtain ⟨parsed, _, -, returned⟩ := Compiling.runOn_bind_eq_ok.mp built
      cases returned
      rfl
  | colon word argument =>
      obtain ⟨condition, _, -, returned⟩ := Compiling.runOn_bind_eq_ok.mp built
      cases returned
      rfl

theorem CompoundSelector.specificity_cons (simple : SimpleSelector)
    (compound : CompoundSelector) :
    CompoundSelector.specificity (simple :: compound) =
      (CompoundSelector.specificity compound).add simple.specificity := by
  simp only [CompoundSelector.specificity, List.map_cons, List.foldl_cons]
  exact Specificity.foldl_add _ .zero simple.specificity

theorem CompoundSyntax.specificity_conditions {conditions : List ConditionSyntax}
    {simples : CompoundSelector}
    (each : List.Forall₂ (fun (condition : ConditionSyntax) (simple : SimpleSelector) =>
      simple.specificity = if condition.isHash then ⟨1, 0, 0⟩ else ⟨0, 1, 0⟩) conditions simples) :
    CompoundSelector.specificity simples =
      ⟨conditions.countP ConditionSyntax.isHash,
        conditions.countP fun condition => !condition.isHash, 0⟩ := by
  induction each with
  | nil => rfl
  | @cons condition simple conditions simples here _ ih =>
      rw [CompoundSelector.specificity_cons, ih, here, List.countP_cons, List.countP_cons]
      cases condition.isHash <;> rfl

theorem CompoundSyntax.specificity_selector {compound : CompoundSyntax}
    {selector : CompoundSelector}
    (built : (compound.selector build).runOn cache = (.ok selector, after)) :
    CompoundSelector.specificity selector = counts [compound] := by
  obtain ⟨simples, _, ran, returned⟩ := Compiling.runOn_bind_eq_ok.mp built
  have conditions := specificity_conditions
    (Compiling.forall₂_of_runOn_mapM ConditionSyntax.specificity_selector ran)
  cases returned
  obtain ⟨head, written, nonempty⟩ := compound
  cases head with
  | none =>
      refine conditions.trans ?_
      simp [counts]
  | some head =>
      refine (CompoundSelector.specificity_cons head.selector simples).trans ?_
      rw [conditions]
      cases head with
      | star => simp [counts, HeadSyntax.selector, SimpleSelector.specificity, Specificity.add,
          Specificity.zero, HeadSyntax.isName]
      | name word => simp [counts, HeadSyntax.selector, SimpleSelector.specificity,
          Specificity.add, HeadSyntax.isName]

theorem ComplexSelector.specificity_extend (chain : List (Combinator × CompoundSelector))
    (subject : CompoundSelector) (links : List (Combinator × CompoundSelector)) :
    (SelectorProgress.extend chain subject links).specificity =
      (links.map fun link => CompoundSelector.specificity link.2).foldl .add
        (ComplexSelector.mk subject chain).specificity := by
  induction links generalizing chain subject with
  | nil => rfl
  | cons link links ih =>
      obtain ⟨combinator, compound⟩ := link
      rw [SelectorProgress.extend, ih, List.map_cons, List.foldl_cons]
      congr 1
      simp only [ComplexSelector.specificity, ComplexSelector.chain, ComplexSelector.subject,
        List.map_cons, List.foldl_cons]
      rw [Specificity.add_comm, Specificity.foldl_add]

theorem ComplexSyntax.specificity_links {written : List (Combinator × CompoundSyntax)}
    {links : List (Combinator × CompoundSelector)}
    (each : List.Forall₂ (fun (link : Combinator × CompoundSyntax)
      (made : Combinator × CompoundSelector) =>
        CompoundSelector.specificity made.2 = CompoundSyntax.counts [link.2]) written links)
    (start : Specificity) :
    (links.map fun link => CompoundSelector.specificity link.2).foldl .add start =
      start.add (CompoundSyntax.counts (written.map Prod.snd)) := by
  induction each generalizing start with
  | nil => rfl
  | @cons link made written links here _ ih =>
      rw [List.map_cons, List.foldl_cons, ih, here, List.map_cons,
        CompoundSyntax.counts_cons link.2 (written.map Prod.snd), Specificity.add_assoc]

/-- The specificity counts the conditions of all compound selectors. -/
theorem ComplexSyntax.specificity_selector {complex : ComplexSyntax} {selector : ComplexSelector}
    (built : (complex.selector build).runOn cache = (.ok selector, after)) :
    selector.specificity = CompoundSyntax.counts complex.compounds := by
  obtain ⟨first, _, ranFirst, rest⟩ := Compiling.runOn_bind_eq_ok.mp built
  obtain ⟨links, _, ranLinks, returned⟩ := Compiling.runOn_bind_eq_ok.mp rest
  cases returned
  have linkReturns : ∀ {link : Combinator × CompoundSyntax} {cache : FormulaCache}
      {made : Combinator × CompoundSelector} {after : FormulaCache},
      Compiling.runOn (do return (link.1, ← link.2.selector build)) cache = (.ok made, after) →
        CompoundSelector.specificity made.2 = CompoundSyntax.counts [link.2] := by
    intro link cache made after ran
    obtain ⟨compound, _, ranCompound, returned⟩ := Compiling.runOn_bind_eq_ok.mp ran
    cases returned
    exact CompoundSyntax.specificity_selector ranCompound
  have each := Compiling.forall₂_of_runOn_mapM linkReturns ranLinks
  rw [← SelectorProgress.extend_eq_assemble, ComplexSelector.specificity_extend,
    specificity_links each, ComplexSyntax.compounds, CompoundSyntax.counts_cons,
    ← CompoundSyntax.specificity_selector ranFirst]
  rfl

theorem ComplexSyntax.specificity_selectors {list : List ComplexSyntax}
    {selectors : SelectorList}
    (built : (ComplexSyntax.selectors build list).runOn cache = (.ok selectors, after)) :
    selectors.map ComplexSelector.specificity =
      list.map fun complex => CompoundSyntax.counts complex.compounds := by
  have each := Compiling.forall₂_of_runOn_mapM ComplexSyntax.specificity_selector built
  clear built
  induction each with
  | nil => rfl
  | cons here _ ih => rw [List.map_cons, List.map_cons, here, ih]

end Specificity

/-- An engine parses a text exactly if the grammar derives it and its
conditions can be built one after the other, attributes by the attribute
parser and pseudo-classes by the engine.  The result is what the tree of the
derivation stands for: groups and conditions in their order, the last compound
selector of each group as its subject, and its chain from the subject's side.
The specificity of each group counts the conditions that are written in it; if
there are fewer than `2 ^ 32`, so does the specificity in words. -/
theorem EngineConfig.parse_eq_ok_iff_derives (config : EngineConfig) (text : String)
    (cache after : FormulaCache) (selectors : SelectorList) :
    ((config.parse text).runOn cache = (.ok selectors, after) ↔
      ∃ list, Derives text.toList list ∧
        (ComplexSyntax.selectors config.builder list).runOn cache = (.ok selectors, after)) ∧
    (∀ list, (ComplexSyntax.selectors config.builder list).runOn cache = (.ok selectors, after) →
      selectors.map ComplexSelector.specificity =
        list.map fun complex => CompoundSyntax.counts complex.compounds) ∧
    ∀ selector ∈ selectors, selector.conditionCount < UInt32.size →
      selector.specificityWords.toSpecificity = selector.specificity := by
  rw [config.parse_eq]
  refine ⟨⟨?_, ?_⟩, ?_, ?_⟩
  · intro parse
    obtain ⟨list, derives⟩ := exists_derives_of_parse parse
    rw [parse_eq_of_derives config.builder derives] at parse
    exact ⟨list, derives, parse⟩
  · rintro ⟨list, derives, built⟩
    rw [parse_eq_of_derives config.builder derives]
    exact built
  · exact fun _ => ComplexSyntax.specificity_selectors
  · exact fun selector _ few => selector.toSpecificity_specificityWords few

/-- A group of two complex selectors, derived, built and counted in words. -/
theorem EngineConfig.parse_two_groups :
    let item : ComplexSelector := .mk [.hasTag "li", .hasClass "a"] [(.child, [.hasTag "ul"])]
    let any : ComplexSelector := .mk [.universal] []
    ((⟨none, true⟩ : EngineConfig).parse "ul>li.a , *").runOn {} = (.ok [item, any], {}) ∧
      item.specificityWords.toSpecificity = ⟨0, 1, 2⟩ ∧
      any.specificityWords.toSpecificity = ⟨0, 0, 0⟩ := by
  let list : CompoundSyntax := ⟨some (.name ['u', 'l']), [], .inl nofun⟩
  let item : CompoundSyntax := ⟨some (.name ['l', 'i']), [.dot ['a']], .inl nofun⟩
  let any : CompoundSyntax := ⟨some .star, [], .inl nofun⟩
  have ul : IsIdentifier ['u', 'l'] := rfl
  have li : IsIdentifier ['l', 'i'] := rfl
  have a : IsIdentifier ['a'] := rfl
  have child : LinksLayout [(.child, item)] _ := .cons (.symbol .child 0 0) .nil
  have groups : ListLayout [⟨list, [(.child, item)]⟩, ⟨any, []⟩] _ :=
    .more 0 1 child (.last 1 0 .nil)
  have derives : Derives "ul>li.a , *".toList [⟨list, [(.child, item)]⟩, ⟨any, []⟩] :=
    ⟨_, groups, .cons (.name ul) (.cons .child (.cons (.name li) (.cons (.dot a)
      (.cons (.space rfl) (.cons .comma (.cons (.space rfl) (.cons .star .nil)))))))⟩
  obtain ⟨accepted, counted, inWords⟩ :=
    EngineConfig.parse_eq_ok_iff_derives ⟨none, true⟩ "ul>li.a , *" {} {}
      [.mk [.hasTag "li", .hasClass "a"] [(.child, [.hasTag "ul"])], .mk [.universal] []]
  have specificities := counted [⟨list, [(.child, item)]⟩, ⟨any, []⟩] rfl
  simp only [List.map_cons, List.map_nil, List.cons.injEq] at specificities
  obtain ⟨ofItem, ofAny, -⟩ := specificities
  refine ⟨accepted.mpr ⟨_, derives, rfl⟩, ?_, ?_⟩
  · exact (inWords _ (by simp) (by decide)).trans ofItem
  · exact (inWords _ (by simp) (by decide)).trans ofAny

end CssQuery
