import CssQuery.Proofs.Selector.Lexing

/-!
# Whatever is derivable is read as it was derived

Over the tokens of a syntax tree the reader does what building the tree does,
in the same order and on the same cache, and then goes on with the tree in its
state.  This is an equation between computations, so it says what happens to
errors of the conditions and to the cache as well.
-/

namespace CssQuery

variable (build : PseudoClassBuilder)

namespace SelectorProgress

def space (progress : SelectorProgress) : SelectorProgress :=
  match progress.reading with
  | .compound conditions => { progress with reading := .spaced conditions }
  | .opening | .spaced _ => progress

def spaces : (count : Nat) → SelectorProgress → SelectorProgress
  | 0, progress => progress
  | count + 1, progress => spaces count progress.space

/-- The state in which a compound selector begins: space before it has become
a combinator. -/
def opened (progress : SelectorProgress) : SelectorProgress :=
  match progress.reading with
  | .spaced conditions =>
      { progress with
        chain := (.descendant, conditions) :: progress.chain
        reading := .opening }
  | .opening | .compound _ => progress

def Fresh (progress : SelectorProgress) : Prop :=
  ∀ conditions, progress.reading ≠ .compound conditions

theorem addCondition_of_fresh {progress : SelectorProgress} (fresh : progress.Fresh)
    (condition : SimpleSelector) :
    progress.addCondition condition = { progress.opened with reading := .compound [condition] } := by
  unfold addCondition opened
  cases state : progress.reading with
  | opening => rfl
  | spaced conditions => rfl
  | compound conditions => exact absurd state (fresh conditions)

theorem beginWith_of_fresh {progress : SelectorProgress} (fresh : progress.Fresh)
    (placed : Placed SelectorToken) (condition : SimpleSelector) :
    progress.beginWith placed condition = pure (progress.addCondition condition) := by
  unfold beginWith
  cases state : progress.reading with
  | opening => rfl
  | spaced conditions => rfl
  | compound conditions => exact absurd state (fresh conditions)

theorem readToken_space {placed : Placed SelectorToken} (token : placed.token = .space)
    (progress : SelectorProgress) : progress.readToken build placed = pure progress.space := by
  unfold readToken space
  rw [token]
  cases progress.reading <;> rfl

theorem readToken_head {placed : Placed SelectorToken} {head : HeadSyntax}
    (token : placed.token = head.token) {progress : SelectorProgress} (fresh : progress.Fresh) :
    progress.readToken build placed = pure (progress.addCondition head.selector) := by
  unfold readToken
  rw [token]
  cases head with
  | star => exact beginWith_of_fresh fresh placed _
  | name word => exact beginWith_of_fresh fresh placed _

theorem readToken_condition {placed : Placed SelectorToken} {condition : ConditionSyntax}
    (token : placed.token = condition.token) (progress : SelectorProgress) :
    progress.readToken build placed = progress.addCondition <$> condition.selector build := by
  unfold readToken
  rw [token]
  cases condition with
  | hash word => exact (map_pure _ _).symm
  | dot word => exact (map_pure _ _).symm
  | brackets body =>
      rw [ConditionSyntax.selector, map_bind]
      rfl
  | colon word argument =>
      rw [ConditionSyntax.selector, map_bind]
      rfl

theorem read_blanks {list : List (Placed SelectorToken)} {count : Nat}
    (tokens : list.map Placed.token = blanks count) (progress : SelectorProgress) :
    list.foldlM (readToken build) progress = pure (progress.spaces count) := by
  induction count generalizing list progress with
  | zero =>
      rw [List.map_eq_nil_iff.mp tokens]
      rfl
  | succ count ih =>
      obtain ⟨placed, others, rfl, token, later⟩ := List.map_eq_cons_iff.mp tokens
      rw [List.foldlM_cons, readToken_space build token, pure_bind, ih later]
      rfl

theorem read_conditions {list : List (Placed SelectorToken)} {conditions : List ConditionSyntax}
    (tokens : list.map Placed.token = conditions.map ConditionSyntax.token)
    (complete : SelectorList) (chain : List (Combinator × CompoundSelector))
    (before : CompoundSelector) :
    list.foldlM (readToken build) ⟨complete, chain, .compound before⟩ =
      (fun more => ⟨complete, chain, .compound (before ++ more)⟩) <$>
        conditions.mapM (ConditionSyntax.selector build) := by
  induction conditions generalizing list before with
  | nil =>
      rw [List.map_eq_nil_iff.mp tokens, List.mapM_nil, map_pure, List.append_nil]
      rfl
  | cons condition conditions ih =>
      obtain ⟨placed, others, rfl, token, later⟩ := List.map_eq_cons_iff.mp tokens
      rw [List.foldlM_cons, readToken_condition build token, bind_map_left, List.mapM_cons,
        map_bind]
      congr 1
      funext first
      rw [map_bind, show SelectorProgress.addCondition ⟨complete, chain, .compound before⟩ first =
        ⟨complete, chain, .compound (before ++ [first])⟩ from rfl, ih later, map_eq_pure_bind]
      congr 1
      funext more
      rw [map_pure, List.append_assoc]
      rfl

theorem read_compound {list : List (Placed SelectorToken)} {compound : CompoundSyntax}
    (tokens : list.map Placed.token = compound.tokens) {progress : SelectorProgress}
    (fresh : progress.Fresh) :
    list.foldlM (readToken build) progress =
      (fun conditions => { progress.opened with reading := .compound conditions }) <$>
        compound.selector build := by
  obtain ⟨head, conditions, nonempty⟩ := compound
  cases head with
  | some head =>
      obtain ⟨placed, others, rfl, token, later⟩ := List.map_eq_cons_iff.mp tokens
      rw [List.foldlM_cons, readToken_head build token fresh, pure_bind,
        addCondition_of_fresh fresh, read_conditions build later, CompoundSyntax.selector,
        map_bind, map_eq_pure_bind]
      congr 1
  | none =>
      cases conditions with
      | nil => exact absurd nonempty (by simp)
      | cons condition conditions =>
          obtain ⟨placed, others, rfl, token, later⟩ := List.map_eq_cons_iff.mp tokens
          rw [List.foldlM_cons, readToken_condition build token, bind_map_left,
            CompoundSyntax.selector, List.mapM_cons, map_bind, bind_assoc]
          congr 1
          funext first
          rw [addCondition_of_fresh fresh, read_conditions build later, bind_assoc,
            map_eq_pure_bind]
          congr 1

theorem fresh_opening (complete : SelectorList)
    (chain : List (Combinator × CompoundSelector)) : Fresh ⟨complete, chain, .opening⟩ :=
  fun _ => nofun

theorem fresh_spaced (complete : SelectorList) (chain : List (Combinator × CompoundSelector))
    (conditions : CompoundSelector) : Fresh ⟨complete, chain, .spaced conditions⟩ :=
  fun _ => nofun

theorem spaces_of_space {progress : SelectorProgress} (same : progress.space = progress)
    (count : Nat) : progress.spaces count = progress := by
  induction count with
  | zero => rfl
  | succ count ih => rw [spaces, same, ih]

/-- Space behind a compound selector changes the state only once. -/
theorem spaces_compound (complete : SelectorList) (chain : List (Combinator × CompoundSelector))
    (conditions : CompoundSelector) (count : Nat) :
    spaces count ⟨complete, chain, .compound conditions⟩ =
      ⟨complete, chain, if count = 0 then .compound conditions else .spaced conditions⟩ := by
  cases count with
  | zero => rfl
  | succ count =>
      rw [spaces]
      exact spaces_of_space rfl count

/-- Behind the tokens between two compound selectors the first of them is in
the chain, at the latest when the second begins. -/
theorem read_between {list : List (Placed SelectorToken)} {combinator : Combinator}
    {between : List SelectorToken} (separator : combinator.Layout between)
    (tokens : list.map Placed.token = between) (complete : SelectorList)
    (chain : List (Combinator × CompoundSelector)) (conditions : CompoundSelector) :
    ∃ progress : SelectorProgress,
      list.foldlM (readToken build) ⟨complete, chain, .compound conditions⟩ = pure progress ∧
      progress.Fresh ∧
      progress.opened = ⟨complete, (combinator, conditions) :: chain, .opening⟩ := by
  cases separator with
  | blank more =>
      refine ⟨⟨complete, chain, .spaced conditions⟩, ?_, fresh_spaced _ _ _, rfl⟩
      rw [read_blanks build tokens, spaces_compound, if_neg (Nat.succ_ne_zero more)]
  | symbol _ before behind =>
      obtain ⟨front, back, rfl, frontTokens, backTokens⟩ := List.map_eq_append_iff.mp tokens
      obtain ⟨placed, others, rfl, token, later⟩ := List.map_eq_cons_iff.mp backTokens
      refine ⟨⟨complete, (combinator, conditions) :: chain, .opening⟩, ?_, fresh_opening _ _, rfl⟩
      rw [List.foldlM_append, read_blanks build frontTokens, pure_bind, List.foldlM_cons,
        spaces_compound]
      have read : ∀ reading : SelectorReading,
          reading = .compound conditions ∨ reading = .spaced conditions →
          readToken build ⟨complete, chain, reading⟩ placed =
            pure ⟨complete, (combinator, conditions) :: chain, .opening⟩ := by
        rintro reading (rfl | rfl) <;> simp only [readToken, token]
      rw [read _ (by split <;> simp), pure_bind, read_blanks build later,
        spaces_of_space rfl]

/-- A complex selector continued by further compound selectors. -/
def extend (chain : List (Combinator × CompoundSelector)) (subject : CompoundSelector) :
    List (Combinator × CompoundSelector) → ComplexSelector
  | [] => .mk subject chain
  | (combinator, compound) :: links => extend ((combinator, subject) :: chain) compound links

theorem extend_eq (chain : List (Combinator × CompoundSelector)) (subject : CompoundSelector)
    (links : List (Combinator × CompoundSelector)) :
    extend chain subject links =
      .mk ((subject :: links.map Prod.snd).getLast (List.cons_ne_nil _ _))
        (((links.map Prod.fst).zip (subject :: links.map Prod.snd)).reverse ++ chain) := by
  induction links generalizing chain subject with
  | nil => rfl
  | cons link links ih =>
      rw [extend, ih]
      simp

/-- The reader takes the compound selectors into the chain one by one; in the
end the chain is that of the whole. -/
theorem extend_eq_assemble (first : CompoundSelector)
    (links : List (Combinator × CompoundSelector)) :
    extend [] first links = .assemble first links := by
  rw [extend_eq, List.append_nil]
  rfl

def behind (complete : SelectorList) (selector : ComplexSelector) : SelectorProgress :=
  ⟨complete, selector.chain, .compound selector.subject⟩

theorem read_links {list : List (Placed SelectorToken)}
    {links : List (Combinator × CompoundSyntax)} {rest : List SelectorToken}
    (layout : LinksLayout links rest) (tokens : list.map Placed.token = rest)
    (complete : SelectorList) (chain : List (Combinator × CompoundSelector))
    (subject : CompoundSelector) :
    list.foldlM (readToken build) ⟨complete, chain, .compound subject⟩ =
      (fun built => behind complete (extend chain subject built)) <$>
        links.mapM fun link => do return (link.1, ← link.2.selector build) := by
  induction layout generalizing list chain subject with
  | nil =>
      rw [List.map_eq_nil_iff.mp tokens, List.mapM_nil, map_pure]
      rfl
  | @cons combinator compound links between later separator layout ih =>
      obtain ⟨front, back, rfl, frontTokens, backTokens⟩ := List.map_eq_append_iff.mp tokens
      obtain ⟨middle, last, rfl, middleTokens, lastTokens⟩ :=
        List.map_eq_append_iff.mp backTokens
      obtain ⟨progress, readFront, fresh, opened⟩ :=
        read_between build separator frontTokens complete chain subject
      rw [List.foldlM_append, readFront, pure_bind, List.foldlM_append,
        read_compound build middleTokens fresh, opened, bind_map_left, List.mapM_cons,
        map_bind, bind_assoc]
      congr 1
      funext conditions
      rw [ih lastTokens, pure_bind, map_bind, map_eq_pure_bind]
      congr 1

theorem read_complex {list : List (Placed SelectorToken)} {complex : ComplexSyntax}
    {rest : List SelectorToken} {before : Nat} (layout : LinksLayout complex.links rest)
    (tokens : list.map Placed.token = blanks before ++ (complex.first.tokens ++ rest))
    (complete : SelectorList) :
    list.foldlM (readToken build) ⟨complete, [], .opening⟩ =
      behind complete <$> complex.selector build := by
  obtain ⟨front, back, rfl, frontTokens, backTokens⟩ := List.map_eq_append_iff.mp tokens
  obtain ⟨middle, last, rfl, middleTokens, lastTokens⟩ := List.map_eq_append_iff.mp backTokens
  rw [List.foldlM_append, read_blanks build frontTokens, pure_bind, spaces_of_space rfl,
    List.foldlM_append, read_compound build middleTokens (fresh_opening _ _), bind_map_left,
    ComplexSyntax.selector, map_bind]
  congr 1
  funext first
  refine (read_links build layout lastTokens complete [] first).trans ?_
  rw [map_bind, map_eq_pure_bind]
  congr 1
  funext built
  rw [map_pure, extend_eq_assemble]

theorem finish_spaces (complete : SelectorList) (selector : ComplexSelector)
    (count length : Nat) :
    ((behind complete selector).spaces count).finish length = .ok (complete ++ [selector]) := by
  cases selector with
  | mk subject chain =>
      rw [behind, spaces_compound]
      unfold finish
      cases count <;> rfl

theorem readToken_comma {placed : Placed SelectorToken} (token : placed.token = .comma)
    (complete : SelectorList) (selector : ComplexSelector) (count : Nat) :
    ((behind complete selector).spaces count).readToken build placed =
      pure ⟨complete ++ [selector], [], .opening⟩ := by
  cases selector with
  | mk subject chain =>
      rw [behind, spaces_compound]
      unfold readToken
      rw [token]
      cases count <;> rfl

theorem read_list {list : List (Placed SelectorToken)} {complexes : List ComplexSyntax}
    {written : List SelectorToken} (layout : ListLayout complexes written)
    (tokens : list.map Placed.token = written) (complete : SelectorList) (length : Nat) :
    (do
      let progress ← list.foldlM (readToken build) ⟨complete, [], .opening⟩
      ExceptT.mk (pure (progress.finish length)) : Compiling SelectorList) =
      (complete ++ ·) <$> ComplexSyntax.selectors build complexes := by
  induction layout generalizing list complete with
  | @last before after complex rest links =>
      rw [← List.append_assoc complex.first.tokens, ← List.append_assoc] at tokens
      obtain ⟨front, back, rfl, frontTokens, backTokens⟩ := List.map_eq_append_iff.mp tokens
      rw [List.foldlM_append, read_complex build links frontTokens, bind_assoc, bind_map_left,
        ComplexSyntax.selectors, List.mapM_cons, map_bind]
      congr 1
      funext selector
      rw [read_blanks build backTokens, pure_bind, finish_spaces, List.mapM_nil, pure_bind,
        map_pure]
      rfl
  | @more before after complex rest links others later layout ih =>
      rw [← List.append_assoc complex.first.tokens, ← List.append_assoc] at tokens
      obtain ⟨front, back, rfl, frontTokens, backTokens⟩ := List.map_eq_append_iff.mp tokens
      obtain ⟨middle, last, rfl, middleTokens, lastTokens⟩ :=
        List.map_eq_append_iff.mp backTokens
      obtain ⟨placed, behindComma, rfl, token, laterTokens⟩ := List.map_eq_cons_iff.mp lastTokens
      rw [List.foldlM_append, read_complex build links frontTokens, bind_assoc, bind_map_left,
        ComplexSyntax.selectors, List.mapM_cons, map_bind]
      congr 1
      funext selector
      rw [List.foldlM_append, read_blanks build middleTokens, pure_bind, List.foldlM_cons,
        readToken_comma build token, pure_bind, ih laterTokens, map_bind, map_eq_pure_bind]
      congr 1
      funext more
      rw [map_pure, List.append_assoc]
      rfl

end SelectorProgress

namespace SelectorToken

theorem separated_of_notName {tokens : List SelectorToken}
    (notName : ∀ token ∈ tokens, token.isName = false) : Separated tokens := by
  induction tokens with
  | nil => exact .nil
  | cons first tokens ih =>
      have later := ih fun token member => notName token (List.mem_cons_of_mem _ member)
      cases tokens with
      | nil => exact .singleton first
      | cons second tokens =>
          refine .cons_cons ?_ later
          rw [notName second (by simp)]
          exact nofun

theorem Separated.append {front back : List SelectorToken} (left : Separated front)
    (right : Separated back)
    (apart : (∀ token ∈ front, token.isOpen = false) ∨
      ∀ token ∈ back.head?, token.isName = false) : Separated (front ++ back) := by
  refine List.isChain_append.mpr ⟨left, right, ?_⟩
  intro last lastMember first firstMember isName
  rcases apart with closed | notName
  · exact closed last (List.mem_of_getLast? lastMember)
  · rw [notName first firstMember] at isName
    cases isName

theorem eq_space_of_mem_blanks {count : Nat} {token : SelectorToken}
    (member : token ∈ blanks count) : token = .space :=
  (List.mem_replicate.mp member).2

theorem separated_blanks (count : Nat) : Separated (blanks count) := by
  apply separated_of_notName
  intro token member
  rw [eq_space_of_mem_blanks member]
  rfl

theorem closed_blanks (count : Nat) : ∀ token ∈ blanks count, token.isOpen = false := by
  intro token member
  rw [eq_space_of_mem_blanks member]
  rfl

theorem notName_condition (condition : ConditionSyntax) : condition.token.isName = false := by
  cases condition <;> rfl

theorem separated_compound (compound : CompoundSyntax) : Separated compound.tokens := by
  have conditions : ∀ token ∈ compound.conditions.map ConditionSyntax.token,
      token.isName = false := by
    intro token member
    obtain ⟨condition, -, rfl⟩ := List.mem_map.mp member
    exact notName_condition condition
  rw [CompoundSyntax.tokens]
  refine Separated.append ?_ (separated_of_notName conditions)
    (.inr fun token first => conditions token (List.mem_of_mem_head? first))
  cases compound.head with
  | none => exact .nil
  | some head => exact .singleton _

/-- Between two compound selectors there is something, and no word. -/
theorem of_separator {combinator : Combinator} {between : List SelectorToken}
    (separator : combinator.Layout between) :
    between ≠ [] ∧ ∀ token ∈ between, token.isOpen = false ∧ token.isName = false := by
  cases separator with
  | blank more =>
      refine ⟨List.cons_ne_nil _ _, ?_⟩
      intro token member
      rw [eq_space_of_mem_blanks member]
      exact ⟨rfl, rfl⟩
  | symbol _ before behind =>
      refine ⟨by simp, ?_⟩
      intro token member
      rcases List.mem_append.mp member with blank | rest
      · rw [eq_space_of_mem_blanks blank]
        exact ⟨rfl, rfl⟩
      · rcases List.mem_cons.mp rest with rfl | blank
        · exact ⟨rfl, rfl⟩
        · rw [eq_space_of_mem_blanks blank]
          exact ⟨rfl, rfl⟩

theorem separated_links {links : List (Combinator × CompoundSyntax)}
    {rest : List SelectorToken} (layout : LinksLayout links rest) {tail : List SelectorToken}
    (separated : Separated tail) (notName : ∀ token ∈ tail.head?, token.isName = false) :
    Separated (rest ++ tail) ∧ ∀ token ∈ (rest ++ tail).head?, token.isName = false := by
  induction layout with
  | nil => exact ⟨separated, notName⟩
  | @cons combinator compound links between later separator layout ih =>
      obtain ⟨nonempty, closed⟩ := of_separator separator
      rw [List.append_assoc, List.append_assoc]
      constructor
      · have words := (separated_compound compound).append ih.1 (.inr ih.2)
        exact (separated_of_notName fun token member => (closed token member).2).append words
          (.inl fun token member => (closed token member).1)
      · intro token first
        rw [List.head?_append_of_ne_nil _ nonempty] at first
        exact (closed token (List.mem_of_mem_head? first)).2

theorem separated_list {list : List ComplexSyntax} {tokens : List SelectorToken}
    (layout : ListLayout list tokens) : Separated tokens := by
  induction layout with
  | last before after links =>
      have blank : ∀ token ∈ (blanks after).head?, token.isName = false := by
        intro token first
        rw [eq_space_of_mem_blanks (List.mem_of_mem_head? first)]
        rfl
      obtain ⟨rest, notName⟩ := separated_links links (separated_blanks after) blank
      exact (separated_blanks before).append
        ((separated_compound _).append rest (.inr notName)) (.inl (closed_blanks before))
  | @more before after complex rest links others later layout ih =>
      have comma : Separated (.comma :: later) :=
        Separated.append (.singleton SelectorToken.comma) ih (.inl (by simp [isOpen]))
      have spaced := (separated_blanks after).append comma (.inl (closed_blanks after))
      have notName : ∀ token ∈ (blanks after ++ .comma :: later).head?, token.isName = false := by
        intro token first
        cases after with
        | zero =>
            cases first
            rfl
        | succ after =>
            cases first
            rfl
      obtain ⟨rest, notName⟩ := separated_links links spaced notName
      exact (separated_blanks before).append
        ((separated_compound _).append rest (.inr notName)) (.inl (closed_blanks before))

end SelectorToken

/-- A text is read as any tree that it is one way to write. -/
theorem parse_eq_of_derives {text : List Char} {list : List ComplexSyntax}
    (derives : Derives text list) :
    SelectorList.parse build text = ComplexSyntax.selectors build list := by
  obtain ⟨tokens, layout, lexes⟩ := derives
  have read := lexes.read_eq (SelectorToken.separated_list layout) 0
  have built := SelectorProgress.read_list build layout read [] text.length
  exact built.trans (id_map _)

end CssQuery
