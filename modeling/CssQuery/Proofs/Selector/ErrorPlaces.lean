import CssQuery.Engine
import CssQuery.Proofs.Formula.Failing
import CssQuery.Proofs.Selector.Lexing

/-!
# Where a selector is wrong

The body of an attribute selector, the text that `:contains()` looks for and
the argument of `:not()` are cut out of the selector and read as texts of their
own.  An error that is raised there keeps its place in that text, although it
is passed on as an error of the whole selector.

`RaisedIn` is the text that was being read when an error was raised.  The place
that the error names is right in that text, which is a stretch of the selector;
if the selector has no brackets and no arguments, it is the selector.
-/

namespace CssQuery

theorem AttributeSelector.failsWith_parse (body : List Char) :
    FailsWith (Error.PointsAt body) (AttributeSelector.parse body) := by
  have start := Cursor.isIn_start body
  unfold AttributeSelector.parse
  refine (start.failsWith_expect .attributeName).bind ?_
  rintro ⟨name, cursor⟩ taken
  have afterName := start.expect taken
  dsimp only
  split
  · exact .ok _
  · split
    · exact .error (afterName.pointsAt_unexpected _)
    · rename_i operator cursor found
      obtain ⟨candidate, -, tried⟩ := List.exists_of_findSome?_eq_some found
      obtain ⟨⟨symbol, behind⟩, literal, same⟩ := Option.map_eq_some_iff.mp tried
      cases same
      have afterOperator := afterName.take? (Recogniser.literal_cuts _) literal
      refine (afterOperator.failsWith_expect _).bind ?_
      rintro ⟨value, cursor⟩ -
      exact (cursor.failsWith_expectEnd body).bind fun _ _ => .ok _

theorem TextSearch.failsWith_parseArgument (argument : List Char) :
    FailsWith (Error.PointsAt argument) (TextSearch.parseArgument argument) := by
  unfold TextSearch.parseArgument
  split
  · refine ((Cursor.isIn_start argument).failsWith_expect .quoted).bind ?_
    rintro ⟨value, cursor⟩ -
    exact (cursor.failsWith_expectEnd argument).bind fun _ _ => .ok _
  · split
    · exact .error nofun
    · exact .ok _

/-- The piece stands in the text at an offset. -/
def StandsAt (text : List Char) (offset : Nat) (piece : List Char) : Prop :=
  ∃ before behind, text = before ++ (piece ++ behind) ∧ before.length = offset

namespace StandsAt

variable {text piece : List Char} {offset : Nat}

theorem whole (text : List Char) : StandsAt text 0 text :=
  ⟨[], [], by simp, rfl⟩

theorem of_drop {behind : List Char} (inside : offset ≤ text.length)
    (place : text.drop offset = piece ++ behind) : StandsAt text offset piece :=
  ⟨text.take offset, behind, by rw [← place, List.take_append_drop],
    List.length_take_of_le inside⟩

theorem trans {inner : List Char} {further : Nat} (outer : StandsAt text offset piece)
    (within : StandsAt piece further inner) : StandsAt text (offset + further) inner := by
  obtain ⟨before, behind, rfl, rfl⟩ := outer
  obtain ⟨innerBefore, innerBehind, rfl, rfl⟩ := within
  exact ⟨before ++ innerBefore, innerBehind ++ behind, by simp, by simp⟩

theorem getElem? (stands : StandsAt text offset piece) {position : Nat} {c : Char}
    (found : piece[position]? = some c) : text[offset + position]? = some c := by
  obtain ⟨before, behind, rfl, rfl⟩ := stands
  obtain ⟨inside, rfl⟩ := List.getElem?_eq_some_iff.mp found
  rw [List.getElem?_append_right (Nat.le_add_right _ _), Nat.add_sub_cancel_left,
    List.getElem?_append_left inside, found]

theorem contains (stands : StandsAt text offset piece) {c : Char} (member : c ∈ piece) :
    text.contains c = true := by
  obtain ⟨before, behind, rfl, -⟩ := stands
  simp [member]

end StandsAt

namespace SelectorToken

variable {text rest : List Char} {offset : Nat} {c : Char}

theorem drop_succ_of_drop (place : text.drop offset = c :: rest) :
    text.drop (offset + 1) = rest := by
  rw [← List.drop_drop, place, List.drop_one, List.tail_cons]

theorem pointsAt_of_drop {ahead : List Char} (inside : offset ≤ text.length)
    (place : text.drop offset = ahead) (expected : Option String) :
    Error.PointsAt text (.scan (.unexpected offset expected ahead.head?)) := by
  rw [← place, List.head?_drop]
  exact Error.pointsAt_unexpected inside expected

theorem offset_lt_of_drop (place : text.drop offset = c :: rest) : offset < text.length := by
  have length := congrArg List.length place
  rw [List.length_drop, List.length_cons] at length
  omega

/-- A token is read from the characters at its offset. -/
theorem of_mem_readFrom {tail : List Char} {skip : Nat} {placed : Placed SelectorToken}
    (member : placed ∈ readFrom skip offset tail) (place : text.drop offset = tail) :
    ∃ rest, text.drop placed.offset = placed.lead :: rest ∧
      placed.token = (next placed.offset placed.lead rest).1 := by
  induction tail generalizing skip offset with
  | nil => cases member
  | cons c tail ih =>
      cases skip with
      | succ skip => exact ih member (drop_succ_of_drop place)
      | zero =>
          rw [readFrom_zero] at member
          rcases List.mem_cons.mp member with rfl | later
          · exact ⟨tail, place, rfl⟩
          · exact ih later (drop_succ_of_drop place)

/-- A broken token carries an error at its offset or at the end of the name
behind its mark. -/
theorem pointsAt_of_broken {error : Error} (place : text.drop offset = c :: rest)
    (broken : (next offset c rest).1 = .broken error) : error.PointsAt text := by
  have inside := offset_lt_of_drop place
  have behind := drop_succ_of_drop place
  have missingName : ∀ make : List Char → SelectorToken,
      (∀ name, make name ≠ .broken error) → (marked make offset rest).1 = .broken error →
        error.PointsAt text := by
    intro make made broken
    rw [marked] at broken
    split at broken
    · exact absurd broken (made _)
    · cases broken
      exact pointsAt_of_drop inside behind _
  rcases next_cases offset c rest with ⟨single, spells, eq⟩ | ⟨-, eq⟩ | ⟨-, eq⟩ | ⟨-, eq⟩ |
    ⟨-, eq⟩ | eq
  all_goals rw [eq] at broken
  · subst broken
    cases spells
  · exact missingName .hash (fun _ same => by cases same) broken
  · exact missingName .dot (fun _ same => by cases same) broken
  · rw [spanning] at broken
    split at broken
    · cases broken
    · cases broken
      exact pointsAt_of_drop (Nat.le_of_lt inside) place _
  · rw [pseudoClass] at broken
    split at broken
    · cases broken
      exact pointsAt_of_drop inside behind _
    · rename_i token recognised
      split at broken
      · split at broken
        · cases broken
        · cases broken
          -- The name has been taken, and stands before the place of the error.
          have cut := (Recogniser.cssIdentifier_cuts recognised).text_eq
          have length := congrArg List.length behind
          rw [cut, List.length_drop, List.length_append] at length
          refine pointsAt_of_drop (by omega) ?_ _
          rw [← List.drop_drop, behind, cut, List.drop_left]
      · cases broken
  · rw [spanning] at broken
    split at broken <;> cases broken

/-- A token that is no error is spelled by the characters at its offset. -/
theorem standsAt_of_mem_read {placed : Placed SelectorToken} (member : placed ∈ read text)
    (wellFormed : placed.token.isWellFormed = true) :
    ∃ spelling, placed.token.Spells spelling ∧ StandsAt text placed.offset spelling := by
  obtain ⟨rest, place, token⟩ := of_mem_readFrom member rfl
  rcases read : next placed.offset placed.lead rest with ⟨spelt, skip⟩
  rw [token, read] at wellFormed ⊢
  obtain ⟨tail, spells, split, -⟩ := spells_of_next read wellFormed
  rw [split] at place
  have inside := Nat.le_of_lt (offset_lt_of_drop place)
  exact ⟨placed.lead :: tail, spells, .of_drop inside place⟩

theorem standsAt_brackets {placed : Placed SelectorToken} {body : List Char}
    (member : placed ∈ read text) (token : placed.token = .brackets body) :
    text.contains '[' = true ∧ StandsAt text (placed.offset + 1) body := by
  obtain ⟨spelling, spells, stands⟩ := standsAt_of_mem_read member (by rw [token]; rfl)
  rw [token] at spells
  cases spells with
  | brackets span =>
      exact ⟨stands.contains (by simp), stands.trans ⟨['['], [']'], rfl, rfl⟩⟩

theorem standsAt_argument {placed : Placed SelectorToken} {name argument : List Char}
    (member : placed ∈ read text) (token : placed.token = .colon name (some argument)) :
    text.contains '(' = true ∧
      StandsAt text (placed.offset + (name.length + 2)) argument := by
  obtain ⟨spelling, spells, stands⟩ := standsAt_of_mem_read member (by rw [token]; rfl)
  rw [token] at spells
  cases spells with
  | call identifier span =>
      exact ⟨stands.contains (by simp),
        stands.trans ⟨':' :: (name ++ ['(']), [')'], by simp, by simp⟩⟩

end SelectorToken

/-- The text that was being read when an error of a selector was raised, with
its offset in the selector. -/
inductive RaisedIn (error : Error) : List Char → Nat → List Char → Prop
  | selector {text : List Char} : RaisedIn error text 0 text
  | attributeBody {text body : List Char} {placed : Placed SelectorToken}
      (member : placed ∈ SelectorToken.read text) (token : placed.token = .brackets body)
      (raised : AttributeSelector.parse body = .error error) :
      RaisedIn error text (placed.offset + 1) body
  | searchText {text name argument : List Char} {placed : Placed SelectorToken}
      (member : placed ∈ SelectorToken.read text)
      (token : placed.token = .colon name (some argument))
      (kind : PseudoClassKind.ofName? (String.ofList name) = some .contains)
      (raised : TextSearch.parseArgument argument = .error error) :
      RaisedIn error text (placed.offset + (name.length + 2)) argument
  | negated {text name argument piece : List Char} {placed : Placed SelectorToken}
      {offset : Nat} (member : placed ∈ SelectorToken.read text)
      (token : placed.token = .colon name (some argument))
      (kind : PseudoClassKind.ofName? (String.ofList name) = some .not)
      (raised : RaisedIn error argument offset piece) :
      RaisedIn error text (placed.offset + (name.length + 2) + offset) piece

theorem RaisedIn.standsAt {error : Error} {text piece : List Char} {offset : Nat}
    (raised : RaisedIn error text offset piece) : StandsAt text offset piece := by
  induction raised with
  | selector => exact .whole _
  | attributeBody member token => exact (SelectorToken.standsAt_brackets member token).2
  | searchText member token => exact (SelectorToken.standsAt_argument member token).2
  | negated member token kind raised ih =>
      exact (SelectorToken.standsAt_argument member token).2.trans ih

/-- Only brackets and parentheses enclose a text that is read on its own. -/
theorem RaisedIn.eq_selector {error : Error} {text piece : List Char} {offset : Nat}
    (raised : RaisedIn error text offset piece) (noBrackets : text.contains '[' = false)
    (noArguments : text.contains '(' = false) : offset = 0 ∧ piece = text := by
  cases raised with
  | selector => exact ⟨rfl, rfl⟩
  | attributeBody member token =>
      rw [(SelectorToken.standsAt_brackets member token).1] at noBrackets
      cases noBrackets
  | searchText member token =>
      rw [(SelectorToken.standsAt_argument member token).1] at noArguments
      cases noArguments
  | negated member token =>
      rw [(SelectorToken.standsAt_argument member token).1] at noArguments
      cases noArguments

/-- The error is right about the text that was being read when it was raised. -/
def Error.Located (text : List Char) (error : Error) : Prop :=
  ∃ offset piece, RaisedIn error text offset piece ∧ error.PointsAt piece

theorem Error.PointsAt.located {text : List Char} {error : Error}
    (pointsAt : error.PointsAt text) : error.Located text :=
  ⟨0, text, .selector, pointsAt⟩

theorem Error.located_of_not_scan {text : List Char} {error : Error}
    (other : ∀ cause, error ≠ .scan cause) : error.Located text :=
  Error.PointsAt.located fun _ _ _ same => absurd same (other _)

namespace PseudoClass

/-- A pseudo-class is built with no error of its own about a place. -/
theorem failsWith_ofName (config : EngineConfig)
    {parseInner : List Char → Compiling SelectorList}
    (inner : ∀ argument, Compiling.FailsWith (Error.Located argument) (parseInner argument))
    {text name : List Char} {argument : Option (List Char)} {placed : Placed SelectorToken}
    (member : placed ∈ SelectorToken.read text) (token : placed.token = .colon name argument) :
    Compiling.FailsWith (Error.Located text)
      (ofName config parseInner (String.ofList name) argument) := by
  have refused : ∀ refusal, Error.Located text (.invalidSelector refusal) :=
    fun refusal => Error.located_of_not_scan nofun
  unfold ofName
  split
  · exact .throw (refused _)
  · rename_i kind named
    split
    · rename_i arity
      have formula : ∀ counting,
          Compiling.FailsWith (Error.Located text) (nth (argument.getD []) counting) :=
        fun counting => (Compiling.FailsWith.compile _
          fun _ other => Error.located_of_not_scan other).bind fun _ => .pure _
      have given : 1 = argument.toList.length → ∃ inside, argument = some inside := by
        intro one
        cases argument with
        | none => cases one
        | some inside => exact ⟨inside, rfl⟩
      cases kind with
      | nthChild => exact formula _
      | nthLastChild => exact formula _
      | nthOfType => exact formula _
      | nthLastOfType => exact formula _
      | contains =>
          obtain ⟨argument, rfl⟩ := given arity
          refine .ofResult (.map ?_ _)
          intro error raised
          exact ⟨_, _, .searchText member token named raised,
            TextSearch.failsWith_parseArgument argument error raised⟩
      | not =>
          obtain ⟨argument, rfl⟩ := given arity
          refine ((inner argument).mono ?_).map _
          rintro error ⟨offset, piece, raised, pointsAt⟩
          exact ⟨_, _, .negated member token named raised, pointsAt⟩
      | _ => exact .pure _
    · exact .throw (refused _)

end PseudoClass

namespace SelectorProgress

variable {text : List Char} {placed : Placed SelectorToken}

theorem pointsAt_refuse (progress : SelectorProgress)
    (member : placed ∈ SelectorToken.read text) :
    (progress.refuse placed).PointsAt text := by
  obtain ⟨rest, place, -⟩ := SelectorToken.of_mem_readFrom member rfl
  have inside := Nat.le_of_lt (SelectorToken.offset_lt_of_drop place)
  unfold refuse
  split <;> exact SelectorToken.pointsAt_of_drop inside place _

/-- One token fails with an error at its place, or with one that its own text
raises. -/
theorem failsWith_readToken {build : PseudoClassBuilder} (progress : SelectorProgress)
    (member : placed ∈ SelectorToken.read text)
    (builds : ∀ name argument, placed.token = .colon name argument →
      Compiling.FailsWith (Error.Located text) (build (String.ofList name) argument)) :
    Compiling.FailsWith (Error.Located text) (progress.readToken build placed) := by
  have refused := (progress.pointsAt_refuse member).located
  have begun : ∀ condition,
      Compiling.FailsWith (Error.Located text) (progress.beginWith placed condition) := by
    intro condition
    unfold beginWith
    split
    · exact .throw refused
    · exact .pure _
    · exact .pure _
  unfold readToken
  cases token : placed.token with
  | space => dsimp only; split <;> exact .pure _
  | combinator combinator =>
      dsimp only
      split
      · exact .throw refused
      · exact .pure _
      · exact .pure _
  | comma =>
      dsimp only
      split
      · exact .throw refused
      · exact .pure _
      · exact .pure _
  | star => exact begun _
  | name name => exact begun _
  | hash name => exact .pure _
  | dot name => exact .pure _
  | brackets body =>
      refine Compiling.FailsWith.bind (.ofResult ?_) fun _ => .pure _
      intro error raised
      exact ⟨_, _, .attributeBody member token raised,
        AttributeSelector.failsWith_parse body error raised⟩
  | colon name argument => exact (builds name argument token).bind fun _ => .pure _
  | broken error =>
      obtain ⟨rest, place, read⟩ := SelectorToken.of_mem_readFrom member rfl
      have broken := SelectorToken.pointsAt_of_broken place (read.symm.trans token)
      exact .throw broken.located
  | other => exact .throw refused

theorem failsWith_finish (progress : SelectorProgress) :
    FailsWith (Error.PointsAt text) (progress.finish text.length) := by
  unfold finish
  split
  · split
    · exact .error nofun
    · have atEnd := Error.pointsAt_unexpected (Nat.le_refl text.length) (some "a selector")
      rw [List.getElem?_eq_none (Nat.le_refl _)] at atEnd
      exact .error atEnd
  · exact .ok _
  · exact .ok _

end SelectorProgress

theorem SelectorList.failsWith_parse {build : PseudoClassBuilder} {text : List Char}
    (builds : ∀ placed ∈ SelectorToken.read text, ∀ name argument,
      placed.token = .colon name argument →
        Compiling.FailsWith (Error.Located text) (build (String.ofList name) argument)) :
    Compiling.FailsWith (Error.Located text) (SelectorList.parse build text) := by
  refine Compiling.FailsWith.bind (.foldlM (fun progress placed member =>
    progress.failsWith_readToken member (builds placed member)) _) fun progress => ?_
  exact .ofResult fun error raised => (progress.failsWith_finish error raised).located

theorem PseudoClass.failsWith_build (config : EngineConfig) (depth : Nat)
    {text name : List Char} {argument : Option (List Char)} {placed : Placed SelectorToken}
    (member : placed ∈ SelectorToken.read text) (token : placed.token = .colon name argument) :
    Compiling.FailsWith (Error.Located text)
      (build config depth (String.ofList name) argument) := by
  induction depth generalizing text name argument placed with
  | zero =>
      refine failsWith_ofName config (fun inner => .throw ?_) member token
      exact Error.PointsAt.located nofun
  | succ depth ih =>
      refine failsWith_ofName config (fun inner => ?_) member token
      exact SelectorList.failsWith_parse fun placed member name argument token =>
        ih member token

/-- A result fails with an error that is found by running it. -/
theorem eq_error_of_run {α : Type} {result : Except Error α} {error : Error}
    (run : (match result with
      | .error raised => raised == error
      | .ok _ => false) = true) : result = .error error := by
  cases result with
  | error raised => rw [beq_iff_eq.mp run]
  | ok value => cases run

namespace EngineConfig

/-- An unexpected character is reported with its place in the text that was
being read, which stands in the selector; that text is the selector itself if
it has neither brackets nor arguments. -/
theorem unexpected_of_parse {config : EngineConfig} {text : String}
    {cache : FormulaCache} (neverScans : cache.NeverScans) {position : Nat}
    {expected : Option String} {found : Option Char}
    (failed : ((config.parse text).runOn cache).1 =
      .error (.scan (.unexpected position expected found))) :
    ∃ offset piece,
      RaisedIn (.scan (.unexpected position expected found)) text.toList offset piece ∧
      StandsAt text.toList offset piece ∧ position ≤ piece.length ∧
      found = piece[position]? ∧
      (∀ c, found = some c → text.toList[offset + position]? = some c) ∧
      (text.toList.contains '[' = false → text.toList.contains '(' = false →
        position ≤ text.toList.length ∧ found = text.toList[position]?) := by
  have parses : Compiling.FailsWith (Error.Located text.toList) (config.parse text) :=
    SelectorList.failsWith_parse fun placed member name argument token =>
      PseudoClass.failsWith_build config text.toList.length member token
  obtain ⟨offset, piece, raised, pointsAt⟩ := (parses cache neverScans).1 _ failed
  obtain ⟨inside, character⟩ := pointsAt position expected found rfl
  refine ⟨offset, piece, raised, raised.standsAt, inside, character, ?_, ?_⟩
  · intro c here
    exact raised.standsAt.getElem? (character.symm.trans here)
  · intro noBrackets noArguments
    obtain ⟨-, rfl⟩ := raised.eq_selector noBrackets noArguments
    exact ⟨inside, character⟩

/-- A comparison without a value in the argument of `:not()`: the place is that
in the body of the attribute selector. -/
theorem unexpected_in_negated_attribute :
    ((EngineConfig.parse {} "p:not(q [a=])").runOn {}).1 =
      .error (.scan (.unexpected 2 (some "a quoted or unquoted value") none)) ∧
    ∃ offset piece, StandsAt "p:not(q [a=])".toList offset piece ∧
      2 ≤ piece.length ∧ none = piece[2]? := by
  have failed : ((EngineConfig.parse {} "p:not(q [a=])").runOn {}).1 =
      .error (.scan (.unexpected 2 (some "a quoted or unquoted value") none)) :=
    eq_error_of_run (by decide +kernel)
  have neverScans : FormulaCache.NeverScans {} := EquationParser.linear_ne_scan
  obtain ⟨offset, piece, -, stands, inside, character, -⟩ :=
    unexpected_of_parse neverScans failed
  exact ⟨failed, offset, piece, stands, inside, character⟩

/-- The place is not that in the selector, where another character stands. -/
theorem unexpected_misses_selector :
    ((EngineConfig.parse {} "[a=]").runOn {}).1 =
      .error (.scan (.unexpected 2 (some "a quoted or unquoted value") none)) ∧
    ¬(2 ≤ "[a=]".toList.length ∧ none = "[a=]".toList[2]?) :=
  ⟨eq_error_of_run (by decide +kernel), by decide⟩

end EngineConfig

end CssQuery
