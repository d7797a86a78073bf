import CssQuery.Proofs.Selector.Grammar
import Mathlib.Data.List.Chain

/-!
# Tokens and their spelling

The tokens read from a text are the tokens that spell it, each taken as long
as possible.  Only a word can be longer than intended, and what could make it
longer are the first characters of a name; so a spelling is read back as it
was meant wherever names stand only behind space, commas and combinators.
-/

namespace CssQuery

namespace SelectorToken

/-- The token ends in a word, which more characters could continue. -/
def isOpen : SelectorToken → Bool
  | name _ | hash _ | dot _ | colon _ none => true
  | _ => false

/-- The token is one of those that a selector list may contain. -/
def isWellFormed : SelectorToken → Bool
  | broken _ | other => false
  | _ => true

/-- What may stand behind a word: nothing that continues it, and no argument. -/
def Ends (rest : List Char) : Prop :=
  Stops isIdentifierPart rest ∧ rest.head? ≠ some '('

theorem not_isIdentifierPart_of_isSpace {c : Char} (space : isSpace c = true) :
    isIdentifierPart c = false := by
  rcases isSpace_iff.mp space with rfl | rfl | rfl | rfl | rfl <;> decide

/-- The first character of an identifier is none that begins another token. -/
theorem next_of_identifier {c : Char} (starts : c = '-' ∨ isNameStart c = true) (offset : Nat)
    (rest : List Char) :
    next offset c rest = spanning .name .cssIdentifier .other (c :: rest) := by
  have part : isIdentifierPart c = true := by
    rcases starts with rfl | starts
    · decide
    · simp [isIdentifierPart, starts]
  have differs : ∀ mark : Char, isIdentifierPart mark = false → c ≠ mark := by
    rintro mark notPart rfl
    rw [part] at notPart
    cases notPart
  have notSpace : isSpace c = false := by
    rw [Bool.eq_false_iff]
    intro space
    rw [not_isIdentifierPart_of_isSpace space] at part
    cases part
  unfold next
  rw [if_neg (by simp [notSpace]), if_neg (differs '>' (by decide)),
    if_neg (differs '+' (by decide)), if_neg (differs '~' (by decide)),
    if_neg (differs ',' (by decide)), if_neg (differs '*' (by decide)),
    if_neg (differs '#' (by decide)), if_neg (differs '.' (by decide)),
    if_neg (differs '[' (by decide)), if_neg (differs ':' (by decide))]

theorem recognise_span {bounds : Bounds} {body : List Char} (span : IsSpan bounds body)
    (rest : List Char) :
    (spanPattern bounds).recognise (bounds.opening :: (body ++ [bounds.closing] ++ rest)) =
      some ⟨bounds.opening :: body ++ [bounds.closing], body, rest⟩ := by
  rw [List.append_assoc]
  exact Recogniser.boundedBy_append span rest

theorem of_recognise_span {bounds : Bounds} {text : List Char} {token : Token}
    (taken : (spanPattern bounds).recognise text = some token) :
    ∃ body rest, IsSpan bounds body ∧ text = bounds.opening :: body ++ bounds.closing :: rest ∧
      token = ⟨bounds.opening :: body ++ [bounds.closing], body, rest⟩ :=
  Recogniser.of_boundedBy taken

theorem pseudoClass_of_word {word rest : List Char} (identifier : IsIdentifier word)
    (ends : Ends rest) (offset : Nat) :
    pseudoClass offset (word ++ rest) = (.colon word none, word.length) := by
  rw [pseudoClass, Recogniser.cssIdentifier_append identifier ends.1]
  exact if_neg ends.2

theorem pseudoClass_of_call {word argument : List Char} (identifier : IsIdentifier word)
    (span : IsSpan argumentBounds argument) (rest : List Char) (offset : Nat) :
    pseudoClass offset (word ++ ('(' :: (argument ++ [')'] ++ rest))) =
      (.colon word (some argument), word.length + ('(' :: argument ++ [')']).length) := by
  have stops : Stops isIdentifierPart ('(' :: (argument ++ [')'] ++ rest)) := .cons rfl _
  have opens : ('(' :: (argument ++ [')'] ++ rest)).head? = some argumentBounds.opening := rfl
  have taken : (spanPattern argumentBounds).recognise ('(' :: (argument ++ [')'] ++ rest)) =
      some ⟨'(' :: argument ++ [')'], argument, rest⟩ := recognise_span span rest
  rw [pseudoClass, Recogniser.cssIdentifier_append identifier stops]
  dsimp only [Token.plain]
  rw [if_pos opens, taken]

/-- A spelling is read back as its token. -/
theorem Spells.next_eq {token : SelectorToken} {text rest : List Char}
    (spells : token.Spells text) (ends : token.isOpen = true → Ends rest) :
    ∃ c tail, text = c :: tail ∧
      ∀ offset, next offset c (tail ++ rest) = (token, tail.length) := by
  cases spells with
  | space blank =>
      refine ⟨_, [], rfl, fun offset => ?_⟩
      rw [next, if_pos blank]
      rfl
  | child => exact ⟨'>', [], rfl, fun offset => rfl⟩
  | nextSibling => exact ⟨'+', [], rfl, fun offset => rfl⟩
  | subsequentSibling => exact ⟨'~', [], rfl, fun offset => rfl⟩
  | comma => exact ⟨',', [], rfl, fun offset => rfl⟩
  | star => exact ⟨'*', [], rfl, fun offset => rfl⟩
  | name identifier =>
      obtain ⟨c, tail, rfl, starts⟩ := Recogniser.head_of_isIdentifier identifier
      have taken := Recogniser.cssIdentifier_append identifier (ends rfl).1
      refine ⟨c, tail, rfl, fun offset => ?_⟩
      rw [next_of_identifier starts, spanning, Pattern.recognise, ← List.cons_append, taken]
      rfl
  | @hash word identifier =>
      have taken := Recogniser.cssIdentifier_append identifier (ends rfl).1
      refine ⟨'#', word, rfl, fun offset => ?_⟩
      change marked .hash offset (word ++ rest) = _
      rw [marked, taken]
      rfl
  | @dot word identifier =>
      have taken := Recogniser.cssIdentifier_append identifier (ends rfl).1
      refine ⟨'.', word, rfl, fun offset => ?_⟩
      change marked .dot offset (word ++ rest) = _
      rw [marked, taken]
      rfl
  | @brackets body span =>
      have taken := recognise_span span rest
      refine ⟨'[', body ++ [']'], rfl, fun offset => ?_⟩
      change spanning .brackets (spanPattern bracketBounds) _
        (bracketBounds.opening :: (body ++ [bracketBounds.closing] ++ rest)) = _
      rw [spanning, taken]
      rfl
  | @colon word identifier =>
      exact ⟨':', word, rfl, pseudoClass_of_word identifier (ends rfl)⟩
  | @call word argument identifier span =>
      refine ⟨':', word ++ ('(' :: argument ++ [')']), rfl, fun offset => ?_⟩
      change pseudoClass offset (word ++ ('(' :: (argument ++ [')'])) ++ rest) = _
      rw [List.append_assoc, List.cons_append, pseudoClass_of_call identifier span]
      simp

theorem eq_append_drop {text front back : List Char} (split : text = front ++ back) :
    text = front ++ text.drop front.length := by
  rw [split, List.drop_left]

theorem of_marked {make : List Char → SelectorToken} {offset skip : Nat} {rest : List Char}
    {token : SelectorToken} (read : marked make offset rest = (token, skip))
    (wellFormed : token.isWellFormed = true) :
    ∃ word, IsIdentifier word ∧ token = make word ∧ rest = word ++ rest.drop skip ∧
      word.length = skip := by
  rw [marked] at read
  cases taken : Recogniser.cssIdentifier rest with
  | none =>
      rw [taken] at read
      cases read
      cases wellFormed
  | some found =>
      obtain ⟨word, back, identifier, split, rfl⟩ := Recogniser.of_cssIdentifier taken
      rw [taken] at read
      cases read
      exact ⟨word, identifier, rfl, eq_append_drop split, rfl⟩

theorem of_pseudoClass {offset skip : Nat} {rest : List Char} {token : SelectorToken}
    (read : pseudoClass offset rest = (token, skip)) (wellFormed : token.isWellFormed = true) :
    ∃ tail, token.Spells (':' :: tail) ∧ rest = tail ++ rest.drop skip ∧ tail.length = skip := by
  rw [pseudoClass] at read
  cases taken : Recogniser.cssIdentifier rest with
  | none =>
      rw [taken] at read
      cases read
      cases wellFormed
  | some found =>
      obtain ⟨word, back, identifier, split, rfl⟩ := Recogniser.of_cssIdentifier taken
      rw [taken] at read
      dsimp only [Token.plain] at read
      by_cases opens : back.head? = some argumentBounds.opening
      · rw [if_pos opens] at read
        cases argument : (spanPattern argumentBounds).recognise back with
        | none =>
            rw [argument] at read
            cases read
            cases wellFormed
        | some inside =>
            obtain ⟨body, behind, span, backSplit, rfl⟩ := of_recognise_span argument
            rw [argument] at read
            cases read
            have whole : rest = (word ++ ('(' :: body ++ [')'])) ++ behind := by
              rw [split, backSplit]
              simp [argumentBounds]
            refine ⟨word ++ ('(' :: body ++ [')']), .call identifier span, ?_, ?_⟩
            · have dropped := eq_append_drop whole
              rwa [List.length_append] at dropped
            · exact List.length_append
      · rw [if_neg opens] at read
        cases read
        exact ⟨word, .colon identifier, eq_append_drop split, rfl⟩

theorem of_spanning {make : List Char → SelectorToken} {pattern : Pattern}
    {otherwise : SelectorToken} {text : List Char} {skip : Nat} {token : SelectorToken}
    (read : spanning make pattern otherwise text = (token, skip))
    (wellFormed : token.isWellFormed = true) (refused : otherwise.isWellFormed = false) :
    ∃ found, pattern.recognise text = some found ∧ token = make found.value ∧
      found.lexeme.length - 1 = skip := by
  rw [spanning] at read
  cases taken : pattern.recognise text with
  | none =>
      rw [taken] at read
      cases read
      rw [refused] at wellFormed
      cases wellFormed
  | some found =>
      rw [taken] at read
      cases read
      exact ⟨found, rfl, rfl, rfl⟩

/-- A token is one character, or begins with a mark, or is a name or nothing
that a selector contains. -/
theorem next_cases (offset : Nat) (c : Char) (rest : List Char) :
    (∃ token : SelectorToken, token.Spells [c] ∧ next offset c rest = (token, 0)) ∨
    (c = '#' ∧ next offset c rest = marked .hash offset rest) ∨
    (c = '.' ∧ next offset c rest = marked .dot offset rest) ∨
    (c = '[' ∧ next offset c rest = spanning .brackets (spanPattern bracketBounds)
      (missing (spanPattern bracketBounds) offset (c :: rest)) (c :: rest)) ∨
    (c = ':' ∧ next offset c rest = pseudoClass offset rest) ∨
    next offset c rest = spanning .name .cssIdentifier .other (c :: rest) := by
  unfold next
  by_cases space : isSpace c = true
  · exact .inl ⟨_, .space space, if_pos space⟩
  rw [if_neg space]
  by_cases child : c = '>'
  · exact .inl ⟨_, child ▸ .child, if_pos child⟩
  rw [if_neg child]
  by_cases nextSibling : c = '+'
  · exact .inl ⟨_, nextSibling ▸ .nextSibling, if_pos nextSibling⟩
  rw [if_neg nextSibling]
  by_cases subsequentSibling : c = '~'
  · exact .inl ⟨_, subsequentSibling ▸ .subsequentSibling, if_pos subsequentSibling⟩
  rw [if_neg subsequentSibling]
  by_cases comma : c = ','
  · exact .inl ⟨_, comma ▸ .comma, if_pos comma⟩
  rw [if_neg comma]
  by_cases star : c = '*'
  · exact .inl ⟨_, star ▸ .star, if_pos star⟩
  rw [if_neg star]
  by_cases hash : c = '#'
  · exact .inr (.inl ⟨hash, if_pos hash⟩)
  rw [if_neg hash]
  by_cases dot : c = '.'
  · exact .inr (.inr (.inl ⟨dot, if_pos dot⟩))
  rw [if_neg dot]
  by_cases bracket : c = '['
  · exact .inr (.inr (.inr (.inl ⟨bracket, if_pos bracket⟩)))
  rw [if_neg bracket]
  by_cases colon : c = ':'
  · exact .inr (.inr (.inr (.inr (.inl ⟨colon, if_pos colon⟩))))
  exact .inr (.inr (.inr (.inr (.inr (if_neg colon)))))

/-- A token that is read, unless it is an error, is spelled by the characters
it takes. -/
theorem spells_of_next {offset skip : Nat} {c : Char} {rest : List Char}
    {token : SelectorToken} (read : next offset c rest = (token, skip))
    (wellFormed : token.isWellFormed = true) :
    ∃ tail, token.Spells (c :: tail) ∧ rest = tail ++ rest.drop skip ∧ tail.length = skip := by
  rcases next_cases offset c rest with ⟨single, spells, eq⟩ | ⟨same, eq⟩ | ⟨same, eq⟩ |
    ⟨same, eq⟩ | ⟨same, eq⟩ | eq
  all_goals rw [eq] at read
  · cases read
    exact ⟨[], spells, rfl, rfl⟩
  · obtain ⟨word, identifier, rfl, split, length⟩ := of_marked read wellFormed
    exact ⟨word, same ▸ .hash identifier, split, length⟩
  · obtain ⟨word, identifier, rfl, split, length⟩ := of_marked read wellFormed
    exact ⟨word, same ▸ .dot identifier, split, length⟩
  · obtain ⟨found, taken, rfl, rfl⟩ := of_spanning read wellFormed rfl
    obtain ⟨body, behind, span, split, rfl⟩ := of_recognise_span taken
    rw [List.cons_append] at split
    obtain ⟨-, restSplit⟩ := List.cons_eq_cons.mp split
    have whole : rest = (body ++ [']']) ++ behind := by
      rw [restSplit, List.append_assoc]
      rfl
    exact ⟨body ++ [']'], same ▸ .brackets span, eq_append_drop whole, rfl⟩
  · exact same ▸ of_pseudoClass read wellFormed
  · obtain ⟨found, taken, rfl, rfl⟩ := of_spanning read wellFormed rfl
    obtain ⟨word, behind, identifier, split, rfl⟩ := Recogniser.of_cssIdentifier taken
    obtain ⟨first, tail, rfl, -⟩ := Recogniser.head_of_isIdentifier identifier
    rw [List.cons_append] at split
    obtain ⟨same, restSplit⟩ := List.cons_eq_cons.mp split
    subst same
    exact ⟨tail, .name identifier, eq_append_drop restSplit, rfl⟩

/-- The token begins with the first character of a word. -/
def isName : SelectorToken → Bool
  | name _ => true
  | _ => false

theorem Spells.ends {token : SelectorToken} {text : List Char} (spells : token.Spells text)
    (notName : token.isName = false) (rest : List Char) : Ends (text ++ rest) := by
  have first : ∀ c tail, text = c :: tail → isIdentifierPart c = false ∧ c ≠ '(' := by
    intro c tail split
    cases spells with
    | space blank =>
        cases split
        refine ⟨not_isIdentifierPart_of_isSpace blank, ?_⟩
        rintro rfl
        exact absurd blank (by decide)
    | name identifier => cases notName
    | _ =>
        cases split
        decide
  obtain ⟨c, tail, rfl⟩ : ∃ c tail, text = c :: tail := by
    cases spells with
    | name identifier => cases notName
    | _ => exact ⟨_, _, rfl⟩
  obtain ⟨notPart, notOpening⟩ := first c tail rfl
  refine ⟨.cons notPart _, ?_⟩
  rintro ⟨⟩
  exact notOpening rfl

/-- No name stands directly behind a word. -/
def Separated (tokens : List SelectorToken) : Prop :=
  tokens.IsChain fun first second => second.isName = true → first.isOpen = false

theorem Lexes.ends_append {tokens : List SelectorToken} {text rest : List Char}
    (lexes : Lexes tokens text) (notName : ∀ token ∈ tokens.head?, token.isName = false)
    (ends : Ends rest) : Ends (text ++ rest) := by
  cases lexes with
  | nil => exact ends
  | cons spells later =>
      rw [List.append_assoc]
      exact spells.ends (notName _ rfl) _

/-- The reader of the library, seen from any place in a text. -/
def readFrom (skip offset : Nat) (text : List Char) : List (Placed SelectorToken) :=
  Placed.readFrom
    (fun offset c rest => (some (next offset c rest).1, (next offset c rest).2))
    skip offset text

theorem readFrom_append (front back : List Char) (offset : Nat) :
    readFrom front.length offset (front ++ back) =
      readFrom 0 (offset + front.length) back :=
  Placed.readFrom_append _ front back offset

theorem readFrom_zero (offset : Nat) (c : Char) (rest : List Char) :
    readFrom 0 offset (c :: rest) =
      ⟨offset, c, (next offset c rest).1⟩ ::
        readFrom (next offset c rest).2 (offset + 1) rest := rfl

/-- A spelling without words that run together is read back token by token in
front of any text that does not continue its last word. -/
theorem Lexes.read_append {tokens : List SelectorToken} {text rest : List Char}
    (lexes : Lexes tokens text) (separated : Separated tokens) (restEnds : Ends rest)
    (offset : Nat) :
    (readFrom 0 offset (text ++ rest)).map Placed.token =
      tokens ++ (readFrom 0 (offset + text.length) rest).map Placed.token := by
  induction lexes generalizing offset with
  | nil => rfl
  | @cons token tokens front later spells lexes ih =>
      have ends : token.isOpen = true → Ends (later ++ rest) := by
        intro isOpen
        refine lexes.ends_append ?_ restEnds
        intro second first
        cases tokens with
        | nil => cases first
        | cons _ tokens =>
            cases first
            rw [Bool.eq_false_iff]
            intro isName
            have closed := (List.isChain_cons_cons.mp separated).1 isName
            rw [isOpen] at closed
            cases closed
      obtain ⟨c, tail, rfl, read⟩ := spells.next_eq ends
      rw [List.append_assoc, List.cons_append, readFrom_zero, read offset, readFrom_append,
        List.map_cons, ih separated.tail, List.cons_append, List.cons_append, List.length_cons,
        List.length_append]
      congr 4
      omega

theorem Lexes.read_eq {tokens : List SelectorToken} {text : List Char}
    (lexes : Lexes tokens text) (separated : Separated tokens) (offset : Nat) :
    (readFrom 0 offset text).map Placed.token = tokens := by
  have ends : Ends [] := ⟨fun _ first => (nomatch first), fun first => (nomatch first)⟩
  have read := lexes.read_append separated ends offset
  rwa [List.append_nil, show readFrom 0 (offset + text.length) [] = [] from rfl, List.map_nil,
    List.append_nil] at read

/-- Tokens that are read, if there is no error among them, spell the text. -/
theorem lexes_of_read {text : List Char} {skip offset : Nat}
    (wellFormed : ∀ placed ∈ readFrom skip offset text, placed.token.isWellFormed = true) :
    Lexes ((readFrom skip offset text).map Placed.token) (text.drop skip) := by
  induction text generalizing skip offset with
  | nil =>
      rw [List.drop_nil]
      exact .nil
  | cons c rest ih =>
      cases skip with
      | succ skip => exact ih wellFormed
      | zero =>
          cases read : next offset c rest with
          | mk token skip =>
              rw [readFrom_zero, read] at wellFormed ⊢
              obtain ⟨tail, spells, split, -⟩ :=
                spells_of_next read (wellFormed _ List.mem_cons_self)
              have later := ih fun placed member =>
                wellFormed placed (List.mem_cons_of_mem _ member)
              have lexes := Lexes.cons spells later
              rw [List.cons_append, ← split] at lexes
              exact lexes

end SelectorToken

end CssQuery
