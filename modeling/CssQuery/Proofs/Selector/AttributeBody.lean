import CssQuery.Proofs.Selector.Lexing
import CssQuery.Selector.Attribute

/-!
# The grammar of attribute selectors

Between its brackets an attribute selector is a name, which an operator and a
value may follow.

    body  := ws* name ws* (op ws* value ws*)?
    op    := '~=' | '|=' | '^=' | '$=' | '*=' | '='
    value := a quote, characters other than this quote, the same quote
           | characters other than space, at least one, the first no quote

The reader takes token after token and never goes back.  This loses nothing,
because the parts of a body cannot run into each other: neither space nor an
operator goes on with a name, no operator begins with another one, and a value
ends at its quote or at space.
-/

namespace CssQuery

/-- The text is selector space and nothing else. -/
def IsBlank (text : List Char) : Prop :=
  ∀ c ∈ text, isSpace c = true

instance : DecidablePred IsBlank := fun text =>
  List.decidableBAll _ text

/-- The text is the name of an attribute as a whole. -/
def IsAttributeName (name : List Char) : Prop :=
  ∃ first others, name = first :: others ∧ isNameStart first = true ∧
    ∀ c ∈ others, isMarkupNamePart c = true

/-- A value with the characters that spell it. -/
inductive SpellsValue : (value text : List Char) → Prop
  | quoted {quote : Char} {value : List Char} (quotes : isQuote quote = true)
      (inert : quote ∉ value) : SpellsValue value (quote :: value ++ [quote])
  | bare {first : Char} {others : List Char} (plain : isQuote first = false)
      (unbroken : ∀ c ∈ first :: others, isSpace c = false) :
      SpellsValue (first :: others) (first :: others)

namespace AttributeSelector

def name : AttributeSelector → String
  | present name => name
  | compare _ name _ => name

/-- An attribute selector with a body in which it is written. -/
inductive Writes : AttributeSelector → List Char → Prop
  | present {name : String} {before after : List Char} (spaceBefore : IsBlank before)
      (isName : IsAttributeName name.toList) (spaceAfter : IsBlank after) :
      Writes (.present name) (before ++ (name.toList ++ after))
  | compare {operator : AttributeOperator} {name value : String}
      {before middle gap written after : List Char} (spaceBefore : IsBlank before)
      (isName : IsAttributeName name.toList) (spaceMiddle : IsBlank middle)
      (spaceGap : IsBlank gap) (spells : SpellsValue value.toList written)
      (spaceAfter : IsBlank after) :
      Writes (.compare operator name value)
        (before ++ (name.toList ++
          (middle ++ (operator.symbol.toList ++ (gap ++ (written ++ after))))))

end AttributeSelector

section Characters

/-- What an unquoted value consists of where it has no terminators. -/
def isBareValuePart (c : Char) : Bool :=
  !isSpace c && !([] : List Char).contains c

theorem isQuote_cases {quote : Char} (quotes : isQuote quote = true) :
    quote = '\x22' ∨ quote = '\x27' := by
  simpa [isQuote] using quotes

theorem isSpace_of_isQuote {quote : Char} (quotes : isQuote quote = true) :
    isSpace quote = false := by
  rcases isQuote_cases quotes with rfl | rfl <;> rfl

theorem isSpace_of_isNameStart {c : Char} (start : isNameStart c = true) : isSpace c = false := by
  rw [Bool.eq_false_iff]
  intro space
  have part := SelectorToken.not_isIdentifierPart_of_isSpace space
  simp [isIdentifierPart, start] at part

theorem isMarkupNamePart_of_isSpace {c : Char} (space : isSpace c = true) :
    isMarkupNamePart c = false := by
  rcases isSpace_iff.mp space with rfl | rfl | rfl | rfl | rfl <;> rfl

end Characters

section Stopping

variable {part : Char → Bool}

theorem Stops.nil : Stops part [] := nofun

theorem IsBlank.nil : IsBlank [] := nofun

/-- Space that does not continue a run may stand before what does not. -/
theorem IsBlank.stops_append {blank rest : List Char} (isBlank : IsBlank blank)
    (refused : ∀ c, isSpace c = true → part c = false) (stops : Stops part rest) :
    Stops part (blank ++ rest) := by
  cases blank with
  | nil => exact stops
  | cons c blank => exact .cons (refused c (isBlank c List.mem_cons_self)) _

theorem IsBlank.stops {blank : List Char} (isBlank : IsBlank blank)
    (refused : ∀ c, isSpace c = true → part c = false) : Stops part blank := by
  rw [← blank.append_nil]
  exact stops_append isBlank refused .nil

theorem IsAttributeName.isMarkupNamePart_of_mem {name : List Char} (isName : IsAttributeName name)
    {c : Char} (member : c ∈ name) : isMarkupNamePart c = true := by
  obtain ⟨first, others, rfl, starts, parts⟩ := isName
  rcases List.mem_cons.mp member with rfl | later
  · simp [isMarkupNamePart, isIdentifierPart, starts]
  · exact parts c later

theorem IsAttributeName.stops_space {name : List Char} (isName : IsAttributeName name)
    (rest : List Char) : Stops isSpace (name ++ rest) := by
  obtain ⟨first, others, rfl, starts, -⟩ := isName
  exact .cons (isSpace_of_isNameStart starts) _

theorem SpellsValue.stops_space {value text : List Char} (spells : SpellsValue value text)
    (rest : List Char) : Stops isSpace (text ++ rest) := by
  cases spells with
  | quoted quotes inert => exact .cons (isSpace_of_isQuote quotes) _
  | bare plain unbroken => exact .cons (unbroken _ List.mem_cons_self) _

end Stopping

namespace Cursor

/-- Space ahead only moves the place of the next token. -/
theorem skipSpace_append (offset : Nat) {blank ahead : List Char} (isBlank : IsBlank blank)
    (stops : Stops isSpace ahead) :
    skipSpace ⟨offset, blank ++ ahead⟩ = ⟨offset + blank.length, ahead⟩ := by
  rw [skipSpace, Recogniser.takeWhile_append_stops isBlank stops,
    Recogniser.dropWhile_append_stops isBlank stops]

theorem exists_blank (cursor : Cursor) :
    ∃ blank, IsBlank blank ∧ cursor.ahead = blank ++ cursor.skipSpace.ahead :=
  ⟨cursor.ahead.takeWhile isSpace, fun _ member => List.mem_takeWhile_imp member,
    List.takeWhile_append_dropWhile.symm⟩

theorem atEnd_iff {cursor : Cursor} : cursor.atEnd = true ↔ IsBlank cursor.ahead := by
  rw [atEnd, skipSpace, List.isEmpty_iff, List.dropWhile_eq_nil_iff]
  rfl

theorem expectEnd_eq_ok_iff {cursor : Cursor} :
    cursor.expectEnd = .ok () ↔ IsBlank cursor.ahead := by
  rw [expectEnd, ← atEnd_iff]
  split <;> simp [*]

/-- A token is expected where space may stand before it. -/
theorem expect_append (offset : Nat) (pattern : Pattern) {blank ahead : List Char} {token : Token}
    (isBlank : IsBlank blank) (stops : Stops isSpace ahead)
    (taken : pattern.recognise ahead = some token) :
    expect ⟨offset, blank ++ ahead⟩ pattern =
      .ok (token.value, ⟨offset + blank.length + token.lexeme.length, token.rest⟩) := by
  rw [expect, take?, skipSpace_append offset isBlank stops, taken]
  rfl

theorem of_expect {cursor behind : Cursor} {pattern : Pattern} {value : List Char}
    (taken : cursor.expect pattern = .ok (value, behind)) :
    ∃ blank ahead token, IsBlank blank ∧ cursor.ahead = blank ++ ahead ∧
      pattern.recognise ahead = some token ∧ value = token.value ∧
      behind.ahead = token.rest := by
  obtain ⟨blank, isBlank, ahead_eq⟩ := cursor.exists_blank
  rw [expect, take?] at taken
  cases recognised : pattern.recognise cursor.skipSpace.ahead with
  | none =>
      rw [recognised] at taken
      cases taken
  | some token =>
      rw [recognised] at taken
      cases taken
      exact ⟨blank, _, token, isBlank, ahead_eq, recognised, rfl, rfl⟩

end Cursor

namespace Recogniser

theorem attributeName_append {name rest : List Char} (isName : IsAttributeName name)
    (stops : Stops isMarkupNamePart rest) :
    attributeName (name ++ rest) = some (.plain name rest) :=
  name_append (name_whole_iff.mpr isName) stops

theorem of_attributeName {text : List Char} {token : Token}
    (taken : attributeName text = some token) :
    ∃ name rest, IsAttributeName name ∧ text = name ++ rest ∧ token = .plain name rest := by
  obtain ⟨name, rest, whole, rfl, rfl⟩ := of_name taken
  exact ⟨name, rest, name_whole_iff.mp whole, rfl, rfl⟩

/-- A value is taken whole in front of space. -/
theorem value_append {value written after : List Char} (spells : SpellsValue value written)
    (spaceAfter : IsBlank after) :
    Recogniser.value [] (written ++ after) = some ⟨written, value, after⟩ := by
  cases spells with
  | @quoted quote value quotes inert =>
      have opened : ((quote :: value ++ [quote] ++ after).head?.map isQuote).getD false = true :=
        quotes
      rw [Recogniser.value, if_pos opened, List.append_assoc]
      exact quoted_append quotes inert after
  | @bare first others plain unbroken =>
      have bare : ((first :: others ++ after).head?.map isQuote).getD false = false := plain
      have solid : ∀ c ∈ first :: others, isBareValuePart c = true := by
        intro c member
        rw [isBareValuePart, unbroken c member]
        rfl
      have refused : ∀ c, isSpace c = true → isBareValuePart c = false := by
        intro c space
        rw [isBareValuePart, space]
        rfl
      rw [Recogniser.value, if_neg (ne_of_eq_of_ne bare Bool.false_ne_true)]
      exact run_append (List.cons_ne_nil _ _) solid (spaceAfter.stops refused)

theorem of_value {text : List Char} {token : Token}
    (taken : Recogniser.value [] text = some token) :
    ∃ value written rest, SpellsValue value written ∧ text = written ++ rest ∧
      token = ⟨written, value, rest⟩ := by
  rw [Recogniser.value] at taken
  split at taken
  case isTrue =>
    obtain ⟨quote, value, rest, quotes, inert, rfl, rfl⟩ := of_quoted taken
    exact ⟨value, _, rest, .quoted quotes inert, by simp, rfl⟩
  case isFalse bare =>
    obtain ⟨word, rest, nonempty, solid, rfl, rfl⟩ := of_run taken
    obtain ⟨first, others, rfl⟩ := List.exists_cons_of_ne_nil nonempty
    have plain : isQuote first = false := by simpa using bare
    have unbroken : ∀ c ∈ first :: others, isSpace c = false := by
      intro c member
      simpa using solid c member
    exact ⟨_, _, rest, .bare plain unbroken, rfl, rfl⟩

end Recogniser

namespace AttributeOperator

/-- An operator goes on with no name and begins with no space. -/
theorem head_symbol (operator : AttributeOperator) :
    ∃ c tail, operator.symbol.toList = c :: tail ∧
      isMarkupNamePart c = false ∧ isSpace c = false := by
  cases operator <;> exact ⟨_, _, rfl, rfl, rfl⟩

theorem stops_part (operator : AttributeOperator) (rest : List Char) :
    Stops isMarkupNamePart (operator.symbol.toList ++ rest) := by
  obtain ⟨c, tail, symbol, notPart, -⟩ := operator.head_symbol
  rw [symbol]
  exact .cons notPart _

theorem stops_space (operator : AttributeOperator) (rest : List Char) :
    Stops isSpace (operator.symbol.toList ++ rest) := by
  obtain ⟨c, tail, symbol, -, notSpace⟩ := operator.head_symbol
  rw [symbol]
  exact .cons notSpace _

theorem atEnd_append (operator : AttributeOperator) (offset : Nat) (blank rest : List Char) :
    Cursor.atEnd ⟨offset, blank ++ (operator.symbol.toList ++ rest)⟩ = false := by
  obtain ⟨c, tail, symbol, -, notSpace⟩ := operator.head_symbol
  rw [Bool.eq_false_iff]
  intro atEnd
  have space := Cursor.atEnd_iff.mp atEnd c (by simp [symbol])
  rw [notSpace] at space
  cases space

end AttributeOperator

/-- A sequence of two steps succeeds when both do. -/
theorem bind_eq_ok_iff {α β : Type} {first : Except Error α} {next : α → Except Error β}
    {result : β} :
    first >>= next = .ok result ↔ ∃ value, first = .ok value ∧ next value = .ok result := by
  cases first <;> simp [bind, Except.bind]

namespace AttributeSelector

/-- No operator that is tried before the one that is written stands there. -/
theorem takeOperator?_append (offset : Nat) {blank : List Char} (isBlank : IsBlank blank)
    (operator : AttributeOperator) (rest : List Char) :
    takeOperator? ⟨offset, blank ++ (operator.symbol.toList ++ rest)⟩ =
      some (operator, ⟨offset + blank.length + operator.symbol.toList.length, rest⟩) := by
  have skipped := Cursor.skipSpace_append offset isBlank (operator.stops_space rest)
  simp only [takeOperator?, Cursor.take?, skipped]
  cases operator <;> rfl

theorem of_takeOperator? {cursor behind : Cursor} {operator : AttributeOperator}
    (taken : takeOperator? cursor = some (operator, behind)) :
    ∃ blank, IsBlank blank ∧
      cursor.ahead = blank ++ (operator.symbol.toList ++ behind.ahead) := by
  obtain ⟨blank, isBlank, ahead_eq⟩ := cursor.exists_blank
  obtain ⟨tried, -, found⟩ := List.exists_of_findSome?_eq_some taken
  obtain ⟨⟨lexeme, after⟩, takenHere, same⟩ := Option.map_eq_some_iff.mp found
  cases same
  obtain ⟨token, recognised, same⟩ := Option.map_eq_some_iff.mp takenHere
  cases same
  obtain ⟨rest, split, rfl⟩ := Recogniser.of_literal recognised
  exact ⟨blank, isBlank, by rw [ahead_eq, split]; rfl⟩

/-- The steps that the reader takes when it succeeds. -/
theorem parse_eq_ok_iff {body : List Char} {selector : AttributeSelector} :
    parse body = .ok selector ↔
      ∃ name cursor, Cursor.expect ⟨0, body⟩ .attributeName = .ok (name, cursor) ∧
        (cursor.atEnd = true ∧ selector = .present (String.ofList name) ∨
          cursor.atEnd = false ∧ ∃ operator behind value last,
            takeOperator? cursor = some (operator, behind) ∧
            behind.expect (.value []) = .ok (value, last) ∧ last.expectEnd = .ok () ∧
            selector = .compare operator (String.ofList name) (String.ofList value)) := by
  rw [parse, bind_eq_ok_iff]
  constructor
  · rintro ⟨⟨name, cursor⟩, expected, continued⟩
    refine ⟨name, cursor, expected, ?_⟩
    simp only at continued
    split at continued
    case isTrue atEnd =>
      cases continued
      exact .inl ⟨atEnd, rfl⟩
    case isFalse more =>
      split at continued
      case h_1 => cases continued
      case h_2 operator behind taken =>
        obtain ⟨⟨value, last⟩, valued, continued⟩ := bind_eq_ok_iff.mp continued
        obtain ⟨_, ended, continued⟩ := bind_eq_ok_iff.mp continued
        cases continued
        have more : cursor.atEnd = false := by simpa using more
        exact .inr ⟨more, operator, behind, value, last, taken, valued, ended, rfl⟩
  · rintro ⟨name, cursor, expected, steps⟩
    refine ⟨(name, cursor), expected, ?_⟩
    simp only
    rcases steps with ⟨atEnd, rfl⟩ |
      ⟨more, operator, behind, value, last, taken, valued, ended, rfl⟩
    · rw [if_pos atEnd]
      rfl
    · rw [more, if_neg Bool.false_ne_true, taken]
      exact bind_eq_ok_iff.mpr ⟨_, valued, bind_eq_ok_iff.mpr ⟨_, ended, rfl⟩⟩

/-- What is written for an attribute selector is read as it. -/
theorem parse_of_writes {selector : AttributeSelector} {text : List Char}
    (writes : selector.Writes text) : parse text = .ok selector := by
  rw [parse_eq_ok_iff]
  cases writes with
  | @present name before after spaceBefore isName spaceAfter =>
      have named := Recogniser.attributeName_append isName
        (spaceAfter.stops fun _ => isMarkupNamePart_of_isSpace)
      have expected := Cursor.expect_append 0 .attributeName spaceBefore
        (isName.stops_space after) named
      exact ⟨_, _, expected, .inl ⟨Cursor.atEnd_iff.mpr spaceAfter, by simp [Token.plain]⟩⟩
  | @compare operator name value before middle gap written after spaceBefore isName spaceMiddle
      spaceGap spells spaceAfter =>
      have stopsPart := spaceMiddle.stops_append (fun _ => isMarkupNamePart_of_isSpace)
        (operator.stops_part (gap ++ (written ++ after)))
      have expected := Cursor.expect_append 0 .attributeName spaceBefore (isName.stops_space _)
        (Recogniser.attributeName_append isName stopsPart)
      have operated := takeOperator?_append (0 + before.length + name.toList.length)
        spaceMiddle operator (gap ++ (written ++ after))
      have valued := Cursor.expect_append
        (0 + before.length + name.toList.length + middle.length + operator.symbol.toList.length)
        (.value []) spaceGap (spells.stops_space after)
        (Recogniser.value_append spells spaceAfter)
      refine ⟨_, _, expected, .inr ⟨operator.atEnd_append _ _ _, operator, _, _, _, operated,
        valued, Cursor.expectEnd_eq_ok_iff.mpr spaceAfter, ?_⟩⟩
      simp [Token.plain]

/-- What is read as an attribute selector is written for it. -/
theorem writes_of_parse {selector : AttributeSelector} {text : List Char}
    (parsed : parse text = .ok selector) : selector.Writes text := by
  obtain ⟨name, cursor, expected, steps⟩ := parse_eq_ok_iff.mp parsed
  obtain ⟨before, _, _, spaceBefore, text_eq, taken, rfl, cursor_eq⟩ :=
    Cursor.of_expect expected
  obtain ⟨name, rest, isName, rfl, rfl⟩ := Recogniser.of_attributeName taken
  have isName : IsAttributeName (String.ofList name).toList := by rwa [String.toList_ofList]
  have cursor_eq : cursor.ahead = rest := cursor_eq
  have text_eq : text = before ++ ((String.ofList name).toList ++ cursor.ahead) := by
    rw [String.toList_ofList, cursor_eq]
    exact text_eq
  rcases steps with ⟨atEnd, rfl⟩ |
    ⟨-, operator, behind, value, last, operated, valued, ended, rfl⟩
  · rw [text_eq]
    exact .present spaceBefore isName (Cursor.atEnd_iff.mp atEnd)
  · obtain ⟨middle, spaceMiddle, ahead_eq⟩ := of_takeOperator? operated
    obtain ⟨gap, _, _, spaceGap, behind_eq, taken, rfl, last_eq⟩ := Cursor.of_expect valued
    obtain ⟨value, written, after, spells, rfl, rfl⟩ := Recogniser.of_value taken
    have spells : SpellsValue (String.ofList value).toList written := by rwa [String.toList_ofList]
    have last_eq : last.ahead = after := last_eq
    have spaceAfter := Cursor.expectEnd_eq_ok_iff.mp ended
    rw [last_eq] at spaceAfter
    rw [text_eq, ahead_eq, behind_eq]
    exact .compare spaceBefore isName spaceMiddle spaceGap spells spaceAfter

/-- Nothing continues the name where an attribute selector is written. -/
theorem Writes.exists_name {selector : AttributeSelector} {text : List Char}
    (writes : selector.Writes text) :
    ∃ before rest, IsBlank before ∧ IsAttributeName selector.name.toList ∧
      Stops isMarkupNamePart rest ∧ text = before ++ (selector.name.toList ++ rest) := by
  cases writes with
  | present spaceBefore isName spaceAfter =>
      exact ⟨_, _, spaceBefore, isName,
        spaceAfter.stops fun _ => isMarkupNamePart_of_isSpace, rfl⟩
  | compare spaceBefore isName spaceMiddle spaceGap spells spaceAfter =>
      exact ⟨_, _, spaceBefore, isName,
        spaceMiddle.stops_append (fun _ => isMarkupNamePart_of_isSpace)
          (AttributeOperator.stops_part _ _), rfl⟩

/-- Every name that can be taken where an attribute selector is written is a
beginning of its name. -/
theorem Writes.name_maximal {selector : AttributeSelector} {text : List Char}
    (writes : selector.Writes text) {before name rest : List Char} (spaceBefore : IsBlank before)
    (isName : IsAttributeName name) (taken : text = before ++ (name ++ rest)) :
    name <+: selector.name.toList := by
  obtain ⟨front, behind, spaceFront, isOwn, stops, split⟩ := writes.exists_name
  have same : name ++ rest = selector.name.toList ++ behind :=
    calc name ++ rest = text.dropWhile isSpace := by
          rw [taken, Recogniser.dropWhile_append_stops spaceBefore (isName.stops_space rest)]
      _ = selector.name.toList ++ behind := by
          rw [split, Recogniser.dropWhile_append_stops spaceFront (isOwn.stops_space behind)]
  have longest := congrArg (List.takeWhile isMarkupNamePart) same
  rw [Recogniser.takeWhile_append_stops (fun c => isOwn.isMarkupNamePart_of_mem) stops,
    List.takeWhile_append_of_pos fun c => isName.isMarkupNamePart_of_mem] at longest
  exact ⟨_, longest⟩

/-- An attribute selector is what is read from exactly the bodies in which it
is written, and its name is then the longest one that stands there.  What is
written in no such way is an error. -/
theorem parse_eq_ok_iff_writes (text : List Char) :
    (∀ selector, parse text = .ok selector ↔ selector.Writes text) ∧
    ((∃ error, parse text = .error error) ↔ ∀ selector : AttributeSelector,
      ¬ selector.Writes text) ∧
    ∀ selector, parse text = .ok selector → ∀ before name rest, IsBlank before →
      IsAttributeName name → text = before ++ (name ++ rest) →
        name <+: selector.name.toList := by
  have reads : ∀ selector, parse text = .ok selector ↔ selector.Writes text :=
    fun selector => ⟨writes_of_parse, parse_of_writes⟩
  refine ⟨reads, ?_, ?_⟩
  · constructor
    · rintro ⟨error, failed⟩ selector writes
      rw [parse_of_writes writes] at failed
      cases failed
    · intro unwritten
      cases parsed : parse text with
      | error error => exact ⟨error, rfl⟩
      | ok selector => exact absurd (writes_of_parse parsed) (unwritten selector)
  · intro selector parsed before name rest spaceBefore isName taken
    exact (writes_of_parse parsed).name_maximal spaceBefore isName taken

/-- A quote and brackets inside the value, space around every part. -/
theorem parse_quoted_brackets :
    (parse " data-x *= 'a=]' ".toList = .ok (.compare .substring "data-x" "a=]") ∧
      AttributeSelector.Writes (.compare .substring "data-x" "a=]")
        " data-x *= 'a=]' ".toList) ∧
    "data".toList <+: "data-x".toList := by
  have parsed : parse " data-x *= 'a=]' ".toList =
      .ok (.compare .substring "data-x" "a=]") := by rfl
  obtain ⟨reads, -, longest⟩ := parse_eq_ok_iff_writes " data-x *= 'a=]' ".toList
  refine ⟨⟨parsed, (reads _).mp parsed⟩, ?_⟩
  exact longest _ parsed [' '] "data".toList "-x *= 'a=]' ".toList (by decide)
    ⟨'d', "ata".toList, rfl, rfl, List.all_eq_true.mp rfl⟩ rfl

end AttributeSelector

end CssQuery
