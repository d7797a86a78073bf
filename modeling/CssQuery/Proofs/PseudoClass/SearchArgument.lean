import CssQuery.Engine
import CssQuery.Proofs.Formula.Running
import CssQuery.Proofs.Selector.AttributeBody
import Mathlib.Data.List.DropRight

/-!
# The argument of a search for text

The text to look for is quoted, or it is the argument without the Unicode space
around it.  Which of the two it is depends on the first character that is no
Unicode space.  A quoted text is then taken by the cursor, for which only
selector space is space.

So the space around an unquoted text never matters, and that around a quoted
one may be trimmed, but not added: beside quotes a space that is no selector
space, such as the no-break space, makes the argument an error.
-/

namespace CssQuery

section Trimming

variable {front text back : List Char}

theorem takeWhile_trimStart (text : List Char) :
    text.takeWhile isUnicodeSpace ++ trimStart text = text :=
  List.takeWhile_append_dropWhile

theorem trim_append_rtakeWhile (text : List Char) :
    trim text ++ (trimStart text).rtakeWhile isUnicodeSpace = trimStart text :=
  List.rdropWhile_append_rtakeWhile

theorem stops_trimStart (text : List Char) : Stops isUnicodeSpace (trimStart text) := by
  intro c first
  have found := List.head?_dropWhile_not isUnicodeSpace text
  rw [trimStart] at first
  simpa [first] using found

theorem trimEnd_append (space : ∀ c ∈ back, isUnicodeSpace c = true) :
    trimEnd (text ++ back) = trimEnd text := by
  have reversed : ∀ c ∈ back.reverse, isUnicodeSpace c = true := fun c member =>
    space c (List.mem_reverse.mp member)
  rw [trimEnd, List.reverse_append, List.dropWhile_append_of_pos reversed, trimEnd]

/-- Trimming does not see the Unicode space that is put around a text. -/
theorem trim_padded (spaceFront : ∀ c ∈ front, isUnicodeSpace c = true)
    (spaceBack : ∀ c ∈ back, isUnicodeSpace c = true) :
    trim (front ++ (text ++ back)) = trim text := by
  rw [trim, trimStart, List.dropWhile_append_of_pos spaceFront, List.dropWhile_append]
  split
  case isTrue blank =>
    have allSpace := List.isEmpty_iff.mp blank
    rw [List.dropWhile_eq_nil_iff.mpr spaceBack, trim, trimStart, allSpace]
  case isFalse => exact trimEnd_append spaceBack

theorem trim_trim (text : List Char) : trim (trim text) = trim text := by
  have spaceFront : ∀ c ∈ text.takeWhile isUnicodeSpace, isUnicodeSpace c = true :=
    fun _ => List.mem_takeWhile_imp
  have spaceBack : ∀ c ∈ (trimStart text).rtakeWhile isUnicodeSpace, isUnicodeSpace c = true :=
    fun _ => List.mem_rtakeWhile_imp
  have padded : trim (_ ++ (trim text ++ _)) = trim (trim text) := trim_padded spaceFront spaceBack
  rw [trim_append_rtakeWhile, takeWhile_trimStart] at padded
  exact padded.symm

/-- What begins and ends with other characters than Unicode space is trimmed. -/
theorem trim_between {c : Char} (solid : isUnicodeSpace c = false) (text : List Char) :
    trim (c :: text ++ [c]) = c :: text ++ [c] := by
  have refused : ¬ isUnicodeSpace c = true := by simp [solid]
  rw [trim, trimStart, List.cons_append, List.dropWhile_cons_of_neg refused, ← List.cons_append]
  exact List.rdropWhile_concat_neg _ _ _ refused

theorem head?_trim (text : List Char) : (trim text).head? = (trimStart text).head? := by
  cases trimmed : trim text with
  | nil =>
      have allSpace : ∀ c ∈ trimStart text, isUnicodeSpace c = true :=
        List.rdropWhile_eq_nil_iff.mp trimmed
      cases start : trimStart text with
      | nil => rfl
      | cons c rest =>
          have first := stops_trimStart text c (by rw [start]; rfl)
          rw [allSpace c (by rw [start]; exact List.mem_cons_self)] at first
          cases first
  | cons c rest =>
      rw [← trim_append_rtakeWhile, trimmed]
      rfl

/-- The Unicode space that a text loses when it is trimmed. -/
def padding (text : List Char) : List Char :=
  text.takeWhile isUnicodeSpace ++ (trimStart text).rtakeWhile isUnicodeSpace

end Trimming

theorem isUnicodeSpace_of_isQuote {quote : Char} (quotes : isQuote quote = true) :
    isUnicodeSpace quote = false := by
  rcases isQuote_cases quotes with rfl | rfl <;> rfl

/-- The text is quoted as a whole. -/
def IsQuotedText (text : List Char) : Prop :=
  ∃ quote value, isQuote quote = true ∧ quote ∉ value ∧ text = quote :: value ++ [quote]

namespace TextSearch

/-- A text to look for with an argument that spells it. -/
inductive Spells : (text argument : List Char) → Prop
  | quoted {quote : Char} {front text back : List Char} (spaceFront : IsBlank front)
      (quotes : isQuote quote = true) (inert : quote ∉ text) (spaceBack : IsBlank back) :
      Spells text (front ++ (quote :: text ++ [quote] ++ back))
  | bare {argument : List Char} (plain : Stops isQuote (trim argument))
      (nonempty : trim argument ≠ []) : Spells (trim argument) argument

theorem startsQuoted_iff (argument : List Char) :
    ((trimStart argument).head?.map isQuote).getD false = true ↔
      ¬ Stops isQuote (trim argument) := by
  rw [Stops, head?_trim]
  cases (trimStart argument).head? <;> simp

section Quoted

variable {quote : Char} {front text back : List Char} (spaceFront : IsBlank front)
  (quotes : isQuote quote = true) (spaceBack : IsBlank back)

include spaceFront quotes spaceBack

/-- A quoted text with selector space around it is trimmed to what is quoted. -/
theorem trim_quoted :
    trim (front ++ (quote :: text ++ [quote] ++ back)) = quote :: text ++ [quote] := by
  rw [trim_padded (fun c member => isUnicodeSpace_of_isSpace (spaceFront c member))
    fun c member => isUnicodeSpace_of_isSpace (spaceBack c member)]
  exact trim_between (isUnicodeSpace_of_isQuote quotes) text

theorem padding_quoted :
    padding (front ++ (quote :: text ++ [quote] ++ back)) = front ++ back := by
  have notSpace := isUnicodeSpace_of_isQuote quotes
  have unicodeFront : ∀ c ∈ front, isUnicodeSpace c = true := fun c member =>
    isUnicodeSpace_of_isSpace (spaceFront c member)
  have unicodeBack : ∀ c ∈ back.reverse, isUnicodeSpace c = true := fun c member =>
    isUnicodeSpace_of_isSpace (spaceBack c (List.mem_reverse.mp member))
  have stops : Stops isUnicodeSpace (quote :: text ++ [quote] ++ back) := .cons notSpace _
  have stopsBack : Stops isUnicodeSpace (quote :: (quote :: text).reverse) := .cons notSpace _
  have reversed : (quote :: text ++ [quote] ++ back).reverse =
      back.reverse ++ quote :: (quote :: text).reverse := by
    simp
  rw [padding, trimStart, Recogniser.takeWhile_append_stops unicodeFront stops,
    Recogniser.dropWhile_append_stops unicodeFront stops, List.rtakeWhile, reversed,
    Recogniser.takeWhile_append_stops unicodeBack stopsBack, List.reverse_reverse]

end Quoted

theorem spells_of_parse {text argument : List Char} (parsed : parseArgument argument = .ok text) :
    Spells text argument := by
  rw [parseArgument] at parsed
  split at parsed
  case isTrue =>
    obtain ⟨⟨value, cursor⟩, expected, continued⟩ := bind_eq_ok_iff.mp parsed
    obtain ⟨_, ended, returned⟩ := bind_eq_ok_iff.mp continued
    cases returned
    obtain ⟨front, ahead, token, spaceFront, split, taken, rfl, rest⟩ := Cursor.of_expect expected
    obtain ⟨quote, text, back, quotes, inert, rfl, rfl⟩ := Recogniser.of_quoted taken
    have spaceBack := Cursor.expectEnd_eq_ok_iff.mp ended
    rw [rest] at spaceBack
    have spells := Spells.quoted spaceFront quotes inert spaceBack
    rw [List.append_assoc, List.singleton_append, ← split] at spells
    exact spells
  case isFalse unquoted =>
    split at parsed
    case isTrue => cases parsed
    case isFalse nonempty =>
      cases parsed
      rw [startsQuoted_iff, not_not] at unquoted
      exact .bare unquoted nonempty

theorem parse_of_spells {text argument : List Char} (spells : Spells text argument) :
    parseArgument argument = .ok text := by
  rw [parseArgument]
  cases spells with
  | @quoted quote front text back spaceFront quotes inert spaceBack =>
      have starts : ¬ Stops isQuote (trim (front ++ (quote :: text ++ [quote] ++ back))) := by
        rw [trim_quoted spaceFront quotes spaceBack]
        intro stops
        rw [stops quote rfl] at quotes
        cases quotes
      have taken : Pattern.quoted.recognise (quote :: text ++ [quote] ++ back) =
          some ⟨quote :: text ++ [quote], text, back⟩ := by
        rw [List.append_assoc]
        exact Recogniser.quoted_append quotes inert back
      have stops : Stops isSpace (quote :: text ++ [quote] ++ back) :=
        .cons (isSpace_of_isQuote quotes) _
      rw [if_pos ((startsQuoted_iff _).mpr starts),
        Cursor.expect_append 0 .quoted spaceFront stops taken]
      exact bind_eq_ok_iff.mpr ⟨_, rfl, bind_eq_ok_iff.mpr
        ⟨_, Cursor.expectEnd_eq_ok_iff.mpr spaceBack, rfl⟩⟩
  | bare plain nonempty =>
      have unquoted := mt (startsQuoted_iff argument).mp (not_not.mpr plain)
      rw [if_neg unquoted, if_neg nonempty]

/-- The reader accepts exactly the arguments that spell a text. -/
theorem parseArgument_eq_ok_iff {text argument : List Char} :
    parseArgument argument = .ok text ↔ Spells text argument :=
  ⟨spells_of_parse, parse_of_spells⟩

namespace Spells

variable {text argument : List Char}

theorem trimmed (spells : Spells text argument) : Spells text (trim argument) := by
  cases spells with
  | quoted spaceFront quotes inert spaceBack =>
      rw [trim_quoted spaceFront quotes spaceBack]
      have alone := Spells.quoted .nil quotes inert .nil
      rwa [List.nil_append, List.append_nil] at alone
  | bare plain nonempty =>
      have unchanged := trim_trim argument
      have again : Spells (trim (trim argument)) (trim argument) :=
        .bare (by rwa [unchanged]) (by rwa [unchanged])
      rwa [unchanged] at again

/-- What a trimmed argument spells is spelled with the space around it, if this
is selector space or the text is not quoted. -/
theorem of_trimmed (blank : IsQuotedText (trim argument) → IsBlank (padding argument))
    (spells : Spells text (trim argument)) : Spells text argument := by
  generalize same : trim argument = short at spells
  have shortest : trim short = short := by rw [← same, trim_trim]
  cases spells with
  | quoted spaceFront quotes inert spaceBack =>
      rw [trim_quoted spaceFront quotes spaceBack] at shortest
      rw [← shortest] at same
      have spaces := blank ⟨_, _, quotes, inert, same⟩
      have spelled := Spells.quoted (fun c member => spaces c (List.mem_append_left _ member))
        quotes inert (fun c member => spaces c (List.mem_append_right _ member))
      rwa [← same, trim_append_rtakeWhile, takeWhile_trimStart] at spelled
  | bare plain nonempty =>
      rw [shortest, ← same] at plain nonempty ⊢
      exact .bare plain nonempty

theorem isBlank_padding (spells : Spells text argument) (isQuoted : IsQuotedText (trim argument)) :
    IsBlank (padding argument) := by
  cases spells with
  | quoted spaceFront quotes inert spaceBack =>
      rw [padding_quoted spaceFront quotes spaceBack]
      exact fun c member => (List.mem_append.mp member).elim (spaceFront c) (spaceBack c)
  | bare plain nonempty =>
      obtain ⟨quote, value, quotes, -, trimmed⟩ := isQuoted
      have notQuote := plain quote (by rw [trimmed]; rfl)
      rw [notQuote] at quotes
      cases quotes

end Spells

end TextSearch

namespace EngineConfig

variable (config : EngineConfig)

theorem pseudoClass_contains (argument : String) :
    config.pseudoClass "contains" (some argument) =
      PseudoClass.contains argument.toList config.caseSensitiveContains := by
  rw [pseudoClass]
  cases (((some argument).map String.toList).getD []).length <;> rfl

/-- The pseudo-class is built exactly from the arguments that spell a text, on
every cache, and looks for the text spelled. -/
theorem pseudoClass_contains_eq_ok_iff (argument : String) (cache : FormulaCache)
    (condition : PseudoClass) :
    ((config.pseudoClass "contains" (some argument)).runOn cache).1 = .ok condition ↔
      ∃ text, TextSearch.Spells text argument.toList ∧
        condition = .test (.contains
          (.ofText (String.ofList text) config.caseSensitiveContains)) := by
  have ran : ((config.pseudoClass "contains" (some argument)).runOn cache).1 =
      (TextSearch.parseArgument argument.toList).map fun text => PseudoClass.test (.contains
        (.ofText (String.ofList text) config.caseSensitiveContains)) := by
    rw [pseudoClass_contains]
    rfl
  simp only [ran, ← TextSearch.parseArgument_eq_ok_iff]
  cases TextSearch.parseArgument argument.toList <;> simp [Except.map, eq_comm]

/-- An argument from which the pseudo-class is built may be trimmed: the same
text is looked for.  The space may be put back exactly if the trimmed argument
is not quoted, or no space is lost by trimming but selector space. -/
theorem pseudoClass_contains_trim (argument : String) :
    (∀ cache condition,
      ((config.pseudoClass "contains" (some argument)).runOn cache).1 = .ok condition →
        ((config.pseudoClass "contains" (some (String.ofList (trim argument.toList)))).runOn
          cache).1 = .ok condition) ∧
    ((∀ cache condition,
      ((config.pseudoClass "contains" (some (String.ofList (trim argument.toList)))).runOn
          cache).1 = .ok condition →
        ((config.pseudoClass "contains" (some argument)).runOn cache).1 = .ok condition) ↔
      (IsQuotedText (trim argument.toList) → IsBlank (padding argument.toList))) := by
  simp only [pseudoClass_contains_eq_ok_iff, String.toList_ofList]
  refine ⟨?_, ?_, ?_⟩
  · rintro _ condition ⟨text, spells, looks⟩
    exact ⟨text, spells.trimmed, looks⟩
  · intro restores isQuoted
    obtain ⟨quote, value, quotes, inert, trimmed⟩ := isQuoted
    have spells := TextSearch.Spells.quoted .nil quotes inert .nil
    rw [List.nil_append, List.append_nil, ← trimmed] at spells
    obtain ⟨text, spellsWhole, -⟩ := restores {} _ ⟨value, spells, rfl⟩
    exact spellsWhole.isBlank_padding ⟨quote, value, quotes, inert, trimmed⟩
  · rintro blank _ condition ⟨text, spells, looks⟩
    exact ⟨text, spells.of_trimmed blank, looks⟩

/-- A no-break space in front of a quoted text is an error, though trimming
removes it and the quoted text is accepted. -/
theorem pseudoClass_contains_refuses_padded :
    String.ofList (trim "\u00a0\"x\"".toList) = "\"x\"" ∧
      (∀ cache, ((({} : EngineConfig).pseudoClass "contains" (some "\"x\"")).runOn cache).1 =
        .ok (.test (.contains ⟨"x", true⟩))) ∧
      ∀ cache, ((({} : EngineConfig).pseudoClass "contains" (some "\u00a0\"x\"")).runOn cache).1 =
        .error (.scan (.unexpected 0 (some "a quoted string") (some '\u00a0'))) := by
  refine ⟨by decide, ?_, ?_⟩ <;> exact fun _ => rfl

end EngineConfig

end CssQuery
