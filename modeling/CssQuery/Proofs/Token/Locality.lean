import CssQuery.Token.Pattern
import Mathlib.Data.List.TakeWhile

/-!
# What a token does not depend on

A recogniser that takes a token off the front of a text would take the same
token in front of any other text, as long as that text does not continue it.
A word is continued by the characters it may contain; a bounded span ends
with its closing character and is continued by nothing.

A text that a recogniser takes as a whole is therefore the same thing as a
piece of a text that it takes there, and a grammar can be stated in terms of
such texts alone.
-/

namespace CssQuery

/-- The text does not continue a run of characters that pass the test. -/
def Stops (part : Char → Bool) (rest : List Char) : Prop :=
  ∀ c, rest.head? = some c → part c = false

theorem Stops.cons {part : Char → Bool} {c : Char} (refused : part c = false) (rest : List Char) :
    Stops part (c :: rest) := by
  rintro _ ⟨⟩
  exact refused

/-- The text is an identifier as a whole. -/
def IsIdentifier (word : List Char) : Prop :=
  Recogniser.cssIdentifier word = some (.plain word [])

/-- The text between the bounds is the content of a span as a whole, where
quotes are honoured. -/
def IsSpan (bounds : Bounds) (body : List Char) : Prop :=
  Recogniser.boundedBy bounds true (bounds.opening :: body ++ [bounds.closing]) =
    some ⟨bounds.opening :: body ++ [bounds.closing], body, []⟩

namespace Recogniser

section Names

variable {start part : Char → Bool}

theorem takeWhile_append_stops {body rest : List Char} (all : ∀ c ∈ body, part c = true)
    (stops : Stops part rest) : (body ++ rest).takeWhile part = body := by
  rw [List.takeWhile_append_of_pos all]
  cases rest with
  | nil => simp
  | cons c rest => simp [stops c rfl]

theorem dropWhile_append_stops {body rest : List Char} (all : ∀ c ∈ body, part c = true)
    (stops : Stops part rest) : (body ++ rest).dropWhile part = rest := by
  rw [List.dropWhile_append_of_pos all]
  cases rest with
  | nil => rfl
  | cons c rest => simp [stops c rfl]

/-- A name as a whole is a start character and part characters. -/
theorem name_whole_iff {word : List Char} :
    name start part word = some (.plain word []) ↔
      ∃ c body, word = c :: body ∧ start c = true ∧ ∀ x ∈ body, part x = true := by
  cases word with
  | nil => simp [name]
  | cons c body =>
      simp only [name, Token.plain]
      constructor
      · intro whole
        split at whole
        case isTrue starts =>
          simp only [Option.some.injEq, Token.mk.injEq, List.cons.injEq, true_and] at whole
          refine ⟨c, body, rfl, starts, ?_⟩
          intro x member
          rw [← whole.1] at member
          exact List.mem_takeWhile_imp member
        case isFalse => cases whole
      · rintro ⟨_, _, ⟨rfl, rfl⟩, starts, all⟩
        have stops : Stops part [] := fun _ first => nomatch first
        have taken := takeWhile_append_stops all stops
        have left := dropWhile_append_stops all stops
        rw [List.append_nil] at taken left
        rw [if_pos starts, taken, left]

theorem part_of_mem_name (starts_part : ∀ c, start c = true → part c = true) {word : List Char}
    (whole : name start part word = some (.plain word [])) {c : Char} (member : c ∈ word) :
    part c = true := by
  obtain ⟨first, body, rfl, starts, parts⟩ := name_whole_iff.mp whole
  rcases List.mem_cons.mp member with rfl | later
  · exact starts_part c starts
  · exact parts c later

theorem name_append {word rest : List Char} (whole : name start part word = some (.plain word []))
    (stops : Stops part rest) :
    name start part (word ++ rest) = some (.plain word rest) := by
  obtain ⟨c, body, rfl, starts, all⟩ := name_whole_iff.mp whole
  rw [List.cons_append, name, if_pos starts, takeWhile_append_stops all stops,
    dropWhile_append_stops all stops]

theorem of_name {text : List Char} {token : Token} (taken : name start part text = some token) :
    ∃ word rest, name start part word = some (.plain word []) ∧ text = word ++ rest ∧
      token = .plain word rest := by
  cases text with
  | nil => cases taken
  | cons c rest =>
      simp only [name] at taken
      split at taken
      case isTrue starts =>
        cases taken
        refine ⟨c :: rest.takeWhile part, rest.dropWhile part, ?_, by simp, rfl⟩
        refine name_whole_iff.mpr ⟨c, _, rfl, starts, ?_⟩
        intro x member
        exact List.mem_takeWhile_imp member
      case isFalse => cases taken

theorem run_append {word rest : List Char} (nonempty : word ≠ [])
    (all : ∀ c ∈ word, part c = true) (stops : Stops part rest) :
    run part (word ++ rest) = some (.plain word rest) := by
  obtain ⟨c, body, rfl⟩ := List.exists_cons_of_ne_nil nonempty
  have starts : ((c :: body ++ rest).head?.map part).getD false = true := all c List.mem_cons_self
  rw [run, if_pos starts, takeWhile_append_stops all stops, dropWhile_append_stops all stops]

theorem of_run {text : List Char} {token : Token} (taken : run part text = some token) :
    ∃ word rest, word ≠ [] ∧ (∀ c ∈ word, part c = true) ∧ text = word ++ rest ∧
      token = .plain word rest := by
  cases text with
  | nil => cases taken
  | cons c text =>
      rw [run] at taken
      split at taken
      case isTrue starts =>
        cases taken
        refine ⟨_, _, ?_, fun x member => List.mem_takeWhile_imp member,
          List.takeWhile_append_dropWhile.symm, rfl⟩
        have first : part c = true := starts
        rw [List.takeWhile_cons_of_pos first]
        exact List.cons_ne_nil _ _
      case isFalse => cases taken

end Names

theorem cssIdentifier_of_hyphen (rest : List Char) :
    cssIdentifier ('-' :: rest) =
      (name isNameStart isIdentifierPart rest).map fun token =>
        .plain ('-' :: token.lexeme) token.rest := rfl

theorem cssIdentifier_of_other {text : List Char} (other : text.head? ≠ some '-') :
    cssIdentifier text = name isNameStart isIdentifierPart text := by
  unfold cssIdentifier
  split
  · exact absurd rfl other
  · rfl

/-- An identifier is taken whole in front of anything that does not continue
it. -/
theorem cssIdentifier_append {word rest : List Char} (identifier : IsIdentifier word)
    (stops : Stops isIdentifierPart rest) :
    cssIdentifier (word ++ rest) = some (.plain word rest) := by
  by_cases hyphen : word.head? = some '-'
  · obtain ⟨tail, rfl⟩ := List.head?_eq_some_iff.mp hyphen
    rw [IsIdentifier, cssIdentifier_of_hyphen] at identifier
    obtain ⟨_, taken, same⟩ := Option.map_eq_some_iff.mp identifier
    obtain ⟨word, _, whole, -, rfl⟩ := of_name taken
    obtain rfl : word = tail := by simpa [Token.plain] using congrArg Token.lexeme same
    rw [List.cons_append, cssIdentifier_of_hyphen, name_append whole stops]
    rfl
  · rw [IsIdentifier, cssIdentifier_of_other hyphen] at identifier
    obtain ⟨c, body, rfl, -⟩ := name_whole_iff.mp identifier
    have other : (c :: body ++ rest).head? ≠ some '-' := hyphen
    rw [cssIdentifier_of_other other, name_append identifier stops]

/-- What is taken as an identifier is one as a whole. -/
theorem of_cssIdentifier {text : List Char} {token : Token}
    (taken : cssIdentifier text = some token) :
    ∃ word rest, IsIdentifier word ∧ text = word ++ rest ∧ token = .plain word rest := by
  by_cases hyphen : text.head? = some '-'
  · obtain ⟨tail, rfl⟩ := List.head?_eq_some_iff.mp hyphen
    rw [cssIdentifier_of_hyphen] at taken
    obtain ⟨inner, takenInner, rfl⟩ := Option.map_eq_some_iff.mp taken
    obtain ⟨word, rest, whole, rfl, rfl⟩ := of_name takenInner
    refine ⟨'-' :: word, rest, ?_, rfl, rfl⟩
    rw [IsIdentifier, cssIdentifier_of_hyphen, whole]
    rfl
  · rw [cssIdentifier_of_other hyphen] at taken
    obtain ⟨word, rest, whole, rfl, rfl⟩ := of_name taken
    obtain ⟨c, body, rfl, -⟩ := name_whole_iff.mp whole
    have other : (c :: body).head? ≠ some '-' := hyphen
    refine ⟨c :: body, rest, ?_, rfl, rfl⟩
    rw [IsIdentifier, cssIdentifier_of_other other, whole]

theorem head_of_isIdentifier {word : List Char} (identifier : IsIdentifier word) :
    ∃ c tail, word = c :: tail ∧ (c = '-' ∨ isNameStart c = true) := by
  by_cases hyphen : word.head? = some '-'
  · obtain ⟨tail, rfl⟩ := List.head?_eq_some_iff.mp hyphen
    exact ⟨'-', tail, rfl, .inl rfl⟩
  · rw [IsIdentifier, cssIdentifier_of_other hyphen] at identifier
    obtain ⟨c, body, rfl, starts, -⟩ := name_whole_iff.mp identifier
    exact ⟨c, body, rfl, .inr starts⟩

/-- A character with which a name may begin may also continue an identifier. -/
theorem isIdentifierPart_of_isNameStart {c : Char} (starts : isNameStart c = true) :
    isIdentifierPart c = true := by
  simp [isIdentifierPart, starts]

/-- An identifier goes on with nothing but identifier characters. -/
theorem isIdentifierPart_of_mem {word : List Char} (identifier : IsIdentifier word) {c : Char}
    (member : c ∈ word) : isIdentifierPart c = true := by
  by_cases hyphen : word.head? = some '-'
  · obtain ⟨tail, rfl⟩ := List.head?_eq_some_iff.mp hyphen
    rw [IsIdentifier, cssIdentifier_of_hyphen] at identifier
    obtain ⟨_, taken, same⟩ := Option.map_eq_some_iff.mp identifier
    obtain ⟨word, _, whole, -, rfl⟩ := of_name taken
    obtain rfl : word = tail := by simpa [Token.plain] using congrArg Token.lexeme same
    rcases List.mem_cons.mp member with rfl | later
    · decide
    · exact part_of_mem_name (fun _ => isIdentifierPart_of_isNameStart) whole later
  · rw [IsIdentifier, cssIdentifier_of_other hyphen] at identifier
    exact part_of_mem_name (fun _ => isIdentifierPart_of_isNameStart) identifier member

theorem of_literal {expected text : List Char} {token : Token}
    (taken : literal expected text = some token) :
    ∃ rest, text = expected ++ rest ∧ token = .plain expected rest := by
  unfold literal at taken
  split at taken
  case isTrue found =>
    cases taken
    obtain ⟨rest, rfl⟩ := List.isPrefixOf_iff_prefix.mp found
    exact ⟨rest, rfl, by rw [List.drop_left]⟩
  case isFalse => cases taken

/-- A quoted string is taken whole in front of anything. -/
theorem quoted_append {quote : Char} (isQuote : isQuote quote = true) {value : List Char}
    (inert : quote ∉ value) (rest : List Char) :
    quoted (quote :: value ++ quote :: rest) =
      some ⟨quote :: value ++ [quote], value, rest⟩ := by
  have inside : ∀ c ∈ value, (c != quote) = true := by
    rintro c member
    rw [bne_iff_ne]
    rintro rfl
    exact inert member
  have stops : Stops (· != quote) (quote :: rest) := by
    apply Stops.cons
    exact bne_self_eq_false quote
  rw [List.cons_append, quoted, if_pos isQuote, takeWhile_append_stops inside stops,
    dropWhile_append_stops inside stops]

theorem of_quoted {text : List Char} {token : Token} (taken : quoted text = some token) :
    ∃ quote value rest, isQuote quote = true ∧ quote ∉ value ∧
      text = quote :: value ++ quote :: rest ∧
      token = ⟨quote :: value ++ [quote], value, rest⟩ := by
  cases text with
  | nil => cases taken
  | cons quote text =>
      rw [quoted] at taken
      split at taken
      case isTrue isQuote =>
        simp only at taken
        split at taken
        case h_1 => cases taken
        case h_2 closing rest left =>
          cases taken
          have closes : closing = quote := by
            have first := List.head?_dropWhile_not (· != quote) text
            rw [left] at first
            simpa using first
          have whole := List.takeWhile_append_dropWhile (p := (· != quote)) (l := text)
          rw [left, closes] at whole
          have inert : quote ∉ text.takeWhile (· != quote) := by
            intro member
            simpa using List.mem_takeWhile_imp member
          exact ⟨quote, _, rest, isQuote, inert, by rw [List.cons_append, whole], rfl⟩
      case isFalse => cases taken

theorem splitAtClosing_of_ne {bounds : Bounds} {c : Char} (inside : c ≠ bounds.closing)
    (honourQuotes : Bool) (depth : Nat) (text : List Char) :
    splitAtClosing bounds honourQuotes depth none (c :: text) =
      (splitAtClosing bounds honourQuotes
        (if c = bounds.opening then depth + 1 else depth)
        (if c ≠ bounds.opening ∧ honourQuotes ∧ isQuote c then some c else none)
        text).map fun split => (c :: split.1, split.2) := by
  cases depth <;> rw [splitAtClosing, if_neg inside]

/-- A span behind its opening bound ends with its closing bound, and does not
depend on what follows that. -/
theorem of_splitAtClosing {bounds : Bounds} {honourQuotes : Bool} {depth : Nat}
    {quote : Option Char} {text content rest : List Char}
    (split : splitAtClosing bounds honourQuotes depth quote text = some (content, rest)) :
    text = content ++ bounds.closing :: rest ∧
      ∀ other, splitAtClosing bounds honourQuotes depth quote
        (content ++ bounds.closing :: other) = some (content, other) := by
  induction text generalizing depth quote content with
  | nil => cases split
  | cons c text ih =>
      cases quote with
      | some quote =>
          rw [splitAtClosing] at split
          obtain ⟨⟨inner, _⟩, found, same⟩ := Option.map_eq_some_iff.mp split
          cases same
          obtain ⟨text_eq, any⟩ := ih found
          refine ⟨by rw [text_eq]; rfl, fun other => ?_⟩
          rw [List.cons_append, splitAtClosing, any]
          rfl
      | none =>
          by_cases closes : c = bounds.closing
          · cases depth with
            | zero =>
                rw [splitAtClosing, if_pos closes] at split
                cases split
                refine ⟨by rw [closes]; rfl, fun other => ?_⟩
                rw [List.nil_append, splitAtClosing, if_pos rfl]
            | succ outer =>
                rw [splitAtClosing, if_pos closes] at split
                obtain ⟨⟨inner, _⟩, found, same⟩ := Option.map_eq_some_iff.mp split
                cases same
                obtain ⟨text_eq, any⟩ := ih found
                refine ⟨by rw [text_eq]; rfl, fun other => ?_⟩
                rw [List.cons_append, splitAtClosing, if_pos closes, any]
                rfl
          · rw [splitAtClosing_of_ne closes] at split
            obtain ⟨⟨inner, _⟩, found, same⟩ := Option.map_eq_some_iff.mp split
            cases same
            obtain ⟨text_eq, any⟩ := ih found
            refine ⟨by rw [text_eq]; rfl, fun other => ?_⟩
            rw [List.cons_append, splitAtClosing_of_ne closes, any]
            rfl

theorem boundedBy_append {bounds : Bounds} {body : List Char} (span : IsSpan bounds body)
    (rest : List Char) :
    boundedBy bounds true (bounds.opening :: body ++ bounds.closing :: rest) =
      some ⟨bounds.opening :: body ++ [bounds.closing], body, rest⟩ := by
  rw [IsSpan, List.cons_append, boundedBy, if_pos rfl] at span
  obtain ⟨⟨content, left⟩, found, same⟩ := Option.map_eq_some_iff.mp span
  obtain rfl : content = body := congrArg Token.value same
  rw [List.cons_append, boundedBy, if_pos rfl, (of_splitAtClosing found).2 rest]
  rfl

/-- What is taken as a span is one as a whole. -/
theorem of_boundedBy {bounds : Bounds} {text : List Char} {token : Token}
    (taken : boundedBy bounds true text = some token) :
    ∃ body rest, IsSpan bounds body ∧ text = bounds.opening :: body ++ bounds.closing :: rest ∧
      token = ⟨bounds.opening :: body ++ [bounds.closing], body, rest⟩ := by
  cases text with
  | nil => cases taken
  | cons c text =>
      rw [boundedBy] at taken
      split at taken
      case isTrue opens =>
        obtain ⟨⟨content, rest⟩, found, rfl⟩ := Option.map_eq_some_iff.mp taken
        obtain ⟨rfl, any⟩ := of_splitAtClosing found
        refine ⟨content, rest, ?_, by rw [opens]; rfl, by rw [opens]⟩
        rw [IsSpan, List.cons_append, boundedBy, if_pos rfl, any]
        rfl
      case isFalse => cases taken

end Recogniser

end CssQuery
