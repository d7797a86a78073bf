import CssQuery.Proofs.Token.Attempt

/-!
# Longest matches

Numbers, identifiers and the names of tags and attributes are words of regular
languages over the character classes.  Wherever a text has such a word before
it, the longest one is found; where it ends, and whether there is one, is a
matter of the characters from that place on.
-/

namespace CssQuery

open scoped Computability

/-- The tokens that are words of regular languages. -/
inductive WordKind where
  | number
  | cssIdentifier
  | attributeName
  | tagName

namespace WordKind

open Recogniser (isSign digits point)

def pattern : WordKind → Pattern
  | number => .number false
  | cssIdentifier => .cssIdentifier
  | attributeName => .attributeName
  | tagName => .tagName

/-- The words of the kind, as a regular expression over the character classes. -/
def language : WordKind → Language Char
  | number =>
      (1 + characters isSign) * (digits * (1 + point * (1 + digits)) + point * digits)
  | cssIdentifier =>
      (1 + characters (· == '-')) *
        (characters CharKind.identifierStart.holds * (characters CharKind.identifierPart.holds)∗)
  | attributeName =>
      characters CharKind.attributeNameStart.holds *
        (characters CharKind.attributeNamePart.holds)∗
  | tagName =>
      characters CharKind.tagNameStart.holds * (characters CharKind.tagNamePart.holds)∗

/-- Looks for a word of the kind one character at a time. -/
def attempt : WordKind → Attempt → Option Span
  | number => Attempt.number false
  | cssIdentifier => Attempt.cssIdentifier
  | attributeName => Attempt.name .attributeNameStart .attributeNamePart
  | tagName => Attempt.name .tagNameStart .tagNamePart

theorem takesLongest (kind : WordKind) : kind.pattern.recognise.TakesLongest kind.language := by
  cases kind with
  | number => exact Recogniser.decimal_takesLongest
  | cssIdentifier => exact Recogniser.cssIdentifier_takesLongest
  | attributeName => exact Recogniser.name_takesLongest isNameStart isMarkupNamePart
  | tagName => exact Recogniser.name_takesLongest isNameStart isMarkupNamePart

theorem follows_attempt (kind : WordKind) :
    Attempt.Follows kind.attempt kind.pattern.recognise := by
  cases kind with
  | number => exact Attempt.follows_number false
  | cssIdentifier => exact Attempt.follows_cssIdentifier
  | attributeName => exact Attempt.follows_name .attributeNameStart .attributeNamePart
  | tagName => exact Attempt.follows_name .tagNameStart .tagNamePart

end WordKind

namespace Span

/-- The span begins at the place, takes at least one character and none beyond
the source, and stands for the text that it takes, which is the longest word
before the place. -/
structure IsLongest (span : Span) (language : Language Char) (source : List Char) (start : Nat) :
    Prop where
  start_eq : span.start = start
  start_lt_stop : start < span.stop
  stop_le : span.stop ≤ source.length
  value_eq : span.value = source.extract start span.stop
  longest : LongestWord language (source.drop start) span.value

theorem IsLongest.stop_eq {span : Span} {language : Language Char} {source : List Char}
    {start : Nat} (found : span.IsLongest language source start) :
    span.stop = start + span.value.length := by
  have length := congrArg List.length found.value_eq
  have inside := found.stop_le
  have positive := found.start_lt_stop
  rw [List.extract_eq_take_drop, List.length_take, List.length_drop] at length
  omega

/-- The place and the language determine the span. -/
theorem IsLongest.unique {span other : Span} {language : Language Char} {source : List Char}
    {start : Nat} (found : span.IsLongest language source start)
    (also : other.IsLongest language source start) : span = other := by
  have value := found.longest.unique also.longest
  have stop : span.stop = other.stop := by rw [found.stop_eq, also.stop_eq, value]
  have begins : span.start = other.start := found.start_eq.trans also.start_eq.symm
  cases span
  cases other
  rw [Span.mk.injEq]
  exact ⟨begins, stop, value⟩

/-- The same span at another place. -/
def moveTo (span : Span) (place : Nat) : Span :=
  ⟨place, place + (span.stop - span.start), span.value⟩

end Span

namespace Pattern

variable {pattern : Pattern} {language : Language Char} {source : List Char} {start : Nat}

theorem isSome_scan_iff (takes : pattern.recognise.TakesLongest language) :
    (pattern.scan source start).isSome = true ↔
      ∃ word ∈ language, word ≠ [] ∧ word <+: source.drop start := by
  rw [scan, Option.isSome_map]
  constructor
  · intro found
    obtain ⟨token, taken⟩ := Option.isSome_iff_exists.mp found
    obtain ⟨word, rest, -, -, longest⟩ := takes.takes _ token taken
    exact ⟨word, longest.mem, takes.nonempty word longest.mem, longest.begins⟩
  · rintro ⟨word, member, -, begins⟩
    exact takes.finds _ word member begins

theorem isLongest_of_scan (takes : pattern.recognise.TakesLongest language) {span : Span}
    (found : pattern.scan source start = some span) : span.IsLongest language source start := by
  obtain ⟨token, taken, rfl⟩ := Option.map_eq_some_iff.mp found
  obtain ⟨word, rest, split, rfl, longest⟩ := takes.takes _ token taken
  have positive : 0 < word.length :=
    List.length_pos_iff.mpr (takes.nonempty word longest.mem)
  have length := congrArg List.length split
  rw [List.length_drop, List.length_append] at length
  have text : source.extract start (start + word.length) = word := by
    rw [List.extract_eq_take_drop, split, Nat.add_sub_cancel_left, List.take_left]
  refine ⟨rfl, ?_, ?_, text.symm, longest⟩
  · exact Nat.lt_add_of_pos_right positive
  · simp only [Token.plain]
    omega

theorem scan_eq_some_iff (takes : pattern.recognise.TakesLongest language) {span : Span} :
    pattern.scan source start = some span ↔ span.IsLongest language source start := by
  constructor
  · exact isLongest_of_scan takes
  · intro isLongest
    have word := isLongest.longest
    have isSome : (pattern.scan source start).isSome = true :=
      (isSome_scan_iff takes).mpr ⟨_, word.mem, takes.nonempty _ word.mem, word.begins⟩
    obtain ⟨other, found⟩ := Option.isSome_iff_exists.mp isSome
    rw [found, isLongest.unique (isLongest_of_scan takes found)]

theorem head?_rest {token : Token} (cut : token.CutFrom (source.drop start)) :
    token.rest.head? = source[start + token.lexeme.length]? := by
  rw [← List.head?_drop, ← List.drop_drop, cut.text_eq, List.drop_left]

theorem endsSpaced_iff {next : Option Char} :
    (next.map isSpace).getD true = true ↔
      ∀ c, next = some c → CharKind.space.holds c = true := by
  cases next with
  | none => simp
  | some c => simp [CharKind.holds]

/-- A strict number is a number that ends the text or stands before space. -/
theorem scan_strict_iff {span : Span} :
    (number true).scan source start = some span ↔
      (number false).scan source start = some span ∧
        ∀ c, source[span.stop]? = some c → CharKind.space.holds c = true := by
  simp only [scan, recognise, Recogniser.spacedDecimal, Option.map_eq_some_iff,
    Option.filter_eq_some_iff, endsSpaced_iff]
  constructor
  · rintro ⟨token, ⟨taken, ends⟩, rfl⟩
    rw [head?_rest (Recogniser.decimal_cuts taken)] at ends
    exact ⟨⟨token, taken, rfl⟩, ends⟩
  · rintro ⟨⟨token, taken, rfl⟩, ends⟩
    rw [← head?_rest (Recogniser.decimal_cuts taken)] at ends
    exact ⟨token, ⟨taken, ends⟩, rfl⟩

theorem scan_append_drop (pattern : Pattern) (front : List Char) :
    pattern.scan (front ++ source.drop start) front.length =
      (pattern.scan source start).map (·.moveTo front.length) := by
  rw [scan, scan, List.drop_left, Option.map_map]
  simp [Function.comp_def, Span.moveTo]

theorem scan_eq_of_follows {find : Attempt → Option Span}
    (follows : Attempt.Follows find pattern.recognise)
    (plain : ∀ text token, pattern.recognise text = some token → token.value = token.lexeme) :
    find (Attempt.starting source start) = pattern.scan source start := by
  rw [follows (Attempt.reached_starting source start), scan]
  apply Option.map_congr
  intro token taken
  rw [plain _ token taken]
  rfl

theorem number_value_eq {strict : Bool} {text : List Char} {token : Token}
    (taken : (number strict).recognise text = some token) : token.value = token.lexeme := by
  rw [Attempt.recognise_number] at taken
  exact Recogniser.decimal_takesLongest.value_eq (Option.filter_eq_some_iff.mp taken).1

/-- Numbers, identifiers and names are the longest words of their languages.  At
every place of every source a pattern finds its token exactly if some word of
its language stands there; the span of the longest such word, which ends within
the source, is then what it finds.  A strict number is found exactly if the number found stands
before selector space or the end of the source, and is the same number.  No
pattern depends on what stands before the place.  An attempt that goes through
the source one character at a time, with the classes of the characters looked up
in the table, finds the same. -/
theorem scan_takes_longest (source : List Char) (start : Nat) :
    (∀ kind : WordKind,
      ((kind.pattern.scan source start).isSome = true ↔
        ∃ word ∈ kind.language, word ≠ [] ∧ word <+: source.drop start) ∧
      ∀ span, kind.pattern.scan source start = some span ↔
        span.IsLongest kind.language source start) ∧
    (∀ span, (number true).scan source start = some span ↔
      (number false).scan source start = some span ∧
        ∀ c, source[span.stop]? = some c → CharKind.space.holds c = true) ∧
    (∀ (pattern : Pattern) (front : List Char),
      pattern.scan (front ++ source.drop start) front.length =
        (pattern.scan source start).map (·.moveTo front.length)) ∧
    (∀ kind : WordKind,
      kind.attempt (Attempt.starting source start) = kind.pattern.scan source start) ∧
    Attempt.number true (Attempt.starting source start) = (number true).scan source start := by
  refine ⟨?_, ?_, ?_, ?_, ?_⟩
  · intro kind
    exact ⟨isSome_scan_iff kind.takesLongest, fun span => scan_eq_some_iff kind.takesLongest⟩
  · intro span
    exact scan_strict_iff
  · exact scan_append_drop
  · intro kind
    exact scan_eq_of_follows kind.follows_attempt fun text token => kind.takesLongest.value_eq
  · exact scan_eq_of_follows (Attempt.follows_number true) fun text token => number_value_eq

/-- The number at the third character of `x:-1.5.2` ends before the second point. -/
theorem scan_longest_signed :
    (number false).scan "x:-1.5.2".toList 2 = some ⟨2, 6, "-1.5".toList⟩ ∧
      LongestWord WordKind.number.language "-1.5.2".toList "-1.5".toList := by
  have found : WordKind.number.pattern.scan "x:-1.5.2".toList 2 =
      some ⟨2, 6, "-1.5".toList⟩ := by decide
  have atPlace := (((scan_takes_longest "x:-1.5.2".toList 2).1 .number).2 _).mp found
  exact ⟨found, atPlace.longest⟩

/-- A hyphen begins an identifier only if a start character follows. -/
example : cssIdentifier.scan "a-".toList 1 = none := by decide

end Pattern

end CssQuery
