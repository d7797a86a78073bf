import CssQuery.Proofs.Token.Cuts
import Mathlib.Computability.Language

/-!
# Words of regular languages

Numbers, identifiers and names are the words of regular languages.  A
recogniser for one of them takes the longest word with which the text begins,
and declines only a text that begins with no word at all.

A sign in front of a number and a hyphen in front of an identifier are optional
marks, and no word begins with its mark otherwise.  What such a mark does to a
language and to a recogniser is therefore the same for both.
-/

namespace CssQuery

open scoped Computability

/-- The words of one character that passes the test. -/
def characters (test : Char → Bool) : Language Char :=
  {word | ∃ c, test c = true ∧ word = [c]}

/-- The longest word of a language with which a text begins. -/
structure LongestWord (language : Language Char) (text word : List Char) : Prop where
  mem : word ∈ language
  begins : word <+: text
  longest : ∀ other ∈ language, other <+: text → other.length ≤ word.length

theorem LongestWord.unique {language : Language Char} {text word other : List Char}
    (longest : LongestWord language text word) (also : LongestWord language text other) :
    word = other := by
  have shorter := also.longest word longest.mem longest.begins
  have longer := longest.longest other also.mem also.begins
  have begins := List.prefix_of_prefix_length_le longest.begins also.begins shorter
  exact begins.eq_of_length (Nat.le_antisymm shorter longer)

section Membership

variable {test : Char → Bool} {language : Language Char} {word : List Char}

theorem mem_kstar_characters :
    word ∈ (characters test)∗ ↔ ∀ c ∈ word, test c = true := by
  rw [Language.mem_kstar]
  constructor
  · rintro ⟨pieces, rfl, single⟩ c member
    obtain ⟨piece, inPieces, inPiece⟩ := List.mem_flatten.mp member
    obtain ⟨d, passes, rfl⟩ := single piece inPieces
    rwa [List.mem_singleton.mp inPiece]
  · intro all
    refine ⟨word.map fun c => [c], ?_, ?_⟩
    · rw [← List.flatMap_def, List.flatMap_singleton']
    · intro piece member
      obtain ⟨c, inWord, rfl⟩ := List.mem_map.mp member
      exact ⟨c, all c inWord, rfl⟩

theorem mem_characters_mul :
    word ∈ characters test * language ↔
      ∃ c tail, word = c :: tail ∧ test c = true ∧ tail ∈ language := by
  rw [Language.mem_mul]
  constructor
  · rintro ⟨_, ⟨c, passes, rfl⟩, tail, member, rfl⟩
    exact ⟨c, tail, rfl, passes, member⟩
  · rintro ⟨c, tail, rfl, passes, member⟩
    exact ⟨[c], ⟨c, passes, rfl⟩, tail, member, rfl⟩

theorem mem_optional_mul :
    word ∈ (1 + characters test) * language ↔
      word ∈ language ∨ ∃ c tail, word = c :: tail ∧ test c = true ∧ tail ∈ language := by
  rw [add_mul, one_mul, Language.mem_add, mem_characters_mul]

end Membership

section Runs

variable {test : Char → Bool} {front text : List Char}

theorem prefix_takeWhile (all : ∀ c ∈ front, test c = true) (begins : front <+: text) :
    front <+: text.takeWhile test := by
  obtain ⟨rest, rfl⟩ := begins
  rw [List.takeWhile_append_of_pos all]
  exact List.prefix_append front _

theorem any_takeWhile : (text.takeWhile test).any test = true ↔ text.takeWhile test ≠ [] := by
  constructor
  · intro found empty
    rw [empty] at found
    cases found
  · intro nonempty
    obtain ⟨c, member⟩ := List.exists_mem_of_ne_nil _ nonempty
    exact List.any_eq_true.mpr ⟨c, member, List.mem_takeWhile_imp member⟩

end Runs

namespace Recogniser

/-- The recogniser takes the longest word of the language wherever there is one,
as a token that stands for that word. -/
structure TakesLongest (recogniser : Recogniser) (language : Language Char) : Prop where
  nonempty : ∀ word ∈ language, word ≠ []
  finds : ∀ text, ∀ word ∈ language, word <+: text → (recogniser text).isSome = true
  takes : ∀ text token, recogniser text = some token →
    ∃ word rest, text = word ++ rest ∧ token = .plain word rest ∧ LongestWord language text word

theorem TakesLongest.value_eq {recogniser : Recogniser} {language : Language Char}
    (longest : TakesLongest recogniser language) {text : List Char} {token : Token}
    (taken : recogniser text = some token) : token.value = token.lexeme := by
  obtain ⟨word, rest, -, rfl, -⟩ := longest.takes text token taken
  rfl

section Names

variable {start part : Char → Bool}

/-- Behind a start character a name goes on as long as there are part characters. -/
theorem longestWord_name {c : Char} (starts : start c = true) (text : List Char) :
    LongestWord (characters start * (characters part)∗) (c :: text) (c :: text.takeWhile part) := by
  refine ⟨?_, List.cons_prefix_cons.mpr ⟨rfl, List.takeWhile_prefix part⟩, ?_⟩
  · have run : text.takeWhile part ∈ (characters part)∗ :=
      mem_kstar_characters.mpr fun x => List.mem_takeWhile_imp
    exact mem_characters_mul.mpr ⟨c, _, rfl, starts, run⟩
  · intro other member begins
    obtain ⟨first, tail, rfl, -, parts⟩ := mem_characters_mul.mp member
    have inRun := prefix_takeWhile (mem_kstar_characters.mp parts)
      (List.cons_prefix_cons.mp begins).2
    exact Nat.succ_le_succ inRun.length_le

theorem name_takesLongest (start part : Char → Bool) :
    TakesLongest (name start part) (characters start * (characters part)∗) := by
  constructor
  · intro word member
    obtain ⟨c, tail, rfl, -⟩ := mem_characters_mul.mp member
    exact List.cons_ne_nil c tail
  · intro text word member begins
    obtain ⟨c, tail, rfl, starts, -⟩ := mem_characters_mul.mp member
    obtain ⟨rest, rfl⟩ := begins
    rw [List.cons_append, name, if_pos starts]
    rfl
  · intro text token taken
    cases text with
    | nil => cases taken
    | cons c text =>
        rw [name] at taken
        split at taken
        case isTrue starts =>
          cases taken
          have split : c :: text = c :: text.takeWhile part ++ text.dropWhile part := by
            rw [List.cons_append, List.takeWhile_append_dropWhile]
          exact ⟨_, _, split, rfl, longestWord_name starts text⟩
        case isFalse => cases taken

end Names

section Marks

variable {mark : Char → Bool} {language : Language Char} {text word rest : List Char} {c : Char}

/-- No word of the language begins with a mark, and none is empty. -/
def StartsUnmarked (mark : Char → Bool) (language : Language Char) : Prop :=
  ∀ word ∈ language, ∃ c tail, word = c :: tail ∧ mark c = false

theorem begins_of_marked (starts : StartsUnmarked mark language) (marked : mark c = true)
    (member : word ∈ (1 + characters mark) * language) (begins : word <+: c :: rest) :
    ∃ tail ∈ language, word = c :: tail ∧ tail <+: rest := by
  rcases mem_optional_mul.mp member with plain | ⟨_, tail, rfl, -, inLanguage⟩
  · obtain ⟨_, tail, rfl, unmarked⟩ := starts word plain
    rw [(List.cons_prefix_cons.mp begins).1, marked] at unmarked
    cases unmarked
  · obtain ⟨rfl, tailBegins⟩ := List.cons_prefix_cons.mp begins
    exact ⟨tail, inLanguage, rfl, tailBegins⟩

theorem mem_of_unmarked (unmarked : Stops mark text)
    (member : word ∈ (1 + characters mark) * language) (begins : word <+: text) :
    word ∈ language := by
  rcases mem_optional_mul.mp member with plain | ⟨c, tail, rfl, marked, -⟩
  · exact plain
  · obtain ⟨rest, rfl⟩ := begins
    rw [unmarked c rfl] at marked
    cases marked

theorem longestWord_of_marked (starts : StartsUnmarked mark language) (marked : mark c = true)
    (longest : LongestWord language rest word) :
    LongestWord ((1 + characters mark) * language) (c :: rest) (c :: word) := by
  refine ⟨?_, List.cons_prefix_cons.mpr ⟨rfl, longest.begins⟩, ?_⟩
  · exact mem_optional_mul.mpr (.inr ⟨c, word, rfl, marked, longest.mem⟩)
  · intro other member begins
    obtain ⟨tail, inLanguage, rfl, tailBegins⟩ := begins_of_marked starts marked member begins
    exact Nat.succ_le_succ (longest.longest tail inLanguage tailBegins)

theorem longestWord_of_unmarked (unmarked : Stops mark text)
    (longest : LongestWord language text word) :
    LongestWord ((1 + characters mark) * language) text word := by
  refine ⟨mem_optional_mul.mpr (.inl longest.mem), longest.begins, ?_⟩
  intro other member begins
  exact longest.longest other (mem_of_unmarked unmarked member begins) begins

/-- The recogniser with one mark that may stand in front. -/
def behind (mark : Char → Bool) (recogniser : Recogniser) : Recogniser
  | [] => recogniser []
  | c :: rest =>
      if mark c then (recogniser rest).map fun token => .plain (c :: token.lexeme) token.rest
      else recogniser (c :: rest)

theorem behind_of_unmarked (recogniser : Recogniser) (unmarked : Stops mark text) :
    behind mark recogniser text = recogniser text := by
  cases text with
  | nil => rfl
  | cons c rest => rw [behind, unmarked c rfl, if_neg Bool.false_ne_true]

theorem stops_or_marked (mark : Char → Bool) (text : List Char) :
    Stops mark text ∨ ∃ c rest, text = c :: rest ∧ mark c = true := by
  cases text with
  | nil => exact .inl nofun
  | cons c rest =>
      cases marked : mark c with
      | false => exact .inl (Stops.cons marked rest)
      | true => exact .inr ⟨c, rest, rfl, marked⟩

theorem TakesLongest.behind {recogniser : Recogniser} (inner : TakesLongest recogniser language)
    (starts : StartsUnmarked mark language) :
    TakesLongest (behind mark recogniser) ((1 + characters mark) * language) := by
  constructor
  · intro word member
    rcases mem_optional_mul.mp member with plain | ⟨c, tail, rfl, -⟩
    · exact inner.nonempty word plain
    · exact List.cons_ne_nil c tail
  · intro text word member begins
    rcases stops_or_marked mark text with unmarked | ⟨c, rest, rfl, marked⟩
    · rw [behind_of_unmarked recogniser unmarked]
      exact inner.finds text word (mem_of_unmarked unmarked member begins) begins
    · obtain ⟨tail, inLanguage, rfl, tailBegins⟩ := begins_of_marked starts marked member begins
      rw [Recogniser.behind, if_pos marked, Option.isSome_map]
      exact inner.finds rest tail inLanguage tailBegins
  · intro text token taken
    rcases stops_or_marked mark text with unmarked | ⟨c, rest, rfl, marked⟩
    · rw [behind_of_unmarked recogniser unmarked] at taken
      obtain ⟨word, rest, split, rfl, longest⟩ := inner.takes text token taken
      exact ⟨word, rest, split, rfl, longestWord_of_unmarked unmarked longest⟩
    · rw [Recogniser.behind, if_pos marked] at taken
      obtain ⟨_, takenBehind, rfl⟩ := Option.map_eq_some_iff.mp taken
      obtain ⟨word, rest, rfl, rfl, longest⟩ := inner.takes rest _ takenBehind
      exact ⟨c :: word, rest, rfl, rfl, longestWord_of_marked starts marked longest⟩

end Marks

section Identifiers

theorem cssIdentifier_eq_behind :
    cssIdentifier = behind (· == '-') (name isNameStart isIdentifierPart) := by
  funext text
  rcases stops_or_marked (· == '-') text with unmarked | ⟨c, rest, rfl, marked⟩
  · rw [behind_of_unmarked _ unmarked, cssIdentifier_of_other]
    intro hyphen
    cases unmarked '-' hyphen
  · obtain rfl : c = '-' := beq_iff_eq.mp marked
    rfl

theorem startsUnmarked_name :
    StartsUnmarked (· == '-') (characters isNameStart * (characters isIdentifierPart)∗) := by
  intro word member
  obtain ⟨c, tail, rfl, starts, -⟩ := mem_characters_mul.mp member
  refine ⟨c, tail, rfl, ?_⟩
  rw [beq_eq_false_iff_ne]
  rintro rfl
  cases starts

theorem cssIdentifier_takesLongest :
    TakesLongest cssIdentifier ((1 + characters (· == '-')) *
      (characters isNameStart * (characters isIdentifierPart)∗)) := by
  rw [cssIdentifier_eq_behind]
  exact (name_takesLongest isNameStart isIdentifierPart).behind startsUnmarked_name

end Identifiers

section Numbers

def isSign (c : Char) : Bool :=
  c == '+' || c == '-'

/-- The words of at least one digit. -/
def digits : Language Char :=
  characters Char.isDigit * (characters Char.isDigit)∗

def point : Language Char :=
  characters (· == '.')

def unsignedNumber : Language Char :=
  digits * (1 + point * (1 + digits)) + point * digits

/-- The longest number without a sign. -/
def unsigned : Recogniser := fun text =>
  let whole := text.takeWhile Char.isDigit
  let fraction := splitFraction (text.dropWhile Char.isDigit)
  if whole.any Char.isDigit || fraction.1.any Char.isDigit then
    some (.plain (whole ++ fraction.1) fraction.2)
  else none

theorem decimal_eq_behind : decimal = behind isSign unsigned := by
  funext text
  rcases stops_or_marked isSign text with unmarked | ⟨c, rest, rfl, marked⟩
  · have unsplit : splitSign text = ([], text) := by
      unfold splitSign
      split
      · cases unmarked '+' rfl
      · cases unmarked '-' rfl
      · rfl
    rw [behind_of_unmarked _ unmarked, decimal, unsplit]
    rfl
  · have split : splitSign (c :: rest) = ([c], rest) := by
      simp only [isSign, Bool.or_eq_true, beq_iff_eq] at marked
      rcases marked with rfl | rfl <;> rfl
    rw [behind, if_pos marked, decimal, split, unsigned]
    simp only
    split <;> rfl

/-- A number without a sign, split at its point if it has one. -/
inductive IsUnsigned : List Char → Prop
  | whole {whole : List Char} (inWhole : ∀ c ∈ whole, c.isDigit = true) (nonempty : whole ≠ []) :
      IsUnsigned whole
  | pointed {whole fraction : List Char} (inWhole : ∀ c ∈ whole, c.isDigit = true)
      (inFraction : ∀ c ∈ fraction, c.isDigit = true) (nonempty : whole ≠ [] ∨ fraction ≠ []) :
      IsUnsigned (whole ++ '.' :: fraction)

theorem IsUnsigned.ne_nil {word : List Char} (number : IsUnsigned word) : word ≠ [] := by
  cases number with
  | whole _ nonempty => exact nonempty
  | pointed => exact List.append_ne_nil_of_right_ne_nil _ (List.cons_ne_nil _ _)

variable {text word : List Char}

theorem mem_digits_iff : word ∈ digits ↔ (∀ c ∈ word, c.isDigit = true) ∧ word ≠ [] := by
  rw [digits, mem_characters_mul]
  constructor
  · rintro ⟨c, tail, rfl, digit, inKstar⟩
    have all : ∀ x ∈ c :: tail, x.isDigit = true :=
      List.forall_mem_cons.mpr ⟨digit, mem_kstar_characters.mp inKstar⟩
    exact ⟨all, List.cons_ne_nil c tail⟩
  · rintro ⟨all, nonempty⟩
    obtain ⟨c, tail, rfl⟩ := List.exists_cons_of_ne_nil nonempty
    obtain ⟨digit, others⟩ := List.forall_mem_cons.mp all
    exact ⟨c, tail, rfl, digit, mem_kstar_characters.mpr others⟩

theorem mem_point_mul {language : Language Char} :
    word ∈ point * language ↔ ∃ tail ∈ language, word = '.' :: tail := by
  simp only [point, mem_characters_mul, beq_iff_eq]
  constructor
  · rintro ⟨_, tail, rfl, rfl, member⟩
    exact ⟨tail, member, rfl⟩
  · rintro ⟨tail, member, rfl⟩
    exact ⟨'.', tail, rfl, rfl, member⟩

theorem mem_optional_fraction :
    word ∈ 1 + point * (1 + digits) ↔
      word = [] ∨ ∃ fraction, (∀ c ∈ fraction, c.isDigit = true) ∧ word = '.' :: fraction := by
  rw [digits, one_add_mul_kstar, Language.mem_add, Language.mem_one, mem_point_mul]
  simp only [mem_kstar_characters]

theorem mem_unsignedNumber_iff : word ∈ unsignedNumber ↔ IsUnsigned word := by
  rw [unsignedNumber, Language.mem_add, Language.mem_mul, mem_point_mul]
  constructor
  · rintro (⟨whole, inDigits, pointed, optional, rfl⟩ | ⟨fraction, inDigits, rfl⟩)
    · obtain ⟨inWhole, nonempty⟩ := mem_digits_iff.mp inDigits
      rcases mem_optional_fraction.mp optional with rfl | ⟨fraction, inFraction, rfl⟩
      · rw [List.append_nil]
        exact .whole inWhole nonempty
      · exact .pointed inWhole inFraction (.inl nonempty)
    · obtain ⟨inFraction, nonempty⟩ := mem_digits_iff.mp inDigits
      have noWhole : ∀ c ∈ ([] : List Char), c.isDigit = true := nofun
      exact .pointed noWhole inFraction (.inr nonempty)
  · intro number
    cases number with
    | whole inWhole nonempty =>
        have noFraction : [] ∈ 1 + point * (1 + digits) := mem_optional_fraction.mpr (.inl rfl)
        exact .inl ⟨word, mem_digits_iff.mpr ⟨inWhole, nonempty⟩, [], noFraction, word.append_nil⟩
    | @pointed whole fraction inWhole inFraction nonempty =>
        by_cases empty : whole = []
        · have digitsBehind := nonempty.resolve_left (not_not_intro empty)
          exact .inr ⟨fraction, mem_digits_iff.mpr ⟨inFraction, digitsBehind⟩, by rw [empty]; rfl⟩
        · exact .inl ⟨whole, mem_digits_iff.mpr ⟨inWhole, empty⟩, '.' :: fraction,
            mem_optional_fraction.mpr (.inr ⟨fraction, inFraction, rfl⟩), rfl⟩

theorem splitFraction_of_unpointed (unpointed : Stops (· == '.') text) :
    splitFraction text = ([], text) := by
  unfold splitFraction
  split
  · cases unpointed '.' rfl
  · rfl

/-- A digit is needed on one side of the point. -/
theorem any_of_isUnsigned (number : IsUnsigned word) (begins : word <+: text) :
    ((text.takeWhile Char.isDigit).any Char.isDigit ||
      (splitFraction (text.dropWhile Char.isDigit)).1.any Char.isDigit) = true := by
  rw [Bool.or_eq_true]
  cases number with
  | whole inWhole nonempty =>
      exact .inl (any_takeWhile.mpr ((prefix_takeWhile inWhole begins).ne_nil nonempty))
  | @pointed whole fraction inWhole inFraction nonempty =>
      obtain ⟨rest, rfl⟩ := begins
      rw [List.append_assoc]
      rcases nonempty with inFront | behind
      · have inRun := prefix_takeWhile inWhole (List.prefix_append whole ('.' :: fraction ++ rest))
        exact .inl (any_takeWhile.mpr (inRun.ne_nil inFront))
      · have stops : Stops Char.isDigit ('.' :: fraction ++ rest) := Stops.cons rfl _
        have inRun := prefix_takeWhile inFraction (List.prefix_append fraction rest)
        rw [dropWhile_append_stops inWhole stops]
        exact .inr (any_takeWhile.mpr (inRun.ne_nil behind))

theorem isUnsigned_of_any
    (found : ((text.takeWhile Char.isDigit).any Char.isDigit ||
      (splitFraction (text.dropWhile Char.isDigit)).1.any Char.isDigit) = true) :
    IsUnsigned
      (text.takeWhile Char.isDigit ++ (splitFraction (text.dropWhile Char.isDigit)).1) := by
  have inWhole : ∀ c ∈ text.takeWhile Char.isDigit, c.isDigit = true :=
    fun c => List.mem_takeWhile_imp
  rcases stops_or_marked (· == '.') (text.dropWhile Char.isDigit) with
    unpointed | ⟨c, rest, after, pointed⟩
  · rw [splitFraction_of_unpointed unpointed] at found ⊢
    rw [List.any_nil, Bool.or_false] at found
    rw [List.append_nil]
    exact .whole inWhole (any_takeWhile.mp found)
  · obtain rfl : c = '.' := beq_iff_eq.mp pointed
    rw [after] at found ⊢
    have behind : ∀ c ∈ rest.takeWhile Char.isDigit, c.isDigit = true :=
      fun c => List.mem_takeWhile_imp
    refine .pointed inWhole behind ?_
    rw [Bool.or_eq_true] at found
    exact found.imp any_takeWhile.mp any_takeWhile.mp

theorem length_le_of_isUnsigned (number : IsUnsigned word) (begins : word <+: text) :
    word.length ≤
      (text.takeWhile Char.isDigit ++ (splitFraction (text.dropWhile Char.isDigit)).1).length := by
  rw [List.length_append]
  cases number with
  | whole inWhole =>
      have inRun := prefix_takeWhile inWhole begins
      exact Nat.le_add_right_of_le inRun.length_le
  | @pointed whole fraction inWhole inFraction =>
      obtain ⟨rest, rfl⟩ := begins
      have stops : Stops Char.isDigit ('.' :: (fraction ++ rest)) := Stops.cons rfl _
      have inRun := prefix_takeWhile inFraction (List.prefix_append fraction rest)
      have shorter := inRun.length_le
      rw [List.append_assoc, List.cons_append, takeWhile_append_stops inWhole stops,
        dropWhile_append_stops inWhole stops, splitFraction, List.length_append, List.length_cons,
        List.length_cons]
      omega

theorem unsigned_takesLongest : TakesLongest unsigned unsignedNumber := by
  constructor
  · exact fun word member => (mem_unsignedNumber_iff.mp member).ne_nil
  · intro text word member begins
    rw [unsigned, if_pos (any_of_isUnsigned (mem_unsignedNumber_iff.mp member) begins)]
    rfl
  · intro text token taken
    rw [unsigned] at taken
    split at taken
    case isTrue found =>
      cases taken
      have split : text = text.takeWhile Char.isDigit ++
          (splitFraction (text.dropWhile Char.isDigit)).1 ++
            (splitFraction (text.dropWhile Char.isDigit)).2 := by
        rw [List.append_assoc, splitFraction_append, List.takeWhile_append_dropWhile]
      refine ⟨_, _, split, rfl, mem_unsignedNumber_iff.mpr (isUnsigned_of_any found), ?_, ?_⟩
      · exact ⟨_, split.symm⟩
      · intro other member begins
        exact length_le_of_isUnsigned (mem_unsignedNumber_iff.mp member) begins
    case isFalse => cases taken

theorem isSign_of_isDigit {c : Char} (digit : c.isDigit = true) : isSign c = false := by
  rw [Bool.eq_false_iff]
  intro sign
  simp only [isSign, Bool.or_eq_true, beq_iff_eq] at sign
  rcases sign with rfl | rfl <;> cases digit

theorem startsUnmarked_unsignedNumber : StartsUnmarked isSign unsignedNumber := by
  intro word member
  cases mem_unsignedNumber_iff.mp member with
  | whole inWhole nonempty =>
      obtain ⟨c, tail, rfl⟩ := List.exists_cons_of_ne_nil nonempty
      exact ⟨c, tail, rfl, isSign_of_isDigit (inWhole c List.mem_cons_self)⟩
  | @pointed whole fraction inWhole =>
      cases whole with
      | nil => exact ⟨'.', fraction, rfl, rfl⟩
      | cons c tail =>
          exact ⟨c, _, rfl, isSign_of_isDigit (inWhole c List.mem_cons_self)⟩

theorem decimal_takesLongest :
    TakesLongest decimal ((1 + characters isSign) * unsignedNumber) := by
  rw [decimal_eq_behind]
  exact unsigned_takesLongest.behind startsUnmarked_unsignedNumber

end Numbers

end Recogniser

end CssQuery
