import CssQuery.Proofs.Text.ClassTable
import CssQuery.Proofs.Token.RegularWords

/-!
# Attempts

A token can also be looked for with an index that goes through the source one
character at a time.  An attempt keeps the place where it began; when it can go
no further, what lies between the two places is the token.  Characters are
tested by looking them up in the table of classes.

An attempt finds what the recogniser for the same pattern takes off the front
of the text behind the place where it began.
-/

namespace CssQuery

/-- A place in a source to which an attempt has come from its start. -/
structure Attempt where
  source : List Char
  start : Nat
  index : Nat

namespace Attempt

def starting (source : List Char) (start : Nat) : Attempt :=
  ⟨source, start, start⟩

def current (attempt : Attempt) : Option Char :=
  attempt.source[attempt.index]?

def advance (attempt : Attempt) : Attempt :=
  { attempt with index := attempt.index + 1 }

def advanceIf (test : Char → Bool) (attempt : Attempt) : Attempt :=
  if attempt.current.any test then attempt.advance else attempt

theorem index_lt_of_current {attempt : Attempt} {test : Char → Bool}
    (passes : attempt.current.any test = true) : attempt.index < attempt.source.length := by
  cases here : attempt.current with
  | none =>
      rw [here] at passes
      cases passes
  | some c => exact (List.getElem?_eq_some_iff.mp here).1

def advanceWhile (test : Char → Bool) (attempt : Attempt) : Attempt :=
  if _ : attempt.current.any test = true then advanceWhile test attempt.advance else attempt
termination_by attempt.source.length - attempt.index
decreasing_by
  have inside := index_lt_of_current ‹attempt.current.any test = true›
  simp only [advance]
  omega

/-- The span from the start of the attempt, if anything was read. -/
def finish (attempt : Attempt) : Option Span :=
  if attempt.start < attempt.index then
    some ⟨attempt.start, attempt.index, attempt.source.extract attempt.start attempt.index⟩
  else none

section Patterns

/-- Goes past an optional point and the digits behind it, and counts these digits. -/
def readFraction (attempt : Attempt) : Attempt × Nat :=
  if attempt.current.any (· == '.') then
    let point := attempt.advance
    let fraction := point.advanceWhile (ClassTable.holds · .digit)
    (fraction, fraction.index - point.index)
  else (attempt, 0)

/-- Reads a number behind its sign.  A strict one has to end the text or stand
before selector space. -/
def readNumber (strict : Bool) (attempt : Attempt) : Option Span :=
  let whole := attempt.advanceWhile (ClassTable.holds · .digit)
  let read := whole.readFraction
  if whole.index - attempt.index + read.2 = 0 then none
  else if strict && read.1.current.any fun c => !ClassTable.holds c .space then none
  else read.1.finish

def number (strict : Bool) (attempt : Attempt) : Option Span :=
  (attempt.advanceIf Recogniser.isSign).readNumber strict

/-- Reads a start character and then part characters. -/
def name (first rest : CharKind) (attempt : Attempt) : Option Span :=
  if attempt.current.any (ClassTable.holds · first) then
    (attempt.advance.advanceWhile (ClassTable.holds · rest)).finish
  else none

/-- Reads part characters, of which the first must also be a start character. -/
def readIdentifier (attempt : Attempt) : Option Span :=
  if attempt.current.any (ClassTable.holds · .identifierStart) then
    (attempt.advanceWhile (ClassTable.holds · .identifierPart)).finish
  else none

def cssIdentifier (attempt : Attempt) : Option Span :=
  (attempt.advanceIf (· == '-')).readIdentifier

end Patterns

section Steps

/-- The attempt has read the one text and has the other before it. -/
structure Reached (attempt : Attempt) (source : List Char) (start : Nat)
    (read ahead : List Char) : Prop where
  source_eq : attempt.source = source
  start_eq : attempt.start = start
  index_eq : attempt.index = start + read.length
  drop_eq : source.drop start = read ++ ahead

variable {attempt : Attempt} {source read ahead : List Char} {start : Nat} {c : Char}

theorem reached_starting (source : List Char) (start : Nat) :
    (starting source start).Reached source start [] (source.drop start) :=
  ⟨rfl, rfl, rfl, rfl⟩

theorem any_head?_of_stops {test : Char → Bool} (stops : Stops test ahead) :
    ahead.head?.any test = false := by
  cases ahead with
  | nil => rfl
  | cons c ahead => exact stops c rfl

namespace Reached

theorem current_eq (reached : attempt.Reached source start read ahead) :
    attempt.current = ahead.head? := by
  have behind : source.drop (start + read.length) = ahead := by
    rw [← List.drop_drop, reached.drop_eq, List.drop_left]
  rw [current, reached.source_eq, reached.index_eq, ← List.head?_drop, behind]

theorem advance (reached : attempt.Reached source start read (c :: ahead)) :
    attempt.advance.Reached source start (read ++ [c]) ahead := by
  refine ⟨reached.source_eq, reached.start_eq, ?_, ?_⟩
  · rw [Attempt.advance, reached.index_eq, List.length_append, List.length_singleton, Nat.add_assoc]
  · rw [List.append_assoc, List.singleton_append, reached.drop_eq]

/-- A run of characters that pass the test is read to its end. -/
theorem advanceWhile (test : Char → Bool) (reached : attempt.Reached source start read ahead) :
    (attempt.advanceWhile test).Reached source start (read ++ ahead.takeWhile test)
      (ahead.dropWhile test) := by
  induction ahead generalizing attempt read with
  | nil =>
      rw [Attempt.advanceWhile, reached.current_eq]
      simpa using reached
  | cons c ahead ih =>
      rw [Attempt.advanceWhile, reached.current_eq]
      cases passes : test c with
      | true =>
          have further := ih reached.advance
          simpa [passes] using further
      | false => simpa [passes] using reached

/-- Nothing is counted exactly if no character passes the test. -/
theorem count_eq_zero_iff (test : Char → Bool) (reached : attempt.Reached source start read ahead) :
    (attempt.advanceWhile test).index - attempt.index = 0 ↔
      (ahead.takeWhile test).any test = false := by
  have count : (attempt.advanceWhile test).index - attempt.index =
      (ahead.takeWhile test).length := by
    rw [(reached.advanceWhile test).index_eq, reached.index_eq, List.length_append]
    omega
  rw [count, List.length_eq_zero_iff, ← Bool.not_eq_true, any_takeWhile, not_not]

theorem finish_eq (reached : attempt.Reached source start read ahead) (nonempty : read ≠ []) :
    attempt.finish = some ⟨start, start + read.length, read⟩ := by
  have positive : 0 < read.length := List.length_pos_iff.mpr nonempty
  have text : source.extract start (start + read.length) = read := by
    rw [List.extract_eq_take_drop, reached.drop_eq, Nat.add_sub_cancel_left, List.take_left]
  rw [finish, reached.source_eq, reached.start_eq, reached.index_eq, text, if_pos (by omega)]

end Reached

end Steps

section Agreement

/-- From wherever it has come, the attempt finds what the recogniser takes off
the front of the text before it. -/
def Follows (find : Attempt → Option Span) (recogniser : Recogniser) : Prop :=
  ∀ ⦃attempt source start read ahead⦄, Reached attempt source start read ahead →
    find attempt = (recogniser ahead).map fun token =>
      ⟨start, start + (read ++ token.lexeme).length, read ++ token.lexeme⟩

theorem follows_behind {find : Attempt → Option Span} {recogniser : Recogniser}
    (follows : Follows find recogniser) (mark : Char → Bool) :
    Follows (fun attempt => find (attempt.advanceIf mark)) (Recogniser.behind mark recogniser) := by
  intro attempt source start read ahead reached
  simp only [advanceIf, reached.current_eq]
  rcases Recogniser.stops_or_marked mark ahead with unmarked | ⟨c, rest, rfl, marked⟩
  · rw [any_head?_of_stops unmarked, if_neg Bool.false_ne_true,
      Recogniser.behind_of_unmarked _ unmarked]
    exact follows reached
  · rw [List.head?_cons, Option.any_some, if_pos marked, Recogniser.behind, if_pos marked,
      Option.map_map, follows reached.advance]
    simp [Function.comp_def, Token.plain]

theorem follows_name (first rest : CharKind) :
    Follows (name first rest) (Recogniser.name first.holds rest.holds) := by
  intro attempt source start read ahead reached
  rw [name, reached.current_eq]
  simp only [ClassTable.holds_eq]
  cases ahead with
  | nil => rfl
  | cons c ahead =>
      have behind := reached.advance.advanceWhile rest.holds
      rw [List.head?_cons, Option.any_some, Recogniser.name]
      cases starts : first.holds c with
      | false => rfl
      | true =>
          rw [if_pos rfl, if_pos rfl, behind.finish_eq (by simp)]
          simp [Token.plain]

/-- A start character is also a part character, so the run of part characters
that begins with it is the whole identifier. -/
theorem follows_readIdentifier :
    Follows readIdentifier (Recogniser.name isNameStart isIdentifierPart) := by
  intro attempt source start read ahead reached
  have run := reached.advanceWhile isIdentifierPart
  rw [readIdentifier, reached.current_eq]
  simp only [ClassTable.holds_eq, CharKind.holds]
  cases ahead with
  | nil => rfl
  | cons c ahead =>
      rw [List.head?_cons, Option.any_some, Recogniser.name]
      cases starts : isNameStart c with
      | false => rfl
      | true =>
          have part : isIdentifierPart c = true :=
            Recogniser.isIdentifierPart_of_isNameStart starts
          rw [List.takeWhile_cons_of_pos part] at run
          rw [if_pos rfl, if_pos rfl, run.finish_eq (by simp)]
          rfl

theorem follows_cssIdentifier : Follows cssIdentifier Recogniser.cssIdentifier := by
  rw [Recogniser.cssIdentifier_eq_behind]
  exact follows_behind follows_readIdentifier _

section Numbers

variable {attempt : Attempt} {source read ahead : List Char} {start : Nat}

theorem Reached.readFraction (reached : attempt.Reached source start read ahead) :
    attempt.readFraction.1.Reached source start (read ++ (Recogniser.splitFraction ahead).1)
      (Recogniser.splitFraction ahead).2 := by
  rw [Attempt.readFraction, reached.current_eq]
  rcases Recogniser.stops_or_marked (· == '.') ahead with unpointed | ⟨c, rest, rfl, pointed⟩
  · rw [any_head?_of_stops unpointed, if_neg Bool.false_ne_true,
      Recogniser.splitFraction_of_unpointed unpointed, List.append_nil]
    exact reached
  · have behind := reached.advance.advanceWhile Char.isDigit
    obtain rfl : c = '.' := beq_iff_eq.mp pointed
    rw [List.append_assoc, List.singleton_append] at behind
    simp only [ClassTable.holds_eq, CharKind.holds]
    exact behind

theorem Reached.readFraction_count (reached : attempt.Reached source start read ahead) :
    attempt.readFraction.2 = 0 ↔
      (Recogniser.splitFraction ahead).1.any Char.isDigit = false := by
  rw [Attempt.readFraction, reached.current_eq]
  rcases Recogniser.stops_or_marked (· == '.') ahead with unpointed | ⟨c, rest, rfl, pointed⟩
  · rw [any_head?_of_stops unpointed, if_neg Bool.false_ne_true,
      Recogniser.splitFraction_of_unpointed unpointed]
    simp
  · have counted := reached.advance.count_eq_zero_iff Char.isDigit
    obtain rfl : c = '.' := beq_iff_eq.mp pointed
    simp only [ClassTable.holds_eq, CharKind.holds]
    exact counted

/-- Whether the number may end where the token does. -/
def endsNumber (strict : Bool) (token : Token) : Bool :=
  !strict || (token.rest.head?.map isSpace).getD true

theorem endsNumber_eq (strict : Bool) (token : Token) :
    endsNumber strict token = !(strict && token.rest.head?.any fun c => !isSpace c) := by
  rw [endsNumber, Bool.not_and]
  cases token.rest.head? with
  | none => rfl
  | some c => simp

theorem follows_readNumber (strict : Bool) :
    Follows (readNumber strict) fun text =>
      (Recogniser.unsigned text).filter (endsNumber strict) := by
  intro attempt source start read ahead reached
  have whole := reached.advanceWhile Char.isDigit
  have fraction := whole.readFraction
  have counted := reached.count_eq_zero_iff Char.isDigit
  -- no digits are counted exactly if there is none on either side of the point
  rw [readNumber]
  simp only [ClassTable.holds_eq, CharKind.holds, Recogniser.unsigned, Nat.add_eq_zero_iff,
    counted, whole.readFraction_count, fraction.current_eq, ← Bool.or_eq_false_iff]
  cases found : (ahead.takeWhile Char.isDigit).any Char.isDigit ||
      (Recogniser.splitFraction (ahead.dropWhile Char.isDigit)).1.any Char.isDigit with
  | false => rfl
  | true =>
      rw [List.append_assoc] at fraction
      have nonempty := (Recogniser.isUnsigned_of_any found).ne_nil
      have finished := fraction.finish_eq (List.append_ne_nil_of_right_ne_nil read nonempty)
      rw [if_neg (by decide), if_pos rfl, Option.filter_some, endsNumber_eq, Token.plain]
      cases strict && (Recogniser.splitFraction (ahead.dropWhile Char.isDigit)).2.head?.any
          fun c => !isSpace c with
      | true => rfl
      | false => exact finished

/-- What follows a number does not depend on its sign. -/
theorem behind_filter (mark : Char → Bool) (recogniser : Recogniser) (strict : Bool) :
    (Recogniser.behind mark fun text => (recogniser text).filter (endsNumber strict)) =
      fun text => (Recogniser.behind mark recogniser text).filter (endsNumber strict) := by
  funext text
  rcases Recogniser.stops_or_marked mark text with unmarked | ⟨c, rest, rfl, marked⟩
  · rw [Recogniser.behind_of_unmarked _ unmarked, Recogniser.behind_of_unmarked _ unmarked]
  · rw [Recogniser.behind, Recogniser.behind, if_pos marked, if_pos marked, Option.filter_map]
    rfl

theorem recognise_number (strict : Bool) :
    (Pattern.number strict).recognise =
      fun text => (Recogniser.decimal text).filter (endsNumber strict) := by
  funext text
  cases strict with
  | true => rfl
  | false => cases found : Recogniser.decimal text <;> exact found

theorem follows_number (strict : Bool) :
    Follows (number strict) (Pattern.number strict).recognise := by
  rw [recognise_number, Recogniser.decimal_eq_behind, ← behind_filter]
  exact follows_behind (follows_readNumber strict) Recogniser.isSign

end Numbers

end Agreement

end Attempt

end CssQuery
