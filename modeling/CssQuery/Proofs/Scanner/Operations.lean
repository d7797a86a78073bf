import CssQuery.Proofs.Token.Cuts
import CssQuery.Scanner.Command

/-!
# Laws of a scanner

All operations of a scanner share one place in the text, the place to which
undoing returns and the last two matches.  The operations that take text
differ only in what they look for: `advance?` says what they answer, where
they end and what they match, or that they fail, and `perform` does nothing
with that but record it.

Both places stay in the text over every run of operations.  In every state
that a run reaches, each stretch of text that the next operation cuts out lies
in the text, an operation that fails changes nothing, and one that takes text
can be undone and repeated.
-/

namespace CssQuery

/-- The stretch of a text between two indices.  There is none unless the
indices are in order and in the text. -/
def slice? (text : List Char) (start stop : Nat) : Option (List Char) :=
  if start ≤ stop ∧ stop ≤ text.length then some ((text.drop start).take (stop - start))
  else none

theorem slice?_of_drop_eq {text piece rest : List Char} {start : Nat}
    (inside : start ≤ text.length) (ahead : text.drop start = piece ++ rest) :
    slice? text start (start + piece.length) = some piece := by
  have length := congrArg List.length ahead
  rw [List.length_drop, List.length_append] at length
  rw [slice?, if_pos ⟨by omega, by omega⟩, ahead, Nat.add_sub_cancel_left,
    List.take_left]

theorem Request.cuts (request : Request) : request.recognise.Cuts := by
  cases request with
  | character => exact Recogniser.character_cuts
  | literal text => exact Recogniser.literal_cuts text
  | run description test => exact Recogniser.run_cuts test
  | ofPattern pattern => exact pattern.cuts

/-- The operations that match a piece of the text. -/
def ScannerCommand.takesText : ScannerCommand → Bool
  | expect _ | tryTake _ | seek _ _ => true
  | _ => false

/-- The answers that say that an operation did not do what was asked for. -/
def ScannerAnswer.isFailure : ScannerAnswer → Bool
  | declined | skipped false | failed _ => true
  | _ => false

namespace Scanner

def run (scanner : Scanner) (commands : List ScannerCommand) : Scanner :=
  commands.foldl (fun scanner command => (scanner.perform command).2) scanner

/-- An operation that succeeds: its answer, its end and the text it matches. -/
structure Advance where
  answer : ScannerAnswer
  stop : Nat
  matched : List Char

def advanceBy? (scanner : Scanner) (request : Request) : Option Advance :=
  (request.recognise (scanner.text.drop scanner.tokenStart)).map fun token =>
    ⟨.taken token.value, scanner.tokenStart + token.lexeme.length, token.value⟩

/-- What an operation that takes text does, if it succeeds. -/
def advance? (scanner : Scanner) : ScannerCommand → Option Advance
  | .expect request | .tryTake request => scanner.advanceBy? request
  | .seek target orEnd =>
      if orEnd || scanner.remainder.contains target then
        let passed := scanner.remainder.takeWhile (· != target)
        some ⟨.done, scanner.position + passed.length, passed⟩
      else none
  | _ => none

/-- The index of the next token: only space that is to be skipped lies before
it, and all of it. -/
structure NextToken (scanner : Scanner) (index : Nat) : Prop where
  position_le : scanner.position ≤ index
  eq_position : scanner.skipsSpace = false → index = scanner.position
  isSpace_between : ∀ between, scanner.position ≤ between → between < index →
    ∃ c, scanner.text[between]? = some c ∧ isSpace c = true
  not_isSpace : scanner.skipsSpace = true →
    ∀ c, scanner.text[index]? = some c → isSpace c = false

/-- An operation has taken text, and can be undone and repeated. -/
structure Took (scanner : Scanner) (command : ScannerCommand) (answer : ScannerAnswer)
    (after : Scanner) : Prop where
  lastMatch_eq : after.lastMatch = scanner.matched
  position_le : scanner.position ≤ after.position
  value_eq : ∀ value, answer = .taken value → value = after.matched
  matched_eq : ∃ start stop, scanner.position ≤ start ∧ stop ≤ after.position ∧
    slice? scanner.text start stop = some after.matched
  undo_eq : after.undo.position = scanner.position
  repeats : ∃ again, after.undo.perform command = (answer, again) ∧
    again.position = after.position

/-- Both places of a scanner lie in its text. -/
structure InText (scanner : Scanner) : Prop where
  position_le : scanner.position ≤ scanner.text.length
  undoPosition_le : scanner.undoPosition ≤ scanner.text.length

/-- What a state guarantees about the next operation. -/
structure Lawful (scanner : Scanner) : Prop extends InText scanner where
  tokenStart_le : scanner.tokenStart ≤ scanner.text.length
  remainder_eq : slice? scanner.text scanner.position scanner.text.length =
    some scanner.remainder
  of_failure : ∀ command answer after, scanner.perform command = (answer, after) →
    answer.isFailure = true → after = scanner
  of_success : ∀ command answer after, scanner.perform command = (answer, after) →
    command.takesText = true → answer.isFailure = false →
      after.InText ∧ scanner.Took command answer after
  expect_iff_tryTake : ∀ request value after,
    scanner.perform (.expect request) = (.taken value, after) ↔
      scanner.perform (.tryTake request) = (.taken value, after)
  of_unexpected : ∀ command after position expected found,
    scanner.perform command = (.failed (.unexpected position expected found), after) →
      scanner.NextToken position ∧ found = scanner.text[position]?

section Steps

variable {scanner : Scanner} {command : ScannerCommand}

theorem take?_of_advanceBy? {request : Request} {advance : Advance}
    (found : scanner.advanceBy? request = some advance) :
    advance.answer = .taken advance.matched ∧ scanner.take? request =
      some (advance.matched, scanner.commit advance.stop advance.matched) := by
  obtain ⟨token, recognised, rfl⟩ := Option.map_eq_some_iff.mp found
  refine ⟨rfl, ?_⟩
  rw [take?, recognised]
  rfl

theorem take?_of_advanceBy?_none {request : Request}
    (missing : scanner.advanceBy? request = none) : scanner.take? request = none := by
  rw [take?, Option.map_eq_none_iff.mp missing]
  rfl

/-- An operation that succeeds records what it has found. -/
theorem perform_of_advance? {advance : Advance}
    (found : scanner.advance? command = some advance) :
    scanner.perform command =
      (advance.answer, scanner.commit advance.stop advance.matched) := by
  cases command with
  | expect request =>
      obtain ⟨answer, taken⟩ := take?_of_advanceBy? found
      simp only [perform, expect, taken, answer]
  | tryTake request =>
      obtain ⟨answer, taken⟩ := take?_of_advanceBy? found
      simp only [perform, taken, answer]
  | seek target orEnd =>
      simp only [advance?] at found
      split at found
      case isTrue reachable =>
        cases found
        simp only [perform, seek, if_pos reachable]
      case isFalse => cases found
  | _ => cases found

theorem perform_of_advance?_none (takes : command.takesText = true)
    (missing : scanner.advance? command = none) :
    (scanner.perform command).1.isFailure = true ∧
      (scanner.perform command).2 = scanner := by
  cases command with
  | expect request =>
      rw [perform, expect, take?_of_advanceBy?_none missing]
      exact ⟨rfl, rfl⟩
  | tryTake request =>
      rw [perform, take?_of_advanceBy?_none missing]
      exact ⟨rfl, rfl⟩
  | seek target orEnd =>
      simp only [advance?] at missing
      split at missing
      case isTrue => cases missing
      case isFalse unreachable =>
        rw [perform, seek, if_neg unreachable]
        exact ⟨rfl, rfl⟩
  | _ => cases takes

/-- What an operation finds does not depend on the matches and the place to
which undoing returns. -/
theorem advance?_undo_commit (stop : Nat) (matched : List Char) :
    (scanner.commit stop matched).undo.advance? command = scanner.advance? command := by
  cases command <;> rfl

/-- What is found is a token that was asked for, or the text up to a character. -/
theorem advance?_cases {advance : Advance} (found : scanner.advance? command = some advance) :
    (∃ request, scanner.advanceBy? request = some advance) ∨
    ∃ target, advance = ⟨.done,
      scanner.position + (scanner.remainder.takeWhile (· != target)).length,
      scanner.remainder.takeWhile (· != target)⟩ := by
  cases command with
  | expect request => exact .inl ⟨request, found⟩
  | tryTake request => exact .inl ⟨request, found⟩
  | seek target orEnd =>
      simp only [advance?] at found
      split at found
      case isTrue => exact .inr ⟨target, (Option.some.inj found).symm⟩
      case isFalse => cases found
  | _ => cases found

theorem answer_of_advance? {advance : Advance}
    (found : scanner.advance? command = some advance) :
    advance.answer.isFailure = false ∧
      ∀ value, advance.answer = .taken value → value = advance.matched := by
  rcases advance?_cases found with ⟨request, taken⟩ | ⟨target, rfl⟩
  · rw [(take?_of_advanceBy? taken).1]
    exact ⟨rfl, fun value same => (ScannerAnswer.taken.inj same).symm⟩
  · exact ⟨rfl, nofun⟩

theorem perform_of_isFailure (failure : (scanner.perform command).1.isFailure = true) :
    (scanner.perform command).2 = scanner := by
  by_cases takes : command.takesText = true
  · cases found : scanner.advance? command with
    | none => exact (perform_of_advance?_none takes found).2
    | some advance =>
        rw [perform_of_advance? found, (answer_of_advance? found).1] at failure
        cases failure
  · cases command with
    | expect request => exact absurd rfl takes
    | tryTake request => exact absurd rfl takes
    | seek target orEnd => exact absurd rfl takes
    | previous => cases failure
    | undo => cases failure
    | setSkipsSpace skipsSpace => cases failure
    | skipSpace =>
        -- Skipping fails only where it would not have moved.
        have none : scanner.spaceAhead = 0 := by
          by_contra some
          simp only [perform, decide_eq_true (Nat.pos_of_ne_zero some)] at failure
          cases failure
        simp only [perform, skipSpace, none, Nat.add_zero]
    | expectEnd requirement =>
        simp only [perform]
        split <;> rfl
    | expectMore requirement =>
        simp only [perform]
        split <;> rfl

theorem perform_expect_iff (request : Request) (value : List Char) (after : Scanner) :
    scanner.perform (.expect request) = (.taken value, after) ↔
      scanner.perform (.tryTake request) = (.taken value, after) := by
  simp only [perform, expect]
  cases scanner.take? request <;> simp

/-- Only a token that is asked for can be missing. -/
theorem of_perform_unexpected {after : Scanner} {position : Nat} {expected : Option String}
    {found : Option Char}
    (failed : scanner.perform command =
      (.failed (.unexpected position expected found), after)) :
    position = scanner.tokenStart ∧ found = scanner.text[position]? := by
  cases command with
  | expect request =>
      simp only [perform, expect] at failed
      cases taken : scanner.take? request with
      | some token => simp [taken] at failed
      | none =>
          simp only [taken] at failed
          cases failed
          exact ⟨rfl, rfl⟩
  | tryTake request =>
      simp only [perform] at failed
      split at failed <;> cases failed
  | seek target orEnd =>
      by_cases reachable : (orEnd || scanner.remainder.contains target) = true
      · simp only [perform, seek, if_pos reachable] at failed
        cases failed
      · simp only [perform, seek, if_neg reachable] at failed
        cases failed
  | expectEnd requirement =>
      cases finished : scanner.atEnd <;> simp [perform, expectEnd, finished] at failed
  | expectMore requirement =>
      cases finished : scanner.atEnd <;> simp [perform, expectMore, finished] at failed
  | _ => cases failed

end Steps

section Places

variable {scanner : Scanner} {command : ScannerCommand}

theorem getElem?_of_lt_spaceAhead {offset : Nat} (inside : offset < scanner.spaceAhead) :
    ∃ c, scanner.text[scanner.position + offset]? = some c ∧ isSpace c = true := by
  have first := List.takeWhile_prefix (l := scanner.remainder) isSpace
  refine ⟨_, ?_, List.mem_takeWhile_imp (List.getElem_mem inside)⟩
  rw [← List.getElem?_drop]
  exact List.prefix_iff_getElem?.mp first offset inside

theorem drop_spaceAhead : scanner.text.drop (scanner.position + scanner.spaceAhead) =
    scanner.remainder.dropWhile isSpace := by
  have split := List.takeWhile_append_dropWhile (p := isSpace) (l := scanner.remainder)
  have dropped := congrArg (List.drop scanner.spaceAhead) split
  rw [spaceAhead, List.drop_left, remainder, List.drop_drop] at dropped
  exact dropped.symm

theorem nextToken_tokenStart : scanner.NextToken scanner.tokenStart := by
  unfold tokenStart
  split
  case isTrue skips =>
    refine ⟨Nat.le_add_right _ _, fun keeps => ?_, fun between start stop => ?_,
      fun _ c found => ?_⟩
    · rw [skips] at keeps
      cases keeps
    · obtain ⟨offset, rfl⟩ := Nat.exists_eq_add_of_le start
      exact getElem?_of_lt_spaceAhead (Nat.lt_of_add_lt_add_left stop)
    · rw [← List.head?_drop, drop_spaceAhead] at found
      have stopped := List.head?_dropWhile_not isSpace scanner.remainder
      rw [found] at stopped
      simpa using stopped
  case isFalse keeps =>
    refine ⟨Nat.le_refl _, fun _ => rfl, fun between start stop => ?_, fun skips => ?_⟩
    · omega
    · exact absurd skips keeps

namespace InText

theorem spaceAhead_le (inText : scanner.InText) :
    scanner.position + scanner.spaceAhead ≤ scanner.text.length := by
  have bound := (List.takeWhile_prefix (l := scanner.remainder) isSpace).length_le
  rw [remainder, List.length_drop] at bound
  have place := inText.position_le
  simp only [spaceAhead, remainder]
  omega

theorem tokenStart_le (inText : scanner.InText) :
    scanner.tokenStart ≤ scanner.text.length := by
  unfold tokenStart
  split
  · exact inText.spaceAhead_le
  · exact inText.position_le

theorem remainder_eq (inText : scanner.InText) :
    slice? scanner.text scanner.position scanner.text.length = some scanner.remainder := by
  rw [slice?, if_pos ⟨inText.position_le, Nat.le_refl _⟩, remainder,
    List.take_of_length_le (by simp)]

/-- What an operation takes lies ahead and in the text. -/
theorem of_advance? (inText : scanner.InText) {advance : Advance}
    (found : scanner.advance? command = some advance) :
    scanner.position ≤ advance.stop ∧ advance.stop ≤ scanner.text.length ∧
      ∃ start stop, scanner.position ≤ start ∧ stop ≤ advance.stop ∧
        slice? scanner.text start stop = some advance.matched := by
  rcases advance?_cases found with ⟨request, taken⟩ | ⟨target, rfl⟩
  · obtain ⟨token, recognised, rfl⟩ := Option.map_eq_some_iff.mp taken
    obtain ⟨ahead, before, behind, whole⟩ := request.cuts recognised
    have place := (@nextToken_tokenStart scanner).position_le
    have start := inText.tokenStart_le
    have length := congrArg List.length ahead
    have parts := congrArg List.length whole
    simp only [List.length_append, List.length_drop] at length parts
    have inner : scanner.text.drop (scanner.tokenStart + before.length) =
        token.value ++ (behind ++ token.rest) := by
      rw [← List.drop_drop, ahead, ← whole]
      simp
    refine ⟨by simp only; omega, by simp only; omega, scanner.tokenStart + before.length,
      scanner.tokenStart + before.length + token.value.length, by omega,
      by simp only; omega, slice?_of_drop_eq (by omega) inner⟩
  · have split := List.takeWhile_append_dropWhile (p := (· != target))
      (l := scanner.remainder)
    have bound := congrArg List.length split
    rw [List.length_append, remainder, List.length_drop] at bound
    have place := inText.position_le
    refine ⟨Nat.le_add_right _ _, ?_, scanner.position, _, Nat.le_refl _,
      Nat.le_refl _, slice?_of_drop_eq place split.symm⟩
    simp only [remainder]
    omega

theorem perform (inText : scanner.InText) (command : ScannerCommand) :
    (scanner.perform command).2.InText ∧
      (scanner.perform command).2.text = scanner.text := by
  by_cases takes : command.takesText = true
  · cases found : scanner.advance? command with
    | none =>
        rw [(perform_of_advance?_none takes found).2]
        exact ⟨inText, rfl⟩
    | some advance =>
        rw [perform_of_advance? found]
        exact ⟨⟨(inText.of_advance? found).2.1, inText.position_le⟩, rfl⟩
  · cases command with
    | expect request => exact absurd rfl takes
    | tryTake request => exact absurd rfl takes
    | seek target orEnd => exact absurd rfl takes
    | previous =>
        simp only [Scanner.perform, previous]
        split
        · exact ⟨inText, rfl⟩
        · exact ⟨⟨Nat.le_trans (Nat.sub_le _ _) inText.position_le, inText.position_le⟩, rfl⟩
    | undo => exact ⟨⟨inText.undoPosition_le, inText.undoPosition_le⟩, rfl⟩
    | skipSpace => exact ⟨⟨inText.spaceAhead_le, inText.undoPosition_le⟩, rfl⟩
    | setSkipsSpace skipsSpace => exact ⟨⟨inText.position_le, inText.undoPosition_le⟩, rfl⟩
    | expectEnd requirement =>
        simp only [Scanner.perform]
        split <;> exact ⟨inText, rfl⟩
    | expectMore requirement =>
        simp only [Scanner.perform]
        split <;> exact ⟨inText, rfl⟩

theorem run (inText : scanner.InText) (commands : List ScannerCommand) :
    (scanner.run commands).InText ∧ (scanner.run commands).text = scanner.text := by
  induction commands generalizing scanner with
  | nil => exact ⟨inText, rfl⟩
  | cons command commands ih =>
      obtain ⟨step, text⟩ := inText.perform command
      obtain ⟨rest, same⟩ := ih step
      exact ⟨rest, same.trans text⟩

theorem took (inText : scanner.InText) {advance : Advance}
    (found : scanner.advance? command = some advance) :
    scanner.Took command advance.answer (scanner.commit advance.stop advance.matched) where
  lastMatch_eq := rfl
  position_le := (inText.of_advance? found).1
  value_eq := (answer_of_advance? found).2
  matched_eq := (inText.of_advance? found).2.2
  undo_eq := rfl
  repeats := by
    have again := (advance?_undo_commit advance.stop advance.matched).trans found
    exact ⟨_, perform_of_advance? again, rfl⟩

theorem lawful (inText : scanner.InText) : scanner.Lawful where
  toInText := inText
  tokenStart_le := inText.tokenStart_le
  remainder_eq := inText.remainder_eq
  of_failure command answer after performed failure := by
    have unchanged := @perform_of_isFailure scanner command
    rw [performed] at unchanged
    exact unchanged failure
  of_success command answer after performed takes success := by
    cases found : scanner.advance? command with
    | none =>
        have failure := (perform_of_advance?_none takes found).1
        rw [performed, success] at failure
        cases failure
    | some advance =>
        have kept := (inText.perform command).1
        rw [perform_of_advance? found] at performed kept
        cases performed
        exact ⟨kept, inText.took found⟩
  expect_iff_tryTake := perform_expect_iff
  of_unexpected command after position expected found failed := by
    obtain ⟨rfl, at'⟩ := of_perform_unexpected failed
    exact ⟨nextToken_tokenStart, at'⟩

end InText

end Places

/-- Whatever operations were performed on a text, the next one obeys the laws
of the scanner. -/
theorem lawful_run (text : String) (skipsSpace : Bool) (commands : List ScannerCommand) :
    ((ofText text skipsSpace).run commands).text = text.toList ∧
      ((ofText text skipsSpace).run commands).Lawful := by
  have start : (ofText text skipsSpace).InText := ⟨Nat.zero_le _, Nat.zero_le _⟩
  obtain ⟨inText, same⟩ := start.run commands
  exact ⟨same, inText.lawful⟩

/-- A span that is not closed, asked for behind a name that has been read,
half given back and read again. -/
theorem unexpected_open_span :
    ((ofText "ab  (c" true).run
      [.expect (.ofPattern .cssIdentifier), .previous, .undo]).perform
        (.expect (.ofPattern (.bounded none true))) =
      (.failed (.unexpected 4 (some "a bracketed or quoted span") (some '(')),
        (ofText "ab  (c" true).run
          [.expect (.ofPattern .cssIdentifier), .previous, .undo]) ∧
    ((ofText "ab  (c" true).run
      [.expect (.ofPattern .cssIdentifier), .previous, .undo]).NextToken 4 := by
  have failed : ((ofText "ab  (c" true).run
      [.expect (.ofPattern .cssIdentifier), .previous, .undo]).perform
        (.expect (.ofPattern (.bounded none true))) = (.failed _, _) := rfl
  have lawful := (lawful_run "ab  (c" true
    [.expect (.ofPattern .cssIdentifier), .previous, .undo]).2
  exact ⟨failed, (lawful.of_unexpected _ _ _ _ _ failed).1⟩

end Scanner

end CssQuery
