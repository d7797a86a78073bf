import CssQuery.Proofs.Equation.Acceptance
import CssQuery.Proofs.Formula.Agreement
import CssQuery.Proofs.Formula.Membership

/-!
# Bare integers as flat formulas

A bare integer `k` selects the position `k`, by a comparison and without a
cache.  The formula `0n + k` selects it as well, but through an entry, whose
search meets one and the same value at every argument.  A question about a
position below `k` is answered by one further argument, since the value lies
past the position; any other question ends the search for good, after three
arguments at the latest.  The answers are those of the comparison in whichever
order the questions come, up to the end of the 64-bit range.
-/

namespace CssQuery

/-- The formula `0n + k`, or `0n - k` with the absolute value of a negative
number, in decimal digits. -/
def flatText (constant : Int) : String :=
  (if constant < 0 then "0n-" else "0n+") ++ toString constant.natAbs

/-- The decimal digits of the absolute value. -/
def decimalDigits (constant : Int) : List Char :=
  Nat.toDigits 10 constant.natAbs

def constantSign (constant : Int) : Sign :=
  if constant < 0 then .minus else .plus

def flatSyntax (constant : Int) : FormulaSyntax :=
  ⟨none, .multiple ['0'] false ['n'],
    [(constantSign constant, .number (decimalDigits constant))]⟩

section Text

theorem toList_flatText (constant : Int) :
    (flatText constant).toList =
      '0' :: 'n' :: (if constant < 0 then '-' else '+') :: decimalDigits constant := by
  have digits : (toString constant.natAbs).toList = decimalDigits constant := Nat.toList_repr
  rw [flatText, String.toList_append, digits]
  split_ifs <;> rfl

theorem isDigit_of_mem_decimalDigits {constant : Int} {c : Char}
    (member : c ∈ decimalDigits constant) : c.isDigit = true :=
  Nat.isDigit_of_mem_toDigits (by decide) (by decide) member

theorem digitsValue_decimalDigits (constant : Int) :
    digitsValue (decimalDigits constant) = constant.natAbs :=
  Nat.ofDigitChars_toDigits (by decide) (by decide)

theorem spells_constantSign (constant : Int) :
    (constantSign constant).token.Spells [if constant < 0 then '-' else '+'] := by
  rw [constantSign]
  split_ifs
  · exact .minus
  · exact .plus

theorem spells_flatText (constant : Int) :
    (flatSyntax constant).Spells (flatText constant).toList := by
  have slope : (FormulaToken.digits ['0']).Spells ['0'] :=
    .digits (List.cons_ne_nil _ _) (List.forall_mem_singleton.mpr rfl)
  have variableName : (FormulaToken.letters ['n']).Spells ['n'] :=
    .letters (List.cons_ne_nil _ _) (List.forall_mem_singleton.mpr rfl)
  have digits : (FormulaToken.digits (decimalDigits constant)).Spells (decimalDigits constant) :=
    .digits Nat.toDigits_ne_nil fun c => isDigit_of_mem_decimalDigits
  have writes := FormulaToken.Writes.token slope (.token variableName
    (.token (spells_constantSign constant) (.token digits .nil)))
  simp only [List.cons_append, List.nil_append, List.append_nil] at writes
  rw [toList_flatText]
  exact writes

theorem inRange_of_natAbs_le {constant : Int} (small : constant.natAbs ≤ maxInteger) :
    InRange constant := by
  simp only [InRange, minInteger, maxInteger] at small ⊢
  omega

theorem constantSign_mul_natAbs (constant : Int) :
    (constantSign constant).value * constant.natAbs = constant := by
  rw [constantSign]
  split_ifs <;> simp only [Sign.value] <;> omega

/-- The formula is read as the line that stays at `k`. -/
theorem parse_flatText {constant : Int} (small : constant.natAbs ≤ maxInteger) :
    LinearEquation.parse (flatText constant).toList = .ok (.line 0 constant) := by
  have spells := spells_flatText constant
  have runs : (flatSyntax constant).tokens.filterMap FormulaToken.digits? =
      [['0'], decimalDigits constant] := by
    rw [flatSyntax, constantSign]
    split_ifs <;> rfl
  refine LinearEquation.parse_eq_ok_iff.mpr ⟨?_, flatSyntax constant, spells, ?_⟩
  · rw [spells.digits_eq (flatSyntax constant).separated_tokens, runs]
    intro digits member
    rcases List.mem_pair.mp member with rfl | rfl
    · decide
    · rwa [digitsValue_decimalDigits]
  · have added : addClamped 0 ((constantSign constant).value *
        digitsValue (decimalDigits constant)) = constant := by
      rw [digitsValue_decimalDigits, constantSign_mul_natAbs, addClamped, Int.zero_add,
        clamp_eq_self (inRange_of_natAbs_le small)]
    exact congrArg (LinearEquation.mk [("n", 0)]) added.symm

theorem bounds_of_isDigit {c : Char} (digit : c.isDigit = true) :
    48 ≤ c.toNat ∧ c.toNat ≤ 57 :=
  Char.isDigit_iff_toNat.mp digit

theorem isUnicodeSpace_of_isDigit {c : Char} (digit : c.isDigit = true) :
    isUnicodeSpace c = false := by
  obtain ⟨low, high⟩ := bounds_of_isDigit digit
  simp only [isUnicodeSpace, Bool.or_eq_false_iff, Bool.and_eq_false_iff, decide_eq_false_iff_not,
    beq_eq_false_iff_ne]
  omega

theorem toLower_of_isDigit {c : Char} (digit : c.isDigit = true) : c.toLower = c := by
  obtain ⟨-, high⟩ := bounds_of_isDigit digit
  apply dif_neg
  rintro ⟨upper, -⟩
  have upper : 65 ≤ c.toNat := upper
  omega

theorem trim_eq_self {text : List Char} (solid : ∀ c ∈ text, isUnicodeSpace c = false) :
    trim text = text := by
  have unspaced : ∀ other : List Char, (∀ c ∈ other, isUnicodeSpace c = false) →
      other.dropWhile isUnicodeSpace = other := by
    intro other solid
    cases other with
    | nil => rfl
    | cons c other => rw [List.dropWhile_cons_of_neg (by simp [solid c List.mem_cons_self])]
  rw [trim, trimStart, unspaced text solid, trimEnd, unspaced, List.reverse_reverse]
  intro c member
  exact solid c (List.mem_reverse.mp member)

theorem normalize_flatText (constant : Int) :
    Formula.normalize (flatText constant) = flatText constant := by
  have normal : ∀ c ∈ (flatText constant).toList, isUnicodeSpace c = false ∧ c.toLower = c := by
    rw [toList_flatText]
    intro c member
    simp only [List.mem_cons] at member
    rcases member with rfl | rfl | rfl | digit
    · decide
    · decide
    · split_ifs <;> decide
    · have digit := isDigit_of_mem_decimalDigits digit
      exact ⟨isUnicodeSpace_of_isDigit digit, toLower_of_isDigit digit⟩
  have trimmed : trim (flatText constant).toList = (flatText constant).toList :=
    trim_eq_self fun c member => (normal c member).1
  have lowered : (flatText constant).toList.map Char.toLower = (flatText constant).toList :=
    (List.map_congr_left fun c member => (normal c member).2).trans (List.map_id _)
  -- The two words that stand for formulas begin with letters.
  have differs : ∀ word : String, word.toList.head? ≠ some '0' → flatText constant ≠ word := by
    rintro _ other rfl
    rw [toList_flatText] at other
    exact other rfl
  rw [Formula.normalize]
  simp only [trimmed, lowered, String.ofList_toList]
  rw [if_neg (differs "even" (by decide)), if_neg (differs "odd" (by decide))]

theorem parseInteger?_flatText (constant : Int) :
    parseInteger? (flatText constant).toList = none := by
  rw [toList_flatText]
  rfl

end Text

namespace Coverage

section Flat

variable {evaluate : Int → Int} {value index : Int}

/-- What is known about a sequence that stays at one value: all of it, or
nothing, or that positions below the value are none of its positions. -/
def PacedFlat (value : Int) (coverage : Coverage) : Prop :=
  0 ≤ coverage.maxIndex ∧ (coverage.exhausted = true ∨ coverage.nextArgument = 0 ∨
    coverage.nextArgument ≤ coverage.maxIndex + 1 ∧ coverage.maxIndex < value)

theorem pacedFlat_empty : PacedFlat value {} :=
  ⟨Int.le_refl _, .inr (.inl rfl)⟩

variable (flat : ∀ n : Nat, evaluate n = value)

include flat

/-- Below the value the second argument decides every position. -/
theorem verdict_of_lt (below : index < value) (n : Nat) :
    verdict evaluate index (n + 1) = .passed :=
  verdict_of_rise (Int.le_of_eq (by rw [flat, flat])) (by rwa [flat])

/-- The third argument decides every position. -/
theorem verdict_ne_undecided (n : Nat) : verdict evaluate index (n + 2) ≠ .undecided := by
  apply verdict_of_fall
  · exact Int.le_of_eq (by rw [flat, flat])
  · exact Int.le_of_eq (by rw [flat, flat, flat])
  · exact .inr (by rw [flat, flat])

/-- Every question comes to an end by itself, after one further argument or
the first three. -/
theorem PacedFlat.extendTo {coverage : Coverage} (paced : PacedFlat value coverage)
    (traces : Traces evaluate coverage) (inRange : InRange value) (index : Int) :
    PacedFlat value (coverage.extendTo horizon evaluate index) ∧
      Answers evaluate index coverage (coverage.extendTo horizon evaluate index) := by
  obtain ⟨nonneg, pace⟩ := paced
  unfold Coverage.extendTo
  by_cases covered : coverage.covers index = true
  · rw [if_pos covered]
    exact ⟨⟨nonneg, pace⟩, .known covered⟩
  rw [if_neg covered]
  have uncovered := covered
  simp only [covers, Bool.or_eq_true, decide_eq_true_eq, not_or] at uncovered
  replace pace := pace.resolve_left uncovered.1
  have highest := inRange.2
  simp only [maxInteger] at highest
  obtain ⟨last, start, soon, decided, slow⟩ : ∃ last, coverage.nextArgument ≤ last ∧
      last < horizon ∧ verdict evaluate index last ≠ .undecided ∧
      (index < value → (last : Int) ≤ index) := by
    simp only [horizon]
    by_cases below : index < value
    · obtain ⟨n, last⟩ : ∃ n, max coverage.nextArgument 1 = n + 1 :=
        ⟨max coverage.nextArgument 1 - 1, by omega⟩
      refine ⟨n + 1, by omega, by omega, ?_, by omega⟩
      rw [verdict_of_lt flat below]
      decide
    · obtain ⟨n, last⟩ : ∃ n, max coverage.nextArgument 2 = n + 2 :=
        ⟨max coverage.nextArgument 2 - 2, by omega⟩
      exact ⟨n + 2, by omega, by omega, verdict_ne_undecided flat n, by omega⟩
  obtain ⟨settles, ended⟩ := search_settles traces (horizon - coverage.nextArgument) decided
    start (by omega)
  refine ⟨⟨?_, ?_⟩, .searched (by simpa using covered) settles⟩
  · simp only
    omega
  · rcases settles.exhausted_or_rise with exhausted | ⟨n, -, past⟩
    · exact .inl exhausted
    · rw [flat] at past
      have latest := slow past
      simp only
      omega

end Flat

end Coverage

namespace Formula

variable {constant : Int}

theorem evaluate_flat (inRange : InRange constant) (n : Nat) :
    (LinearEquation.line 0 constant).toEquation.evaluate n = constant := by
  have value : (LinearEquation.line 0 constant).toEquation.evaluate n =
      clamp (constant + clamp (0 * (n : Int))) := rfl
  have product : clamp 0 = 0 := by decide
  rw [value, Int.zero_mul, product, Int.add_zero, clamp_eq_self inRange]

/-- The formula is accepted by every cache, whatever has been asked of it. -/
theorem exists_compile_flatText {cache : FormulaCache} (sound : cache.Sound)
    (small : constant.natAbs ≤ maxInteger) :
    ∃ id compiled,
      Compiling.runOn (compile (flatText constant)) cache = (.ok (.expression id), compiled) := by
  have linear : EquationParser.linear (flatText constant) =
      .ok (LinearEquation.line 0 constant).toEquation := by
    rw [EquationParser.linear, parse_flatText small]
  have requested := map_request sound (flatText constant)
  rw [accepted_eq_ok linear rfl] at requested
  cases outcome : (cache.request (flatText constant)).1 with
  | error error =>
      rw [outcome] at requested
      cases requested
  | ok id =>
      refine ⟨id, (cache.request (flatText constant)).2,
        runOn_compile_eq_ok.mpr (.inr ⟨?_, id, rfl, ?_⟩)⟩
      · rw [normalize_flatText]
        exact parseInteger?_flatText constant
      · rw [normalize_flatText, ← outcome]

/-- The entry for the formula holds the flat line, and its coverage keeps the
pace through every history. -/
theorem entry_of_compile_flatText {capacity : Option Nat} {history : List CacheCommand}
    {id : EntryId} {compiled : FormulaCache} (small : constant.natAbs ≤ maxInteger)
    (compile : Compiling.runOn (compile (flatText constant))
      ((FormulaCache.empty capacity).run history) = (.ok (.expression id), compiled))
    (later : List CacheCommand) :
    (compiled.run later).Sound ∧ ∃ entry, (compiled.run later).entries[id]? = some entry ∧
      entry.equation = (LinearEquation.line 0 constant).toEquation ∧
      Coverage.PacedFlat constant entry.coverage := by
  have start := FormulaCache.Sound.empty capacity
  obtain ⟨requested, equation, first, parsed, -, -, found, equation_eq⟩ :=
    entry_of_compile (start.run history) compile
  rw [normalize_flatText, parse_flatText small] at parsed
  obtain rfl := Except.ok.inj parsed
  have reached : compiled.run later = (FormulaCache.empty capacity).run
      (history ++ .request (normalize (flatText constant)) :: later) := by
    rw [FormulaCache.run, FormulaCache.run, List.foldl_append, List.foldl_cons]
    exact congrArg (fun cache => List.foldl FormulaCache.perform cache later)
      (congrArg Prod.snd requested).symm
  obtain ⟨entry, foundLater, -, same⟩ := FormulaCache.Extends.run compiled later id first found
  have flatLine := same.trans equation_eq
  have keeps : (compiled.run later).Keeps id (LinearEquation.line 0 constant).toEquation
      (Coverage.PacedFlat constant) := by
    rw [reached]
    refine FormulaCache.Keeps.run (.empty capacity) start Coverage.pacedFlat_empty _ ?_
    have inRange := inRange_of_natAbs_le small
    intro index _ coverage traces paced
    exact (paced.extendTo (evaluate_flat inRange) traces inRange index).1
  refine ⟨?_, entry, foundLater, flatLine, keeps entry foundLater flatLine⟩
  rw [reached]
  exact start.run _

/-- A bare integer, however it is spelled, leaves the cache alone and selects
what the flat formula for it selects: after every history and for every index
below the end of the range, both give the same answer.  The formula is always
accepted, and each question to its entry comes to an end by itself. -/
theorem literal_eq_flat {cache after : FormulaCache} {text : String} {position : Int}
    (small : position.natAbs ≤ maxInteger)
    (compile : Compiling.runOn (compile text) cache = (.ok (.literal position), after)) :
    after = cache ∧ ∀ capacity history, ∃ id compiled,
      Compiling.runOn (Formula.compile (flatText position))
        ((FormulaCache.empty capacity).run history) = (.ok (.expression id), compiled) ∧
      ∀ (later : List CacheCommand) (index : Nat), (index : Int) < maxInteger →
        answer (compiled.run later) (.literal position) index =
          answer (compiled.run later) (.expression id) index ∧
        ∃ before asked, (compiled.run later).entries[id]? = some before ∧
          (Cached.runOn ((expression id).matchesIndex index)
            (compiled.run later)).2.entries[id]? = some asked ∧
          Coverage.Answers before.equation.evaluate (index + 1) before.coverage
            asked.coverage := by
  have untouched : after = cache := by
    rcases runOn_compile_eq_ok.mp compile with ⟨_, _, _, same⟩ | ⟨_, _, ⟨⟩, _⟩
    exact same
  refine ⟨untouched, fun capacity history => ?_⟩
  have inRange := inRange_of_natAbs_le small
  have flat := evaluate_flat inRange
  have sound := (FormulaCache.Sound.empty capacity).run history
  obtain ⟨id, compiled, compiles⟩ := exists_compile_flatText sound small
  refine ⟨id, compiled, compiles, fun later index below => ?_⟩
  obtain ⟨laterSound, entry, found, flatLine, paced⟩ :=
    entry_of_compile_flatText small compiles later
  have reach : (index : Int) + 1 ≤ maxInteger := below
  rw [answer, answer, runOn_matchesIndex_of_le reach]
  constructor
  · have selects := laterSound.contains_iff id (index + 1)
    simp only [FormulaCache.Selects, found, Option.some.injEq, exists_eq_left',
      FormulaEntry.Selects, flatLine, flat] at selects
    rw [Bool.eq_iff_iff, selects]
    have compared : (Cached.runOn ((literal position).matchesIndex index)
        (compiled.run later)).1 = true ↔ position = index + 1 := beq_iff_eq
    rw [compared]
    constructor
    · intro same
      exact ⟨by omega, 0, by decide, same⟩
    · rintro ⟨-, -, -, same⟩
      exact same
  · have traces := (laterSound.entries id entry found).knows.toTraces
    rw [flatLine] at traces
    refine ⟨entry, entry.ask (index + 1), found, ?_, ?_⟩
    · rw [FormulaCache.entries_contains, if_pos rfl, found, Option.map_some]
    · rw [FormulaEntry.ask, flatLine]
      exact (paced.extendTo flat traces inRange (index + 1)).2

/-- A number with a sign and leading zeros, and its formula when lower and
higher positions have been asked for. -/
theorem literal_eq_flat_of_padded_text :
    Compiling.runOn (compile " +0012 ") (FormulaCache.empty none) =
        (.ok (.literal 12), FormulaCache.empty none) ∧
      ∃ id compiled, Compiling.runOn (Formula.compile "0n+12")
          ((FormulaCache.empty (some 1)).run [.request "2n"]) = (.ok (.expression id), compiled) ∧
        answer (compiled.run [.contains id 3, .contains id 40]) (.expression id) 11 = true := by
  have compiles : Compiling.runOn (compile " +0012 ") (FormulaCache.empty none) =
      (.ok (.literal 12), FormulaCache.empty none) := rfl
  have written : flatText 12 = "0n+12" := by decide
  obtain ⟨-, agree⟩ := literal_eq_flat (by decide) compiles
  obtain ⟨id, compiled, compilesFlat, answers⟩ := agree (some 1) [.request "2n"]
  rw [written] at compilesFlat
  refine ⟨compiles, id, compiled, compilesFlat, ?_⟩
  exact (answers [.contains id 3, .contains id 40] 11 (by decide)).1.symm

end Formula

end CssQuery
