import CssQuery.Text.LetterCase
import Mathlib.Data.List.Infix

/-!
# Lowercasing a piece of a text

A piece of a text is lowercased in the same way wherever it stands, unless it
contains `Σ`: its lowercase form depends on the nearest characters on both
sides that are not ignorable.  Where the piece itself settles them, the text
around it has no say.  Where it does not, a single letter put at one end of the
piece changes the form.
-/

namespace CssQuery

/-- Lowercases a piece of a text between the reverse of `before` and `after`. -/
def lowercaseBetween (before : List Char) : List Char → (after : List Char) → List Char
  | [], _ => []
  | c :: rest, after =>
      (if c = 'Σ' then [lowercaseSigma before (rest ++ after)] else lowercaseChar c)
        ++ lowercaseBetween (c :: before) rest after

/-- A character of the list is not ignorable. -/
def Decides (list : List Char) : Prop :=
  ∃ c ∈ list, isCaseIgnorable c = false

/-- The characters around a `Σ`, those before it in reverse, settle its
lowercase form, whatever comes before and behind them. -/
def SigmaSettled (before after : List Char) : Prop :=
  meetsCased after = true ∨
    Decides before ∧ (meetsCased before = false ∨ Decides after)

/-- The lowercase form of every `Σ` is settled within the text. -/
def SigmasSettled (text : List Char) : Prop :=
  ∀ before after, text = before ++ 'Σ' :: after → SigmaSettled before.reverse after

theorem lowercaseAfter_append (before text after : List Char) :
    lowercaseAfter before (text ++ after) =
      lowercaseBetween before text after ++ lowercaseAfter (text.reverse ++ before) after := by
  induction text generalizing before with
  | nil => rfl
  | cons c rest ih =>
      simp [lowercaseAfter, lowercaseBetween, ih, List.append_assoc]

theorem lowercaseBetween_nil (before text : List Char) :
    lowercaseBetween before text [] = lowercaseAfter before text := by
  have split := lowercaseAfter_append before text []
  simpa [lowercaseAfter] using split.symm

theorem lowercaseBetween_append (before first second after : List Char) :
    lowercaseBetween before (first ++ second) after =
      lowercaseBetween before first (second ++ after) ++
        lowercaseBetween (first.reverse ++ before) second after := by
  induction first generalizing before with
  | nil => rfl
  | cons c rest ih =>
      simp [lowercaseBetween, ih, List.append_assoc]

theorem meetsCased_cons (c : Char) (rest : List Char) :
    meetsCased (c :: rest) = if isCaseIgnorable c then meetsCased rest else isCased c := by
  cases ignorable : isCaseIgnorable c <;> simp [meetsCased, ignorable]

theorem decides_cons {c : Char} {rest : List Char} :
    Decides (c :: rest) ↔ isCaseIgnorable c = false ∨ Decides rest := by
  simp [Decides]

theorem decides_of_meetsCased {list : List Char} (meets : meetsCased list = true) :
    Decides list := by
  induction list with
  | nil => cases meets
  | cons c rest ih =>
      rw [meetsCased_cons] at meets
      rw [decides_cons]
      cases ignorable : isCaseIgnorable c with
      | false => exact .inl rfl
      | true => exact .inr (ih (by simpa [ignorable] using meets))

theorem meetsCased_eq_false {list : List Char} (undecided : ¬ Decides list) :
    meetsCased list = false := by
  rw [Bool.eq_false_iff]
  exact fun meets => undecided (decides_of_meetsCased meets)

theorem meetsCased_append {list : List Char} (decides : Decides list) (more : List Char) :
    meetsCased (list ++ more) = meetsCased list := by
  induction list with
  | nil => simp [Decides] at decides
  | cons c rest ih =>
      rw [List.cons_append, meetsCased_cons, meetsCased_cons]
      cases ignorable : isCaseIgnorable c with
      | false => rfl
      | true =>
          rw [decides_cons] at decides
          simpa [ignorable] using ih (decides.resolve_left (by simp [ignorable]))

theorem meetsCased_append_of_not {list : List Char} (undecided : ¬ Decides list)
    (more : List Char) : meetsCased (list ++ more) = meetsCased more := by
  induction list with
  | nil => rfl
  | cons c rest ih =>
      rw [decides_cons, not_or, Bool.not_eq_false] at undecided
      rw [List.cons_append, meetsCased_cons, if_pos undecided.1, ih undecided.2]

/-- A settled `Σ` has one lowercase form in every text. -/
theorem SigmaSettled.lowercaseSigma_append {before after : List Char}
    (settled : SigmaSettled before after) (outerBefore outerAfter : List Char) :
    lowercaseSigma (before ++ outerBefore) (after ++ outerAfter) =
      lowercaseSigma before after := by
  unfold lowercaseSigma
  rcases settled with meets | ⟨decidesBefore, notBefore | decidesAfter⟩
  · rw [meetsCased_append (decides_of_meetsCased meets), meets]
    simp
  · rw [meetsCased_append decidesBefore, notBefore]
    simp
  · rw [meetsCased_append decidesBefore, meetsCased_append decidesAfter]

/-- A text whose sigmas are settled is lowercased in every text as it is alone. -/
theorem SigmasSettled.lowercaseBetween_eq {text : List Char} (settled : SigmasSettled text)
    (before after : List Char) : lowercaseBetween before text after = lowercase text := by
  suffices lowered : ∀ done rest, text = done.reverse ++ rest →
      lowercaseBetween (done ++ before) rest after = lowercaseAfter done rest from
    lowered [] text rfl
  intro done rest split
  induction rest generalizing done with
  | nil => rfl
  | cons c rest ih =>
      have later := ih (c :: done) (by simp [split])
      rw [lowercaseBetween, lowercaseAfter, ← later, List.cons_append]
      split_ifs with sigma
      · subst sigma
        have here := settled done.reverse rest split
        rw [List.reverse_reverse] at here
        rw [here.lowercaseSigma_append]
      · rfl

/-- If every `Σ` that takes a form in one surrounding takes it in another, the
form occurs there at least as often. -/
theorem count_lowercaseBetween_le (form : Char) (text before after : List Char)
    (outerBefore outerAfter : List Char)
    (keeps : ∀ done rest, text = done ++ 'Σ' :: rest →
      lowercaseSigma (done.reverse ++ outerBefore) (rest ++ outerAfter) = form →
        lowercaseSigma (done.reverse ++ before) (rest ++ after) = form) :
    (lowercaseBetween outerBefore text outerAfter).count form ≤
      (lowercaseBetween before text after).count form := by
  induction text generalizing before outerBefore with
  | nil => exact Nat.le_refl _
  | cons c rest ih =>
      have later := ih (c :: before) (c :: outerBefore)
        fun done tail split => by
          simpa using keeps (c :: done) tail (by rw [split]; rfl)
      rw [lowercaseBetween, lowercaseBetween, List.count_append, List.count_append]
      refine Nat.add_le_add ?_ later
      split_ifs with sigma
      · have here := keeps [] rest (by rw [sigma]; rfl)
        simp only [List.reverse_nil, List.nil_append] at here
        rw [List.count_singleton, List.count_singleton]
        grind
      · exact Nat.le_refl _

theorem count_lowercaseBetween_lt (form : Char) (done rest : List Char)
    (before after outerBefore outerAfter : List Char)
    (keeps : ∀ earlier later, done ++ 'Σ' :: rest = earlier ++ 'Σ' :: later →
      lowercaseSigma (earlier.reverse ++ outerBefore) (later ++ outerAfter) = form →
        lowercaseSigma (earlier.reverse ++ before) (later ++ after) = form)
    (gains : lowercaseSigma (done.reverse ++ before) (rest ++ after) = form)
    (loses : lowercaseSigma (done.reverse ++ outerBefore) (rest ++ outerAfter) ≠ form) :
    (lowercaseBetween outerBefore (done ++ 'Σ' :: rest) outerAfter).count form <
      (lowercaseBetween before (done ++ 'Σ' :: rest) after).count form := by
  have first : (lowercaseBetween outerBefore done ('Σ' :: rest ++ outerAfter)).count form ≤
      (lowercaseBetween before done ('Σ' :: rest ++ after)).count form :=
    count_lowercaseBetween_le _ _ _ _ _ _ fun earlier later split => by
      simpa using keeps earlier (later ++ 'Σ' :: rest) (by simp [split])
  have last : (lowercaseBetween ('Σ' :: (done.reverse ++ outerBefore)) rest
        outerAfter).count form ≤
      (lowercaseBetween ('Σ' :: (done.reverse ++ before)) rest after).count form :=
    count_lowercaseBetween_le _ _ _ _ _ _ fun earlier later split => by
      simpa using keeps (done ++ 'Σ' :: earlier) later (by simp [split])
  rw [lowercaseBetween_append, lowercaseBetween_append, lowercaseBetween, lowercaseBetween,
    if_pos rfl, if_pos rfl]
  simp only [List.count_append, List.count_singleton, gains, beq_self_eq_true, if_true,
    beq_iff_eq, if_neg loses]
  omega

/-- A letter with case that is not ignorable. -/
theorem meetsCased_letter (more : List Char) : meetsCased ('A' :: more) = true := by
  have ignorable : isCaseIgnorable 'A' = false := by decide +kernel
  have cased : isCased 'A' = true := by decide +kernel
  simp [meetsCased_cons, ignorable, cased]

theorem lowercaseAfter_letter (before rest : List Char) :
    lowercaseAfter before ('A' :: rest) = 'a' :: lowercaseAfter ('A' :: before) rest := by
  have lowered : lowercaseChar 'A' = ['a'] := by decide +kernel
  rw [lowercaseAfter, lowered]
  rfl

theorem not_infix_of_count_lt (form : Char) {list text : List Char}
    (fewer : text.count form < list.count form) : ¬ list <:+: text := fun occurs =>
  Nat.not_le.mpr fewer (occurs.sublist.count_le form)

/-- A letter behind a text shows that its last word goes on. -/
theorem lowercase_not_infix_of_letter_behind {done rest : List Char}
    (meetsBefore : meetsCased done.reverse = true) (undecided : ¬ Decides rest) :
    ¬ lowercase (done ++ 'Σ' :: rest) <:+: lowercase (done ++ 'Σ' :: rest ++ ['A']) := by
  have alone : lowercaseSigma (done.reverse ++ []) (rest ++ []) = 'ς' := by
    simp [lowercaseSigma, meetsBefore, meetsCased_eq_false undecided]
  have inside : lowercaseSigma (done.reverse ++ []) (rest ++ ['A']) ≠ 'ς' := by
    simp [lowercaseSigma, meetsCased_append_of_not undecided, meetsCased_letter]
  have keeps : ∀ earlier later, done ++ 'Σ' :: rest = earlier ++ 'Σ' :: later →
      lowercaseSigma (earlier.reverse ++ []) (later ++ ['A']) = 'ς' →
        lowercaseSigma (earlier.reverse ++ []) (later ++ []) = 'ς' := by
    intro earlier later _
    by_cases decides : Decides later
    · simp [lowercaseSigma, meetsCased_append decides]
    · simp [lowercaseSigma, meetsCased_append_of_not decides, meetsCased_letter]
  have fewer := count_lowercaseBetween_lt 'ς' done rest [] [] [] ['A'] keeps alone inside
  apply not_infix_of_count_lt 'ς'
  rw [lowercase, lowercaseAfter_append, lowercaseAfter_letter, lowercase,
    ← lowercaseBetween_nil [] (done ++ 'Σ' :: rest)]
  simpa [lowercaseAfter] using fewer

/-- A letter before a text shows that its first word has begun. -/
theorem lowercase_not_infix_of_letter_before {done rest : List Char}
    (undecided : ¬ Decides done.reverse) (notAfter : meetsCased rest = false) :
    ¬ lowercase (done ++ 'Σ' :: rest) <:+: lowercase ('A' :: (done ++ 'Σ' :: rest)) := by
  have alone : lowercaseSigma (done.reverse ++ []) (rest ++ []) = 'σ' := by
    simp [lowercaseSigma, meetsCased_eq_false undecided]
  have inside : lowercaseSigma (done.reverse ++ ['A']) (rest ++ []) ≠ 'σ' := by
    simp [lowercaseSigma, meetsCased_append_of_not undecided, meetsCased_letter, notAfter]
  have keeps : ∀ earlier later, done ++ 'Σ' :: rest = earlier ++ 'Σ' :: later →
      lowercaseSigma (earlier.reverse ++ ['A']) (later ++ []) = 'σ' →
        lowercaseSigma (earlier.reverse ++ []) (later ++ []) = 'σ' := by
    intro earlier later _
    by_cases decides : Decides earlier.reverse
    · simp [lowercaseSigma, meetsCased_append decides]
    · simp [lowercaseSigma, meetsCased_eq_false decides]
  have fewer := count_lowercaseBetween_lt 'σ' done rest [] [] ['A'] [] keeps alone inside
  apply not_infix_of_count_lt 'σ'
  rw [lowercase, lowercaseAfter_letter, lowercase, ← lowercaseBetween_nil,
    ← lowercaseBetween_nil]
  simpa using fewer

/-- If some `Σ` of a text is not settled, a letter at one end of the text makes
its lowercase form disappear. -/
theorem exists_lowercase_not_infix {text : List Char} (unsettled : ¬ SigmasSettled text) :
    ∃ content, text <:+: content ∧ ¬ lowercase text <:+: lowercase content := by
  simp only [SigmasSettled, not_forall] at unsettled
  obtain ⟨done, rest, rfl, unsettled⟩ := unsettled
  simp only [SigmaSettled, not_or, not_and, Bool.not_eq_true, Bool.not_eq_false] at unsettled
  obtain ⟨notAfter, undecided⟩ := unsettled
  by_cases decides : Decides done.reverse
  · obtain ⟨meetsBefore, undecidedAfter⟩ := undecided decides
    exact ⟨_, ⟨[], ['A'], rfl⟩,
      lowercase_not_infix_of_letter_behind meetsBefore undecidedAfter⟩
  · exact ⟨_, ⟨['A'], [], by simp⟩, lowercase_not_infix_of_letter_before decides notAfter⟩

end CssQuery
