import CssQuery.Proofs.Selector.Quoting

/-!
# Comparisons of attribute values

The six comparisons of an attribute's value are not independent.  Words,
beginnings and ends are pieces of the value, so what is found as one of them
occurs in it.  The comparison for language codes is equality or a beginning
with a hyphen behind it.  Nothing is found for the empty text, not even in an
empty value.

Classes and identifiers have marks of their own, and mean the comparisons with
which the attributes `class` and `id` can be asked for.
-/

namespace CssQuery

section Words

theorem words_of_isSpace {c : Char} (space : isSpace c = true) (rest : List Char) :
    words (c :: rest) = words rest := by
  rw [words, if_pos space]

/-- A word goes on up to the next space. -/
theorem words_of_not_isSpace {c : Char} (solid : isSpace c = false) (rest : List Char) :
    words (c :: rest) =
      (c :: rest.takeWhile fun c => !isSpace c) :: words (rest.dropWhile fun c => !isSpace c) := by
  induction rest generalizing c with
  | nil => simp [words, solid]
  | cons next rest ih =>
      cases space : isSpace next with
      | true =>
          rw [words]
          cases later : words (next :: rest) <;> simp [solid, space, later]
      | false =>
          rw [words, ih space]
          simp [solid, space]

theorem words_dropWhile_subset (text : List Char) :
    words (text.dropWhile fun c => !isSpace c) ⊆ words text := by
  cases text with
  | nil => exact List.Subset.refl _
  | cons c rest =>
      cases space : isSpace c with
      | true => simp [space]
      | false => simp [words_of_not_isSpace, space]

/-- A word is a piece of the text with something in it. -/
theorem of_mem_words {word text : List Char} (member : word ∈ words text) :
    word ≠ [] ∧ word <:+: text := by
  induction text with
  | nil => cases member
  | cons c rest ih =>
      cases space : isSpace c with
      | true =>
          rw [words_of_isSpace space] at member
          obtain ⟨nonempty, piece⟩ := ih member
          exact ⟨nonempty, List.infix_cons piece⟩
      | false =>
          rw [words_of_not_isSpace space] at member
          rcases List.mem_cons.mp member with rfl | later
          · have front := List.takeWhile_prefix (l := rest) fun c => !isSpace c
            exact ⟨List.cons_ne_nil _ _, ((List.prefix_cons_inj c).mpr front).isInfix⟩
          · obtain ⟨nonempty, piece⟩ := ih (words_dropWhile_subset rest later)
            exact ⟨nonempty, List.infix_cons piece⟩

end Words

namespace AttributeOperator

variable {actual given : List Char}

theorem holds_equal_iff : equal.holds actual given = true ↔ actual = given := by
  simp [holds]

theorem holds_word_iff : word.holds actual given = true ↔ given ∈ words actual := by
  simp [holds]

theorem holds_start_iff : start.holds actual given = true ↔ given ≠ [] ∧ given <+: actual := by
  simp [holds]

theorem holds_stop_iff : stop.holds actual given = true ↔ given ≠ [] ∧ given <:+ actual := by
  simp [holds]

theorem holds_substring_iff :
    substring.holds actual given = true ↔ given ≠ [] ∧ given <:+: actual := by
  simp [holds, occursIn_iff]

theorem holds_dash_iff :
    dash.holds actual given = true ↔ actual = given ∨ given ++ ['-'] <+: actual := by
  simp only [holds, Bool.and_eq_true, List.isPrefixOf_iff_prefix]
  constructor
  · rintro ⟨⟨rest, rfl⟩, next⟩
    rw [List.drop_left] at next
    cases rest with
    | nil => exact .inl given.append_nil
    | cons c rest =>
        obtain rfl : c = '-' := by simpa using next
        exact .inr ⟨rest, by simp⟩
  · rintro (rfl | ⟨rest, rfl⟩)
    · simp
    · simp [List.append_assoc]

end AttributeOperator

/-- How the answers of the comparisons with one value belong together. -/
structure ComparisonsAgree (compares : AttributeOperator → String → Prop) (value : String) :
    Prop where
  /-- The comparison for language codes is equality or a beginning with a hyphen. -/
  dash_iff : compares .dash value ↔ compares .equal value ∨ compares .start (value ++ "-")
  /-- A word occurs. -/
  word_occurs : value ≠ "" → compares .word value → compares .substring value
  /-- What is the whole value is its beginning and its end. -/
  equal_ends : value ≠ "" → compares .equal value → compares .start value ∧ compares .stop value
  /-- A beginning occurs, and so does an end. -/
  ends_occur : value ≠ "" → compares .start value ∨ compares .stop value → compares .substring value
  /-- The empty text is no piece of anything. -/
  empty_nowhere : value = "" → ¬ compares .word value ∧ ¬ compares .start value ∧ ¬ compares .stop value ∧
    ¬ compares .substring value

namespace AttributeSelector

theorem holds_compare_iff {operator : AttributeOperator} {name value : String} {element : Element} :
    (compare operator name value).holds element = true ↔
      ∃ actual, element.attribute? name = some actual ∧
        operator.holds actual.toList value.toList = true := by
  cases found : element.attribute? name <;> simp [holds, found]

/-- A comparison that entails another for every value of the attribute does so
for every element. -/
theorem holds_compare_mono {operator other : AttributeOperator} {name value given : String}
    {element : Element}
    (entails : ∀ actual : List Char, operator.holds actual value.toList = true →
      other.holds actual given.toList = true)
    (holds : (compare operator name value).holds element = true) :
    (compare other name given).holds element = true := by
  obtain ⟨actual, carries, compares⟩ := holds_compare_iff.mp holds
  exact holds_compare_iff.mpr ⟨actual, carries, entails _ compares⟩

theorem comparisonsAgree (element : Element) (name value : String) :
    ComparisonsAgree (fun operator value => (compare operator name value).holds element = true)
      value where
  dash_iff := by
    simp only [holds_compare_iff, AttributeOperator.holds_dash_iff,
      AttributeOperator.holds_equal_iff, AttributeOperator.holds_start_iff, ← exists_or, ← and_or_left]
    simp
  word_occurs _ := holds_compare_mono fun actual isWord => by
    obtain ⟨nonempty, piece⟩ := of_mem_words (AttributeOperator.holds_word_iff.mp isWord)
    exact AttributeOperator.holds_substring_iff.mpr ⟨nonempty, piece⟩
  equal_ends nonempty holds := by
    have solid : value.toList ≠ [] := by simpa using nonempty
    refine ⟨holds_compare_mono ?_ holds, holds_compare_mono ?_ holds⟩
    · rintro actual whole
      rw [AttributeOperator.holds_equal_iff.mp whole]
      exact AttributeOperator.holds_start_iff.mpr ⟨solid, List.prefix_refl _⟩
    · rintro actual whole
      rw [AttributeOperator.holds_equal_iff.mp whole]
      exact AttributeOperator.holds_stop_iff.mpr ⟨solid, List.suffix_refl _⟩
  ends_occur _ := by
    rintro (starts | stops)
    · refine holds_compare_mono (fun actual isStart => ?_) starts
      obtain ⟨nonempty, front⟩ := AttributeOperator.holds_start_iff.mp isStart
      exact AttributeOperator.holds_substring_iff.mpr ⟨nonempty, front.isInfix⟩
    · refine holds_compare_mono (fun actual isEnd => ?_) stops
      obtain ⟨nonempty, back⟩ := AttributeOperator.holds_stop_iff.mp isEnd
      exact AttributeOperator.holds_substring_iff.mpr ⟨nonempty, back.isInfix⟩
  empty_nowhere isEmpty := by
    subst isEmpty
    have notWord : ∀ actual : List Char, [] ∉ words actual := fun actual member =>
      (of_mem_words member).1 rfl
    simp [holds_compare_iff, AttributeOperator.holds_word_iff, AttributeOperator.holds_start_iff,
      AttributeOperator.holds_stop_iff, AttributeOperator.holds_substring_iff, notWord]

end AttributeSelector

namespace SimpleSelector

variable (element : Element) (word : String)

theorem holdsPlainly_hasClass :
    (hasClass word).holdsPlainly element =
      (hasAttribute (.compare .word "class" word)).holdsPlainly element := by
  have split : ∀ text : List Char, ((words text).map String.ofList).contains word =
      (words text).contains word.toList := by
    intro text
    rw [Bool.eq_iff_iff, List.contains_iff_mem, List.contains_iff_mem, List.mem_map]
    constructor
    · rintro ⟨found, member, rfl⟩
      rwa [String.toList_ofList]
    · exact fun member => ⟨_, member, String.ofList_toList⟩
  rw [holdsPlainly, holdsPlainly, Element.classNames, AttributeSelector.holds, split]
  cases element.attribute? "class" <;> rfl

theorem holdsPlainly_hasId :
    (hasId word).holdsPlainly element =
      (hasAttribute (.compare .equal "id" word)).holdsPlainly element := by
  rw [Bool.eq_iff_iff, holdsPlainly, holdsPlainly, AttributeSelector.holds_compare_iff,
    Element.identifier?]
  simp [AttributeOperator.holds_equal_iff, String.toList_inj]

end SimpleSelector

end CssQuery
