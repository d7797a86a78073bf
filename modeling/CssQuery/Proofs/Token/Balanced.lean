import CssQuery.Proofs.Token.Spans

/-!
# Balanced texts

Inside a bracketed span, brackets of the same kind must come in pairs; other
characters stand for themselves, and quotes hide what is between them.  A text
made of such pieces changes neither the number of open brackets nor the quote
that is open, so a scan for the closing bracket goes straight over it.
-/

namespace CssQuery

/-- The bounds are two different characters and none of them is a quote. -/
structure Bounds.AreBrackets (bounds : Bounds) : Prop where
  differ : bounds.opening ≠ bounds.closing
  opening_plain : isQuote bounds.opening = false
  closing_plain : isQuote bounds.closing = false

/-- What may stand between two brackets without closing them. -/
inductive Balanced (bounds : Bounds) : List Char → Prop
  | nil : Balanced bounds []
  | append {front back : List Char} (first : Balanced bounds front)
      (second : Balanced bounds back) : Balanced bounds (front ++ back)
  | plain {c : Char} (notOpening : c ≠ bounds.opening) (notClosing : c ≠ bounds.closing)
      (notQuote : isQuote c = false) : Balanced bounds [c]
  | quoted {quote : Char} (isQuote : isQuote quote = true) {value : List Char}
      (inert : quote ∉ value) : Balanced bounds (quote :: value ++ [quote])
  | nested {inner : List Char} (balanced : Balanced bounds inner) :
      Balanced bounds (bounds.opening :: inner ++ [bounds.closing])

variable {bounds : Bounds}

theorem Bounds.Exposes.append {honourQuotes : Bool} {front back exposedFront exposedBack : List Char}
    (first : bounds.Exposes honourQuotes front exposedFront)
    (second : bounds.Exposes honourQuotes back exposedBack) :
    bounds.Exposes honourQuotes (front ++ back) (exposedFront ++ exposedBack) := by
  induction first with
  | nil => exact second
  | plain counts _ ih => exact .plain counts ih
  | quoted quotes inert _ ih =>
      rw [List.append_assoc]
      exact .quoted quotes inert ih

theorem Bounds.isInnerQuote_of_isQuote (brackets : bounds.AreBrackets) {quote : Char}
    (quotes : isQuote quote = true) : bounds.isInnerQuote true quote = true := by
  have differs : ∀ mark, isQuote mark = false → (quote != mark) = true := by
    intro mark plain
    rw [bne_iff_ne]
    rintro rfl
    rw [plain] at quotes
    cases quotes
  rw [isInnerQuote, quotes, differs _ brackets.opening_plain, differs _ brackets.closing_plain]
  rfl

theorem Bounds.isInnerQuote_of_not_isQuote {honourQuotes : Bool} {c : Char}
    (plain : isQuote c = false) : bounds.isInnerQuote honourQuotes c = false := by
  rw [isInnerQuote, plain, Bool.and_false, Bool.false_and, Bool.false_and]

/-- Whatever pairs are open before a balanced text are open behind it. -/
theorem Balanced.exposes (brackets : bounds.AreBrackets) {text : List Char}
    (balanced : Balanced bounds text) :
    ∃ exposed, bounds.Exposes true text exposed ∧
      ∀ depth rest, bounds.ClosesPairs depth (exposed ++ rest) ↔ bounds.ClosesPairs depth rest := by
  induction balanced with
  | nil => exact ⟨[], .nil, fun _ _ => Iff.rfl⟩
  | append _ _ ihFront ihBack =>
      obtain ⟨exposedFront, front, passesFront⟩ := ihFront
      obtain ⟨exposedBack, back, passesBack⟩ := ihBack
      refine ⟨_, front.append back, fun depth rest => ?_⟩
      rw [List.append_assoc, passesFront, passesBack]
  | @plain c notOpening notClosing notQuote =>
      refine ⟨[c], .plain (Bounds.isInnerQuote_of_not_isQuote notQuote) .nil, fun depth rest => ?_⟩
      rw [List.singleton_append, Bounds.closesPairs_of_ne notClosing, if_neg notOpening]
  | quoted isQuote inert =>
      exact ⟨[], .quoted (Bounds.isInnerQuote_of_isQuote brackets isQuote) inert .nil,
        fun _ _ => Iff.rfl⟩
  | @nested inner _ ih =>
      -- one more pair is open inside, and no more behind it
      obtain ⟨exposed, exposes, passes⟩ := ih
      have closing : bounds.Exposes true [bounds.closing] [bounds.closing] :=
        .plain (Bounds.isInnerQuote_of_not_isQuote brackets.closing_plain) .nil
      refine ⟨_, .plain (Bounds.isInnerQuote_of_not_isQuote brackets.opening_plain)
        (exposes.append closing), fun depth rest => ?_⟩
      rw [List.cons_append, List.append_assoc, Bounds.closesPairs_of_ne brackets.differ,
        if_pos rfl, passes, List.singleton_append, Bounds.closesPairs_closing]
      simp

/-- The character is neither a bound nor a quote. -/
def Bounds.leavesPlain (bounds : Bounds) (c : Char) : Bool :=
  c != bounds.opening && c != bounds.closing && !isQuote c

theorem Balanced.of_all_plain {text : List Char} (plain : text.all bounds.leavesPlain = true) :
    Balanced bounds text := by
  induction text with
  | nil => exact .nil
  | cons c text ih =>
      rw [List.all_cons, Bool.and_eq_true] at plain
      obtain ⟨here, later⟩ := plain
      simp only [Bounds.leavesPlain, Bool.and_eq_true, bne_iff_ne, Bool.not_eq_true'] at here
      obtain ⟨⟨notOpening, notClosing⟩, notQuote⟩ := here
      exact .append (.plain notOpening notClosing notQuote) (ih later)

/-- A balanced text is cut out whole from between its brackets. -/
theorem Balanced.isSpan (brackets : bounds.AreBrackets) {text : List Char}
    (balanced : Balanced bounds text) : IsSpan bounds text := by
  obtain ⟨exposed, exposes, passes⟩ := balanced.exposes brackets
  have closes : bounds.ClosesPairs 0 exposed := by
    rw [← exposed.append_nil, passes]
    rfl
  have encloses : bounds.Encloses true text :=
    ⟨exposed, exposes, Bounds.closesPairs_zero_iff.mp closes⟩
  exact Recogniser.boundedBy_eq_some_iff.mpr ⟨text, [], encloses, rfl, rfl⟩

end CssQuery
