import CssQuery.Proofs.Token.Locality

/-!
# Where a bounded span ends

A span ends where its bounds balance.  Which characters count for this is a
matter of the quotes: if they are honoured, everything from a quote that is no
bound to the next quote of the same kind is skipped.  Among the characters that
are left no closing bound may come before the opening one that it answers, and
none may be left open.  Bounds that are the same character cannot be nested, so
that character must not be among them at all.

A scan keeps the number of open pairs and the open quote, and nothing else.  It
takes a span exactly where a balanced content stands between the bounds; the
content is therefore settled by the text, and does not depend on what follows.
-/

namespace CssQuery

namespace Bounds

/-- The pairs among which a pattern chooses its bounds: the pair given, or all
recognised ones. -/
def Offered : Option Bounds → Bounds → Prop
  | some given, bounds => bounds = given
  | none, bounds => bounds ∈ all

/-- The character begins a part of a content that is skipped. -/
def isInnerQuote (bounds : Bounds) (honourQuotes : Bool) (c : Char) : Bool :=
  honourQuotes && isQuote c && c != bounds.opening && c != bounds.closing

/-- A content with what is left of it when everything from an inner quote to
its next repeat is skipped.  No quote is left open. -/
inductive Exposes (bounds : Bounds) (honourQuotes : Bool) : List Char → List Char → Prop
  | nil : Exposes bounds honourQuotes [] []
  | plain {c : Char} {content exposed : List Char}
      (counts : bounds.isInnerQuote honourQuotes c = false)
      (later : Exposes bounds honourQuotes content exposed) :
      Exposes bounds honourQuotes (c :: content) (c :: exposed)
  | quoted {quote : Char} {hidden content exposed : List Char}
      (quotes : bounds.isInnerQuote honourQuotes quote = true) (inert : quote ∉ hidden)
      (later : Exposes bounds honourQuotes content exposed) :
      Exposes bounds honourQuotes (quote :: hidden ++ quote :: content) exposed

/-- The bounds balance in a text of which nothing is skipped. -/
def BalanceIn (bounds : Bounds) (text : List Char) : Prop :=
  if bounds.opening = bounds.closing then bounds.opening ∉ text
  else
    (∀ front, front <+: text → front.count bounds.closing ≤ front.count bounds.opening) ∧
      text.count bounds.closing = text.count bounds.opening

/-- The content of a span: its bounds balance outside the quotes. -/
def Encloses (bounds : Bounds) (honourQuotes : Bool) (content : List Char) : Prop :=
  ∃ exposed, bounds.Exposes honourQuotes content exposed ∧ bounds.BalanceIn exposed

variable {bounds : Bounds}

theorem closer?_eq_some_iff {opening closing : Char} :
    closer? opening = some closing ↔ ⟨opening, closing⟩ ∈ all := by
  constructor
  · intro closes
    obtain ⟨⟨first, second⟩, found, rfl⟩ := Option.map_eq_some_iff.mp closes
    obtain rfl : first = opening := by simpa using List.find?_some found
    exact List.mem_of_find?_eq_some found
  · -- no character opens two of the pairs
    have answered : ∀ bounds ∈ all, closer? bounds.opening = some bounds.closing := by decide
    exact answered ⟨opening, closing⟩

theorem ne_of_isInnerQuote {honourQuotes : Bool} {c : Char}
    (quotes : bounds.isInnerQuote honourQuotes c = true) :
    c ≠ bounds.opening ∧ c ≠ bounds.closing := by
  simp only [isInnerQuote, Bool.and_eq_true, bne_iff_ne] at quotes
  exact ⟨quotes.1.2, quotes.2⟩

section Counting

/-- In a text before which `depth` pairs are open every closing bound ends one
of the open pairs, and none is open at the end. -/
def ClosesPairs (bounds : Bounds) : (depth : Nat) → List Char → Prop
  | depth, [] => depth = 0
  | depth, c :: rest =>
      if c = bounds.closing then 0 < depth ∧ bounds.ClosesPairs (depth - 1) rest
      else bounds.ClosesPairs (if c = bounds.opening then depth + 1 else depth) rest

theorem closesPairs_closing {depth : Nat} {text : List Char} :
    bounds.ClosesPairs depth (bounds.closing :: text) ↔
      0 < depth ∧ bounds.ClosesPairs (depth - 1) text := by
  rw [ClosesPairs, if_pos rfl]

theorem closesPairs_of_ne {c : Char} (inside : c ≠ bounds.closing) {depth : Nat}
    {text : List Char} :
    bounds.ClosesPairs depth (c :: text) ↔
      bounds.ClosesPairs (if c = bounds.opening then depth + 1 else depth) text := by
  rw [ClosesPairs, if_neg inside]

theorem forall_prefix_cons {c : Char} {text : List Char} {holds : List Char → Prop} :
    (∀ front, front <+: c :: text → holds front) ↔
      holds [] ∧ ∀ front, front <+: text → holds (c :: front) := by
  constructor
  · intro every
    exact ⟨every [] List.nil_prefix,
      fun front isFront => every _ (List.cons_prefix_cons.mpr ⟨rfl, isFront⟩)⟩
  · rintro ⟨empty, longer⟩ front isFront
    rcases List.prefix_cons_iff.mp isFront with rfl | ⟨rest, rfl, isRest⟩
    · exact empty
    · exact longer rest isRest

/-- Pairs of two characters are all closed when no beginning of the text has
more closing than opening bounds, and the whole has as many. -/
theorem closesPairs_iff_counts (differ : bounds.opening ≠ bounds.closing) {depth : Nat}
    {text : List Char} :
    bounds.ClosesPairs depth text ↔
      (∀ front, front <+: text →
        front.count bounds.closing ≤ depth + front.count bounds.opening) ∧
      text.count bounds.closing = depth + text.count bounds.opening := by
  induction text generalizing depth with
  | nil => simp [ClosesPairs, eq_comm]
  | cons c text ih =>
      rw [forall_prefix_cons]
      by_cases closes : c = bounds.closing
      · subst closes
        have other : bounds.closing ≠ bounds.opening := Ne.symm differ
        simp only [closesPairs_closing, ih, List.count_cons_self, List.count_cons_of_ne other,
          List.count_nil]
        constructor
        · rintro ⟨positive, fronts, whole⟩
          refine ⟨⟨Nat.zero_le _, fun front isFront => ?_⟩, by omega⟩
          have shorter := fronts front isFront
          omega
        · rintro ⟨⟨-, fronts⟩, whole⟩
          have positive : 0 < depth := by
            have first := fronts [] List.nil_prefix
            simp only [List.count_nil] at first
            omega
          refine ⟨positive, fun front isFront => ?_, by omega⟩
          have longer := fronts front isFront
          omega
      · rw [closesPairs_of_ne closes, ih]
        by_cases opens : c = bounds.opening
        · subst opens
          simp only [if_pos, List.count_cons_self, List.count_cons_of_ne closes, List.count_nil,
            Nat.add_assoc, Nat.add_comm 1]
          simp
        · simp only [if_neg opens, List.count_cons_of_ne closes, List.count_cons_of_ne opens,
            List.count_nil]
          simp

/-- Where both bounds are one character, nothing opens a pair. -/
theorem closesPairs_iff_not_mem (same : bounds.opening = bounds.closing) {text : List Char} :
    bounds.ClosesPairs 0 text ↔ bounds.opening ∉ text := by
  induction text with
  | nil => simp [ClosesPairs]
  | cons c text ih =>
      by_cases closes : c = bounds.closing
      · subst closes
        simp [closesPairs_closing, same]
      · have opens : c ≠ bounds.opening := same ▸ closes
        rw [closesPairs_of_ne closes, if_neg opens, ih, List.mem_cons, not_or]
        exact ⟨fun absent => ⟨Ne.symm opens, absent⟩, And.right⟩

theorem closesPairs_zero_iff {text : List Char} :
    bounds.ClosesPairs 0 text ↔ bounds.BalanceIn text := by
  rw [BalanceIn]
  split
  case isTrue same => exact closesPairs_iff_not_mem same
  case isFalse differ =>
    rw [closesPairs_iff_counts differ]
    simp only [Nat.zero_add]

end Counting

end Bounds

namespace Recogniser

variable {bounds : Bounds} {honourQuotes : Bool}

/-- The quote that is open behind a character outside quotes. -/
theorem splitAtClosing_of_inside {c : Char} (inside : c ≠ bounds.closing) (depth : Nat)
    (text : List Char) :
    splitAtClosing bounds honourQuotes depth none (c :: text) =
      (splitAtClosing bounds honourQuotes (if c = bounds.opening then depth + 1 else depth)
        (if bounds.isInnerQuote honourQuotes c then some c else none) text).map
          fun split => (c :: split.1, split.2) := by
  rw [splitAtClosing_of_ne inside]
  simp only [Bounds.isInnerQuote, Bool.and_eq_true, bne_iff_ne, ne_eq, inside,
    not_false_eq_true, and_true]
  simp only [and_comm]

/-- Inside a quote the scan goes on to the next repeat of the quote. -/
theorem splitAtClosing_quoted {quote : Char} {hidden : List Char} (inert : quote ∉ hidden)
    (depth : Nat) (text : List Char) :
    splitAtClosing bounds honourQuotes depth (some quote) (hidden ++ quote :: text) =
      (splitAtClosing bounds honourQuotes depth none text).map
        fun split => (hidden ++ quote :: split.1, split.2) := by
  induction hidden with
  | nil =>
      rw [List.nil_append, splitAtClosing, if_pos rfl]
      rfl
  | cons c hidden ih =>
      have differs : c ≠ quote := Ne.symm (List.ne_of_not_mem_cons inert)
      rw [List.cons_append, splitAtClosing, if_neg differs,
        ih (List.not_mem_of_not_mem_cons inert), Option.map_map]
      rfl

/-- A balanced content is passed over whole. -/
theorem splitAtClosing_of_exposes {content exposed : List Char}
    (exposes : bounds.Exposes honourQuotes content exposed) {depth : Nat}
    (closes : bounds.ClosesPairs depth exposed) (rest : List Char) :
    splitAtClosing bounds honourQuotes depth none (content ++ bounds.closing :: rest) =
      some (content, rest) := by
  induction exposes generalizing depth with
  | nil =>
      obtain rfl : depth = 0 := closes
      rw [List.nil_append, splitAtClosing, if_pos rfl]
  | @plain c content exposed counts later ih =>
      rw [List.cons_append]
      by_cases closing : c = bounds.closing
      · subst closing
        obtain ⟨positive, closes⟩ := Bounds.closesPairs_closing.mp closes
        obtain ⟨outer, rfl⟩ := Nat.exists_eq_succ_of_ne_zero (Nat.ne_of_gt positive)
        have passed : splitAtClosing bounds honourQuotes outer none
            (content ++ bounds.closing :: rest) = some (content, rest) := ih closes
        rw [splitAtClosing, if_pos rfl, passed]
        rfl
      · rw [Bounds.closesPairs_of_ne closing] at closes
        rw [splitAtClosing_of_inside closing, counts, if_neg Bool.false_ne_true, ih closes]
        rfl
  | @quoted quote hidden content exposed quotes inert later ih =>
      obtain ⟨notOpening, notClosing⟩ := Bounds.ne_of_isInnerQuote quotes
      rw [List.cons_append, List.cons_append, List.append_assoc, List.cons_append,
        splitAtClosing_of_inside notClosing, if_neg notOpening, if_pos quotes,
        splitAtClosing_quoted inert, ih closes]
      rfl

/-- What is left of a content of which the beginning stands inside a quote. -/
def ExposesFrom (bounds : Bounds) (honourQuotes : Bool) :
    Option Char → List Char → List Char → Prop
  | none, content, exposed => bounds.Exposes honourQuotes content exposed
  | some quote, content, exposed =>
      ∃ hidden later, content = hidden ++ quote :: later ∧ quote ∉ hidden ∧
        bounds.Exposes honourQuotes later exposed

/-- The scan stops only behind a balanced content. -/
theorem exposes_of_splitAtClosing {depth : Nat} {quote : Option Char}
    {text content rest : List Char}
    (split : splitAtClosing bounds honourQuotes depth quote text = some (content, rest)) :
    ∃ exposed, ExposesFrom bounds honourQuotes quote content exposed ∧
      bounds.ClosesPairs depth exposed := by
  induction text generalizing depth quote content with
  | nil => cases split
  | cons c text ih =>
      cases quote with
      | some quote =>
          rw [splitAtClosing] at split
          obtain ⟨⟨inner, _⟩, found, same⟩ := Option.map_eq_some_iff.mp split
          cases same
          by_cases repeats : c = quote
          · subst repeats
            rw [if_pos rfl] at found
            obtain ⟨exposed, exposes, closes⟩ := ih found
            exact ⟨exposed, ⟨[], inner, rfl, List.not_mem_nil, exposes⟩, closes⟩
          · rw [if_neg repeats] at found
            obtain ⟨exposed, ⟨hidden, later, rfl, inert, exposes⟩, closes⟩ := ih found
            have absent : quote ∉ c :: hidden :=
              List.not_mem_cons_of_ne_of_not_mem (Ne.symm repeats) inert
            exact ⟨exposed, ⟨c :: hidden, later, rfl, absent, exposes⟩, closes⟩
      | none =>
          by_cases closing : c = bounds.closing
          · cases depth with
            | zero =>
                rw [splitAtClosing, if_pos closing] at split
                cases split
                exact ⟨[], .nil, rfl⟩
            | succ outer =>
                rw [splitAtClosing, if_pos closing] at split
                obtain ⟨⟨inner, _⟩, found, same⟩ := Option.map_eq_some_iff.mp split
                cases same
                obtain ⟨exposed, exposes, closes⟩ := ih found
                subst closing
                have plain : bounds.isInnerQuote honourQuotes bounds.closing = false := by
                  simp [Bounds.isInnerQuote]
                exact ⟨bounds.closing :: exposed, .plain plain exposes,
                  Bounds.closesPairs_closing.mpr ⟨Nat.succ_pos outer, closes⟩⟩
          · rw [splitAtClosing_of_inside closing] at split
            obtain ⟨⟨inner, _⟩, found, same⟩ := Option.map_eq_some_iff.mp split
            cases same
            obtain ⟨exposed, exposes, closes⟩ := ih found
            cases quotes : bounds.isInnerQuote honourQuotes c with
            | false =>
                rw [quotes, if_neg Bool.false_ne_true] at exposes
                exact ⟨c :: exposed, .plain quotes exposes,
                  (Bounds.closesPairs_of_ne closing).mpr closes⟩
            | true =>
                rw [quotes, if_pos rfl] at exposes
                obtain ⟨hidden, later, rfl, inert, exposes⟩ := exposes
                rw [if_neg (Bounds.ne_of_isInnerQuote quotes).1] at closes
                exact ⟨exposed, .quoted quotes inert exposes, closes⟩

theorem splitAtClosing_eq_some_iff {text content rest : List Char} :
    splitAtClosing bounds honourQuotes 0 none text = some (content, rest) ↔
      bounds.Encloses honourQuotes content ∧ text = content ++ bounds.closing :: rest := by
  constructor
  · intro split
    obtain ⟨exposed, exposes, closes⟩ := exposes_of_splitAtClosing split
    exact ⟨⟨exposed, exposes, Bounds.closesPairs_zero_iff.mp closes⟩, (of_splitAtClosing split).1⟩
  · rintro ⟨⟨exposed, exposes, balance⟩, rfl⟩
    exact splitAtClosing_of_exposes exposes (Bounds.closesPairs_zero_iff.mpr balance) rest

theorem boundedBy_eq_some_iff {text : List Char} {token : Token} :
    boundedBy bounds honourQuotes text = some token ↔
      ∃ content rest, bounds.Encloses honourQuotes content ∧
        text = bounds.opening :: content ++ bounds.closing :: rest ∧
        token = ⟨bounds.opening :: content ++ [bounds.closing], content, rest⟩ := by
  cases text with
  | nil => simp [boundedBy]
  | cons c text =>
      rw [boundedBy]
      split
      case isTrue opens =>
        rw [Option.map_eq_some_iff]
        constructor
        · rintro ⟨⟨content, rest⟩, split, rfl⟩
          obtain ⟨encloses, rfl⟩ := splitAtClosing_eq_some_iff.mp split
          exact ⟨content, rest, encloses, by rw [opens]; rfl, by rw [opens]⟩
        · rintro ⟨content, rest, encloses, text_eq, rfl⟩
          obtain ⟨-, rfl⟩ := List.cons.inj text_eq
          exact ⟨(content, rest), splitAtClosing_eq_some_iff.mpr ⟨encloses, rfl⟩, by rw [opens]⟩
      case isFalse other =>
        simp only [reduceCtorEq, false_iff]
        rintro ⟨content, rest, -, text_eq, -⟩
        exact other (List.cons.inj text_eq).1

theorem bounded_eq_some_iff {text : List Char} {token : Token} :
    bounded honourQuotes text = some token ↔
      ∃ bounds ∈ Bounds.all, boundedBy bounds honourQuotes text = some token := by
  cases text with
  | nil => simp [bounded, boundedBy]
  | cons c text =>
      rw [bounded, Option.bind_eq_some_iff]
      constructor
      · rintro ⟨closing, closes, taken⟩
        exact ⟨⟨c, closing⟩, Bounds.closer?_eq_some_iff.mp closes, taken⟩
      · rintro ⟨⟨opening, closing⟩, member, taken⟩
        obtain ⟨content, rest, -, text_eq, -⟩ := boundedBy_eq_some_iff.mp taken
        obtain ⟨rfl, -⟩ := List.cons.inj text_eq
        exact ⟨closing, Bounds.closer?_eq_some_iff.mpr member, taken⟩

end Recogniser

namespace Pattern

variable {offered : Option Bounds} {honourQuotes : Bool}

theorem recognise_bounded_iff {text : List Char} {token : Token} :
    (bounded offered honourQuotes).recognise text = some token ↔
      ∃ bounds, Bounds.Offered offered bounds ∧
        Recogniser.boundedBy bounds honourQuotes text = some token := by
  cases offered with
  | none => exact Recogniser.bounded_eq_some_iff
  | some given =>
      constructor
      · exact fun taken => ⟨given, rfl, taken⟩
      · rintro ⟨_, rfl, taken⟩
        exact taken

/-- A bounded span is found at a place exactly if an opening bound stands there
and behind it a content in which the bounds balance, with its closing bound.
The span reaches from the one bound to the other whatever follows, and its
value is that content.  This holds for all bounds, equal ones and quotes
included, and whether or not inner quotes are honoured. -/
theorem scan_bounded_iff (offered : Option Bounds) (honourQuotes : Bool) (source : List Char)
    (start : Nat) (span : Span) :
    (bounded offered honourQuotes).scan source start = some span ↔
      ∃ bounds content tail, Bounds.Offered offered bounds ∧
        bounds.Encloses honourQuotes content ∧
        source.drop start = bounds.opening :: content ++ bounds.closing :: tail ∧
        span = ⟨start, start + (content.length + 2), content⟩ := by
  have length (bounds : Bounds) (content : List Char) :
      (bounds.opening :: content ++ [bounds.closing]).length = content.length + 2 := by
    rw [List.cons_append, List.length_cons, List.length_append, List.length_singleton]
  rw [scan, Option.map_eq_some_iff]
  constructor
  · rintro ⟨token, taken, rfl⟩
    obtain ⟨bounds, isOffered, taken⟩ := recognise_bounded_iff.mp taken
    obtain ⟨content, tail, encloses, text_eq, rfl⟩ := Recogniser.boundedBy_eq_some_iff.mp taken
    exact ⟨bounds, content, tail, isOffered, encloses, text_eq, by rw [length]⟩
  · rintro ⟨bounds, content, tail, isOffered, encloses, text_eq, rfl⟩
    have taken := Recogniser.boundedBy_eq_some_iff.mpr ⟨content, tail, encloses, text_eq, rfl⟩
    exact ⟨_, recognise_bounded_iff.mpr ⟨bounds, isOffered, taken⟩, by rw [length]⟩

/-- Between equal bounds the bound itself may stand in quotes of the other kind. -/
example : (bounded (some ⟨'\x22', '\x22'⟩) true).scan "=\"a\x27\"\x27b\";".toList 1 =
    some ⟨1, 8, "a\x27\"\x27b".toList⟩ := by decide

end Pattern

end CssQuery
