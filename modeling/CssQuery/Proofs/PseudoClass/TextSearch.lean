import CssQuery.PseudoClass.TextSearch
import CssQuery.Proofs.Text.Sigma

/-!
# Searching with and without letter case

A search that ignores letter case compares two texts that have been lowercased
on their own.  It finds whatever the other search finds if the text sought has
the same lowercase form on its own as inside every text, and only then.  A `Σ`
at the end of the text sought breaks this: alone it becomes a final sigma.
-/

namespace CssQuery

namespace TextSearch

/-- One level of a search: a text node is compared, and the search goes on
below an element and the document. -/
theorem matchesWithin_succ_iff {search : TextSearch} {tree : Tree} {levels : Nat}
    {node : NodeId} :
    search.matchesWithin tree (levels + 1) node = true ↔
      (∃ content, tree.text? node = some content ∧ search.matchesText content = true) ∨
        (tree.kind? node = some .document ∨ tree.kind? node = some .element) ∧
          ∃ child ∈ tree.children node, search.matchesWithin tree levels child = true := by
  rw [matchesWithin, Tree.text?, Tree.kind?]
  cases tree.node? node with
  | none => simp
  | some found =>
      obtain ⟨data, parent, children, previous, next⟩ := found
      cases data <;> simp [NodeData.kind]

theorem matchesWithin_mono {first second : TextSearch}
    (weaker : ∀ text, first.matchesText text = true → second.matchesText text = true)
    {tree : Tree} {fewer levels : Nat} (le : fewer ≤ levels) {node : NodeId}
    (found : first.matchesWithin tree fewer node = true) :
    second.matchesWithin tree levels node = true := by
  induction fewer generalizing node levels with
  | zero => cases found
  | succ fewer ih =>
      obtain ⟨levels, rfl⟩ := Nat.exists_eq_add_one_of_ne_zero (Nat.ne_zero_of_lt le)
      rw [matchesWithin_succ_iff] at found ⊢
      rcases found with ⟨content, text, occurs⟩ | ⟨inner, child, member, below⟩
      · exact .inl ⟨content, text, weaker content occurs⟩
      · exact .inr ⟨inner, child, member, ih (Nat.le_of_succ_le_succ le) below⟩

theorem matchesText_sensitive_iff (text content : String) :
    (ofText text true).matchesText content = true ↔ text.toList <:+: content.toList := by
  simp [matchesText, ofText, occursIn_iff]

theorem matchesText_insensitive_iff (text content : String) :
    (ofText text false).matchesText content = true ↔
      lowercase text.toList <:+: lowercase content.toList := by
  simp [matchesText, ofText, occursIn_iff]

theorem lowercase_infix {text content : List Char} (settled : SigmasSettled text)
    (occurs : text <:+: content) : lowercase text <:+: lowercase content := by
  obtain ⟨before, after, rfl⟩ := occurs
  rw [lowercase, lowercase, List.append_assoc, lowercaseAfter_append, lowercaseAfter_append,
    settled.lowercaseBetween_eq, lowercase]
  exact ⟨_, _, List.append_assoc _ _ _⟩

/-- A tree with a single text node. -/
theorem holds_createText (search : TextSearch) (content : String) :
    search.holds (Tree.empty.createText content).2 1 = search.matchesText content := by
  rfl

/-- Ignoring letter case never loses a match exactly if each `Σ` of the text
sought has its lowercase form settled by the characters of that text. -/
theorem ignoringCase_keeps_iff (text : String) :
    (∀ tree node, (ofText text true).holds tree node = true →
        (ofText text false).holds tree node = true) ↔
      SigmasSettled text.toList := by
  constructor
  · intro keeps
    by_contra unsettled
    obtain ⟨content, occurs, lost⟩ := exists_lowercase_not_infix unsettled
    have found := keeps (Tree.empty.createText (String.ofList content)).2 1
    rw [holds_createText, holds_createText, matchesText_sensitive_iff,
      matchesText_insensitive_iff, String.toList_ofList] at found
    exact lost (found occurs)
  · intro settled tree node found
    refine matchesWithin_mono (fun content => ?_) (Nat.le_refl _) found
    rw [matchesText_sensitive_iff, matchesText_insensitive_iff]
    exact lowercase_infix settled

/-- A word is not found inside a longer one, although it stands there. -/
theorem ignoringCase_loses_final_sigma :
    ∃ tree : Tree, (ofText "ΑΣ" true).holds tree 1 = true ∧
      (ofText "ΑΣ" false).holds tree 1 = false :=
  ⟨(Tree.empty.createText "ΑΣΑ").2, by decide +kernel, by decide +kernel⟩

end TextSearch

end CssQuery
