import CssQuery.Proofs.Dom.Preorder
import CssQuery.Proofs.PseudoClass.TextSearch

/-!
# What a search for text looks at

A search goes down from a node level by level.  A text node is compared on its
own, a comment not at all.  The walk below the node meets the same nodes in
another way.  Where only elements and the document have children, the search
finds a text exactly if a single text node at or below the node has it.

On the way up from that text node every level is searched by one level more.
There are fewer nodes above it than the tree has, so the levels suffice.
-/

namespace CssQuery

open Relation

/-- Only elements and the document have children. -/
def Tree.LeavesChildless (tree : Tree) : Prop :=
  ∀ id, tree.kind? id = some .text ∨ tree.kind? id = some .comment → tree.children id = []

theorem Tree.leavesChildless_iff {tree : Tree} :
    tree.LeavesChildless ↔ ∀ id < tree.size,
      tree.kind? id = some .text ∨ tree.kind? id = some .comment → tree.children id = [] := by
  refine ⟨fun leaves id _ => leaves id, fun leaves id isLeaf => ?_⟩
  by_cases known : id < tree.size
  · exact leaves id known isLeaf
  · exact children_eq_nil (Nat.not_lt.mp known)

instance (tree : Tree) : Decidable tree.LeavesChildless :=
  decidable_of_iff _ Tree.leavesChildless_iff.symm

namespace TextSearch

/-- The form in which texts are compared. -/
def folded (caseSensitive : Bool) (text : String) : List Char :=
  if caseSensitive then text.toList else lowercase text.toList

theorem matchesText_ofText_iff (text content : String) (caseSensitive : Bool) :
    (ofText text caseSensitive).matchesText content = true ↔
      folded caseSensitive text <:+: folded caseSensitive content := by
  cases caseSensitive with
  | true => exact matchesText_sensitive_iff text content
  | false => exact matchesText_insensitive_iff text content

variable {search : TextSearch} {tree : Tree} {levels steps : Nat} {node id : NodeId}

theorem matchesWithin_of_le {more : Nat} (le : levels ≤ more)
    (found : search.matchesWithin tree levels node = true) :
    search.matchesWithin tree more node = true :=
  matchesWithin_mono (fun _ occurs => occurs) le found

/-- A search that finds something finds it in one text node. -/
theorem exists_text_of_matchesWithin (linked : tree.Linked)
    (found : search.matchesWithin tree levels node = true) :
    ∃ id, tree.Within id node ∧ ∃ content, tree.text? id = some content ∧
      search.matchesText content = true := by
  induction levels generalizing node with
  | zero => cases found
  | succ levels ih =>
      rcases matchesWithin_succ_iff.mp found with here | ⟨-, child, member, below⟩
      · exact ⟨node, .refl, here⟩
      · obtain ⟨id, within, text⟩ := ih below
        exact ⟨id, within.tail ((linked.mem_children_iff _ _).mp member), text⟩

/-- A node that has children is searched below. -/
theorem kind?_of_mem_children (leaves : tree.LeavesChildless) (member : id ∈ tree.children node) :
    tree.kind? node = some .document ∨ tree.kind? node = some .element := by
  have notLeaf := fun isLeaf => List.ne_nil_of_mem member (leaves node isLeaf)
  obtain ⟨found, known⟩ := Tree.node?_eq_some_iff.mpr (Tree.lt_size_of_mem_children member)
  rw [Tree.kind?, known, Option.map_some] at notLeaf ⊢
  cases kind : found.data.kind <;> simp [kind] at notLeaf ⊢

theorem matchesWithin_parent (linked : tree.Linked) (leaves : tree.LeavesChildless)
    {parent : NodeId} (attached : tree.parent? id = some parent)
    (found : search.matchesWithin tree levels id = true) :
    search.matchesWithin tree (levels + 1) parent = true := by
  have member := (linked.mem_children_iff _ _).mpr attached
  exact matchesWithin_succ_iff.mpr (.inr ⟨kind?_of_mem_children leaves member, id, member, found⟩)

/-- What is found at a node is found from every node above it, with a level
more for each step of the walk. -/
theorem matchesWithin_of_mem_follow (linked : tree.Linked) (leaves : tree.LeavesChildless)
    (found : search.matchesWithin tree levels id = true)
    (member : node ∈ Tree.follow tree.parent? steps id) :
    search.matchesWithin tree (levels + (Tree.follow tree.parent? steps id).length) node =
      true := by
  induction steps generalizing id levels with
  | zero => cases member
  | succ steps ih =>
      rw [Tree.follow] at member ⊢
      cases attached : tree.parent? id with
      | none => simp [attached] at member
      | some parent =>
          rw [attached] at member
          have above := matchesWithin_parent linked leaves attached found
          rw [List.length_cons, Nat.add_comm _ 1, ← Nat.add_assoc]
          rcases List.mem_cons.mp member with rfl | later
          · exact matchesWithin_of_le (Nat.le_add_right _ _) above
          · exact ih above later

theorem holds_of_within (linked : tree.Linked) (acyclic : tree.Acyclic)
    (leaves : tree.LeavesChildless) (within : tree.Within id node) {content : String}
    (text : tree.text? id = some content) (occurs : search.matchesText content = true) :
    search.holds tree node = true := by
  have here : search.matchesWithin tree 1 id = true :=
    matchesWithin_succ_iff.mpr (.inl ⟨content, text, occurs⟩)
  have known : id < tree.size := by
    refine Tree.node?_eq_some_iff.mp ?_
    rw [Tree.text?] at text
    cases found : tree.node? id with
    | none => simp [found] at text
    | some holder => exact ⟨holder, rfl⟩
  rcases reflTransGen_iff_eq_or_transGen.mp within with rfl | above
  · exact matchesWithin_of_le (Nat.one_le_of_lt known) here
  · have member := (Tree.mem_ancestors_iff linked acyclic).mpr above
    have enough := Tree.length_ancestors_lt linked acyclic known
    rw [Tree.ancestors] at member enough
    exact matchesWithin_of_le (by omega) (matchesWithin_of_mem_follow linked leaves here member)

theorem within_iff_mem_descendants (linked : tree.Linked) (acyclic : tree.Acyclic) :
    tree.Within id node ↔ id ∈ node :: tree.descendants node := by
  rw [List.mem_cons, Tree.mem_descendants_iff linked acyclic, Tree.Within,
    reflTransGen_iff_eq_or_transGen, eq_comm]

/-- In every tree without cycles that is built from known nodes and in which
texts and comments have no children, a search finds a node exactly if the node
or one of its descendants is a text node whose own text, in the form in which
texts are compared, has the text sought in it as one piece. -/
theorem holds_iff_exists_text (built : tree.Built fun tree command => command.Known tree)
    (acyclic : tree.Acyclic) (leaves : tree.LeavesChildless) (text : String)
    (caseSensitive : Bool) (node : NodeId) :
    (ofText text caseSensitive).holds tree node = true ↔
      ∃ id ∈ node :: tree.descendants node, ∃ content, tree.text? id = some content ∧
        folded caseSensitive text <:+: folded caseSensitive content := by
  have linked := built.linked fun _ _ known => known
  simp only [← matchesText_ofText_iff, ← within_iff_mem_descendants linked acyclic]
  constructor
  · exact exists_text_of_matchesWithin linked
  · rintro ⟨id, within, content, isText, occurs⟩
    exact holds_of_within linked acyclic leaves within isText occurs

/-- A word in an attribute, in a comment and spread over two text nodes is not
found; a part of it is, in another letter case. -/
theorem holds_in_single_text :
    ∃ tree : Tree, (tree.Built fun tree command => command.Known tree) ∧ tree.Acyclic ∧
      tree.LeavesChildless ∧
      (∀ id ∈ 0 :: tree.descendants 0, ∀ content, tree.text? id = some content →
        ¬ "foo".toList <:+: content.toList) ∧
      tree.attribute? 1 "title" = some "foo" ∧ tree.text? 3 = some "fo" ∧
      tree.text? 4 = some "o" ∧ (tree.node? 5).map Node.data = some (.comment "foo") ∧
      (ofText "FO" false).holds tree 0 = true := by
  let created := (Tree.empty.perform (.createElement "div" [("title", "foo")])).2
  let spread := ((((created.perform (.appendChild 0 1)).2.perform (.appendElement 1 "span")).2.perform
    (.appendText 2 "fo")).2.perform (.appendText 1 "o")).2
  let commented := (spread.perform (.createComment "foo")).2
  let tree := (commented.perform (.appendChild 1 5)).2
  have builtCreated : created.Built fun tree command =>
      command.Known tree ∧ command.LoopFree tree := Tree.Built.empty.perform _ ⟨trivial, trivial⟩
  have createdLinked := builtCreated.linked fun _ _ allowed => allowed.1
  have builtSpread : spread.Built fun tree command =>
      command.Known tree ∧ command.LoopFree tree :=
    (((builtCreated.perform (.appendChild 0 1)
      ⟨by decide, Tree.not_within_of_childless createdLinked (by decide +kernel) (by decide)⟩).perform
        (.appendElement 1 "span") ⟨by decide, trivial⟩).perform
        (.appendText 2 "fo") ⟨by decide, trivial⟩).perform
        (.appendText 1 "o") ⟨by decide, trivial⟩
  have builtCommented : commented.Built fun tree command =>
      command.Known tree ∧ command.LoopFree tree := builtSpread.perform _ ⟨trivial, trivial⟩
  have commentedLinked := builtCommented.linked fun _ _ allowed => allowed.1
  have full : tree.Built fun tree command => command.Known tree ∧ command.LoopFree tree :=
    builtCommented.perform (.appendChild 1 5)
      ⟨by decide, Tree.not_within_of_childless commentedLinked (by decide +kernel) (by decide)⟩
  have built := full.mono fun _ _ (allowed : _ ∧ _) => allowed.1
  have leaves : tree.LeavesChildless := by decide +kernel
  have spreadOut := holds_iff_exists_text built full.acyclic leaves "foo" true 0
  have inOtherCase := holds_iff_exists_text built full.acyclic leaves "FO" false 0
  refine ⟨tree, built, full.acyclic, leaves, ?_, by decide +kernel, by decide +kernel,
    by decide +kernel, by decide +kernel, ?_⟩
  · intro id member content text occurs
    have found := spreadOut.mpr ⟨id, member, content, text, occurs⟩
    have missed : (ofText "foo" true).holds tree 0 = false := by decide +kernel
    exact Bool.false_ne_true (missed.symm.trans found)
  · exact inOtherCase.mpr ⟨3, by decide +kernel, "fo", by decide +kernel, by decide +kernel⟩

end TextSearch

end CssQuery
