import CssQuery.Proofs.Dom.Tags
import Mathlib.Data.List.Induction
import Std.Data.HashMap.Lemmas

/-!
# Numbers kept in a table

The list of tag names gives each name the number of its place there.  A tree
that does not want to search this list keeps the numbers in a hash table
beside it, as numbers of 32 bits.  The list and the table have to say the same
through every change of the tree, and with fewer than `2 ^ 32` names they do:
the names and their numbers determine each other, the numbers are those of the
names in the order in which they were first seen, and no number ever changes.
-/

namespace CssQuery

/-- The greatest number of 32 bits, `2 ^ 32 - 1`. -/
def maxTagId : TagId := 4294967295

/-- A tree with a table of the numbers of its tag names. -/
structure IndexedTree where
  tree : Tree
  tagIds : Std.HashMap String TagId

namespace IndexedTree

def empty : IndexedTree := ⟨.empty, ∅⟩

def lookupTag (indexed : IndexedTree) (name : String) : Option TagId :=
  indexed.tagIds[lowercaseAscii name]?

/-- The number of a tag name.  A new name goes into the list and the table; all
names without a number of their own share the greatest one. -/
def internTag (indexed : IndexedTree) (name : String) : TagId × IndexedTree :=
  match indexed.lookupTag name with
  | some id => (id, indexed)
  | none =>
      let lowered := lowercaseAscii name
      let tree := indexed.tree
      let id := min tree.tagNames.length maxTagId
      (id,
        { tree := { tree with tagNames := tree.tagNames ++ [lowered] }
          tagIds := indexed.tagIds.insert lowered id })

/-- A change that no tag name has a part in. -/
def edit {α : Type} (indexed : IndexedTree) (change : Tree → α × Tree) : α × IndexedTree :=
  (change indexed.tree).map id fun tree => { indexed with tree }

def createElement (indexed : IndexedTree) (tag : String)
    (attributes : List (String × String)) : NodeId × IndexedTree :=
  let interned := indexed.internTag tag
  interned.2.edit fun tree =>
    tree.create (.element ⟨lowercaseAscii tag, interned.1, Attributes.ofList attributes⟩)

def appendElement (indexed : IndexedTree) (parent : NodeId) (tag : String) :
    NodeId × IndexedTree :=
  let created := indexed.createElement tag []
  created.2.edit fun tree => (created.1, tree.appendChild parent created.1)

def perform (indexed : IndexedTree) : TreeCommand → Option Nat × IndexedTree
  | .createElement tag attributes => (indexed.createElement tag attributes).map some id
  | .appendElement parent tag => (indexed.appendElement parent tag).map some id
  | .internTag tag => (indexed.internTag tag).map some id
  | command => indexed.edit fun tree => tree.perform command

end IndexedTree

/-- The tag name that a change hands to the tree. -/
def TreeCommand.tag? : TreeCommand → Option String
  | .createElement tag _ | .appendElement _ tag | .internTag tag => some tag
  | _ => none

/-- The tag names that the changes hand to the tree, as it keeps them. -/
def internedNames (commands : List TreeCommand) : List String :=
  (commands.filterMap TreeCommand.tag?).map lowercaseAscii

/-- The tree after a number of changes. -/
def Tree.run (commands : List TreeCommand) : Tree :=
  commands.foldl (fun tree command => (tree.perform command).2) .empty

def IndexedTree.run (commands : List TreeCommand) : IndexedTree :=
  commands.foldl (fun indexed command => (indexed.perform command).2) .empty

namespace Tree

variable {tree : Tree}

section Running

theorem run_concat (commands : List TreeCommand) (command : TreeCommand) :
    run (commands ++ [command]) = ((run commands).perform command).2 := by
  rw [run, List.foldl_concat]
  rfl

/-- Whatever every change preserves, a run of changes preserves. -/
theorem run_append_of_perform (property : Tree → Prop)
    (step : ∀ tree command, property tree → property (tree.perform command).2)
    {commands : List TreeCommand} (holds : property (run commands)) (later : List TreeCommand) :
    property (run (commands ++ later)) := by
  induction later using List.reverseRecOn with
  | nil => rwa [List.append_nil]
  | append_singleton later command ih =>
      rw [← List.append_assoc, run_concat]
      exact step _ command ih

theorem tagged_run (commands : List TreeCommand) : (run commands).Tagged := by
  have start : (run []).Tagged := Tagged.empty
  exact run_append_of_perform Tagged (fun _ command tagged => tagged.perform command) start
    commands

end Running

section Names

/-- A change that hands no tag name to the tree leaves the list alone; any
other does to it what interning the name does. -/
theorem tagNames_perform (tree : Tree) (command : TreeCommand) :
    (tree.perform command).2.tagNames =
      command.tag?.elim tree.tagNames fun tag => (tree.internTag tag).2.tagNames := by
  cases command with
  | appendElement parent tag => exact (SameNodes.appendChild _ _ _).tagNames
  | appendText parent text => exact (SameNodes.appendChild _ _ _).tagNames
  | appendChild parent child => exact (SameNodes.appendChild _ _ _).tagNames
  | insertBefore parent child reference => exact (SameNodes.insertBefore _ _ _ _).tagNames
  | removeChild parent child => exact (SameNodes.removeChild _ _ _).tagNames
  | _ => rfl

theorem internedNames_append (commands later : List TreeCommand) :
    internedNames (commands ++ later) = internedNames commands ++ internedNames later := by
  simp [internedNames]

theorem internedNames_singleton (command : TreeCommand) :
    internedNames [command] = (command.tag?.map lowercaseAscii).toList := by
  cases found : command.tag? <;> simp [internedNames, found]

theorem eraseDups_concat (names : List String) (name : String) :
    (names ++ [name]).eraseDups =
      if name ∈ names then names.eraseDups else names.eraseDups ++ [name] := by
  rw [List.eraseDups_append, List.removeAll]
  split_ifs with known
  · simp [known]
  · simp [known, List.eraseDups_cons]

/-- The names stand in the order in which they were first seen. -/
theorem tagNames_run (commands : List TreeCommand) :
    (run commands).tagNames = (internedNames commands).eraseDups := by
  induction commands using List.reverseRecOn with
  | nil => rfl
  | append_singleton commands command ih =>
      rw [run_concat, tagNames_perform, internedNames_append, internedNames_singleton]
      cases command.tag? with
      | none =>
          rw [Option.elim_none, Option.map_none, Option.toList_none, List.append_nil]
          exact ih
      | some tag =>
          rw [Option.elim_some, Option.map_some, Option.toList_some, eraseDups_concat,
            tagNames_internTag, ih]
          simp only [List.mem_eraseDups]

end Names

section Keeping

theorem tagNameOf_perform {id : TagId} {name : String} (kept : tree.tagNameOf id = some name)
    (command : TreeCommand) : (tree.perform command).2.tagNameOf id = some name := by
  rw [tagNameOf, tagNames_perform]
  cases command.tag? with
  | none => exact kept
  | some tag => exact tagNameOf_internTag_of_some kept tag

theorem element?_create {id : NodeId} {element : Element}
    (kept : tree.element? id = some element) (data : NodeData) :
    (tree.create data).2.element? id = some element := by
  have known : id ≠ tree.size := by
    rintro rfl
    rw [element?, node?_eq_none (Nat.le_refl _)] at kept
    cases kept
  rwa [element?, node?_create, if_neg known]

theorem element?_createElement {id : NodeId} {element : Element}
    (kept : tree.element? id = some element) (tag : String)
    (attributes : List (String × String)) :
    (tree.createElement tag attributes).2.element? id = some element := by
  have interned : (tree.internTag tag).2.element? id = some element := by
    rwa [element?, node?_internTag]
  exact element?_create interned _

/-- An element stays as it was created. -/
theorem element?_perform {id : NodeId} {element : Element}
    (kept : tree.element? id = some element) (command : TreeCommand) :
    (tree.perform command).2.element? id = some element := by
  cases command with
  | createElement tag attributes => exact element?_createElement kept tag attributes
  | createText text => exact element?_create kept _
  | createComment text => exact element?_create kept _
  | internTag tag => exact (element?_of_data (congrArg _ (node?_internTag tree tag id))).trans kept
  | appendElement parent tag =>
      have created := element?_createElement kept tag []
      exact (element?_of_data ((SameNodes.appendChild _ _ _).data id)).trans created
  | appendText parent text =>
      have created := element?_create kept (.text text)
      exact (element?_of_data ((SameNodes.appendChild _ _ _).data id)).trans created
  | appendChild parent child =>
      exact (element?_of_data ((SameNodes.appendChild _ _ _).data id)).trans kept
  | insertBefore parent child reference =>
      exact (element?_of_data ((SameNodes.insertBefore _ _ _ _).data id)).trans kept
  | removeChild parent child =>
      exact (element?_of_data ((SameNodes.removeChild _ _ _).data id)).trans kept

end Keeping

/-- Numbers and names determine each other. -/
theorem Tagged.lookupTag_eq_some_iff (tagged : tree.Tagged) (name : String) (id : TagId) :
    tree.lookupTag name = some id ↔ tree.tagNameOf id = some (lowercaseAscii name) := by
  rw [lookupTag, tagNameOf, List.idxOf?_eq_some_iff, List.getElem?_eq_some_iff]
  constructor
  · rintro ⟨small, same, -⟩
    exact ⟨small, same⟩
  · rintro ⟨small, same⟩
    refine ⟨small, same, ?_⟩
    intro earlier before twice
    have equal := (tagged.distinct.getElem_inj_iff).mp (twice.trans same.symm)
    exact Nat.ne_of_lt before equal

theorem mem_internedNames {commands : List TreeCommand} {name : String} :
    name ∈ internedNames commands ↔ name ∈ (run commands).tagNames := by
  rw [tagNames_run, List.mem_eraseDups]

/-- Names with a number in common are equal up to letter case. -/
theorem Tagged.lookupTag_eq_lookupTag_iff (tagged : tree.Tagged) (first second : String) :
    (∃ id, tree.lookupTag first = some id ∧ tree.lookupTag second = some id) ↔
      lowercaseAscii first = lowercaseAscii second ∧ lowercaseAscii first ∈ tree.tagNames := by
  simp only [tagged.lookupTag_eq_some_iff]
  constructor
  · rintro ⟨id, ofFirst, ofSecond⟩
    exact ⟨Option.some.inj (ofFirst.symm.trans ofSecond), List.mem_of_getElem? ofFirst⟩
  · rintro ⟨same, member⟩
    obtain ⟨id, found⟩ := List.mem_iff_getElem?.mp member
    exact ⟨id, found, same ▸ found⟩

/-- A number is in use when it is smaller than the number of names. -/
theorem exists_lookupTag_iff (commands : List TreeCommand) (id : TagId) :
    (∃ name, (run commands).lookupTag name = some id) ↔ id < (run commands).tagNames.length := by
  simp only [(tagged_run commands).lookupTag_eq_some_iff]
  constructor
  · rintro ⟨name, found⟩
    exact (List.getElem?_eq_some_iff.mp found).1
  · intro small
    have member := mem_internedNames.mpr (List.getElem_mem small)
    obtain ⟨name, -, lowered⟩ := List.mem_map.mp member
    exact ⟨name, List.getElem?_eq_some_iff.mpr ⟨small, lowered.symm⟩⟩

theorem lookupTag_run_append {commands : List TreeCommand} {name : String} {id : TagId}
    (found : (run commands).lookupTag name = some id) (later : List TreeCommand) :
    (run (commands ++ later)).lookupTag name = some id := by
  rw [(tagged_run _).lookupTag_eq_some_iff] at found ⊢
  exact run_append_of_perform (fun tree => tree.tagNameOf id = _)
    (fun _ command kept => tagNameOf_perform kept command) found later

theorem element?_run_append {commands : List TreeCommand} {node : NodeId} {element : Element}
    (found : (run commands).element? node = some element) (later : List TreeCommand) :
    (run (commands ++ later)).element? node = some element :=
  run_append_of_perform (fun tree => tree.element? node = _)
    (fun _ command kept => element?_perform kept command) found later

end Tree

namespace IndexedTree

/-- The table says what the list says. -/
def Agrees (indexed : IndexedTree) : Prop :=
  ∀ name, indexed.tagIds[name]? = indexed.tree.tagNames.idxOf? name

/-- With the table the answer and the tree are the same as without it, and the
table is right afterwards. -/
structure Matches {α : Type} (result : α × IndexedTree) (plain : α × Tree) : Prop where
  answer : result.1 = plain.1
  tree : result.2.tree = plain.2
  agrees : result.2.Agrees

variable {indexed : IndexedTree}

theorem Agrees.empty : IndexedTree.empty.Agrees := by
  intro name
  rw [IndexedTree.empty, Std.HashMap.getElem?_empty]
  rfl

theorem Agrees.lookupTag_eq (agrees : indexed.Agrees) (name : String) :
    indexed.lookupTag name = indexed.tree.lookupTag name :=
  agrees _

theorem idxOf?_concat {names : List String} {new : String} (absent : new ∉ names) (name : String) :
    (names ++ [new]).idxOf? name =
      if new = name then some names.length else names.idxOf? name := by
  simp only [List.idxOf?, List.findIdx?_append, List.findIdx?_singleton, beq_iff_eq]
  split_ifs with same
  · have none : names.findIdx? (· == name) = none := List.idxOf?_eq_none_iff.mpr (same ▸ absent)
    rw [none, Option.map_some, Nat.zero_add, Option.none_or]
  · rw [Option.map_none, Option.or_none]

section Steps

theorem Matches.map {α β : Type} {result : α × IndexedTree} {plain : α × Tree}
    (same : Matches result plain) (f : α → β) : Matches (result.map f id) (plain.map f id) where
  answer := congrArg f same.answer
  tree := same.tree
  agrees := same.agrees

theorem Agrees.edit {α : Type} (agrees : indexed.Agrees) (change : Tree → α × Tree)
    (keeps : (change indexed.tree).2.tagNames = indexed.tree.tagNames) :
    Matches (indexed.edit change) (change indexed.tree) where
  answer := rfl
  tree := rfl
  agrees name := (agrees name).trans (congrArg (List.idxOf? name) keeps.symm)

/-- The number of a new name goes into the table as it is while it fits. -/
theorem Agrees.internTag (agrees : indexed.Agrees)
    (few : indexed.tree.tagNames.length ≤ maxTagId) (name : String) :
    Matches (indexed.internTag name) (indexed.tree.internTag name) := by
  have fits : min indexed.tree.tagNames.length maxTagId = indexed.tree.tagNames.length :=
    Nat.min_eq_left few
  rw [IndexedTree.internTag, Tree.internTag, agrees.lookupTag_eq]
  cases found : indexed.tree.lookupTag name with
  | some id => exact ⟨rfl, rfl, agrees⟩
  | none =>
      have absent : lowercaseAscii name ∉ indexed.tree.tagNames :=
        List.idxOf?_eq_none_iff.mp found
      simp only [fits]
      refine ⟨rfl, rfl, ?_⟩
      intro other
      simp only [Std.HashMap.getElem?_insert, beq_iff_eq, idxOf?_concat absent, agrees other]

theorem Agrees.createElement (agrees : indexed.Agrees)
    (few : indexed.tree.tagNames.length ≤ maxTagId) (tag : String)
    (attributes : List (String × String)) :
    Matches (indexed.createElement tag attributes) (indexed.tree.createElement tag attributes) := by
  have interned := agrees.internTag few tag
  have created := interned.agrees.edit
    (fun tree => tree.create (.element ⟨lowercaseAscii tag, (indexed.internTag tag).1,
      Attributes.ofList attributes⟩)) rfl
  rw [Tree.createElement, ← interned.answer, ← interned.tree]
  exact created

theorem Agrees.appendElement (agrees : indexed.Agrees)
    (few : indexed.tree.tagNames.length ≤ maxTagId) (parent : NodeId) (tag : String) :
    Matches (indexed.appendElement parent tag) (indexed.tree.appendElement parent tag) := by
  have created := agrees.createElement few tag []
  have appended := created.agrees.edit (fun tree =>
    ((indexed.createElement tag []).1, tree.appendChild parent (indexed.createElement tag []).1))
    (Tree.SameNodes.appendChild _ _ _).tagNames
  rw [Tree.appendElement, ← created.answer, ← created.tree]
  exact appended

theorem Agrees.perform (agrees : indexed.Agrees)
    (few : indexed.tree.tagNames.length ≤ maxTagId) (command : TreeCommand) :
    Matches (indexed.perform command) (indexed.tree.perform command) := by
  have untagged (silent : command.tag? = none) :
      Matches (indexed.edit fun tree => tree.perform command) (indexed.tree.perform command) := by
    apply agrees.edit
    rw [Tree.tagNames_perform, silent]
    rfl
  cases command with
  | createElement tag attributes => exact (agrees.createElement few tag attributes).map some
  | appendElement parent tag => exact (agrees.appendElement few parent tag).map some
  | internTag tag => exact (agrees.internTag few tag).map some
  | _ => exact untagged rfl

end Steps

theorem run_concat (commands : List TreeCommand) (command : TreeCommand) :
    run (commands ++ [command]) = ((run commands).perform command).2 := by
  rw [run, List.foldl_concat]
  rfl

/-- With few enough names the table is right after every run of changes, and
the tree is the one that it would be without the table. -/
theorem run_agrees {commands : List TreeCommand}
    (few : (internedNames commands).eraseDups.length ≤ maxTagId) :
    (run commands).tree = Tree.run commands ∧ (run commands).Agrees := by
  induction commands using List.reverseRecOn with
  | nil => exact ⟨rfl, Agrees.empty⟩
  | append_singleton commands command ih =>
      rw [Tree.internedNames_append, List.eraseDups_append, List.length_append] at few
      have fewBefore := Nat.le_trans (Nat.le_add_right _ _) few
      obtain ⟨same, agrees⟩ := ih fewBefore
      rw [← Tree.tagNames_run, ← same] at fewBefore
      have step := agrees.perform fewBefore command
      rw [run_concat, Tree.run_concat, ← same]
      exact ⟨step.tree, step.agrees⟩

end IndexedTree

namespace Tree

/-- The numbers of the tags are in bijection with their names in every tree
that is built.  A table of fewer than `2 ^ 32` names gives the numbers that the
list of the names gives.  Names that are equal up to letter case have one
number, other names have others, and only names that were handed to the tree
have any; the numbers in use count the names in the order in which they were
first seen.  No later change gives a name or an element another number, the
number of an element is that of its name, and so elements have the same number
when they have the same name. -/
theorem tags_bijective (commands : List TreeCommand)
    (few : (internedNames commands).eraseDups.length ≤ maxTagId) :
    ((IndexedTree.run commands).tree = run commands ∧
      ∀ name, (IndexedTree.run commands).lookupTag name = (run commands).lookupTag name) ∧
    (∀ first second,
      (∃ id, (run commands).lookupTag first = some id ∧
        (run commands).lookupTag second = some id) ↔
      lowercaseAscii first = lowercaseAscii second ∧
        lowercaseAscii first ∈ internedNames commands) ∧
    (∀ name id, (run commands).lookupTag name = some id ↔
      (run commands).tagNameOf id = some (lowercaseAscii name)) ∧
    (∀ id, (run commands).tagNameOf id = (internedNames commands).eraseDups[id]? ∧
      ((∃ name, (run commands).lookupTag name = some id) ↔
        id < (internedNames commands).eraseDups.length)) ∧
    (∀ later,
      (∀ name id, (run commands).lookupTag name = some id →
        (run (commands ++ later)).lookupTag name = some id) ∧
      ∀ node element, (run commands).element? node = some element →
        (run (commands ++ later)).element? node = some element) ∧
    (∀ node element, (run commands).element? node = some element →
      (run commands).tagNameOf element.tagId = some element.tagName) ∧
    ∀ first second, (run commands).tagId? first = (run commands).tagId? second ↔
      (run commands).tagName? first = (run commands).tagName? second := by
  obtain ⟨same, agrees⟩ := IndexedTree.run_agrees few
  have tagged := tagged_run commands
  refine ⟨⟨same, ?_⟩, ?_, tagged.lookupTag_eq_some_iff, ?_, ?_, tagged.numbered,
    tagged.tagId?_eq_iff⟩
  · intro name
    rw [agrees.lookupTag_eq, same]
  · intro first second
    rw [mem_internedNames]
    exact tagged.lookupTag_eq_lookupTag_iff first second
  · intro id
    rw [← tagNames_run]
    exact ⟨rfl, exists_lookupTag_iff commands id⟩
  · intro later
    exact ⟨fun _ _ found => lookupTag_run_append found later,
      fun _ _ found => element?_run_append found later⟩

/-- A name that is interned before an element has it, and two elements whose
tags differ in letter case. -/
theorem tags_of_moved_elements :
    (internedNames [.internTag "P", .appendElement 0 "li", .createElement "p" [],
        .appendElement 0 "LI", .insertBefore 0 3 1]).eraseDups = ["p", "li"] ∧
      ∃ tree, (IndexedTree.run [.internTag "P", .appendElement 0 "li", .createElement "p" [],
          .appendElement 0 "LI", .insertBefore 0 3 1]).tree = tree ∧
        tree.lookupTag "Li" = some 1 ∧ tree.children 0 = [3, 1] ∧
        tree.tagId? 1 = tree.tagId? 3 := by
  have names : (internedNames [.internTag "P", .appendElement 0 "li", .createElement "p" [],
      .appendElement 0 "LI", .insertBefore 0 3 1]).eraseDups = ["p", "li"] := by decide
  obtain ⟨⟨same, -⟩, -, number, -, -, -, alike⟩ := tags_bijective _ (by rw [names]; decide)
  exact ⟨names, _, same, (number "Li" 1).mpr (by decide), by decide,
    (alike 1 3).mpr (by decide)⟩

end Tree

end CssQuery
