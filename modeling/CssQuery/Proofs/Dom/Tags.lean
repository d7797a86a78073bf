import CssQuery.Proofs.Dom.ListEdits
import Mathlib.Data.List.Nodup

/-!
# Numbers of tag names

Elements are compared by the numbers of their tag names.  `Tagged` says why
this compares the names: every element has the number under which the tree
keeps its name, and the tree keeps no name twice.  Names are only ever added,
so every change of a tree preserves this.
-/

namespace CssQuery

namespace Tree

/-- The tree keeps every tag name once, and the name of each element under its
number. -/
structure Tagged (tree : Tree) : Prop where
  distinct : tree.tagNames.Nodup
  numbered : ∀ id element, tree.element? id = some element →
    tree.tagNameOf element.tagId = some element.tagName

variable {tree : Tree}

theorem Tagged.empty : Tree.empty.Tagged where
  distinct := List.nodup_nil
  numbered id element found := by
    rcases id with _ | id <;> simp [element?, node?, Tree.empty] at found

theorem element?_of_data {other : Tree} {id : NodeId}
    (same : (other.node? id).map Node.data = (tree.node? id).map Node.data) :
    other.element? id = tree.element? id := by
  rw [element?, element?, same]

theorem Tagged.of_sameNodes {other : Tree} (tagged : tree.Tagged) (same : tree.SameNodes other) :
    other.Tagged where
  distinct := same.tagNames ▸ tagged.distinct
  numbered id element found := by
    rw [element?_of_data (same.data id)] at found
    rw [tagNameOf, same.tagNames]
    exact tagged.numbered id element found

section Interning

theorem tagNames_internTag (tree : Tree) (name : String) :
    (tree.internTag name).2.tagNames =
      if lowercaseAscii name ∈ tree.tagNames then tree.tagNames
      else tree.tagNames ++ [lowercaseAscii name] := by
  rw [internTag]
  cases found : tree.lookupTag name with
  | none => rw [if_neg (List.idxOf?_eq_none_iff.mp found)]
  | some id =>
      have member : lowercaseAscii name ∈ tree.tagNames := by
        by_contra absent
        rw [lookupTag, List.idxOf?_eq_none_iff.mpr absent] at found
        cases found
      rw [if_pos member]

theorem tagNameOf_internTag (tree : Tree) (name : String) :
    (tree.internTag name).2.tagNameOf (tree.internTag name).1 = some (lowercaseAscii name) := by
  rw [internTag]
  cases found : tree.lookupTag name with
  | none => exact List.getElem?_concat_length
  | some id =>
      obtain ⟨small, same, -⟩ := List.idxOf?_eq_some_iff.mp found
      exact List.getElem?_eq_some_iff.mpr ⟨small, same⟩

/-- A number once given away keeps its name. -/
theorem tagNameOf_internTag_of_some {id : TagId} {old : String}
    (kept : tree.tagNameOf id = some old) (name : String) :
    (tree.internTag name).2.tagNameOf id = some old := by
  rw [tagNameOf, tagNames_internTag]
  split_ifs
  · exact kept
  · exact (List.getElem?_append_left (List.getElem?_eq_some_iff.mp kept).1).trans kept

theorem Tagged.internTag (tagged : tree.Tagged) (name : String) :
    (tree.internTag name).2.Tagged where
  distinct := by
    rw [tagNames_internTag]
    split_ifs with known
    · exact tagged.distinct
    · exact List.concat_eq_append ▸ List.Nodup.concat known tagged.distinct
  numbered id element found := by
    have same : tree.element? id = some element := by
      rwa [element?_of_data (congrArg _ (node?_internTag tree name id))] at found
    exact tagNameOf_internTag_of_some (tagged.numbered id element same) name

end Interning

/-- A new node keeps the numbers right if it is no element or has the number of
its name. -/
theorem Tagged.create (tagged : tree.Tagged) {data : NodeData}
    (numbered : ∀ element, data = .element element →
      tree.tagNameOf element.tagId = some element.tagName) :
    (tree.create data).2.Tagged where
  distinct := tagged.distinct
  numbered id element found := by
    rw [element?, node?_create] at found
    split_ifs at found with fresh
    · cases data with
      | element created =>
          cases found
          exact numbered _ rfl
      | _ => cases found
    · exact tagged.numbered id element found

theorem Tagged.createElement (tagged : tree.Tagged) (tag : String)
    (attributes : List (String × String)) : (tree.createElement tag attributes).2.Tagged := by
  refine (tagged.internTag tag).create ?_
  rintro _ ⟨⟩
  exact tagNameOf_internTag tree tag

theorem Tagged.createText (tagged : tree.Tagged) (text : String) :
    (tree.createText text).2.Tagged :=
  tagged.create fun _ same => nomatch same

theorem Tagged.perform (tagged : tree.Tagged) (command : TreeCommand) :
    (tree.perform command).2.Tagged := by
  cases command with
  | createElement tag attributes => exact tagged.createElement tag attributes
  | createText text => exact tagged.createText text
  | createComment text => exact tagged.create fun _ same => nomatch same
  | internTag tag => exact tagged.internTag tag
  | appendElement parent tag =>
      exact (tagged.createElement tag []).of_sameNodes (SameNodes.appendChild _ _ _)
  | appendText parent text =>
      exact (tagged.createText text).of_sameNodes (SameNodes.appendChild _ _ _)
  | appendChild parent child => exact tagged.of_sameNodes (SameNodes.appendChild _ _ _)
  | insertBefore parent child reference =>
      exact tagged.of_sameNodes (SameNodes.insertBefore _ _ _ _)
  | removeChild parent child => exact tagged.of_sameNodes (SameNodes.removeChild _ _ _)

theorem Built.tagged {permitted : Tree → TreeCommand → Prop} (built : tree.Built permitted) :
    tree.Tagged := by
  induction built with
  | empty => exact Tagged.empty
  | perform earlier command _ ih => exact ih.perform command

/-- Comparing the numbers of two tags compares their names. -/
theorem Tagged.tagId?_eq_iff (tagged : tree.Tagged) (first second : NodeId) :
    tree.tagId? first = tree.tagId? second ↔ tree.tagName? first = tree.tagName? second := by
  rw [tagId?, tagId?, tagName?, tagName?]
  cases firstFound : tree.element? first with
  | none => cases tree.element? second <;> simp
  | some one =>
      cases secondFound : tree.element? second with
      | none => simp
      | some other =>
          have ofFirst := tagged.numbered first one firstFound
          have ofSecond := tagged.numbered second other secondFound
          simp only [Option.map_some, Option.some.injEq]
          constructor
          · intro same
            rw [same, ofSecond] at ofFirst
            exact (Option.some.inj ofFirst).symm
          · intro same
            rw [← same] at ofSecond
            have small := (List.getElem?_eq_some_iff.mp ofFirst).1
            exact (List.getElem?_inj small tagged.distinct).mp (ofFirst.trans ofSecond.symm)

end Tree

end CssQuery
