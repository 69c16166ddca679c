/-
# Written trees are read back

However a tree of elements is written, its text is read as the tags of the tree: an opening
and a closing tag around what the children are read as, or a single tag, for each element.
A tag that is read for an element has the element's name, and its attributes have the keys
and, unescaped, the texts of the element's attributes. What stands between tags is passed
over.
-/

import OverlayManifest.Document.Fault
import OverlayManifest.Proofs.ElementTree

namespace OverlayManifest

namespace Xml

/-! ## Tags -/

/-- A tag that is read for an element: it has the element's name, and its attributes were
written for those of the element. -/
structure Tag.Shows (tag : Tag) (element : Element) : Prop where
  name_eq : tag.name = element.tag.toList
  attributes_eq : ∃ written : List Attribute,
    List.Forall₂ WritesAttribute element.attributes written ∧
      tag.attributes = .prepend written .done

namespace Tag.Shows

variable {tag : Tag} {element : Element}

theorem ofList_name (h : tag.Shows element) : String.ofList tag.name = element.tag := by
  rw [h.name_eq, String.ofList_toList]

theorem attribute?_eq (h : tag.Shows element) (key : String) :
    tag.attribute? key = .ok (element.attributes.lookup key) := by
  obtain ⟨written, hwrites, hread⟩ := h.attributes_eq
  rw [Tag.attribute?, hread, find?_of_writes hwrites]

end Tag.Shows

/-- What is written after the name of a tag is a tail, and the tag shows its element. -/
theorem WritesAttributes.shows {element : Element} {tail : List Char}
    (h : WritesAttributes element.attributes tail) :
    IsTail tail ∧ Tag.Shows ⟨element.tag.toList, tail⟩ element := by
  obtain ⟨written, hwrites, hlaid⟩ := h
  exact ⟨element.isWritten.isTail_of_writes hwrites hlaid, rfl, written, hwrites,
    element.isWritten.attributes_of_writes hwrites hlaid⟩

/-! ## Elements -/

/-- The tags that elements are read as. -/
inductive Spells : List Element → List Token → Prop
  | nil : Spells [] []
  | single {element : Element} {elements : List Element} {tag : Tag} {tokens : List Token}
      (hshows : tag.Shows element) (hchildren : element.children = [])
      (hrest : Spells elements tokens) :
      Spells (element :: elements) (.single tag :: tokens)
  | element {element : Element} {elements : List Element} {tag : Tag} {closing : List Char}
      {inner tokens : List Token} (hshows : tag.Shows element)
      (hinner : Spells element.children inner) (hclosing : closingName closing = tag.name)
      (hrest : Spells elements tokens) :
      Spells (element :: elements) (.opening tag :: (inner ++ .closing closing :: tokens))

/-- Each closing tag closes the element it belongs to. -/
theorem Spells.balanced {elements : List Element} {tokens : List Token}
    (h : Spells elements tokens) : Balanced tokens := by
  induction h with
  | nil => exact .nil
  | @single _ _ tag _ _ _ _ ih => exact (Balanced.single tag).append ih
  | @element _ _ tag closing inner tokens _ _ hclosing _ hinner ih =>
      have hall := (hinner.element hclosing).append ih
      simpa using hall

/-- What stands between tags is passed over. -/
theorem Gap.readsAs {gap : List Char} (h : Gap gap) : ReadsAs gap [] := by
  induction h with
  | nil => exact fun _ => rfl
  | data hdata _ ih => exact (ReadsAs.data hdata).append ih
  | comment hbody _ ih => exact (ReadsAs.comment hbody).append ih
  | cdata hbody _ ih => exact (ReadsAs.cdata hbody).append ih

/-- Written elements are read as their tags. -/
theorem Writes.readsAs {elements : List Element} {text : List Char} (h : Writes elements text) :
    ∃ tokens, ReadsAs text tokens ∧ Spells elements tokens := by
  induction h with
  | nil hgap => exact ⟨[], hgap.readsAs, .nil⟩
  | @single element elements gap tail text hgap hattributes hchildren _ ih =>
      obtain ⟨tokens, hreads, hspells⟩ := ih
      obtain ⟨htail, hshows⟩ := hattributes.shows
      have hsingle := ReadsAs.single_of_isTail element.isWritten.name_isName htail
      exact ⟨_, hgap.readsAs.append (hsingle.append hreads), .single hshows hchildren hspells⟩
  | @element element elements gap tail inner blanks text hgap hattributes _ hblanks _ ihinner
      ih =>
      obtain ⟨found, hfound, hinside⟩ := ihinner
      obtain ⟨tokens, hreads, hspells⟩ := ih
      obtain ⟨htail, hshows⟩ := hattributes.shows
      have hname := element.isWritten.name_isName
      have hopening := ReadsAs.opening_of_isTail hname htail
      have hplain : '>' ∉ element.tag.toList ++ blanks := by
        intro hmem
        rcases List.mem_append.mp hmem with hmem | hmem
        · exact absurd (hname.2 _ hmem) (by decide)
        · exact absurd (hblanks _ hmem) (by decide)
      have hall := hgap.readsAs.append
        (hopening.append (hfound.append ((ReadsAs.closing hplain).append hreads)))
      exact ⟨_, hall, .element hshows hinside (closingName_append hname hblanks) hspells⟩

/-- A written document is read as the tags of its root. -/
theorem WritesDocument.read_eq {root : Element} {text : String}
    (h : WritesDocument root text.toList) :
    ∃ tokens, read text = .prepend tokens .done ∧ Spells [root] tokens := by
  obtain ⟨tokens, hreads, hspells⟩ :
      ∃ tokens, ReadsAs text.toList tokens ∧ Spells [root] tokens := by
    generalize text.toList = written at h
    cases h with
    | plain hroot => exact hroot.readsAs
    | @declared body inner hbody hroot =>
        obtain ⟨tokens, hreads, hspells⟩ := hroot.readsAs
        have hclose : '>' ∉ ['x', 'm', 'l'] ++ body := by simpa using hbody
        have hdeclaration := ReadsAs.instruction hclose (by simp)
        exact ⟨tokens, hdeclaration.append hreads, hspells⟩
  exact ⟨tokens, read_of_readsAs hreads hspells.balanced, hspells⟩

end Xml

namespace Document

open Xml

/-- The text of an attribute that an element must have. -/
def requiredOf (element : Element) (key : String) : Except Fault String :=
  match element.attributes.lookup key with
  | some value => .ok value
  | none => .error (.missingAttribute element.tag key)

theorem required_of_shows {tag : Tag} {element : Element} (h : tag.Shows element)
    (key : String) : required tag key = requiredOf element key := by
  rw [required, requiredOf, h.attribute?_eq, h.ofList_name]
  cases element.attributes.lookup key <;> rfl

end Document

end OverlayManifest
