/-
# Trees of elements

A document is a tree of elements. The same tree can be written in many ways: with a
declaration or without, with either quotation mark and any of the named escapes in a
value, with a single tag for an element without children, and with blanks, character
data, comments and CDATA sections between the tags.
-/

import OverlayManifest.Proofs.WrittenMarkup

namespace OverlayManifest.Xml

/-- An element: its tag, the keys and texts of its attributes, and the elements directly in
it. Tag and keys are names, and no key occurs twice. -/
structure Element where
  tag : String
  attributes : List (String × String)
  isWritten : IsWritten tag.toList attributes
  children : List Element

namespace Element

mutual

/-- An element and the elements in it, in the order of their opening tags, each with the
tags of the elements around it, the outermost first. -/
def occurrences (ancestors : List String) : Element → List (List String × Element)
  | ⟨tag, attributes, isWritten, children⟩ =>
      (ancestors, ⟨tag, attributes, isWritten, children⟩) ::
        occurrencesIn (ancestors ++ [tag]) children

/-- The occurrences in a list of elements, one element after another. -/
def occurrencesIn (ancestors : List String) : List Element → List (List String × Element)
  | [] => []
  | element :: elements => occurrences ancestors element ++ occurrencesIn ancestors elements

end

theorem occurrences_eq (ancestors : List String) (element : Element) :
    occurrences ancestors element =
      (ancestors, element) :: occurrencesIn (ancestors ++ [element.tag]) element.children := by
  cases element
  rfl

@[simp]
theorem occurrencesIn_nil (ancestors : List String) : occurrencesIn ancestors [] = [] := rfl

theorem occurrencesIn_cons (ancestors : List String) (element : Element)
    (elements : List Element) :
    occurrencesIn ancestors (element :: elements) =
      (ancestors, element) :: (occurrencesIn (ancestors ++ [element.tag]) element.children ++
        occurrencesIn ancestors elements) := by
  rw [occurrencesIn, occurrences_eq, List.cons_append]

end Element

/-! ## Ways to write a tree -/

/-- A way to write the attributes of a tag one after another. -/
def WritesAttributes (attributes : List (String × String)) (text : List Char) : Prop :=
  ∃ written : List Attribute, List.Forall₂ WritesAttribute attributes written ∧
    LaidOut written text

/-- What may stand between two tags: character data, comments and CDATA sections. -/
inductive Gap : List Char → Prop
  | nil : Gap []
  | data {data rest : List Char} (hdata : '<' ∉ data) (hrest : Gap rest) : Gap (data ++ rest)
  | comment {body rest : List Char} (hbody : ¬ ['-', '-', '>'] <:+: body) (hrest : Gap rest) :
      Gap ('<' :: '!' :: '-' :: '-' :: (body ++ ['-', '-', '>']) ++ rest)
  | cdata {body rest : List Char} (hbody : ¬ [']', ']', '>'] <:+: body) (hrest : Gap rest) :
      Gap ('<' :: '!' :: (cdataOpening ++ (body ++ [']', ']', '>'])) ++ rest)

/-- A way to write elements one after another, with what stands before, between and after
them. An element without children may be a single tag. -/
inductive Writes : List Element → List Char → Prop
  | nil {gap : List Char} (hgap : Gap gap) : Writes [] gap
  | single {element : Element} {elements : List Element} {gap tail text : List Char}
      (hgap : Gap gap) (hattributes : WritesAttributes element.attributes tail)
      (hchildren : element.children = []) (hrest : Writes elements text) :
      Writes (element :: elements)
        (gap ++ ('<' :: (element.tag.toList ++ tail ++ ['/', '>']) ++ text))
  | element {element : Element} {elements : List Element}
      {gap tail inner blanks text : List Char}
      (hgap : Gap gap) (hattributes : WritesAttributes element.attributes tail)
      (hinner : Writes element.children inner) (hblanks : Blanks blanks)
      (hrest : Writes elements text) :
      Writes (element :: elements)
        (gap ++ ('<' :: (element.tag.toList ++ tail ++ ['>']) ++
          (inner ++ ('<' :: '/' :: (element.tag.toList ++ blanks ++ ['>']) ++ text))))

/-- A way to write a document: a declaration, which may be missing, and the root with what
stands around it. -/
inductive WritesDocument (root : Element) : List Char → Prop
  | plain {text : List Char} (hroot : Writes [root] text) : WritesDocument root text
  | declared {body text : List Char} (hbody : '>' ∉ body) (hroot : Writes [root] text) :
      WritesDocument root ('<' :: '?' :: (['x', 'm', 'l'] ++ body ++ ['?', '>']) ++ text)

/-! ## Every tree can be written -/

namespace Element

mutual

/-- An element with an opening and a closing tag and nothing between tags. -/
def written : Element → List Char
  | ⟨tag, attributes, _, children⟩ =>
      '<' :: (tag.toList ++ writtenAttributes attributes ++ ['>']) ++
        (writtenIn children ++ '<' :: '/' :: (tag.toList ++ ['>']))

/-- Elements written one after another. -/
def writtenIn : List Element → List Char
  | [] => []
  | element :: elements => written element ++ writtenIn elements

end

theorem writes_writtenIn : (elements : List Element) → Writes elements (writtenIn elements)
  | [] => .nil .nil
  | ⟨tag, attributes, isWritten, children⟩ :: elements => by
      have hattributes : WritesAttributes attributes (writtenAttributes attributes) :=
        ⟨readBack attributes, writes_readBack attributes, laidOut_written attributes⟩
      have hblanks : Blanks [] := by simp [Blanks]
      have helement : Writes (⟨tag, attributes, isWritten, children⟩ :: elements) _ :=
        .element .nil hattributes (writes_writtenIn children) hblanks (writes_writtenIn elements)
      simpa [writtenIn, written] using helement

/-- Every tree is a document in at least one way. -/
theorem writesDocument_written (root : Element) : WritesDocument root root.written := by
  have hroot := writes_writtenIn [root]
  rw [writtenIn, writtenIn, List.append_nil] at hroot
  exact .plain hroot

/-- A tree that is a values document, a listing and a document that creates an id: a styleable
with an attribute of its own and one from elsewhere, and two policies, one of them with an item
in an item. -/
def mixedRoot : Element :=
  ⟨"resources", [], by decide,
    [⟨"item", [("type", "id"), ("name", "a < b")], by decide, []⟩,
      ⟨"declare-styleable", [("name", "Card")], by decide,
        [⟨"attr", [("name", "size")], by decide, []⟩,
          ⟨"attr", [("name", "android:text")], by decide, []⟩]⟩,
      ⟨"overlayable", [], by decide,
        [⟨"policy", [], by decide, []⟩,
          ⟨"policy", [], by decide,
            [⟨"item", [("name", " @+id/row"), ("type", "id")], by decide,
              [⟨"item", [], by decide, []⟩]⟩]⟩]⟩]⟩

end Element

end OverlayManifest.Xml
