/-
# What a listing lists

A listing lists the items of its tree that stand in a policy in an overlayable in the root,
and nothing else. The reader knows only the tags that are open; the elements around an
element are known from the tree, and the two agree at every tag. The first item that lacks
its type or its name is the fault of the whole listing.
-/

import OverlayManifest.Proofs.ReadElements
import OverlayManifest.Proofs.ReadingSteps

namespace OverlayManifest.Document.Listing

open Xml

/-- Where an item counts: the tags of the elements around it, the outermost first. -/
def itemAncestors : List String := ["resources", "overlayable", "policy"]

/-- An element that is an item where items count. -/
def IsListed (occurrence : List String × Element) : Prop :=
  occurrence.1 = itemAncestors ∧ occurrence.2.tag = "item"

instance : DecidablePred IsListed := fun _ => inferInstanceAs (Decidable (_ ∧ _))

/-- The resource that an item names; its type is looked for first. -/
def resourceOf (item : Element) : Except Fault Resource := do
  let type ← requiredOf item "type"
  let name ← requiredOf item "name"
  return ⟨type, name⟩

/-- The resources that the items among some elements name, in order, or the first fault. -/
def listedIn (occurrences : List (List String × Element)) : Except Fault (List Resource) :=
  (occurrences.filter (IsListed ·)).mapM fun occurrence => resourceOf occurrence.2

theorem listedIn_nil : listedIn [] = .ok [] := rfl

theorem listedIn_append (first later : List (List String × Element)) :
    listedIn (first ++ later) = followedBy (listedIn first) (listedIn later) := by
  rw [listedIn, List.filter_append, List.mapM_append]
  rfl

/-- The resource that one element gives to the listing, if it gives one. -/
def listedAt (occurrence : List String × Element) : Except Fault (List Resource) :=
  if IsListed occurrence then (resourceOf occurrence.2).map ([·]) else .ok []

theorem listedIn_cons (occurrence : List String × Element)
    (later : List (List String × Element)) :
    listedIn (occurrence :: later) = followedBy (listedAt occurrence) (listedIn later) := by
  by_cases hlisted : IsListed occurrence
  · rw [listedAt, if_pos hlisted, listedIn, List.filter_cons_of_pos (by simpa using hlisted),
      List.mapM_cons]
    cases resourceOf occurrence.2 <;> rfl
  · rw [listedAt, if_neg hlisted, nil_followedBy, listedIn,
      List.filter_cons_of_neg (by simpa using hlisted)]
    rfl

/-- The elements around an element, as the reader has them. -/
theorem path_eq_itemPath_iff {ancestors : List String} :
    ancestors.reverse = itemPath ↔ ancestors = itemAncestors := by
  rw [List.reverse_eq_iff]
  rfl

/-- At every tag inside the root the reader lists what the element at that place lists. -/
theorem listed?_of_shows {tag : Tag} {element : Element} (h : tag.Shows element)
    {ancestors : List String} (hroot : ancestors ≠ []) :
    (listed? ⟨ancestors.reverse, true⟩ tag).map Option.toList = listedAt (ancestors, element) := by
  have hinside : checkRoot ⟨ancestors.reverse, true⟩ element.tag = .ok () := by
    simp [checkRoot, hroot]
  have hcounts : (element.tag = "item" ∧ ancestors.reverse = itemPath) ↔
      IsListed (ancestors, element) := by
    rw [path_eq_itemPath_iff, And.comm]
    rfl
  rw [listed?, h.ofList_name, hinside, required_of_shows h, required_of_shows h, listedAt,
    resourceOf]
  by_cases hlisted : IsListed (ancestors, element)
  · rw [if_pos (hcounts.mpr hlisted), if_pos hlisted]
    cases requiredOf element "type" with
    | error fault => rfl
    | ok type => cases requiredOf element "name" <;> rfl
  · rw [if_neg fun h => hlisted (hcounts.mp h), if_neg hlisted]
    rfl

/-- Inside the root, reading the tags of some elements lists what stands in these elements,
and the reader is then where it was. -/
theorem readFrom_of_spells {elements : List Element} {tokens : List Token}
    (h : Spells elements tokens) {ancestors : List String} (hroot : ancestors ≠ [])
    (rest : Reading Xml.Fault Token) :
    readFrom ⟨ancestors.reverse, true⟩ (.prepend tokens rest) =
      followedBy (listedIn (Element.occurrencesIn ancestors elements))
        (readFrom ⟨ancestors.reverse, true⟩ rest) := by
  induction h generalizing ancestors rest with
  | nil => rw [Element.occurrencesIn_nil, listedIn_nil, nil_followedBy, Reading.prepend_nil]
  | @single element elements tag tokens hshows hchildren _ ih =>
      rw [Reading.prepend_cons, readFrom_single_eq, listed?_of_shows hshows hroot, ih hroot,
        Element.occurrencesIn_cons, hchildren, Element.occurrencesIn_nil, List.nil_append,
        listedIn_cons, followedBy_assoc]
  | @element element elements tag closing inner tokens hshows _ _ _ ihinner ih =>
      have hpath : String.ofList tag.name :: ancestors.reverse =
          (ancestors ++ [element.tag]).reverse := by
        rw [hshows.ofList_name, List.reverse_append, List.reverse_singleton,
          List.singleton_append]
      have hclosed : readFrom ⟨(ancestors ++ [element.tag]).reverse, true⟩
          (.item (.closing closing) (.prepend tokens rest)) =
          readFrom ⟨ancestors.reverse, true⟩ (.prepend tokens rest) := by
        rw [readFrom, ← hpath, List.tail_cons]
      rw [Reading.prepend_cons, Reading.prepend_append, Reading.prepend_cons, readFrom_opening_eq,
        listed?_of_shows hshows hroot, hpath, ihinner (by simp), hclosed, ih hroot,
        Element.occurrencesIn_cons, listedIn_cons, listedIn_append, followedBy_assoc,
        followedBy_assoc]

/-- The root lists nothing itself, and after it nothing is open. -/
theorem read_of_spells {root : Element} {text : String} {tokens : List Token}
    (hread : Xml.read text = .prepend tokens .done) (hspells : Spells [root] tokens)
    (htag : root.tag = "resources") : read text = listedIn (root.occurrences []) := by
  have hnone : listedIn (root.occurrences []) =
      listedIn (Element.occurrencesIn ["resources"] root.children) := by
    rw [Element.occurrences_eq, htag, listedIn, listedIn, List.filter_cons_of_neg]
    · rfl
    · simp [IsListed, itemAncestors]
  rw [read, hread, hnone]
  cases hspells with
  | @single _ _ tag _ hshows hchildren hrest =>
      cases hrest
      have hname : String.ofList tag.name = "resources" := hshows.ofList_name.trans htag
      rw [Reading.prepend_cons, readFrom_single_eq, listed?_start hname, hchildren]
      rfl
  | @element _ _ tag closing inner _ hshows hinner _ hrest =>
      cases hrest
      have hname : String.ofList tag.name = "resources" := hshows.ofList_name.trans htag
      have hinside := readFrom_of_spells hinner (List.cons_ne_nil "resources" [])
        (.item (.closing closing) .done)
      rw [Reading.prepend_cons, Reading.prepend_append, readFrom_opening_eq, listed?_start hname,
        hname]
      show followedBy (.ok []) (readFrom ⟨["resources"].reverse, true⟩ _) = _
      rw [nil_followedBy, Reading.prepend_cons, Reading.prepend_nil, hinside]
      exact followedBy_nil _

/-- However a tree with the root `resources` is written, its listing is that of the items in a
policy in an overlayable in the root, in the order of the document and with repetitions. The
first of them without a type or a name is a fault, and no other element needs any attribute. -/
theorem read_eq_listedIn {root : Element} {text : String}
    (hwrites : WritesDocument root text.toList) (htag : root.tag = "resources") :
    read text = listedIn (root.occurrences []) := by
  obtain ⟨tokens, hread, hspells⟩ := hwrites.read_eq
  exact read_of_spells hread hspells htag

theorem read_eq_listedIn_mixedRoot :
    Element.mixedRoot.tag = "resources" ∧
      WritesDocument Element.mixedRoot Element.mixedRoot.written ∧
      read (String.ofList Element.mixedRoot.written) = .ok [⟨"id", " @+id/row"⟩] := by
  have hwrites := Element.mixedRoot.writesDocument_written
  refine ⟨rfl, hwrites, ?_⟩
  rw [← String.toList_ofList (l := Element.mixedRoot.written)] at hwrites
  rw [read_eq_listedIn hwrites rfl]
  decide

end OverlayManifest.Document.Listing
