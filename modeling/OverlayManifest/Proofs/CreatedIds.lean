/-
# The ids that a document creates

A value creates an id if, without the white space around it, it is `@+id/` and a name of
letters, digits, underscores and dots. A document creates the ids of its values, whatever its
elements are: those of an element before those of the elements in it, and those of an element
in the order of its attributes.
-/

import OverlayManifest.Proofs.ReadElements
import OverlayManifest.Proofs.ReadingSteps

namespace OverlayManifest.Document.Ids

open Xml

/-! ## Values -/

/-- A character that the name of an id may have. -/
def IsIdChar (c : Char) : Prop :=
  ('A' ≤ c ∧ c ≤ 'Z') ∨ ('a' ≤ c ∧ c ≤ 'z') ∨ ('0' ≤ c ∧ c ≤ '9') ∨ c = '_' ∨ c = '.'

/-- The name of an id. -/
def IsIdName (name : String) : Prop := name.toList ≠ [] ∧ ∀ c ∈ name.toList, IsIdChar c

/-- A value that creates the id with a name. -/
def CreatesId (value name : String) : Prop :=
  IsIdName name ∧ ∃ before after : List Char,
    value.toList = before ++ ("@+id/".toList ++ name.toList ++ after) ∧
      before.all Text.isSpace = true ∧ after.all Text.isSpace = true

theorem isNameChar_iff {c : Char} : isNameChar c = true ↔ IsIdChar c := by
  have hupper : c.isUpper = true ↔ 'A' ≤ c ∧ c ≤ 'Z' := decide_eq_true_iff
  have hlower : c.isLower = true ↔ 'a' ≤ c ∧ c ≤ 'z' :=
    Bool.and_eq_true_iff.trans (and_congr decide_eq_true_iff decide_eq_true_iff)
  have hdigit : c.isDigit = true ↔ '0' ≤ c ∧ c ≤ '9' := Char.isDigit_iff_toNat
  have hchar : isNameChar c = (c.isUpper || c.isLower || c.isDigit || c == '_' || c == '.') := rfl
  simp only [hchar, Bool.or_eq_true, beq_iff_eq, hupper, hlower, hdigit, IsIdChar, or_assoc]

theorem isSpace_of_isIdChar {c : Char} (h : IsIdChar c) : Text.isSpace c = false := by
  have hrange : (65 ≤ c.toNat ∧ c.toNat ≤ 90) ∨ (97 ≤ c.toNat ∧ c.toNat ≤ 122) ∨
      (48 ≤ c.toNat ∧ c.toNat ≤ 57) ∨ c.toNat = 95 ∨ c.toNat = 46 := by
    rcases h with h | h | h | rfl | rfl
    · exact .inl h
    · exact .inr (.inl h)
    · exact .inr (.inr (.inl h))
    · exact .inr (.inr (.inr (.inl rfl)))
    · exact .inr (.inr (.inr (.inr rfl)))
  simp only [Text.isSpace, Text.spaceRanges, List.any_cons, List.any_nil, Bool.or_false,
    Bool.or_eq_false_iff, Bool.and_eq_false_iff, decide_eq_false_iff_not]
  omega

/-- Neither the marker nor a name has white space in it. -/
theorem isSpace_of_mem_created {name : String} (hname : IsIdName name) :
    ∀ c ∈ marker ++ name.toList, Text.isSpace c = false := by
  intro c hc
  rcases List.mem_append.mp hc with hc | hc
  · have hmarker : marker.all (!Text.isSpace ·) = true := by decide
    simpa using List.all_eq_true.mp hmarker c hc
  · exact isSpace_of_isIdChar (hname.2 c hc)

/-- A value that creates an id is recognised, and no other value is. -/
theorem createdName?_eq_some_iff {value name : String} :
    createdName? value = some name ↔ CreatesId value name := by
  constructor
  · intro h
    obtain ⟨before, after, hvalue, hbefore, hafter⟩ := Text.exists_trim Text.isSpace value.toList
    rw [createdName?] at h
    split at h
    · rename_i hfound
      simp only [Bool.and_eq_true, Bool.not_eq_true', List.isEmpty_eq_false_iff,
        List.all_eq_true, List.isPrefixOf_iff_prefix] at hfound
      obtain ⟨⟨⟨found, hfound⟩, hsome⟩, hchars⟩ := hfound
      rw [← hfound, List.drop_left] at hsome hchars h
      cases h
      rw [← hfound] at hvalue
      refine ⟨⟨?_, fun c hc => ?_⟩, before, after, ?_, hbefore, hafter⟩
      · rwa [String.toList_ofList]
      · rw [String.toList_ofList] at hc
        exact isNameChar_iff.mp (hchars c hc)
      · show value.toList = before ++ (marker ++ (String.ofList found).toList ++ after)
        rw [hvalue, String.toList_ofList]
    · cases h
  · rintro ⟨hname, before, after, hvalue, hbefore, hafter⟩
    have hsome : marker ++ name.toList ≠ [] := List.append_ne_nil_of_right_ne_nil _ hname.1
    have htrim : Text.trim Text.isSpace value.toList = marker ++ name.toList := by
      rw [hvalue]
      exact Text.trim_append hsome hbefore (isSpace_of_mem_created hname) hafter
    have hchars : name.toList.all isNameChar = true :=
      List.all_eq_true.mpr fun c hc => isNameChar_iff.mpr (hname.2 c hc)
    have hprefix : marker.isPrefixOf (marker ++ name.toList) = true :=
      List.isPrefixOf_iff_prefix.mpr (List.prefix_append _ _)
    have hfull : name.toList.isEmpty = false := by simpa using hname.1
    rw [createdName?, htrim, List.drop_left]
    simp only [hchars, hprefix, hfull, String.ofList_toList]
    rfl

/-- Values with the ids they create: each value that creates an id gives it, in order, and the
others give none. -/
inductive Collects : List String → List Resource → Prop
  | nil : Collects [] []
  | creates {value name : String} {values : List String} {ids : List Resource}
      (hcreates : CreatesId value name) (hrest : Collects values ids) :
      Collects (value :: values) (⟨"id", name⟩ :: ids)
  | passes {value : String} {values : List String} {ids : List Resource}
      (hnone : ∀ name, ¬ CreatesId value name) (hrest : Collects values ids) :
      Collects (value :: values) ids

theorem collects_createdIn (values : List String) : Collects values (createdIn values) := by
  induction values with
  | nil => exact .nil
  | cons value values ih =>
      have hcons : createdIn (value :: values) =
          ((createdName? value).map (Resource.mk "id")).toList ++ createdIn values :=
        List.flatMap_cons
      rw [hcons]
      cases hcreated : createdName? value with
      | none =>
          refine .passes (fun name hcreates => ?_) ih
          rw [createdName?_eq_some_iff.mpr hcreates] at hcreated
          cases hcreated
      | some name => exact .creates (createdName?_eq_some_iff.mp hcreated) ih

/-- Whatever is collected is an id with a name. -/
theorem Collects.isId {values : List String} {ids : List Resource} (h : Collects values ids) :
    ∀ id ∈ ids, id.type = "id" ∧ IsIdName id.name := by
  induction h with
  | nil => simp
  | creates hcreates _ ih =>
      intro id hid
      rcases List.mem_cons.mp hid with rfl | hid
      · exact ⟨rfl, hcreates.1⟩
      · exact ih id hid
  | passes _ _ ih => exact ih

/-! ## Documents -/

/-- The values of some elements, in order. -/
def valuesIn (occurrences : List (List String × Element)) : List String :=
  occurrences.flatMap fun occurrence => occurrence.2.attributes.map Prod.snd

theorem valuesIn_cons (occurrence : List String × Element)
    (later : List (List String × Element)) :
    valuesIn (occurrence :: later) =
      occurrence.2.attributes.map Prod.snd ++ valuesIn later := List.flatMap_cons

theorem valuesIn_append (first later : List (List String × Element)) :
    valuesIn (first ++ later) = valuesIn first ++ valuesIn later := List.flatMap_append

theorem ok_createdIn_append (first later : List String) :
    .ok (createdIn (first ++ later)) =
      followedBy (.ok (createdIn first)) (.ok (createdIn later)) := by
  rw [createdIn_append]
  rfl

theorem created_of_shows {tag : Tag} {element : Element} (h : tag.Shows element) :
    created tag.attributes = .ok (createdIn (element.attributes.map Prod.snd)) := by
  obtain ⟨written, hwrites, hread⟩ := h.attributes_eq
  rw [hread, created_of_writes hwrites]

/-- Reading the tags of some elements creates the ids of the values in these elements. -/
theorem readFrom_of_spells {elements : List Element} {tokens : List Token}
    (h : Spells elements tokens) (ancestors : List String) (depth : Nat)
    (rest : Reading Xml.Fault Token) :
    readFrom depth (.prepend tokens rest) =
      followedBy (.ok (createdIn (valuesIn (Element.occurrencesIn ancestors elements))))
        (readFrom depth rest) := by
  induction h generalizing ancestors depth rest with
  | nil => exact (nil_followedBy _).symm
  | @single element elements tag tokens hshows hchildren _ ih =>
      rw [Reading.prepend_cons, readFrom_single (created_of_shows hshows), ← ok_followedBy,
        ih ancestors, Element.occurrencesIn_cons, hchildren, Element.occurrencesIn_nil,
        List.nil_append, valuesIn_cons, ok_createdIn_append, followedBy_assoc]
  | @element element elements tag closing inner tokens hshows _ _ _ ihinner ih =>
      rw [Reading.prepend_cons, Reading.prepend_append, Reading.prepend_cons,
        readFrom_opening (created_of_shows hshows), ← ok_followedBy,
        ihinner (ancestors ++ [element.tag]), readFrom, Nat.add_sub_cancel, ih ancestors,
        Element.occurrencesIn_cons, valuesIn_cons, valuesIn_append, ok_createdIn_append,
        ok_createdIn_append, followedBy_assoc, followedBy_assoc]

theorem read_of_spells {root : Element} {text : String} {tokens : List Token}
    (hread : Xml.read text = .prepend tokens .done) (hspells : Spells [root] tokens) :
    read text = .ok (createdIn (valuesIn (root.occurrences []))) := by
  have hroot : Element.occurrencesIn [] [root] = root.occurrences [] := List.append_nil _
  rw [read, hread, readFrom_of_spells hspells [], hroot]
  exact followedBy_nil _

/-- However a tree is written, its document creates the ids of its values: in the order of the
document, a parent before its children, in the order of the attributes and with repetitions.
Nothing is wrong with it. -/
theorem read_collects {root : Element} {text : String}
    (hwrites : WritesDocument root text.toList) :
    ∃ ids, read text = .ok ids ∧ Collects (valuesIn (root.occurrences [])) ids ∧
      ∀ id ∈ ids, id.type = "id" ∧ IsIdName id.name := by
  obtain ⟨tokens, hread, hspells⟩ := hwrites.read_eq
  have hcollects := collects_createdIn (valuesIn (root.occurrences []))
  exact ⟨_, read_of_spells hread hspells, hcollects, hcollects.isId⟩

theorem read_collects_mixedRoot :
    WritesDocument Element.mixedRoot Element.mixedRoot.written ∧
      ∃ ids, read (String.ofList Element.mixedRoot.written) = .ok ids ∧
        Collects ["id", "a < b", "Card", "size", "android:text", " @+id/row", "id"] ids := by
  have hwrites := Element.mixedRoot.writesDocument_written
  refine ⟨hwrites, ?_⟩
  rw [← String.toList_ofList (l := Element.mixedRoot.written)] at hwrites
  obtain ⟨ids, hread, hcollects, -⟩ := read_collects hwrites
  exact ⟨ids, hread, hcollects⟩

end OverlayManifest.Document.Ids
