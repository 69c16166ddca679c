/-
# What a values document declares

The reader of values documents counts open elements and remembers whether it is in a
styleable. Over the tree this comes to: each element directly below the root declares by
itself, an element of the type `styleable` declares the attributes directly in it as well,
and nothing deeper declares anything. The first attribute that is missing where it is needed
is the fault of the whole document.
-/

import OverlayManifest.Proofs.ReadElements
import OverlayManifest.Proofs.ReadingSteps

namespace OverlayManifest.Document.Values

open Xml

/-! ## Declarations of a tree -/

/-- The type of the resource that an element below the root declares. -/
def typeOf (element : Element) : Except Fault String :=
  if element.tag = "item" then requiredOf element "type"
  else if element.tag ∈ ["string-array", "integer-array", "array"] then .ok "array"
  else if element.tag = "declare-styleable" then .ok "styleable"
  else .ok element.tag

/-- The resource that an element below the root declares for itself, if it declares one. -/
def ownOf (element : Element) : Except Fault (Option Resource) :=
  if element.tag ∈ silentTags then .ok none
  else do
    let type ← typeOf element
    let name ← requiredOf element "name"
    return some ⟨type, name⟩

/-- The attribute that an element directly in a styleable declares, if it declares one. -/
def attributeOf (element : Element) : Except Fault (Option Resource) :=
  if element.tag = "attr" then do
    let name ← requiredOf element "name"
    return if ':' ∈ name.toList then none else some ⟨"attr", name⟩
  else .ok none

/-- The resources that some elements declare, one element after another, or the first fault. -/
def gather (declares : Element → Except Fault (List Resource)) (elements : List Element) :
    Except Fault (List Resource) :=
  (elements.mapM declares).map List.flatten

/-- The attributes that are declared in an element that itself declares a given resource. -/
def attributesIn (resource : Resource) (element : Element) : Except Fault (List Resource) :=
  if resource.type = "styleable" then
    gather (fun child => (attributeOf child).map Option.toList) element.children
  else .ok []

/-- The resources that an element below the root declares with what is in it. -/
def declaredBy (element : Element) : Except Fault (List Resource) := do
  match ← ownOf element with
  | none => return []
  | some resource =>
      let attributes ← attributesIn resource element
      return resource :: attributes

theorem gather_nil (declares : Element → Except Fault (List Resource)) :
    gather declares [] = .ok [] := rfl

theorem gather_cons (declares : Element → Except Fault (List Resource)) (element : Element)
    (elements : List Element) :
    gather declares (element :: elements) =
      followedBy (declares element) (gather declares elements) := by
  rw [gather, gather, List.mapM_cons]
  cases declares element with
  | error fault => rfl
  | ok found => cases elements.mapM declares <;> rfl

theorem declaredBy_of_none {element : Element} (hown : ownOf element = .ok none) :
    declaredBy element = .ok [] := by
  rw [declaredBy, hown]
  rfl

theorem declaredBy_of_some {element : Element} {resource : Resource}
    (hown : ownOf element = .ok (some resource)) :
    declaredBy element = followedBy (.ok [resource]) (attributesIn resource element) := by
  rw [declaredBy, hown]
  show (attributesIn resource element).bind (fun attributes => .ok (resource :: attributes)) = _
  cases attributesIn resource element <;> rfl

theorem declaredBy_of_error {element : Element} {fault : Fault}
    (hown : ownOf element = .error fault) : declaredBy element = .error fault := by
  rw [declaredBy, hown]
  rfl

/-- Without children there are no attributes in an element. -/
theorem attributesIn_of_childless {element : Element} (hchildren : element.children = [])
    (resource : Resource) : attributesIn resource element = .ok [] := by
  rw [attributesIn, hchildren, gather_nil, ite_self]

/-! ## What the reader finds at a tag -/

section Tags

variable {tag : Tag} {element : Element}

theorem declaredType_of_shows (h : tag.Shows element) : declaredType tag = typeOf element := by
  rw [declaredType, h.ofList_name, typeOf, required_of_shows h]
  split
  case h_1 hitem => rw [if_pos hitem]
  all_goals simp_all

theorem declaration?_of_shows (h : tag.Shows element) : declaration? tag = ownOf element := by
  rw [declaration?, h.ofList_name, ownOf, declaredType_of_shows h, required_of_shows h]

theorem styleableAttribute?_of_shows (h : tag.Shows element) :
    styleableAttribute? tag = attributeOf element := by
  rw [styleableAttribute?, h.ofList_name, attributeOf, required_of_shows h]

/-- Outside styleables nothing below the children of the root declares anything, and in a
styleable nothing below its children does. -/
theorem enter_deep {depth : Nat} {inStyleable : Bool} (hdeep : 2 ≤ depth)
    (hquiet : depth = 2 → inStyleable = false) (single : Bool) :
    State.enter ⟨depth, true, inStyleable⟩ tag single =
      Except.map (·, ⟨depth, true, inStyleable⟩) (.ok none) := by
  match depth, hdeep with
  | 2, _ =>
      rw [hquiet rfl]
      rfl
  | _ + 3, _ => rfl

/-- Directly in a styleable each tag declares its attribute. -/
theorem enter_styleable (h : tag.Shows element) (single : Bool) :
    State.enter ⟨2, true, true⟩ tag single =
      (attributeOf element).map (·, ⟨2, true, true⟩) := by
  rw [State.enter, styleableAttribute?_of_shows h]
  cases attributeOf element <;> rfl

/-- Below the root a tag that declares nothing leaves the reader as it was. -/
theorem enter_of_ownOf_none (h : tag.Shows element) (hown : ownOf element = .ok none)
    (single : Bool) :
    State.enter ⟨1, true, false⟩ tag single = Except.map (·, ⟨1, true, false⟩) (.ok none) := by
  rw [State.enter, declaration?_of_shows h, hown]
  rfl

/-- Below the root a tag that declares a resource may begin a styleable. -/
theorem enter_of_ownOf_some (h : tag.Shows element) {resource : Resource}
    (hown : ownOf element = .ok (some resource)) (single : Bool) :
    State.enter ⟨1, true, false⟩ tag single =
      Except.map (·, ⟨1, true, !single && resource.type == "styleable"⟩) (.ok (some resource)) := by
  rw [State.enter, declaration?_of_shows h, hown]
  rfl

theorem enter_of_ownOf_error (h : tag.Shows element) {fault : Fault}
    (hown : ownOf element = .error fault) (single : Bool) :
    State.enter ⟨1, true, false⟩ tag single = .error fault := by
  rw [State.enter, declaration?_of_shows h, hown]
  rfl

end Tags

/-! ## What the reader finds in elements -/

section Elements

variable {elements : List Element} {tokens : List Token}

/-- The tags of elements that are too deep are passed over. -/
theorem readFrom_deep (h : Spells elements tokens) {depth : Nat} {inStyleable : Bool}
    (hdeep : 2 ≤ depth) (hquiet : depth = 2 → inStyleable = false)
    (rest : Reading Xml.Fault Token) :
    readFrom ⟨depth, true, inStyleable⟩ (.prepend tokens rest) =
      readFrom ⟨depth, true, inStyleable⟩ rest := by
  induction h generalizing depth rest with
  | nil => rfl
  | single _ _ _ ih =>
      rw [Reading.prepend_cons, readFrom_single_eq (enter_deep hdeep hquiet true)]
      show followedBy (.ok []) _ = _
      rw [nil_followedBy, ih hdeep hquiet]
  | @element _ _ tag closing inner tokens _ _ _ _ ihinner ih =>
      have hclosed : State.ascend ⟨depth + 1, true, inStyleable⟩ = ⟨depth, true, inStyleable⟩ := by
        have hinside : 1 < depth := hdeep
        simp [State.ascend, hinside]
      rw [Reading.prepend_cons, Reading.prepend_append,
        readFrom_opening_eq (enter_deep hdeep hquiet false)]
      show followedBy (.ok []) (readFrom ⟨depth + 1, true, inStyleable⟩ _) = _
      rw [nil_followedBy, ihinner (by omega) (by omega), Reading.prepend_cons, readFrom, hclosed,
        ih hdeep hquiet]

/-- The tags of the elements in a styleable declare their attributes. -/
theorem readFrom_styleable (h : Spells elements tokens) (rest : Reading Xml.Fault Token) :
    readFrom ⟨2, true, true⟩ (.prepend tokens rest) =
      followedBy (gather (fun child => (attributeOf child).map Option.toList) elements)
        (readFrom ⟨2, true, true⟩ rest) := by
  induction h generalizing rest with
  | nil => rw [Reading.prepend_nil, gather_nil, nil_followedBy]
  | single hshows _ _ ih =>
      rw [Reading.prepend_cons, readFrom_single_eq (enter_styleable hshows true), ih, gather_cons,
        followedBy_assoc]
  | @element element elements tag closing inner tokens hshows hinner _ _ _ ih =>
      have hchildren := readFrom_deep hinner (show 2 ≤ 3 by decide)
        (show 3 = 2 → true = false by decide) (.item (.closing closing) (.prepend tokens rest))
      rw [Reading.prepend_cons, Reading.prepend_append, Reading.prepend_cons,
        readFrom_opening_eq (enter_styleable hshows false), State.descend, hchildren, readFrom,
        State.ascend]
      show followedBy _ (readFrom ⟨2, true, true⟩ _) = _
      rw [ih, gather_cons, followedBy_assoc]

/-- The tags in an element that declares a resource declare its attributes, and the closing tag
leads back below the root. -/
theorem readFrom_children {element : Element} {inner : List Token}
    (hinner : Spells element.children inner) (resource : Resource) (closing : List Char)
    (rest : Reading Xml.Fault Token) :
    readFrom ⟨2, true, resource.type == "styleable"⟩
        (.prepend inner (.item (.closing closing) rest)) =
      followedBy (attributesIn resource element) (readFrom ⟨1, true, false⟩ rest) := by
  by_cases htype : resource.type = "styleable"
  · rw [beq_iff_eq.mpr htype, readFrom_styleable hinner, attributesIn, if_pos htype, readFrom]
    rfl
  · rw [beq_false_of_ne htype, readFrom_deep hinner (by decide) (fun _ => rfl), attributesIn,
      if_neg htype, readFrom, nil_followedBy]
    rfl

/-- The tags of the elements below the root declare what the elements declare. -/
theorem readFrom_of_spells (h : Spells elements tokens) (rest : Reading Xml.Fault Token) :
    readFrom ⟨1, true, false⟩ (.prepend tokens rest) =
      followedBy (gather declaredBy elements) (readFrom ⟨1, true, false⟩ rest) := by
  induction h generalizing rest with
  | nil => rw [Reading.prepend_nil, gather_nil, nil_followedBy]
  | @single element elements tag tokens hshows hchildren _ ih =>
      rw [Reading.prepend_cons, gather_cons, followedBy_assoc, ← ih]
      cases hown : ownOf element with
      | error fault =>
          rw [readFrom_single_of_error (enter_of_ownOf_error hshows hown true),
            declaredBy_of_error hown, error_followedBy]
      | ok found =>
          cases found with
          | none =>
              rw [readFrom_single_eq (enter_of_ownOf_none hshows hown true),
                declaredBy_of_none hown]
              rfl
          | some resource =>
              rw [readFrom_single_eq (enter_of_ownOf_some hshows hown true),
                declaredBy_of_some hown, attributesIn_of_childless hchildren, followedBy_nil]
              rfl
  | @element element elements tag closing inner tokens hshows hinner _ _ _ ih =>
      rw [Reading.prepend_cons, Reading.prepend_append, Reading.prepend_cons, gather_cons,
        followedBy_assoc, ← ih]
      cases hown : ownOf element with
      | error fault =>
          rw [readFrom_opening_of_error (enter_of_ownOf_error hshows hown false),
            declaredBy_of_error hown, error_followedBy]
      | ok found =>
          cases found with
          | none =>
              rw [readFrom_opening_eq (enter_of_ownOf_none hshows hown false),
                declaredBy_of_none hown, State.descend,
                readFrom_deep hinner (by decide) (fun _ => rfl), readFrom]
              rfl
          | some resource =>
              rw [readFrom_opening_eq (enter_of_ownOf_some hshows hown false),
                declaredBy_of_some hown, followedBy_assoc, State.descend, Bool.not_false,
                Bool.true_and, readFrom_children hinner]
              rfl

/-- The root declares nothing itself, and after it nothing is open. -/
theorem read_of_spells {root : Element} {text : String} {tokens : List Token}
    (hread : Xml.read text = .prepend tokens .done) (hspells : Spells [root] tokens)
    (htag : root.tag = "resources") : read text = gather declaredBy root.children := by
  rw [read, hread]
  cases hspells with
  | @single _ _ tag _ hshows hchildren hrest =>
      cases hrest
      have hname : String.ofList tag.name = "resources" := hshows.ofList_name.trans htag
      rw [Reading.prepend_cons, readFrom_single (enter_start hname true), hchildren]
      rfl
  | @element _ _ tag closing inner _ hshows hinner _ hrest =>
      cases hrest
      have hname : String.ofList tag.name = "resources" := hshows.ofList_name.trans htag
      have hinside := readFrom_of_spells hinner (.item (.closing closing) .done)
      rw [Reading.prepend_cons, Reading.prepend_append, readFrom_opening (enter_start hname false),
        ← ok_followedBy, State.descend, Reading.prepend_cons, Reading.prepend_nil]
      show followedBy (.ok []) (readFrom ⟨1, true, false⟩ _) = _
      rw [nil_followedBy, hinside]
      exact followedBy_nil _

end Elements

/-- However a tree with the root `resources` is written, its values document declares what the
children of the root declare, in the order of the document and with repetitions: a resource of
the element's own and, in a styleable, the attributes directly in it. The first type or name
that is missing where it is needed is a fault, and no other element needs any attribute. -/
theorem read_eq_declared {root : Element} {text : String}
    (hwrites : WritesDocument root text.toList) (htag : root.tag = "resources") :
    read text = gather declaredBy root.children := by
  obtain ⟨tokens, hread, hspells⟩ := hwrites.read_eq
  exact read_of_spells hread hspells htag

theorem read_eq_declared_mixedRoot :
    Element.mixedRoot.tag = "resources" ∧
      WritesDocument Element.mixedRoot Element.mixedRoot.written ∧
      read (String.ofList Element.mixedRoot.written) =
        .ok [⟨"id", "a < b"⟩, ⟨"styleable", "Card"⟩, ⟨"attr", "size"⟩] := by
  have hwrites := Element.mixedRoot.writesDocument_written
  refine ⟨rfl, hwrites, ?_⟩
  rw [← String.toList_ofList (l := Element.mixedRoot.written)] at hwrites
  rw [read_eq_declared hwrites rfl]
  decide

end OverlayManifest.Document.Values
