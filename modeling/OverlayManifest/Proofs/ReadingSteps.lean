/-
# One tag at a time

Each reader of documents takes a tag, which may give it resources and says where
the reader stands after it, and goes on with the rest. What the rest gives comes
after what the tag gave; a fault in a tag is a fault of the document.
-/

import OverlayManifest.Document.Ids
import OverlayManifest.Document.Listing
import OverlayManifest.Document.Values
import OverlayManifest.Proofs.WrittenTag

namespace OverlayManifest.Document

open Xml

variable {tag : Tag} {rest : Reading Xml.Fault Token}

/-- One step after another gives a result if both do. -/
theorem bind_eq_ok_iff {α β : Type} {first : Except Fault α} {next : α → Except Fault β}
    {result : β} :
    first >>= next = .ok result ↔ ∃ value, first = .ok value ∧ next value = .ok result := by
  cases first with
  | error fault => simp [bind, Except.bind]
  | ok value => simp [bind, Except.bind]

theorem bind_eq_error_iff {α β : Type} {first : Except Fault α} {next : α → Except Fault β}
    {fault : Fault} : first >>= next = .error fault ↔
      first = .error fault ∨ ∃ value, first = .ok value ∧ next value = .error fault := by
  cases first with
  | error other => simp [bind, Except.bind]
  | ok value => simp [bind, Except.bind]

theorem map_eq_ok_iff {α β : Type} {first : Except Fault α} {f : α → β} {result : β} :
    first.map f = .ok result ↔ ∃ value, first = .ok value ∧ f value = result := by
  cases first with
  | error fault => simp [Except.map]
  | ok value => simp [Except.map]

/-- What is found first, and after it what is found later, unless there is a fault. -/
def followedBy (first later : Except Fault (List Resource)) : Except Fault (List Resource) := do
  let found ← first
  let others ← later
  return found ++ others

theorem error_followedBy (fault : Fault) (later : Except Fault (List Resource)) :
    followedBy (.error fault) later = .error fault := rfl

theorem ok_followedBy (found : List Resource) (later : Except Fault (List Resource)) :
    followedBy (.ok found) later = later.map (found ++ ·) := by
  cases later <;> rfl

@[simp]
theorem nil_followedBy (later : Except Fault (List Resource)) :
    followedBy (.ok []) later = later := by
  cases later <;> rfl

@[simp]
theorem followedBy_nil (first : Except Fault (List Resource)) :
    followedBy first (.ok []) = first := by
  cases first with
  | error fault => rfl
  | ok found => rw [ok_followedBy, Except.map, List.append_nil]

theorem followedBy_assoc (first second later : Except Fault (List Resource)) :
    followedBy (followedBy first second) later = followedBy first (followedBy second later) := by
  cases first with
  | error fault => rfl
  | ok found =>
      cases second with
      | error fault => rfl
      | ok others =>
          rw [ok_followedBy, ok_followedBy, ok_followedBy, Except.map, ok_followedBy]
          cases later with
          | error fault => rfl
          | ok more => simp [Except.map]

namespace Listing

variable {state : State} {found : Option Resource}

theorem readFrom_opening_eq (state : State) (tag : Tag) (rest : Reading Xml.Fault Token) :
    readFrom state (.item (.opening tag) rest) =
      followedBy ((listed? state tag).map Option.toList)
        (readFrom ⟨String.ofList tag.name :: state.path, true⟩ rest) := by
  rw [readFrom]
  cases listed? state tag <;> rfl

theorem readFrom_single_eq (state : State) (tag : Tag) (rest : Reading Xml.Fault Token) :
    readFrom state (.item (.single tag) rest) =
      followedBy ((listed? state tag).map Option.toList) (readFrom ⟨state.path, true⟩ rest) := by
  rw [readFrom]
  cases listed? state tag <;> rfl

theorem readFrom_opening (h : listed? state tag = .ok found) :
    readFrom state (.item (.opening tag) rest) =
      (readFrom ⟨String.ofList tag.name :: state.path, true⟩ rest).map (found.toList ++ ·) := by
  rw [readFrom_opening_eq, h]
  exact ok_followedBy _ _

theorem readFrom_single (h : listed? state tag = .ok found) :
    readFrom state (.item (.single tag) rest) =
      (readFrom ⟨state.path, true⟩ rest).map (found.toList ++ ·) := by
  rw [readFrom_single_eq, h]
  exact ok_followedBy _ _

/-- What a token lists, and where the reader stands after it. -/
def step (state : State) : Token → Except Fault (Option Resource × State)
  | .opening tag => (listed? state tag).map (·, ⟨String.ofList tag.name :: state.path, true⟩)
  | .single tag => (listed? state tag).map (·, ⟨state.path, true⟩)
  | .closing _ => .ok (none, ⟨state.path.tail, state.rootSeen⟩)

/-- Where a token is no fault, the rest is read where it leaves the reader. -/
theorem readFrom_item (state : State) (token : Token) (rest : Reading Xml.Fault Token) :
    readFrom state (.item token rest) = step state token >>= fun stepped =>
      (readFrom stepped.2 rest).map (stepped.1.toList ++ ·) := by
  cases token with
  | opening tag =>
      rw [readFrom_opening_eq, step]
      cases listed? state tag with
      | error fault => rfl
      | ok found => exact ok_followedBy _ _
  | single tag =>
      rw [readFrom_single_eq, step]
      cases listed? state tag with
      | error fault => rfl
      | ok found => exact ok_followedBy _ _
  | closing text =>
      rw [← nil_followedBy (readFrom state _), ok_followedBy]
      rfl

/-- Inside the root only items list something. -/
theorem listed?_eq_none {path : List String} (hpath : path ≠ [])
    (hitem : String.ofList tag.name ≠ "item") : listed? ⟨path, true⟩ tag = .ok none := by
  have hempty : path.isEmpty = false := by simpa using hpath
  simp [listed?, checkRoot, hempty, hitem, bind, Except.bind, pure, Except.pure]

/-- The root lists nothing. -/
theorem listed?_start (h : String.ofList tag.name = "resources") :
    listed? .start tag = .ok none := by
  simp [listed?, checkRoot, State.start, h, bind, Except.bind, pure, Except.pure]

/-- An item in a policy lists what its attributes name. -/
theorem listed?_item {type name : String} (h : String.ofList tag.name = "item")
    (htype : required tag "type" = .ok type) (hname : required tag "name" = .ok name) :
    listed? ⟨itemPath, true⟩ tag = .ok (some ⟨type, name⟩) := by
  simp [listed?, checkRoot, itemPath, h, htype, hname, bind, Except.bind, pure, Except.pure]

end Listing

namespace Values

variable {state after : State} {found : Option Resource}

theorem readFrom_opening_eq {declared : Except Fault (Option Resource)}
    (h : state.enter tag false = declared.map (·, after)) :
    readFrom state (.item (.opening tag) rest) =
      followedBy (declared.map Option.toList) (readFrom after.descend rest) := by
  rw [readFrom, h]
  cases declared <;> rfl

theorem readFrom_single_eq {declared : Except Fault (Option Resource)}
    (h : state.enter tag true = declared.map (·, after)) :
    readFrom state (.item (.single tag) rest) =
      followedBy (declared.map Option.toList) (readFrom after rest) := by
  rw [readFrom, h]
  cases declared <;> rfl

/-- A tag with a fault ends the reading. -/
theorem readFrom_opening_of_error {fault : Fault} (h : state.enter tag false = .error fault) :
    readFrom state (.item (.opening tag) rest) = .error fault := by
  rw [readFrom, h]
  rfl

theorem readFrom_single_of_error {fault : Fault} (h : state.enter tag true = .error fault) :
    readFrom state (.item (.single tag) rest) = .error fault := by
  rw [readFrom, h]
  rfl

theorem readFrom_opening (h : state.enter tag false = .ok (found, after)) :
    readFrom state (.item (.opening tag) rest) =
      (readFrom after.descend rest).map (found.toList ++ ·) := by
  rw [readFrom_opening_eq (show _ = Except.map (·, after) (.ok found) from h)]
  exact ok_followedBy _ _

theorem readFrom_single (h : state.enter tag true = .ok (found, after)) :
    readFrom state (.item (.single tag) rest) =
      (readFrom after rest).map (found.toList ++ ·) := by
  rw [readFrom_single_eq (show _ = Except.map (·, after) (.ok found) from h)]
  exact ok_followedBy _ _

/-- What a token declares, and where the reader stands after it. -/
def step (state : State) : Token → Except Fault (Option Resource × State)
  | .opening tag => (state.enter tag false).map fun entered => (entered.1, entered.2.descend)
  | .single tag => state.enter tag true
  | .closing _ => .ok (none, state.ascend)

/-- Where a token is no fault, the rest is read where it leaves the reader. -/
theorem readFrom_item (state : State) (token : Token) (rest : Reading Xml.Fault Token) :
    readFrom state (.item token rest) = step state token >>= fun stepped =>
      (readFrom stepped.2 rest).map (stepped.1.toList ++ ·) := by
  cases token with
  | opening tag =>
      rw [step]
      cases henter : state.enter tag false with
      | error fault => exact readFrom_opening_of_error henter
      | ok entered => exact readFrom_opening henter
  | single tag =>
      rw [step]
      cases henter : state.enter tag true with
      | error fault => exact readFrom_single_of_error henter
      | ok entered => exact readFrom_single henter
  | closing text =>
      rw [← nil_followedBy (readFrom state _), ok_followedBy]
      rfl

/-- The root declares nothing. -/
theorem enter_start (h : String.ofList tag.name = "resources") (single : Bool) :
    State.start.enter tag single = .ok (none, ⟨0, true, false⟩) := by
  simp [State.enter, State.start, h]

/-- A silent tag below the root declares nothing. -/
theorem enter_silent (h : String.ofList tag.name ∈ silentTags) (single inStyleable : Bool) :
    State.enter ⟨1, true, inStyleable⟩ tag single = .ok (none, ⟨1, true, inStyleable⟩) := by
  simp [State.enter, declaration?, h, bind, Except.bind, pure, Except.pure]

/-- Nothing below a tag that is no styleable declares anything. -/
theorem enter_below {depth : Nat} (h : 2 ≤ depth) (single : Bool) :
    State.enter ⟨depth, true, false⟩ tag single = .ok (none, ⟨depth, true, false⟩) := by
  match depth, h with
  | 2, _ => rfl
  | _ + 3, _ => rfl

end Values

namespace Ids

variable {depth : Nat} {ids : List Resource}

/-- The ids that texts create, in order. -/
def createdIn (texts : List String) : List Resource :=
  texts.flatMap fun text => ((createdName? text).map (Resource.mk "id")).toList

theorem createdIn_append (first second : List String) :
    createdIn (first ++ second) = createdIn first ++ createdIn second := List.flatMap_append

/-- The ids that written attributes create are those their texts create. -/
theorem created_of_writes {attributes : List (String × String)} {written : List Attribute}
    (h : List.Forall₂ WritesAttribute attributes written) :
    created (.prepend written .done) = .ok (createdIn (attributes.map Prod.snd)) := by
  induction h with
  | nil => rfl
  | @cons pair found attributes written hpair _ ih =>
      rw [Reading.prepend_cons, created, hpair.unescape_eq, ih]
      dsimp only
      rw [String.ofList_toList]
      rfl

theorem readFrom_opening (h : created tag.attributes = .ok ids) :
    readFrom depth (.item (.opening tag) rest) =
      (readFrom (depth + 1) rest).map (ids ++ ·) := by
  rw [readFrom, h]
  cases readFrom (depth + 1) rest <;> rfl

theorem readFrom_single (h : created tag.attributes = .ok ids) :
    readFrom depth (.item (.single tag) rest) = (readFrom depth rest).map (ids ++ ·) := by
  rw [readFrom, h]
  cases readFrom depth rest <;> rfl

end Ids

end OverlayManifest.Document
