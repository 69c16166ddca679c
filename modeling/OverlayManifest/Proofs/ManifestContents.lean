/-
# What a rendered manifest says

A rendered manifest is a listing of exactly its resources, in ascending order. It
is also a values document without declarations, because an overlayable declares
nothing. Read as a layout it creates the ids that its own texts happen to spell.
-/

import OverlayManifest.Proofs.ReadingSteps
import OverlayManifest.Proofs.RenderedManifest

namespace OverlayManifest

open Xml Document

/-- A written attribute is there when it is required. -/
theorem Document.required_written {name : List Char} {attributes : List (String × String)}
    (h : IsWritten name attributes) {key value : String} (hkey : attributes.lookup key = some value) :
    required (Tag.written name attributes) key = .ok value := by
  rw [required, h.attribute?_eq, hkey]

/-- The ids that a written tag creates are those its values create. -/
theorem Document.Ids.created_written {name : List Char} {attributes : List (String × String)}
    (h : IsWritten name attributes) :
    Ids.created (Tag.written name attributes).attributes =
      .ok (Ids.createdIn (attributes.map Prod.snd)) := by
  rw [h.attributes_eq, Ids.created_of_writes (writes_readBack attributes)]

namespace Manifest

variable {rest : Reading Xml.Fault Token}

theorem name_rootTag : String.ofList rootTag.name = "resources" := String.ofList_toList

theorem name_overlayableTag (name : String) :
    String.ofList (overlayableTag name).name = "overlayable" := String.ofList_toList

theorem name_policyTag (policy : String) : String.ofList (policyTag policy).name = "policy" :=
  String.ofList_toList

theorem name_itemTag (resource : Resource) : String.ofList (itemTag resource).name = "item" :=
  String.ofList_toList

/-- The tokens of a document: the root around the overlayable around the policy. -/
theorem prepend_tokens (manifest : Manifest) :
    .prepend manifest.tokens .done =
      (.item (.opening rootTag) (.item (.opening (overlayableTag manifest.overlayable))
        (.prepend (policyTokens manifest.policy manifest.resources.toList)
          (.item (.closing (overlayableTag manifest.overlayable).name)
            (.item (.closing rootTag.name) .done)))) : Reading Xml.Fault Token) := by
  simp [tokens]

/-! ## As a listing -/

section Listing

open Listing

/-- An item of the policy lists its resource. -/
theorem listed?_itemTag (resource : Resource) :
    listed? ⟨itemPath, true⟩ (itemTag resource) = .ok (some resource) :=
  listed?_item (name_itemTag resource)
    (required_written (isWritten_item resource) rfl)
    (required_written (isWritten_item resource) rfl)

/-- The items of the policy list their resources, before what follows them. -/
theorem listing_items (resources : List Resource) :
    readFrom ⟨itemPath, true⟩ (.prepend (resources.map (Token.single ∘ itemTag)) rest) =
      (readFrom ⟨itemPath, true⟩ rest).map (resources ++ ·) := by
  induction resources with
  | nil => cases hrest : readFrom ⟨itemPath, true⟩ rest <;> simp [hrest, Except.map]
  | cons resource resources ih =>
      rw [List.map_cons, Reading.prepend_cons, Function.comp_apply,
        readFrom_single (listed?_itemTag resource), ih]
      cases readFrom ⟨itemPath, true⟩ rest <;> rfl

/-- The policy lists its resources, before what follows it. -/
theorem listing_policyTokens (policy : String) (resources : List Resource) :
    readFrom ⟨["overlayable", "resources"], true⟩
        (.prepend (policyTokens policy resources) rest) =
      (readFrom ⟨["overlayable", "resources"], true⟩ rest).map (resources ++ ·) := by
  have houtside : listed? ⟨["overlayable", "resources"], true⟩ (policyTag policy) = .ok none :=
    listed?_eq_none (by simp) (by rw [name_policyTag]; decide)
  cases resources with
  | nil =>
      rw [policyTokens, Reading.prepend_cons, Reading.prepend_nil, readFrom_single houtside]
      rfl
  | cons resource resources =>
      rw [policyTokens, Reading.prepend_cons, Reading.prepend_append, readFrom_opening houtside,
        name_policyTag, ← itemPath, listing_items, Reading.prepend_cons, Reading.prepend_nil,
        readFrom]
      cases hrest : readFrom ⟨itemPath.tail, true⟩ rest <;>
        simp_all [itemPath, Except.map]

/-- A rendered manifest lists exactly its resources, in ascending order. -/
theorem read_listing (manifest : Manifest) :
    Listing.read manifest.render = .ok manifest.resources.toList := by
  have hoverlayable : listed? ⟨["resources"], true⟩ (overlayableTag manifest.overlayable) =
      .ok none := listed?_eq_none (by simp) (by rw [name_overlayableTag]; decide)
  rw [Listing.read, read_render, prepend_tokens, readFrom_opening (listed?_start name_rootTag),
    name_rootTag, State.start, readFrom_opening hoverlayable, name_overlayableTag,
    listing_policyTokens]
  simp [readFrom, Except.map]

end Listing

/-! ## As a values document -/

section Values

open Values

/-- The policy of an overlayable declares nothing. -/
theorem values_policyTokens (policy : String) (resources : List Resource) :
    readFrom ⟨2, true, false⟩ (.prepend (policyTokens policy resources) rest) =
      readFrom ⟨2, true, false⟩ rest := by
  have hitems (resources : List Resource) (rest : Reading Xml.Fault Token) :
      readFrom ⟨3, true, false⟩ (.prepend (resources.map (Token.single ∘ itemTag)) rest) =
        readFrom ⟨3, true, false⟩ rest := by
    induction resources with
    | nil => rfl
    | cons resource resources ih =>
        rw [List.map_cons, Reading.prepend_cons, Function.comp_apply,
          readFrom_single (enter_below (by decide) true), ih]
        cases readFrom ⟨3, true, false⟩ rest <;> rfl
  cases resources with
  | nil =>
      rw [policyTokens, Reading.prepend_cons, Reading.prepend_nil,
        readFrom_single (enter_below (by decide) true)]
      cases readFrom ⟨2, true, false⟩ rest <;> rfl
  | cons resource resources =>
      rw [policyTokens, Reading.prepend_cons, Reading.prepend_append,
        readFrom_opening (enter_below (by decide) false)]
      rw [State.descend, hitems, Reading.prepend_cons, Reading.prepend_nil, readFrom]
      show (readFrom ⟨2, true, false⟩ rest).map _ = _
      cases readFrom ⟨2, true, false⟩ rest <;> rfl

/-- A rendered manifest declares nothing. -/
theorem read_values (manifest : Manifest) : Values.read manifest.render = .ok [] := by
  have hsilent : String.ofList (overlayableTag manifest.overlayable).name ∈ silentTags := by
    rw [name_overlayableTag]
    decide
  rw [Values.read, read_render, prepend_tokens, readFrom_opening (enter_start name_rootTag false),
    State.descend, readFrom_opening (enter_silent hsilent false false), State.descend,
    values_policyTokens]
  rfl

end Values

/-! ## As a document that creates ids -/

section Ids

open Ids

/-- The texts that stand in attributes of the document, in order. -/
def writtenTexts (manifest : Manifest) : List String :=
  [manifest.overlayable, manifest.policy] ++
    manifest.resources.toList.flatMap fun resource => [resource.type, resource.name]

/-- The items of the policy create the ids that their types and names spell. -/
theorem ids_items (depth : Nat) (resources : List Resource) :
    readFrom depth (.prepend (resources.map (Token.single ∘ itemTag)) rest) =
      (readFrom depth rest).map
        (createdIn (resources.flatMap fun resource => [resource.type, resource.name]) ++ ·) := by
  induction resources with
  | nil => cases hrest : readFrom depth rest <;> simp [hrest, Except.map, createdIn]
  | cons resource resources ih =>
      rw [List.map_cons, Reading.prepend_cons, Function.comp_apply, itemTag,
        readFrom_single (created_written (isWritten_item resource)), ih, List.flatMap_cons,
        createdIn_append]
      cases readFrom depth rest <;> simp [Except.map]

/-- The policy creates the ids that its texts spell. -/
theorem ids_policyTokens (depth : Nat) (policy : String) (resources : List Resource) :
    readFrom depth (.prepend (policyTokens policy resources) rest) =
      (readFrom depth rest).map (createdIn ([policy] ++
        resources.flatMap fun resource => [resource.type, resource.name]) ++ ·) := by
  have hpolicy := created_written (isWritten_policy policy)
  cases resources with
  | nil =>
      rw [policyTokens, Reading.prepend_cons, Reading.prepend_nil, policyTag,
        readFrom_single hpolicy]
      rfl
  | cons resource resources =>
      rw [policyTokens, Reading.prepend_cons, Reading.prepend_append, policyTag,
        readFrom_opening hpolicy, ids_items, Reading.prepend_cons, Reading.prepend_nil, readFrom,
        createdIn_append]
      cases hrest : readFrom (depth + 1 - 1) rest <;> simp_all [Except.map]

/-- A rendered manifest creates the ids that its texts spell. -/
theorem read_ids (manifest : Manifest) :
    Ids.read manifest.render = .ok (createdIn manifest.writtenTexts) := by
  have hoverlayable := created_written (isWritten_overlayable manifest.overlayable)
  rw [Ids.read, read_render, prepend_tokens, rootTag, readFrom_opening
    (created_written isWritten_root), overlayableTag, readFrom_opening hoverlayable,
    ids_policyTokens]
  simp [readFrom, Except.map, writtenTexts, createdIn]

end Ids

end Manifest

end OverlayManifest
