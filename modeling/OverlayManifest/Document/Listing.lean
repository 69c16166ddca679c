/-
# Listings

A listing names resources by `item` elements that stand directly in a policy,
in an overlayable, in the root. The generated manifest and the exclusions are
listings.
-/

import OverlayManifest.Document.Fault
import OverlayManifest.Resource

namespace OverlayManifest.Document.Listing

/-- The elements around an item that counts, the innermost first. -/
def itemPath : List String := ["policy", "overlayable", "resources"]

/-- Where a reader stands: the names of the open elements, the innermost first,
and whether a root was seen. -/
structure State where
  path : List String
  rootSeen : Bool
  deriving DecidableEq, Repr

/-- Before the first tag. -/
def State.start : State := ⟨[], false⟩

/-- A root must be the first one and have the right tag. -/
def checkRoot (state : State) (name : String) : Except Fault Unit :=
  if state.path.isEmpty && (state.rootSeen || name != "resources") then
    .error (.unexpectedRoot (some name))
  else .ok ()

/-- The resource that an element lists where it stands, if it lists one. -/
def listed? (state : State) (tag : Xml.Tag) : Except Fault (Option Resource) := do
  checkRoot state (String.ofList tag.name)
  if String.ofList tag.name = "item" ∧ state.path = itemPath then
    let type ← required tag "type"
    let name ← required tag "name"
    return some ⟨type, name⟩
  else return none

/-- The resources that the rest of a document lists, in order. -/
def readFrom (state : State) : Xml.Reading Xml.Fault Xml.Token → Except Fault (List Resource)
  | .done =>
      if !state.path.isEmpty then .error .unclosed
      else if !state.rootSeen then .error (.unexpectedRoot none)
      else .ok []
  | .failed cause => .error (.malformed cause)
  | .item (.opening tag) rest => do
      let resource ← listed? state tag
      let others ← readFrom ⟨String.ofList tag.name :: state.path, true⟩ rest
      return resource.toList ++ others
  | .item (.single tag) rest => do
      let resource ← listed? state tag
      let others ← readFrom ⟨state.path, true⟩ rest
      return resource.toList ++ others
  | .item (.closing _) rest => readFrom ⟨state.path.tail, state.rootSeen⟩ rest

/-- The resources that a document lists, in order and with repetitions. -/
def read (text : String) : Except Fault (List Resource) :=
  readFrom .start (Xml.read text)

end OverlayManifest.Document.Listing
