/-
# Values documents

A values document declares resources by the elements directly below its root.
An element's tag gives the type, its `name` attribute the name. A styleable
declares the attributes directly below it as well. Some tags declare nothing.
-/

import OverlayManifest.Document.Fault
import OverlayManifest.Resource

namespace OverlayManifest.Document.Values

/-- Tags that declare nothing below the root. -/
def silentTags : List String :=
  ["eat-comment", "skip", "public", "public-group", "staging-public-group", "java-symbol",
    "overlayable"]

/-- The type that an element below the root declares. -/
def declaredType (tag : Xml.Tag) : Except Fault String :=
  match String.ofList tag.name with
  | "item" => required tag "type"
  | "string-array" | "integer-array" | "array" => .ok "array"
  | "declare-styleable" => .ok "styleable"
  | name => .ok name

/-- The resource that an element below the root declares, if it declares one. -/
def declaration? (tag : Xml.Tag) : Except Fault (Option Resource) :=
  if String.ofList tag.name ∈ silentTags then .ok none
  else do
    let type ← declaredType tag
    let name ← required tag "name"
    return some ⟨type, name⟩

/-- The attribute that an element in a styleable declares; a name with a colon
refers to an attribute declared elsewhere. -/
def styleableAttribute? (tag : Xml.Tag) : Except Fault (Option Resource) :=
  if String.ofList tag.name = "attr" then do
    let name ← required tag "name"
    return if ':' ∈ name.toList then none else some ⟨"attr", name⟩
  else .ok none

/-- Where a reader stands: how many elements are open, whether a root was seen,
and whether the element below the root is a styleable. -/
structure State where
  depth : Nat
  rootSeen : Bool
  inStyleable : Bool
  deriving DecidableEq, Repr

namespace State

/-- Before the first tag. -/
def start : State := ⟨0, false, false⟩

/-- What an element declares where it stands, and where its children stand; an
element written as a single tag has none. -/
def enter (state : State) (tag : Xml.Tag) (single : Bool) :
    Except Fault (Option Resource × State) :=
  match state.depth with
  | 0 =>
      if state.rootSeen || String.ofList tag.name != "resources" then
        .error (.unexpectedRoot (some (String.ofList tag.name)))
      else .ok (none, { state with rootSeen := true })
  | 1 => do
      match ← declaration? tag with
      | none => return (none, state)
      | some resource =>
          return (some resource,
            { state with inStyleable := !single && resource.type == "styleable" })
  | 2 => do
      if state.inStyleable then return (← styleableAttribute? tag, state)
      else return (none, state)
  | _ => .ok (none, state)

/-- After an opening tag. -/
def descend (state : State) : State := { state with depth := state.depth + 1 }

/-- After a closing tag. -/
def ascend (state : State) : State where
  depth := state.depth - 1
  rootSeen := state.rootSeen
  inStyleable := state.inStyleable && decide (1 < state.depth - 1)

end State

/-- The resources that the rest of a document declares, in order. -/
def readFrom (state : State) : Xml.Reading Xml.Fault Xml.Token → Except Fault (List Resource)
  | .done =>
      if state.depth ≠ 0 then .error .unclosed
      else if !state.rootSeen then .error (.unexpectedRoot none)
      else .ok []
  | .failed cause => .error (.malformed cause)
  | .item (.opening tag) rest => do
      let (declared, inside) ← state.enter tag false
      let others ← readFrom inside.descend rest
      return declared.toList ++ others
  | .item (.single tag) rest => do
      let (declared, after) ← state.enter tag true
      let others ← readFrom after rest
      return declared.toList ++ others
  | .item (.closing _) rest => readFrom state.ascend rest

/-- The resources that a values document declares, in order and with repetitions. -/
def read (text : String) : Except Fault (List Resource) :=
  readFrom .start (Xml.read text)

end OverlayManifest.Document.Values
