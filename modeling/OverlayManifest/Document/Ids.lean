/-
# Documents that create ids

A layout, a menu or another document of that kind creates an id wherever an
attribute's value is `@+id/` and a name. Its root may have any tag.
-/

import OverlayManifest.Document.Fault
import OverlayManifest.Resource
import OverlayManifest.Text.Space

namespace OverlayManifest.Document.Ids

/-- A character that the name of an id may have. -/
def isNameChar (c : Char) : Bool := c.isAlphanum || c == '_' || c == '.'

/-- How a value that creates an id opens. -/
def marker : List Char := ['@', '+', 'i', 'd', '/']

/-- The name of the id that a value creates; space around the value does not count. -/
def createdName? (value : String) : Option String :=
  let text := Text.trim Text.isSpace value.toList
  let name := text.drop marker.length
  if marker.isPrefixOf text && !name.isEmpty && name.all isNameChar then
    some (String.ofList name)
  else none

/-- The ids that the attributes of a tag create, in order. -/
def created : Xml.Reading Xml.AttributeFault Xml.Attribute → Except Fault (List Resource)
  | .done => .ok []
  | .failed cause => .error (.malformed (.attribute cause))
  | .item first rest =>
      match Xml.unescape first.value with
      | .error cause => .error (.malformed (.escape cause))
      | .ok value => do
          let others ← created rest
          return ((createdName? (String.ofList value)).map (Resource.mk "id")).toList ++ others

/-- The ids that the rest of a document creates, below `depth` open elements. -/
def readFrom (depth : Nat) : Xml.Reading Xml.Fault Xml.Token → Except Fault (List Resource)
  | .done => if depth = 0 then .ok [] else .error .unclosed
  | .failed cause => .error (.malformed cause)
  | .item (.opening tag) rest => do
      let ids ← created tag.attributes
      let others ← readFrom (depth + 1) rest
      return ids ++ others
  | .item (.single tag) rest => do
      let ids ← created tag.attributes
      let others ← readFrom depth rest
      return ids ++ others
  | .item (.closing _) rest => readFrom (depth - 1) rest

/-- The ids that a document creates, in order and with repetitions. -/
def read (text : String) : Except Fault (List Resource) :=
  readFrom 0 (Xml.read text)

end OverlayManifest.Document.Ids
