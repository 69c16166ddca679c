/-
# What can be wrong with a document

The documents that declare or list resources share their faults: malformed
markup, a wrong or missing root, an element left open, and a tag that lacks an
attribute it needs.
-/

import OverlayManifest.Xml.Token

namespace OverlayManifest.Document

/-- What can be wrong with a document. -/
inductive Fault
  | malformed (cause : Xml.Fault)
  | unexpectedRoot (found : Option String)
  | unclosed
  | missingAttribute (tag key : String)
  deriving DecidableEq, Repr

/-- The wording of a fault in the document with a given path. -/
def Fault.message (path : String) : Fault → String
  | .malformed _ => "Malformed XML in " ++ path
  | .unexpectedRoot (some tag) =>
      "Expected <resources> as the root element of " ++ path ++ ", found <" ++ tag ++ ">"
  | .unexpectedRoot none =>
      "Expected <resources> as the root element of " ++ path ++ ", found an empty document"
  | .unclosed => "Unclosed element in " ++ path
  | .missingAttribute tag key =>
      "<" ++ tag ++ "> in " ++ path ++ " is missing the `" ++ key ++ "` attribute"

/-- The text of an attribute that a tag must have. -/
def required (tag : Xml.Tag) (key : String) : Except Fault String :=
  match tag.attribute? key with
  | .error cause => .error (.malformed cause)
  | .ok none => .error (.missingAttribute (String.ofList tag.name) key)
  | .ok (some value) => .ok value

end OverlayManifest.Document
