/-
# Tokens of a YAML stream

Tokens are the marks and scalars of a stream, together with the marks that
indentation stands for: where a block collection starts and where it ends. A
token does not say where it stood.
-/

import OverlayManifest.Yaml.Character

namespace OverlayManifest.Yaml

/-- A token of a stream. -/
inductive Token
  | version (major minor : Nat)
  | tagHandle (handle : String)
  | documentStart
  | documentEnd
  | blockSequenceStart
  | blockMappingStart
  | blockEnd
  | flowSequenceStart
  | flowSequenceEnd
  | flowMappingStart
  | flowMappingEnd
  | blockEntry
  | flowEntry
  | key
  | value
  | alias (name : String)
  | anchor (name : String)
  | tag (handle : String)
  | scalar (text : String) (plain : Bool)
  deriving DecidableEq, Repr

/-- A scalar that was read: its text, whether line breaks follow it, where it ends
and what comes after it. -/
structure ScannedScalar where
  text : List Char
  atLineStart : Bool
  position : Position
  rest : List Char

end OverlayManifest.Yaml
