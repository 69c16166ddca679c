/-
# Settings files

A settings file is written in YAML or in TOML; its extension says which. Without
a known extension YAML is tried first. A project may keep its settings under one
of six names at its root, of which the first that is a file counts.
-/

import OverlayManifest.FileTree
import OverlayManifest.Settings.Overrides
import OverlayManifest.Toml.Document
import OverlayManifest.Yaml.Node.Grammar

namespace OverlayManifest

namespace Toml.Value

/-- The text that a value is. -/
def text? : Value → Option String
  | .text value => some value
  | _ => none

/-- The texts that a value lists. -/
def texts? : Value → Option (List String)
  | .list items => items.mapM text?
  | _ => none

end Toml.Value

namespace Settings

/-- Why settings cannot be loaded. Where a text is at fault, what its reader says about it is
left out. -/
inductive Fault
  | unreadable (path : Path) (cause : FileTree.Fault)
  | invalidYaml
  | invalidToml
  | invalid
  deriving DecidableEq, Repr

/-- The wording of a fault. -/
def Fault.message : Fault → String
  | .unreadable path _ => "Failed to read config file: " ++ path.text
  | .invalidYaml => "Failed to parse YAML config"
  | .invalidToml => "Failed to parse TOML config"
  | .invalid => "Failed to parse config file"

/-- The overrides in a YAML text. -/
def ofYaml? (text : String) : Option Overrides := do
  let document ← Yaml.Document.read? text.toList
  Overrides.ofMembers? document.text? document.texts? (← document.members?)

/-- The overrides in a TOML text. -/
def ofToml? (text : String) : Option Overrides := do
  Overrides.ofMembers? Toml.Value.text? Toml.Value.texts? (← Toml.read? text.toList)

/-- The overrides in a text that was read from a path. -/
def ofText (path : Path) (text : String) : Except Fault Overrides :=
  match path.extension? with
  | some "yml" | some "yaml" =>
      match ofYaml? text with
      | some overrides => .ok overrides
      | none => .error .invalidYaml
  | some "toml" =>
      match ofToml? text with
      | some overrides => .ok overrides
      | none => .error .invalidToml
  | _ =>
      match (ofYaml? text).or (ofToml? text) with
      | some overrides => .ok overrides
      | none => .error .invalid

/-- The settings in a file. -/
def ofFile (tree : FileTree) (path : Path) : Except Fault Settings :=
  match tree.readText path with
  | .error cause => .error (.unreadable path cause)
  | .ok text => (ofText path text).map (·.applyTo {})

/-- The names under which a project may keep its settings. -/
def fileNames : List String :=
  [".overlayable.toml", ".overlayable.yml", ".overlayable.yaml", "overlayable.toml",
    "overlayable.yml", "overlayable.yaml"]

/-- The settings file of the project at a root. -/
def fileOf? (tree : FileTree) (root : Path) : Option Path :=
  (fileNames.map fun name => root.join ⟨name⟩).find? tree.hasFile

/-- The settings of the project at a root. -/
def ofProject (tree : FileTree) (root : Path) : Except Fault Settings :=
  match fileOf? tree root with
  | some path => ofFile tree path
  | none => .ok {}

end Settings

end OverlayManifest
