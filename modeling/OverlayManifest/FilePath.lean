/-
# Paths of files

A path that is given is a text. The path of what stands in a directory is that of the directory
with a name behind it, and if the name is no text, then neither is the path. It is shown with
the text that the name is shown as.
-/

import OverlayManifest.FileName
import OverlayManifest.Path

namespace OverlayManifest

/-- A path whose last name need not be a text. -/
inductive FilePath
  | plain (path : Path)
  | raw (directory : Path) (name : RawName)
  deriving DecidableEq, Repr

namespace FilePath

instance : Coe Path FilePath := ⟨.plain⟩

/-- The path of what has a name in a directory. -/
def inside (directory : Path) : FileName → FilePath
  | .plain name => .plain (directory.join ⟨name⟩)
  | .raw name => .raw directory name

/-- The path that a path is shown as. -/
def shown : FilePath → Path
  | .plain path => path
  | .raw directory name => directory.join ⟨name.shown⟩

@[simp]
theorem shown_inside (directory : Path) (name : FileName) :
    (inside directory name).shown = directory.join ⟨name.shown⟩ := by
  cases name <;> rfl

/-- The path that follows a root, unless it is absolute. -/
def joinedTo (root : Path) : FilePath → FilePath
  | .plain path => .plain (root.join path)
  | .raw directory name => .raw (root.join directory) name

/-- The number of bytes of a path. -/
def size : FilePath → Nat
  | .plain path => path.text.utf8ByteSize
  | .raw directory name => (directory.join ⟨""⟩).text.utf8ByteSize + name.bytes.size

/-- A zero stands in the path. -/
def HasZero : FilePath → Prop
  | .plain path => '\x00' ∈ path.text.toList
  | .raw directory name => '\x00' ∈ (directory.join ⟨""⟩).text.toList ∨ 0 ∈ name.bytes.data.toList

instance : DecidablePred HasZero
  | .plain path => inferInstanceAs (Decidable ('\x00' ∈ path.text.toList))
  | .raw directory name =>
      inferInstanceAs (Decidable ('\x00' ∈ (directory.join ⟨""⟩).text.toList ∨
        0 ∈ name.bytes.data.toList))

/-- The last component, if it is a name. -/
def fileName? : FilePath → Option FileName
  | .plain path => path.fileName?.map .plain
  | .raw _ name => some (.raw name)

/-- What follows the last dot of the file name, unless that dot opens the name. -/
def extension? : FilePath → Option FileName
  | .plain path => path.extension?.map .plain
  | .raw _ name =>
      (Text.afterLast? 0x2e name.bytes.data.toList).map fun ending => .ofBytes ending.toByteArray

/-- How a path is shown to someone who works at `root`. What is left out is a text, so the last
name of a path that is none always stays. -/
def shownFrom (path : FilePath) (root : Path) : String :=
  match path with
  | .plain path => path.shownFrom root
  | .raw directory _ =>
      if root.components.isPrefixOf directory.components then path.shown.shownFrom root
      else Path.withSlashes path.shown.text

end FilePath

end OverlayManifest
