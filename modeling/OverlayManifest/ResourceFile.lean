/-
# Resource files

The name of a resource directory, up to its first dash, says what its files
are: files of a values directory declare resources, and any other file is a
resource itself, of the type that the directory names.
-/

import OverlayManifest.FilePath
import OverlayManifest.Resource

namespace OverlayManifest

/-- What the files of a resource directory are. -/
inductive DirectoryKind
  | values
  | files (type : String)
  deriving DecidableEq, Repr

/-- The kind of a directory, whose qualifiers follow its first dash. -/
def DirectoryKind.ofName (name : String) : DirectoryKind :=
  match String.ofList (name.toList.takeWhile (· != '-')) with
  | "values" => .values
  | type => .files type

/-- A file in a resource directory. -/
structure ResourceFile where
  path : FilePath
  kind : DirectoryKind
  deriving DecidableEq, Repr

namespace ResourceFile

/-- The file has the extension of markup. -/
def isXml (file : ResourceFile) : Bool := file.path.extension? == some (.plain "xml")

/-- The name of a file, if it is a text. -/
def textName? (file : ResourceFile) : Option String := file.path.fileName?.bind FileName.text?

/-- The name of the resource that a file is: its own name up to the first dot. -/
def resourceName? (file : ResourceFile) : Option String :=
  file.textName?.bind fun name =>
    match name.toList.takeWhile (· != '.') with
    | [] => none
    | opening => some (String.ofList opening)

end ResourceFile

/-- The number of files of each kind. -/
structure FileCount where
  values : Nat
  files : Nat
  deriving DecidableEq, Repr

namespace FileCount

/-- Counts the files of a list. -/
def of (files : List ResourceFile) : FileCount where
  values := files.countP (·.kind == .values)
  files := files.countP (·.kind != .values)

/-- The number of all files. -/
def total (count : FileCount) : Nat := count.values + count.files

/-- The count in words. -/
def display (count : FileCount) : String :=
  s!"{count.total} files ({count.values} values files, {count.files} file resources)"

end FileCount

end OverlayManifest
