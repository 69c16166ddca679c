/-
# Discovery

Resource files are the files in the directories of a resource directory. Hidden
files and directories do not count, links are not followed, and exclude patterns
leave files out. A values directory holds markup only, and the files of a directory
whose name is no text do not count. Files come in the order of their directories'
names, then of their own. Each directory is listed by its path, which must not be
too long.
-/

import OverlayManifest.Failure
import OverlayManifest.ResourceFile
import OverlayManifest.Settings

namespace OverlayManifest

/-- A resource file that was found, with what it holds. -/
structure FoundFile extends ResourceFile where
  bytes : ByteArray

/-- The text of a file, which is read by its path. -/
def FoundFile.readText (file : FoundFile) : Except FileTree.Fault String :=
  match FileTree.fileFault? file.path with
  | some fault => .error fault
  | none => FileTree.textOf file.bytes

namespace FileTree

/-- The file at an entry, if it stands where resource files do below a location. The name of
its directory must be a text. -/
def resourceFileAt? (tree : FileTree) (base : Location) (location : Location) (entry : Entry) :
    Option (String × FileName × ByteArray) :=
  match base.isPrefixOf? location, entry with
  | some [.plain directory, name], .file bytes =>
      if tree.lookup? (base ++ [.plain directory]) = some .directory ∧
          !FileName.isHidden directory ∧ !name.isHidden then
        some (directory, name, bytes)
      else none
  | _, _ => none

end FileTree

namespace Discovery

/-- The resource file for a file in a directory of the resource directory, unless
the settings or its extension leave it out. -/
def select? (settings : Settings) (resources : Path) (directory : String) (name : FileName)
    (bytes : ByteArray) : Option FoundFile :=
  let path := FilePath.inside (resources.join ⟨directory⟩) name
  let file : FoundFile := ⟨⟨path, .ofName directory⟩, bytes⟩
  if settings.excludes ((path.shown.stripPrefix? resources).getD path.shown) then none
  else if file.kind = .values ∧ !file.isXml then none
  else some file

/-- The path of a directory of the resource directory at `base`, and why it cannot be listed. -/
def unlisted? (resources : Path) (base location : Location) (entry : Entry) :
    Option (FilePath × FileTree.Fault) :=
  match base.isPrefixOf? location, entry with
  | some [name], .directory =>
      if name.isHidden then none
      else
        (FileTree.fileFault? (.inside resources name)).map fun fault =>
          (.inside resources name, fault)
  | _, _ => none

/-- The first directory of the resource directory at `base` that cannot be listed, and why. -/
def firstUnlisted? (tree : FileTree) (resources : Path) (base : Location) :
    Option (FilePath × FileTree.Fault) :=
  tree.entries.toList.findSome? fun (location, entry) => unlisted? resources base location entry

/-- The resource files below a resource directory, in order. -/
def find (tree : FileTree) (settings : Settings) (resources : Path) :
    Except Failure (List FoundFile) :=
  match tree.locate resources with
  | .error _ => .error (.noResourceDirectory resources)
  | .ok base =>
      if tree.lookup? base ≠ some .directory then .error (.noResourceDirectory resources)
      else
        match firstUnlisted? tree resources base with
        | some (directory, cause) => .error (.walk resources directory cause)
        | none =>
            .ok <| tree.entries.toList.filterMap fun (location, entry) =>
              (tree.resourceFileAt? base location entry).bind fun (directory, name, bytes) =>
                select? settings resources directory name bytes

end Discovery

end OverlayManifest
