/-
# Collecting a scan

A scan goes through the resource files in order and stops at the first that
fails. A values file declares what its document declares. Any other file is a
resource itself and, if it is markup, creates ids as well; files of the type
`raw` are not looked into, nor are files without a resource name.
-/

import OverlayManifest.Discovery
import OverlayManifest.Document.Ids
import OverlayManifest.Document.Listing
import OverlayManifest.Document.Values
import OverlayManifest.Scan

namespace OverlayManifest

/-- The resources of a document with a path, if it can be read and has no fault. -/
def readDocument (path : FilePath) (text : Except FileTree.Fault String)
    (read : String → Except Document.Fault (List Resource)) : Except Failure (List Resource) :=
  match text with
  | .error cause => .error (.read path cause)
  | .ok text =>
      match read text with
      | .error fault => .error (.document path fault)
      | .ok resources => .ok resources

namespace FoundFile

/-- The resources that a file declares, in order and with repetitions. -/
def declared (file : FoundFile) : Except Failure (List Resource) :=
  match file.kind with
  | .values => readDocument file.path file.readText Document.Values.read
  | .files type =>
      match file.resourceName? with
      | none => .ok []
      | some name =>
          if file.isXml ∧ type ≠ "raw" then
            (readDocument file.path file.readText Document.Ids.read).map
              (⟨type, name⟩ :: ·)
          else .ok [⟨type, name⟩]

end FoundFile

namespace Scan

/-- Adds a file and what it declares to a scan. -/
def addFile (scan : Scan) (file : FoundFile) : Except Failure Scan :=
  match file.declared with
  | .error failure => .error failure
  | .ok resources =>
      .ok { scan.recordAll file.path resources with fileCount := scan.fileCount + 1 }

/-- The scan of a resource directory. -/
def collect (tree : FileTree) (settings : Settings) (resources : Path) : Except Failure Scan :=
  match Discovery.find tree settings resources with
  | .error failure => .error failure
  | .ok files => files.foldlM addFile .empty

end Scan

namespace ResourceSet

/-- The resources that the listing with a path names. -/
def load (tree : FileTree) (path : Path) : Except Failure ResourceSet :=
  (readDocument path (tree.readText path) Document.Listing.read).map ofList

/-- The resources that a manifest names; it must be a file. -/
def loadManifest (tree : FileTree) (path : Path) : Except Failure ResourceSet :=
  if tree.hasFile path then load tree path else .error (.noManifest path)

/-- The resources that the exclusions name; without such a file there are none. -/
def loadExclusions (tree : FileTree) (path : Path) : Except Failure ResourceSet :=
  if tree.hasEntry path then load tree path else .ok ∅

end ResourceSet

end OverlayManifest
