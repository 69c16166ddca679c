/-
# Updating a manifest

An update scans the resources of a project, leaves out the exclusions and
writes the manifest of the rest. Nothing changes before everything is read.
-/

import OverlayManifest.FileTree.Change
import OverlayManifest.Manifest
import OverlayManifest.Scan.Collect

namespace OverlayManifest

/-- What an update found and what it keeps of it. -/
structure Update where
  scan : Scan
  kept : ResourceSet

namespace Update

/-- The number of resources that the exclusions leave out. -/
def excludedCount (update : Update) : Nat := update.scan.resources.size - update.kept.size

/-- What an update of the project at a root finds. -/
def plan (tree : FileTree) (settings : Settings) (root : Path) : Except Failure Update := do
  let scan ← Scan.collect tree settings (settings.resourcesAt root)
  let exclusions ← ResourceSet.loadExclusions tree (settings.exclusionsAt root)
  return ⟨scan, scan.resources \ exclusions⟩

/-- The manifest that an update writes. -/
def manifest (update : Update) (settings : Settings) (year : Int) : Manifest :=
  ⟨settings.overlayable, settings.policy, year, update.kept⟩

/-- Writes a document to a path, below directories that are made if they are missing;
also gives the tree that a failure leaves. -/
def writeDocument (tree : FileTree) (path : Path) (text : String) :
    Except Failure Unit × FileTree :=
  match (path.parent?.map tree.makeDirectories).getD (.ok (), tree) with
  | (.error cause, after) => (.error (.write path cause), after)
  | (.ok (), after) =>
      match after.writeFile path text.toUTF8 with
      | .error cause => (.error (.write path cause), after)
      | .ok last => (.ok (), last)

/-- Updates the manifest of the project at a root. -/
def run (tree : FileTree) (settings : Settings) (root : Path) (year : Int) :
    Except Failure Update × FileTree :=
  match plan tree settings root with
  | .error failure => (.error failure, tree)
  | .ok update =>
      match writeDocument tree (settings.manifestAt root)
          (update.manifest settings year).render with
      | (.error failure, after) => (.error failure, after)
      | (.ok (), after) => (.ok update, after)

end Update

end OverlayManifest
