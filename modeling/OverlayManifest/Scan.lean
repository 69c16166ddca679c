/-
# Scans

A scan is what was found under a resource directory: the declared resources,
the first file that declared each of them, and the number of files.
-/

import OverlayManifest.FilePath
import OverlayManifest.Resource
import Std.Data.ExtTreeMap

namespace OverlayManifest

/-- The resources found so far, with the first file that declared each. -/
structure Scan where
  resources : ResourceSet
  origins : Std.ExtTreeMap Resource FilePath
  fileCount : Nat

namespace Scan

/-- Nothing was found yet. -/
def empty : Scan := ⟨∅, ∅, 0⟩

/-- Adds a resource that a file declares; an origin that is known stays. -/
def record (scan : Scan) (origin : FilePath) (resource : Resource) : Scan where
  resources := scan.resources.insert resource
  origins := scan.origins.insertIfNew resource origin
  fileCount := scan.fileCount

/-- Adds the resources that a file declares, in order. -/
def recordAll (scan : Scan) (origin : FilePath) (resources : List Resource) : Scan :=
  resources.foldl (record · origin) scan

end Scan

end OverlayManifest
