/-
# Checking a manifest

A check scans the resources of a project, leaves out the exclusions and compares
the rest with what the manifest names.
-/

import OverlayManifest.Report
import OverlayManifest.Scan.Collect

namespace OverlayManifest.Check

/-- What a check of the project at a root finds. -/
def run (tree : FileTree) (settings : Settings) (root : Path) : Except Failure Report.Finding := do
  let scan ← Scan.collect tree settings (settings.resourcesAt root)
  let exclusions ← ResourceSet.loadExclusions tree (settings.exclusionsAt root)
  let manifest := settings.manifestAt root
  let committed ← ResourceSet.loadManifest tree manifest
  return ⟨root, manifest, .between committed (scan.resources \ exclusions), scan.origins⟩

end OverlayManifest.Check
