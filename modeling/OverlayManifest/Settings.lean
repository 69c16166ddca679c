/-
# Settings

Settings say where a project keeps its resources, its manifest and its
exclusions, what the manifest is called, and which files a scan leaves out.
Their paths are relative to the root of the project.
-/

import OverlayManifest.ExcludePattern

namespace OverlayManifest

/-- The settings of a project. -/
structure Settings where
  resources : Path := ⟨"res"⟩
  manifest : Path := ⟨"res/values/overlayable.xml"⟩
  exclusions : Path := ⟨"chassis_overlayable.xml"⟩
  overlayable : String := "CarSettings"
  policy : String := "public"
  exclude : List ExcludePattern := []
  deriving DecidableEq, Inhabited, Repr

namespace Settings

/-- The resource directory of the project at a root. -/
def resourcesAt (settings : Settings) (root : Path) : Path := root.join settings.resources

/-- The manifest of the project at a root. -/
def manifestAt (settings : Settings) (root : Path) : Path := root.join settings.manifest

/-- The exclusions of the project at a root. -/
def exclusionsAt (settings : Settings) (root : Path) : Path := root.join settings.exclusions

/-- One of the patterns leaves out the file with a path below the resource directory. -/
def excludes (settings : Settings) (path : Path) : Bool :=
  settings.exclude.any (·.excludes path)

/-- Two settings say the same, up to the spelling of paths. -/
def agrees (settings other : Settings) : Bool :=
  settings.resources.agrees other.resources && settings.manifest.agrees other.manifest &&
    settings.exclusions.agrees other.exclusions &&
    settings.overlayable == other.overlayable && settings.policy == other.policy &&
    settings.exclude == other.exclude

end Settings

end OverlayManifest
