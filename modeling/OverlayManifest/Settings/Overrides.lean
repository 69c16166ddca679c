/-
# Overrides

Overrides replace some of the settings. A settings file and a command line each
give overrides. A settings file names each setting at most once, and names that
are no settings do not count.
-/

import OverlayManifest.Settings

namespace OverlayManifest

/-- The settings that are replaced. -/
structure Overrides where
  resources : Option Path := none
  manifest : Option Path := none
  exclusions : Option Path := none
  overlayable : Option String := none
  policy : Option String := none
  exclude : Option (List ExcludePattern) := none
  deriving DecidableEq, Inhabited, Repr

namespace Overrides

/-- Settings after overrides. -/
def applyTo (overrides : Overrides) (settings : Settings) : Settings where
  resources := overrides.resources.getD settings.resources
  manifest := overrides.manifest.getD settings.manifest
  exclusions := overrides.exclusions.getD settings.exclusions
  overlayable := overrides.overlayable.getD settings.overlayable
  policy := overrides.policy.getD settings.policy
  exclude := overrides.exclude.getD settings.exclude

/-- The value of a setting that must not have one yet. -/
def once {α β : Type} (known : Option α) (value : Option β) (make : β → α) :
    Option (Option α) :=
  match known, value with
  | none, some value => some (some (make value))
  | _, _ => none

/-- Adds a named value, read as a text or as a list of texts. -/
def add {α : Type} (text? : α → Option String) (texts? : α → Option (List String))
    (overrides : Overrides) (name : String) (value : α) : Option Overrides :=
  match name with
  | "res_dir" =>
      (once overrides.resources (text? value) Path.mk).map ({ overrides with resources := · })
  | "manifest" =>
      (once overrides.manifest (text? value) Path.mk).map ({ overrides with manifest := · })
  | "exclusions" =>
      (once overrides.exclusions (text? value) Path.mk).map ({ overrides with exclusions := · })
  | "overlayable_name" =>
      (once overrides.overlayable (text? value) id).map ({ overrides with overlayable := · })
  | "policy" => (once overrides.policy (text? value) id).map ({ overrides with policy := · })
  | "exclude" =>
      (once overrides.exclude (texts? value) (·.map ExcludePattern.mk)).map
        ({ overrides with exclude := · })
  | _ => some overrides

/-- The overrides that named values give. -/
def ofMembers? {α : Type} (text? : α → Option String) (texts? : α → Option (List String))
    (members : List (String × α)) : Option Overrides :=
  members.foldlM (fun overrides (name, value) => overrides.add text? texts? name value) {}

end Overrides

end OverlayManifest
