/-
# Drift

The drift from one set of resources to another is what has to be added to the
first and what has to be removed from it to reach the second.
-/

import OverlayManifest.Resource

namespace OverlayManifest

/-- Resources that came and resources that went. -/
structure Drift where
  added : List Resource
  removed : List Resource
  deriving DecidableEq, Repr

namespace Drift

/-- The drift from a committed set to a live one, both lists ascending. -/
def between (committed live : ResourceSet) : Drift where
  added := (live \ committed).toList
  removed := (committed \ live).toList

/-- Nothing came and nothing went. -/
def isUpToDate (drift : Drift) : Bool :=
  drift.added.isEmpty && drift.removed.isEmpty

theorem isUpToDate_iff {drift : Drift} :
    drift.isUpToDate = true ↔ drift.added = [] ∧ drift.removed = [] := by
  rw [isUpToDate, Bool.and_eq_true, List.isEmpty_iff, List.isEmpty_iff]

/-- The number of resources that came or went. -/
def changeCount (drift : Drift) : Nat :=
  drift.added.length + drift.removed.length

end Drift

end OverlayManifest
