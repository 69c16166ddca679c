/-
# The order of resource sets

A set lists its members in strictly ascending order, each once, and is made again
from its list. Strictly ascending means: by type first, and by name between equal
types.
-/

import OverlayManifest.Resource

namespace OverlayManifest

/-- A resource comes before another: its type does, or its name between equal types. -/
def Resource.Before (first second : Resource) : Prop :=
  first.type < second.type ∨ first.type = second.type ∧ first.name < second.name

instance (first second : Resource) : Decidable (first.Before second) :=
  inferInstanceAs (Decidable (_ ∨ _))

theorem Resource.compare_eq_lt {first second : Resource} :
    compare first second = .lt ↔ first.Before second := by
  have htext (a b : String) : compare a b = .lt ↔ a < b := compareOfLessAndEq_eq_lt
  rw [compare_eq, Ordering.then_eq_lt, htext, htext, Std.compare_eq_iff_eq]
  rfl

namespace ResourceSet

/-- The members of a set are listed in strictly ascending order. -/
theorem pairwise_toList (resources : ResourceSet) : resources.toList.Pairwise Resource.Before :=
  Std.ExtTreeSet.ordered_toList.imp Resource.compare_eq_lt.mp

/-- A set is made again from its list. -/
@[simp]
theorem ofList_toList (resources : ResourceSet) : ofList resources.toList = resources := by
  apply Std.ExtTreeSet.ext_mem
  intro resource
  rw [mem_ofList, Std.ExtTreeSet.mem_toList]

end ResourceSet

end OverlayManifest
