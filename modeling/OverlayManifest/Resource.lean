/-
# Resources

A resource is named by its type and its name. Resources are ordered by type
first and by name second, each by the code points of its text, which is also
the order of the texts' UTF-8 bytes. A set of resources has one form for each
collection of members, so that sets with the same members are equal, and lists
its members in ascending order.
-/

import Std.Data.ExtTreeSet

namespace OverlayManifest

/-- A declared resource, such as `string/app_name`. -/
structure Resource where
  type : String
  name : String
  deriving DecidableEq, Inhabited, Repr

namespace Resource

/-- Types are compared first, names decide between equal types. -/
instance : Ord Resource := ⟨compareLex (compareOn type) (compareOn name)⟩

/-- Two resources compare as their types do, unless these are equal. -/
theorem compare_eq (a b : Resource) :
    compare a b = (compare a.type b.type).then (compare a.name b.name) := rfl

instance : Std.TransOrd Resource :=
  inferInstanceAs (Std.TransCmp (compareLex (compareOn type) (compareOn name)))

instance : Std.LawfulEqOrd Resource where
  eq_of_compare {a b} h := by
    rw [compare_eq, Ordering.then_eq_eq] at h
    cases a
    cases b
    simp_all

/-- The displayed form, `type/name`. -/
def display (resource : Resource) : String :=
  resource.type ++ "/" ++ resource.name

end Resource

/-- A set of resources, listed in ascending order. -/
abbrev ResourceSet := Std.ExtTreeSet Resource

namespace ResourceSet

/-- The set of the resources that occur in a list. -/
def ofList (resources : List Resource) : ResourceSet :=
  Std.ExtTreeSet.ofList resources compare

/-- Whether a resource is new to a set, and the set with it. -/
def add (resources : ResourceSet) (resource : Resource) : Bool × ResourceSet :=
  (resources.containsThenInsert resource).map not id

/-- A resource is new if the set does not have it; it is inserted in any case. -/
theorem add_eq (resources : ResourceSet) (resource : Resource) :
    resources.add resource = (!resources.contains resource, resources.insert resource) := by
  rw [add, Prod.map, Std.ExtTreeSet.containsThenInsert_fst, Std.ExtTreeSet.containsThenInsert_snd,
    id]

/-- A set made from a list has the members of the list. -/
@[simp]
theorem mem_ofList {resources : List Resource} {resource : Resource} :
    resource ∈ ofList resources ↔ resource ∈ resources := by
  rw [ofList, Std.ExtTreeSet.mem_ofList, List.contains_iff_mem]

end ResourceSet

end OverlayManifest
