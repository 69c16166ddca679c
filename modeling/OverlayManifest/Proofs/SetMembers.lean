/-
# The members of a resource set

A set of resources stands for the finite set of its members: two sets with the same members are
equal, and a set is as large as there are members. Its list is the one in which the members
ascend, by the bytes of their types and between equal types by the bytes of their names.
-/

import Mathlib.Data.Finset.Card
import OverlayManifest.Proofs.ByteOrder
import OverlayManifest.Proofs.ResourceOrder

namespace OverlayManifest

/-- A resource comes before another by its bytes: those of its type are smaller, or those of its
name between equal types. -/
def Resource.BytesBefore (first second : Resource) : Prop :=
  Text.bytesOf first.type < Text.bytesOf second.type ∨
    first.type = second.type ∧ Text.bytesOf first.name < Text.bytesOf second.name

theorem Resource.before_iff_bytesBefore {first second : Resource} :
    first.Before second ↔ first.BytesBefore second := by
  rw [Before, BytesBefore, Text.lt_iff_bytesOf_lt, Text.lt_iff_bytesOf_lt]

namespace ResourceSet

/-- The list of a set ascends strictly in the order of bytes. -/
theorem pairwise_bytesBefore (resources : ResourceSet) :
    resources.toList.Pairwise Resource.BytesBefore :=
  (pairwise_toList resources).imp Resource.before_iff_bytesBefore.mp

/-- No member is listed twice. -/
theorem nodup_toList (resources : ResourceSet) : resources.toList.Nodup :=
  Std.ExtTreeSet.distinct_toList.imp fun hdistinct heq =>
    hdistinct (Std.compare_eq_iff_eq.mpr heq)

/-- The members of a set. -/
def members (resources : ResourceSet) : Finset Resource := resources.toList.toFinset

variable {first second : ResourceSet} {resource : Resource}

@[simp]
theorem mem_members : resource ∈ first.members ↔ resource ∈ first := by
  rw [members, List.mem_toFinset, Std.ExtTreeSet.mem_toList]

/-- A set is determined by its members. -/
theorem members_inj : first.members = second.members ↔ first = second := by
  constructor
  · intro h
    apply Std.ExtTreeSet.ext_mem
    intro resource
    rw [← mem_members, h, mem_members]
  · rintro rfl
    rfl

/-- The size of a set is the number of its members. -/
theorem card_members (resources : ResourceSet) : resources.members.card = resources.size := by
  rw [members, List.toFinset_card_of_nodup (nodup_toList resources), Std.ExtTreeSet.length_toList]

@[simp]
theorem members_empty : members ∅ = ∅ := by
  ext resource
  simp

@[simp]
theorem members_ofList (resources : List Resource) :
    (ofList resources).members = resources.toFinset := by
  ext resource
  simp

@[simp]
theorem members_insert (resources : ResourceSet) (resource : Resource) :
    members (resources.insert resource) = insert resource resources.members := by
  ext other
  rw [mem_members, Std.ExtTreeSet.mem_insert, Std.compare_eq_iff_eq, Finset.mem_insert,
    mem_members, eq_comm]

@[simp]
theorem members_sdiff (first second : ResourceSet) :
    members (first \ second) = first.members \ second.members := by
  ext resource
  simp

@[simp]
theorem members_union (first second : ResourceSet) :
    members (first ∪ second) = first.members ∪ second.members := by
  ext resource
  simp

end ResourceSet

end OverlayManifest
