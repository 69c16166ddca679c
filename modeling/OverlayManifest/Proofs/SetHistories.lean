/-
# Histories of resource sets

Named sets of resources are worked on one operation after another. After any history each set
holds the members that the same history gives to finite sets without an order, in the one list
in which they ascend, and answers accordingly. So sets with the same members are equal whatever
their histories, and taking exclusions out of a set leaves no more than there was.
-/

import Mathlib.Logic.Function.Basic
import OverlayManifest.Proofs.DriftDetection
import OverlayManifest.Proofs.SetMembers

namespace OverlayManifest

namespace ResourceSet

/-! ## Sets and their members -/

/-- A set represents finitely many members: it lists them in ascending order, each once, has
just these, takes just others as new, and is as large as there are members. -/
structure Represents (resources : ResourceSet) (members : Finset Resource) : Prop where
  ascending : resources.toList.Pairwise Resource.BytesBefore
  nodup : resources.toList.Nodup
  listed_iff : ∀ resource, resource ∈ resources.toList ↔ resource ∈ members
  contains_iff : ∀ resource, resources.contains resource = true ↔ resource ∈ members
  new_iff : ∀ resource, (resources.add resource).1 = true ↔ resource ∉ members
  size_eq : resources.size = members.card
  isEmpty_iff : resources.isEmpty = true ↔ members = ∅

/-- A set represents its members. -/
theorem represents_members (resources : ResourceSet) :
    resources.Represents resources.members where
  ascending := pairwise_bytesBefore resources
  nodup := nodup_toList resources
  listed_iff resource := List.mem_toFinset.symm
  contains_iff resource := by rw [mem_members, Std.ExtTreeSet.mem_iff_contains]
  new_iff resource := by
    rw [add_eq, Bool.not_eq_true', mem_members, Std.ExtTreeSet.mem_iff_contains,
      Bool.not_eq_true]
  size_eq := (card_members resources).symm
  isEmpty_iff := by
    rw [← members_empty, members_inj, Std.ExtTreeSet.isEmpty_iff]

/-! ## Operations -/

/-- What is done to one of several named sets: a resource is added, the set is collected anew
from a list, or it becomes one set without the members of another. -/
inductive Operation (Name : Type)
  | add (name : Name) (resource : Resource)
  | collect (name : Name) (resources : List Resource)
  | without (name scanned excluded : Name)

variable {Name : Type} [DecidableEq Name]

/-- The sets after an operation. -/
def Operation.perform (sets : Name → ResourceSet) : Operation Name → Name → ResourceSet
  | .add name resource => Function.update sets name ((sets name).add resource).2
  | .collect name resources => Function.update sets name (.ofList resources)
  | .without name scanned excluded => Function.update sets name (sets scanned \ sets excluded)

/-- The members that an operation gives to finite sets. -/
def Operation.imply (members : Name → Finset Resource) : Operation Name → Name → Finset Resource
  | .add name resource => Function.update members name (insert resource (members name))
  | .collect name resources => Function.update members name resources.toFinset
  | .without name scanned excluded =>
      Function.update members name (members scanned \ members excluded)

/-- The sets after a history; all are empty at first. -/
def setsAfter (history : List (Operation Name)) : Name → ResourceSet :=
  history.foldl Operation.perform fun _ => ∅

/-- The members that a history gives to finite sets, all empty at first. -/
def impliedBy (history : List (Operation Name)) : Name → Finset Resource :=
  history.foldl Operation.imply fun _ => ∅

/-- The members of one set change as the set does, those of the others stay. -/
theorem members_update (sets : Name → ResourceSet) (name : Name) (resources : ResourceSet) :
    (fun other => (Function.update sets name resources other).members) =
      Function.update (fun other => (sets other).members) name resources.members := by
  funext other
  by_cases hother : other = name
  · subst hother
    rw [Function.update_self, Function.update_self]
  · rw [Function.update_of_ne hother, Function.update_of_ne hother]

/-- An operation does to the members of the sets what it does to finite sets. -/
theorem members_perform (sets : Name → ResourceSet) (operation : Operation Name) :
    (fun name => (operation.perform sets name).members) =
      operation.imply fun name => (sets name).members := by
  cases operation with
  | add name resource =>
      rw [Operation.perform, members_update, add_eq, members_insert]
      rfl
  | collect name resources =>
      rw [Operation.perform, members_update, members_ofList]
      rfl
  | without name scanned excluded =>
      rw [Operation.perform, members_update, members_sdiff]
      rfl

/-- A history gives to sets the members that it gives to finite sets. -/
theorem members_setsAfter (history : List (Operation Name)) :
    (fun name => (setsAfter history name).members) = impliedBy history := by
  have hrun (sets : Name → ResourceSet) :
      (fun name => (history.foldl Operation.perform sets name).members) =
        history.foldl Operation.imply fun name => (sets name).members := by
    induction history generalizing sets with
    | nil => rfl
    | cons operation history ih =>
        rw [List.foldl_cons, List.foldl_cons, ih, members_perform]
  rw [setsAfter, hrun, impliedBy]
  simp only [members_empty]

/-- Adding resources one after another implies just these, in any order and with repetitions. -/
theorem impliedBy_adds (name : Name) (resources : List Resource) :
    impliedBy (resources.map (.add name)) name = resources.toFinset := by
  have hrun (members : Name → Finset Resource) :
      (resources.map (Operation.add name)).foldl Operation.imply members name =
        members name ∪ resources.toFinset := by
    induction resources generalizing members with
    | nil => simp
    | cons resource resources ih =>
        rw [List.map_cons, List.foldl_cons, ih, Operation.imply, Function.update_self,
          List.toFinset_cons, Finset.insert_union, Finset.union_insert]
  rw [impliedBy, hrun, Finset.empty_union]

theorem members_setsAfter_apply (history : List (Operation Name)) (name : Name) :
    (setsAfter history name).members = impliedBy history name :=
  congrFun (members_setsAfter history) name

/-- Sets are equal if their histories imply the same members. -/
theorem setsAfter_beq_iff {Other : Type} [DecidableEq Other] (first : List (Operation Name))
    (second : List (Operation Other)) (name : Name) (other : Other) :
    (setsAfter first name == setsAfter second other) = true ↔
      impliedBy first name = impliedBy second other := by
  rw [beq_iff_eq, ← members_inj, members_setsAfter_apply, members_setsAfter_apply]

/-! ## Exclusions -/

theorem diff_diff (scanned excluded more : ResourceSet) :
    (scanned \ excluded) \ more = scanned \ (excluded ∪ more) := by
  rw [← members_inj]
  simp only [members_sdiff, members_union, sdiff_sdiff]
  rfl

/-- What is left out of a set is what it has in common with the exclusions. -/
theorem size_sub_size_diff (scanned excluded : ResourceSet) :
    (scanned \ excluded).size ≤ scanned.size ∧
      scanned.size - (scanned \ excluded).size = (scanned.members ∩ excluded.members).card := by
  have hsum := Finset.card_sdiff_add_card_inter scanned.members excluded.members
  rw [← members_sdiff, card_members, card_members] at hsum
  omega

end ResourceSet

/-- An update counts as excluded what the scan has in common with the exclusions. -/
theorem Update.excludedCount_of_run {tree after : FileTree} {settings : Settings} {root : Path}
    {year : Int} {update : Update} (h : run tree settings root year = (.ok update, after)) :
    ∃ excluded, ResourceSet.loadExclusions tree (settings.exclusionsAt root) = .ok excluded ∧
      update.kept.size ≤ update.scan.resources.size ∧
      update.excludedCount = (update.scan.resources.members ∩ excluded.members).card := by
  obtain ⟨scan, excluded, -, hexcluded, rfl⟩ := plan_eq_ok_iff.mp (run_eq_ok_iff.mp h).1
  exact ⟨excluded, hexcluded, ResourceSet.size_sub_size_diff scan.resources excluded⟩

namespace ResourceSet

/-- After every history of operations on named sets, each set represents the members that the
history implies: they ascend in the order of bytes, each once, and what the set answers is what
they say. Two sets are equal exactly if the same members are implied, so that the order and the
repetition of what was added do not count. Leaving exclusions out keeps just the other members,
at once or one set of exclusions after another, and never more than there were; what an update
counts as excluded is what its scan has in common with the exclusions. -/
theorem represents_after_history {Name : Type} [DecidableEq Name] :
    (∀ (history : List (Operation Name)) (name : Name),
      (setsAfter history name).Represents (impliedBy history name)) ∧
    (∀ (first second : List (Operation Name)) (name other : Name),
      (setsAfter first name == setsAfter second other) = true ↔
        impliedBy first name = impliedBy second other) ∧
    (∀ (first second : List Resource) (name other : Name),
      (setsAfter (first.map (.add name)) name == setsAfter (second.map (.add other)) other) =
        true ↔ ∀ resource, resource ∈ first ↔ resource ∈ second) ∧
    (∀ scanned excluded more : ResourceSet,
      (∀ resource, resource ∈ scanned \ excluded ↔ resource ∈ scanned ∧ resource ∉ excluded) ∧
      (scanned \ excluded) \ more = scanned \ (excluded ∪ more) ∧
      (scanned \ excluded).size ≤ scanned.size ∧
      scanned.size - (scanned \ excluded).size =
        (scanned.members ∩ excluded.members).card) ∧
    ∀ (tree after : FileTree) (settings : Settings) (root : Path) (year : Int) (update : Update),
      Update.run tree settings root year = (.ok update, after) →
      ∃ excluded, loadExclusions tree (settings.exclusionsAt root) = .ok excluded ∧
        update.kept.size ≤ update.scan.resources.size ∧
        update.excludedCount = (update.scan.resources.members ∩ excluded.members).card := by
  refine ⟨fun history name => ?_, fun first second name other => ?_,
    fun first second name other => ?_, fun scanned excluded more => ?_,
    fun tree after settings root year update h => Update.excludedCount_of_run h⟩
  · rw [← members_setsAfter_apply]
    exact represents_members _
  · exact setsAfter_beq_iff first second name other
  · rw [setsAfter_beq_iff, impliedBy_adds, impliedBy_adds, Finset.ext_iff]
    simp only [List.mem_toFinset]
  · exact ⟨fun resource => Std.ExtTreeSet.mem_diff_iff, diff_diff scanned excluded more,
      size_sub_size_diff scanned excluded⟩

/-- A set is built twice in different orders, one of them with a repetition, and loses what is
collected in another; a project is updated without exclusions. -/
theorem represents_after_history_shared :
    let built : List (Operation String) := [.add "all" ⟨"string", "b"⟩, .add "all" ⟨"color", "z"⟩]
    let rebuilt : List (Operation String) :=
      [.collect "all" [⟨"id", "x"⟩], .collect "all" [⟨"color", "z"⟩, ⟨"color", "z"⟩],
        .add "all" ⟨"string", "b"⟩]
    let reduced : List (Operation String) :=
      built ++ [.collect "some" [⟨"id", "x"⟩, ⟨"string", "b"⟩], .without "all" "all" "some"]
    (setsAfter built "all" == setsAfter rebuilt "all") = true ∧
      (setsAfter reduced "all").Represents {⟨"color", "z"⟩} ∧
      ∃ update after, ∃ excluded : ResourceSet,
        Update.run (.rawProject "a") Check.besideResources ⟨""⟩ 2024 = (.ok update, after) ∧
        update.excludedCount = (update.scan.resources.members ∩ excluded.members).card := by
  intro built rebuilt reduced
  obtain ⟨hrepresents, hequal, -, -, hcount⟩ := @represents_after_history String _
  have hreduced := hrepresents reduced "all"
  obtain ⟨update, hrun, -⟩ := Check.run_rawProject
  obtain ⟨excluded, -, -, hexcluded⟩ := hcount _ _ _ _ _ _ hrun
  refine ⟨(hequal built rebuilt "all" "all").mpr (by decide), ?_,
    update, _, excluded, hrun, hexcluded⟩
  rwa [show impliedBy reduced "all" = {⟨"color", "z"⟩} by decide] at hreduced

end ResourceSet

end OverlayManifest
