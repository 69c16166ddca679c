/-
# The drift is an exact patch

The drift between two sets turns the first into the second: what went is taken out, what came is
put in. It does nothing else, and no other pair of lists that turns the first set into the
second does less. Seen from the second set, the same resources came and went the other way
round.
-/

import Mathlib.Data.Finset.SymmDiff
import OverlayManifest.Proofs.Runs
import OverlayManifest.Proofs.SetMembers

namespace OverlayManifest.Drift

/-- What a drift makes of a set: the resources that went are taken out, and then those that came
are put in. -/
def applyTo (drift : Drift) (resources : ResourceSet) : ResourceSet :=
  (resources \ .ofList drift.removed) ∪ .ofList drift.added

/-- The drift the other way round. -/
def swap (drift : Drift) : Drift := ⟨drift.removed, drift.added⟩

variable {committed live : ResourceSet} {resource : Resource}

theorem mem_applyTo {drift : Drift} {resources : ResourceSet} :
    resource ∈ drift.applyTo resources ↔
      resource ∈ resources ∧ resource ∉ drift.removed ∨ resource ∈ drift.added := by
  rw [applyTo, Std.ExtTreeSet.mem_union_iff, Std.ExtTreeSet.mem_diff_iff, ResourceSet.mem_ofList,
    ResourceSet.mem_ofList]

theorem mem_added_between :
    resource ∈ (between committed live).added ↔ resource ∈ live ∧ resource ∉ committed := by
  rw [between, Std.ExtTreeSet.mem_toList, Std.ExtTreeSet.mem_diff_iff]

theorem mem_removed_between :
    resource ∈ (between committed live).removed ↔ resource ∈ committed ∧ resource ∉ live := by
  rw [between, Std.ExtTreeSet.mem_toList, Std.ExtTreeSet.mem_diff_iff]

/-- No resource came and went. -/
theorem disjoint_between (committed live : ResourceSet) :
    (between committed live).added.Disjoint (between committed live).removed := by
  intro resource hadded hremoved
  exact (mem_added_between.mp hadded).2 (mem_removed_between.mp hremoved).1

/-- The drift turns the committed set into the live one. -/
theorem applyTo_between (committed live : ResourceSet) :
    (between committed live).applyTo committed = live := by
  apply Std.ExtTreeSet.ext_mem
  intro resource
  rw [mem_applyTo, mem_removed_between, mem_added_between]
  by_cases hcommitted : resource ∈ committed <;> simp [hcommitted]

/-- As many resources came or went as are in just one of the sets. -/
theorem changeCount_between (committed live : ResourceSet) :
    (between committed live).changeCount = (symmDiff committed.members live.members).card := by
  have hdisjoint : Disjoint (committed.members \ live.members) (live.members \ committed.members) :=
    disjoint_sdiff_sdiff
  rw [symmDiff_def, Finset.sup_eq_union, Finset.card_union_of_disjoint hdisjoint,
    ← ResourceSet.members_sdiff, ← ResourceSet.members_sdiff, ResourceSet.card_members,
    ResourceSet.card_members, changeCount, between, Std.ExtTreeSet.length_toList,
    Std.ExtTreeSet.length_toList, Nat.add_comm]

/-- Whatever turns the committed set into the live one takes out and puts in what the drift
does. -/
theorem between_least {drift : Drift} (h : drift.applyTo committed = live) :
    (between committed live).removed ⊆ drift.removed ∧
      (between committed live).added ⊆ drift.added := by
  subst h
  constructor
  · intro resource hremoved
    obtain ⟨hcommitted, hgone⟩ := mem_removed_between.mp hremoved
    by_contra hkept
    exact hgone (mem_applyTo.mpr (.inl ⟨hcommitted, hkept⟩))
  · intro resource hadded
    obtain ⟨hlive, hnew⟩ := mem_added_between.mp hadded
    rcases mem_applyTo.mp hlive with ⟨hcommitted, -⟩ | hadded
    · exact absurd hcommitted hnew
    · exact hadded

/-- The drift between any two sets has two disjoint lists that ascend strictly in the order of
bytes. It takes out only committed resources, puts in only others, and so turns the committed
set into the live one. It is up to date exactly if the sets are equal, counts the resources that
are in just one of them, and is turned round with the sets. Any two lists that turn the
committed set into the live one contain those of the drift. -/
theorem between_isExactPatch (committed live : ResourceSet) :
    let drift := between committed live
    drift.added.Pairwise Resource.BytesBefore ∧ drift.removed.Pairwise Resource.BytesBefore ∧
      drift.added.Disjoint drift.removed ∧
      drift.applyTo committed = live ∧
      (∀ resource ∈ drift.removed, resource ∈ committed) ∧
      (∀ resource ∈ drift.added, resource ∉ committed) ∧
      (drift.isUpToDate = true ↔ committed = live) ∧
      drift.changeCount = (symmDiff committed.members live.members).card ∧
      between live committed = drift.swap ∧
      ∀ other : Drift, other.applyTo committed = live →
        drift.removed ⊆ other.removed ∧ drift.added ⊆ other.added := by
  intro drift
  exact ⟨ResourceSet.pairwise_bytesBefore _, ResourceSet.pairwise_bytesBefore _,
    disjoint_between committed live, applyTo_between committed live,
    fun resource h => (mem_removed_between.mp h).1, fun resource h => (mem_added_between.mp h).2,
    isUpToDate_between, changeCount_between committed live, rfl, fun other h => between_least h⟩

/-- A resource is replaced by its two neighbours. It would do as well to take out all that was
committed and to put in all that is live, but not to do less. -/
theorem between_isExactPatch_neighbours :
    let committed : ResourceSet := .ofList [⟨"string", "b"⟩, ⟨"color", "z"⟩]
    let live : ResourceSet := .ofList [⟨"string", "c"⟩, ⟨"color", "z"⟩, ⟨"string", "a"⟩]
    let whole : Drift := ⟨live.toList, committed.toList⟩
    between committed live = ⟨[⟨"string", "a"⟩, ⟨"string", "c"⟩], [⟨"string", "b"⟩]⟩ ∧
      whole.applyTo committed = live ∧
      (between committed live).removed ⊆ whole.removed ∧
      (between committed live).added ⊆ whole.added := by
  intro committed live whole
  have hwhole : whole.applyTo committed = live := by
    apply Std.ExtTreeSet.ext_mem
    intro resource
    rw [mem_applyTo, Std.ExtTreeSet.mem_toList, Std.ExtTreeSet.mem_toList]
    simp
  obtain ⟨-, -, -, -, -, -, -, -, -, hleast⟩ := between_isExactPatch committed live
  exact ⟨by decide +kernel, hwhole, hleast whole hwhole⟩

end OverlayManifest.Drift
