/-
# Manifests are read back

What is listed in a rendered manifest is what was left of the scanned resources
without the excluded ones, and rendering what was read gives the same text again.
-/

import OverlayManifest.Proofs.ManifestContents
import OverlayManifest.Proofs.ResourceOrder

namespace OverlayManifest.Manifest

/-- A rendered manifest can be read, whatever its texts. The listing has exactly the
scanned resources that are not excluded, each once and in strictly ascending order,
and the manifest of what was listed has the same text. -/
theorem listing_of_render (overlayable policy : String) (year : Int)
    (scanned excluded : ResourceSet) :
    ∃ listed, Document.Listing.read
        (render ⟨overlayable, policy, year, scanned \ excluded⟩) = .ok listed ∧
      (∀ resource, resource ∈ listed ↔ resource ∈ scanned ∧ resource ∉ excluded) ∧
      listed.Pairwise Resource.Before ∧
      render ⟨overlayable, policy, year, ResourceSet.ofList listed⟩ =
        render ⟨overlayable, policy, year, scanned \ excluded⟩ := by
  refine ⟨(scanned \ excluded).toList, read_listing _, ?_, ResourceSet.pairwise_toList _, ?_⟩
  · intro resource
    rw [Std.ExtTreeSet.mem_toList, Std.ExtTreeSet.mem_diff_iff]
  · rw [ResourceSet.ofList_toList]

end OverlayManifest.Manifest
