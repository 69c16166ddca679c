/-
# Drift is detected exactly

Whatever happens to a project after an update, as long as its manifest is left alone
a check finds exactly what came and what went since.
-/

import OverlayManifest.Proofs.Runs

namespace OverlayManifest.Check

/-- After an update, the manifest holds what was written. As long as a later tree still
holds that in the manifest, a check that scans it and reads its exclusions succeeds.
It finds as added exactly what is kept of the later scan and was not kept by the
update, and as removed exactly what the update kept and is not kept any more, both in
strictly ascending order. The manifest is up to date exactly if both keep the same. -/
theorem drift_since_update {tree after : FileTree} {settings : Settings} {root : Path}
    {year : Int} {update : Update}
    (hrun : Update.run tree settings root year = (.ok update, after)) :
    ∃ excluded, Scan.collect tree settings (settings.resourcesAt root) = .ok update.scan ∧
      ResourceSet.loadExclusions tree (settings.exclusionsAt root) = .ok excluded ∧
      update.kept = update.scan.resources \ excluded ∧
      (tree.Closed → after.readBytes (settings.manifestAt root) =
        .ok (update.manifest settings year).render.toUTF8) ∧
      ∀ (later : FileTree) (checked : Settings) (scan : Scan) (laterExcluded : ResourceSet),
        checked.manifest = settings.manifest →
        later.readBytes (settings.manifestAt root) =
          .ok (update.manifest settings year).render.toUTF8 →
        Scan.collect later checked (checked.resourcesAt root) = .ok scan →
        ResourceSet.loadExclusions later (checked.exclusionsAt root) = .ok laterExcluded →
        ∃ finding, run later checked root = .ok finding ∧
          (∀ resource, resource ∈ finding.drift.added ↔
            (resource ∈ scan.resources ∧ resource ∉ laterExcluded) ∧
              ¬ (resource ∈ update.scan.resources ∧ resource ∉ excluded)) ∧
          (∀ resource, resource ∈ finding.drift.removed ↔
            (resource ∈ update.scan.resources ∧ resource ∉ excluded) ∧
              ¬ (resource ∈ scan.resources ∧ resource ∉ laterExcluded)) ∧
          finding.drift.added.Pairwise Resource.Before ∧
          finding.drift.removed.Pairwise Resource.Before ∧
          (finding.drift.isUpToDate = true ↔
            update.scan.resources \ excluded = scan.resources \ laterExcluded) := by
  obtain ⟨foundScan, excluded, hcollect, hexcluded, rfl⟩ :=
    Update.plan_eq_ok_iff.mp (Update.run_eq_ok_iff.mp hrun).1
  refine ⟨excluded, hcollect, hexcluded, rfl,
    fun hclosed => Update.readBytes_of_run hclosed hrun, ?_⟩
  intro later checked scan laterExcluded hmanifest hbytes hlaterScan hlaterExcluded
  have hcommitted : ResourceSet.loadManifest later (checked.manifestAt root) =
      .ok (foundScan.resources \ excluded) := by
    rw [Settings.manifestAt, hmanifest]
    exact ResourceSet.loadManifest_of_readBytes hbytes
  refine ⟨_, run_eq_ok_iff.mpr ⟨scan, laterExcluded, _, hlaterScan, hlaterExcluded, hcommitted,
    rfl⟩, ?_, ?_, ResourceSet.pairwise_toList _, ResourceSet.pairwise_toList _,
    Drift.isUpToDate_between⟩
  · intro resource
    simp only [Drift.between, Std.ExtTreeSet.mem_toList, Std.ExtTreeSet.mem_diff_iff]
  · intro resource
    simp only [Drift.between, Std.ExtTreeSet.mem_toList, Std.ExtTreeSet.mem_diff_iff]

/-- Settings that keep the manifest beside the resources. -/
def besideResources : Settings := { manifest := ⟨"overlayable.xml"⟩ }

/-- The manifest of a project with the raw resource `a`. -/
def rawManifest : Manifest := ⟨"CarSettings", "public", 2024, .ofList [⟨"raw", "a"⟩]⟩

/-- A project with a raw resource and the manifest of `a` beside its resources. -/
def rawProjectBeside (name : String) : FileTree :=
  (FileTree.rawProject name).set ["overlayable.xml"] (.file rawManifest.render.toUTF8)

/-- The project with one raw resource is updated. -/
theorem run_rawProject : ∃ update,
    Update.run (.rawProject "a") besideResources ⟨""⟩ 2024 =
        (.ok update, rawProjectBeside "a") ∧
      update.kept = .ofList [⟨"raw", "a"⟩] := by
  have hfree := FileTree.linkFree_rawProject
  have hcollect : ∃ scan, Scan.collect (.rawProject "a") besideResources ⟨"res"⟩ = .ok scan ∧
      scan.resources \ ∅ = .ofList [⟨"raw", "a"⟩] := by
    rw [Scan.collect, Discovery.find, FileTree.locate_eq_walk hfree (by decide)]
    exact ⟨_, rfl, rfl⟩
  have hexcluded :
      ResourceSet.loadExclusions (.rawProject "a") ⟨"chassis_overlayable.xml"⟩ = .ok ∅ :=
    ResourceSet.loadExclusions_of_find? (FileTree.find?_of_walk hfree (by decide) rfl rfl)
  have hwrite : Update.writeDocument (.rawProject "a") ⟨"overlayable.xml"⟩ rawManifest.render =
      (.ok (), rawProjectBeside "a") := by
    refine Update.writeDocument_of_hasDirectory ⟨""⟩ (by decide) (.inl rfl) ?_
    rw [FileTree.writeFile, FileTree.locateToWrite_eq_walk hfree (by decide)]
    rfl
  obtain ⟨scan, hscan, hkept⟩ := hcollect
  exact ⟨_, Update.run_of_kept hscan hexcluded hkept hwrite, rfl⟩

/-- One raw resource is replaced by another after an update. -/
theorem drift_since_update_rawProject : ∃ update after finding,
    Update.run (.rawProject "a") besideResources ⟨""⟩ 2024 = (.ok update, after) ∧
      (rawProjectBeside "b").readBytes ⟨"overlayable.xml"⟩ =
        .ok (update.manifest besideResources 2024).render.toUTF8 ∧
      run (rawProjectBeside "b") besideResources ⟨""⟩ = .ok finding ∧
      ⟨"raw", "b"⟩ ∈ finding.drift.added ∧ ⟨"raw", "a"⟩ ∈ finding.drift.removed := by
  obtain ⟨update, hrun, hkept⟩ := run_rawProject
  have hfree : (rawProjectBeside "b").LinkFree := by decide
  have hbytes : (rawProjectBeside "b").readBytes ⟨"overlayable.xml"⟩ =
      .ok (update.manifest besideResources 2024).render.toUTF8 := by
    rw [Update.manifest, hkept, FileTree.readBytes, FileTree.find?,
      FileTree.locate_eq_walk hfree (by decide)]
    rfl
  have hcollect : ∃ scan, Scan.collect (rawProjectBeside "b") besideResources ⟨"res"⟩ = .ok scan ∧
      scan.resources = .ofList [⟨"raw", "b"⟩] := by
    rw [Scan.collect, Discovery.find, FileTree.locate_eq_walk hfree (by decide)]
    exact ⟨_, rfl, rfl⟩
  have hexcluded :
      ResourceSet.loadExclusions (rawProjectBeside "b") ⟨"chassis_overlayable.xml"⟩ = .ok ∅ :=
    ResourceSet.loadExclusions_of_find? (FileTree.find?_of_walk hfree (by decide) rfl rfl)
  obtain ⟨scan, hscan, hresources⟩ := hcollect
  obtain ⟨excluded, -, -, hdifference, -, hlater⟩ := drift_since_update hrun
  obtain ⟨finding, hfinding, hadded, hremoved, -⟩ :=
    hlater (rawProjectBeside "b") besideResources scan ∅ rfl hbytes hscan hexcluded
  have hbefore (resource : Resource) :
      (resource ∈ update.scan.resources ∧ resource ∉ excluded) ↔ resource = ⟨"raw", "a"⟩ := by
    rw [← Std.ExtTreeSet.mem_diff_iff, ← hdifference, hkept]
    simp
  refine ⟨update, _, finding, hrun, hbytes, hfinding, ?_, ?_⟩
  · rw [hadded, hbefore, hresources]
    simp
  · rw [hremoved, hbefore, hresources]
    simp

end OverlayManifest.Check
