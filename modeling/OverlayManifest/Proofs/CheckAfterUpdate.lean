/-
# Checks right after updates

A check right after an update finds the manifest up to date unless the update has
changed what is scanned or excluded. Where the manifest is a resource file itself, it
declares a resource and, if it is looked into, the ids that its texts create.
-/

import OverlayManifest.Proofs.DriftDetection

namespace OverlayManifest

/-- What a manifest declares when a scan finds it as the given file. -/
def Manifest.declaredAs (manifest : Manifest) (file : ResourceFile) : List Resource :=
  match file.kind with
  | .values => []
  | .files type =>
      match file.resourceName? with
      | none => []
      | some name =>
          ⟨type, name⟩ :: if file.isXml ∧ type ≠ "raw" then
            Document.Ids.createdIn manifest.writtenTexts else []

/-- A document that can be read declares what is read from its text. -/
theorem readDocument_toUTF8 {file : FoundFile} {text : String} {declared : List Resource}
    {read : String → Except Document.Fault (List Resource)}
    (hbytes : file.bytes = text.toUTF8)
    (h : readDocument file.path file.readText read = .ok declared) :
    read text = .ok declared := by
  obtain ⟨content, htext, hread⟩ := readDocument_eq_ok_iff.mp h
  have hcontent : content = text := by
    unfold FoundFile.readText at htext
    split at htext
    · cases htext
    · rw [hbytes, FileTree.textOf_toUTF8] at htext
      exact (Except.ok.inj htext).symm
  rwa [hcontent] at hread

/-- A manifest that is found as a resource file declares what its texts say. -/
theorem FoundFile.declared_manifest {file : FoundFile} {manifest : Manifest}
    {declared : List Resource} (hbytes : file.bytes = manifest.render.toUTF8)
    (h : file.declared = .ok declared) :
    declared = manifest.declaredAs file.toResourceFile := by
  unfold FoundFile.declared at h
  unfold Manifest.declaredAs
  cases hkind : file.kind with
  | values =>
      rw [hkind] at h
      have hread := readDocument_toUTF8 hbytes h
      rw [Manifest.read_values] at hread
      cases hread
      rfl
  | files type =>
      rw [hkind] at h
      dsimp only at h ⊢
      cases hname : file.resourceName? with
      | none =>
          rw [hname] at h
          cases h
          rfl
      | some name =>
          rw [hname] at h
          dsimp only at h ⊢
          by_cases hids : file.isXml ∧ type ≠ "raw"
          · rw [if_pos hids] at h ⊢
            cases hread : readDocument file.path file.readText Document.Ids.read with
            | error failure =>
                rw [hread] at h
                cases h
            | ok created =>
                have hcreated := readDocument_toUTF8 hbytes hread
                rw [Manifest.read_ids] at hcreated
                rw [hread] at h
                cases h
                cases hcreated
                rfl
          · rw [if_neg hids] at h ⊢
            cases h
            rfl

namespace FileTree

/-- A file that a scan finds anywhere but at `place` declares a resource. -/
def DeclaredElsewhere (tree : FileTree) (settings : Settings) (resources : Path)
    (base place : Location) (resource : Resource) : Prop :=
  ∃ location file, location ≠ place ∧
    tree.foundAt? settings resources base location = some file ∧ resource ∈ file.contents

/-- A manifest that a scan finds at `place` declares a resource. -/
def DeclaredByManifest (tree : FileTree) (settings : Settings) (resources : Path)
    (base place : Location) (manifest : Manifest) (resource : Resource) : Prop :=
  ∃ file, tree.foundAt? settings resources base place = some file ∧
    resource ∈ manifest.declaredAs file.toResourceFile

end FileTree

namespace Check

open FileTree

/-- A scan after an update finds what other files declare, and what the manifest
declares where it is found. -/
theorem mem_rescan_iff {tree after : FileTree} {settings : Settings} {root : Path}
    {manifest : Manifest} {base place : Location} (hclosed : tree.Closed)
    (hbase : tree.locate (settings.resourcesAt root) = .ok base)
    (hrewrites : Rewrites tree after place manifest.render.toUTF8) {rescan : Scan}
    (hrescan : Scan.collect after settings (settings.resourcesAt root) = .ok rescan)
    {resource : Resource} :
    resource ∈ rescan.resources ↔
      tree.DeclaredElsewhere settings (settings.resourcesAt root) base place resource ∨
      after.DeclaredByManifest settings (settings.resourcesAt root) base place manifest
        resource := by
  obtain ⟨files, hfind, hdeclared, rfl⟩ := Scan.collect_eq_ok_iff.mp hrescan
  obtain ⟨_, hlocate, -, -, rfl⟩ := Discovery.find_eq_ok_iff.mp hfind
  have hsame := locate_of_keeps hrewrites.keeps hbase
  rw [hsame] at hlocate
  cases hlocate
  have hplace {file : FoundFile}
      (hfound : after.foundAt? settings (settings.resourcesAt root) base place = some file) :
      file.contents = manifest.declaredAs file.toResourceFile := by
    obtain ⟨directory, name, bytes, -, hbytes, -, -, hselect⟩ :=
      (foundAt?_eq_some_iff hrewrites.closed).mp hfound
    obtain ⟨declared, hfile⟩ := hdeclared file ((mem_foundFiles _ _ _ _).mpr ⟨place, hfound⟩)
    rw [hrewrites.written] at hbytes
    cases hbytes
    have hcontent : file.bytes = manifest.render.toUTF8 := by
      rw [(Discovery.select?_eq_some_iff.mp hselect).1]
    rw [FoundFile.contents, hfile]
    exact file.declared_manifest hcontent hfile
  have hempty : resource ∉ Scan.empty.resources := Std.ExtTreeSet.not_mem_empty
  simp only [Scan.mem_foldl_add, hempty, false_or, mem_foundFiles]
  constructor
  · rintro ⟨file, ⟨location, hfound⟩, hresource⟩
    by_cases hother : location = place
    · subst hother
      rw [hplace hfound] at hresource
      exact .inr ⟨file, hfound, hresource⟩
    · rw [hrewrites.foundAt?_eq hclosed _ _ _ hother] at hfound
      exact .inl ⟨location, file, hother, hfound, hresource⟩
  · rintro (⟨location, file, hother, hfound, hresource⟩ | ⟨file, hfound, hresource⟩)
    · rw [← hrewrites.foundAt?_eq hclosed _ _ _ hother] at hfound
      exact ⟨file, ⟨location, hfound⟩, hresource⟩
    · rw [← hplace hfound] at hresource
      exact ⟨file, ⟨place, hfound⟩, hresource⟩

/-- Right after an update, a check succeeds and finds the manifest up to date exactly if
the tree with the manifest can be scanned and its exclusions can be read, and the kept
resources are those not excluded then that other files declare or that the manifest
itself declares where it is found as a resource file. -/
theorem upToDate_after_run_iff {tree after : FileTree} {settings : Settings} {root : Path}
    {year : Int} {update : Update} (hclosed : tree.Closed)
    (hrun : Update.run tree settings root year = (.ok update, after)) :
    ∃ base place, tree.locate (settings.resourcesAt root) = .ok base ∧
      after.locate (settings.manifestAt root) = .ok place ∧
      ((∃ finding, run after settings root = .ok finding ∧ finding.drift.isUpToDate = true) ↔
        ∃ rescan excluded,
          Scan.collect after settings (settings.resourcesAt root) = .ok rescan ∧
          ResourceSet.loadExclusions after (settings.exclusionsAt root) = .ok excluded ∧
          ∀ resource, resource ∈ update.kept ↔ resource ∉ excluded ∧
            (tree.DeclaredElsewhere settings (settings.resourcesAt root) base place resource ∨
              after.DeclaredByManifest settings (settings.resourcesAt root) base place
                (update.manifest settings year) resource)) := by
  obtain ⟨hplan, hwritten⟩ := Update.run_eq_ok_iff.mp hrun
  obtain ⟨scan, _, hscan, -, -⟩ := Update.plan_eq_ok_iff.mp hplan
  obtain ⟨files, hfind, -⟩ := Scan.collect_eq_ok_iff.mp hscan
  obtain ⟨base, hbase, -⟩ := Discovery.find_eq_ok_iff.mp hfind
  obtain ⟨place, hplace, hrewrites⟩ := Update.rewrites_of_writeDocument hclosed hwritten
  refine ⟨base, place, hbase, hplace, ?_⟩
  have hcommitted : ResourceSet.loadManifest after (settings.manifestAt root) = .ok update.kept :=
    ResourceSet.loadManifest_of_readBytes (Update.readBytes_of_run hclosed hrun)
  constructor
  · rintro ⟨finding, hfinding, hupToDate⟩
    obtain ⟨rescan, excluded, committed, hrescan, hexcluded, hloaded, rfl⟩ :=
      run_eq_ok_iff.mp hfinding
    refine ⟨rescan, excluded, hrescan, hexcluded, fun resource => ?_⟩
    rw [hcommitted] at hloaded
    cases hloaded
    rw [Drift.isUpToDate_between.mp hupToDate, Std.ExtTreeSet.mem_diff_iff,
      mem_rescan_iff hclosed hbase hrewrites hrescan, and_comm]
  · rintro ⟨rescan, excluded, hrescan, hexcluded, hkept⟩
    refine ⟨_, run_eq_ok_iff.mpr ⟨rescan, excluded, _, hrescan, hexcluded, hcommitted, rfl⟩,
      Drift.isUpToDate_between.mpr ?_⟩
    apply Std.ExtTreeSet.ext_mem
    intro resource
    rw [hkept, Std.ExtTreeSet.mem_diff_iff, mem_rescan_iff hclosed hbase hrewrites hrescan,
      and_comm]

/-- A manifest beside the resources is up to date right after an update. -/
theorem upToDate_after_run_rawProject : ∃ update after finding,
    (FileTree.rawProject "a").Closed ∧
      Update.run (.rawProject "a") besideResources ⟨""⟩ 2024 = (.ok update, after) ∧
      run after besideResources ⟨""⟩ = .ok finding ∧ finding.drift.isUpToDate = true := by
  obtain ⟨update, hrun, hkept⟩ := run_rawProject
  have hclosed := FileTree.closed_rawProject
  obtain ⟨base, place, hbase, hplace, hiff⟩ := upToDate_after_run_iff hclosed hrun
  obtain ⟨place', hplace', hrewrites⟩ :=
    Update.rewrites_of_writeDocument hclosed (Update.run_eq_ok_iff.mp hrun).2
  have hsame : place' = place := Except.ok.inj (hplace'.symm.trans hplace)
  subst hsame
  have hfree : (rawProjectBeside "a").LinkFree := by decide
  have hrescan : ∃ rescan,
      Scan.collect (rawProjectBeside "a") besideResources ⟨"res"⟩ = .ok rescan ∧
        rescan.resources \ ∅ = .ofList [⟨"raw", "a"⟩] := by
    rw [Scan.collect, Discovery.find, FileTree.locate_eq_walk hfree (by decide)]
    exact ⟨_, rfl, rfl⟩
  have hexcluded :
      ResourceSet.loadExclusions (rawProjectBeside "a") ⟨"chassis_overlayable.xml"⟩ = .ok ∅ :=
    ResourceSet.loadExclusions_of_find? (FileTree.find?_of_walk hfree (by decide) rfl rfl)
  obtain ⟨rescan, hrescan, hresources⟩ := hrescan
  obtain ⟨finding, hfinding, hupToDate⟩ := hiff.mpr
    ⟨rescan, ∅, hrescan, hexcluded, fun resource => by
      rw [← mem_rescan_iff hclosed hbase hrewrites hrescan, and_comm,
        ← Std.ExtTreeSet.mem_diff_iff, hresources, hkept]⟩
  exact ⟨update, _, finding, hclosed, hrun, hfinding, hupToDate⟩

/-- Settings that put the manifest among the raw resources. -/
def amongRawResources : Settings := { manifest := ⟨"res/raw/overlayable.xml"⟩ }

/-- The project with one raw resource and its manifest beside it. -/
def rawProjectAfter : FileTree :=
  (FileTree.rawProject "a").set ["res", "raw", "overlayable.xml"] (.file rawManifest.render.toUTF8)

/-- The project with one raw resource is updated with its manifest beside it. -/
theorem run_amongRawResources : ∃ update,
    Update.run (.rawProject "a") amongRawResources ⟨"."⟩ 2024 = (.ok update, rawProjectAfter) ∧
      update.kept = .ofList [⟨"raw", "a"⟩] := by
  have hfree := FileTree.linkFree_rawProject
  have hcollect : ∃ scan, Scan.collect (.rawProject "a") amongRawResources ⟨"./res"⟩ = .ok scan ∧
      scan.resources \ ∅ = .ofList [⟨"raw", "a"⟩] := by
    rw [Scan.collect, Discovery.find, FileTree.locate_eq_walk hfree (by decide)]
    exact ⟨_, rfl, rfl⟩
  have hexcluded :
      ResourceSet.loadExclusions (.rawProject "a") ⟨"./chassis_overlayable.xml"⟩ = .ok ∅ :=
    ResourceSet.loadExclusions_of_find? (FileTree.find?_of_walk hfree (by decide) rfl rfl)
  have hwrite : Update.writeDocument (.rawProject "a") ⟨"./res/raw/overlayable.xml"⟩
      rawManifest.render = (.ok (), rawProjectAfter) :=
    Update.writeDocument_of_walk hfree ⟨"./res/raw"⟩ (by decide) (by decide) rfl
      rfl (by decide) rfl (by decide)
  obtain ⟨scan, hscan, hkept⟩ := hcollect
  exact ⟨_, Update.run_of_kept hscan hexcluded hkept hwrite, rfl⟩

/-- Where the manifest is a resource file itself, a check right after an update finds the
manifest not up to date. -/
theorem not_upToDate_after_run : ∃ update,
    (FileTree.rawProject "a").Closed ∧
      amongRawResources.manifest ≠ amongRawResources.exclusions ∧
      Update.run (.rawProject "a") amongRawResources ⟨"."⟩ 2024 = (.ok update, rawProjectAfter) ∧
      ¬ ∃ finding, run rawProjectAfter amongRawResources ⟨"."⟩ = .ok finding ∧
        finding.drift.isUpToDate = true := by
  have hfree : rawProjectAfter.LinkFree := by decide
  have hrescan : ∃ rescan, Scan.collect rawProjectAfter amongRawResources ⟨"./res"⟩ = .ok rescan ∧
      rescan.resources = .ofList [⟨"raw", "a"⟩, ⟨"raw", "overlayable"⟩] := by
    rw [Scan.collect, Discovery.find, FileTree.locate_eq_walk hfree (by decide)]
    exact ⟨_, rfl, rfl⟩
  have hexcluded :
      ResourceSet.loadExclusions rawProjectAfter ⟨"./chassis_overlayable.xml"⟩ = .ok ∅ :=
    ResourceSet.loadExclusions_of_find? (FileTree.find?_of_walk hfree (by decide) rfl rfl)
  obtain ⟨rescan, hrescan, hresources⟩ := hrescan
  obtain ⟨update, hrun, hkept⟩ := run_amongRawResources
  have hclosed := FileTree.closed_rawProject
  refine ⟨update, hclosed, by decide, hrun, ?_⟩
  rintro ⟨finding, hfinding, hupToDate⟩
  obtain ⟨scan, excluded, committed, hscan, hloaded, hcommitted, rfl⟩ :=
    run_eq_ok_iff.mp hfinding
  have hscanned : rescan = scan := Except.ok.inj (hrescan.symm.trans hscan)
  have hnothing : ∅ = excluded := Except.ok.inj (hexcluded.symm.trans hloaded)
  have hwritten : update.kept = committed :=
    Except.ok.inj ((ResourceSet.loadManifest_of_readBytes
      (Update.readBytes_of_run hclosed hrun)).symm.trans hcommitted)
  -- The committed set lacks the resource that the manifest is.
  have hown : (⟨"raw", "overlayable"⟩ : Resource) ∈ committed := by
    rw [Drift.isUpToDate_between.mp hupToDate, ← hscanned, ← hnothing, hresources,
      Std.ExtTreeSet.mem_diff_iff]
    simp
  rw [← hwritten, hkept] at hown
  simp at hown

end Check

end OverlayManifest
