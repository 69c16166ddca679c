/-
# Successful runs

An update that succeeds has scanned, has read the exclusions and has written the
rendered manifest, which can then be read back. A check that succeeds has compared
what is kept of a scan with what the manifest names.
-/

import OverlayManifest.Check
import OverlayManifest.Update
import OverlayManifest.Proofs.LinkFree
import OverlayManifest.Proofs.ManifestContents
import OverlayManifest.Proofs.ResourceOrder
import OverlayManifest.Proofs.Rewriting

namespace OverlayManifest

namespace Drift

/-- Nothing came and nothing went exactly if both sets are the same. -/
theorem isUpToDate_between {committed live : ResourceSet} :
    (between committed live).isUpToDate = true ↔ committed = live := by
  simp only [isUpToDate, between, Std.ExtTreeSet.isEmpty_toList, Bool.and_eq_true,
    Std.ExtTreeSet.isEmpty_iff, Std.ExtTreeSet.eq_empty_iff_forall_not_mem,
    Std.ExtTreeSet.mem_diff_iff]
  constructor
  · rintro ⟨hadded, hremoved⟩
    apply Std.ExtTreeSet.ext_mem
    intro resource
    by_cases hcommitted : resource ∈ committed
    · by_cases hlive : resource ∈ live
      · simp [hcommitted, hlive]
      · exact absurd ⟨hcommitted, hlive⟩ (hremoved resource)
    · by_cases hlive : resource ∈ live
      · exact absurd ⟨hlive, hcommitted⟩ (hadded resource)
      · simp [hcommitted, hlive]
  · rintro rfl
    exact ⟨fun resource h => h.2 h.1, fun resource h => h.2 h.1⟩

/-- A drift that is up to date has no changes. -/
theorem changeCount_of_isUpToDate {drift : Drift} (h : drift.isUpToDate = true) :
    drift.changeCount = 0 := by
  rw [isUpToDate_iff] at h
  rw [changeCount, h.1, h.2]
  rfl

end Drift

namespace ResourceSet

/-- A written manifest names the resources it was made for. -/
theorem loadManifest_of_readBytes {tree : FileTree} {path : Path} {manifest : Manifest}
    (h : tree.readBytes path = .ok manifest.render.toUTF8) :
    loadManifest tree path = .ok manifest.resources := by
  have hfile : tree.hasFile path = true := by
    unfold FileTree.readBytes at h
    unfold FileTree.hasFile
    split at h
    · cases h
    · rename_i hfound
      rw [hfound]
    · cases h
  have htext : tree.readText path = .ok manifest.render := by
    rw [FileTree.readText, h]
    exact FileTree.textOf_toUTF8 _
  rw [loadManifest, if_pos hfile, load, htext]
  simp only [readDocument, Manifest.read_listing, Except.map, ofList_toList]

/-- Exclusions that are not there exclude nothing. -/
theorem loadExclusions_of_find? {tree : FileTree} {path : Path} {fault : FileTree.Fault}
    (h : tree.find? path = .error fault) : loadExclusions tree path = .ok ∅ := by
  have hentry : tree.hasEntry path = false := by rw [FileTree.hasEntry, h]
  rw [loadExclusions, if_neg (by simp [hentry])]

end ResourceSet

namespace Update

/-- A plan is a scan and what is left of it without the exclusions. -/
theorem plan_eq_ok_iff {tree : FileTree} {settings : Settings} {root : Path} {update : Update} :
    plan tree settings root = .ok update ↔
      ∃ scan excluded, Scan.collect tree settings (settings.resourcesAt root) = .ok scan ∧
        ResourceSet.loadExclusions tree (settings.exclusionsAt root) = .ok excluded ∧
        update = ⟨scan, scan.resources \ excluded⟩ := by
  unfold plan
  cases Scan.collect tree settings (settings.resourcesAt root) with
  | error => simp [bind, Except.bind]
  | ok scan =>
      cases ResourceSet.loadExclusions tree (settings.exclusionsAt root) with
      | error => simp [bind, Except.bind]
      | ok excluded => simp [bind, Except.bind, pure, Except.pure, eq_comm]

/-- An update succeeds if its plan and its writing do. -/
theorem run_eq_ok_iff {tree after : FileTree} {settings : Settings} {root : Path} {year : Int}
    {update : Update} :
    run tree settings root year = (.ok update, after) ↔
      plan tree settings root = .ok update ∧
        writeDocument tree (settings.manifestAt root) (update.manifest settings year).render =
          (.ok (), after) := by
  unfold run
  split
  · rename_i hplan
    simp [hplan]
  · rename_i planned hplan
    constructor
    · intro h
      split at h
      · cases h
      · rename_i hwritten
        cases h
        exact ⟨hplan, hwritten⟩
    · rintro ⟨hplan', hwritten⟩
      rw [hplan] at hplan'
      cases hplan'
      rw [hwritten]

/-- What an update keeps decides what it writes. -/
theorem run_of_kept {tree after : FileTree} {settings : Settings} {root : Path} {year : Int}
    {scan : Scan} {excluded kept : ResourceSet}
    (hscan : Scan.collect tree settings (settings.resourcesAt root) = .ok scan)
    (hexcluded : ResourceSet.loadExclusions tree (settings.exclusionsAt root) = .ok excluded)
    (hkept : scan.resources \ excluded = kept)
    (hwritten : writeDocument tree (settings.manifestAt root)
      (Manifest.mk settings.overlayable settings.policy year kept).render = (.ok (), after)) :
    run tree settings root year = (.ok ⟨scan, kept⟩, after) := by
  subst hkept
  exact run_eq_ok_iff.mpr ⟨plan_eq_ok_iff.mpr ⟨scan, excluded, hscan, hexcluded, rfl⟩, hwritten⟩

/-- A document is written once the directories above it are made. -/
theorem writeDocument_eq_ok {tree after : FileTree} {path : Path} {text : String}
    (h : writeDocument tree path text = (.ok (), after)) :
    ∃ grown, (path.parent?.map tree.makeDirectories).getD (.ok (), tree) = (.ok (), grown) ∧
      grown.writeFile path text.toUTF8 = .ok after := by
  unfold writeDocument at h
  split at h
  · cases h
  · rename_i grown hgrown
    split at h
    · cases h
    · rename_i hwritten
      cases h
      exact ⟨grown, hgrown, hwritten⟩

/-- The directories above a path keep a tree closed and add nothing but directories. -/
theorem grows_above {tree grown : FileTree} (hclosed : tree.Closed) {path : Path}
    (h : (path.parent?.map tree.makeDirectories).getD (.ok (), tree) = (.ok (), grown)) :
    grown.Closed ∧ FileTree.Grows tree grown := by
  cases hparent : path.parent? with
  | none =>
      rw [hparent] at h
      cases h
      exact ⟨hclosed, .refl tree⟩
  | some parent =>
      rw [hparent] at h
      have hgrown : grown = (tree.makeDirectories parent).2 := (congrArg Prod.snd h).symm
      rw [hgrown]
      exact ⟨hclosed.makeDirectories parent, tree.makeDirectories_grows parent⟩

/-- An update, be it successful or not, changes its tree by making directories and by
writing one file. -/
theorem built_of_run {tree : FileTree} (h : tree.Built) (settings : Settings) (root : Path)
    (year : Int) : (run tree settings root year).2.Built := by
  have hwrite (path : Path) (text : String) : (writeDocument tree path text).2.Built := by
    have habove : (path.parent?.map tree.makeDirectories |>.getD (.ok (), tree)).2.Built := by
      cases path.parent? with
      | none => exact h
      | some parent => exact h.change (.directories parent)
    unfold writeDocument
    split
    · rename_i hfault
      rw [hfault] at habove
      exact habove
    · rename_i hmade
      rw [hmade] at habove
      split
      · exact habove
      · rename_i hwritten
        exact habove.change (.file hwritten)
  unfold run
  split
  · exact h
  · rename_i update _
    have hafter := hwrite (settings.manifestAt root) (update.manifest settings year).render
    split
    · rename_i hfault
      rw [hfault] at hafter
      exact hafter
    · rename_i hwritten
      rw [hwritten] at hafter
      exact hafter

/-- A written document rewrites the place that its path leads to afterwards. -/
theorem rewrites_of_writeDocument {tree after : FileTree} (hclosed : tree.Closed) {path : Path}
    {text : String} (h : writeDocument tree path text = (.ok (), after)) :
    ∃ place, after.locate path = .ok place ∧ FileTree.Rewrites tree after place text.toUTF8 := by
  obtain ⟨grown, hgrown, hwritten⟩ := writeDocument_eq_ok h
  obtain ⟨hgrownClosed, hgrows⟩ := grows_above hclosed hgrown
  obtain ⟨place, -, hplace, hrewrites, -⟩ := FileTree.rewrites_of_writeFile hgrownClosed hwritten
  exact ⟨place, hplace, hgrows.rewrites hrewrites⟩

/-- No directory is made to write a document in a directory. -/
theorem writeDocument_of_hasDirectory {tree after : FileTree} {path : Path} {text : String}
    (parent : Path) (hparent : path.parent? = some parent)
    (hdirectory : parent.text = "" ∨ tree.hasDirectory parent = true)
    (hwritten : tree.writeFile path text.toUTF8 = .ok after) :
    writeDocument tree path text = (.ok (), after) := by
  rw [writeDocument, hparent, Option.map_some, Option.getD_some,
    FileTree.makeDirectories_of_hasDirectory hdirectory]
  simp only [hwritten]

/-- Where a document is written is evaluated by walks, if its directory is there. -/
theorem writeDocument_of_walk {tree : FileTree} (hfree : tree.LinkFree) {path : Path}
    {text : String} (parent : Path) (hparent : path.parent? = some parent)
    (hparentFault : FileTree.textFault? parent = none) {above location : Location}
    (hparentWalk : tree.walk false (FileTree.startOf tree.workingDirectory parent)
      (FileTree.namesOf parent) = .ok above)
    (habove : tree.lookup? above = some .directory)
    (hfault : FileTree.textFault? path = none)
    (hwalk : tree.walk true (FileTree.startOf tree.workingDirectory path)
      (FileTree.namesOf path) = .ok location)
    (hlocation : tree.lookup? location ≠ some .directory) :
    writeDocument tree path text = (.ok (), tree.set location (.file text.toUTF8)) := by
  refine writeDocument_of_hasDirectory parent hparent (.inr ?_) ?_
  · rw [FileTree.hasDirectory_iff, FileTree.locate_eq_walk hfree hparentFault]
    exact ⟨above, hparentWalk, habove⟩
  · rw [FileTree.writeFile, FileTree.locateToWrite_eq_walk hfree hfault, hwalk]
    dsimp only
    split
    · rename_i hdirectory
      exact absurd hdirectory hlocation
    · rfl

/-- The manifest holds what an update wrote. -/
theorem readBytes_of_run {tree after : FileTree} (hclosed : tree.Closed) {settings : Settings}
    {root : Path} {year : Int} {update : Update}
    (h : run tree settings root year = (.ok update, after)) :
    after.readBytes (settings.manifestAt root) =
      .ok (update.manifest settings year).render.toUTF8 := by
  obtain ⟨place, hplace, hrewrites⟩ :=
    rewrites_of_writeDocument hclosed (run_eq_ok_iff.mp h).2
  rw [FileTree.readBytes, FileTree.find?, hplace]
  simp only [hrewrites.written]

end Update

namespace Check

/-- A check compares what is left of a scan with what the manifest names. -/
theorem run_eq_ok_iff {tree : FileTree} {settings : Settings} {root : Path}
    {finding : Report.Finding} :
    run tree settings root = .ok finding ↔
      ∃ scan excluded committed,
        Scan.collect tree settings (settings.resourcesAt root) = .ok scan ∧
        ResourceSet.loadExclusions tree (settings.exclusionsAt root) = .ok excluded ∧
        ResourceSet.loadManifest tree (settings.manifestAt root) = .ok committed ∧
        finding = ⟨root, settings.manifestAt root,
          .between committed (scan.resources \ excluded), scan.origins⟩ := by
  unfold run
  dsimp only
  cases Scan.collect tree settings (settings.resourcesAt root) with
  | error => simp [bind, Except.bind]
  | ok scan =>
      cases ResourceSet.loadExclusions tree (settings.exclusionsAt root) with
      | error => simp [bind, Except.bind]
      | ok excluded =>
          cases ResourceSet.loadManifest tree (settings.manifestAt root) with
          | error => simp [bind, Except.bind]
          | ok committed => simp [bind, Except.bind, pure, Except.pure, eq_comm]

end Check

end OverlayManifest
