/-
# Scans of rewritten trees

A file that declares nothing, written where nothing was declared, is not noticed by a
scan: it finds the same resources in the same files.
-/

import OverlayManifest.Proofs.Rewriting

namespace OverlayManifest

namespace FileTree

/-- Two trees where the same files with contents are found have the same files with
contents, in the same order. -/
theorem filter_foundFiles_eq {tree after : FileTree} {settings : Settings} {resources : Path}
    {base : Location}
    (h : ∀ location,
      (after.foundAt? settings resources base location).filter (!·.contents.isEmpty) =
        (tree.foundAt? settings resources base location).filter (!·.contents.isEmpty)) :
    (tree.foundFiles settings resources base).filter (!·.contents.isEmpty) =
      (after.foundFiles settings resources base).filter (!·.contents.isEmpty) := by
  obtain ⟨found, hfound, hfiles⟩ := tree.foundFiles_eq settings resources base
  obtain ⟨foundAfter, hfoundAfter, hfilesAfter⟩ := after.foundFiles_eq settings resources base
  have hsame : found.filter (fun _ file => !file.contents.isEmpty) =
      foundAfter.filter fun _ file => !file.contents.isEmpty := by
    apply Std.ExtTreeMap.ext_getElem?
    intro location
    rw [Std.ExtTreeMap.getElem?_filter', Std.ExtTreeMap.getElem?_filter', hfound, hfoundAfter]
    exact (h location).symm
  have hlist := congrArg (fun found => found.toList.map (·.2)) hsame
  simp only [Std.ExtTreeMap.toList_filter] at hlist
  rw [hfiles, hfilesAfter, List.filter_map, List.filter_map]
  exact hlist

end FileTree

open FileTree

/-- Discovery still succeeds if the directories that were made can be listed. -/
theorem Discovery.find_of_rewrites {tree after : FileTree} {settings : Settings}
    {resources : Path} {base place : Location} {bytes : ByteArray} {files : List FoundFile}
    (hrewrites : Rewrites tree after place bytes) (hbase : tree.locate resources = .ok base)
    (hfind : find tree settings resources = .ok files)
    (hlisted : ∀ name : FileName, tree.lookup? (base ++ [name]) = none →
      after.lookup? (base ++ [name]) = some .directory → name.isHidden = false →
        fileFault? (.inside resources name) = none) :
    find after settings resources = .ok (after.foundFiles settings resources base) := by
  obtain ⟨base', hlocate, hdirectory, hreadable, -⟩ := find_eq_ok_iff.mp hfind
  have hsame : base' = base := Except.ok.inj (hlocate.symm.trans hbase)
  subst hsame
  refine find_eq_ok_iff.mpr ⟨base', locate_of_keeps hrewrites.keeps hbase,
    hrewrites.keeps.directory hdirectory, fun name hname hvisible => ?_, rfl⟩
  have hother : base' ++ [name] ≠ place := by
    intro hplace
    rw [hplace, hrewrites.written] at hname
    cases hname
  rcases hrewrites.elsewhere _ hother with hsame | ⟨hnone, -⟩
  · exact hreadable name (hsame ▸ hname) hvisible
  · exact hlisted name hnone hname hvisible

/-- A file that declares nothing, in a place where nothing was declared, leaves the
findings of a scan as they are. -/
theorem Scan.collect_of_rewrites {tree after : FileTree} {settings : Settings} {resources : Path}
    {base place : Location} {bytes : ByteArray} {scan : Scan} (hclosed : tree.Closed)
    (hrewrites : Rewrites tree after place bytes) (hbase : tree.locate resources = .ok base)
    (hscan : collect tree settings resources = .ok scan)
    (hlisted : ∀ name : FileName, tree.lookup? (base ++ [name]) = none →
      after.lookup? (base ++ [name]) = some .directory → name.isHidden = false →
        fileFault? (.inside resources name) = none)
    (hbefore : ∀ file, tree.foundAt? settings resources base place = some file →
      file.contents = [])
    (hafter : ∀ file, after.foundAt? settings resources base place = some file →
      file.declared = .ok []) :
    ∃ rescan, collect after settings resources = .ok rescan ∧ SameFindings scan rescan := by
  obtain ⟨files, hfind, hdeclared, rfl⟩ := collect_eq_ok_iff.mp hscan
  have hfindAfter := Discovery.find_of_rewrites hrewrites hbase hfind hlisted
  obtain ⟨base', hlocate, -, -, rfl⟩ := Discovery.find_eq_ok_iff.mp hfind
  have hsame : base' = base := Except.ok.inj (hlocate.symm.trans hbase)
  subst hsame
  have hdeclaredAfter : ∀ file ∈ after.foundFiles settings resources base',
      ∃ declared, file.declared = .ok declared := by
    intro file hfile
    obtain ⟨location, hfound⟩ := (mem_foundFiles _ _ _ _).mp hfile
    by_cases hother : location = place
    · subst hother
      exact ⟨[], hafter file hfound⟩
    · rw [hrewrites.foundAt?_eq hclosed _ _ _ hother] at hfound
      exact hdeclared file ((mem_foundFiles _ _ _ _).mpr ⟨location, hfound⟩)
  refine ⟨_, collect_eq_ok_iff.mpr ⟨_, hfindAfter, hdeclaredAfter, rfl⟩,
    SameFindings.foldl_add ⟨rfl, rfl⟩ (filter_foundFiles_eq fun location => ?_)⟩
  by_cases hother : location = place
  · -- Neither what was found there nor the manifest declares anything.
    subst hother
    have hquiet {tree : FileTree} (h : ∀ file,
        tree.foundAt? settings resources base' location = some file → file.contents = []) :
        (tree.foundAt? settings resources base' location).filter (!·.contents.isEmpty) = none := by
      cases hfound : tree.foundAt? settings resources base' location with
      | none => rfl
      | some file => simp [h file hfound]
    rw [hquiet hbefore, hquiet fun file hfound => ?_]
    rw [FoundFile.contents, hafter file hfound]
    rfl
  · rw [hrewrites.foundAt?_eq hclosed _ _ _ hother]

end OverlayManifest
