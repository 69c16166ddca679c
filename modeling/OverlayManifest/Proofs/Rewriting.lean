/-
# How files are written

A file is written in the place of a file or of nothing. With the directories that are
made before, the rest of the tree only grows. So the path of the file leads to it
afterwards, and a scan finds in all other places what it found before.
-/

import OverlayManifest.Proofs.ScanContents
import OverlayManifest.Proofs.TreeGrowth

namespace OverlayManifest.FileTree

/-- A file was written at a place where no directory and no link was, and elsewhere
nothing but directories were added. -/
structure Rewrites (tree after : FileTree) (place : Location) (bytes : ByteArray) : Prop where
  workingDirectory_eq : after.workingDirectory = tree.workingDirectory
  closed : after.Closed
  written : after.lookup? place = some (.file bytes)
  replaced : tree.lookup? place = none ∨ ∃ old, tree.lookup? place = some (.file old)
  elsewhere : ∀ location, location ≠ place → after.lookup? location = tree.lookup? location ∨
    tree.lookup? location = none ∧ after.lookup? location = some .directory

namespace Rewrites

variable {tree after : FileTree} {place : Location} {bytes : ByteArray}

/-- A file elsewhere is one before and after. -/
theorem file_iff (h : Rewrites tree after place bytes) {location : Location}
    (hother : location ≠ place) {content : ByteArray} :
    after.lookup? location = some (.file content) ↔
      tree.lookup? location = some (.file content) := by
  rcases h.elsewhere location hother with hsame | ⟨hnone, hmade⟩
  · rw [hsame]
  · simp [hnone, hmade]

/-- Writing a file keeps the directories and the links. -/
theorem keeps (h : Rewrites tree after place bytes) : Keeps tree after where
  workingDirectory_eq := h.workingDirectory_eq
  directory {location} hdirectory := by
    by_cases hother : location = place
    · subst hother
      rcases h.replaced with hnone | ⟨old, hfile⟩
      · simp [hdirectory] at hnone
      · simp [hdirectory] at hfile
    · rcases h.elsewhere location hother with hsame | ⟨hnone, -⟩
      · rw [hsame, hdirectory]
      · simp [hdirectory] at hnone
  link_iff {location target} := by
    by_cases hother : location = place
    · subst hother
      rcases h.replaced with hnone | ⟨old, hfile⟩
      · simp [h.written, hnone]
      · simp [h.written, hfile]
    · rcases h.elsewhere location hother with hsame | ⟨hnone, hmade⟩
      · rw [hsame]
      · simp [hnone, hmade]

end Rewrites

/-- The directories that are made before a file is written count as added. -/
theorem Grows.rewrites {tree grown after : FileTree} {place : Location} {bytes : ByteArray}
    (hgrows : Grows tree grown) (h : Rewrites grown after place bytes) :
    Rewrites tree after place bytes where
  workingDirectory_eq := h.workingDirectory_eq.trans hgrows.workingDirectory_eq
  closed := h.closed
  written := h.written
  replaced := by
    rcases h.replaced with hnone | ⟨old, hfile⟩
    · rcases hgrows.lookup?_cases place with hsame | ⟨hnone', -⟩
      · exact .inl (hsame.symm.trans hnone)
      · exact .inl hnone'
    · exact .inr ⟨old, hgrows.file_iff.mp hfile⟩
  elsewhere location hother := by
    rcases h.elsewhere location hother with hsame | ⟨hnone, hmade⟩
    · rw [hsame]
      exact hgrows.lookup?_cases location
    · rcases hgrows.lookup?_cases location with hsame | ⟨hnone', -⟩
      · exact .inr ⟨hsame.symm.trans hnone, hmade⟩
      · exact .inr ⟨hnone', hmade⟩

/-- Writing a file at a path rewrites the place that the path leads to afterwards. -/
theorem rewrites_of_writeFile {tree after : FileTree} (hclosed : tree.Closed) {path : Path}
    {bytes : ByteArray} (h : tree.writeFile path bytes = .ok after) :
    ∃ place, tree.locateToWrite path = .ok place ∧ after.locate path = .ok place ∧
      Rewrites tree after place bytes ∧
      ∀ location, location ≠ place → after.lookup? location = tree.lookup? location := by
  obtain ⟨parent, name, hlocation, hparent, hplace, rfl⟩ := writeFile_eq_ok hclosed h
  have hlookup := lookup?_set_below tree parent name (.file bytes)
  have hrewrites : Rewrites tree (tree.set (parent ++ [name]) (.file bytes)) (parent ++ [name])
      bytes := by
    refine ⟨rfl, hclosed.writeFile h, ?_, hplace, fun location hother => ?_⟩
    · rw [hlookup, if_pos rfl]
    · rw [hlookup, if_neg hother]
      exact .inl rfl
  refine ⟨_, hlocation, locate_of_keeps hrewrites.keeps ?_, hrewrites, fun location hother => ?_⟩
  · rw [locateToWrite_eq_ok_iff] at hlocation
    rw [locate_eq_ok_iff]
    exact ⟨hlocation.1, hlocation.2.toRead⟩
  · rw [hlookup, if_neg hother]

/-- A file that is found stands at its location, in a directory. -/
theorem foundAt?_eq_some_iff {tree : FileTree} (hclosed : tree.Closed) {settings : Settings}
    {resources : Path} {base location : Location} {file : FoundFile} :
    tree.foundAt? settings resources base location = some file ↔
      ∃ (directory : String) (name : FileName) (bytes : ByteArray),
        location = base ++ [.plain directory, name] ∧ tree.lookup? location = some (.file bytes) ∧
        FileName.isHidden directory = false ∧ name.isHidden = false ∧
        Discovery.select? settings resources directory name bytes = some file := by
  simp only [foundAt?, Option.bind_eq_some_iff, Prod.exists, resourceFileAt?_eq_some_iff]
  constructor
  · rintro ⟨entry, hentry, directory, name, bytes, ⟨hlocation, rfl, -, hvisible⟩, hselect⟩
    exact ⟨directory, name, bytes, hlocation, hentry, hvisible.1, hvisible.2, hselect⟩
  · rintro ⟨directory, name, bytes, rfl, hentry, hdirectory, hname, hselect⟩
    refine ⟨_, hentry, directory, name, bytes, ⟨rfl, rfl, ?_, hdirectory, hname⟩, hselect⟩
    apply hclosed (base ++ [FileName.plain directory]) name
    simp [hentry]

/-- A scan finds elsewhere what it found before. -/
theorem Rewrites.foundAt?_eq {tree after : FileTree} {place : Location} {bytes : ByteArray}
    (h : Rewrites tree after place bytes) (hclosed : tree.Closed) (settings : Settings)
    (resources : Path) (base : Location) {location : Location} (hother : location ≠ place) :
    after.foundAt? settings resources base location =
      tree.foundAt? settings resources base location := by
  apply Option.ext
  intro file
  rw [foundAt?_eq_some_iff h.closed, foundAt?_eq_some_iff hclosed]
  simp only [h.file_iff hother]

end OverlayManifest.FileTree
