/-
# Trees that differ in one file

Two trees that differ at most in the file at one place have the same directories and the
same links. Every path leads to the same place in both, and a scan finds the same files in
every other place.
-/

import OverlayManifest.Proofs.ScanContents

namespace OverlayManifest.FileTree

/-- Two trees differ at most in the file at a place, where one of them or both may have
none. -/
structure SameApart (tree other : FileTree) (place : Location) : Prop where
  workingDirectory_eq : other.workingDirectory = tree.workingDirectory
  elsewhere : ∀ location, location ≠ place → other.lookup? location = tree.lookup? location
  here : tree.lookup? place = none ∨ ∃ bytes, tree.lookup? place = some (.file bytes)
  there : other.lookup? place = none ∨ ∃ bytes, other.lookup? place = some (.file bytes)

/-- Two trees differ at most in the file that a path leads to. -/
def SameButFile (tree other : FileTree) (path : Path) : Prop :=
  tree = other ∨ ∃ place, tree.locate path = .ok place ∧ SameApart tree other place

namespace SameApart

variable {tree other : FileTree} {place : Location}

theorem symm (h : SameApart tree other place) : SameApart other tree place where
  workingDirectory_eq := h.workingDirectory_eq.symm
  elsewhere location hother := (h.elsewhere location hother).symm
  here := h.there
  there := h.here

/-- Neither tree has a directory or a link at the place. -/
theorem file_of_lookup? (h : SameApart tree other place) {entry : Entry}
    (hentry : tree.lookup? place = some entry) : ∃ bytes, entry = .file bytes := by
  rcases h.here with hnone | ⟨bytes, hfile⟩
  · rw [hnone] at hentry
    cases hentry
  · rw [hfile, Option.some.injEq] at hentry
    exact ⟨bytes, hentry.symm⟩

theorem ne_directory (h : SameApart tree other place) :
    tree.lookup? place ≠ some .directory := by
  intro hdirectory
  obtain ⟨bytes, hfile⟩ := h.file_of_lookup? hdirectory
  cases hfile

/-- What is no file stands in both trees or in none. -/
theorem lookup?_of_lookup? (h : SameApart tree other place) {location : Location} {entry : Entry}
    (hentry : tree.lookup? location = some entry) (hfile : ∀ bytes, entry ≠ .file bytes) :
    other.lookup? location = some entry := by
  rw [h.elsewhere location, hentry]
  rintro rfl
  obtain ⟨bytes, hbytes⟩ := h.file_of_lookup? hentry
  exact hfile bytes hbytes

theorem directory_iff (h : SameApart tree other place) {location : Location} :
    other.lookup? location = some .directory ↔ tree.lookup? location = some .directory :=
  ⟨fun hdirectory => h.symm.lookup?_of_lookup? hdirectory (by simp),
    fun hdirectory => h.lookup?_of_lookup? hdirectory (by simp)⟩

theorem keeps (h : SameApart tree other place) : Keeps tree other where
  workingDirectory_eq := h.workingDirectory_eq
  directory := h.directory_iff.mpr
  link_iff := ⟨fun hlink => h.symm.lookup?_of_lookup? hlink (by simp),
    fun hlink => h.lookup?_of_lookup? hlink (by simp)⟩

/-- Every path leads to the same place in both. -/
theorem locate_iff (h : SameApart tree other place) {path : Path} {location : Location} :
    other.locate path = .ok location ↔ tree.locate path = .ok location :=
  ⟨locate_of_keeps h.symm.keeps, locate_of_keeps h.keeps⟩

/-- A scan finds the same files in every other place. -/
theorem foundAt?_eq (h : SameApart tree other place) (settings : Settings) (resources : Path)
    (base : Location) {location : Location} (hother : location ≠ place) :
    other.foundAt? settings resources base location =
      tree.foundAt? settings resources base location := by
  have hresource (entry : Entry) : other.resourceFileAt? base location entry =
      tree.resourceFileAt? base location entry := by
    apply Option.ext
    rintro ⟨directory, name, bytes⟩
    rw [resourceFileAt?_eq_some_iff, resourceFileAt?_eq_some_iff, h.directory_iff]
  rw [foundAt?, foundAt?, h.elsewhere location hother]
  simp only [hresource]

/-- Writing a file where nothing or a file is changes nothing else. -/
theorem of_set (hplace : tree.lookup? place = none ∨ ∃ old, tree.lookup? place = some (.file old))
    (bytes : ByteArray) : SameApart tree (tree.set place (.file bytes)) place ∧
      (tree.set place (.file bytes)).lookup? place = some (.file bytes) := by
  have hbelow : place ≠ [] := by
    rintro rfl
    simp at hplace
  have hwritten : (tree.set place (.file bytes)).lookup? place = some (.file bytes) := by
    rw [lookup?_set _ _ _ _ hbelow, if_pos rfl]
  refine ⟨⟨rfl, fun location hother => ?_, hplace, .inr ⟨bytes, hwritten⟩⟩, hwritten⟩
  by_cases hroot : location = []
  · rw [hroot, lookup?_nil, lookup?_nil]
  · rw [lookup?_set _ _ _ _ hroot, if_neg (Ne.symm hother)]

end SameApart

end OverlayManifest.FileTree
