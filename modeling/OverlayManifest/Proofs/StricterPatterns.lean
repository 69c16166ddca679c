/-
# Stricter patterns

Settings that exclude by all the patterns of others, and maybe by more, never find more. Of the
files that the others find they keep those that none of their own patterns excludes, in order.
So a scan that succeeds does so again, and with no resource that is new. The order of patterns
does not count, nor how often one is given.
-/

import OverlayManifest.Proofs.RelevantContent

namespace OverlayManifest

variable {tree : FileTree} {settings stricter : Settings} {resources : Path}

namespace Settings

/-- The patterns of the settings leave out a file below a resource directory. -/
def leavesOut (settings : Settings) (resources : Path) (file : FoundFile) : Bool :=
  settings.excludes ((file.path.shown.stripPrefix? resources).getD file.path.shown)

/-- What is excluded is so with more patterns. -/
theorem excludes_of_subset (hpatterns : settings.exclude ⊆ stricter.exclude) {path : Path}
    (h : settings.excludes path = true) : stricter.excludes path = true := by
  obtain ⟨pattern, hpattern, hexcludes⟩ := List.any_eq_true.mp h
  exact List.any_eq_true.mpr ⟨pattern, hpatterns hpattern, hexcludes⟩

end Settings

namespace Discovery

/-- Stricter patterns select a file that was selected, unless they leave it out. -/
theorem select?_stricter (hpatterns : settings.exclude ⊆ stricter.exclude)
    (directory : String) (name : FileName) (bytes : ByteArray) :
    select? stricter resources directory name bytes =
      (select? settings resources directory name bytes).filter
        fun file => !stricter.leavesOut resources file := by
  ext file
  rw [Option.filter_eq_some_iff, select?_eq_some_iff, select?_eq_some_iff, Bool.not_eq_true',
    Settings.leavesOut]
  constructor
  · rintro ⟨hfile, hspared, hvalues⟩
    refine ⟨⟨hfile, ?_, hvalues⟩, hspared⟩
    refine Bool.eq_false_iff.mpr fun hexcluded => ?_
    exact Bool.eq_false_iff.mp hspared (Settings.excludes_of_subset hpatterns hexcluded)
  · rintro ⟨⟨hfile, -, hvalues⟩, hspared⟩
    exact ⟨hfile, hspared, hvalues⟩

/-- Stricter patterns keep the files that they do not leave out. -/
theorem foundFiles_stricter (hpatterns : settings.exclude ⊆ stricter.exclude)
    (base : Location) :
    tree.foundFiles stricter resources base =
      (tree.foundFiles settings resources base).filter
        fun file => !stricter.leavesOut resources file := by
  rw [FileTree.foundFiles, FileTree.foundFiles, List.filter_filterMap]
  congr 1
  funext pair
  obtain ⟨location, entry⟩ := pair
  dsimp only
  cases tree.resourceFileAt? base location entry with
  | none => rfl
  | some file => exact select?_stricter hpatterns file.1 file.2.1 file.2.2

/-- Stricter patterns find the files that they do not leave out, and fail as the others do. -/
theorem find_stricter (hpatterns : settings.exclude ⊆ stricter.exclude) (tree : FileTree)
    (resources : Path) :
    find tree stricter resources =
      (find tree settings resources).map
        (List.filter fun file => !stricter.leavesOut resources file) := by
  unfold find
  cases tree.locate resources with
  | error => rfl
  | ok base =>
      dsimp only
      split
      · rfl
      · split
        · rfl
        · exact congrArg Except.ok (foundFiles_stricter hpatterns base)

/-- The same patterns, in any order and number, find the same files. -/
theorem find_eq_of_subset (hpatterns : settings.exclude ⊆ stricter.exclude)
    (hsame : stricter.exclude ⊆ settings.exclude) :
    find tree stricter resources = find tree settings resources := by
  have hexcludes (path : Path) : stricter.excludes path = settings.excludes path :=
    Bool.eq_iff_iff.mpr ⟨Settings.excludes_of_subset hsame, Settings.excludes_of_subset hpatterns⟩
  simp only [find, select?, hexcludes]

end Discovery

namespace Scan

/-- Stricter patterns never add a failure or a resource to a scan. -/
theorem exists_collect_stricter {scan : Scan} (hpatterns : settings.exclude ⊆ stricter.exclude)
    (h : collect tree settings resources = .ok scan) :
    ∃ other, collect tree stricter resources = .ok other ∧
      ∀ resource ∈ other.resources, resource ∈ scan.resources := by
  obtain ⟨files, hfind, hread, rfl⟩ := collect_eq_ok_iff.mp h
  have hkept := Discovery.find_stricter hpatterns tree resources
  rw [hfind] at hkept
  refine ⟨_, collect_eq_ok_iff.mpr ⟨_, hkept, fun file hfile => ?_, rfl⟩,
    fun resource hresource => ?_⟩
  · exact hread file (List.mem_filter.mp hfile).1
  · obtain hnothing | ⟨file, hfile, hdeclared⟩ := mem_foldl_add.mp hresource
    · exact mem_foldl_add.mpr (.inl hnothing)
    · exact mem_foldl_add.mpr (.inr ⟨file, (List.mem_filter.mp hfile).1, hdeclared⟩)

/-- Settings with more patterns find files if the others do. They find no other files, in the
same order, and lack only what they leave out. If a scan succeeds, theirs does, and has no other
resources. With the same patterns in any order and number, the scan is the same. -/
theorem collect_stricter (hpatterns : settings.exclude ⊆ stricter.exclude) (tree : FileTree)
    (resources : Path) :
    (∀ failure, Discovery.find tree stricter resources = .error failure ↔
      Discovery.find tree settings resources = .error failure) ∧
    (∀ files, Discovery.find tree settings resources = .ok files →
      ∃ kept, Discovery.find tree stricter resources = .ok kept ∧ kept.Sublist files ∧
        ∀ file ∈ files, file ∈ kept ∨ stricter.leavesOut resources file = true) ∧
    (∀ scan, collect tree settings resources = .ok scan →
      ∃ other, collect tree stricter resources = .ok other ∧
        ∀ resource ∈ other.resources, resource ∈ scan.resources) ∧
    (stricter.exclude ⊆ settings.exclude →
      collect tree stricter resources = collect tree settings resources) := by
  have hkept := Discovery.find_stricter hpatterns tree resources
  refine ⟨fun failure => ?_, fun files hfind => ?_,
    fun scan => exists_collect_stricter hpatterns, fun hsame => ?_⟩
  · rw [hkept]
    cases Discovery.find tree settings resources <;> simp [Except.map]
  · rw [hfind] at hkept
    refine ⟨_, hkept, List.filter_sublist, fun file hfile => ?_⟩
    rw [List.mem_filter, and_iff_right hfile, Bool.not_eq_true']
    exact (Bool.eq_false_or_eq_true _).symm
  · rw [collect, collect, Discovery.find_eq_of_subset hpatterns hsame]

/-- With a pattern for the first of two raw files, the other one is left. With the pattern that
was there twice, nothing changes. -/
theorem collect_stricter_rawTwice : ∃ files kept scan other,
    Discovery.find rawTwice { exclude := [⟨"*.png"⟩] } ⟨"res"⟩ = .ok files ∧ files.length = 2 ∧
      Discovery.find rawTwice { exclude := [⟨"raw/a"⟩, ⟨"*.png"⟩, ⟨"raw/a"⟩] } ⟨"res"⟩ =
        .ok kept ∧ kept.length = 1 ∧ kept.Sublist files ∧
      collect rawTwice { exclude := [⟨"*.png"⟩] } ⟨"res"⟩ = .ok scan ∧
      collect rawTwice { exclude := [⟨"raw/a"⟩, ⟨"*.png"⟩, ⟨"raw/a"⟩] } ⟨"res"⟩ = .ok other ∧
      (∀ resource ∈ other.resources, resource ∈ scan.resources) ∧
      collect rawTwice { exclude := [⟨"*.png"⟩, ⟨"*.png"⟩] } ⟨"res"⟩ = .ok scan := by
  let settings : Settings := { exclude := [⟨"*.png"⟩] }
  let stricter : Settings := { exclude := [⟨"raw/a"⟩, ⟨"*.png"⟩, ⟨"raw/a"⟩] }
  let doubled : Settings := { exclude := [⟨"*.png"⟩, ⟨"*.png"⟩] }
  have hlocate : rawTwice.locate ⟨"res"⟩ = .ok ["res"] := locate_res rfl rfl
  have hfind : ∃ files, Discovery.find rawTwice settings ⟨"res"⟩ = .ok files ∧
      files.length = 2 ∧ files.all (·.declared.toOption.isSome) = true := by
    rw [Discovery.find, hlocate]
    exact ⟨_, rfl, by decide +kernel, by decide +kernel⟩
  have hkept : ∃ kept, Discovery.find rawTwice stricter ⟨"res"⟩ = .ok kept ∧
      kept.length = 1 := by
    rw [Discovery.find, hlocate]
    exact ⟨_, rfl, by decide +kernel⟩
  obtain ⟨files, hfind, hfiles, hread⟩ := hfind
  obtain ⟨kept, hkept, hlength⟩ := hkept
  obtain ⟨scan, hscan⟩ : ∃ scan, collect rawTwice settings ⟨"res"⟩ = .ok scan := by
    refine ⟨_, collect_eq_ok_iff.mpr ⟨files, hfind, fun file hfile => ?_, rfl⟩⟩
    have hdeclared := List.all_eq_true.mp hread file hfile
    cases hresult : file.declared with
    | error failure => simp [hresult, Except.toOption] at hdeclared
    | ok declared => exact ⟨declared, rfl⟩
  have hstricter : settings.exclude ⊆ stricter.exclude := by decide
  have hdoubled : settings.exclude ⊆ doubled.exclude := by decide
  obtain ⟨-, hfound, hcollected, -⟩ := collect_stricter hstricter rawTwice ⟨"res"⟩
  obtain ⟨-, -, -, hsame⟩ := collect_stricter hdoubled rawTwice ⟨"res"⟩
  obtain ⟨kept', hkept', hsublist, -⟩ := hfound files hfind
  obtain ⟨other, hother, hresources⟩ := hcollected scan hscan
  cases hkept.symm.trans hkept'
  exact ⟨files, kept, scan, other, hfind, hfiles, hkept, hlength, hsublist, hscan, hother,
    hresources, (hsame (by decide)).trans hscan⟩

end Scan

end OverlayManifest
