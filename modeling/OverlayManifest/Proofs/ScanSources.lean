/-
# Sources and the stored manifest

A scan lists the manifest like any other file. What it finds is the stored manifest and
the other files, which are its sources. An update keeps what both declare, without the
exclusions. The sources are the same in trees that differ in the manifest only.
-/

import OverlayManifest.Proofs.OwnScan
import OverlayManifest.Proofs.TreesApart

namespace OverlayManifest.FileTree

variable (tree : FileTree) (settings : Settings) (root : Path) (base : Location)

/-- A scan finds a file anywhere but where the path of the manifest leads. -/
def IsSource (file : FoundFile) : Prop :=
  ∃ location, tree.locate (settings.manifestAt root) ≠ .ok location ∧
    tree.foundAt? settings (settings.resourcesAt root) base location = some file

/-- A scan finds a file where the path of the manifest leads. -/
def IsStored (file : FoundFile) : Prop :=
  ∃ location, tree.locate (settings.manifestAt root) = .ok location ∧
    tree.foundAt? settings (settings.resourcesAt root) base location = some file

/-- All sources below the resource directory, which leads to `base`, can be read. -/
structure SourcesRead : Prop where
  located : tree.locate (settings.resourcesAt root) = .ok base
  directory : tree.lookup? base = some .directory
  listed : ∀ name : FileName, tree.lookup? (base ++ [name]) = some .directory →
    name.isHidden = false → fileFault? (.inside (settings.resourcesAt root) name) = none
  declared : ∀ file, tree.IsSource settings root base file →
    ∃ declared, file.declared = .ok declared

/-- A source declares a resource. -/
def DeclaredBySources (resource : Resource) : Prop :=
  ∃ file, tree.IsSource settings root base file ∧ resource ∈ file.contents

/-- The stored manifest, as a scan finds it, and the exclusions can be read, and with what
the sources declare they leave the given resources. -/
def Leaves (sources : Resource → Prop) (kept : ResourceSet) : Prop :=
  (∀ file, tree.IsStored settings root base file → ∃ declared, file.declared = .ok declared) ∧
    ∃ excluded, ResourceSet.loadExclusions tree (settings.exclusionsAt root) = .ok excluded ∧
      ∀ resource, resource ∈ kept ↔ resource ∉ excluded ∧
        (sources resource ∨
          ∃ file, tree.IsStored settings root base file ∧ resource ∈ file.contents)

variable {tree settings root base}

/-- What a scan finds are sources and the stored manifest. -/
theorem mem_foundFiles_iff {file : FoundFile} :
    file ∈ tree.foundFiles settings (settings.resourcesAt root) base ↔
      tree.IsSource settings root base file ∨ tree.IsStored settings root base file := by
  rw [mem_foundFiles]
  constructor
  · rintro ⟨location, hfound⟩
    by_cases hstored : tree.locate (settings.manifestAt root) = .ok location
    · exact .inr ⟨location, hstored, hfound⟩
    · exact .inl ⟨location, hstored, hfound⟩
  · rintro (⟨location, -, hfound⟩ | ⟨location, -, hfound⟩)
    · exact ⟨location, hfound⟩
    · exact ⟨location, hfound⟩

/-- The stored manifest, as a scan finds it, is the file that the path of the manifest leads to,
and it stands in a directory of the resources. -/
theorem IsStored.stands {file : FoundFile} (h : tree.IsStored settings root base file) :
    ∃ (directory : String) (name : FileName) (bytes : ByteArray),
      tree.locate (settings.manifestAt root) = .ok (base ++ [.plain directory, name]) ∧
      tree.lookup? (base ++ [.plain directory, name]) = some (.file bytes) ∧
      file = ⟨⟨.inside ((settings.resourcesAt root).join ⟨directory⟩) name, .ofName directory⟩,
        bytes⟩ := by
  obtain ⟨location, hlocation, hfound⟩ := h
  simp only [foundAt?, Option.bind_eq_some_iff, Prod.exists, resourceFileAt?_eq_some_iff] at hfound
  obtain ⟨_, hentry, directory, name, bytes, ⟨rfl, rfl, -⟩, hselect⟩ := hfound
  exact ⟨directory, name, bytes, hlocation, hentry, (Discovery.select?_eq_some_iff.mp hselect).1⟩

theorem IsStored.readBytes_eq {file : FoundFile} (h : tree.IsStored settings root base file) :
    tree.readBytes (settings.manifestAt root) = .ok file.bytes := by
  obtain ⟨directory, name, bytes, hlocation, hentry, rfl⟩ := h.stands
  rw [readBytes, find?_eq_ok_iff.mpr ⟨_, hlocation, hentry⟩]

/-- A scan succeeds if the sources and the stored manifest can be read. -/
theorem exists_scan_iff :
    (∃ scan, Scan.collect tree settings (settings.resourcesAt root) = .ok scan) ↔
      ∃ base, tree.SourcesRead settings root base ∧
        ∀ file, tree.IsStored settings root base file →
          ∃ declared, file.declared = .ok declared := by
  constructor
  · rintro ⟨scan, hscan⟩
    obtain ⟨files, hfind, hdeclared, -⟩ := Scan.collect_eq_ok_iff.mp hscan
    obtain ⟨base, hlocate, hdirectory, hlisted, rfl⟩ := Discovery.find_eq_ok_iff.mp hfind
    refine ⟨base, ⟨hlocate, hdirectory, hlisted, fun file hsource => ?_⟩, fun file hstored => ?_⟩
    · exact hdeclared file (mem_foundFiles_iff.mpr (.inl hsource))
    · exact hdeclared file (mem_foundFiles_iff.mpr (.inr hstored))
  · rintro ⟨base, hsources, hread⟩
    have hfind : Discovery.find tree settings (settings.resourcesAt root) =
        .ok (tree.foundFiles settings (settings.resourcesAt root) base) :=
      Discovery.find_eq_ok_iff.mpr
        ⟨base, hsources.located, hsources.directory, hsources.listed, rfl⟩
    refine ⟨_, Scan.collect_eq_ok_iff.mpr ⟨_, hfind, fun file hfile => ?_, rfl⟩⟩
    rcases mem_foundFiles_iff.mp hfile with hsource | hstored
    · exact hsources.declared file hsource
    · exact hread file hstored

/-- A scan finds what the sources and the stored manifest declare. -/
theorem mem_scan_iff {scan : Scan}
    (hscan : Scan.collect tree settings (settings.resourcesAt root) = .ok scan)
    (hbase : tree.locate (settings.resourcesAt root) = .ok base) {resource : Resource} :
    resource ∈ scan.resources ↔ tree.DeclaredBySources settings root base resource ∨
      ∃ file, tree.IsStored settings root base file ∧ resource ∈ file.contents := by
  obtain ⟨files, hfind, -, rfl⟩ := Scan.collect_eq_ok_iff.mp hscan
  obtain ⟨base', hlocate, -, -, rfl⟩ := Discovery.find_eq_ok_iff.mp hfind
  have hsame : base' = base := Except.ok.inj (hlocate.symm.trans hbase)
  subst hsame
  have hempty : resource ∉ Scan.empty.resources := Std.ExtTreeSet.not_mem_empty
  simp only [Scan.mem_foldl_add, hempty, false_or, mem_foundFiles_iff, or_and_right, exists_or,
    DeclaredBySources]

/-- An update plans to keep what the sources and the stored manifest leave. -/
theorem exists_plan_iff {kept : ResourceSet} :
    (∃ update, Update.plan tree settings root = .ok update ∧ update.kept = kept) ↔
      ∃ base, tree.SourcesRead settings root base ∧
        tree.Leaves settings root base (tree.DeclaredBySources settings root base) kept := by
  constructor
  · rintro ⟨update, hplan, rfl⟩
    obtain ⟨scan, excluded, hscan, hexcluded, rfl⟩ := Update.plan_eq_ok_iff.mp hplan
    obtain ⟨base, hsources, hread⟩ := exists_scan_iff.mp ⟨scan, hscan⟩
    refine ⟨base, hsources, hread, excluded, hexcluded, fun resource => ?_⟩
    rw [Std.ExtTreeSet.mem_diff_iff, mem_scan_iff hscan hsources.located, and_comm]
  · rintro ⟨base, hsources, hread, excluded, hexcluded, hkept⟩
    obtain ⟨scan, hscan⟩ := exists_scan_iff.mpr ⟨base, hsources, hread⟩
    refine ⟨⟨scan, scan.resources \ excluded⟩,
      Update.plan_eq_ok_iff.mpr ⟨scan, excluded, hscan, hexcluded, rfl⟩, ?_⟩
    apply Std.ExtTreeSet.ext_mem
    intro resource
    rw [hkept, Std.ExtTreeSet.mem_diff_iff, mem_scan_iff hscan hsources.located, and_comm]

/-- A stored manifest that declares nothing leaves what the exclusions leave of the sources. -/
theorem leaves_iff_of_silent {sources : Resource → Prop} {kept : ResourceSet}
    (hsilent : ∀ file, tree.IsStored settings root base file → file.declared = .ok []) :
    tree.Leaves settings root base sources kept ↔
      ∃ excluded, ResourceSet.loadExclusions tree (settings.exclusionsAt root) = .ok excluded ∧
        ∀ resource, resource ∈ kept ↔ resource ∉ excluded ∧ sources resource := by
  have hnothing (resource : Resource) :
      ¬ ∃ file, tree.IsStored settings root base file ∧ resource ∈ file.contents := by
    rintro ⟨file, hstored, hresource⟩
    rw [FoundFile.contents, hsilent file hstored] at hresource
    cases hresource
  simp only [Leaves, hnothing, or_false]
  exact and_iff_right fun file hstored => ⟨[], hsilent file hstored⟩

/-! ## Two trees -/

section Two

variable {other : FileTree} {place : Location}

/-- The sources are the same in both trees. -/
theorem SameApart.isSource_iff (h : SameApart tree other place)
    (hplace : tree.locate (settings.manifestAt root) = .ok place) {file : FoundFile} :
    other.IsSource settings root base file ↔ tree.IsSource settings root base file := by
  have hfound {location : Location}
      (hsource : tree.locate (settings.manifestAt root) ≠ .ok location) :
      other.foundAt? settings (settings.resourcesAt root) base location =
        tree.foundAt? settings (settings.resourcesAt root) base location := by
    apply h.foundAt?_eq
    rintro rfl
    exact hsource hplace
  unfold IsSource
  simp only [ne_eq, h.locate_iff]
  constructor
  · rintro ⟨location, hsource, hfile⟩
    exact ⟨location, hsource, hfound hsource ▸ hfile⟩
  · rintro ⟨location, hsource, hfile⟩
    exact ⟨location, hsource, (hfound hsource).trans hfile⟩

theorem SameApart.sourcesRead (h : SameApart tree other place)
    (hplace : tree.locate (settings.manifestAt root) = .ok place)
    (hsources : tree.SourcesRead settings root base) : other.SourcesRead settings root base where
  located := h.locate_iff.mpr hsources.located
  directory := h.directory_iff.mpr hsources.directory
  listed name hname := hsources.listed name (h.directory_iff.mp hname)
  declared file hsource := hsources.declared file ((h.isSource_iff hplace).mp hsource)

theorem SameApart.sourcesRead_iff (h : SameApart tree other place)
    (hplace : tree.locate (settings.manifestAt root) = .ok place) :
    other.SourcesRead settings root base ↔ tree.SourcesRead settings root base :=
  ⟨h.symm.sourcesRead (h.locate_iff.mpr hplace), h.sourcesRead hplace⟩

theorem SameApart.declaredBySources_eq (h : SameApart tree other place)
    (hplace : tree.locate (settings.manifestAt root) = .ok place) :
    other.DeclaredBySources settings root base = tree.DeclaredBySources settings root base := by
  funext resource
  simp only [DeclaredBySources, h.isSource_iff hplace]

/-- Exclusions whose path leads elsewhere are the same in both trees. -/
theorem SameApart.loadExclusions_eq (h : SameApart tree other place) {path : Path}
    (hpath : tree.locate path ≠ .ok place) :
    ResourceSet.loadExclusions other path = ResourceSet.loadExclusions tree path := by
  apply ResourceSet.loadExclusions_eq
  intro entry
  rw [find?_eq_ok_iff, find?_eq_ok_iff]
  apply exists_congr
  intro location
  rw [h.locate_iff]
  refine and_congr_right fun hlocation => ?_
  rw [h.elsewhere]
  rintro rfl
  exact hpath hlocation

end Two

end OverlayManifest.FileTree
