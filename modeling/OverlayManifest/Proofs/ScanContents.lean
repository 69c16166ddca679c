/-
# What scans contain

A scan succeeds if every file that is found can be read, and then it is a plain fold
over the files. Its resources are those that the files declare, and files that declare
nothing only count. Which files are found is decided location by location.
-/

import OverlayManifest.Proofs.Following
import OverlayManifest.Scan.Collect

namespace OverlayManifest

/-- A document is read if its text is and has no fault. -/
theorem readDocument_eq_ok_iff {path : FilePath} {text : Except FileTree.Fault String}
    {read : String → Except Document.Fault (List Resource)} {found : List Resource} :
    readDocument path text read = .ok found ↔
      ∃ content, text = .ok content ∧ read content = .ok found := by
  unfold readDocument
  cases text with
  | error cause => simp
  | ok content => cases hread : read content <;> simp [hread]

/-- A document that is not read fails with its path. -/
theorem readDocument_eq_error_iff {path : FilePath} {text : Except FileTree.Fault String}
    {read : String → Except Document.Fault (List Resource)} {failure : Failure} :
    readDocument path text read = .error failure ↔
      (∃ cause, text = .error cause ∧ failure = .read path cause) ∨
        ∃ content fault, text = .ok content ∧ read content = .error fault ∧
          failure = .document path fault := by
  unfold readDocument
  cases text with
  | error cause => simp [eq_comm]
  | ok content => cases hread : read content <;> simp [hread, eq_comm]

/-- What a file declares, if it can be read. -/
def FoundFile.contents (file : FoundFile) : List Resource := file.declared.toOption.getD []

namespace FileTree

/-- The resource file that a scan finds at a location, below a resource directory that
stands at `base`. -/
def foundAt? (tree : FileTree) (settings : Settings) (resources : Path) (base : Location)
    (location : Location) : Option FoundFile :=
  (tree.lookup? location).bind fun entry =>
    (tree.resourceFileAt? base location entry).bind fun (directory, name, bytes) =>
      Discovery.select? settings resources directory name bytes

theorem isPrefixOf?_eq_some_iff {base location rest : Location} :
    base.isPrefixOf? location = some rest ↔ location = base ++ rest := by
  induction base generalizing location with
  | nil =>
      show some location = some rest ↔ _
      rw [Option.some.injEq, List.nil_append]
  | cons name base ih =>
      cases location with
      | nil =>
          show none = some rest ↔ _
          simp
      | cons other location =>
          show (if name == other then base.isPrefixOf? location else none) = some rest ↔ _
          rw [List.cons_append, List.cons.injEq]
          by_cases hname : name = other
          · simp [hname, ih]
          · simp [hname, Ne.symm hname]

/-- A resource file is a file in a directory, neither of which is hidden. -/
theorem resourceFileAt?_eq_some_iff {tree : FileTree} {base location : Location} {entry : Entry}
    {directory : String} {name : FileName} {bytes : ByteArray} :
    tree.resourceFileAt? base location entry = some (directory, name, bytes) ↔
      location = base ++ [.plain directory, name] ∧ entry = .file bytes ∧
        tree.lookup? (base ++ [.plain directory]) = some .directory ∧
        FileName.isHidden directory = false ∧ name.isHidden = false := by
  rw [← isPrefixOf?_eq_some_iff]
  unfold resourceFileAt?
  split
  · rename_i found hbelow
    simp only [hbelow, Bool.not_eq_true', Option.ite_none_right_eq_some, Option.some.injEq,
      Prod.mk.injEq, List.cons.injEq, FileName.plain.injEq, Entry.file.injEq]
    constructor
    · rintro ⟨hvisible, rfl, rfl, rfl⟩
      exact ⟨⟨rfl, rfl, trivial⟩, rfl, hvisible⟩
    · rintro ⟨⟨rfl, rfl, -⟩, rfl, hvisible⟩
      exact ⟨hvisible, rfl, rfl, rfl⟩
  · rename_i hother
    constructor
    · intro h
      cases h
    · rintro ⟨hbelow, rfl, -⟩
      exact absurd rfl (hother _ _ _ hbelow)

end FileTree

namespace Scan

/-- Adds a file that can be read, and what it declares, to a scan. -/
def add (scan : Scan) (file : FoundFile) : Scan :=
  { scan.recordAll file.path file.contents with fileCount := scan.fileCount + 1 }

/-- Adding files succeeds if each of them can be read. -/
theorem foldlM_addFile_eq_ok_iff {files : List FoundFile} {scan result : Scan} :
    files.foldlM addFile scan = .ok result ↔
      (∀ file ∈ files, ∃ declared, file.declared = .ok declared) ∧
        result = files.foldl add scan := by
  induction files generalizing scan with
  | nil => simp [pure, Except.pure, eq_comm]
  | cons file files ih =>
      rw [List.foldlM_cons, List.foldl_cons, addFile]
      cases hdeclared : file.declared with
      | error failure => simp [bind, Except.bind, hdeclared]
      | ok declared =>
          have hadd : add scan file =
              { scan.recordAll file.path declared with fileCount := scan.fileCount + 1 } := by
            rw [add, FoundFile.contents, hdeclared]
            rfl
          rw [hadd]
          simp [bind, Except.bind, hdeclared, ih]

@[simp]
theorem mem_recordAll {scan : Scan} {origin : FilePath} {declared : List Resource}
    {resource : Resource} :
    resource ∈ (scan.recordAll origin declared).resources ↔
      resource ∈ scan.resources ∨ resource ∈ declared := by
  induction declared generalizing scan with
  | nil => simp [recordAll]
  | cons first declared ih =>
      show resource ∈ ((scan.record origin first).recordAll origin declared).resources ↔ _
      rw [ih, record, Std.ExtTreeSet.mem_insert, Std.LawfulEqCmp.compare_eq_iff_eq,
        List.mem_cons, eq_comm]
      simp only [or_assoc, or_left_comm]

/-- The resources of a scan are those that its files declare. -/
theorem mem_foldl_add {files : List FoundFile} {scan : Scan} {resource : Resource} :
    resource ∈ (files.foldl add scan).resources ↔
      resource ∈ scan.resources ∨ ∃ file ∈ files, resource ∈ file.contents := by
  induction files generalizing scan with
  | nil => simp
  | cons file files ih =>
      rw [List.foldl_cons, ih, add, mem_recordAll]
      simp [or_assoc]

/-- Two scans found the same resources in the same files. -/
structure SameFindings (scan other : Scan) : Prop where
  resources_eq : scan.resources = other.resources
  origins_eq : scan.origins = other.origins

theorem SameFindings.recordAll {scan other : Scan} (hsame : SameFindings scan other)
    (origin : FilePath) (declared : List Resource) :
    SameFindings (scan.recordAll origin declared) (other.recordAll origin declared) := by
  induction declared generalizing scan other with
  | nil => exact hsame
  | cons resource declared ih =>
      apply ih
      exact ⟨congrArg (·.insert resource) hsame.resources_eq,
        congrArg (·.insertIfNew resource origin) hsame.origins_eq⟩

/-- Files that declare nothing do not change what is found. -/
theorem SameFindings.foldl_add {files others : List FoundFile} {scan other : Scan}
    (hsame : SameFindings scan other)
    (hfiles : files.filter (!·.contents.isEmpty) = others.filter (!·.contents.isEmpty)) :
    SameFindings (files.foldl add scan) (others.foldl add other) := by
  have hfilter (files : List FoundFile) {scan other : Scan} (hsame : SameFindings scan other) :
      SameFindings (files.foldl add scan)
        ((files.filter (!·.contents.isEmpty)).foldl add other) := by
    induction files generalizing scan other with
    | nil => exact hsame
    | cons file files ih =>
        rw [List.foldl_cons]
        by_cases hquiet : file.contents = []
        · rw [List.filter_cons_of_neg (by simp [hquiet])]
          apply ih
          rw [add, hquiet]
          exact ⟨hsame.resources_eq, hsame.origins_eq⟩
        · rw [List.filter_cons_of_pos (by simp [hquiet]), List.foldl_cons]
          apply ih
          have hrecorded := hsame.recordAll file.path file.contents
          exact ⟨hrecorded.resources_eq, hrecorded.origins_eq⟩
  have hfirst := hfilter files hsame
  have hlast := hfilter others (⟨rfl, rfl⟩ : SameFindings other other)
  rw [hfiles] at hfirst
  exact ⟨hfirst.resources_eq.trans hlast.resources_eq.symm,
    hfirst.origins_eq.trans hlast.origins_eq.symm⟩

end Scan

namespace FileTree

variable (tree : FileTree) (settings : Settings) (resources : Path) (base : Location)

/-- The resource files below a location, in the order of their locations. -/
def foundFiles : List FoundFile :=
  tree.entries.toList.filterMap fun (location, entry) =>
    (tree.resourceFileAt? base location entry).bind fun (directory, name, bytes) =>
      Discovery.select? settings resources directory name bytes

theorem resourceFileAt?_nil (entry : Entry) : tree.resourceFileAt? base [] entry = none := by
  rw [Option.eq_none_iff_forall_not_mem]
  rintro ⟨directory, name, bytes⟩ hfile
  have hlocation := (resourceFileAt?_eq_some_iff.mp hfile).1
  simp at hlocation

/-- What is found is the values of a map of locations. -/
theorem foundFiles_eq : ∃ found : Std.ExtTreeMap Location FoundFile,
    (∀ location : Location, found[location]? = tree.foundAt? settings resources base location) ∧
      tree.foundFiles settings resources base = found.toList.map (·.2) := by
  refine ⟨tree.entries.filterMap fun location entry =>
    (tree.resourceFileAt? base location entry).bind fun (directory, name, bytes) =>
      Discovery.select? settings resources directory name bytes, fun location => ?_, ?_⟩
  · rw [Std.ExtTreeMap.getElem?_filterMap', foundAt?, lookup?]
    split
    · rename_i hroot
      rw [hroot, Option.bind_some, resourceFileAt?_nil]
      cases tree.entries[([] : Location)]? with
      | none => rfl
      | some entry => rw [Option.bind_some, resourceFileAt?_nil]
    · rfl
  · rw [Std.ExtTreeMap.toList_filterMap, List.map_filterMap, foundFiles]
    congr 1
    funext pair
    rw [Option.map_map]
    exact Option.map_id'.symm

/-- A file is found if it is found at a location. -/
theorem mem_foundFiles {file : FoundFile} :
    file ∈ tree.foundFiles settings resources base ↔
      ∃ location, tree.foundAt? settings resources base location = some file := by
  obtain ⟨found, hfound, hfiles⟩ := tree.foundFiles_eq settings resources base
  rw [hfiles, List.mem_map]
  simp only [← hfound, ← Std.ExtTreeMap.mem_toList_iff_getElem?_eq_some]
  constructor
  · rintro ⟨pair, hpair, rfl⟩
    exact ⟨pair.1, hpair⟩
  · rintro ⟨location, hpair⟩
    exact ⟨_, hpair, rfl⟩

end FileTree

namespace Discovery

/-- A file is selected unless a pattern excludes it or it is no markup of a values
directory. -/
theorem select?_eq_some_iff {settings : Settings} {resources : Path} {directory : String}
    {name : FileName} {bytes : ByteArray} {file : FoundFile} :
    select? settings resources directory name bytes = some file ↔
      file = ⟨⟨.inside (resources.join ⟨directory⟩) name, .ofName directory⟩, bytes⟩ ∧
        settings.excludes ((file.path.shown.stripPrefix? resources).getD file.path.shown) =
          false ∧
        ¬ (file.kind = .values ∧ file.isXml = false) := by
  unfold select?
  dsimp only
  split
  · rename_i hexcluded
    constructor
    · intro h
      cases h
    · rintro ⟨rfl, hexcluded', -⟩
      exact absurd (hexcluded.symm.trans hexcluded') (by decide)
  · rename_i hexcluded
    split
    · rename_i hvalues
      constructor
      · intro h
        cases h
      · rintro ⟨rfl, -, hvalues'⟩
        simp_all
    · rename_i hvalues
      constructor
      · intro h
        cases h
        simp_all
      · rintro ⟨rfl, -⟩
        rfl

theorem unlisted?_eq_some_iff {resources : Path} {base location : Location} {entry : Entry}
    {directory : FilePath} {fault : FileTree.Fault} :
    unlisted? resources base location entry = some (directory, fault) ↔
      ∃ name, location = base ++ [name] ∧ entry = .directory ∧ name.isHidden = false ∧
        directory = .inside resources name ∧
        FileTree.fileFault? (.inside resources name) = some fault := by
  simp only [← FileTree.isPrefixOf?_eq_some_iff]
  unfold unlisted?
  split
  · rename_i name hbelow
    simp only [hbelow, Option.some.injEq, List.cons.injEq, and_true, exists_eq_left', true_and]
    cases name.isHidden with
    | true => simp
    | false =>
        simp only [Bool.false_eq_true, if_false, Option.map_eq_some_iff, Prod.mk.injEq, true_and]
        constructor
        · rintro ⟨_, hfault, rfl, rfl⟩
          exact ⟨rfl, hfault⟩
        · rintro ⟨rfl, hfault⟩
          exact ⟨fault, hfault, rfl, rfl⟩
  · rename_i hother
    constructor
    · intro h
      cases h
    · rintro ⟨name, hbelow, hentry, -⟩
      exact absurd hentry (hother name hbelow)

/-- All directories of the resource directory can be listed. -/
theorem firstUnlisted?_eq_none_iff {tree : FileTree} {resources : Path} {base : Location} :
    firstUnlisted? tree resources base = none ↔
      ∀ name, tree.lookup? (base ++ [name]) = some .directory → name.isHidden = false →
        FileTree.fileFault? (.inside resources name) = none := by
  rw [firstUnlisted?, List.findSome?_eq_none_iff]
  constructor
  · intro hnone name hdirectory hvisible
    rw [FileTree.lookup?, if_neg (by simp)] at hdirectory
    have hentry := hnone (base ++ [name], .directory)
      (Std.ExtTreeMap.mem_toList_iff_getElem?_eq_some.mpr hdirectory)
    refine Option.eq_none_iff_forall_not_mem.mpr fun fault hfault => ?_
    have hunlisted : unlisted? resources base (base ++ [name]) .directory =
        some (.inside resources name, fault) :=
      unlisted?_eq_some_iff.mpr ⟨name, rfl, rfl, hvisible, rfl, hfault⟩
    exact absurd (hunlisted.symm.trans hentry) (by simp)
  · rintro hlists ⟨location, entry⟩ hpair
    rw [Std.ExtTreeMap.mem_toList_iff_getElem?_eq_some] at hpair
    refine Option.eq_none_iff_forall_not_mem.mpr fun found hunlisted => ?_
    obtain ⟨directory, fault⟩ := found
    obtain ⟨name, rfl, rfl, hvisible, -, hfault⟩ := unlisted?_eq_some_iff.mp hunlisted
    have hdirectory : tree.lookup? (base ++ [name]) = some .directory := by
      rw [FileTree.lookup?, if_neg (by simp), hpair]
    exact absurd (hfault.symm.trans (hlists name hdirectory hvisible)) (by simp)

/-- Discovery succeeds if the resource directory is one and its directories can be listed. -/
theorem find_eq_ok_iff {tree : FileTree} {settings : Settings} {resources : Path}
    {files : List FoundFile} :
    find tree settings resources = .ok files ↔
      ∃ base, tree.locate resources = .ok base ∧ tree.lookup? base = some .directory ∧
        (∀ name, tree.lookup? (base ++ [name]) = some .directory → name.isHidden = false →
          FileTree.fileFault? (.inside resources name) = none) ∧
        files = tree.foundFiles settings resources base := by
  unfold find
  cases hlocate : tree.locate resources with
  | error => simp
  | ok base =>
      dsimp only
      by_cases hbase : tree.lookup? base = some .directory
      · rw [if_neg (not_not_intro hbase)]
        split
        · rename_i hunlisted
          constructor
          · intro h
            cases h
          · rintro ⟨_, hsame, -, hlists, -⟩
            cases hsame
            rw [firstUnlisted?_eq_none_iff.mpr hlists] at hunlisted
            cases hunlisted
        · rename_i hnone
          have hlists := firstUnlisted?_eq_none_iff.mp hnone
          constructor
          · intro h
            cases h
            exact ⟨base, rfl, hbase, hlists, rfl⟩
          · rintro ⟨_, hsame, -, -, rfl⟩
            cases hsame
            rfl
      · rw [if_pos hbase]
        constructor
        · intro h
          cases h
        · rintro ⟨_, hsame, hdirectory, -⟩
          cases hsame
          exact absurd hdirectory hbase

end Discovery

namespace Scan

/-- A scan succeeds if discovery does and every file can be read. -/
theorem collect_eq_ok_iff {tree : FileTree} {settings : Settings} {resources : Path}
    {scan : Scan} :
    collect tree settings resources = .ok scan ↔
      ∃ files, Discovery.find tree settings resources = .ok files ∧
        (∀ file ∈ files, ∃ declared, file.declared = .ok declared) ∧
        scan = files.foldl add .empty := by
  unfold collect
  cases Discovery.find tree settings resources with
  | error => simp
  | ok files => simp [foldlM_addFile_eq_ok_iff]

end Scan

end OverlayManifest
