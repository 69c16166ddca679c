/-
# Scans as unions

A scan that succeeds is the union of what its files declare, in which the first file that
declares a resource is its origin. A scan that fails does so as the first file that fails.
-/

import OverlayManifest.Proofs.ListedFiles
import OverlayManifest.Proofs.PathLimits

namespace OverlayManifest

/-- The first element of a list of which something holds. -/
def IsFirst {α : Type} (Holds : α → Prop) (list : List α) (first : α) : Prop :=
  ∃ before after, list = before ++ first :: after ∧ Holds first ∧
    ∀ earlier ∈ before, ¬ Holds earlier

namespace IsFirst

variable {α : Type} {Holds : α → Prop} {list : List α} {first other : α}

theorem mem (h : IsFirst Holds list first) : first ∈ list := by
  obtain ⟨before, after, rfl, -⟩ := h
  simp

/-- The first element of a longer list is its head, or the first of its tail. -/
theorem cons_iff {head : α} :
    IsFirst Holds (head :: list) first ↔
      (Holds head ∧ first = head) ∨ (¬ Holds head ∧ IsFirst Holds list first) := by
  constructor
  · rintro ⟨before, after, hlist, hfirst, hbefore⟩
    cases before with
    | nil =>
        rw [List.nil_append, List.cons.injEq] at hlist
        obtain ⟨rfl, rfl⟩ := hlist
        exact .inl ⟨hfirst, rfl⟩
    | cons other before =>
        rw [List.cons_append, List.cons.injEq] at hlist
        obtain ⟨rfl, rfl⟩ := hlist
        refine .inr ⟨hbefore _ (by simp), before, after, rfl, hfirst, fun earlier hearlier => ?_⟩
        exact hbefore earlier (by simp [hearlier])
  · rintro (⟨hhead, rfl⟩ | ⟨hhead, before, after, rfl, hfirst, hbefore⟩)
    · exact ⟨[], list, rfl, hhead, by simp⟩
    · refine ⟨head :: before, after, rfl, hfirst, fun earlier hearlier => ?_⟩
      rcases List.mem_cons.mp hearlier with rfl | hearlier
      · exact hhead
      · exact hbefore earlier hearlier

/-- There is a first element if there is any. -/
theorem exists_iff : (∃ first, IsFirst Holds list first) ↔ ∃ element ∈ list, Holds element := by
  induction list with
  | nil => simp [IsFirst]
  | cons head list ih =>
      simp only [cons_iff, List.mem_cons, exists_eq_or_imp, ← ih]
      by_cases hhead : Holds head
      · simp [hhead]
      · simp [hhead]

/-- Where the same holds of all elements, the same element is the first. -/
theorem congr {Holds' : α → Prop} (h : ∀ element ∈ list, Holds element ↔ Holds' element) :
    IsFirst Holds list first ↔ IsFirst Holds' list first := by
  induction list with
  | nil => simp [IsFirst]
  | cons head list ih =>
      rw [cons_iff, cons_iff, h head (by simp), ih fun element hmem => h element (by simp [hmem])]

end IsFirst

namespace Scan

/-- Adding files fails as the first of them that fails. -/
theorem foldlM_addFile_eq_error_iff {files : List FoundFile} {scan : Scan} {failure : Failure} :
    files.foldlM addFile scan = .error failure ↔
      ∃ file, IsFirst (fun file => ¬ ∃ declared, file.declared = .ok declared) files file ∧
        file.declared = .error failure := by
  induction files generalizing scan with
  | nil => simp [IsFirst, pure, Except.pure]
  | cons file files ih =>
      rw [List.foldlM_cons, addFile]
      simp only [IsFirst.cons_iff]
      cases hdeclared : file.declared with
      | error cause =>
          simp [bind, Except.bind, hdeclared]
      | ok declared => simp [bind, Except.bind, ih]

/-- A resource that a file declares comes from that file, unless its origin is known. -/
theorem getElem?_origins_recordAll {scan : Scan} {origin : FilePath} {declared : List Resource}
    {resource : Resource} :
    (scan.recordAll origin declared).origins[resource]? =
      scan.origins[resource]?.or (if resource ∈ declared then some origin else none) := by
  induction declared generalizing scan with
  | nil => simp [recordAll]
  | cons first declared ih =>
      show ((scan.record origin first).recordAll origin declared).origins[resource]? = _
      rw [ih, record, Std.ExtTreeMap.getElem?_insertIfNew]
      by_cases hfirst : first = resource
      · subst hfirst
        cases horigin : scan.origins[first]? with
        | none =>
            have hnew : first ∉ scan.origins := by
              simp [Std.ExtTreeMap.mem_iff_isSome_getElem?, horigin]
            simp [hnew]
        | some path =>
            have hknown : first ∈ scan.origins := by
              simp [Std.ExtTreeMap.mem_iff_isSome_getElem?, horigin]
            simp [hknown]
      · simp [hfirst, Ne.symm hfirst]

/-- The origin of a resource is the first file that declares it, unless it is known. -/
theorem getElem?_origins_foldl_add {files : List FoundFile} {scan : Scan} {resource : Resource}
    {path : FilePath} :
    (files.foldl add scan).origins[resource]? = some path ↔
      scan.origins[resource]? = some path ∨ (scan.origins[resource]? = none ∧
        ∃ file, IsFirst (resource ∈ ·.contents) files file ∧ path = file.path) := by
  induction files generalizing scan with
  | nil => simp [IsFirst]
  | cons file files ih =>
      have hadded : (add scan file).origins[resource]? = scan.origins[resource]?.or
          (if resource ∈ file.contents then some file.path else none) :=
        getElem?_origins_recordAll
      rw [List.foldl_cons, ih, hadded]
      simp only [IsFirst.cons_iff]
      cases scan.origins[resource]? with
      | some known => simp
      | none =>
          by_cases hdeclares : resource ∈ file.contents
          · simp [hdeclares, eq_comm]
          · simp [hdeclares]

/-- Every file that is added counts. -/
theorem fileCount_foldl_add {files : List FoundFile} {scan : Scan} :
    (files.foldl add scan).fileCount = scan.fileCount + files.length := by
  induction files generalizing scan with
  | nil => rfl
  | cons file files ih =>
      rw [List.foldl_cons, ih, add, List.length_cons, Nat.add_assoc, Nat.add_comm 1]

section Found

variable {tree : FileTree} {settings : Settings} {resources : Path} {files : List FoundFile}

/-- A scan goes through the files that are found. -/
theorem collect_of_find (hfind : Discovery.find tree settings resources = .ok files) :
    collect tree settings resources = files.foldlM addFile .empty := by
  rw [collect, hfind]

/-- A file that was found can be read if its text is parsed or does not have to be. -/
theorem exists_declared_iff_of_find (hnamed : tree.Named)
    (hfind : Discovery.find tree settings resources = .ok files) {file : FoundFile}
    (hfile : file ∈ files) :
    (∃ declared, file.declared = .ok declared) ↔
      (file.IsParsed → ∃ found, tree.Parses file found) := by
  obtain ⟨directory, name, hstands, htext⟩ := Discovery.standsIn_of_find hnamed hfind hfile
  exact FileTree.exists_declared_iff hstands htext

/-- The first file that cannot be read is the first that has to be parsed and fails. -/
theorem isFirst_unread_iff (hnamed : tree.Named)
    (hfind : Discovery.find tree settings resources = .ok files) {file : FoundFile} :
    IsFirst (fun file => ¬ ∃ declared, file.declared = .ok declared) files file ↔
      IsFirst (fun file => file.IsParsed ∧ ∃ failure, tree.FailsOn file failure) files file := by
  apply IsFirst.congr
  intro file hfile
  rw [exists_declared_iff_of_find hnamed hfind hfile, FileTree.exists_parses_iff, Classical.not_imp,
    Classical.not_not]

/-- What a file declares that was found and can be read. -/
theorem mem_contents_iff (hnamed : tree.Named)
    (hfind : Discovery.find tree settings resources = .ok files) {file : FoundFile}
    (hfile : file ∈ files) (hdeclared : ∃ declared, file.declared = .ok declared)
    {resource : Resource} :
    resource ∈ file.contents ↔ tree.Declares resources file resource := by
  obtain ⟨directory, name, hstands, htext⟩ := Discovery.standsIn_of_find hnamed hfind hfile
  obtain ⟨declared, hdeclared⟩ := hdeclared
  rw [← FileTree.mem_declared_iff hstands htext hdeclared, FoundFile.contents, hdeclared]
  rfl

/-- A scan that succeeds is the union of what the files declare. -/
theorem mem_resources_iff (hnamed : tree.Named)
    (hfind : Discovery.find tree settings resources = .ok files)
    (hreadable : ∀ file ∈ files, ∃ declared, file.declared = .ok declared)
    {resource : Resource} :
    resource ∈ (files.foldl add .empty).resources ↔
      ∃ file ∈ files, tree.Declares resources file resource := by
  have hempty : resource ∉ empty.resources := Std.ExtTreeSet.not_mem_empty
  simp only [mem_foldl_add, hempty, false_or]
  apply exists_congr
  intro file
  apply and_congr_right
  intro hfile
  exact mem_contents_iff hnamed hfind hfile (hreadable file hfile)

/-- In a scan that succeeds, the origin of a resource is the first file that declares it. -/
theorem getElem?_origins_iff (hnamed : tree.Named)
    (hfind : Discovery.find tree settings resources = .ok files)
    (hreadable : ∀ file ∈ files, ∃ declared, file.declared = .ok declared)
    {resource : Resource} {path : FilePath} :
    (files.foldl add .empty).origins[resource]? = some path ↔
      ∃ file, IsFirst (tree.Declares resources · resource) files file ∧ path = file.path := by
  have hempty : empty.origins[resource]? = none := Std.ExtTreeMap.getElem?_empty
  simp only [getElem?_origins_foldl_add, hempty, true_and, reduceCtorEq, false_or]
  apply exists_congr
  intro file
  apply and_congr_left
  intro hpath
  apply IsFirst.congr
  intro file hfile
  exact mem_contents_iff hnamed hfind hfile (hreadable file hfile)

/-- A file whose name is no text declares nothing, unless it stands in a values directory. -/
theorem not_declares_of_raw {file : FoundFile} {directory : String} {name : RawName}
    (hstands : file.StandsIn resources directory (.raw name)) (hkind : file.kind ≠ .values)
    (resource : Resource) : ¬ tree.Declares resources file resource := by
  have hname : file.textName? = none := hstands.textName?_eq
  rintro (⟨hstands', -, -⟩ | ⟨hparsed, -, -⟩)
  · cases hstands'.textName?_eq.symm.trans hname
  · rw [FoundFile.IsParsed] at hparsed
    split at hparsed
    · exact hkind ‹_›
    · exact hparsed.2.2 hname

/-- A scan is the union of what the found files declare, each resource with the first file
that declares it, or it fails as the first file that fails. A file whose name is a text is a
resource itself, unless it stands in a values directory, and one whose name is none counts and
declares nothing. -/
theorem collect_firstWins (hnamed : tree.Named)
    (hfind : Discovery.find tree settings resources = .ok files) :
    ((∃ scan, collect tree settings resources = .ok scan) ↔
      ∀ file ∈ files, file.IsParsed → ∃ found, tree.Parses file found) ∧
    (∀ scan, collect tree settings resources = .ok scan →
      (∀ resource, resource ∈ scan.resources ↔
        ∃ file ∈ files, tree.Declares resources file resource) ∧
      (∀ file ∈ files, ∃ directory name, file.StandsIn resources directory name ∧
        (file.kind ≠ .values →
          match name with
          | .plain text => ⟨partBefore '-' directory, partBefore '.' text⟩ ∈ scan.resources
          | .raw _ => ∀ resource, ¬ tree.Declares resources file resource)) ∧
      (∀ resource, resource ∈ scan.origins ↔ resource ∈ scan.resources) ∧
      (∀ resource path, scan.origins[resource]? = some path ↔
        ∃ file, IsFirst (tree.Declares resources · resource) files file ∧ path = file.path) ∧
      scan.fileCount = files.length) ∧
    ∀ failure, collect tree settings resources = .error failure ↔
      ∃ file, IsFirst (fun file => file.IsParsed ∧ ∃ failure, tree.FailsOn file failure)
        files file ∧ tree.FailsOn file failure := by
  have hreads {file : FoundFile} (hfile : file ∈ files) :=
    exists_declared_iff_of_find hnamed hfind hfile
  rw [collect_of_find hfind]
  refine ⟨?_, fun scan hscan => ?_, fun failure => ?_⟩
  · simp only [foldlM_addFile_eq_ok_iff, exists_and_left, exists_eq, and_true]
    exact forall₂_congr fun file hfile => hreads hfile
  · obtain ⟨hreadable, rfl⟩ := foldlM_addFile_eq_ok_iff.mp hscan
    have hresources (resource : Resource) :
        resource ∈ (files.foldl add .empty).resources ↔
          ∃ file ∈ files, tree.Declares resources file resource :=
      mem_resources_iff hnamed hfind hreadable
    have horigins (resource : Resource) (path : FilePath) :
        (files.foldl add .empty).origins[resource]? = some path ↔
          ∃ file, IsFirst (tree.Declares resources · resource) files file ∧ path = file.path :=
      getElem?_origins_iff hnamed hfind hreadable
    refine ⟨hresources, fun file hfile => ?_, fun resource => ?_, horigins, ?_⟩
    · obtain ⟨directory, name, hstands, -⟩ := Discovery.standsIn_of_find hnamed hfind hfile
      refine ⟨directory, name, hstands, fun hkind => ?_⟩
      cases name with
      | plain text => exact (hresources _).mpr ⟨file, hfile, .itself hstands hkind rfl⟩
      | raw name => exact not_declares_of_raw hstands hkind
    · rw [hresources, ← IsFirst.exists_iff, Std.ExtTreeMap.mem_iff_isSome_getElem?,
        Option.isSome_iff_exists]
      simp only [horigins]
      rw [exists_comm]
      simp
    · rw [fileCount_foldl_add]
      exact Nat.zero_add _
  · rw [foldlM_addFile_eq_error_iff]
    apply exists_congr
    intro file
    rw [isFirst_unread_iff hnamed hfind]
    apply and_congr_right
    intro hfirst
    obtain ⟨directory, name, hstands, htext⟩ :=
      Discovery.standsIn_of_find hnamed hfind hfirst.mem
    obtain ⟨-, -, -, ⟨hparsed, -⟩, -⟩ := hfirst
    rw [FileTree.declared_eq_error_iff hstands htext, and_iff_right hparsed]

end Found

/-- A project with two raw files for one resource, of which one has a qualifier. -/
def rawTwice : FileTree :=
  .ofEntries [(["res"], .directory), (["res", "raw"], .directory),
    (["res", "raw-de"], .directory), (["res", "raw", "a"], .file "".toUTF8),
    (["res", "raw-de", "a.b"], .file "".toUTF8)]

/-- The file without a qualifier comes first. -/
theorem collect_firstWins_rawTwice : ∃ files scan,
    Discovery.find rawTwice {} ⟨"res"⟩ = .ok files ∧ files.length = 2 ∧
      collect rawTwice {} ⟨"res"⟩ = .ok scan ∧
      scan.origins[(⟨"raw", "a"⟩ : Resource)]? = some (.plain ⟨"res/raw/a"⟩) ∧
      scan.fileCount = 2 := by
  have hfree : rawTwice.LinkFree := by decide
  have hnamed : rawTwice.Named := by decide
  let first : FoundFile := ⟨⟨.plain ⟨"res/raw/a"⟩, .files "raw"⟩, "".toUTF8⟩
  let second : FoundFile := ⟨⟨.plain ⟨"res/raw-de/a.b"⟩, .files "raw"⟩, "".toUTF8⟩
  have hfind : Discovery.find rawTwice {} ⟨"res"⟩ = .ok [first, second] := by
    rw [Discovery.find, FileTree.locate_eq_walk hfree (by decide)]
    rfl
  obtain ⟨hread, hscan, -⟩ := collect_firstWins hnamed hfind
  obtain ⟨scan, hcollect⟩ := hread.mpr (by simp [first, second, FoundFile.IsParsed])
  obtain ⟨-, -, -, horigins, hcount⟩ := hscan scan hcollect
  refine ⟨_, scan, hfind, rfl, hcollect, ?_, hcount⟩
  rw [horigins]
  refine ⟨first, ⟨[], [second], rfl, ?_, by simp⟩, rfl⟩
  have hstands : first.StandsIn ⟨"res"⟩ "raw" "a" :=
    ⟨rfl, rfl, by decide, by decide, rfl⟩
  exact .itself hstands (by simp [first]) rfl

/-- A values file that declares a string. -/
def stringFile (name : String) : Entry :=
  .file ("<resources><string name='" ++ name ++ "'/></resources>").toUTF8

theorem locate_res {tree : FileTree} (htree : tree.workingDirectory = [])
    (hdirectory : tree.lookup? ["res"] = some .directory) : tree.locate ⟨"res"⟩ = .ok ["res"] := by
  have hlink (target : Target) : tree.lookup? ["res"] ≠ some (.link target) := by
    rw [hdirectory]
    simp
  have hleads : tree.Leads false FileTree.linkLimit [] ["res"] ["res"] :=
    .down tree.lookup?_nil (by decide) (by decide) (by decide) (by decide) hlink .arrived
  have hstart : FileTree.startOf tree.workingDirectory ⟨"res"⟩ = [] := by
    rw [htree, FileTree.startOf, ite_self]
  have hnames : FileTree.namesOf ⟨"res"⟩ = ["res"] := by decide
  rw [FileTree.locate_eq_ok_iff, hstart, hnames]
  exact ⟨by decide, hleads⟩

/-- A project with one values file. -/
def valuesTree (directory : String) : FileTree :=
  .ofEntries [([.plain "res"], .directory), ([.plain "res", .plain directory], .directory),
    ([.plain "res", .plain directory, .plain "a.xml"], stringFile "a")]

theorem locate_valuesTree {directory : String} (hfree : (valuesTree directory).LinkFree)
    (hdirectory : (valuesTree directory).lookup? ["res"] = some .directory) {count : Nat}
    (hcount : "res".utf8ByteSize + count ≤ FileTree.pathLimit) :
    (valuesTree directory).locate (FileTree.slashed "res" count) = .ok ["res"] :=
  FileTree.locate_slashed hfree (locate_res rfl hdirectory) hdirectory hcount

/-- A project with a raw file whose name is no text. -/
def unnamedTree : FileTree :=
  .ofEntries [(["res"], .directory), (["res", "raw"], .directory),
    (["res", "raw", .raw ⟨⟨#[0xff]⟩, rfl⟩], .file "".toUTF8)]

/-- The raw file of that project. -/
def unnamedFile : FoundFile :=
  .under ⟨"res"⟩ ("raw", .raw ⟨⟨#[0xff]⟩, rfl⟩, "".toUTF8)

/-- Below a path with slashes behind it, the values directory can be listed if its path is not
too long. -/
theorem lists_valuesTree {count : Nat} (hcount : "res".utf8ByteSize + count + 1 +
      "values".utf8ByteSize ≤ FileTree.pathLimit)
    {base : Location} (hbase : (valuesTree "values").locate (FileTree.slashed "res" count) =
      .ok base) {name : FileName}
    (hname : (valuesTree "values").lookup? (base ++ [name]) = some .directory) :
    FileTree.fileFault? (.inside (FileTree.slashed "res" count) name) = none := by
  have hfault := (FileTree.locate_eq_ok_iff.mp hbase).1
  rw [locate_valuesTree (by decide) rfl (by omega), Except.ok.injEq] at hbase
  subst hbase
  have hdirectories : ∀ location entry, (valuesTree "values").lookup? location = some entry →
      location ∈ [[], [.plain "res"], [.plain "res", .plain "values"],
        [.plain "res", .plain "values", .plain "a.xml"]] :=
    (FileTree.forall_lookup?_iff (by decide)).mpr (by decide)
  obtain rfl : name = "values" := by simpa using hdirectories _ _ hname
  have hsize := (FileTree.utf8ByteSize_join (FileTree.slashed "res" count)
    (show '/' ∉ "values".toList by decide)).2
  rw [FileTree.utf8ByteSize_slashed] at hsize
  exact FileTree.textFault?_join hfault (by decide) (by decide) (Nat.le_trans hsize hcount)

/-- The values file below a path with so many slashes that it cannot be opened. -/
def slashedFile : FoundFile :=
  .under (FileTree.slashed "res" 4085)
    ("values", "a.xml", "<resources><string name='a'/></resources>".toUTF8)

theorem find_slashedFile : Discovery.find (valuesTree "values") {}
    (FileTree.slashed "res" 4085) = .ok [slashedFile] := by
  have hnamed : (valuesTree "values").Named := by decide
  have hlocate : (valuesTree "values").locate (FileTree.slashed "res" 4085) = .ok ["res"] :=
    locate_valuesTree (by decide) rfl (by decide)
  refine Discovery.find_eq_ok_iff.mpr ⟨_, hlocate, rfl, fun name hname _ =>
    lists_valuesTree (by decide) hlocate hname, ?_⟩
  rw [FileTree.foundFiles_eq_map hnamed {}
    (FileTree.textFault?_eq_none_iff.mp (FileTree.locate_eq_ok_iff.mp hlocate).1).1]
  rfl

theorem fault_slashedFile : ∃ cause, FileTree.fileFault? slashedFile.path = some cause := by
  refine Option.ne_none_iff_exists'.mp fun hnone => ?_
  have hsize := (FileTree.utf8ByteSize_join_join (FileTree.slashed "res" 4085)
    (show '/' ∉ "values".toList by decide) (show '/' ∉ "a.xml".toList by decide)).1
  rw [FileTree.utf8ByteSize_slashed] at hsize
  have hlong : ¬ "res".utf8ByteSize + 4085 + "values".utf8ByteSize + "a.xml".utf8ByteSize ≤
      FileTree.pathLimit := by decide
  exact hlong (Nat.le_trans hsize (FileTree.textFault?_eq_none_iff.mp hnone).2.2)

/-- A file that is found need not be a resource if its name is no text. And a text that is
accepted does not help if all the slashes make the path too long on which it is opened. -/
theorem not_firstWins :
    (unnamedTree.Named ∧ Discovery.find unnamedTree {} ⟨"res"⟩ = .ok [unnamedFile] ∧
      unnamedFile.kind = .files "raw" ∧
      collect unnamedTree {} ⟨"res"⟩ = .ok ⟨∅, ∅, 1⟩) ∧
    ((valuesTree "values").Named ∧
      Discovery.find (valuesTree "values") {} (FileTree.slashed "res" 4085) =
        .ok [slashedFile] ∧
      (∃ text, FileTree.textOf slashedFile.bytes = .ok text ∧
        (Document.Values.read text).isOk = true) ∧
      ∃ cause, collect (valuesTree "values") {} (FileTree.slashed "res" 4085) =
        .error (.read slashedFile.path cause)) := by
  have hfind : Discovery.find unnamedTree {} ⟨"res"⟩ = .ok [unnamedFile] := by
    rw [Discovery.find, locate_res rfl rfl]
    rfl
  have htext : FileTree.textOf slashedFile.bytes =
      .ok "<resources><string name='a'/></resources>" :=
    FileTree.textOf_toUTF8 "<resources><string name='a'/></resources>"
  refine ⟨⟨by decide, hfind, rfl, ?_⟩, by decide, find_slashedFile,
    ⟨_, htext, by decide +kernel⟩, ?_⟩
  · rw [collect_of_find hfind]
    rfl
  · obtain ⟨cause, hcause⟩ := fault_slashedFile
    have hkind : slashedFile.kind = .values := rfl
    have hdeclared : slashedFile.declared = .error (.read slashedFile.path cause) := by
      rw [FoundFile.declared, hkind, FoundFile.readText, hcause, readDocument]
    refine ⟨cause, ?_⟩
    rw [collect_of_find find_slashedFile, List.foldlM_cons, addFile, hdeclared]
    rfl

end Scan

end OverlayManifest
