/-
# Discovery is exact

Found are the visible files in the visible directories of a resource directory, less those
that a pattern leaves out and those of values directories that are no markup. Each is found
once, and they come in the order of the bytes of their directories' names and of their own.
This needs the path of each visible directory, which must not be too long to list it: the
first directory that cannot be listed is reported instead.
-/

import OverlayManifest.Proofs.RelevantContent

namespace OverlayManifest

/-! ## Order -/

/-- Names are compared byte by byte. -/
theorem FileName.compare_eq_lt {first second : FileName} :
    compare first second = .lt ↔ first.bytes < second.bytes := by
  have hbytes (first second : List UInt8) : compare first second = .lt ↔ first < second := by
    induction first generalizing second with
    | nil =>
        cases second with
        | nil => simp
        | cons byte second => simp [List.compare_nil_cons]
    | cons byte first ih =>
        cases second with
        | nil => simp [List.compare_cons_nil]
        | cons byte' second =>
            rw [List.compare_cons_cons, Ordering.then_eq_lt, ih, Std.compare_eq_iff_eq,
              Std.compare_eq_lt, List.cons_lt_cons_iff]
  exact hbytes first.bytes second.bytes

namespace FileTree

/-- The bytes of a directory's name come before those of another's, or in one directory those
of a file's name do. -/
def BytesComeBefore (first second : String × FileName × ByteArray) : Prop :=
  Text.bytesOf first.1 < Text.bytesOf second.1 ∨
    first.1 = second.1 ∧ first.2.1.bytes < second.2.1.bytes

/-- Files come in the order of their bytes. -/
theorem comesBefore_iff {first second : String × FileName × ByteArray} :
    ComesBefore first second ↔ BytesComeBefore first second := by
  rw [ComesBefore, List.compare_cons_cons, List.compare_cons_cons, Ordering.then_eq_lt,
    Ordering.then_eq_lt, FileName.compare_eq_lt, FileName.compare_eq_lt, Std.compare_eq_iff_eq,
    FileName.plain.injEq, BytesComeBefore]
  simp [Std.compare_self, FileName.bytes]

/-! ## Files -/

/-- A file that is to be found: a file in a directory of the resource directory, both visible
and neither a link, that no pattern leaves out, and that is markup in a values directory. -/
structure Holds (tree : FileTree) (settings : Settings) (resources : Path) (base : Location)
    (directory : String) (name : FileName) (bytes : ByteArray) : Prop where
  directory_eq : tree.lookup? (base ++ [.plain directory]) = some .directory
  file_eq : tree.lookup? (base ++ [.plain directory, name]) = some (.file bytes)
  directory_visible : FileName.isHidden directory = false
  file_visible : name.isHidden = false
  included : settings.excludes ⟨directory ++ "/" ++ name.shown⟩ = false
  markup : partBefore '-' directory = "values" →
    (FilePath.inside (resources.join ⟨directory⟩) name).extension? = some (.plain "xml")

/-- A visible directory of the resource directory cannot be listed, since its path is faulty. -/
structure Unlists (tree : FileTree) (resources : Path) (base : Location) (directory : FileName)
    (fault : Fault) : Prop where
  directory_eq : tree.lookup? (base ++ [directory]) = some .directory
  visible : directory.isHidden = false
  fault_eq : fileFault? (.inside resources directory) = some fault

variable {tree : FileTree} {settings : Settings} {resources : Path} {base : Location}

/-- The files that are listed are those that are to be found. -/
theorem mem_filter_lists (hnamed : tree.Named) {directory : String} {name : FileName} {bytes : ByteArray} :
    (directory, name, bytes) ∈ (tree.filesBelow base).filter settings.lists ↔
      tree.Holds settings resources base directory name bytes := by
  have hmarkup (hfile : (directory, name, bytes) ∈ tree.filesBelow base) :
      (FilePath.inside (resources.join ⟨directory⟩) name).extension? = some (.plain "xml") ↔
        isMarkupName name = true := by
    have hstands : (FoundFile.under resources (directory, name, bytes)).StandsIn resources
        directory name :=
      FoundFile.standsIn_under hnamed hfile
    rw [← FoundFile.isXml_of_standsIn hstands, ResourceFile.isXml, beq_iff_eq]
    rfl
  rw [List.mem_filter]
  constructor
  · rintro ⟨hfile, hlists⟩
    obtain ⟨hentry, hdirectory, hvisible, hvisible'⟩ := mem_filesBelow.mp hfile
    simp only [Settings.lists, isListed, Bool.and_eq_true, Bool.not_eq_true', Bool.or_eq_true,
      bne_iff_ne] at hlists
    exact ⟨hdirectory, hentry, hvisible, hvisible', hlists.1, fun hvalues =>
      (hmarkup hfile).mpr (hlists.2.resolve_left (not_not_intro hvalues))⟩
  · intro h
    have hfile := mem_filesBelow.mpr
      ⟨h.file_eq, h.directory_eq, h.directory_visible, h.file_visible⟩
    refine ⟨hfile, ?_⟩
    simp only [Settings.lists, isListed, Bool.and_eq_true, Bool.not_eq_true', Bool.or_eq_true,
      bne_iff_ne]
    refine ⟨h.included, or_iff_not_imp_left.mpr fun hvalues => ?_⟩
    exact (hmarkup hfile).mp (h.markup (not_not.mp hvalues))

/-- The path of a file that a scan looks at tells the file. -/
theorem eq_of_path_eq (hnamed : tree.Named) (hresources : resources.text ≠ "")
    {first second : String × FileName × ByteArray} (hfirst : first ∈ tree.filesBelow base)
    (hsecond : second ∈ tree.filesBelow base)
    (h : (FoundFile.under resources first).path = (FoundFile.under resources second).path) :
    first = second := by
  obtain ⟨directory, name, bytes⟩ := first
  obtain ⟨directory', name', bytes'⟩ := second
  have hstands : (FoundFile.under resources (directory, name, bytes)).StandsIn resources
      directory name :=
    FoundFile.standsIn_under hnamed hfirst
  have hstands' : (FoundFile.under resources (directory', name', bytes')).StandsIn resources
      directory' name' :=
    FoundFile.standsIn_under hnamed hsecond
  obtain rfl : name = name' :=
    Option.some.inj (hstands.fileName?_eq.symm.trans (h ▸ hstands'.fileName?_eq))
  have hstrip {directory : String} {bytes : ByteArray}
      (h : (FoundFile.under resources (directory, name, bytes)).StandsIn resources directory name) :
      ((resources.join ⟨directory⟩).join ⟨name.shown⟩).stripPrefix? resources =
        some ⟨directory ++ "/" ++ name.shown⟩ :=
    Path.stripPrefix?_join hresources h.isName_directory.slash_notMem_shown
      h.isName.slash_notMem_shown h.isName_directory.isVoid_shown h.isName.isVoid_shown
  have hshown := congrArg FilePath.shown h
  simp only [FoundFile.under, FilePath.shown_inside] at hshown
  have hbelow : directory ++ "/" ++ name.shown = directory' ++ "/" ++ name.shown := by
    have hsame := (hstrip hstands).symm.trans
      ((congrArg (Path.stripPrefix? · resources) hshown).trans (hstrip hstands'))
    simpa using hsame
  rw [← String.toList_inj] at hbelow
  simp only [String.toList_append] at hbelow
  obtain rfl := String.toList_inj.mp
    (List.append_cancel_right (List.append_cancel_right hbelow))
  have hentry := (mem_filesBelow.mp hfirst).1
  rw [(mem_filesBelow.mp hsecond).1] at hentry
  cases hentry
  rfl

end FileTree

namespace Discovery

variable {tree : FileTree} {settings : Settings} {resources : Path} {base : Location}

/-- Of the directories that cannot be listed, the first one is reported. -/
theorem find_eq_walk (hlocate : tree.locate resources = .ok base)
    (hbase : tree.lookup? base = some .directory) {directory : FileName}
    {fault : FileTree.Fault} (h : tree.Unlists resources base directory fault) :
    ∃ first cause, tree.Unlists resources base first cause ∧
      (∀ other fault, tree.Unlists resources base other fault → first.bytes ≤ other.bytes) ∧
      find tree settings resources = .error (.walk resources (.inside resources first) cause) := by
  -- Each of these directories is an entry that the search stops at.
  have hentry {other : FileName} {fault : FileTree.Fault}
      (hother : tree.Unlists resources base other fault) :
      (base ++ [other], .directory) ∈ tree.entries.toList ∧
        unlisted? resources base (base ++ [other]) .directory =
          some (.inside resources other, fault) := by
    refine ⟨?_, unlisted?_eq_some_iff.mpr
      ⟨other, rfl, rfl, hother.visible, rfl, hother.fault_eq⟩⟩
    rw [Std.ExtTreeMap.mem_toList_iff_getElem?_eq_some]
    have hdirectory := hother.directory_eq
    rwa [FileTree.lookup?, if_neg (by simp)] at hdirectory
  cases hfirst : firstUnlisted? tree resources base with
  | none =>
      have hnone := List.findSome?_eq_none_iff.mp hfirst _ (hentry h).1
      cases (hentry h).2.symm.trans hnone
  | some found =>
      obtain ⟨before, ⟨location, entry⟩, after, hentries, hfound, hbefore⟩ :=
        List.findSome?_eq_some_iff.mp hfirst
      obtain ⟨path, cause⟩ := found
      obtain ⟨first, rfl, rfl, hvisible, rfl, hcause⟩ := unlisted?_eq_some_iff.mp hfound
      refine ⟨first, cause, ⟨?_, hvisible, hcause⟩, fun other fault hother => ?_, ?_⟩
      · have hmem : (base ++ [first], .directory) ∈ tree.entries.toList := by simp [hentries]
        rw [FileTree.lookup?, if_neg (by simp)]
        exact Std.ExtTreeMap.mem_toList_iff_getElem?_eq_some.mp hmem
      · obtain ⟨hmem, hunlisted⟩ := hentry hother
        have hordered : tree.entries.toList.Pairwise fun first second =>
            compare first.1 second.1 = .lt :=
          Std.ExtTreeMap.ordered_keys_toList
        rw [hentries] at hmem hordered
        rcases List.mem_append.mp hmem with hearlier | hlater
        · cases hunlisted.symm.trans (hbefore _ hearlier)
        · rcases List.mem_cons.mp hlater with hsame | hlater
          · obtain rfl : other = first := by simpa using hsame
            exact List.le_refl _
          · have hcompare := (List.pairwise_cons.mp (List.pairwise_append.mp hordered).2.1).1 _
              hlater
            rw [FileTree.compare_append, List.compare_cons_cons] at hcompare
            refine List.le_of_lt (FileName.compare_eq_lt.mp ?_)
            simpa [Ordering.then_eq_lt] using hcompare
      · rw [find, hlocate]
        dsimp only
        rw [if_neg (not_not_intro hbase), hfirst]

/-- Discovery finds the files that are to be found, each once, with the kind of its directory
and in the order of bytes, if all visible directories can be listed. Otherwise it fails as the
first of them, in the order of bytes, that cannot. -/
theorem find_exact (hnamed : tree.Named) (hlocate : tree.locate resources = .ok base)
    (hbase : tree.lookup? base = some .directory) :
    ((∀ directory fault, ¬ tree.Unlists resources base directory fault) →
      ∃ listed : List (String × FileName × ByteArray),
        find tree settings resources = .ok (listed.map fun (directory, name, bytes) =>
          ⟨⟨.inside (resources.join ⟨directory⟩) name, .ofName directory⟩, bytes⟩) ∧
        (∀ directory name bytes, (directory, name, bytes) ∈ listed ↔
          tree.Holds settings resources base directory name bytes) ∧
        (listed.map fun (directory, name, _) =>
          FilePath.inside (resources.join ⟨directory⟩) name).Nodup ∧
        listed.Pairwise FileTree.BytesComeBefore) ∧
    (∀ directory fault, tree.Unlists resources base directory fault →
      ∃ first cause, tree.Unlists resources base first cause ∧
        (∀ other fault, tree.Unlists resources base other fault → first.bytes ≤ other.bytes) ∧
        find tree settings resources =
          .error (.walk resources (.inside resources first) cause)) := by
  refine ⟨fun hlists => ?_, fun directory fault => find_eq_walk hlocate hbase⟩
  have hresources : resources.text ≠ "" :=
    (FileTree.textFault?_eq_none_iff.mp (FileTree.locate_eq_ok_iff.mp hlocate).1).1
  have hfind : find tree settings resources = .ok (tree.foundFiles settings resources base) := by
    refine find_eq_ok_iff.mpr ⟨base, hlocate, hbase, fun name hname hvisible => ?_, rfl⟩
    rw [Option.eq_none_iff_forall_ne_some]
    exact fun fault hfault => hlists name fault ⟨hname, hvisible, hfault⟩
  rw [FileTree.foundFiles_eq_map hnamed settings hresources] at hfind
  have hordered : ((tree.filesBelow base).filter settings.lists).Pairwise FileTree.ComesBefore :=
    (FileTree.pairwise_filesBelow tree base).filter _
  refine ⟨_, hfind, fun directory name bytes => FileTree.mem_filter_lists hnamed, ?_,
    hordered.imp FileTree.comesBefore_iff.mp⟩
  have hnodup : ((tree.filesBelow base).filter settings.lists).Nodup := by
    refine hordered.imp ?_
    rintro file _ h rfl
    exact Std.Irrefl.irrefl file h
  exact hnodup.map_on fun first hfirst second hsecond =>
    FileTree.eq_of_path_eq hnamed hresources (List.mem_filter.mp hfirst).1
      (List.mem_filter.mp hsecond).1

/-- A project with hidden entries, links, deeper directories and text among its values, of which
a pattern leaves out a directory. The raw file is found as it is, and nothing that is hidden. -/
theorem find_exact_cluttered : ∃ listed : List (String × FileName × ByteArray),
    find Scan.clutteredTree { exclude := [⟨"**/values-land/**"⟩] } ⟨"res"⟩ =
      .ok (listed.map fun (directory, name, bytes) =>
        ⟨⟨.inside (Path.join ⟨"res"⟩ ⟨directory⟩) name, .ofName directory⟩, bytes⟩) ∧
    ("raw-v21", .plain "r", ⟨#[255]⟩) ∈ listed ∧ ("raw-v21", .plain "r", ⟨#[]⟩) ∉ listed ∧
    (∀ name bytes, (".git", name, bytes) ∉ listed) ∧
    listed.Pairwise FileTree.BytesComeBefore := by
  have hnamed : Scan.clutteredTree.Named := by decide
  have hlocate : Scan.clutteredTree.locate ⟨"res"⟩ = .ok ["res"] := Scan.locate_res rfl rfl
  have hreaches : Scan.clutteredTree.Reaches ⟨"res"⟩ :=
    Scan.reaches_of_forall hlocate rfl (by decide)
  obtain ⟨listed, hfind, hmem, -, hordered⟩ := (find_exact hnamed hlocate rfl).1
    fun directory fault h => by
      have hlisted := hreaches.lists ["res"] directory hlocate h.directory_eq h.visible
      cases hlisted.symm.trans h.fault_eq
  refine ⟨listed, hfind, (hmem _ _ _).mpr ⟨rfl, rfl, rfl, rfl, ?_, ?_⟩, fun hother => ?_,
    fun name bytes hhidden => ?_, hordered⟩
  · decide +kernel
  · exact fun hvalues => absurd hvalues (by decide)
  · have hentry := ((hmem _ _ _).mp hother).file_eq
    exact absurd hentry (by decide)
  · have hvisible := ((hmem _ _ _).mp hhidden).directory_visible
    exact absurd hvisible (by decide)

/-- A raw file that is to be found is not, since with all the slashes the path of its directory
is too long. And nothing is found in a directory whose name is no text. -/
theorem not_found_slashed :
    ((FileTree.rawProject "a").Named ∧
      (FileTree.rawProject "a").locate (FileTree.slashed "res" 4090) = .ok ["res"] ∧
      (FileTree.rawProject "a").lookup? ["res"] = some .directory ∧
      (FileTree.rawProject "a").Holds {} (FileTree.slashed "res" 4090) ["res"] "raw" "a"
        "".toUTF8 ∧
      ∃ cause, find (FileTree.rawProject "a") {} (FileTree.slashed "res" 4090) =
        .error (.walk (FileTree.slashed "res" 4090)
          (.inside (FileTree.slashed "res" 4090) "raw") cause)) ∧
    (Scan.unnamedDirectoryTree.Named ∧
      Scan.unnamedDirectoryTree.locate ⟨"res"⟩ = .ok ["res"] ∧
      Scan.unnamedDirectoryTree.lookup? ["res", .raw Scan.unnamedQualifier] = some .directory ∧
      Scan.unnamedDirectoryTree.lookup? ["res", .raw Scan.unnamedQualifier, "a"] =
        some (.file "".toUTF8) ∧
      find Scan.unnamedDirectoryTree {} ⟨"res"⟩ = .ok []) := by
  constructor
  · have hlocate : (FileTree.rawProject "a").locate (FileTree.slashed "res" 4090) = .ok ["res"] :=
      FileTree.locate_slashed (by decide) (Scan.locate_res rfl rfl) rfl
        (show _ + 4090 ≤ _ by decide)
    have hfault : FileTree.fileFault? (.inside (FileTree.slashed "res" 4090) "raw") ≠ none := by
      intro hnone
      have hsize := (FileTree.utf8ByteSize_join (FileTree.slashed "res" 4090)
        (show '/' ∉ "raw".toList by decide)).1
      have hlong : ¬ (FileTree.slashed "res" 4090).text.utf8ByteSize + "raw".utf8ByteSize ≤
          FileTree.pathLimit := by
        rw [FileTree.utf8ByteSize_slashed]
        decide
      exact hlong (Nat.le_trans hsize (FileTree.textFault?_eq_none_iff.mp hnone).2.2)
    obtain ⟨fault, hfault⟩ := Option.ne_none_iff_exists'.mp hfault
    obtain ⟨first, cause, hfirst, -, hfind⟩ := find_eq_walk hlocate rfl
      (⟨rfl, rfl, hfault⟩ : (FileTree.rawProject "a").Unlists _ ["res"] "raw" fault)
    have hdirectories : ∀ location entry,
        (FileTree.rawProject "a").lookup? location = some entry →
          location ∈ [[], [.plain "res"], [.plain "res", .plain "raw"],
            [.plain "res", .plain "raw", .plain "a"]] :=
      (FileTree.forall_lookup?_iff (by decide)).mpr (by decide)
    obtain rfl : first = "raw" := by simpa using hdirectories _ _ hfirst.directory_eq
    refine ⟨by decide, hlocate, rfl, ⟨rfl, rfl, rfl, rfl, rfl, fun hvalues => ?_⟩,
      cause, hfind⟩
    exact absurd hvalues (by decide)
  · have hlocate : Scan.unnamedDirectoryTree.locate ⟨"res"⟩ = .ok ["res"] :=
      Scan.locate_res rfl rfl
    refine ⟨by decide, hlocate, rfl, rfl, ?_⟩
    rw [find, hlocate]
    rfl

end Discovery

end OverlayManifest
