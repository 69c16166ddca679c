/-
# Listed files

A scan looks at the visible files in the visible directories of a resource directory, in
the order of the directories' names and then of their own. They are the same, in the same
order, wherever equal things stand below the resource directory.
-/

import Mathlib.Data.List.Sort
import Mathlib.Data.List.TakeDrop
import OverlayManifest.Proofs.FileDeclarations
import OverlayManifest.Proofs.PathsBelow

namespace OverlayManifest

namespace FileTree

/-- The files that a scan looks at below a location: directory, name and bytes. -/
def filesBelow (tree : FileTree) (base : Location) : List (String × FileName × ByteArray) :=
  tree.entries.toList.filterMap fun (location, entry) => tree.resourceFileAt? base location entry

/-- A file comes before another: its directory does, or its name in one directory. -/
def ComesBefore (first second : String × FileName × ByteArray) : Prop :=
  compare [.plain first.1, first.2.1] [.plain second.1, second.2.1] = .lt

instance : Std.Irrefl ComesBefore where
  irrefl file h := by
    rw [ComesBefore, Std.compare_self] at h
    cases h

instance : Std.Antisymm ComesBefore where
  antisymm first second h hreverse := by
    have hswap : compare [.plain first.1, first.2.1] [.plain second.1, second.2.1] =
        (compare [.plain second.1, second.2.1] [.plain first.1, first.2.1]).swap :=
      Std.OrientedCmp.eq_swap
    rw [ComesBefore, hswap, hreverse] at h
    cases h

variable {tree other : FileTree} {base base' : Location}

/-- A scan looks at a file in a directory, neither of which is hidden. -/
theorem mem_filesBelow {directory : String} {name : FileName} {bytes : ByteArray} :
    (directory, name, bytes) ∈ tree.filesBelow base ↔
      tree.lookup? (base ++ [.plain directory, name]) = some (.file bytes) ∧
        tree.lookup? (base ++ [.plain directory]) = some .directory ∧
        FileName.isHidden directory = false ∧ name.isHidden = false := by
  have hlookup (entry : Entry) : tree.lookup? (base ++ [.plain directory, name]) = some entry ↔
      (base ++ [.plain directory, name], entry) ∈ tree.entries.toList := by
    rw [Std.ExtTreeMap.mem_toList_iff_getElem?_eq_some, lookup?, if_neg (by simp)]
  rw [filesBelow, List.mem_filterMap, hlookup]
  simp only [Prod.exists, resourceFileAt?_eq_some_iff]
  constructor
  · rintro ⟨location, entry, hentry, rfl, rfl, hvisible⟩
    exact ⟨hentry, hvisible⟩
  · rintro ⟨hentry, hvisible⟩
    exact ⟨_, _, hentry, rfl, rfl, hvisible⟩

/-- Locations below one place compare as what follows that place. -/
theorem compare_append (base below below' : Location) :
    compare (base ++ below) (base ++ below') = compare below below' := by
  induction base with
  | nil => rfl
  | cons name base ih =>
      rw [List.cons_append, List.cons_append, List.compare_cons_cons, Std.compare_self]
      exact ih

/-- The files are in order. -/
theorem pairwise_filesBelow (tree : FileTree) (base : Location) :
    (tree.filesBelow base).Pairwise ComesBefore := by
  have hkeys : tree.entries.toList.Pairwise fun first second =>
      compare first.1 second.1 = .lt :=
    Std.ExtTreeMap.ordered_keys_toList
  refine hkeys.filterMap _ fun first second hcompare file hfile file' hfile' => ?_
  obtain ⟨directory, name, bytes⟩ := file
  obtain ⟨directory', name', bytes'⟩ := file'
  obtain ⟨hfirst, -⟩ := resourceFileAt?_eq_some_iff.mp hfile
  obtain ⟨hsecond, -⟩ := resourceFileAt?_eq_some_iff.mp hfile'
  rwa [hfirst, hsecond, compare_append] at hcompare

/-- What stands below the resource directory decides which files there are. -/
theorem filesBelow_congr
    (h : ∀ below, tree.lookup? (base ++ below) = other.lookup? (base' ++ below)) :
    tree.filesBelow base = other.filesBelow base' := by
  apply (pairwise_filesBelow tree base).eq_of_mem_iff (pairwise_filesBelow other base')
  rintro ⟨directory, name, bytes⟩
  rw [mem_filesBelow, mem_filesBelow, h, h]

/-- Found are those files that the settings select. -/
theorem foundFiles_eq_filterMap (tree : FileTree) (settings : Settings) (resources : Path)
    (base : Location) :
    tree.foundFiles settings resources base =
      (tree.filesBelow base).filterMap fun (directory, name, bytes) =>
        Discovery.select? settings resources directory name bytes := by
  rw [filesBelow, List.filterMap_filterMap]
  rfl

end FileTree

/-! ## The files that are listed -/

theorem DirectoryKind.ofName_eq_values_iff (directory : String) :
    ofName directory = .values ↔ partBefore '-' directory = "values" := by
  rcases ofName_cases directory with ⟨hpart, hkind⟩ | ⟨hpart, hkind⟩
  · simp [hpart, hkind]
  · simp [hpart, hkind]

/-- A name that ends as the names of markup files do. -/
def isMarkupName : FileName → Bool
  | .plain text => ".xml".toList.isSuffixOf text.toList
  | .raw name => (Text.bytesOf ".xml").isSuffixOf name.bytes.data.toList

/-- What follows the last mark of a list, which does not open with it, is what ends the list
behind a mark. -/
theorem Text.afterLast?_eq_some_iff {α : Type} [BEq α] [LawfulBEq α] {mark : α}
    {list : List α} (hopen : list.head? ≠ some mark) (ending : List α) :
    afterLast? mark list = some ending ↔ mark ∉ ending ∧ mark :: ending <:+ list := by
  have hsplit := List.takeWhile_append_dropWhile (p := (· != mark)) (l := list.reverse)
  have hmark := List.head?_dropWhile_not (· != mark) list.reverse
  have hlast : mark ∉ list.reverse.takeWhile (· != mark) := fun hmem => by
    simpa using List.all_eq_true.mp List.all_takeWhile _ hmem
  -- What stands before the first mark of the reversed list is told by the list.
  have hending (ending : List α) (hending : mark ∉ ending) (h : mark :: ending <:+ list) :
      list.reverse.takeWhile (· != mark) = ending.reverse ∧ mark ∈ list.reverse := by
    obtain ⟨opening, rfl⟩ := h
    have hall : ∀ letter ∈ ending.reverse, (letter != mark) = true := by
      intro letter hletter
      rw [bne_iff_ne]
      rintro rfl
      exact hending (List.mem_reverse.mp hletter)
    rw [List.reverse_append, List.reverse_cons, List.append_assoc,
      List.takeWhile_append_of_pos hall]
    simp
  rw [afterLast?, List.span_eq_takeWhile_dropWhile]
  generalize list.reverse.takeWhile (· != mark) = last at *
  cases hrest : list.reverse.dropWhile (· != mark) with
  | nil =>
      rw [hrest, List.append_nil] at hsplit
      refine iff_of_false (fun h => nomatch h) fun ⟨hnone, hsuffix⟩ => hlast ?_
      rw [hsplit]
      exact (hending ending hnone hsuffix).2
  | cons first rest =>
      rw [hrest] at hsplit hmark
      obtain rfl : first = mark := by simpa using hmark
      have hlist : list = rest.reverse ++ first :: last.reverse := by
        rw [← List.reverse_reverse list, ← hsplit]
        simp
      cases rest with
      | nil => exact absurd (by rw [hlist]; rfl) hopen
      | cons letter rest =>
          show some last.reverse = some ending ↔ _
          rw [Option.some.injEq]
          constructor
          · rintro rfl
            exact ⟨by simpa using hlast, _, hlist.symm⟩
          · rintro ⟨hnone, hsuffix⟩
            rw [(hending ending hnone hsuffix).1, List.reverse_reverse]

/-- Without a dot at its start, a name has the extension of markup if it ends with it. -/
theorem FilePath.extension?_eq_xml_iff {path : FilePath} {name : FileName}
    (hname : path.fileName? = some name) (hvisible : name.isHidden = false) :
    path.extension? = some (.plain "xml") ↔ isMarkupName name = true := by
  cases path with
  | plain path =>
      obtain ⟨text, htext, rfl⟩ := Option.map_eq_some_iff.mp hname
      have hopen : text.toList.head? ≠ some '.' := by simpa [FileName.isHidden] using hvisible
      have hxml := Text.afterLast?_eq_some_iff hopen "xml".toList
      rw [extension?, Path.extension?, htext, isMarkupName, List.isSuffixOf_iff_suffix]
      simp only [Option.bind_some, Option.map_map, Option.map_eq_some_iff, Function.comp_apply,
        FileName.plain.injEq]
      constructor
      · rintro ⟨ending, hending, hletters⟩
        have hletters : ending = "xml".toList := by rw [← hletters, String.toList_ofList]
        rw [hletters] at hending
        exact (hxml.mp hending).2
      · intro hsuffix
        exact ⟨_, hxml.mpr ⟨by decide, hsuffix⟩, by decide⟩
  | raw directory raw =>
      obtain rfl : FileName.raw raw = name := Option.some.inj hname
      have hopen : raw.bytes.data.toList.head? ≠ some 0x2e := by
        simpa [FileName.isHidden] using hvisible
      have hxml := Text.afterLast?_eq_some_iff hopen (Text.bytesOf "xml")
      have hending (ending : List UInt8) :
          FileName.ofBytes ending.toByteArray = .plain "xml" ↔ ending = Text.bytesOf "xml" := by
        rw [← FileName.bytes_inj, FileName.bytes_ofBytes, List.data_toByteArray]
        rfl
      rw [extension?, isMarkupName, List.isSuffixOf_iff_suffix, Option.map_eq_some_iff]
      simp only [hending, exists_eq_right, hxml]
      exact and_iff_right (by decide)

namespace FoundFile

/-- The file under a name in a directory of the resource directory with a path. -/
def under (resources : Path) : String × FileName × ByteArray → FoundFile
  | (directory, name, bytes) =>
      ⟨⟨.inside (resources.join ⟨directory⟩) name, .ofName directory⟩, bytes⟩

variable {tree : FileTree} {resources : Path} {base : Location} {directory : String}
  {name : FileName} {bytes : ByteArray}

/-- A file that a scan looks at stands in its directory. -/
theorem standsIn_under (hnamed : tree.Named)
    (hfile : (directory, name, bytes) ∈ tree.filesBelow base) :
    (under resources (directory, name, bytes)).StandsIn resources directory name := by
  obtain ⟨hentry, -, -, hvisible⟩ := FileTree.mem_filesBelow.mp hfile
  have hnames := hnamed (base ++ [.plain directory, name]) (by simp [hentry])
  exact ⟨rfl, rfl, hnames directory (by simp), hnames name (by simp), hvisible⟩

/-- It is markup if its name says so. -/
theorem isXml_of_standsIn {file : FoundFile} (h : file.StandsIn resources directory name) :
    file.isXml = isMarkupName name := by
  rw [ResourceFile.isXml, Bool.eq_iff_iff, beq_iff_eq,
    FilePath.extension?_eq_xml_iff h.fileName?_eq h.visible]

end FoundFile

/-- A file of a values directory counts if it is markup, and any other file does. -/
def isListed : String × FileName × ByteArray → Bool
  | (directory, name, _) => partBefore '-' directory != "values" || isMarkupName name

/-- A file counts, and no pattern of the settings leaves it out. -/
def Settings.lists (settings : Settings) : String × FileName × ByteArray → Bool
  | (directory, name, bytes) =>
      !settings.excludes ⟨directory ++ "/" ++ name.shown⟩ && isListed (directory, name, bytes)

/-- Found are the files that are listed, under the path of the resource directory. -/
theorem FileTree.foundFiles_eq_map {tree : FileTree} (hnamed : tree.Named) (settings : Settings)
    {resources : Path} (hresources : resources.text ≠ "") (base : Location) :
    tree.foundFiles settings resources base =
      ((tree.filesBelow base).filter settings.lists).map (FoundFile.under resources) := by
  rw [foundFiles_eq_filterMap, ← List.filterMap_eq_map, List.filterMap_filter]
  apply List.filterMap_congr
  rintro ⟨directory, name, bytes⟩ hfile
  have hstands : (FoundFile.under resources (directory, name, bytes)).StandsIn resources
      directory name :=
    FoundFile.standsIn_under hnamed hfile
  have hstrip : ((resources.join ⟨directory⟩).join ⟨name.shown⟩).stripPrefix? resources =
      some ⟨directory ++ "/" ++ name.shown⟩ :=
    Path.stripPrefix?_join hresources hstands.isName_directory.slash_notMem_shown
      hstands.isName.slash_notMem_shown hstands.isName_directory.isVoid_shown
      hstands.isName.isVoid_shown
  have hxml := FoundFile.isXml_of_standsIn hstands
  have hvalues := DirectoryKind.ofName_eq_values_iff directory
  rw [FoundFile.under] at hxml
  unfold Discovery.select?
  dsimp only
  rw [FilePath.shown_inside, hstrip, hxml, Option.getD_some]
  by_cases hexcluded : settings.excludes ⟨directory ++ "/" ++ name.shown⟩ = true
  · simp [Settings.lists, hexcluded]
  · rw [if_neg hexcluded]
    by_cases hleft : partBefore '-' directory = "values" ∧ isMarkupName name = false
    · simp [Settings.lists, isListed, hvalues, hleft]
    · have hlisted : settings.lists (directory, name, bytes) = true := by
        rw [Settings.lists, isListed]
        simpa [hexcluded, imp_iff_not_or] using hleft
      rw [hlisted, if_pos rfl, if_neg (by simpa [hvalues] using hleft)]
      rfl

end OverlayManifest
