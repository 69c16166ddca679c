/-
# Names in trees

Whatever changes make from nothing is reached by names that a path can spell: they are
not empty, hold no slashes and are no dots. So what stands in a directory is where the
path of the directory leads with its name joined.
-/

import OverlayManifest.Proofs.Destinations
import OverlayManifest.Proofs.PathsBelow
import OverlayManifest.Proofs.TreeGrowth

namespace OverlayManifest.FileTree

/-- A name under which something can stand in a directory. -/
structure IsName (name : FileName) : Prop where
  nonempty : name ≠ ""
  notDot : name ≠ "."
  notDots : name ≠ ".."
  noSlash : ¬ name.HasSlash
  short : name.size ≤ nameLimit

namespace IsName

variable {name : FileName}

/-- A name that is no text is shown as none that would be one without a replacement. -/
theorem shown_ne (h : IsName name) {text : String} (hplain : Text.replacement ∉ text.toList)
    (hname : name ≠ text) : name.shown ≠ text := by
  rintro rfl
  cases name with
  | plain name => exact hname rfl
  | raw name => exact hplain name.replacement_mem_shown

theorem shown_nonempty (h : IsName name) : name.shown ≠ "" := h.shown_ne (by decide) h.nonempty

theorem shown_notDots (h : IsName name) : name.shown ≠ ".." := h.shown_ne (by decide) h.notDots

theorem slash_notMem_shown (h : IsName name) : '/' ∉ name.shown.toList := by
  cases name with
  | plain name => exact h.noSlash
  | raw name =>
      intro hslash
      rw [FileName.shown, RawName.shown, String.toList_ofList] at hslash
      exact h.noSlash (Text.slash_mem_of_mem_lossy hslash)

/-- A name stands for something. -/
theorem isVoid_shown (h : IsName name) : Path.isVoid name.shown.toList = false := by
  have hvoid : ¬ isVoidName name.shown = true := by
    rw [isVoidName_iff, not_or, FileName.plain.injEq, FileName.plain.injEq]
    exact ⟨h.shown_nonempty, h.shown_ne (by decide) h.notDot⟩
  rwa [← isVoidName_ofStep, FileName.ofStep, String.ofList_toList, Bool.eq_false_iff]

end IsName

/-- Whatever stands somewhere is reached by names. -/
def Named (tree : FileTree) : Prop :=
  ∀ location, tree.lookup? location ≠ none → ∀ name ∈ location, IsName name

/-- The names of a path hold no slashes. -/
theorem not_hasSlash_of_mem_namesOf {path : Path} {name : FileName} (h : name ∈ namesOf path) :
    ¬ name.HasSlash := (Target.ofPath path).noSlash name h

/-- Steps that are taken end where names lead. -/
theorem Leads.named {tree : FileTree} (hnamed : tree.Named) {writing : Bool} {links : Nat}
    {here location : Location} {names : List FileName}
    (h : tree.Leads writing links here names location)
    (hslashes : ∀ name ∈ names, ¬ name.HasSlash) :
    (names = [] ∧ location = here) ∨ ∀ name ∈ location, IsName name := by
  induction h with
  | arrived => exact .inl ⟨rfl, rfl⟩
  | @stay _ here _ _ _ hhere _ _ ih =>
      rcases ih fun name hname => hslashes name (by simp [hname]) with ⟨-, rfl⟩ | hlocation
      · exact .inr (hnamed _ (by simp [hhere]))
      · exact .inr hlocation
  | @up _ here _ _ hhere _ ih =>
      rcases ih fun name hname => hslashes name (by simp [hname]) with ⟨-, rfl⟩ | hlocation
      · refine .inr fun name hname => hnamed here (by simp [hhere]) name ?_
        exact List.dropLast_subset here hname
      · exact .inr hlocation
  | @link _ here _ rest _ target hhere _ _ _ _ _ _ ih =>
      have hfollowed : ∀ name ∈ target.names ++ rest, ¬ name.HasSlash := by
        intro name hname
        rcases List.mem_append.mp hname with htarget | hrest
        · exact target.noSlash name htarget
        · exact hslashes name (by simp [hrest])
      rcases ih hfollowed with ⟨hnil, -⟩ | hlocation
      · exact absurd (List.append_eq_nil_iff.mp hnil).1 target.nonempty
      · exact .inr hlocation
  | @down _ here name _ _ hhere hsolid hup _ hsize _ _ ih =>
      rcases ih fun name hname => hslashes name (by simp [hname]) with ⟨-, rfl⟩ | hlocation
      · refine .inr fun other hother => ?_
        rw [not_or] at hsolid
        rcases List.mem_append.mp hother with habove | hlast
        · exact hnamed here (by simp [hhere]) other habove
        · rw [List.mem_singleton.mp hlast]
          exact ⟨hsolid.1, hsolid.2, hup, hslashes name (by simp), Nat.le_of_not_lt hsize⟩
      · exact .inr hlocation

/-! ## Changes -/

namespace Named

variable {tree after : FileTree}

/-- An entry that is set at a location made of names is reached by names. -/
theorem set (hnamed : tree.Named) {location : Location}
    (hlocation : ∀ name ∈ location, IsName name) (entry : Entry) :
    (tree.set location entry).Named := by
  intro other hother
  by_cases hroot : other = []
  · simp [hroot]
  · rw [lookup?_set _ _ _ _ hroot] at hother
    split at hother
    · rename_i hsame
      rwa [← hsame]
    · exact hnamed other hother

theorem create (hnamed : tree.Named) {path : Path} {entry : Entry}
    (h : tree.create path entry = .ok after) : after.Named := by
  obtain ⟨location, hplace, -, rfl⟩ := create_eq_ok h
  obtain ⟨parent, name, above, slashes, rfl, hpath, -, -, hparent, hnonempty, hdots, hsize⟩ :=
    namesOf_of_place hplace
  have hname : IsName name := by
    rw [not_or] at hdots
    have hmem : name ∈ namesOf path := by simp [hpath]
    exact ⟨hnonempty, hdots.1, hdots.2, not_hasSlash_of_mem_namesOf hmem, Nat.le_of_not_lt hsize⟩
  apply hnamed.set
  intro other hother
  rcases List.mem_append.mp hother with habove | hlast
  · exact hnamed parent (by simp [hparent]) other habove
  · rwa [List.mem_singleton.mp hlast]

theorem makeDirectories (hnamed : tree.Named) (path : Path) :
    (tree.makeDirectories path).2.Named :=
  makeAncestors_induction Named (fun _ _ htree hmade => htree.create hmade) hnamed

theorem makeLink (hnamed : tree.Named) {path target : Path}
    (h : tree.makeLink path target = .ok after) : after.Named := by
  unfold FileTree.makeLink at h
  split at h
  · cases h
  · cases h
  · rename_i hmade
    split at h
    · cases h
    · cases h
      exact hnamed.create hmade

theorem remove (hnamed : tree.Named) {path : Path} (h : tree.remove path = .ok after) :
    after.Named := by
  obtain ⟨location, hleft⟩ := lookup?_of_remove h
  intro other hother
  by_cases hroot : other = []
  · simp [hroot]
  · rw [hleft other hroot] at hother
    split at hother
    · exact absurd rfl hother
    · exact hnamed other hother

theorem writeFile (hnamed : tree.Named) {path : Path} {bytes : ByteArray}
    (h : tree.writeFile path bytes = .ok after) : after.Named := by
  obtain ⟨location, hlocation, -, rfl⟩ := writeFile_eq_ok_iff.mp h
  have hleads := (locateToWrite_eq_ok_iff.mp hlocation).2
  rcases hleads.named hnamed fun name => not_hasSlash_of_mem_namesOf with ⟨hnil, -⟩ | hnames
  · exact absurd hnil (by simp [namesOf])
  · exact hnamed.set hnames _

/-- Every change keeps a tree named. -/
theorem change (hnamed : tree.Named) (h : Change tree after) : after.Named := by
  cases h with
  | directories path => exact hnamed.makeDirectories path
  | file hwritten => exact hnamed.writeFile hwritten
  | link hmade => exact hnamed.makeLink hmade
  | removal hremoved => exact hnamed.remove hremoved

end Named

/-- Whatever changes make from nothing is reached by names. -/
theorem Built.named {tree : FileTree} (h : Built tree) : tree.Named := by
  induction h with
  | nothing workingDirectory =>
      intro location hlocation
      by_cases hroot : location = []
      · simp [hroot]
      · exact absurd (by simp [lookup?, hroot]) hlocation
  | change _ hchange ih => exact ih.change hchange

instance (name : FileName) : Decidable (IsName name) :=
  decidable_of_iff (name ≠ "" ∧ name ≠ "." ∧ name ≠ ".." ∧ ¬ name.HasSlash ∧
      name.size ≤ nameLimit)
    ⟨fun ⟨hnonempty, hdot, hdots, hslash, hsize⟩ => ⟨hnonempty, hdot, hdots, hslash, hsize⟩,
      fun h => ⟨h.nonempty, h.notDot, h.notDots, h.noSlash, h.short⟩⟩

theorem named_iff {tree : FileTree} :
    tree.Named ↔ ∀ location entry, tree.lookup? location = some entry →
      ∀ name ∈ location, IsName name := by
  constructor
  · intro hnamed location entry hlookup
    exact hnamed location (by simp [hlookup])
  · intro h location hlocation
    obtain ⟨entry, hentry⟩ := Option.ne_none_iff_exists'.mp hlocation
    exact h location entry hentry

instance (tree : FileTree) : Decidable tree.Named :=
  decidable_of_iff _ (named_iff.trans (forall_lookup?_iff (by simp))).symm

/-! ## Joined names -/

/-- The names before those that are joined lead where the path does. -/
theorem leads_namesBefore {tree : FileTree} {path : Path} {location : Location}
    (h : tree.locate path = .ok location) :
    tree.Leads false linkLimit (startOf tree.workingDirectory path) (namesBefore path)
      location := by
  obtain ⟨hfault, hleads⟩ := locate_eq_ok_iff.mp h
  rw [namesBefore, Path.stepsBefore]
  split
  · rename_i hempty
    rw [textFault?, if_pos hempty] at hfault
    cases hfault
  · split
    · rename_i hslash
      obtain ⟨text, htext⟩ := List.getLast?_eq_some_iff.mp hslash
      have hnames : namesOf path =
          (path.text.toList.dropLast.splitOn '/').map .ofStep ++ [.plain ""] := by
        rw [namesOf, htext, List.dropLast_concat, List.splitOn_append_cons_self, List.splitOn_nil,
          List.map_append]
        rfl
      obtain ⟨left, middle, hfirst, hlast⟩ := hleads.split hnames
      have hmiddle := hlast.unique (.slashes hlast.directory_of_cons (by simp))
      rwa [hmiddle] at hfirst
    · exact hleads

/-- The location that the path of a file leads to. -/
def locateFile (tree : FileTree) : FilePath → Except Fault Location
  | .plain path => tree.locate path
  | .raw directory name =>
      match fileFault? (.raw directory name) with
      | some fault => .error fault
      | none =>
          tree.follow false linkLimit (startOf tree.workingDirectory directory)
            (namesBefore directory ++ [.raw name])

/-- The text of the file that its path leads to. -/
def readFile (tree : FileTree) (path : FilePath) : Except Fault String :=
  match tree.locateFile path with
  | .error fault => .error fault
  | .ok location =>
      match tree.lookup? location with
      | none => .error .notFound
      | some (.file bytes) => textOf bytes
      | some _ => .error .isDirectory

/-- On a path that is given, a file is read as the program does. -/
theorem readFile_plain (tree : FileTree) (path : Path) :
    tree.readFile (.plain path) = tree.readText path := by
  rw [readFile, locateFile, readText, readBytes, find?]
  cases tree.locate path with
  | error fault => rfl
  | ok location =>
      cases hentry : tree.lookup? location with
      | none => simp only [hentry]
      | some entry => cases entry <;> simp only [hentry]

/-- A path that cannot be used leads nowhere. -/
theorem locateFile_of_fault {tree : FileTree} {path : FilePath} {fault : Fault}
    (h : fileFault? path = some fault) : tree.locateFile path = .error fault := by
  cases path with
  | plain path =>
      rw [fileFault?] at h
      simp only [locateFile, locate, h]
  | raw directory name => simp only [locateFile, h]

/-- A name that is joined to the path of a directory leads to what stands there under it,
unless that is a link. -/
theorem locateFile_inside {tree : FileTree} {path : Path} {location : Location} {name : FileName}
    (h : tree.locate path = .ok location) (hdirectory : tree.lookup? location = some .directory)
    (hname : IsName name) (hfault : fileFault? (.inside path name) = none)
    (hlink : ∀ target, tree.lookup? (location ++ [name]) ≠ some (.link target)) :
    tree.locateFile (.inside path name) = .ok (location ++ [name]) := by
  have hleads : tree.Leads false linkLimit (startOf tree.workingDirectory path)
      (namesBefore path ++ [name]) (location ++ [name]) := by
    refine (leads_namesBefore h).append fun left => ?_
    refine .down hdirectory ?_ hname.notDots Bool.false_ne_true (Nat.not_lt.mpr hname.short) hlink
      .arrived
    rw [not_or]
    exact ⟨hname.nonempty, hname.notDot⟩
  cases name with
  | plain name =>
      have hrelative : (⟨name⟩ : Path).isAbsolute = false := Path.isAbsolute_of_notMem hname.noSlash
      have hnames : namesOf ⟨name⟩ = [.plain name] := by
        rw [namesOf, List.splitOn_eq_singleton hname.noSlash, List.map_singleton, FileName.ofStep,
          String.ofList_toList]
      show tree.locate (path.join ⟨name⟩) = _
      rw [locate_eq_ok_iff, startOf_join hrelative, namesOf_join hrelative, hnames]
      exact ⟨hfault, hleads⟩
  | raw name =>
      rw [FilePath.inside] at hfault ⊢
      simp only [locateFile, hfault]
      exact follow_eq_ok_iff.mpr hleads

end OverlayManifest.FileTree
