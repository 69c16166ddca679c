/-
# What files declare

A file that a scan finds stands in a directory of the resource directory, where its path
leads. Unless it stands in a values directory or its name is no text it is a resource itself,
and if it has to be parsed it also declares what is read from its text.
-/

import OverlayManifest.Proofs.ScanContents
import OverlayManifest.Proofs.TreeNames

namespace OverlayManifest

/-- The part of a name before the first occurrence of a character. -/
def partBefore (mark : Char) (name : String) : String :=
  String.ofList (name.toList.takeWhile (· != mark))

/-- The part of its name before a dash says what a directory is for. -/
theorem DirectoryKind.ofName_cases (directory : String) :
    (partBefore '-' directory = "values" ∧ ofName directory = .values) ∨
      (partBefore '-' directory ≠ "values" ∧
        ofName directory = .files (partBefore '-' directory)) := by
  rw [ofName, partBefore]
  split
  · rename_i hvalues
    exact .inl ⟨hvalues, rfl⟩
  · rename_i hother
    exact .inr ⟨hother, rfl⟩

namespace FoundFile

/-- A scan looks into values files, and into other markup unless it is raw or its name is no
text. -/
def IsParsed (file : FoundFile) : Prop :=
  match file.kind with
  | .values => True
  | .files type => file.isXml = true ∧ type ≠ "raw" ∧ file.textName? ≠ none

/-- The resources that a text declares as the content of a file, if it has no fault. -/
def parse (file : FoundFile) (text : String) : Except Document.Fault (List Resource) :=
  match file.kind with
  | .values => Document.Values.read text
  | .files _ => Document.Ids.read text

/-- A file stands under a name in a directory of the resource directory. -/
structure StandsIn (file : FoundFile) (resources : Path) (directory : String) (name : FileName) :
    Prop where
  path_eq : file.path = .inside (resources.join ⟨directory⟩) name
  kind_eq : file.kind = .ofName directory
  isName_directory : FileTree.IsName directory
  isName : FileTree.IsName name
  visible : name.isHidden = false

/-- The resource that a file under a name in a directory is itself, if the name is a text. -/
def ownResources (directory : String) (name : FileName) : List Resource :=
  match DirectoryKind.ofName directory with
  | .values => []
  | .files type => (name.text?.map fun name => ⟨type, partBefore '.' name⟩).toList

variable {file : FoundFile} {resources : Path} {directory : String} {name : FileName}

theorem StandsIn.fileName?_eq (h : file.StandsIn resources directory name) :
    file.path.fileName? = some name := by
  have hbase : (resources.join ⟨directory⟩).text ≠ "" :=
    (Path.ends_join_name h.isName_directory.slash_notMem_shown
      h.isName_directory.shown_nonempty).1
  have hisName := h.isName
  rw [h.path_eq]
  cases name with
  | plain name =>
      have hfile : ((resources.join ⟨directory⟩).join ⟨name⟩).fileName? = some name :=
        Path.fileName?_join_name hbase hisName.slash_notMem_shown hisName.isVoid_shown
          hisName.shown_notDots
      rw [FilePath.inside, FilePath.fileName?, hfile, Option.map_some]
  | raw name => rfl

theorem StandsIn.textName?_eq (h : file.StandsIn resources directory name) :
    file.textName? = name.text? := by
  rw [ResourceFile.textName?, h.fileName?_eq, Option.bind_some]

/-- A file that stands in a directory has a resource name if its name is a text. -/
theorem StandsIn.resourceName?_eq (h : file.StandsIn resources directory name) :
    file.resourceName? = name.text?.map (partBefore '.') := by
  rw [ResourceFile.resourceName?, h.textName?_eq]
  cases name with
  | raw name => rfl
  | plain name =>
      have hopening : name.toList.takeWhile (· != '.') ≠ [] := by
        have hvisible := h.visible
        cases hname : name.toList with
        | nil => exact absurd (String.toList_inj.mp hname) h.isName.shown_nonempty
        | cons first rest =>
            have hfirst : first ≠ '.' := by
              rintro rfl
              simp [FileName.isHidden, hname] at hvisible
            simp [hfirst]
      rw [FileName.text?, Option.bind_some, Option.map_some, partBefore]
      split
      · rename_i hnone
        exact absurd hnone hopening
      · rfl

/-- A file that is not parsed declares what it is itself. -/
theorem declared_of_not_isParsed (h : file.StandsIn resources directory name)
    (hparsed : ¬ file.IsParsed) : file.declared = .ok (ownResources directory name) := by
  have hkind := h.kind_eq
  have hname := h.textName?_eq
  rw [IsParsed] at hparsed
  rw [FoundFile.declared, ownResources, ← hkind]
  cases hfile : file.kind with
  | values => simp [hfile] at hparsed
  | files type =>
      simp only [h.resourceName?_eq]
      cases htext : name.text? with
      | none => rfl
      | some text =>
          rw [htext] at hname
          have hplain : ¬ (file.isXml = true ∧ type ≠ "raw") := by
            simpa [hfile, hname] using hparsed
          simp only [Option.map_some, if_neg hplain]
          rfl

/-- A file that is parsed also declares what is read from its text. -/
theorem declared_of_isParsed (h : file.StandsIn resources directory name)
    (hparsed : file.IsParsed) :
    file.declared = (readDocument file.path file.readText file.parse).map
      (ownResources directory name ++ ·) := by
  have hkind := h.kind_eq
  have hname := h.textName?_eq
  have hparse : file.parse = fun text => file.parse text := rfl
  rw [IsParsed] at hparsed
  rw [FoundFile.declared, ownResources, ← hkind, hparse]
  unfold parse
  cases hfile : file.kind with
  | values =>
      cases readDocument file.path file.readText Document.Values.read <;> rfl
  | files type =>
      rw [hfile] at hparsed
      obtain ⟨hxml, hraw, htext⟩ := hparsed
      obtain ⟨text, htext⟩ := Option.ne_none_iff_exists'.mp htext
      rw [hname] at htext
      simp only [h.resourceName?_eq, htext, Option.map_some, if_pos (And.intro hxml hraw)]
      rfl

end FoundFile

namespace FileTree

/-- The text where the path of a file leads is read, and as its content declares
resources. -/
def Parses (tree : FileTree) (file : FoundFile) (found : List Resource) : Prop :=
  ∃ text, tree.readFile file.path = .ok text ∧ file.parse text = .ok found

/-- The text where the path of a file leads cannot be read or has a fault. -/
def FailsOn (tree : FileTree) (file : FoundFile) (failure : Failure) : Prop :=
  (∃ cause, tree.readFile file.path = .error cause ∧ failure = .read file.path cause) ∨
    ∃ text fault, tree.readFile file.path = .ok text ∧ file.parse text = .error fault ∧
      failure = .document file.path fault

/-- A file below a resource directory declares a resource: it is the resource itself, or
its text declares it. -/
inductive Declares (tree : FileTree) (resources : Path) (file : FoundFile)
    (resource : Resource) : Prop
  | itself {directory name : String} (hstands : file.StandsIn resources directory name)
      (hkind : file.kind ≠ .values)
      (hresource : resource = ⟨partBefore '-' directory, partBefore '.' name⟩)
  | inside {found : List Resource} (hparsed : file.IsParsed) (hfound : tree.Parses file found)
      (hresource : resource ∈ found)

section Found

variable {tree : FileTree} {file : FoundFile} {resources : Path} {directory : String}
  {name : FileName} {failure : Failure} {resource : Resource}

/-- A file that has to be parsed does not fail exactly if its text is parsed. -/
theorem exists_parses_iff :
    (∃ found, tree.Parses file found) ↔ ¬ ∃ failure, tree.FailsOn file failure := by
  unfold Parses FailsOn
  cases hread : tree.readFile file.path with
  | error cause => simp
  | ok text => cases hparse : file.parse text <;> simp [hparse]

/-- What a file declares is its own resource, and what its text declares if it is parsed. -/
theorem declared_eq_ok_iff (hstands : file.StandsIn resources directory name)
    (htext : tree.readFile file.path = file.readText) {declared : List Resource} :
    file.declared = .ok declared ↔
      (¬ file.IsParsed ∧ declared = FoundFile.ownResources directory name) ∨
        (file.IsParsed ∧ ∃ found, tree.Parses file found ∧
          declared = FoundFile.ownResources directory name ++ found) := by
  by_cases hparsed : file.IsParsed
  · have hdocument (found : List Resource) :
        readDocument file.path file.readText file.parse = .ok found ↔ tree.Parses file found := by
      rw [readDocument_eq_ok_iff, Parses, htext]
    rw [FoundFile.declared_of_isParsed hstands hparsed]
    simp only [hparsed, not_true_eq_false, false_and, true_and, false_or, ← hdocument]
    cases readDocument file.path file.readText file.parse with
    | error failure => simp [Except.map]
    | ok found => simp [Except.map, eq_comm]
  · rw [FoundFile.declared_of_not_isParsed hstands hparsed]
    simp [hparsed, eq_comm]

/-- A file fails if it has to be parsed and its text fails. -/
theorem declared_eq_error_iff (hstands : file.StandsIn resources directory name)
    (htext : tree.readFile file.path = file.readText) :
    file.declared = .error failure ↔ file.IsParsed ∧ tree.FailsOn file failure := by
  by_cases hparsed : file.IsParsed
  · have hdocument : readDocument file.path file.readText file.parse = .error failure ↔
        tree.FailsOn file failure := by
      rw [readDocument_eq_error_iff, FailsOn, htext]
    rw [FoundFile.declared_of_isParsed hstands hparsed, ← hdocument]
    cases readDocument file.path file.readText file.parse with
    | error cause => simp [Except.map, hparsed]
    | ok found => simp [Except.map]
  · rw [FoundFile.declared_of_not_isParsed hstands hparsed]
    simp [hparsed]

/-- A file can be read if its text is parsed or does not have to be. -/
theorem exists_declared_iff (hstands : file.StandsIn resources directory name)
    (htext : tree.readFile file.path = file.readText) :
    (∃ declared, file.declared = .ok declared) ↔
      (file.IsParsed → ∃ found, tree.Parses file found) := by
  simp only [declared_eq_ok_iff hstands htext]
  by_cases hparsed : file.IsParsed
  · simp only [hparsed, not_true_eq_false, false_and, true_and, false_or, forall_const]
    constructor
    · rintro ⟨-, found, hfound, -⟩
      exact ⟨found, hfound⟩
    · rintro ⟨found, hfound⟩
      exact ⟨_, found, hfound, rfl⟩
  · simp [hparsed]

/-- A file that stands in a directory under a text is the resource of both names, unless the
directory is one for values. -/
theorem mem_ownResources_iff (hstands : file.StandsIn resources directory name) :
    resource ∈ FoundFile.ownResources directory name ↔
      file.kind ≠ .values ∧ ∃ text, name = .plain text ∧
        resource = ⟨partBefore '-' directory, partBefore '.' text⟩ := by
  rw [FoundFile.ownResources, hstands.kind_eq]
  rcases DirectoryKind.ofName_cases directory with ⟨-, hvalues⟩ | ⟨-, hfiles⟩
  · simp [hvalues]
  · cases name <;> simp [hfiles, FileName.text?]

/-- What a file declares that can be read. -/
theorem mem_declared_iff (hstands : file.StandsIn resources directory name)
    (htext : tree.readFile file.path = file.readText) {declared : List Resource}
    (h : file.declared = .ok declared) :
    resource ∈ declared ↔ tree.Declares resources file resource := by
  have hitself (hown : resource ∈ FoundFile.ownResources directory name) :
      tree.Declares resources file resource := by
    obtain ⟨hkind, text, rfl, hresource⟩ := (mem_ownResources_iff hstands).mp hown
    exact .itself hstands hkind hresource
  constructor
  · intro hresource
    rcases (declared_eq_ok_iff hstands htext).mp h with
      ⟨-, rfl⟩ | ⟨hparsed, found, hfound, rfl⟩
    · exact hitself hresource
    · rcases List.mem_append.mp hresource with hown | hinside
      · exact hitself hown
      · exact .inside hparsed hfound hinside
  · intro hdeclares
    cases hdeclares with
    | itself hstands' hkind hresource =>
        have hown := (mem_ownResources_iff hstands').mpr ⟨hkind, _, rfl, hresource⟩
        rcases (declared_eq_ok_iff hstands' htext).mp h with ⟨-, rfl⟩ | ⟨-, found, -, rfl⟩
        · exact hown
        · exact List.mem_append_left found hown
    | inside hparsed hfound hresource =>
        rcases (declared_eq_ok_iff hstands htext).mp h with
          ⟨hnot, -⟩ | ⟨-, found', ⟨text, hread, hparse⟩, rfl⟩
        · exact absurd hparsed hnot
        · obtain ⟨text', hread', hparse'⟩ := hfound
          rw [hread, Except.ok.injEq] at hread'
          rw [← hread', hparse, Except.ok.injEq] at hparse'
          rw [hparse']
          exact List.mem_append_right _ hresource

end Found

end FileTree

/-- Every file that is found stands in a directory, and its path leads to what it holds. -/
theorem Discovery.standsIn_of_find {tree : FileTree} (hnamed : tree.Named) {settings : Settings}
    {resources : Path} {files : List FoundFile} (hfind : find tree settings resources = .ok files)
    {file : FoundFile} (hfile : file ∈ files) :
    ∃ directory name, file.StandsIn resources directory name ∧
      tree.readFile file.path = file.readText := by
  obtain ⟨base, hbase, hdirectory, hlisted, rfl⟩ := find_eq_ok_iff.mp hfind
  obtain ⟨location, hfound⟩ := (tree.mem_foundFiles settings resources base).mp hfile
  simp only [FileTree.foundAt?, Option.bind_eq_some_iff, Prod.exists,
    FileTree.resourceFileAt?_eq_some_iff] at hfound
  obtain ⟨entry, hentry, directory, name, bytes, ⟨rfl, rfl, habove, hvisible, hvisible'⟩,
    hselect⟩ := hfound
  obtain ⟨rfl, -, -⟩ := select?_eq_some_iff.mp hselect
  have hnames := hnamed (base ++ [.plain directory, name]) (by simp [hentry])
  have hisDirectory : FileTree.IsName directory := hnames directory (by simp)
  have hisName : FileTree.IsName name := hnames name (by simp)
  refine ⟨directory, name, ⟨rfl, rfl, hisDirectory, hisName, hvisible'⟩, ?_⟩
  rw [FoundFile.readText]
  dsimp only
  cases hfault : FileTree.fileFault? (.inside (resources.join ⟨directory⟩) name) with
  | some fault => rw [FileTree.readFile, FileTree.locateFile_of_fault hfault]
  | none =>
      have hbelow : tree.locate (resources.join ⟨directory⟩) = .ok (base ++ [.plain directory]) :=
        FileTree.locateFile_inside hbase hdirectory hisDirectory
          (hlisted directory habove hvisible) (by simp [habove])
      have hplace : tree.lookup? (base ++ [.plain directory] ++ [name]) = some (.file bytes) := by
        rw [List.append_assoc]
        exact hentry
      have hlink (target : Target) :
          tree.lookup? (base ++ [.plain directory] ++ [name]) ≠ some (.link target) := by
        rw [hplace]
        simp
      rw [FileTree.readFile, FileTree.locateFile_inside hbelow habove hisName hfault hlink]
      simp only [hplace]

end OverlayManifest
