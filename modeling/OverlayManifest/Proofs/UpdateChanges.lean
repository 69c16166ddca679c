/-
# What updates change

An update reads before it writes. Where it cannot read it leaves its tree as it is, where
it cannot write it may have made directories along the path of the manifest, and where it
succeeds it has written the manifest besides.
-/

import OverlayManifest.Proofs.DriftDetection
import OverlayManifest.Proofs.ScanUnion

namespace OverlayManifest

/-! ## Failures to read -/

/-- A run could not write what it had to. -/
def Failure.isWrite : Failure → Bool
  | .write _ _ => true
  | _ => false

/-- A document that cannot be read is none that cannot be written. -/
theorem isWrite_of_readDocument {path : FilePath} {text : Except FileTree.Fault String}
    {read : String → Except Document.Fault (List Resource)} {failure : Failure}
    (h : readDocument path text read = .error failure) : failure.isWrite = false := by
  rcases readDocument_eq_error_iff.mp h with ⟨cause, -, rfl⟩ | ⟨content, fault, -, -, rfl⟩
  · rfl
  · rfl

/-- The same holds whatever would be made of the document. -/
theorem isWrite_of_map {path : FilePath} {text : Except FileTree.Fault String}
    {read : String → Except Document.Fault (List Resource)} {α : Type} {make : List Resource → α}
    {failure : Failure} (h : (readDocument path text read).map make = .error failure) :
    failure.isWrite = false := by
  cases hread : readDocument path text read with
  | ok found =>
      rw [hread] at h
      cases h
  | error cause =>
      rw [hread] at h
      cases h
      exact isWrite_of_readDocument hread

theorem isWrite_of_declared {file : FoundFile} {failure : Failure}
    (h : file.declared = .error failure) : failure.isWrite = false := by
  unfold FoundFile.declared at h
  split at h
  · exact isWrite_of_readDocument h
  · split at h
    · cases h
    · split at h
      · exact isWrite_of_map h
      · cases h

theorem isWrite_of_find {tree : FileTree} {settings : Settings} {resources : Path}
    {failure : Failure} (h : Discovery.find tree settings resources = .error failure) :
    failure.isWrite = false := by
  unfold Discovery.find at h
  split at h
  · cases h
    rfl
  · split at h
    · cases h
      rfl
    · split at h
      · cases h
        rfl
      · cases h

theorem isWrite_of_collect {tree : FileTree} {settings : Settings} {resources : Path}
    {failure : Failure} (h : Scan.collect tree settings resources = .error failure) :
    failure.isWrite = false := by
  unfold Scan.collect at h
  split at h
  · rename_i hfind
    cases h
    exact isWrite_of_find hfind
  · obtain ⟨file, -, hfile⟩ := Scan.foldlM_addFile_eq_error_iff.mp h
    exact isWrite_of_declared hfile

theorem isWrite_of_loadExclusions {tree : FileTree} {path : Path} {failure : Failure}
    (h : ResourceSet.loadExclusions tree path = .error failure) : failure.isWrite = false := by
  unfold ResourceSet.loadExclusions ResourceSet.load at h
  split at h
  · exact isWrite_of_map h
  · cases h

/-- What an update reads it does not write. -/
theorem isWrite_of_plan {tree : FileTree} {settings : Settings} {root : Path}
    {failure : Failure} (h : Update.plan tree settings root = .error failure) :
    failure.isWrite = false := by
  unfold Update.plan at h
  cases hscan : Scan.collect tree settings (settings.resourcesAt root) with
  | error cause =>
      rw [hscan] at h
      cases h
      exact isWrite_of_collect hscan
  | ok scan =>
      rw [hscan] at h
      cases hexcluded : ResourceSet.loadExclusions tree (settings.exclusionsAt root) with
      | error cause =>
          simp only [hexcluded, bind, Except.bind] at h
          cases h
          exact isWrite_of_loadExclusions hexcluded
      | ok excluded =>
          simp only [hexcluded, bind, Except.bind] at h
          cases h

/-! ## Directories along a path -/

namespace FileTree

/-- A directory was made where nothing was and where a path above the given one leads. -/
def MadeAlong (tree after : FileTree) (path : Path) (location : Location) : Prop :=
  tree.lookup? location = none ∧ after.lookup? location = some .directory ∧
    ∃ parent ancestor, path.parent? = some parent ∧ ancestor ∈ parent.ancestors ∧
      after.locate ancestor = .ok location

/-- The tree once the directories above a path were made, as far as they could be. -/
def withParent (tree : FileTree) (path : Path) : FileTree :=
  ((path.parent?.map tree.makeDirectories).getD (.ok (), tree)).2

theorem withParent_grows (tree : FileTree) (path : Path) : Grows tree (tree.withParent path) := by
  unfold withParent
  cases path.parent? with
  | none => exact .refl tree
  | some parent => exact tree.makeDirectories_grows parent

/-- Making the directories above a path makes directories along it, and nothing else. -/
theorem madeAlong_withParent (tree : FileTree) (path : Path) (location : Location) :
    (tree.withParent path).lookup? location = tree.lookup? location ∨
      MadeAlong tree (tree.withParent path) path location := by
  rcases (withParent_grows tree path).lookup?_cases location with
    hsame | ⟨hnone, hmade⟩
  · exact .inl hsame
  · refine .inr ⟨hnone, hmade, ?_⟩
    have hchanged : (tree.withParent path).lookup? location ≠ tree.lookup? location := by
      rw [hnone, hmade]
      simp
    unfold withParent at hchanged ⊢
    cases hparent : path.parent? with
    | none =>
        rw [hparent] at hchanged
        exact absurd rfl hchanged
    | some parent =>
        rw [hparent] at hchanged
        obtain ⟨ancestor, hancestor, hlocate⟩ := locate_of_makeDirectories hchanged
        exact ⟨parent, ancestor, rfl, hancestor, hlocate⟩

/-- Where nothing was, no file is below once directories were made. -/
theorem Grows.lookup?_below {tree after : FileTree} (hgrows : Grows tree after)
    (hclosed : tree.Closed) {location : Location} (hnone : tree.lookup? location = none)
    (below : Location) (bytes : ByteArray) : after.lookup? (location ++ below) ≠ some (.file bytes) := by
  intro hfile
  rw [hgrows.file_iff] at hfile
  by_cases hbelow : below = []
  · rw [hbelow, List.append_nil, hnone] at hfile
    cases hfile
  · have hdirectory := hclosed.above hbelow (by rw [hfile]; simp)
    rw [hnone] at hdirectory
    cases hdirectory

end FileTree

namespace Update

open FileTree

variable {tree after : FileTree} {settings : Settings} {root : Path} {year : Int}

/-- A document that is not written may leave directories along its path. -/
theorem writeDocument_eq_error {path : Path} {text : String} {failure : Failure}
    (h : writeDocument tree path text = (.error failure, after)) :
    (∃ cause, failure = .write path cause) ∧ after = tree.withParent path := by
  unfold writeDocument at h
  unfold withParent
  split at h
  · rename_i hmade
    cases h
    exact ⟨⟨_, rfl⟩, by rw [hmade]⟩
  · rename_i hmade
    split at h
    · cases h
      exact ⟨⟨_, rfl⟩, by rw [hmade]⟩
    · cases h

/-- A document that is written replaces a file or nothing; besides only directories along
its path are made, up to its parent. -/
theorem writeDocument_changes (hclosed : tree.Closed) {path : Path} {text : String}
    (h : writeDocument tree path text = (.ok (), after)) :
    ∃ place, after.locate path = .ok place ∧ Rewrites tree after place text.toUTF8 ∧
      (∀ location, location ≠ place → after.lookup? location = tree.lookup? location ∨
        MadeAlong tree after path location) ∧
      ∀ parent, path.parent? = some parent →
        parent.text = "" ∨ after.hasDirectory parent = true := by
  obtain ⟨grown, hgrown, hwritten⟩ := writeDocument_eq_ok h
  obtain ⟨hgrownClosed, hgrows⟩ := grows_above hclosed hgrown
  obtain ⟨place, -, hplace, hrewrites, helsewhere⟩ :=
    rewrites_of_writeFile hgrownClosed hwritten
  refine ⟨place, hplace, hgrows.rewrites hrewrites, fun location hother => ?_,
    fun parent hparent => ?_⟩
  · rw [MadeAlong, helsewhere location hother]
    have hparents : tree.withParent path = grown := congrArg Prod.snd hgrown
    rcases madeAlong_withParent tree path location with
      hsame | ⟨hnone, hmade, parent, ancestor, hparent, hancestor, hlocate⟩
    · rw [hparents] at hsame
      exact .inl hsame
    · rw [hparents] at hmade hlocate
      exact .inr ⟨hnone, hmade, parent, ancestor, hparent, hancestor,
        locate_of_keeps hrewrites.keeps hlocate⟩
  · rw [hparent] at hgrown
    rcases hasDirectory_of_makeDirectories hgrown with hempty | hdirectory
    · exact .inl hempty
    · exact .inr (hasDirectory_of_keeps hrewrites.keeps hdirectory)

/-- An update that succeeds changes what the path of the manifest leads to, and makes the
directories that are missing along that path. One that fails to read changes nothing, and
one that fails to write makes directories at most, without files below them. -/
theorem changes_of_run (hclosed : tree.Closed) (settings : Settings) (root : Path) (year : Int) :
    (∀ update after, run tree settings root year = (.ok update, after) →
      after.workingDirectory = tree.workingDirectory ∧
      (∀ parent, (settings.manifestAt root).parent? = some parent →
        parent.text = "" ∨ after.hasDirectory parent = true) ∧
      ∃ place, after.locate (settings.manifestAt root) = .ok place ∧
        after.lookup? place = some (.file (update.manifest settings year).render.toUTF8) ∧
        (tree.lookup? place = none ∨ ∃ old, tree.lookup? place = some (.file old)) ∧
        ∀ location, location ≠ place → after.lookup? location = tree.lookup? location ∨
          MadeAlong tree after (settings.manifestAt root) location) ∧
    ∀ failure after, run tree settings root year = (.error failure, after) →
      (failure.isWrite = false → after = tree) ∧
      (failure.isWrite = true →
        after.workingDirectory = tree.workingDirectory ∧
        (∃ cause, failure = .write (settings.manifestAt root) cause) ∧
        ∀ location, after.lookup? location = tree.lookup? location ∨
          (MadeAlong tree after (settings.manifestAt root) location ∧
            ∀ below bytes, after.lookup? (location ++ below) ≠ some (.file bytes))) := by
  constructor
  · intro update after hrun
    obtain ⟨place, hplace, hrewrites, helsewhere, hparent⟩ :=
      writeDocument_changes hclosed (run_eq_ok_iff.mp hrun).2
    exact ⟨hrewrites.workingDirectory_eq, hparent, place, hplace, hrewrites.written,
      hrewrites.replaced, helsewhere⟩
  · intro failure after hrun
    unfold run at hrun
    split at hrun
    · rename_i hplan
      cases hrun
      have hread := isWrite_of_plan hplan
      exact ⟨fun _ => rfl, fun hwrite => by simp [hread] at hwrite⟩
    · split at hrun
      · rename_i hwritten
        cases hrun
        obtain ⟨⟨cause, rfl⟩, rfl⟩ := writeDocument_eq_error hwritten
        refine ⟨fun hread => by simp [Failure.isWrite] at hread, fun _ =>
          ⟨(withParent_grows tree _).workingDirectory_eq, ⟨cause, rfl⟩, fun location => ?_⟩⟩
        rcases madeAlong_withParent tree (settings.manifestAt root) location with
          hsame | hmade
        · exact .inl hsame
        · exact .inr ⟨hmade, (withParent_grows tree _).lookup?_below hclosed hmade.1⟩
      · cases hrun

/-- Settings for a manifest that cannot be written, since its path ends with a slash. -/
def manifestWithSlash : Settings := { manifest := ⟨"new/m.xml/"⟩ }

/-- A directory is made for the manifest, which then cannot be written. -/
theorem run_manifestWithSlash :
    run (.rawProject "a") manifestWithSlash ⟨""⟩ 2024 =
      (.error (.write ⟨"new/m.xml/"⟩ .isDirectory),
        (FileTree.rawProject "a").set ["new"] .directory) := by
  have hplan : ∃ update, plan (.rawProject "a") manifestWithSlash ⟨""⟩ = .ok update := by
    obtain ⟨update, hrun, -⟩ := Check.run_rawProject
    exact ⟨update, (run_eq_ok_iff.mp hrun).1⟩
  have hplace : (FileTree.rawProject "a").place ⟨"new"⟩ = .ok ["new"] :=
    place_eq_ok_iff.mpr ⟨by decide, [], "new", [], rfl, rfl, by decide,
      by decide, by decide, .arrived⟩
  have hmade : (FileTree.rawProject "a").makeDirectories ⟨"new"⟩ =
      (.ok (), (FileTree.rawProject "a").set ["new"] .directory) := by
    have hcreated : (FileTree.rawProject "a").makeDirectory ⟨"new"⟩ =
        .ok ((FileTree.rawProject "a").set ["new"] .directory) := by
      rw [makeDirectory, create, hplace]
      rfl
    rw [makeDirectories, Path.ancestors, makeAncestors, if_neg (by decide), ensureDirectory,
      hcreated]
  have hfree : ((FileTree.rawProject "a").set ["new"] .directory).LinkFree := by decide
  have hwritten (bytes : ByteArray) :
      ((FileTree.rawProject "a").set ["new"] .directory).writeFile ⟨"new/m.xml/"⟩ bytes =
        .error .isDirectory := by
    rw [writeFile, locateToWrite_eq_walk hfree (by decide)]
    rfl
  have hparent : (⟨"new/m.xml/"⟩ : Path).parent? = some ⟨"new"⟩ := by decide
  obtain ⟨update, hplan⟩ := hplan
  have hmanifest : manifestWithSlash.manifestAt ⟨""⟩ = ⟨"new/m.xml/"⟩ := by decide
  unfold run
  rw [hplan, hmanifest]
  simp only [writeDocument, hparent, Option.map_some, Option.getD_some, hmade, hwritten]

/-- An update of a project with one raw resource writes its manifest. If that cannot be
written, a directory may have been made. -/
theorem changes_of_run_rawProject :
    (∃ update place, run (.rawProject "a") Check.besideResources ⟨""⟩ 2024 =
        (.ok update, Check.rawProjectBeside "a") ∧
      (Check.rawProjectBeside "a").lookup? place =
        some (.file (update.manifest Check.besideResources 2024).render.toUTF8)) ∧
    ∃ failure after, run (.rawProject "a") manifestWithSlash ⟨""⟩ 2024 = (.error failure, after) ∧
      failure.isWrite = true ∧
      (FileTree.rawProject "a").MadeAlong after ⟨"new/m.xml/"⟩ ["new"] := by
  have hclosed := FileTree.closed_rawProject
  constructor
  · obtain ⟨update, hrun, -⟩ := Check.run_rawProject
    obtain ⟨-, -, place, -, hwritten, -⟩ :=
      (changes_of_run hclosed Check.besideResources ⟨""⟩ 2024).1 update _ hrun
    exact ⟨update, place, hrun, hwritten⟩
  · refine ⟨_, _, run_manifestWithSlash, rfl, ?_⟩
    obtain ⟨-, hwrite⟩ :=
      (changes_of_run hclosed manifestWithSlash ⟨""⟩ 2024).2 _ _ run_manifestWithSlash
    obtain ⟨-, -, hlookup⟩ := hwrite rfl
    rcases hlookup ["new"] with hsame | ⟨hmade, -⟩
    · exact absurd hsame (by decide)
    · exact hmade

end Update

end OverlayManifest
