/-
# Updates over a stored manifest

An update replaces the manifest that is stored, but scans it before, as it scans every
file that is listed, and exclusions may lead to it too. So updates of two trees that differ
in nothing but that file end alike exactly if the two files make no difference to what is
read. A manifest that an update wrote makes none, where it is listed among the values.
-/

import OverlayManifest.Proofs.CheckAfterUpdate
import OverlayManifest.Proofs.DistinctManifests
import OverlayManifest.Proofs.ScanSources

namespace OverlayManifest

open FileTree

/-! ## Writing where a path leads -/

namespace FileTree

/-- A path on which something below it is reached leads to a directory. -/
theorem hasDirectory_of_locate_join {tree : FileTree} {base : Path} {name : String}
    {location : Location} (hbase : base.text ≠ "") (hend : base.text.toList.getLast? ≠ some '/')
    (hslash : '/' ∉ name.toList) (h : tree.locate (base.join ⟨name⟩) = .ok location) :
    tree.hasDirectory base = true := by
  have hrelative := Path.isAbsolute_of_notMem hslash
  obtain ⟨hfault, hleads⟩ := locate_eq_ok_iff.mp h
  obtain ⟨-, hnul, hsize⟩ := textFault?_eq_none_iff.mp hfault
  have hnames : namesOf (base.join ⟨name⟩) = namesOf base ++ [.ofStep name.toList] := by
    rw [namesOf_join hrelative, namesBefore, Path.stepsBefore, if_neg hbase, if_neg hend, namesOf,
      namesOf, List.splitOn_eq_singleton hslash, List.map_singleton]
  rw [startOf_join hrelative] at hleads
  obtain ⟨left, middle, hfirst, hlast⟩ := hleads.split hnames
  refine hasDirectory_iff.mpr ⟨middle, locate_eq_ok_iff.mpr ⟨?_, ?_⟩, hlast.directory_of_cons⟩
  · refine textFault?_eq_none_iff.mpr
      ⟨hbase, fun hmem => hnul ?_, Nat.le_trans (utf8ByteSize_le_join base hslash) hsize⟩
    rw [Path.toList_join hrelative hbase, if_neg hend]
    exact List.mem_append_left _ hmem
  · exact hfirst

end FileTree

namespace Settings

theorem components_of_values {settings : Settings}
    (hmanifest : settings.manifest = ⟨"res/values/overlayable.xml"⟩) :
    settings.manifest.components = ["res", "values", "overlayable.xml"].map .named := by
  rw [hmanifest]
  decide

/-- The directory of the values is below that of the resources. -/
theorem join_res_values (root : Path) :
    root.join ⟨"res/values"⟩ = (root.join ⟨"res"⟩).join ⟨"values"⟩ := by
  have hsplit : (⟨"res/values"⟩ : Path) = Path.join ⟨"res"⟩ ⟨"values"⟩ := by decide
  rw [hsplit]
  exact Path.join_assoc (by decide) (by decide) (by decide)

/-- The manifest is below the path of its directory, which is the parent of its path. -/
theorem manifestAt_below_values {settings : Settings}
    (hmanifest : settings.manifest = ⟨"res/values/overlayable.xml"⟩) (root : Path) :
    settings.manifestAt root = (root.join ⟨"res/values"⟩).join ⟨"overlayable.xml"⟩ ∧
      (settings.manifestAt root).parent? = some (root.join ⟨"res/values"⟩) ∧
      (root.join ⟨"res/values"⟩).text ≠ "" ∧
      (root.join ⟨"res/values"⟩).text.toList.getLast? ≠ some '/' := by
  have hsplit : (⟨"res/values/overlayable.xml"⟩ : Path) =
      Path.join ⟨"res/values"⟩ ⟨"overlayable.xml"⟩ := by decide
  have hmanifestAt : settings.manifestAt root =
      (root.join ⟨"res/values"⟩).join ⟨"overlayable.xml"⟩ := by
    rw [manifestAt, hmanifest, hsplit]
    exact Path.join_assoc (by decide) (by decide) (by decide)
  have hvalues := join_res_values root
  have hres : (root.join ⟨"res"⟩).text ≠ "" ∧
      (root.join ⟨"res"⟩).text.toList.getLast? ≠ some '/' :=
    Path.ends_join_name (by decide) (by decide)
  have hends : (root.join ⟨"res/values"⟩).text ≠ "" ∧
      (root.join ⟨"res/values"⟩).text.toList.getLast? ≠ some '/' := by
    rw [hvalues]
    exact Path.ends_join_name (by decide) (by decide)
  refine ⟨hmanifestAt, ?_, hends⟩
  rw [hmanifestAt]
  refine Path.parent?_join_name hends.1 hends.2 (by decide) (by decide) fun step hstep => ?_
  rw [hvalues, Path.steps_join_name hres.1 hres.2 (by decide), List.getLast?_append] at hstep
  cases hstep
  decide

end Settings

namespace Update

variable {tree other : FileTree} {settings : Settings} {root : Path} {year : Int}

/-- The manifest is written where its path leads, unless a directory is there. -/
theorem writeDocument_of_locate
    (hmanifest : settings.manifest = ⟨"res/values/overlayable.xml"⟩) {place : Location}
    (hplace : tree.locate (settings.manifestAt root) = .ok place)
    (hdirectory : tree.lookup? place ≠ some .directory) (text : String) :
    writeDocument tree (settings.manifestAt root) text =
      (.ok (), tree.set place (.file text.toUTF8)) := by
  obtain ⟨hjoined, hparent, hnamed, hend⟩ := Settings.manifestAt_below_values hmanifest root
  have habove : tree.hasDirectory (root.join ⟨"res/values"⟩) = true := by
    rw [hjoined] at hplace
    exact hasDirectory_of_locate_join hnamed hend (by decide) hplace
  refine writeDocument_of_hasDirectory _ hparent (.inr habove) ?_
  obtain ⟨hfault, hleads⟩ := locate_eq_ok_iff.mp hplace
  have hwrite : tree.locateToWrite (settings.manifestAt root) = .ok place :=
    locateToWrite_eq_ok_iff.mpr ⟨hfault, hleads.toWrite hdirectory⟩
  rw [writeFile, hwrite]
  dsimp only
  split
  · rename_i hthere
    exact absurd hthere hdirectory
  · rfl

end Update

/-! ## Two runs -/

namespace Manifest

/-- Manifests with the same bytes name the same resources. -/
theorem resources_eq_of_render {first last : Manifest}
    (h : first.render.toUTF8 = last.render.toUTF8) : first.resources = last.resources := by
  have htext : first.render = last.render := by
    have hsame := textOf_toUTF8 first.render
    rw [h, textOf_toUTF8] at hsame
    exact (Except.ok.inj hsame).symm
  exact resources_eq_of_text htext

end Manifest

namespace Update

variable {tree other : FileTree} {settings : Settings} {root : Path} {year : Int}

/-- Two runs end alike: both succeed and leave the same bytes where a path leads, or both
fail. -/
def Agree (path : Path) (first last : Except Failure Update × FileTree) : Prop :=
  (∃ update update' bytes, first.1 = .ok update ∧ last.1 = .ok update' ∧
      first.2.readBytes path = .ok bytes ∧ last.2.readBytes path = .ok bytes) ∨
    ∃ failure failure', first.1 = .error failure ∧ last.1 = .error failure'

/-- A run that succeeds leaves bytes, so it agrees with itself. -/
theorem agree_self (hclosed : tree.Closed) :
    Agree (settings.manifestAt root) (run tree settings root year)
      (run tree settings root year) := by
  rcases hrun : run tree settings root year with ⟨result, after⟩
  cases result with
  | ok update =>
      have hbytes := readBytes_of_run hclosed hrun
      exact .inl ⟨update, update, _, rfl, rfl, hbytes, hbytes⟩
  | error failure => exact .inr ⟨failure, failure, rfl, rfl⟩

/-- A run plans first, and fails only with its plan if the path of the manifest leads to
nothing or to a file. -/
theorem run_of_locate (hmanifest : settings.manifest = ⟨"res/values/overlayable.xml"⟩)
    {place : Location} (hplace : tree.locate (settings.manifestAt root) = .ok place)
    (h : SameApart tree other place) (year : Int) :
    (∃ update after, plan tree settings root = .ok update ∧
        run tree settings root year = (.ok update, after) ∧
        after.readBytes (settings.manifestAt root) =
          .ok (update.manifest settings year).render.toUTF8) ∨
      ∃ failure, plan tree settings root = .error failure ∧
        run tree settings root year = (.error failure, tree) := by
  cases hplan : plan tree settings root with
  | ok update =>
      obtain ⟨hset, hwritten⟩ :=
        SameApart.of_set h.here (update.manifest settings year).render.toUTF8
      refine .inl ⟨update, _, rfl, run_eq_ok_iff.mpr
        ⟨hplan, writeDocument_of_locate hmanifest hplace h.ne_directory _⟩, ?_⟩
      rw [readBytes, find?_eq_ok_iff.mpr ⟨place, hset.locate_iff.mpr hplace, hwritten⟩]
  | error failure =>
      refine .inr ⟨failure, rfl, ?_⟩
      unfold run
      rw [hplan]

/-- Runs that succeed end alike exactly if they keep the same. -/
theorem agree_ok_iff {path : Path} {update update' : Update} {after after' : FileTree}
    (hbytes : after.readBytes path = .ok (update.manifest settings year).render.toUTF8)
    (hbytes' : after'.readBytes path = .ok (update'.manifest settings year).render.toUTF8) :
    Agree path (.ok update, after) (.ok update', after') ↔ update.kept = update'.kept := by
  constructor
  · rintro (⟨_, _, bytes, -, -, hfirst, hlast⟩ | ⟨_, _, hfailed, -⟩)
    · rw [hbytes] at hfirst
      rw [hbytes', ← hfirst] at hlast
      exact (Manifest.resources_eq_of_render (Except.ok.inj hlast)).symm
    · cases hfailed
  · intro hkept
    refine .inl ⟨update, update', _, rfl, rfl, hbytes, ?_⟩
    rw [hbytes', manifest, manifest, hkept]

theorem Agree.symm {path : Path} {first last : Except Failure Update × FileTree}
    (h : Agree path first last) : Agree path last first := by
  rcases h with ⟨update, update', bytes, hfirst, hlast, hbytes, hbytes'⟩ |
    ⟨failure, failure', hfirst, hlast⟩
  · exact .inl ⟨update', update, bytes, hlast, hfirst, hbytes', hbytes⟩
  · exact .inr ⟨failure', failure, hlast, hfirst⟩

/-- A run that succeeds does not end like one that fails. -/
theorem not_agree {path : Path} {update : Update} {failure : Failure} {after after' : FileTree} :
    ¬ Agree path (.ok update, after) (.error failure, after') := by
  rintro (⟨_, _, _, -, hlast, -⟩ | ⟨_, _, hfirst, -⟩)
  · cases hlast
  · cases hfirst

/-- Two runs end alike exactly if the same is planned to be kept. -/
theorem agree_iff_plan (hmanifest : settings.manifest = ⟨"res/values/overlayable.xml"⟩)
    {place : Location} (hplace : tree.locate (settings.manifestAt root) = .ok place)
    (h : SameApart tree other place) :
    Agree (settings.manifestAt root) (run tree settings root year)
        (run other settings root year) ↔
      ∀ kept, (∃ update, plan tree settings root = .ok update ∧ update.kept = kept) ↔
        ∃ update, plan other settings root = .ok update ∧ update.kept = kept := by
  have hother := h.locate_iff.mpr hplace
  rcases run_of_locate hmanifest hplace h year with
    ⟨update, after, hplan, hrun, hbytes⟩ | ⟨failure, hplan, hrun⟩
  · rcases run_of_locate hmanifest hother h.symm year with
      ⟨update', after', hplan', hrun', hbytes'⟩ | ⟨failure', hplan', hrun'⟩
    · rw [hrun, hrun', agree_ok_iff hbytes hbytes']
      simp only [hplan, hplan', Except.ok.injEq, exists_eq_left']
      constructor
      · intro hkept kept
        rw [hkept]
      · intro hkept
        exact ((hkept update.kept).mp rfl).symm
    · rw [hrun, hrun']
      refine iff_of_false not_agree fun hkept => ?_
      obtain ⟨_, hfailed, -⟩ := (hkept update.kept).mp ⟨update, hplan, rfl⟩
      rw [hplan'] at hfailed
      cases hfailed
  · rcases run_of_locate hmanifest hother h.symm year with
      ⟨update', after', hplan', hrun', hbytes'⟩ | ⟨failure', hplan', hrun'⟩
    · rw [hrun, hrun']
      refine iff_of_false (fun hagree => not_agree hagree.symm) fun hkept => ?_
      obtain ⟨_, hfailed, -⟩ := (hkept update'.kept).mpr ⟨update', hplan', rfl⟩
      rw [hplan] at hfailed
      cases hfailed
    · rw [hrun, hrun']
      refine iff_of_true (.inr ⟨failure, failure', rfl, rfl⟩) fun kept => ?_
      simp only [hplan, hplan', reduceCtorEq, false_and]

/-- Where nothing that is stored declares a resource and the exclusions are the same, the
stored manifest makes no difference. -/
theorem agree_of_silent (hclosed : tree.Closed)
    (hmanifest : settings.manifest = ⟨"res/values/overlayable.xml"⟩)
    (hsame : tree.SameButFile other (settings.manifestAt root))
    (hsilent : ∀ base file, tree.IsStored settings root base file → file.declared = .ok [])
    (hsilent' : ∀ base file, other.IsStored settings root base file → file.declared = .ok [])
    (hexclusions : ResourceSet.loadExclusions other (settings.exclusionsAt root) =
      ResourceSet.loadExclusions tree (settings.exclusionsAt root)) :
    Agree (settings.manifestAt root) (run tree settings root year)
      (run other settings root year) := by
  rcases hsame with rfl | ⟨place, hplace, h⟩
  · exact agree_self hclosed
  · rw [agree_iff_plan hmanifest hplace h]
    intro kept
    simp only [exists_plan_iff, h.sourcesRead_iff hplace, h.declaredBySources_eq hplace,
      leaves_iff_of_silent (hsilent _), leaves_iff_of_silent (hsilent' _), hexclusions]

/-- Whatever manifest was written is replaced as if nothing had been stored, as long as the
scan that meets it lists it among the values on a usable path and the exclusions are
elsewhere. -/
theorem agree_over_manifest (hclosed : tree.Closed)
    (hmanifest : settings.manifest = ⟨"res/values/overlayable.xml"⟩)
    (hsame : tree.SameButFile other (settings.manifestAt root))
    (hnothing : tree.find? (settings.manifestAt root) = .error .notFound) {written : Manifest}
    (hwritten : other.readBytes (settings.manifestAt root) = .ok written.render.toUTF8)
    (hlisted : ∀ base file, other.IsStored settings root base file →
      file.kind = .values ∧ fileFault? file.path = none)
    (hexclusions : ∀ place, tree.locate (settings.manifestAt root) = .ok place →
      tree.locate (settings.exclusionsAt root) ≠ .ok place) :
    Agree (settings.manifestAt root) (run tree settings root year)
      (run other settings root year) := by
  refine agree_of_silent hclosed hmanifest hsame (fun base file hstored => ?_)
    (fun base file hstored => ?_) ?_
  · have hbytes := hstored.readBytes_eq
    rw [readBytes, hnothing] at hbytes
    cases hbytes
  · obtain ⟨hkind, hpath⟩ := hlisted base file hstored
    have hbytes := hstored.readBytes_eq
    rw [hwritten, Except.ok.injEq] at hbytes
    exact FoundFile.declared_values hkind hpath (hbytes ▸ textOf_toUTF8 _) (Manifest.read_values _)
  · rcases hsame with rfl | ⟨place, hplace, h⟩
    · rfl
    · exact h.loadExclusions_eq (hexclusions place hplace)

/-- Without links, a scan of the usual resources that meets a manifest in the usual place lists it
among the values, on the path on which it was written. -/
theorem values_of_isStored (hfree : tree.LinkFree) (hresources : settings.resources = ⟨"res"⟩)
    (hmanifest : settings.manifest = ⟨"res/values/overlayable.xml"⟩) {base : Location}
    {file : FoundFile} (h : tree.IsStored settings root base file) :
    file.kind = .values ∧ fileFault? file.path = none := by
  obtain ⟨directory, name, bytes, hlocation, -, rfl⟩ := h.stands
  have hplace := destinationOf_of_locate hfree hlocation
  rw [Settings.manifestAt, destinationOf_join_names (Settings.components_of_values hmanifest)]
    at hplace
  have hends : base ++ [.plain directory, name] = (tree.destinationOf root ++ [.plain "res"]) ++
      [.plain "values", .plain "overlayable.xml"] := by
    rw [hplace]
    simp
  cases (List.append_inj' hends rfl).2
  refine ⟨rfl, ?_⟩
  show textFault? (((settings.resourcesAt root).join ⟨"values"⟩).join ⟨"overlayable.xml"⟩) = none
  rw [Settings.resourcesAt, hresources, ← Settings.join_res_values,
    ← (Settings.manifestAt_below_values hmanifest root).1]
  exact (locate_eq_ok_iff.mp hlocation).1

/-- Under the usual paths and without links, whatever manifest was written is replaced as if
nothing had been stored. -/
theorem agree_over_manifest_of_linkFree (hclosed : tree.Closed) (hfree : tree.LinkFree)
    (hresources : settings.resources = ⟨"res"⟩)
    (hmanifest : settings.manifest = ⟨"res/values/overlayable.xml"⟩)
    (hexclusions : settings.exclusions = ⟨"chassis_overlayable.xml"⟩)
    (hsame : tree.SameButFile other (settings.manifestAt root))
    (hnothing : tree.find? (settings.manifestAt root) = .error .notFound) {written : Manifest}
    (hwritten : other.readBytes (settings.manifestAt root) = .ok written.render.toUTF8) :
    Agree (settings.manifestAt root) (run tree settings root year)
      (run other settings root year) := by
  have hother : other.LinkFree := by
    rcases hsame with rfl | ⟨place, -, h⟩
    · exact hfree
    · exact hfree.keep h.keeps
  refine agree_over_manifest hclosed hmanifest hsame hnothing hwritten
    (fun base file => values_of_isStored hother hresources hmanifest)
    fun place hplace hexcluded => ?_
  have hname : settings.exclusions.components = ["chassis_overlayable.xml"].map .named := by
    rw [hexclusions]
    decide
  have hboth := (destinationOf_of_locate hfree hexcluded).symm.trans
    (destinationOf_of_locate hfree hplace)
  rw [Settings.manifestAt, Settings.exclusionsAt, destinationOf_join_names hname,
    destinationOf_join_names (Settings.components_of_values hmanifest),
    List.append_cancel_left_eq] at hboth
  simp at hboth

end Update

/-- A values file that was read has a document that can be read. -/
theorem FoundFile.read_of_declared {file : FoundFile} (hkind : file.kind = .values)
    {text : String} {declared : List Resource} (hbytes : file.bytes = text.toUTF8)
    (h : file.declared = .ok declared) : Document.Values.read text = .ok declared := by
  rw [FoundFile.declared, hkind] at h
  exact readDocument_toUTF8 hbytes h

/-! ## A project with a stored file -/

/-- The project with one raw resource, with a file in the place of its manifest. -/
def rawProjectStoring (bytes : ByteArray) : FileTree :=
  rawProjectWithValues.set ["res", "values", "overlayable.xml"] (.file bytes)

/-- A manifest of last year, with a resource that the project does not have. -/
def staleManifest : Manifest := ⟨"CarSettings", "public", 2023, .ofList [⟨"raw", "b"⟩]⟩

theorem locate_rawProjectWithValues :
    rawProjectWithValues.locate (Settings.manifestAt {} ⟨"."⟩) =
      .ok ["res", "values", "overlayable.xml"] := by
  rw [locate_eq_walk linkFree_rawProjectWithValues (by decide)]
  rfl

/-- The project differs from the one without the file in nothing else. -/
theorem sameApart_rawProjectStoring (bytes : ByteArray) :
    SameApart rawProjectWithValues (rawProjectStoring bytes)
        ["res", "values", "overlayable.xml"] ∧
      (rawProjectStoring bytes).lookup? ["res", "values", "overlayable.xml"] =
        some (.file bytes) :=
  SameApart.of_set (.inl rfl) bytes

theorem sameButFile_rawProjectStoring (bytes : ByteArray) :
    SameButFile rawProjectWithValues (rawProjectStoring bytes) (Settings.manifestAt {} ⟨"."⟩) :=
  .inr ⟨_, locate_rawProjectWithValues, (sameApart_rawProjectStoring bytes).1⟩

/-- What is stored is scanned as a values file. -/
theorem isStored_rawProjectStoring {bytes : ByteArray} {base : Location} {file : FoundFile} :
    (rawProjectStoring bytes).IsStored {} ⟨"."⟩ base file ↔
      base = ["res"] ∧ file = ⟨⟨.plain ⟨"./res/values/overlayable.xml"⟩, .values⟩, bytes⟩ := by
  obtain ⟨hsame, hwritten⟩ := sameApart_rawProjectStoring bytes
  have hclosed : (rawProjectStoring bytes).Closed := by
    have hproject := closed_rawProjectWithValues
    have hset : (rawProjectWithValues.set
        ([.plain "res", .plain "values"] ++ [.plain "overlayable.xml"])
        (.file bytes)).Closed := hproject.set _ (by decide) (by decide)
    exact hset
  have hpath : FilePath.inside ((Settings.resourcesAt {} ⟨"."⟩).join ⟨"values"⟩)
      "overlayable.xml" = .plain ⟨"./res/values/overlayable.xml"⟩ := by decide
  simp only [IsStored, hsame.locate_iff, locate_rawProjectWithValues, Except.ok.injEq,
    exists_eq_left', foundAt?_eq_some_iff hclosed, Discovery.select?_eq_some_iff]
  constructor
  · rintro ⟨directory, name, content, hlocation, hcontent, -, -, rfl, -⟩
    have hnames : [.plain "res"] ++ [.plain "values", .plain "overlayable.xml"] =
        base ++ [.plain directory, name] := hlocation
    obtain ⟨rfl, hnames⟩ := List.append_inj' hnames rfl
    cases hnames
    rw [hwritten] at hcontent
    cases hcontent
    rw [hpath]
    exact ⟨rfl, rfl⟩
  · rintro ⟨rfl, rfl⟩
    refine ⟨"values", "overlayable.xml", bytes, rfl, hwritten, by decide, by decide, ?_, rfl, ?_⟩
    · rw [hpath]
      rfl
    · rintro ⟨-, hmarkup⟩
      have hxml : ResourceFile.isXml ⟨.plain ⟨"./res/values/overlayable.xml"⟩, .values⟩ =
          true := by
        decide
      rw [hxml] at hmarkup
      cases hmarkup

/-- The exclusions of the project are elsewhere. -/
theorem loadExclusions_rawProjectStoring (bytes : ByteArray) :
    ResourceSet.loadExclusions (rawProjectStoring bytes) (Settings.exclusionsAt {} ⟨"."⟩) =
      ResourceSet.loadExclusions rawProjectWithValues (Settings.exclusionsAt {} ⟨"."⟩) := by
  apply (sameApart_rawProjectStoring bytes).1.loadExclusions_eq
  have hlocate : rawProjectWithValues.locate (Settings.exclusionsAt {} ⟨"."⟩) =
      .ok ["chassis_overlayable.xml"] := by
    rw [locate_eq_walk linkFree_rawProjectWithValues (by decide)]
    rfl
  rw [hlocate]
  decide

namespace Update

variable {tree other : FileTree} {settings : Settings} {root : Path} {year : Int}

/-- Under settings with the usual place of the manifest, updates of two trees that differ
at most in the file that is stored there both succeed and write the same bytes or both
fail, exactly if the two files make no difference to what is read: where the sources can be
read, either tree leaves the resources that the other leaves, or neither leaves any as its
stored manifest or its exclusions cannot be read. -/
theorem agree_iff_of_sameButFile (hclosed : tree.Closed)
    (hmanifest : settings.manifest = ⟨"res/values/overlayable.xml"⟩)
    (hsame : tree.SameButFile other (settings.manifestAt root)) :
    Agree (settings.manifestAt root) (run tree settings root year)
        (run other settings root year) ↔
      ∀ base, tree.SourcesRead settings root base → ∀ kept,
        (tree.Leaves settings root base (tree.DeclaredBySources settings root base) kept ↔
          other.Leaves settings root base (tree.DeclaredBySources settings root base) kept) := by
  rcases hsame with rfl | ⟨place, hplace, h⟩
  · exact iff_of_true (agree_self hclosed) fun _ _ _ => Iff.rfl
  · rw [agree_iff_plan hmanifest hplace h]
    simp only [exists_plan_iff, h.sourcesRead_iff hplace, h.declaredBySources_eq hplace]
    constructor
    · intro hkept base hsources kept
      -- The path of the resource directory leads to one place only.
      have honly {tree' : FileTree} :
          (∃ base', tree.SourcesRead settings root base' ∧
            tree'.Leaves settings root base' (tree.DeclaredBySources settings root base') kept) ↔
          tree'.Leaves settings root base (tree.DeclaredBySources settings root base) kept := by
        constructor
        · rintro ⟨base', hsources', hleaves⟩
          have hbase : base' = base :=
            Except.ok.inj (hsources'.located.symm.trans hsources.located)
          rwa [← hbase]
        · intro hleaves
          exact ⟨base, hsources, hleaves⟩
      rw [← honly, ← honly]
      exact hkept kept
    · intro hkept kept
      apply exists_congr
      intro base
      exact and_congr_right fun hsources => hkept base hsources kept

/-- A manifest that is stale is replaced as if nothing had been stored. -/
theorem agree_over_stale :
    rawProjectWithValues.Closed ∧
      SameButFile rawProjectWithValues (rawProjectStoring staleManifest.render.toUTF8)
        (Settings.manifestAt {} ⟨"."⟩) ∧
      Agree (Settings.manifestAt {} ⟨"."⟩) (run rawProjectWithValues {} ⟨"."⟩ 2024)
        (run (rawProjectStoring staleManifest.render.toUTF8) {} ⟨"."⟩ 2024) := by
  have hclosed := closed_rawProjectWithValues
  have hsame := sameButFile_rawProjectStoring staleManifest.render.toUTF8
  refine ⟨hclosed, hsame, (agree_iff_of_sameButFile hclosed rfl hsame).mpr ?_⟩
  intro base _ kept
  have hnothing : ∀ file, rawProjectWithValues.IsStored {} ⟨"."⟩ base file →
      file.declared = .ok [] := by
    rintro file ⟨location, hlocation, hfound⟩
    rw [locate_rawProjectWithValues] at hlocation
    cases hlocation
    cases hfound
  have hstale : ∀ file, (rawProjectStoring staleManifest.render.toUTF8).IsStored {} ⟨"."⟩ base
      file → file.declared = .ok [] := by
    intro file hstored
    obtain ⟨-, rfl⟩ := isStored_rawProjectStoring.mp hstored
    exact FoundFile.declared_values rfl (by decide) (textOf_toUTF8 _)
      (Manifest.read_values _)
  rw [leaves_iff_of_silent hnothing, leaves_iff_of_silent hstale, loadExclusions_rawProjectStoring]

/-- A manifest that is cut off is scanned before it is replaced, and then no update of the
project succeeds. -/
theorem not_agree_over_damaged :
    rawProjectWithValues.Closed ∧
      SameButFile rawProjectWithValues (rawProjectStoring "<resources".toUTF8)
        (Settings.manifestAt {} ⟨"."⟩) ∧
      ¬ Agree (Settings.manifestAt {} ⟨"."⟩) (run rawProjectWithValues {} ⟨"."⟩ 2024)
        (run (rawProjectStoring "<resources".toUTF8) {} ⟨"."⟩ 2024) := by
  refine ⟨closed_rawProjectWithValues, sameButFile_rawProjectStoring _, ?_⟩
  have hsame := (sameApart_rawProjectStoring "<resources".toUTF8).1
  have hfree := linkFree_rawProjectWithValues
  have hbase : rawProjectWithValues.locate (Settings.resourcesAt {} ⟨"."⟩) = .ok ["res"] := by
    rw [locate_eq_walk hfree (by decide)]
    rfl
  have hplan : ∃ update, plan rawProjectWithValues {} ⟨"."⟩ = .ok update := by
    have hcollect : ∃ scan,
        Scan.collect rawProjectWithValues {} (Settings.resourcesAt {} ⟨"."⟩) = .ok scan := by
      rw [Scan.collect, Discovery.find, hbase]
      exact ⟨_, rfl⟩
    obtain ⟨scan, hscan⟩ := hcollect
    exact ⟨_, plan_eq_ok_iff.mpr ⟨scan, ∅, hscan, ResourceSet.loadExclusions_of_find?
      (find?_of_walk hfree (by decide) rfl rfl), rfl⟩⟩
  rw [agree_iff_plan rfl locate_rawProjectWithValues hsame]
  intro hkept
  obtain ⟨update, hplan⟩ := hplan
  obtain ⟨update', hplan', -⟩ := (hkept update.kept).mp ⟨update, hplan, rfl⟩
  obtain ⟨scan, _, hscan, -, -⟩ := plan_eq_ok_iff.mp hplan'
  obtain ⟨base, hsources, hread⟩ := exists_scan_iff.mp ⟨scan, hscan⟩
  have hres : base = ["res"] :=
    Except.ok.inj ((hsame.locate_iff.mp hsources.located).symm.trans hbase)
  obtain ⟨declared, hdeclared⟩ := hread _ (isStored_rawProjectStoring.mpr ⟨hres, rfl⟩)
  have hdocument : Document.Values.read "<resources" = .ok declared :=
    FoundFile.read_of_declared rfl rfl hdeclared
  have hfault : (Document.Values.read "<resources").toOption = none := by decide +kernel
  rw [hdocument] at hfault
  cases hfault

end Update

end OverlayManifest
