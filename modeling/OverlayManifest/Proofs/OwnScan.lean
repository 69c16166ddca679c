/-
# Manifests below their resources

By default a manifest stands among the resources that are scanned for it. A scan of the
tree with the manifest finds the same resources in the same files, if the manifest is
where no resource file is listed or where a values file without resources is, and if the
scan does not meet it on a path that is too long.
-/

import OverlayManifest.Proofs.DriftDetection
import OverlayManifest.Proofs.ManifestPlace
import OverlayManifest.Proofs.PathLimits
import OverlayManifest.Proofs.RepeatedUpdate
import OverlayManifest.Proofs.Rescan

namespace OverlayManifest

/-- Settings keep the manifest out of its own scan: their paths are relative paths of
names, the exclusions are neither the manifest nor above it, and the manifest is where no
resource file is listed or in a values directory, where nothing is yet or a file without
resources. -/
structure Settings.SparesManifest (settings : Settings) (tree : FileTree) (root : Path) :
    Prop where
  resources : settings.resources.IsNamed
  manifest : settings.manifest.IsNamed
  exclusions : settings.exclusions.IsNamed
  apart : ¬ settings.exclusions.components <+: settings.manifest.components
  placed : ∀ directory name : String,
    settings.manifest.components =
        settings.resources.components ++ [.named directory, .named name] →
      FileName.isHidden directory = true ∨ FileName.isHidden name = true ∨
        settings.excludes ⟨directory ++ "/" ++ name⟩ = true ∨
        DirectoryKind.ofName directory = .values
  silent : ∀ bytes, tree.readBytes (settings.manifestAt root) = .ok bytes →
    ∃ text, FileTree.textOf bytes = .ok text ∧ Document.Values.read text = .ok []

/-- The paths on which a scan lists a directory above the manifest, and opens the manifest
itself, are not too long. -/
structure Settings.MeetsManifest (settings : Settings) (root : Path) : Prop where
  listed : ∀ (directory name : String) rest,
    settings.manifest.components =
        settings.resources.components ++ .named directory :: .named name :: rest →
      FileName.isHidden directory = false →
        ((settings.resourcesAt root).join ⟨directory⟩).text.utf8ByteSize ≤ FileTree.pathLimit
  opened : ∀ (directory name : String) bytes file,
    settings.manifest.components =
        settings.resources.components ++ [.named directory, .named name] →
      FileName.isHidden directory = false → FileName.isHidden name = false →
        Discovery.select? settings (settings.resourcesAt root) directory name bytes = some file →
          file.path.shown.text.utf8ByteSize ≤ FileTree.pathLimit

namespace Settings.SparesManifest

open FileTree

variable {settings : Settings} {tree : FileTree} {root : Path}

/-- The resource directory is below where the root leads. -/
theorem base_eq (h : settings.SparesManifest tree root) (hfree : tree.LinkFree)
    {base : Location} (hbase : tree.locate (settings.resourcesAt root) = .ok base) :
    ∃ resources : List String, settings.resources.components = resources.map .named ∧
      base = tree.destinationOf root ++ resources.map FileName.plain := by
  obtain ⟨resources, hresources⟩ := h.resources
  refine ⟨resources, hresources, ?_⟩
  rw [destinationOf_of_locate hfree hbase, resourcesAt, destinationOf_join_names hresources]

/-- The names below the resource directory that lead to the manifest, or to what is above it,
come next in its path. -/
theorem names_eq {base below : Location} {names resources : List String}
    (hbase : base = tree.destinationOf root ++ resources.map FileName.plain)
    (hplace : tree.destinationOf root ++ names.map FileName.plain = base ++ below) :
    ∃ rest : List String, below = rest.map .plain ∧ names = resources ++ rest := by
  rw [hbase, List.append_assoc, List.append_cancel_left_eq, List.map_eq_append_iff] at hplace
  obtain ⟨first, rest, rfl, hfirst, rfl⟩ := hplace
  rw [List.map_inj_right fun _ _ => FileName.plain.inj] at hfirst
  exact ⟨rest, rfl, by rw [hfirst]⟩

/-- What a scan finds in the place of the manifest is a usable values file. -/
theorem values_of_foundAt? (h : settings.SparesManifest tree root)
    (hmeets : settings.MeetsManifest root) {found : FileTree} (hclosed : found.Closed)
    {base place : Location} {file : FoundFile}
    (hbase : tree.locate (settings.resourcesAt root) = .ok base) (hfree : tree.LinkFree)
    (hplace : place = tree.destinationOf (settings.manifestAt root))
    (hfault : textFault? (settings.manifestAt root) = none)
    (hfound : found.foundAt? settings (settings.resourcesAt root) base place = some file) :
    file.kind = .values ∧ fileFault? file.path = none ∧
      found.lookup? place = some (.file file.bytes) := by
  obtain ⟨directory, fileName, bytes, hlocation, hbytes, hdirectory, hname, hselect⟩ :=
    (foundAt?_eq_some_iff hclosed).mp hfound
  obtain ⟨resources, hresources, hbaseEq⟩ := h.base_eq hfree hbase
  obtain ⟨names, hnames⟩ := h.manifest
  rw [hplace, manifestAt, destinationOf_join_names hnames] at hlocation
  obtain ⟨rest, hrest, hsame⟩ := names_eq hbaseEq hlocation
  obtain ⟨name, rfl, rfl⟩ : ∃ name : String, fileName = .plain name ∧ rest = [directory, name] := by
    obtain ⟨first, rest, rfl, hfirst, hlast⟩ := List.map_eq_cons_iff.mp hrest.symm
    obtain ⟨name, rfl, rfl⟩ := List.map_eq_singleton_iff.mp hlast
    exact ⟨name, rfl, by rw [FileName.plain.inj hfirst]⟩
  have hcomponents : settings.manifest.components =
      settings.resources.components ++ [.named directory, .named name] := by
    rw [hnames, hresources, hsame, List.map_append]
    rfl
  obtain ⟨hslashDirectory, hnulDirectory, hsolidDirectory⟩ :=
    plain_of_named hnames (show directory ∈ names by simp [hsame]) hfault
  obtain ⟨hslashName, hnulName, hsolidName⟩ :=
    plain_of_named hnames (show name ∈ names by simp [hsame]) hfault
  have hresourcesFault := (locate_eq_ok_iff.mp hbase).1
  have hsize := hmeets.opened directory name bytes file hcomponents hdirectory hname hselect
  obtain ⟨rfl, hexcluded, -⟩ := Discovery.select?_eq_some_iff.mp hselect
  refine ⟨?_, textFault?_join (textFault?_join hresourcesFault hslashDirectory hnulDirectory
    (Nat.le_trans (utf8ByteSize_le_join _ hslashName) hsize)) hslashName hnulName hsize, hbytes⟩
  dsimp only [FilePath.inside, FilePath.shown] at hexcluded
  rw [Path.stripPrefix?_join (textFault?_eq_none_iff.mp hresourcesFault).1 hslashDirectory
    hslashName hsolidDirectory hsolidName, Option.getD_some] at hexcluded
  rcases h.placed directory name hcomponents with hhidden | hhidden | hpattern | hvalues
  · simp [hdirectory] at hhidden
  · simp [hname] at hhidden
  · simp [hexcluded] at hpattern
  · exact hvalues

/-- The directories that are made for the manifest can be listed. -/
theorem fileFault?_of_made (h : settings.SparesManifest tree root)
    (hmeets : settings.MeetsManifest root) {base made : Location}
    {names : List String} {name : FileName}
    (hbase : tree.locate (settings.resourcesAt root) = .ok base) (hfree : tree.LinkFree)
    (hfault : textFault? (settings.manifestAt root) = none)
    (hnames : settings.manifest.components = names.map .named)
    (hmade : made <+: (names.map FileName.plain).dropLast)
    (hplace : base ++ [name] = tree.destinationOf root ++ made)
    (hvisible : name.isHidden = false) :
    fileFault? (.inside (settings.resourcesAt root) name) = none := by
  obtain ⟨resources, hresources, hbaseEq⟩ := h.base_eq hfree hbase
  rw [← List.map_dropLast] at hmade
  obtain ⟨above, habove, rfl⟩ := List.prefix_map_iff.mp hmade
  obtain ⟨rest, hrest, rfl⟩ := names_eq hbaseEq hplace.symm
  obtain ⟨name, rfl, rfl⟩ := List.map_eq_singleton_iff.mp hrest.symm
  obtain ⟨below, hbelow⟩ := habove
  have hnil : names ≠ [] := by
    rintro rfl
    simp at hbelow
  -- The name is followed by more names, of which the last is that of the manifest.
  obtain ⟨next, rest, hrest⟩ := List.exists_cons_of_ne_nil
    (show below ++ [names.getLast hnil] ≠ [] by simp)
  have hsame : names = resources ++ name :: next :: rest := by
    calc names = names.dropLast ++ [names.getLast hnil] :=
          (List.dropLast_concat_getLast hnil).symm
      _ = resources ++ name :: (below ++ [names.getLast hnil]) := by
          rw [← hbelow]
          simp
      _ = resources ++ name :: next :: rest := by rw [hrest]
  have hcomponents : settings.manifest.components =
      settings.resources.components ++ .named name :: .named next :: rest.map .named := by
    rw [hnames, hresources, hsame, List.map_append]
    rfl
  obtain ⟨hslash, hnul, -⟩ := plain_of_named hnames (show name ∈ names by simp [hsame]) hfault
  exact textFault?_join (locate_eq_ok_iff.mp hbase).1 hslash hnul
    (hmeets.listed name next _ hcomponents hvisible)

end Settings.SparesManifest

/-- A usable values file declares what its document declares. -/
theorem FoundFile.declared_values {file : FoundFile} (hkind : file.kind = .values)
    (hpath : FileTree.fileFault? file.path = none) {text : String} {declared : List Resource}
    (htext : FileTree.textOf file.bytes = .ok text)
    (hread : Document.Values.read text = .ok declared) : file.declared = .ok declared := by
  have hreadText : file.readText = .ok text := by
    rw [FoundFile.readText, hpath]
    exact htext
  rw [FoundFile.declared, hkind]
  simp only [hreadText, readDocument, hread]

namespace ResourceSet

open FileTree

/-- Exclusions that were not touched are read as before. -/
theorem loadExclusions_eq {tree after : FileTree} {path : Path}
    (h : ∀ entry, after.find? path = .ok entry ↔ tree.find? path = .ok entry) :
    loadExclusions after path = loadExclusions tree path := by
  have hcases {tree : FileTree} : (∃ entry, tree.find? path = .ok entry) ∨
      ∃ fault, tree.find? path = .error fault := by
    cases tree.find? path with
    | ok entry => exact .inl ⟨entry, rfl⟩
    | error fault => exact .inr ⟨fault, rfl⟩
  rcases @hcases tree with ⟨entry, hentry⟩ | ⟨fault, hfault⟩
  · have hafter := (h entry).mpr hentry
    simp only [loadExclusions, hasEntry, load, readText, readBytes, hentry, hafter]
  · rcases @hcases after with ⟨entry, hentry⟩ | ⟨fault', hfault'⟩
    · have htree := (h entry).mp hentry
      rw [hfault] at htree
      cases htree
    · simp only [loadExclusions, hasEntry, hfault, hfault']
      rfl

end ResourceSet

namespace Update

open FileTree

variable {tree after : FileTree} {settings : Settings} {root : Path} {year : Int}
  {update : Update}

/-- An update writes the manifest below where the root leads, and makes directories that
the path of the manifest names. -/
theorem place_of_run (hclosed : tree.Closed) (hfree : tree.LinkFree)
    (hspares : settings.SparesManifest tree root)
    (hrun : run tree settings root year = (.ok update, after)) :
    ∃ (base : Location) (names : List String),
      tree.locate (settings.resourcesAt root) = .ok base ∧
      settings.manifest.components = names.map .named ∧
      after.locate (settings.manifestAt root) =
        .ok (tree.destinationOf root ++ names.map FileName.plain) ∧
      Rewrites tree after (tree.destinationOf root ++ names.map FileName.plain)
        (update.manifest settings year).render.toUTF8 ∧
      ∀ location, location ≠ tree.destinationOf root ++ names.map FileName.plain →
        after.lookup? location ≠ tree.lookup? location →
          ∃ made : Location, made ≠ [] ∧ made <+: (names.map FileName.plain).dropLast ∧
            location = tree.destinationOf root ++ made := by
  obtain ⟨hplan, hwritten⟩ := run_eq_ok_iff.mp hrun
  obtain ⟨scan, _, hscan, -, -⟩ := plan_eq_ok_iff.mp hplan
  obtain ⟨files, hfind, -⟩ := Scan.collect_eq_ok_iff.mp hscan
  obtain ⟨base, hbase, -⟩ := Discovery.find_eq_ok_iff.mp hfind
  obtain ⟨resources, hresources⟩ := hspares.resources
  obtain ⟨names, hnames⟩ := hspares.manifest
  have hrelative := (Path.components_eq_named hresources).1
  exact ⟨base, names, hbase, hnames,
    place_of_writeDocument hclosed hfree hnames hrelative hbase hwritten⟩

/-- An update leaves its exclusions alone. -/
theorem loadExclusions_of_run (hclosed : tree.Closed) (hfree : tree.LinkFree)
    (hspares : settings.SparesManifest tree root)
    (hrun : run tree settings root year = (.ok update, after)) :
    ResourceSet.loadExclusions after (settings.exclusionsAt root) =
      ResourceSet.loadExclusions tree (settings.exclusionsAt root) := by
  obtain ⟨base, names, hbase, hnames, -, hrewrites, hchanges⟩ :=
    place_of_run hclosed hfree hspares hrun
  obtain ⟨resources, hresources⟩ := hspares.resources
  obtain ⟨exclusions, hexclusions⟩ := hspares.exclusions
  have hrelative := (Path.components_eq_named hresources).1
  have hapart : ¬ exclusions.map FileName.plain <+: names.map FileName.plain := by
    intro hbegins
    obtain ⟨first, hfirst, hsame⟩ := List.prefix_map_iff.mp hbegins
    rw [List.map_inj_right fun _ _ => FileName.plain.inj] at hsame
    apply hspares.apart
    rw [hexclusions, hnames, hsame]
    exact hfirst.map _
  have hsame := lookup?_apart hapart hchanges
  have hdestination {location : Location}
      (h : after.locate (settings.exclusionsAt root) = .ok location) :
      location = tree.destinationOf root ++ exclusions.map FileName.plain := by
    rw [destinationOf_of_locate (hfree.keep hrewrites.keeps) h, Settings.exclusionsAt,
      destinationOf_join_names hexclusions, destinationOf, hrewrites.workingDirectory_eq,
      destinationOf]
  apply ResourceSet.loadExclusions_eq
  intro entry
  rw [find?_eq_ok_iff, find?_eq_ok_iff]
  constructor
  · rintro ⟨location, hlocate, hentry⟩
    have hlocation := hdestination hlocate
    subst hlocation
    rw [hsame] at hentry
    refine ⟨_, locate_back hclosed hfree hrewrites.keeps hexclusions hrelative hbase
      (by simp [hentry]) (fun hdirectory => hsame ▸ hdirectory) hlocate, hentry⟩
  · rintro ⟨location, hlocate, hentry⟩
    have hafter := locate_of_keeps hrewrites.keeps hlocate
    have hlocation := hdestination hafter
    subst hlocation
    exact ⟨_, hafter, hsame.trans hentry⟩

/-- A scan of the tree that an update leaves finds what the scan of the update found. -/
theorem collect_of_run (hclosed : tree.Closed) (hfree : tree.LinkFree)
    (hspares : settings.SparesManifest tree root) (hmeets : settings.MeetsManifest root)
    (hrun : run tree settings root year = (.ok update, after)) :
    ∃ rescan, Scan.collect after settings (settings.resourcesAt root) = .ok rescan ∧
      Scan.SameFindings update.scan rescan := by
  obtain ⟨scan, excluded, hscan, -, rfl⟩ := plan_eq_ok_iff.mp (run_eq_ok_iff.mp hrun).1
  obtain ⟨base, names, hbase, hnames, hplace, hrewrites, hchanges⟩ :=
    place_of_run hclosed hfree hspares hrun
  have hfault := (locate_eq_ok_iff.mp hplace).1
  have hdestination : tree.destinationOf root ++ names.map FileName.plain =
      tree.destinationOf (settings.manifestAt root) := (destinationOf_join_names hnames).symm
  refine Scan.collect_of_rewrites hclosed hrewrites hbase hscan
    (fun name hnone hdirectory hvisible => ?_) (fun file hfound => ?_) (fun file hfound => ?_)
  · have hother : base ++ [name] ≠ tree.destinationOf root ++ names.map FileName.plain := by
      intro hsame
      rw [hsame, hrewrites.written] at hdirectory
      cases hdirectory
    obtain ⟨made, -, hmade, hlocation⟩ := hchanges _ hother (by simp [hnone, hdirectory])
    exact hspares.fileFault?_of_made hmeets hbase hfree hfault hnames hmade hlocation hvisible
  · -- What was there is a values file that declares nothing.
    obtain ⟨hkind, hpath, hbytes⟩ :=
      hspares.values_of_foundAt? hmeets hclosed hbase hfree hdestination hfault hfound
    obtain ⟨resources, hresources⟩ := hspares.resources
    have hlocate : tree.locate (settings.manifestAt root) =
        .ok (tree.destinationOf root ++ names.map FileName.plain) :=
      locate_back hclosed hfree hrewrites.keeps hnames
        (Path.components_eq_named hresources).1 hbase (by simp [hbytes])
        (fun hdirectory => by simp [hrewrites.written] at hdirectory) hplace
    have hread : tree.readBytes (settings.manifestAt root) = .ok file.bytes := by
      rw [readBytes, find?_eq_ok_iff.mpr ⟨_, hlocate, hbytes⟩]
    obtain ⟨text, htext, hnothing⟩ := hspares.silent _ hread
    rw [FoundFile.contents, file.declared_values hkind hpath htext hnothing]
    rfl
  · obtain ⟨hkind, hpath, hbytes⟩ :=
      hspares.values_of_foundAt? hmeets hrewrites.closed hbase hfree hdestination hfault hfound
    rw [hrewrites.written, Option.some.injEq, Entry.file.injEq] at hbytes
    exact file.declared_values hkind hpath (hbytes ▸ textOf_toUTF8 _) (Manifest.read_values _)

end Update

/-- Settings that keep the manifest out of its own scan make updates repeatable. In a tree
without links, a scan after an update finds the same resources in the same files, a check
finds the manifest up to date without changes, and a second update in the same year keeps
and excludes the same and leaves the tree, with the manifest, as it is. -/
theorem undisturbed_by_manifest {tree after : FileTree} {settings : Settings} {root : Path}
    {year : Int} {update : Update} (hclosed : tree.Closed) (hfree : tree.LinkFree)
    (hspares : settings.SparesManifest tree root) (hmeets : settings.MeetsManifest root)
    (hrun : Update.run tree settings root year = (.ok update, after)) :
    (∃ rescan, Scan.collect after settings (settings.resourcesAt root) = .ok rescan ∧
      rescan.resources = update.scan.resources ∧ rescan.origins = update.scan.origins) ∧
    (∃ finding, Check.run after settings root = .ok finding ∧
      finding.drift.isUpToDate = true ∧ finding.drift.changeCount = 0) ∧
    ∃ again, Update.run after settings root year = (.ok again, after) ∧
      again.kept = update.kept ∧ again.excludedCount = update.excludedCount := by
  obtain ⟨rescan, hrescan, hsame⟩ := Update.collect_of_run hclosed hfree hspares hmeets hrun
  have hexclusions := Update.loadExclusions_of_run hclosed hfree hspares hrun
  obtain ⟨hplan, hwritten⟩ := Update.run_eq_ok_iff.mp hrun
  obtain ⟨scan, excluded, hscan, hexcluded, rfl⟩ := Update.plan_eq_ok_iff.mp hplan
  rw [hexcluded] at hexclusions
  refine ⟨⟨rescan, hrescan, hsame.resources_eq.symm, hsame.origins_eq.symm⟩, ?_, ?_⟩
  · have hcommitted := ResourceSet.loadManifest_of_readBytes (Update.readBytes_of_run hclosed hrun)
    have hupToDate : (Drift.between (scan.resources \ excluded)
        (rescan.resources \ excluded)).isUpToDate = true := by
      rw [Drift.isUpToDate_between, hsame.resources_eq]
    exact ⟨_, Check.run_eq_ok_iff.mpr
      ⟨rescan, excluded, _, hrescan, hexclusions, hcommitted, rfl⟩, hupToDate,
      Drift.changeCount_of_isUpToDate hupToDate⟩
  · have hkept : rescan.resources \ excluded = scan.resources \ excluded := by
      rw [hsame.resources_eq]
    refine ⟨⟨rescan, rescan.resources \ excluded⟩, Update.run_eq_ok_iff.mpr
      ⟨Update.plan_eq_ok_iff.mpr ⟨rescan, excluded, hrescan, hexclusions, rfl⟩, ?_⟩, hkept, ?_⟩
    · rw [Update.manifest, hkept]
      exact Update.writeDocument_again hclosed hwritten
    · rw [Update.excludedCount, Update.excludedCount, hkept, hsame.resources_eq]

/-- The usual places of a manifest and its exclusions keep it out of its own scan, as long
as nothing is in its place. -/
theorem Settings.sparesManifest_of_res {settings : Settings} {tree : FileTree} {root : Path}
    (hresources : settings.resources.components = [.named "res"])
    (hmanifest : settings.manifest = ⟨"res/values/overlayable.xml"⟩)
    (hexclusions : settings.exclusions = ⟨"chassis_overlayable.xml"⟩)
    (hnone : tree.find? (settings.manifestAt root) = .error .notFound) :
    settings.SparesManifest tree root where
  resources := ⟨["res"], hresources⟩
  manifest := ⟨["res", "values", "overlayable.xml"], by rw [hmanifest]; decide⟩
  exclusions := ⟨["chassis_overlayable.xml"], by rw [hexclusions]; decide⟩
  apart := by
    rw [hexclusions, hmanifest]
    decide
  placed directory name hcomponents := by
    have hnames : Path.components ⟨"res/values/overlayable.xml"⟩ =
        [.named "res", .named "values", .named "overlayable.xml"] := by decide
    rw [hresources, hmanifest, hnames] at hcomponents
    cases hcomponents
    exact .inr (.inr (.inr rfl))
  silent bytes hbytes := by
    rw [FileTree.readBytes, hnone] at hbytes
    cases hbytes

/-- The project with one raw resource and a directory for its manifest. -/
def rawProjectWithValues : FileTree := (FileTree.rawProject "a").set ["res", "values"] .directory

theorem closed_rawProjectWithValues : rawProjectWithValues.Closed := by decide

theorem linkFree_rawProjectWithValues : rawProjectWithValues.LinkFree := by decide

/-- The tree that an update of this project leaves. -/
def rawProjectUpdated : FileTree :=
  rawProjectWithValues.set ["res", "values", "overlayable.xml"]
    (.file Check.rawManifest.render.toUTF8)

/-- A second update of the project with one raw resource changes nothing. -/
theorem undisturbed_by_manifest_rawProject : ∃ update again,
    rawProjectWithValues.Closed ∧ rawProjectWithValues.LinkFree ∧
      ({} : Settings).SparesManifest rawProjectWithValues ⟨"."⟩ ∧
      ({} : Settings).MeetsManifest ⟨"."⟩ ∧
      Update.run rawProjectWithValues {} ⟨"."⟩ 2024 = (.ok update, rawProjectUpdated) ∧
      Update.run rawProjectUpdated {} ⟨"."⟩ 2024 = (.ok again, rawProjectUpdated) ∧
      again.kept = .ofList [⟨"raw", "a"⟩] := by
  have hclosed := closed_rawProjectWithValues
  have hfree := linkFree_rawProjectWithValues
  have hspares : ({} : Settings).SparesManifest rawProjectWithValues ⟨"."⟩ :=
    Settings.sparesManifest_of_res (by decide) rfl rfl
      (FileTree.find?_of_walk hfree (by decide) rfl rfl)
  have hnames : ({} : Settings).manifest.components =
      ({} : Settings).resources.components ++
        [.named "values", .named "overlayable.xml"] := by decide
  have hmeets : ({} : Settings).MeetsManifest ⟨"."⟩ := by
    constructor
    · intro directory name rest hcomponents _
      rw [hnames] at hcomponents
      cases List.append_cancel_left hcomponents
      decide
    · intro directory name bytes file hcomponents _ _ hselect
      rw [hnames] at hcomponents
      cases List.append_cancel_left hcomponents
      rw [(Discovery.select?_eq_some_iff.mp hselect).1]
      dsimp only
      decide
  have hcollect : ∃ scan, Scan.collect rawProjectWithValues {} ⟨"./res"⟩ = .ok scan ∧
      scan.resources \ ∅ = .ofList [⟨"raw", "a"⟩] := by
    rw [Scan.collect, Discovery.find, FileTree.locate_eq_walk hfree (by decide)]
    exact ⟨_, rfl, rfl⟩
  have hexcluded :
      ResourceSet.loadExclusions rawProjectWithValues ⟨"./chassis_overlayable.xml"⟩ = .ok ∅ :=
    ResourceSet.loadExclusions_of_find? (FileTree.find?_of_walk hfree (by decide) rfl rfl)
  have hwrite : Update.writeDocument rawProjectWithValues ⟨"./res/values/overlayable.xml"⟩
      Check.rawManifest.render = (.ok (), rawProjectUpdated) :=
    Update.writeDocument_of_walk hfree ⟨"./res/values"⟩ (by decide) (by decide)
      rfl rfl (by decide) rfl (by decide)
  obtain ⟨scan, hscan, hkept⟩ := hcollect
  have hrun : Update.run rawProjectWithValues {} ⟨"."⟩ 2024 =
      (.ok ⟨scan, .ofList [⟨"raw", "a"⟩]⟩, rawProjectUpdated) :=
    Update.run_of_kept hscan hexcluded hkept hwrite
  obtain ⟨-, -, again, hagain, hsame, -⟩ :=
    undisturbed_by_manifest hclosed hfree hspares hmeets hrun
  exact ⟨_, again, hclosed, hfree, hspares, hmeets, hrun, hagain, hsame⟩

/-! ## Resource directories with many slashes -/

/-- A values file that was read has a usable path. -/
theorem FoundFile.fileFault?_of_declared {file : FoundFile} (hkind : file.kind = .values)
    {declared : List Resource} (h : file.declared = .ok declared) :
    FileTree.fileFault? file.path = none := by
  rw [FoundFile.declared, hkind] at h
  obtain ⟨content, htext, -⟩ := readDocument_eq_ok_iff.mp h
  unfold FoundFile.readText at htext
  split at htext
  · cases htext
  · rename_i hfault
    exact hfault

/-- The values files that a scan found have usable paths. -/
theorem Scan.fileFault?_of_collect {tree : FileTree} {settings : Settings} {resources : Path}
    {scan : Scan} (h : collect tree settings resources = .ok scan) {base location : Location}
    (hbase : tree.locate resources = .ok base) {file : FoundFile}
    (hfound : tree.foundAt? settings resources base location = some file)
    (hkind : file.kind = .values) : FileTree.fileFault? file.path = none := by
  obtain ⟨files, hfind, hdeclared, -⟩ := collect_eq_ok_iff.mp h
  obtain ⟨base', hbase', -, -, rfl⟩ := Discovery.find_eq_ok_iff.mp hfind
  have hsame : base' = base := Except.ok.inj (hbase'.symm.trans hbase)
  subst hsame
  obtain ⟨declared, hread⟩ :=
    hdeclared file ((FileTree.mem_foundFiles _ _ _ _).mpr ⟨location, hfound⟩)
  exact file.fileFault?_of_declared hkind hread

/-- Settings with slashes after the name of the resource directory. -/
def settingsWithSlashes : Settings := { resources := FileTree.slashed "res" 4075 }

/-- A project without resources. -/
def projectWithValues : FileTree :=
  .ofEntries [(["res"], .directory), (["res", "values"], .directory)]

/-- The tree that an update of this project leaves. -/
def projectUpdated : FileTree :=
  projectWithValues.set ["res", "values", "overlayable.xml"]
    (.file (Manifest.mk "CarSettings" "public" 2024 ∅).render.toUTF8)

theorem lookup?_projectWithValues : ∀ location entry,
    projectWithValues.lookup? location = some entry →
      location ∈ [[], [.plain "res"], [.plain "res", .plain "values"]] ∧ entry = .directory :=
  (FileTree.forall_lookup?_iff (by decide)).mpr (by decide)

theorem resourcesAt_settingsWithSlashes :
    settingsWithSlashes.resourcesAt ⟨"."⟩ = FileTree.slashed "./res" 4075 := by
  have hrelative : (FileTree.slashed "res" 4075).isAbsolute = false := by
    rw [FileTree.isAbsolute_slashed (by decide)]
    decide
  show Path.join ⟨"."⟩ (FileTree.slashed "res" 4075) = _
  rw [Path.join, hrelative, Bool.false_or, if_neg (by decide), if_neg (by decide),
    FileTree.slashed, FileTree.slashed, ← String.append_assoc]
  rfl

theorem components_settingsWithSlashes :
    settingsWithSlashes.resources.components = [.named "res"] := by
  show (FileTree.slashed "res" 4075).components = _
  have hopening : (FileTree.slashed "res" 4075).opening = .plain := by
    rw [Path.opening, FileTree.toList_slashed]
    rfl
  rw [Path.components, Path.filter_steps, FileTree.solidSteps_slashed, hopening]
  decide

/-- The project without resources is scanned and updated. -/
theorem run_settingsWithSlashes : ∃ update,
    Update.run projectWithValues settingsWithSlashes ⟨"."⟩ 2024 = (.ok update, projectUpdated) := by
  have hclosed : projectWithValues.Closed := by decide
  have hfree : projectWithValues.LinkFree := by decide
  have hlocate : projectWithValues.locate ⟨"./res"⟩ = .ok ["res"] := by
    rw [FileTree.locate_eq_walk hfree (by decide)]
    rfl
  have hbase := FileTree.locate_slashed hfree hlocate (by decide)
    (show _ + 4075 ≤ _ by decide)
  have hfault := (FileTree.locate_eq_ok_iff.mp hbase).1
  have hnothing : projectWithValues.foundFiles settingsWithSlashes
      (FileTree.slashed "./res" 4075) ["res"] = [] := by
    rw [List.eq_nil_iff_forall_not_mem]
    intro file hfile
    obtain ⟨location, hfound⟩ := (FileTree.mem_foundFiles _ _ _ _).mp hfile
    obtain ⟨directory, name, bytes, -, hbytes, -⟩ :=
      (FileTree.foundAt?_eq_some_iff hclosed).mp hfound
    cases (lookup?_projectWithValues _ _ hbytes).2
  have hlisted (name : FileName)
      (hdirectory : projectWithValues.lookup? ([.plain "res"] ++ [name]) = some .directory) :
      FileTree.fileFault? (.inside (FileTree.slashed "./res" 4075) name) = none := by
    have hname : name = "values" := by simpa using (lookup?_projectWithValues _ _ hdirectory).1
    subst hname
    have hsize := (FileTree.utf8ByteSize_join (FileTree.slashed "./res" 4075)
      (show '/' ∉ "values".toList by decide)).2
    rw [FileTree.utf8ByteSize_slashed] at hsize
    exact FileTree.textFault?_join hfault (by decide) (by decide)
      (Nat.le_trans hsize (by decide))
  have hcollect : Scan.collect projectWithValues settingsWithSlashes
      (settingsWithSlashes.resourcesAt ⟨"."⟩) = .ok .empty := by
    rw [resourcesAt_settingsWithSlashes]
    exact Scan.collect_eq_ok_iff.mpr ⟨[], Discovery.find_eq_ok_iff.mpr
      ⟨["res"], hbase, by decide, fun name hdirectory _ => hlisted name hdirectory,
        hnothing.symm⟩, by simp, rfl⟩
  have hexcluded :
      ResourceSet.loadExclusions projectWithValues ⟨"./chassis_overlayable.xml"⟩ = .ok ∅ :=
    ResourceSet.loadExclusions_of_find? (FileTree.find?_of_walk hfree (by decide) rfl rfl)
  have hwrite : Update.writeDocument projectWithValues ⟨"./res/values/overlayable.xml"⟩
      (Manifest.mk "CarSettings" "public" 2024 ∅).render = (.ok (), projectUpdated) :=
    Update.writeDocument_of_walk hfree ⟨"./res/values"⟩ (by decide) (by decide)
      rfl rfl (by decide) rfl (by decide)
  exact ⟨_, Update.run_of_kept hcollect hexcluded rfl hwrite⟩

/-- A scan opens the manifest of this project on a path with all the slashes. -/
theorem foundAt?_projectUpdated : projectUpdated.foundAt? settingsWithSlashes
    (FileTree.slashed "./res" 4075) ["res"] ["res", "values", "overlayable.xml"] =
      some ⟨⟨.inside ((FileTree.slashed "./res" 4075).join ⟨"values"⟩) "overlayable.xml",
        .ofName "values"⟩, (Manifest.mk "CarSettings" "public" 2024 ∅).render.toUTF8⟩ := by
  have hclosed : projectUpdated.Closed := by decide
  have hdirectory : ((FileTree.slashed "./res" 4075).join ⟨"values"⟩).text ≠ "" := by
    intro hempty
    have hsize := FileTree.utf8ByteSize_le_join (FileTree.slashed "./res" 4075)
      (show '/' ∉ "values".toList by decide)
    rw [hempty, String.utf8ByteSize_empty, FileTree.utf8ByteSize_slashed] at hsize
    exact absurd hsize (by decide)
  have hname := Path.fileName?_join_name hdirectory
    (show '/' ∉ "overlayable.xml".toList by decide) (by decide) (by decide)
  refine (FileTree.foundAt?_eq_some_iff hclosed).mpr ⟨"values", "overlayable.xml", _, rfl, rfl,
    by decide, by decide, Discovery.select?_eq_some_iff.mpr ⟨rfl, rfl, ?_⟩⟩
  rintro ⟨-, hxml⟩
  dsimp only [ResourceFile.isXml, FilePath.inside, FilePath.extension?, Path.extension?] at hxml
  rw [hname] at hxml
  cases hxml

/-- The path on which a scan opens the manifest can be too long, though the manifest could
be written, and then nothing can be scanned after an update. -/
theorem disturbed_by_manifest : ∃ update,
    projectWithValues.Closed ∧ projectWithValues.LinkFree ∧
      settingsWithSlashes.SparesManifest projectWithValues ⟨"."⟩ ∧
      Update.run projectWithValues settingsWithSlashes ⟨"."⟩ 2024 = (.ok update, projectUpdated) ∧
      ¬ ∃ rescan, Scan.collect projectUpdated settingsWithSlashes
        (settingsWithSlashes.resourcesAt ⟨"."⟩) = .ok rescan := by
  have hfree : projectWithValues.LinkFree := by decide
  have hspares : settingsWithSlashes.SparesManifest projectWithValues ⟨"."⟩ :=
    Settings.sparesManifest_of_res components_settingsWithSlashes rfl rfl
      (FileTree.find?_of_walk hfree (by decide) rfl rfl)
  obtain ⟨update, hrun⟩ := run_settingsWithSlashes
  refine ⟨update, by decide, hfree, hspares, hrun, ?_⟩
  rintro ⟨rescan, hrescan⟩
  rw [resourcesAt_settingsWithSlashes] at hrescan
  have hfreeAfter : projectUpdated.LinkFree := by decide
  have hlocate : projectUpdated.locate ⟨"./res"⟩ = .ok ["res"] := by
    rw [FileTree.locate_eq_walk hfreeAfter (by decide)]
    rfl
  have hbase := FileTree.locate_slashed hfreeAfter hlocate (by decide)
    (show _ + 4075 ≤ _ by decide)
  have hfault := Scan.fileFault?_of_collect hrescan hbase foundAt?_projectUpdated rfl
  have hsize := (FileTree.utf8ByteSize_join_join (FileTree.slashed "./res" 4075)
    (show '/' ∉ "values".toList by decide) (show '/' ∉ "overlayable.xml".toList by decide)).1
  rw [FileTree.utf8ByteSize_slashed] at hsize
  have hlong : ¬ "./res".utf8ByteSize + 4075 + "values".utf8ByteSize +
      "overlayable.xml".utf8ByteSize ≤ FileTree.pathLimit := by decide
  exact hlong (Nat.le_trans hsize (FileTree.textFault?_eq_none_iff.mp hfault).2.2)

end OverlayManifest
