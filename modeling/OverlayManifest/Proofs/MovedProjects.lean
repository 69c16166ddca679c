/-
# Projects that are moved

What an update or a check makes of a project depends neither on where the project stands nor
on how its root is spelled, as long as no path that is used becomes too long there.
-/

import OverlayManifest.Proofs.LocatedAdditions
import OverlayManifest.Proofs.RelevantContent
import OverlayManifest.Proofs.Verdict
import OverlayManifest.Proofs.WritableDocuments

namespace OverlayManifest

namespace Path

/-- What was joined to a root is shown alike from every root. -/
theorem shownFrom_join_eq {root root' path : Path} (hroot : root.text ≠ "")
    (hroot' : root'.text ≠ "") (hrelative : path.isAbsolute = false)
    (hend : (root.join path).EndsSolid) (hend' : (root'.join path).EndsSolid) :
    (root.join path).shownFrom root = (root'.join path).shownFrom root' := by
  rw [shownFrom, shownFrom, stripPrefix?_join_of_endsSolid hroot hrelative hend,
    stripPrefix?_join_of_endsSolid hroot' hrelative hend', Option.getD_some, Option.getD_some]

end Path

namespace FilePath

/-- A path that is joined in a directory below a root is joined to the root. -/
theorem inside_join {root base : Path} {name : FileName} (hrelative : base.isAbsolute = false)
    (hslash : ¬ name.HasSlash) :
    inside (root.join base) name = (inside base name).joinedTo root := by
  cases name with
  | plain name =>
      exact congrArg plain (Path.join_join hrelative (Path.isAbsolute_of_notMem hslash))
  | raw name => rfl

/-- From the root it is shown as if its name were the text that the name is shown as. -/
theorem shownFrom_inside {root base : Path} (hroot : root.text ≠ "")
    (hrelative : base.isAbsolute = false) (name : FileName) :
    (inside (root.join base) name).shownFrom root =
      ((root.join base).join ⟨name.shown⟩).shownFrom root := by
  cases name with
  | plain name => rfl
  | raw name =>
      have hbelow : root.components <+: (root.join base).components := by
        rw [Path.components_join hroot hrelative]
        exact List.prefix_append _ _
      rw [inside, shownFrom, if_pos (List.isPrefixOf_iff_prefix.mpr hbelow)]
      rfl

end FilePath

/-! ## Scans that look alike -/

namespace Scan

/-- Two scans found the same resources in as many files, which are shown alike from two
roots. -/
structure LooksLike (root root' : Path) (scan other : Scan) : Prop where
  resources_eq : scan.resources = other.resources
  fileCount_eq : scan.fileCount = other.fileCount
  shown_eq : ∀ resource : Resource, scan.origins[resource]?.map (·.shownFrom root) =
    other.origins[resource]?.map (·.shownFrom root')

/-- Files that declare the same and are shown alike are added alike. -/
theorem LooksLike.foldl_add {root root' : Path} {files others : List FoundFile}
    (hfiles : List.Forall₂ (fun file other => file.contents = other.contents ∧
      file.path.shownFrom root = other.path.shownFrom root') files others)
    {scan other : Scan} (h : LooksLike root root' scan other) :
    LooksLike root root' (files.foldl add scan) (others.foldl add other) := by
  induction hfiles generalizing scan other with
  | nil => exact h
  | @cons file file' _ _ hsame _ ih =>
      obtain ⟨hcontents, hshown⟩ := hsame
      refine ih ⟨?_, congrArg (· + 1) h.fileCount_eq, fun resource => ?_⟩
      · apply Std.ExtTreeSet.ext_mem
        intro resource
        show resource ∈ (scan.recordAll file.path file.contents).resources ↔
          resource ∈ (other.recordAll file'.path file'.contents).resources
        rw [mem_recordAll, mem_recordAll, h.resources_eq, hcontents]
      · have hknown := h.shown_eq resource
        show (scan.recordAll file.path file.contents).origins[resource]?.map _ =
          (other.recordAll file'.path file'.contents).origins[resource]?.map _
        rw [getElem?_origins_recordAll, getElem?_origins_recordAll, hcontents, Option.map_or,
          Option.map_or, hknown]
        split
        · rw [Option.map_some, Option.map_some, hshown]
        · rfl

end Scan

/-! ## Sites -/

namespace FileTree

/-- The paths in a project that a run uses. -/
inductive Uses (project : FileTree) (settings : Settings) : FilePath → Prop
  | resources : Uses project settings settings.resources
  | manifest : Uses project settings settings.manifest
  | exclusions : Uses project settings settings.exclusions
  | directory {base : Location} {name : FileName}
      (hbase : project.below? settings.resources = .ok base)
      (hdirectory : project.lookup? (base ++ [name]) = some .directory)
      (hvisible : name.isHidden = false) :
      Uses project settings (.inside settings.resources name)
  | file {base : Location} {directory : String} {name : FileName} {bytes : ByteArray}
      (hbase : project.below? settings.resources = .ok base)
      (hfile : (directory, name, bytes) ∈ (project.filesBelow base).filter settings.lists)
      (hopened : (relevantPart (directory, name, bytes)).contents ≠ none) :
      Uses project settings (.inside (settings.resources.join ⟨directory⟩) name)

/-- A project stands where a root leads in a tree, and what a run uses of it has a path there
that is not too long. -/
structure Site (project : FileTree) (settings : Settings) (tree : FileTree) (root : Path)
    (location : Location) : Prop where
  closed : tree.Closed
  named : tree.Named
  houses : Houses tree project root location
  fits : ∀ path, project.Uses settings path → (path.joinedTo root).size ≤ pathLimit

end FileTree

/-- The paths of the settings lead down from the root of a project. -/
structure Settings.LeadsDown (settings : Settings) : Prop where
  resources : settings.resources.IsNamed
  manifest : settings.manifest.IsNamed
  exclusions : settings.exclusions.IsNamed

namespace FileTree.Site

variable {project tree : FileTree} {settings : Settings} {root : Path} {location base : Location}

/-- What a run uses in a directory can be opened unless a zero stands in its path. -/
theorem fileFault?_inside_iff (hsite : Site project settings tree root location) {base : Path}
    {name : FileName} (huses : project.Uses settings (.inside base name))
    (hrelative : base.isAbsolute = false) (hname : IsName name) :
    fileFault? (.inside (root.join base) name) = none ↔ ¬ (FilePath.inside base name).HasZero := by
  rw [FilePath.inside_join hrelative hname.noSlash,
    fileFault?_joinedTo_of_fits hsite.houses.rootAt.textFault?_eq hrelative hname.noSlash
      (hsite.fits _ huses)]
  split
  · rename_i hzero
    simp [hzero]
  · rename_i hzero
    simp [hzero]

/-- The files of the project are those below its location. -/
theorem filesBelow_eq (hsite : Site project settings tree root location) (base : Location) :
    tree.filesBelow (location ++ base) = project.filesBelow base := by
  apply filesBelow_congr
  intro below
  rw [List.append_assoc, hsite.houses.lookup?_eq]

/-- Whatever stands in the project is reached by names. -/
theorem named_project (hsite : Site project settings tree root location) : project.Named := by
  intro below hbelow name hname
  rw [← hsite.houses.lookup?_eq] at hbelow
  exact hsite.named (location ++ below) hbelow name (List.mem_append_right location hname)

/-- The path of a directory of the resources, from the root. -/
theorem join_directory (hresources : settings.resources.IsNamed) (root : Path)
    {directory : String} (hdirectory : '/' ∉ directory.toList) :
    (settings.resources.join ⟨directory⟩).isAbsolute = false ∧
      (settings.resourcesAt root).join ⟨directory⟩ =
        root.join (settings.resources.join ⟨directory⟩) := by
  have hrelative := isAbsolute_of_isNamed hresources
  have hname := Path.isAbsolute_of_notMem hdirectory
  exact ⟨(Path.isAbsolute_join hname).trans hrelative, Path.join_join hrelative hname⟩

/-- What a file of the project declares does not depend on where the project stands. -/
theorem declared_iff (hsite : Site project settings tree root location)
    (hresources : settings.resources.IsNamed) (hbase : project.below? settings.resources = .ok base)
    {directory : String} {name : FileName} {bytes : ByteArray}
    (hfile : (directory, name, bytes) ∈ (project.filesBelow base).filter settings.lists)
    {declared : List Resource} :
    (FoundFile.under (settings.resourcesAt root) (directory, name, bytes)).declared =
        .ok declared ↔
      ((relevantPart (directory, name, bytes)).contents ≠ none →
        ¬ (FilePath.inside (settings.resources.join ⟨directory⟩) name).HasZero) ∧
      (relevantPart (directory, name, bytes)).declared? = some declared := by
  obtain ⟨hbelow, hlists⟩ := List.mem_filter.mp hfile
  have hstands : (FoundFile.under (settings.resourcesAt root) (directory, name, bytes)).StandsIn
      (settings.resourcesAt root) directory name :=
    FoundFile.standsIn_under hsite.named_project hbelow
  have hlisted : isListed (directory, name, bytes) = true := by
    rw [Settings.lists, Bool.and_eq_true] at hlists
    exact hlists.2
  obtain ⟨hrelative, hjoin⟩ := join_directory hresources root hstands.isName_directory.noSlash
  rw [FoundFile.declared_under_eq_ok_iff hstands hlisted, hjoin]
  refine and_congr_left fun _ => forall_congr' fun hopened => ?_
  exact hsite.fileFault?_inside_iff (.file hbase hfile hopened) hrelative hstands.isName

/-- The files that are found are those of the project, under their paths from the root. -/
theorem find_eq_ok_iff (hsite : Site project settings tree root location)
    (hresources : settings.resources.IsNamed) {files : List FoundFile} :
    Discovery.find tree settings (settings.resourcesAt root) = .ok files ↔
      ∃ base, project.below? settings.resources = .ok base ∧
        project.lookup? base = some .directory ∧
        (∀ name, project.lookup? (base ++ [name]) = some .directory → name.isHidden = false →
          ¬ (FilePath.inside settings.resources name).HasZero) ∧
        files = ((project.filesBelow base).filter settings.lists).map
          (FoundFile.under (settings.resourcesAt root)) := by
  have hlocate := hsite.houses.locate_join hresources (hsite.fits _ .resources)
  have hnamed : (settings.resourcesAt root).text ≠ "" :=
    Path.text_join_ne hsite.houses.rootAt.text_ne (isAbsolute_of_isNamed hresources)
  have hlisted {base : Location} (hbase : project.below? settings.resources = .ok base)
      (name : FileName) : (tree.lookup? (location ++ base ++ [name]) = some .directory →
        name.isHidden = false →
          fileFault? (.inside (settings.resourcesAt root) name) = none) ↔
      (project.lookup? (base ++ [name]) = some .directory → name.isHidden = false →
        ¬ (FilePath.inside settings.resources name).HasZero) := by
    rw [List.append_assoc, hsite.houses.lookup?_eq]
    refine forall_congr' fun hdirectory => forall_congr' fun hvisible => ?_
    have hname := hsite.named_project (base ++ [name]) (by simp [hdirectory]) name (by simp)
    exact hsite.fileFault?_inside_iff (.directory hbase hdirectory hvisible)
      (isAbsolute_of_isNamed hresources) hname
  rw [Discovery.find_eq_ok_iff]
  constructor
  · rintro ⟨place, hplace, hdirectory, hlists, rfl⟩
    rw [Settings.resourcesAt, hlocate] at hplace
    cases hbase : project.below? settings.resources with
    | error fault =>
        rw [hbase] at hplace
        cases hplace
    | ok base =>
        rw [hbase] at hplace
        cases hplace
        rw [hsite.houses.lookup?_eq] at hdirectory
        refine ⟨base, rfl, hdirectory, fun name => (hlisted hbase name).mp (hlists name), ?_⟩
        rw [foundFiles_eq_map hsite.named settings hnamed, hsite.filesBelow_eq]
  · rintro ⟨base, hbase, hdirectory, hlists, rfl⟩
    refine ⟨location ++ base, ?_, ?_, fun name => (hlisted hbase name).mpr (hlists name), ?_⟩
    · rw [Settings.resourcesAt, hlocate, hbase]
      rfl
    · rw [hsite.houses.lookup?_eq, hdirectory]
    · rw [foundFiles_eq_map hsite.named settings hnamed, hsite.filesBelow_eq]

end FileTree.Site

/-! ## Two sites -/

section Sites

variable {project tree other : FileTree} {settings : Settings} {root root' : Path}
  {location location' : Location}

/-- A file of the project is shown alike from both roots. -/
theorem Path.shownFrom_under (hsite : project.Site settings tree root location)
    (hsite' : project.Site settings other root' location')
    (hresources : settings.resources.IsNamed) {directory : String} {name : FileName}
    {bytes : ByteArray} {base : Location}
    (hfile : (directory, name, bytes) ∈ project.filesBelow base) :
    (FoundFile.under (settings.resourcesAt root) (directory, name, bytes)).path.shownFrom root =
      (FoundFile.under (settings.resourcesAt root') (directory, name, bytes)).path.shownFrom
        root' := by
  have hstands : (FoundFile.under (settings.resourcesAt root) (directory, name, bytes)).StandsIn
      (settings.resourcesAt root) directory name :=
    FoundFile.standsIn_under hsite.named_project hfile
  have hslash := hstands.isName.slash_notMem_shown
  have hdirectory : '/' ∉ directory.toList := hstands.isName_directory.noSlash
  have hfileName := Path.isAbsolute_of_notMem hslash
  obtain ⟨hrelative, -⟩ := FileTree.Site.join_directory hresources root hdirectory
  have hshown {root : Path} (hroot : root.text ≠ "") :
      (FoundFile.under (settings.resourcesAt root) (directory, name, bytes)).path.shownFrom root =
        (root.join ((settings.resources.join ⟨directory⟩).join ⟨name.shown⟩)).shownFrom root ∧
      (root.join ((settings.resources.join ⟨directory⟩).join ⟨name.shown⟩)).EndsSolid := by
    have hjoin := (FileTree.Site.join_directory hresources root hdirectory).2
    have hbase : (root.join (settings.resources.join ⟨directory⟩)).text ≠ "" :=
      text_join_ne hroot hrelative
    rw [FoundFile.under, hjoin, FilePath.shownFrom_inside hroot hrelative,
      ← join_join hrelative hfileName]
    exact ⟨rfl, endsSolid_join_name hbase hslash hstands.isName.isVoid_shown⟩
  have hroot := hsite.houses.rootAt.text_ne
  have hroot' := hsite'.houses.rootAt.text_ne
  rw [(hshown hroot).1, (hshown hroot').1]
  exact shownFrom_join_eq hroot hroot' ((isAbsolute_join hfileName).trans hrelative)
    (hshown hroot).2 (hshown hroot').2

/-- Scans of the project look alike. -/
theorem Scan.exists_looksLike (hsite : project.Site settings tree root location)
    (hsite' : project.Site settings other root' location')
    (hresources : settings.resources.IsNamed) {scan : Scan}
    (h : Scan.collect tree settings (settings.resourcesAt root) = .ok scan) :
    ∃ scan', Scan.collect other settings (settings.resourcesAt root') = .ok scan' ∧
      Scan.LooksLike root root' scan scan' := by
  obtain ⟨files, hfind, hdeclared, rfl⟩ := collect_eq_ok_iff.mp h
  obtain ⟨base, hbase, hdirectory, hlists, rfl⟩ := (hsite.find_eq_ok_iff hresources).mp hfind
  have hfind' := (hsite'.find_eq_ok_iff hresources).mpr ⟨base, hbase, hdirectory, hlists, rfl⟩
  have hfiles (file : String × FileName × ByteArray)
      (hfile : file ∈ (project.filesBelow base).filter settings.lists) :
      ∃ declared, (FoundFile.under (settings.resourcesAt root) file).declared = .ok declared ∧
        (FoundFile.under (settings.resourcesAt root') file).declared = .ok declared := by
    obtain ⟨declared, hread⟩ := hdeclared _ (List.mem_map_of_mem hfile)
    exact ⟨declared, hread, (hsite'.declared_iff hresources hbase hfile).mpr
      ((hsite.declared_iff hresources hbase hfile).mp hread)⟩
  refine ⟨_, collect_eq_ok_iff.mpr ⟨_, hfind', fun file hfile => ?_, rfl⟩, ?_⟩
  · obtain ⟨below, hbelow, rfl⟩ := List.mem_map.mp hfile
    obtain ⟨declared, -, hread⟩ := hfiles below hbelow
    exact ⟨declared, hread⟩
  · apply LooksLike.foldl_add
    · rw [List.forall₂_map_left_iff, List.forall₂_map_right_iff, List.forall₂_same]
      intro file hfile
      obtain ⟨declared, hread, hread'⟩ := hfiles file hfile
      refine ⟨by rw [FoundFile.contents, FoundFile.contents, hread, hread'], ?_⟩
      exact Path.shownFrom_under hsite hsite' hresources (List.mem_filter.mp hfile).1
    · exact ⟨rfl, rfl, fun resource => rfl⟩

/-- What leads to the same thing loads the same, if it loads. -/
theorem ResourceSet.load_of_find?_eq {path path' : Path} {set : ResourceSet}
    (hfound : tree.find? path = other.find? path') (h : load tree path = .ok set) :
    load other path' = .ok set := by
  have htext : tree.readText path = other.readText path' := by
    rw [FileTree.readText, FileTree.readText, FileTree.readBytes, FileTree.readBytes, hfound]
  rw [load, htext] at h
  cases hread : readDocument path (other.readText path') Document.Listing.read with
  | error failure =>
      rw [hread] at h
      cases h
  | ok listed =>
      rw [hread] at h
      rw [load, readDocument_eq_ok_iff.mpr (readDocument_eq_ok_iff.mp hread), h]

theorem ResourceSet.loadExclusions_of_find?_eq {path path' : Path} {set : ResourceSet}
    (hfound : tree.find? path = other.find? path') (h : loadExclusions tree path = .ok set) :
    loadExclusions other path' = .ok set := by
  have hentry : tree.hasEntry path = other.hasEntry path' := by
    rw [FileTree.hasEntry, FileTree.hasEntry, hfound]
  rw [loadExclusions, hentry] at h
  rw [loadExclusions]
  split at h
  · rename_i hthere
    rw [if_pos hthere]
    exact load_of_find?_eq hfound h
  · rename_i hmissing
    rw [if_neg hmissing, h]

theorem ResourceSet.loadManifest_of_find?_eq {path path' : Path} {set : ResourceSet}
    (hfound : tree.find? path = other.find? path') (h : loadManifest tree path = .ok set) :
    tree.hasFile path = true ∧ loadManifest other path' = .ok set := by
  have hfile : tree.hasFile path = other.hasFile path' := by
    rw [FileTree.hasFile, FileTree.hasFile, hfound]
  rw [loadManifest] at h
  split at h
  · rename_i hthere
    rw [loadManifest, if_pos (hfile ▸ hthere)]
    exact ⟨hthere, load_of_find?_eq hfound h⟩
  · cases h

/-- Paths of names that are used lead to the same at both sites. -/
theorem FileTree.Site.find?_eq (hsite : project.Site settings tree root location)
    (hsite' : project.Site settings other root' location') {path : Path} (hpath : path.IsNamed)
    (huses : project.Uses settings path) :
    tree.find? (root.join path) = other.find? (root'.join path) := by
  rw [hsite.houses.find?_join hpath (hsite.fits path huses),
    hsite'.houses.find?_join hpath (hsite'.fits path huses)]

/-- An update that succeeds at one site succeeds at the other, and finds and keeps the same. -/
theorem Update.exists_run (hsettings : settings.LeadsDown)
    (hsite : project.Site settings tree root location)
    (hsite' : project.Site settings other root' location') {year : Int} {update : Update}
    {after : FileTree} (h : Update.run tree settings root year = (.ok update, after)) :
    ∃ update' after', Update.run other settings root' year = (.ok update', after') ∧
      update.kept = update'.kept ∧ Scan.LooksLike root root' update.scan update'.scan := by
  obtain ⟨hplan, hwritten⟩ := run_eq_ok_iff.mp h
  obtain ⟨scan, excluded, hscan, hexcluded, rfl⟩ := plan_eq_ok_iff.mp hplan
  obtain ⟨scan', hscan', hlooks⟩ := Scan.exists_looksLike hsite hsite' hsettings.resources hscan
  have hexclusions := hsite.find?_eq hsite' hsettings.exclusions .exclusions
  have hexcluded' := ResourceSet.loadExclusions_of_find?_eq hexclusions hexcluded
  have hhold : tree.CanHold location settings.manifest :=
    (exists_writeDocument_iff hsite.closed hsite.houses.rootAt hsettings.manifest
      (hsite.fits _ .manifest)).mp ⟨_, hwritten⟩
  have hhold' : other.CanHold location' settings.manifest := by
    apply hhold.congr
    intro below
    rw [hsite.houses.lookup?_eq, hsite'.houses.lookup?_eq]
  obtain ⟨after', hafter⟩ := (exists_writeDocument_iff hsite'.closed hsite'.houses.rootAt
    hsettings.manifest (hsite'.fits _ .manifest)).mpr hhold'
  exact ⟨_, after', run_of_kept hscan' hexcluded' rfl hafter,
    by rw [hlooks.resources_eq], hlooks⟩

/-- A check that succeeds at one site succeeds at the other, and reports the same. -/
theorem Check.exists_run (hsettings : settings.LeadsDown)
    (hsite : project.Site settings tree root location)
    (hsite' : project.Site settings other root' location') {finding : Report.Finding}
    (h : Check.run tree settings root = .ok finding) :
    ∃ finding', Check.run other settings root' = .ok finding' ∧ finding.drift = finding'.drift ∧
      finding.shownManifest = finding'.shownManifest ∧
      finding.shownOrigin = finding'.shownOrigin := by
  obtain ⟨scan, excluded, committed, hscan, hexcluded, hcommitted, rfl⟩ := run_eq_ok_iff.mp h
  obtain ⟨scan', hscan', hlooks⟩ := Scan.exists_looksLike hsite hsite' hsettings.resources hscan
  have hexclusions := hsite.find?_eq hsite' hsettings.exclusions .exclusions
  have hmanifest := hsite.find?_eq hsite' hsettings.manifest .manifest
  have hexcluded' := ResourceSet.loadExclusions_of_find?_eq hexclusions hexcluded
  obtain ⟨hfile, hcommitted'⟩ := ResourceSet.loadManifest_of_find?_eq hmanifest hcommitted
  refine ⟨_, run_eq_ok_iff.mpr ⟨scan', excluded, committed, hscan', hexcluded', hcommitted', rfl⟩,
    ?_, ?_, ?_⟩
  · rw [hlooks.resources_eq]
  · have hends := hsite.houses.rootAt.endsNamed_of_hasFile hsettings.manifest
      (hsite.fits _ .manifest) hfile
    have hrelative := FileTree.isAbsolute_of_isNamed hsettings.manifest
    exact Path.shownFrom_join_eq hsite.houses.rootAt.text_ne hsite'.houses.rootAt.text_ne
      hrelative (hends.endsSolid_join hrelative root) (hends.endsSolid_join hrelative root')
  · funext resource
    exact hlooks.shown_eq resource

end Sites

/-- Of the same drift, shown alike, a report that goes to no file prints the same. -/
theorem Report.exists_printed {report : Report} {finding finding' : Report.Finding}
    (hdrift : finding.drift = finding'.drift)
    (hmanifest : finding.shownManifest = finding'.shownManifest)
    (horigin : finding.shownOrigin = finding'.shownOrigin) (houtput : report.output = none) :
    ∃ printed, ∀ tree other : FileTree, report.deliver tree finding = .ok (printed, tree) ∧
      report.deliver other finding' = .ok (printed, other) := by
  cases hform : report.asData with
  | false =>
      have hterminal : finding.terminalText report.coloured =
          finding'.terminalText report.coloured := by
        rw [Finding.terminalText, Finding.terminalText, hdrift, hmanifest, horigin]
      refine ⟨finding.terminalText report.coloured, fun tree other => ?_⟩
      rw [deliver_terminal hform, deliver_terminal hform, hterminal]
      exact ⟨rfl, rfl⟩
  | true =>
      have hdata : finding.dataText = finding'.dataText := by
        rw [Finding.dataText, Finding.dataText, hdrift, hmanifest, horigin]
      refine ⟨finding.dataText ++ "\n", fun tree other => ?_⟩
      rw [deliver_data hform houtput, deliver_data hform houtput, hdata]
      exact ⟨rfl, rfl⟩

/-- Two updates both fail, or they keep the same of as many resources and files and write the
same manifest. -/
structure Update.Matches (first last : Except Failure Update × FileTree)
    (manifest manifest' : Path) : Prop where
  succeeds_iff : (∃ update after, first = (.ok update, after)) ↔
    ∃ update after, last = (.ok update, after)
  found : ∀ {update update' after after'}, first = (.ok update, after) →
    last = (.ok update', after') → update.kept = update'.kept ∧
      update.scan.fileCount = update'.scan.fileCount ∧
      update.excludedCount = update'.excludedCount ∧
      ∃ bytes, after.readBytes manifest = .ok bytes ∧ after'.readBytes manifest' = .ok bytes

/-- Two checks both fail, or they find the same drift, and every report that goes to no file
prints the same. -/
structure Check.Matches (first last : Except Failure Report.Finding) : Prop where
  succeeds_iff : (∃ finding, first = .ok finding) ↔ ∃ finding, last = .ok finding
  found : ∀ {finding finding'}, first = .ok finding → last = .ok finding' →
    finding.drift = finding'.drift ∧ ∀ report : Report, report.output = none →
      ∃ printed, ∀ tree other : FileTree, report.deliver tree finding = .ok (printed, tree) ∧
        report.deliver other finding' = .ok (printed, other)

section Sites

variable {project tree other : FileTree} {settings : Settings} {root root' : Path}
  {location location' : Location}

/-- Wherever a project without links stands, and however its root is spelled, updates and
checks of it end alike, as long as the paths that are used are not too long. -/
theorem FileTree.Site.runs_match (hsettings : settings.LeadsDown)
    (hsite : project.Site settings tree root location)
    (hsite' : project.Site settings other root' location') :
    (∀ year, Update.Matches (Update.run tree settings root year)
      (Update.run other settings root' year) (settings.manifestAt root)
      (settings.manifestAt root')) ∧
    Check.Matches (Check.run tree settings root) (Check.run other settings root') := by
  refine ⟨fun year => ⟨⟨?_, ?_⟩, ?_⟩, ⟨⟨?_, ?_⟩, ?_⟩⟩
  · rintro ⟨update, after, hrun⟩
    obtain ⟨update', after', hrun', -⟩ := Update.exists_run hsettings hsite hsite' hrun
    exact ⟨update', after', hrun'⟩
  · rintro ⟨update, after, hrun⟩
    obtain ⟨update', after', hrun', -⟩ := Update.exists_run hsettings hsite' hsite hrun
    exact ⟨update', after', hrun'⟩
  · intro update update' after after' hrun hrun'
    obtain ⟨_, _, hsame, hkept, hlooks⟩ := Update.exists_run hsettings hsite hsite' hrun
    cases hsame.symm.trans hrun'
    refine ⟨hkept, hlooks.fileCount_eq, ?_, _, Update.readBytes_of_run hsite.closed hrun, ?_⟩
    · rw [Update.excludedCount, Update.excludedCount, hlooks.resources_eq, hkept]
    · rw [Update.readBytes_of_run hsite'.closed hrun', Update.manifest, Update.manifest, hkept]
  · rintro ⟨finding, hrun⟩
    obtain ⟨finding', hrun', -⟩ := Check.exists_run hsettings hsite hsite' hrun
    exact ⟨finding', hrun'⟩
  · rintro ⟨finding, hrun⟩
    obtain ⟨finding', hrun', -⟩ := Check.exists_run hsettings hsite' hsite hrun
    exact ⟨finding', hrun'⟩
  · intro finding finding' hrun hrun'
    obtain ⟨_, hsame, hdrift, hmanifest, horigin⟩ := Check.exists_run hsettings hsite hsite' hrun
    cases hsame.symm.trans hrun'
    exact ⟨hdrift, fun report => Report.exists_printed hdrift hmanifest horigin⟩

end Sites

/-! ## A project at two places -/

open Check (besideResources rawTwiceBeside)

/-- The project with two raw files and a manifest, two directories further down. -/
def movedTwice : FileTree :=
  .ofEntries ((["x"], .directory) :: (["x", "y"], .directory) ::
    rawTwiceBeside.entries.toList.map fun (below, entry) =>
      (.plain "x" :: .plain "y" :: below, entry))

theorem lookup?_movedTwice (below : Location) :
    movedTwice.lookup? ([.plain "x", .plain "y"] ++ below) = rawTwiceBeside.lookup? below := by
  have hentries : rawTwiceBeside.entries.toList.map
      (fun pair => movedTwice.lookup? ([.plain "x", .plain "y"] ++ pair.1)) =
        rawTwiceBeside.entries.toList.map fun pair => some pair.2 := rfl
  have hthere : ∀ below entry, rawTwiceBeside.lookup? below = some entry →
      movedTwice.lookup? ([.plain "x", .plain "y"] ++ below) = some entry :=
    (FileTree.forall_lookup?_iff rfl).mpr fun pair hpair =>
      .inr (List.map_inj_left.mp hentries pair hpair)
  have hback : ∀ location entry, movedTwice.lookup? location = some entry →
      location.take 2 ≠ [.plain "x", .plain "y"] ∨ rawTwiceBeside.lookup? (location.drop 2) ≠ none :=
    (FileTree.forall_lookup?_iff (by decide)).mpr (by decide)
  cases hbelow : rawTwiceBeside.lookup? below with
  | some entry => exact hthere below entry hbelow
  | none =>
      rw [Option.eq_none_iff_forall_ne_some]
      intro entry hentry
      rcases hback _ entry hentry with hother | hfound
      · exact hother rfl
      · exact hfound hbelow

/-- The project can be used where its paths are short enough. -/
theorem site_rawTwiceBeside {tree : FileTree} {root : Path} {location : Location}
    (hclosed : tree.Closed) (hnamed : tree.Named)
    (hhouses : tree.Houses rawTwiceBeside root location)
    (hfits : ∀ text ∈ ["res", "overlayable.xml", "chassis_overlayable.xml", "res/raw",
      "res/raw-de"], (root.join ⟨text⟩).text.utf8ByteSize ≤ FileTree.pathLimit) :
    rawTwiceBeside.Site besideResources tree root location := by
  have hbase : rawTwiceBeside.below? besideResources.resources = .ok ["res"] := rfl
  have hdirectories : ∀ location entry, rawTwiceBeside.lookup? location = some entry →
      entry = .directory → location ∈ [[], [.plain "res"], [.plain "res", .plain "raw"],
        [.plain "res", .plain "raw-de"]] :=
    (FileTree.forall_lookup?_iff (by decide)).mpr (by decide)
  have hopened : ∀ file ∈ (rawTwiceBeside.filesBelow ["res"]).filter besideResources.lists,
      (relevantPart file).contents = none := by decide
  refine ⟨hclosed, hnamed, hhouses, fun path huses => ?_⟩
  cases huses with
  | resources => exact hfits _ (by decide)
  | manifest => exact hfits _ (by decide)
  | exclusions => exact hfits _ (by decide)
  | directory hplace hdirectory _ =>
      cases hbase.symm.trans hplace
      have hname := hdirectories _ _ hdirectory rfl
      simp only [List.singleton_append, List.mem_cons, reduceCtorEq, List.cons.injEq, true_and,
        List.not_mem_nil, or_false, false_or] at hname
      rcases hname with ⟨rfl, -⟩ | ⟨rfl, -⟩
      · exact hfits "res/raw" (by decide)
      · exact hfits "res/raw-de" (by decide)
  | file hplace hfile hcontents =>
      cases hbase.symm.trans hplace
      exact absurd (hopened _ hfile) hcontents

theorem leadsDown_besideResources : besideResources.LeadsDown :=
  ⟨⟨["res"], by decide⟩, ⟨["overlayable.xml"], by decide⟩,
    ⟨["chassis_overlayable.xml"], by decide⟩⟩

theorem houses_rawTwiceBeside : rawTwiceBeside.Houses rawTwiceBeside ⟨"."⟩ [] := by
  have hfree := Check.linkFree_rawTwiceBeside
  refine ⟨hfree, ?_, fun _ => rfl⟩
  rw [FileTree.locate_eq_walk hfree (by decide)]
  rfl

/-- The manifest of this project can be updated. -/
theorem exists_update_rawTwiceBeside : ∃ update after,
    Update.run rawTwiceBeside besideResources ⟨"."⟩ 2024 = (.ok update, after) := by
  obtain ⟨finding, hrun, -⟩ := Check.run_rawTwiceBeside
  obtain ⟨scan, excluded, committed, hscan, hexcluded, -, -⟩ := Check.run_eq_ok_iff.mp hrun
  have hhold : rawTwiceBeside.CanHold [] besideResources.manifest :=
    { noZero := by decide
      ends := ⟨[], "overlayable.xml", by decide, by decide⟩
      short := by decide
      lookup?_cases := fun above habove => .inl (by rw [List.prefix_nil.mp habove]; rfl)
      place := by decide }
  have hwritten : ∃ after, Update.writeDocument rawTwiceBeside (besideResources.manifestAt ⟨"."⟩)
      (Manifest.mk "CarSettings" "public" 2024 (scan.resources \ excluded)).render =
        (.ok (), after) :=
    Update.writeDocument_of_canHold (by decide) houses_rawTwiceBeside.rootAt
      leadsDown_besideResources.manifest (by decide) hhold
  obtain ⟨after, hafter⟩ := hwritten
  exact ⟨_, after, Update.run_of_kept hscan hexcluded rfl hafter⟩

/-- The project of two raw files is checked and updated alike at the top of a tree and below
two directories. -/
theorem FileTree.Site.runs_match_movedTwice :
    besideResources.LeadsDown ∧
      rawTwiceBeside.Site besideResources rawTwiceBeside ⟨"."⟩ [] ∧
      rawTwiceBeside.Site besideResources movedTwice ⟨"./x//y/"⟩ ["x", "y"] ∧
      (∃ finding finding', Check.run rawTwiceBeside besideResources ⟨"."⟩ = .ok finding ∧
        Check.run movedTwice besideResources ⟨"./x//y/"⟩ = .ok finding' ∧
        finding'.drift = ⟨[⟨"raw", "a"⟩], [⟨"raw", "gone"⟩]⟩) ∧
      ∃ update update' after after',
        Update.run rawTwiceBeside besideResources ⟨"."⟩ 2024 = (.ok update, after) ∧
        Update.run movedTwice besideResources ⟨"./x//y/"⟩ 2024 = (.ok update', after') ∧
        update.kept = update'.kept := by
  have hmovedFree : movedTwice.LinkFree := by decide
  have hthere : movedTwice.locate ⟨"./x//y/"⟩ = .ok ["x", "y"] := by
    rw [FileTree.locate_eq_walk hmovedFree (by decide)]
    rfl
  have hsite : rawTwiceBeside.Site besideResources rawTwiceBeside ⟨"."⟩ [] :=
    site_rawTwiceBeside (by decide) (by decide) houses_rawTwiceBeside
      (by decide)
  have hsite' : rawTwiceBeside.Site besideResources movedTwice ⟨"./x//y/"⟩ ["x", "y"] :=
    site_rawTwiceBeside (by decide) (by decide)
      ⟨houses_rawTwiceBeside.linkFree, hthere, lookup?_movedTwice⟩ (by decide)
  obtain ⟨hupdates, hchecks⟩ :=
    FileTree.Site.runs_match leadsDown_besideResources hsite hsite'
  obtain ⟨finding, hrun, hdrift⟩ := Check.run_rawTwiceBeside
  obtain ⟨finding', hrun'⟩ := hchecks.succeeds_iff.mp ⟨finding, hrun⟩
  obtain ⟨update, after, hupdate⟩ := exists_update_rawTwiceBeside
  obtain ⟨update', after', hupdate'⟩ := (hupdates 2024).succeeds_iff.mp ⟨_, _, hupdate⟩
  refine ⟨leadsDown_besideResources, hsite, hsite', ⟨finding, finding', hrun, hrun', ?_⟩,
    update, update', after, after', hupdate, hupdate',
    ((hupdates 2024).found hupdate hupdate').1⟩
  rw [← (hchecks.found hrun hrun').1, hdrift]

/-- With many slashes after it, a root still leads to the project, but the path of the
resources from there is too long. -/
theorem FileTree.Site.not_matches_of_slashes :
    besideResources.LeadsDown ∧ rawTwiceBeside.Closed ∧ rawTwiceBeside.Named ∧
      rawTwiceBeside.Houses rawTwiceBeside ⟨"."⟩ [] ∧
      rawTwiceBeside.Houses rawTwiceBeside (FileTree.slashed "." 4094) [] ∧
      ¬ Update.Matches (Update.run rawTwiceBeside besideResources ⟨"."⟩ 2024)
        (Update.run rawTwiceBeside besideResources (FileTree.slashed "." 4094) 2024)
        (besideResources.manifestAt ⟨"."⟩)
        (besideResources.manifestAt (FileTree.slashed "." 4094)) ∧
      ¬ Check.Matches (Check.run rawTwiceBeside besideResources ⟨"."⟩)
        (Check.run rawTwiceBeside besideResources (FileTree.slashed "." 4094)) := by
  have hhouses := houses_rawTwiceBeside
  have hlocate : rawTwiceBeside.locate (FileTree.slashed "." 4094) = .ok [] :=
    FileTree.locate_slashed hhouses.linkFree hhouses.locate_eq rfl
      (show _ + 4094 ≤ _ by decide)
  have hlonger := (FileTree.utf8ByteSize_join (FileTree.slashed "." 4094)
    (show '/' ∉ "res".toList by decide)).1
  rw [FileTree.utf8ByteSize_slashed] at hlonger
  have hlong : ¬ ".".utf8ByteSize + 4094 + "res".utf8ByteSize ≤ FileTree.pathLimit := by
    decide
  have hfails : ∀ scan, Scan.collect rawTwiceBeside besideResources
      (besideResources.resourcesAt (FileTree.slashed "." 4094)) ≠ .ok scan := by
    intro scan hscan
    obtain ⟨files, hfind, -⟩ := Scan.collect_eq_ok_iff.mp hscan
    obtain ⟨base, hbase, -⟩ := Discovery.find_eq_ok_iff.mp hfind
    have hfault := (FileTree.locate_eq_ok_iff.mp hbase).1
    exact hlong (hlonger.trans (FileTree.textFault?_eq_none_iff.mp hfault).2.2)
  refine ⟨leadsDown_besideResources, by decide, by decide, hhouses,
    ⟨hhouses.linkFree, hlocate, fun _ => rfl⟩, fun hmatches => ?_, fun hmatches => ?_⟩
  · obtain ⟨update, after, hrun⟩ := hmatches.succeeds_iff.mp exists_update_rawTwiceBeside
    obtain ⟨hplan, -⟩ := Update.run_eq_ok_iff.mp hrun
    obtain ⟨scan, -, hscan, -⟩ := Update.plan_eq_ok_iff.mp hplan
    exact hfails scan hscan
  · obtain ⟨here, hhere, -⟩ := Check.run_rawTwiceBeside
    obtain ⟨finding, hrun⟩ := hmatches.succeeds_iff.mp ⟨here, hhere⟩
    obtain ⟨scan, -, -, hscan, -⟩ := Check.run_eq_ok_iff.mp hrun
    exact hfails scan hscan

end OverlayManifest
