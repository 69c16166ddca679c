/-
# Where added resources are declared

A check knows the file of every resource that it finds added: the first of the found files
that declares it. The report names that file, as it is seen from the root of the project, with
each added resource and with no removed one, on a terminal as in data.
-/

import OverlayManifest.Proofs.DriftDetection
import OverlayManifest.Proofs.JsonReading
import OverlayManifest.Proofs.ScanUnion
import OverlayManifest.Proofs.ShownPaths

namespace OverlayManifest

namespace Report

open OverlayManifest.Json (Value)

/-- The line of an added resource with the file that declares it. -/
def Terminal.locatedLine (coloured : Bool) (resource : Resource) (file : String) : List Char :=
  [' ', ' '] ++ Style.paint coloured .addedMark ['+'] ++ [' '] ++ resource.display.toList ++
    ' ' :: Style.paint coloured .origin ('(' :: file.toList ++ [')']) ++ ['\n']

namespace Finding

variable {finding : Finding}

/-- Both reports name a file with each added resource, and none with a removed one. -/
structure Names (finding : Finding) (file : Resource → String) : Prop where
  data : ∃ value, Json.read? finding.dataText = some value ∧
    value.member? "added" = some (.list (finding.drift.added.map fun resource =>
      .object [("type", .text resource.type), ("name", .text resource.name),
        ("origin", .text (file resource))])) ∧
    value.member? "removed" = some (.list (finding.drift.removed.map fun resource =>
      .object [("type", .text resource.type), ("name", .text resource.name)]))
  terminal : ∀ coloured, finding.terminalText coloured =
    if finding.drift.isUpToDate then ""
    else String.ofList
      (Terminal.headline coloured finding.drift finding.shownManifest ++
        Terminal.sectionOf (Style.paint coloured .removedTitle "Removed resources:".toList)
          (finding.drift.removed.map fun resource =>
            [' ', ' '] ++ Style.paint coloured .removedMark ['-'] ++ [' '] ++
              resource.display.toList ++ ['\n']) ++
        Terminal.sectionOf (Style.paint coloured .addedTitle "Added resources:".toList)
          (finding.drift.added.map fun resource =>
            Terminal.locatedLine coloured resource (file resource)) ++
        Terminal.advice coloured finding.shownManifest)

/-- The reports name the files that are known, if they are for all added resources. -/
theorem names_of_known {file : Resource → String}
    (h : ∀ resource ∈ finding.drift.added, finding.shownOrigin resource = some (file resource)) :
    finding.Names file := by
  constructor
  · have htext : finding.dataText = String.ofList
        ((Json.value finding.drift finding.shownManifest finding.shownOrigin).render 0 ++ []) := by
      rw [List.append_nil]
      rfl
    have hadded : finding.drift.added.map (fun resource =>
        Json.resourceValue resource (finding.shownOrigin resource)) =
          finding.drift.added.map fun resource =>
            Json.resourceValue resource (some (file resource)) :=
      List.map_congr_left fun resource hmem => by rw [h resource hmem]
    rw [htext, OverlayManifest.Json.read?_render _ (by simp)]
    exact ⟨_, rfl, congrArg (fun items => some (Value.list items)) hadded, rfl⟩
  · intro coloured
    have hadded : finding.drift.added.map (Terminal.addedLine coloured finding.shownOrigin) =
        finding.drift.added.map fun resource =>
          Terminal.locatedLine coloured resource (file resource) := by
      refine List.map_congr_left fun resource hmem => ?_
      rw [Terminal.addedLine, h resource hmem]
      rfl
    rw [terminalText, Terminal.render, hadded]
    split
    · rfl
    · rfl

end Finding

end Report

namespace Check

variable {tree : FileTree} {settings : Settings} {root : Path} {finding : Report.Finding}

/-- Without backslashes, what is shown of a file that is found is what remains of its path. -/
theorem shows_of_find (hnamed : tree.Named) {resources : Path} {files : List FoundFile}
    (hfind : Discovery.find tree settings resources = .ok files) {file : FoundFile}
    (hfile : file ∈ files) (hslashes : '\\' ∉ file.path.shown.text.toList) (root : Path) :
    file.path.Shows root (file.path.shownFrom root) := by
  obtain ⟨directory, name, hstands, -⟩ := Discovery.standsIn_of_find hnamed hfind hfile
  rw [hstands.path_eq] at hslashes ⊢
  exact FilePath.shows_shownFrom
    (Path.ends_join_name hstands.isName_directory.slash_notMem_shown
      hstands.isName_directory.shown_nonempty).1
    hstands.isName.slash_notMem_shown hstands.isName.isVoid_shown hslashes root

/-- What a check finds added was found in a file, of which it knows the first. -/
theorem exists_first_of_added (hnamed : tree.Named) (hrun : run tree settings root = .ok finding) :
    ∃ files, Discovery.find tree settings (settings.resourcesAt root) = .ok files ∧
      ∀ resource ∈ finding.drift.added, ∃ file,
        IsFirst (tree.Declares (settings.resourcesAt root) · resource) files file ∧
          finding.shownOrigin resource = some (file.path.shownFrom root) := by
  obtain ⟨scan, excluded, committed, hscan, -, -, rfl⟩ := run_eq_ok_iff.mp hrun
  obtain ⟨files, hfind, hreadable, rfl⟩ := Scan.collect_eq_ok_iff.mp hscan
  refine ⟨files, hfind, fun resource hadded => ?_⟩
  have hfound : resource ∈ (files.foldl Scan.add .empty).resources := by
    simp only [Drift.between, Std.ExtTreeSet.mem_toList, Std.ExtTreeSet.mem_diff_iff] at hadded
    exact hadded.1.1
  obtain ⟨file, hfirst⟩ :=
    IsFirst.exists_iff.mpr ((Scan.mem_resources_iff hnamed hfind hreadable).mp hfound)
  have horigin := (Scan.getElem?_origins_iff hnamed hfind hreadable).mpr ⟨file, hfirst, rfl⟩
  refine ⟨file, hfirst, ?_⟩
  rw [Report.Finding.shownOrigin, horigin]
  rfl

/-- Whenever a check reports, and no path holds a backslash, both reports name with each added
resource the first of the found files that declares it, as seen from the root, and no file
with a removed one. -/
theorem names_first_of_run (hnamed : tree.Named) (hrun : run tree settings root = .ok finding) :
    ∃ files, Discovery.find tree settings (settings.resourcesAt root) = .ok files ∧
      ((∀ file ∈ files, '\\' ∉ file.path.shown.text.toList) → ∃ origin : Resource → String,
        finding.Names origin ∧
        ∀ resource ∈ finding.drift.added, ∃ file,
          IsFirst (tree.Declares (settings.resourcesAt root) · resource) files file ∧
            origin resource = file.path.shownFrom root ∧
            file.path.Shows root (origin resource)) := by
  obtain ⟨files, hfind, hfirst⟩ := exists_first_of_added hnamed hrun
  refine ⟨files, hfind, fun hslashes =>
    ⟨fun resource => (finding.shownOrigin resource).getD "", ?_, ?_⟩⟩
  · apply Report.Finding.names_of_known
    intro resource hadded
    obtain ⟨file, -, hshown⟩ := hfirst resource hadded
    rw [hshown, Option.getD_some]
  · intro resource hadded
    obtain ⟨file, hisFirst, hshown⟩ := hfirst resource hadded
    dsimp only
    rw [hshown, Option.getD_some]
    exact ⟨file, hisFirst, rfl,
      shows_of_find hnamed hfind hisFirst.mem (hslashes file hisFirst.mem) root⟩

/-- A manifest that names a resource that is gone. -/
def staleManifest : Manifest := ⟨"CarSettings", "public", 2024, .ofList [⟨"raw", "gone"⟩]⟩

/-- A project with two raw files for one resource, and that manifest beside them. -/
def rawTwiceBeside : FileTree :=
  Scan.rawTwice.set ["overlayable.xml"] (.file staleManifest.render.toUTF8)

theorem linkFree_rawTwiceBeside : rawTwiceBeside.LinkFree := by decide

theorem find_rawTwiceBeside :
    Discovery.find rawTwiceBeside besideResources (besideResources.resourcesAt ⟨"."⟩) =
      .ok [⟨⟨.plain ⟨"./res/raw/a"⟩, .files "raw"⟩, "".toUTF8⟩,
        ⟨⟨.plain ⟨"./res/raw-de/a.b"⟩, .files "raw"⟩, "".toUTF8⟩] := by
  have hfree := linkFree_rawTwiceBeside
  have hresources : besideResources.resourcesAt ⟨"."⟩ = ⟨"./res"⟩ := by decide
  rw [hresources, Discovery.find, FileTree.locate_eq_walk hfree (by decide)]
  rfl

/-- A check of this project finds that a resource came and another one went. -/
theorem run_rawTwiceBeside : ∃ finding,
    run rawTwiceBeside besideResources ⟨"."⟩ = .ok finding ∧
      finding.drift = ⟨[⟨"raw", "a"⟩], [⟨"raw", "gone"⟩]⟩ := by
  have hfree := linkFree_rawTwiceBeside
  have hexclusions : besideResources.exclusionsAt ⟨"."⟩ = ⟨"./chassis_overlayable.xml"⟩ := by
    decide
  have hmanifest : besideResources.manifestAt ⟨"."⟩ = ⟨"./overlayable.xml"⟩ := by decide
  have hcollect : ∃ scan, Scan.collect rawTwiceBeside besideResources
      (besideResources.resourcesAt ⟨"."⟩) = .ok scan ∧
        scan.resources \ ∅ = .ofList [⟨"raw", "a"⟩] := by
    rw [Scan.collect, find_rawTwiceBeside]
    exact ⟨_, rfl, rfl⟩
  have hexcluded : ResourceSet.loadExclusions rawTwiceBeside
      (besideResources.exclusionsAt ⟨"."⟩) = .ok ∅ := by
    rw [hexclusions]
    exact ResourceSet.loadExclusions_of_find?
      (FileTree.find?_of_walk hfree (by decide) rfl rfl)
  have hcommitted : ResourceSet.loadManifest rawTwiceBeside (besideResources.manifestAt ⟨"."⟩) =
      .ok staleManifest.resources := by
    rw [hmanifest]
    apply ResourceSet.loadManifest_of_readBytes
    rw [FileTree.readBytes, FileTree.find?, FileTree.locate_eq_walk hfree (by decide)]
    rfl
  obtain ⟨scan, hscan, hlive⟩ := hcollect
  refine ⟨_, run_eq_ok_iff.mpr ⟨scan, ∅, _, hscan, hexcluded, hcommitted, rfl⟩, ?_⟩
  dsimp only
  rw [hlive]
  decide +kernel

/-- The file without a qualifier is named with the resource that came. -/
theorem names_first_of_run_rawTwice : ∃ finding origin,
    run rawTwiceBeside besideResources ⟨"."⟩ = .ok finding ∧
      finding.drift = ⟨[⟨"raw", "a"⟩], [⟨"raw", "gone"⟩]⟩ ∧ finding.Names origin ∧
      origin ⟨"raw", "a"⟩ = "res/raw/a" := by
  have hnamed : rawTwiceBeside.Named := by decide
  obtain ⟨finding, hrun, hdrift⟩ := run_rawTwiceBeside
  obtain ⟨files, hfind, hnames⟩ := names_first_of_run hnamed hrun
  obtain rfl := Except.ok.inj (find_rawTwiceBeside.symm.trans hfind)
  obtain ⟨origin, hnamesOrigin, horigin⟩ := hnames (by decide)
  have hadded : ⟨"raw", "a"⟩ ∈ finding.drift.added := by
    rw [hdrift]
    exact List.mem_singleton_self _
  obtain ⟨file, hfirst, hshown, -⟩ := horigin _ hadded
  refine ⟨finding, origin, hrun, hdrift, hnamesOrigin, ?_⟩
  rcases IsFirst.cons_iff.mp hfirst with ⟨-, rfl⟩ | ⟨hother, -⟩
  · rw [hshown]
    decide +kernel
  · have hstands : FoundFile.StandsIn ⟨⟨.plain ⟨"./res/raw/a"⟩, .files "raw"⟩, "".toUTF8⟩
        (besideResources.resourcesAt ⟨"."⟩) "raw" "a" :=
      ⟨by decide, by decide, by decide, by decide, rfl⟩
    exact absurd (.itself hstands (by simp) rfl) hother

end Check

end OverlayManifest
