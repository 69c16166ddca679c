/-
# Verdicts

The program that checks manifests ends well exactly if all that it needs can be loaded,
the manifest names what is kept of the scan, and the report can be delivered. What it
prints says the same, and it changes nothing but the file that a report as data goes to.
-/

import OverlayManifest.Program
import OverlayManifest.Proofs.DriftDetection
import OverlayManifest.Proofs.JsonReading
import OverlayManifest.Proofs.SettingsPrecedence
import OverlayManifest.Proofs.TerminalReports

namespace OverlayManifest

open CommandLine

/-! ## Reports -/

namespace Report

variable {report : Report} {tree after : FileTree} {finding : Finding} {printed : String}

/-- A report as data that goes to a file needs a place for it that is no directory. -/
def Deliverable (report : Report) (tree : FileTree) : Prop :=
  report.asData = true → ∀ path, report.output = some path →
    ∃ place, tree.locateToWrite path = .ok place ∧ tree.lookup? place ≠ some .directory

theorem deliverable_of_terminal (hterminal : report.asData = false) :
    report.Deliverable tree := by
  intro hdata
  rw [hterminal] at hdata
  cases hdata

theorem deliverable_of_printed (houtput : report.output = none) : report.Deliverable tree := by
  intro _ path hpath
  rw [houtput] at hpath
  cases hpath

/-- A report for a terminal is printed. -/
theorem deliver_terminal (hterminal : report.asData = false) :
    report.deliver tree finding = .ok (finding.terminalText report.coloured, tree) := by
  rw [deliver, hterminal]

/-- A report as data is printed unless it goes to a file. -/
theorem deliver_data (hdata : report.asData = true) (houtput : report.output = none) :
    report.deliver tree finding = .ok (finding.dataText ++ "\n", tree) := by
  rw [deliver, hdata, houtput]

/-- A report as data that goes to a file is written there, and a note is printed. -/
theorem deliver_file_eq_ok_iff {path : Path} (hdata : report.asData = true)
    (houtput : report.output = some path) :
    report.deliver tree finding = .ok (printed, after) ↔
      printed = writtenNote path ∧ tree.writeFile path finding.dataText.toUTF8 = .ok after := by
  rw [deliver, hdata, houtput]
  dsimp only
  cases tree.writeFile path finding.dataText.toUTF8 with
  | error fault => simp
  | ok written => simp [eq_comm]

/-- A report can be delivered if there is a place for it. -/
theorem exists_deliver_iff :
    (∃ printed after, report.deliver tree finding = .ok (printed, after)) ↔
      report.Deliverable tree := by
  cases hdata : report.asData with
  | false => exact iff_of_true ⟨_, _, deliver_terminal hdata⟩ (deliverable_of_terminal hdata)
  | true =>
      cases houtput : report.output with
      | none => exact iff_of_true ⟨_, _, deliver_data hdata houtput⟩ (deliverable_of_printed houtput)
      | some path =>
          simp only [deliver_file_eq_ok_iff hdata houtput, FileTree.writeFile_eq_ok_iff,
            Deliverable, hdata, houtput, Option.some.injEq, forall_const, forall_eq']
          constructor
          · rintro ⟨-, -, -, place, hplace, hdirectory, -⟩
            exact ⟨place, hplace, hdirectory⟩
          · rintro ⟨place, hplace, hdirectory⟩
            exact ⟨_, _, rfl, place, hplace, hdirectory, rfl⟩

/-- Delivering a report changes nothing but the file it goes to. -/
theorem tree_of_deliver (h : report.deliver tree finding = .ok (printed, after)) :
    after = tree ∨ (report.asData = true ∧ ∃ path place bytes, report.output = some path ∧
      tree.locateToWrite path = .ok place ∧ after.workingDirectory = tree.workingDirectory ∧
      after.lookup? place = some (.file bytes) ∧
      ∀ location, location ≠ place → after.lookup? location = tree.lookup? location) := by
  cases hdata : report.asData with
  | false =>
      rw [deliver_terminal hdata, Except.ok.injEq, Prod.mk.injEq] at h
      exact .inl h.2.symm
  | true =>
      cases houtput : report.output with
      | none =>
          rw [deliver_data hdata houtput, Except.ok.injEq, Prod.mk.injEq] at h
          exact .inl h.2.symm
      | some path =>
          obtain ⟨-, hwritten⟩ := (deliver_file_eq_ok_iff hdata houtput).mp h
          obtain ⟨place, hplace, hdirectory, rfl⟩ := FileTree.writeFile_eq_ok_iff.mp hwritten
          have hbelow : place ≠ [] := by
            rintro rfl
            exact hdirectory rfl
          refine .inr ⟨rfl, path, place, finding.dataText.toUTF8, rfl, hplace, rfl, ?_,
            fun location hother => ?_⟩
          · rw [FileTree.lookup?_set _ _ _ _ hbelow, if_pos rfl]
          · by_cases hroot : location = []
            · rw [hroot, FileTree.lookup?_nil, FileTree.lookup?_nil]
            · rw [FileTree.lookup?_set _ _ _ _ hroot, if_neg (Ne.symm hother)]

namespace Finding

/-- Nothing is shown on a terminal exactly if nothing came and nothing went. -/
theorem terminalText_eq_empty_iff {coloured : Bool} :
    finding.terminalText coloured = "" ↔ finding.drift.isUpToDate = true := by
  rw [terminalText, ← String.toList_inj, String.toList_ofList, String.toList_empty,
    Terminal.render_eq_nil_iff, Drift.isUpToDate_iff]

/-- The printed data can be read and says whether the manifest is up to date. -/
theorem read?_dataText (finding : Finding) : ∃ value,
    OverlayManifest.Json.read? (finding.dataText ++ "\n") = some value ∧
      value.member? "up_to_date" = some (.truth finding.drift.isUpToDate) := by
  have hprinted : finding.dataText ++ "\n" =
      String.ofList ((Json.value finding.drift finding.shownManifest finding.shownOrigin).render 0 ++
        ['\n']) := by
    rw [dataText, Json.render, String.ofList_append]
  have hblank : ∀ c ∈ ['\n'], OverlayManifest.Json.isBlank c = true := by
    simp [OverlayManifest.Json.isBlank]
  rw [hprinted, OverlayManifest.Json.read?_render _ hblank]
  exact ⟨_, rfl, rfl⟩

end Finding

end Report

/-! ## Checks -/

namespace Verify

/-- What a check of a manifest loads. -/
structure Loaded where
  settings : Settings
  scan : Scan
  excluded : ResourceSet
  committed : ResourceSet

namespace Loaded

/-- What is kept of the scan. -/
def live (loaded : Loaded) : ResourceSet := loaded.scan.resources \ loaded.excluded

/-- What there is to report for the project at a root. -/
def finding (loaded : Loaded) (root : Path) : Report.Finding :=
  ⟨root, loaded.settings.manifestAt root, .between loaded.committed loaded.live,
    loaded.scan.origins⟩

end Loaded

/-- The settings, the scan, the exclusions and the manifest that arguments ask for are loaded. -/
structure Loads (tree : FileTree) (arguments : Arguments) (loaded : Loaded) : Prop where
  settings_eq : arguments.settings tree = .ok loaded.settings
  scan_eq : Scan.collect tree loaded.settings (loaded.settings.resourcesAt arguments.root) =
    .ok loaded.scan
  excluded_eq : ResourceSet.loadExclusions tree (loaded.settings.exclusionsAt arguments.root) =
    .ok loaded.excluded
  committed_eq : ResourceSet.loadManifest tree (loaded.settings.manifestAt arguments.root) =
    .ok loaded.committed

/-- The report that arguments ask for. -/
def reportFor (arguments : Arguments) (coloured : Bool) : Report :=
  ⟨arguments.asData.getD false, arguments.output, coloured⟩

section Run

variable {tree : FileTree} {texts : List String} {arguments : Arguments} {loaded other : Loaded}

/-- At most one thing is loaded. -/
theorem Loads.unique (h : Loads tree arguments loaded) (hother : Loads tree arguments other) :
    other = loaded := by
  obtain ⟨settings, scan, excluded, committed⟩ := loaded
  obtain ⟨settings', scan', excluded', committed'⟩ := other
  cases h.settings_eq.symm.trans hother.settings_eq
  cases h.scan_eq.symm.trans hother.scan_eq
  cases h.excluded_eq.symm.trans hother.excluded_eq
  cases h.committed_eq.symm.trans hother.committed_eq
  rfl

/-- A check finds something exactly if all is loaded. -/
theorem check_eq_ok_iff {settings : Settings} (hsettings : arguments.settings tree = .ok settings)
    {finding : Report.Finding} :
    Check.run tree settings arguments.root = .ok finding ↔
      ∃ loaded, Loads tree arguments loaded ∧ finding = loaded.finding arguments.root := by
  rw [Check.run_eq_ok_iff]
  constructor
  · rintro ⟨scan, excluded, committed, hscan, hexcluded, hcommitted, rfl⟩
    exact ⟨⟨settings, scan, excluded, committed⟩, ⟨hsettings, hscan, hexcluded, hcommitted⟩, rfl⟩
  · rintro ⟨loaded, hloads, rfl⟩
    cases hsettings.symm.trans hloads.settings_eq
    exact ⟨_, _, _, hloads.scan_eq, hloads.excluded_eq, hloads.committed_eq, rfl⟩

/-- Where something cannot be loaded, the program prints nothing and changes nothing. -/
theorem run_of_not_loads (hread : Arguments.read Switch.ofVerify texts = .ok arguments)
    (hnone : ¬ ∃ loaded, Loads tree arguments loaded) (coloured : Bool) :
    ∃ problem, problem.exitCode = 1 ∧ run tree coloured texts = .silent tree problem := by
  unfold run runWith
  rw [hread]
  dsimp only
  split
  · exact ⟨_, rfl, rfl⟩
  · rename_i settings hsettings
    split
    · exact ⟨_, rfl, rfl⟩
    · rename_i finding hfinding
      obtain ⟨loaded, hloads, -⟩ := (check_eq_ok_iff hsettings).mp hfinding
      exact absurd ⟨loaded, hloads⟩ hnone

/-- Where all is loaded, the program reports what it found. -/
theorem run_of_loads (hread : Arguments.read Switch.ofVerify texts = .ok arguments)
    (hloads : Loads tree arguments loaded) (coloured : Bool) :
    run tree coloured texts =
      match (reportFor arguments coloured).deliver tree (loaded.finding arguments.root) with
      | .error fault => .silent tree (.undelivered fault)
      | .ok (printed, after) =>
          ⟨if (loaded.finding arguments.root).drift.isUpToDate then none else some .drift,
            printed, after⟩ := by
  have hfinding := (check_eq_ok_iff hloads.settings_eq).mpr ⟨loaded, hloads, rfl⟩
  unfold run runWith
  rw [hread]
  dsimp only
  rw [hloads.settings_eq]
  dsimp only
  rw [hfinding]
  rfl

/-- The manifest is up to date if it names what is kept of the scan. -/
theorem isUpToDate_finding {root : Path} :
    (loaded.finding root).drift.isUpToDate = true ↔ loaded.committed = loaded.live :=
  Drift.isUpToDate_between

/-- A run ends in one of three ways: something cannot be loaded, the report cannot be
delivered, or the report says how the manifest compares. -/
theorem run_cases (hread : Arguments.read Switch.ofVerify texts = .ok arguments) (tree : FileTree)
    (coloured : Bool) :
    (∃ problem : Problem, problem.exitCode = 1 ∧ run tree coloured texts = .silent tree problem ∧
      ((¬ ∃ loaded, Loads tree arguments loaded) ∨
        ¬ (reportFor arguments coloured).Deliverable tree)) ∨
    ∃ loaded printed after, Loads tree arguments loaded ∧
      (reportFor arguments coloured).deliver tree (loaded.finding arguments.root) =
        .ok (printed, after) ∧
      run tree coloured texts =
        ⟨if loaded.committed = loaded.live then none else some .drift, printed, after⟩ := by
  by_cases hloaded : ∃ loaded, Loads tree arguments loaded
  · obtain ⟨loaded, hloads⟩ := hloaded
    have hrun := run_of_loads hread hloads coloured
    cases hdeliver : (reportFor arguments coloured).deliver tree
        (loaded.finding arguments.root) with
    | error fault =>
        rw [hdeliver] at hrun
        refine .inl ⟨_, rfl, hrun, .inr fun hdeliverable => ?_⟩
        obtain ⟨printed, after, hdelivered⟩ := Report.exists_deliver_iff.mpr hdeliverable
        rw [hdeliver] at hdelivered
        cases hdelivered
    | ok delivered =>
        obtain ⟨printed, after⟩ := delivered
        rw [hdeliver] at hrun
        refine .inr ⟨loaded, printed, after, hloads, hdeliver, ?_⟩
        simp only [hrun, isUpToDate_finding]
  · obtain ⟨problem, hcode, hrun⟩ := run_of_not_loads hread hloaded coloured
    exact .inl ⟨problem, hcode, hrun, .inl hloaded⟩

/-- What an outcome says about the manifest. -/
structure Verdict (tree : FileTree) (arguments : Arguments) (report : Report)
    (outcome : Outcome) : Prop where
  /-- All is well if the manifest names what is kept of the scan. -/
  exitCode_eq_zero_iff : outcome.exitCode = 0 ↔
    (∃ loaded, Loads tree arguments loaded ∧ loaded.committed = loaded.live) ∧
      report.Deliverable tree
  /-- All that goes wrong has the same code. -/
  exitCode_eq_one : outcome.exitCode ≠ 0 → outcome.exitCode = 1
  /-- On a terminal, something is printed if the manifest names something else. -/
  printed_terminal : report.asData = false → (outcome.printed ≠ "" ↔
    ∃ loaded, Loads tree arguments loaded ∧ loaded.committed ≠ loaded.live)
  /-- Data is printed if all could be loaded, and says whether all is well. -/
  printed_data : report.asData = true → report.output = none →
    (outcome.printed ≠ "" ↔ ∃ loaded, Loads tree arguments loaded) ∧
    (outcome.printed ≠ "" → ∃ value, Json.read? outcome.printed = some value ∧
      value.member? "up_to_date" = some (.truth (decide (outcome.exitCode = 0))))
  /-- Nothing changes but the file that data goes to. -/
  tree_cases : outcome.tree = tree ∨ (report.asData = true ∧ ∃ path place bytes,
    report.output = some path ∧ tree.locateToWrite path = .ok place ∧
      outcome.tree.workingDirectory = tree.workingDirectory ∧
      outcome.tree.lookup? place = some (.file bytes) ∧
      ∀ location, location ≠ place → outcome.tree.lookup? location = tree.lookup? location)

/-- Where nothing can be reported, the verdict is that something is wrong. -/
theorem verdict_of_silent {report : Report} {problem : Problem} (hcode : problem.exitCode = 1)
    (hmissing : (¬ ∃ loaded, Loads tree arguments loaded) ∨ ¬ report.Deliverable tree) :
    Verdict tree arguments report (.silent tree problem) := by
  have hexit : (Outcome.silent tree problem).exitCode = 1 := hcode
  have hnone (hdeliverable : report.Deliverable tree) : ¬ ∃ loaded, Loads tree arguments loaded :=
    hmissing.resolve_right (not_not_intro hdeliverable)
  constructor
  · rw [hexit]
    constructor
    · intro h
      cases h
    · rintro ⟨⟨loaded, hloads, -⟩, hdeliverable⟩
      exact absurd ⟨loaded, hloads⟩ (hnone hdeliverable)
  · exact fun _ => hexit
  · intro hterminal
    constructor
    · intro hprinted
      exact absurd rfl hprinted
    · rintro ⟨loaded, hloads, -⟩
      exact absurd ⟨loaded, hloads⟩ (hnone (Report.deliverable_of_terminal hterminal))
  · intro _ houtput
    refine ⟨⟨fun hprinted => absurd rfl hprinted, fun hloaded => ?_⟩,
      fun hprinted => absurd rfl hprinted⟩
    exact absurd hloaded (hnone (Report.deliverable_of_printed houtput))
  · exact .inl rfl

/-- A report that is delivered is a verdict on what was loaded. -/
theorem verdict_of_deliver {report : Report} {printed : String} {after : FileTree}
    (hloads : Loads tree arguments loaded)
    (hdeliver : report.deliver tree (loaded.finding arguments.root) = .ok (printed, after)) :
    Verdict tree arguments report
      ⟨if loaded.committed = loaded.live then none else some .drift, printed, after⟩ := by
  have hexit : (Outcome.mk (if loaded.committed = loaded.live then none else some .drift) printed
      after).exitCode = if loaded.committed = loaded.live then 0 else 1 := by
    split <;> rfl
  have hloaded {Holds : Loaded → Prop} :
      (∃ loaded, Loads tree arguments loaded ∧ Holds loaded) ↔ Holds loaded := by
    constructor
    · rintro ⟨other, hother, hholds⟩
      rwa [← hloads.unique hother]
    · intro hholds
      exact ⟨loaded, hloads, hholds⟩
  constructor
  · have hdeliverable := Report.exists_deliver_iff.mp ⟨printed, after, hdeliver⟩
    rw [hexit, hloaded, and_iff_left hdeliverable]
    split
    · rename_i hsame
      simp [hsame]
    · rename_i hdrift
      simp [hdrift]
  · rw [hexit]
    split
    · intro h
      exact absurd rfl h
    · exact fun _ => rfl
  · intro hterminal
    rw [Report.deliver_terminal hterminal, Except.ok.injEq, Prod.mk.injEq] at hdeliver
    rw [hloaded, ← hdeliver.1]
    exact not_congr (Report.Finding.terminalText_eq_empty_iff.trans isUpToDate_finding)
  · intro hdata houtput
    rw [Report.deliver_data hdata houtput, Except.ok.injEq, Prod.mk.injEq] at hdeliver
    obtain ⟨rfl, -⟩ := hdeliver
    obtain ⟨value, hread, hmember⟩ :=
      Report.Finding.read?_dataText (loaded.finding arguments.root)
    refine ⟨⟨fun _ => ⟨loaded, hloads⟩, fun _ hempty => ?_⟩, fun _ => ⟨value, hread, ?_⟩⟩
    · simpa using congrArg String.toList hempty
    · rw [hmember, hexit, Option.some.injEq, Json.Value.truth.injEq, Bool.eq_iff_iff,
        isUpToDate_finding, decide_eq_true_iff]
      split
      · rename_i hsame
        simp [hsame]
      · rename_i hdrift
        simp [hdrift]
  · exact Report.tree_of_deliver hdeliver

/-- Every run that was asked for gives the verdict on the manifest. -/
theorem verdict_of_run (hread : Arguments.read Switch.ofVerify texts = .ok arguments)
    (tree : FileTree) (coloured : Bool) :
    Verdict tree arguments (reportFor arguments coloured) (run tree coloured texts) := by
  rcases run_cases hread tree coloured with
    ⟨problem, hcode, hrun, hmissing⟩ | ⟨loaded, printed, after, hloads, hdeliver, hrun⟩
  · rw [hrun]
    exact verdict_of_silent hcode hmissing
  · rw [hrun]
    exact verdict_of_deliver hloads hdeliver

end Run

/-- Arguments that ask for data on a manifest beside the resources. -/
def argumentsForData : Arguments :=
  { manifest := some ⟨"overlayable.xml"⟩, asData := some true }

/-- The project with one raw resource has no file with settings. -/
theorem settings_rawProject :
    argumentsForData.settings (Check.rawProjectBeside "a") = .ok Check.besideResources := by
  have hfree : (Check.rawProjectBeside "a").LinkFree := by decide
  have hnames : ∀ name ∈ Settings.fileNames,
      FileTree.textFault? (Path.join ⟨"."⟩ ⟨name⟩) = none ∧
        (Check.rawProjectBeside "a").walk false
          (FileTree.startOf (Check.rawProjectBeside "a").workingDirectory
            (Path.join ⟨"."⟩ ⟨name⟩))
          (FileTree.namesOf (Path.join ⟨"."⟩ ⟨name⟩)) = .ok [name] ∧
        (Check.rawProjectBeside "a").lookup? [name] = none := by decide
  refine CommandLine.Arguments.settings_of_missing rfl fun name hname => ?_
  obtain ⟨hfault, hwalk, hlookup⟩ := hnames name hname
  exact FileTree.find?_of_walk hfree hfault hwalk hlookup

/-- All that a check of this project needs can be loaded, and its manifest names its one
resource. -/
theorem loads_rawProject : ∃ loaded,
    Loads (Check.rawProjectBeside "a") argumentsForData loaded ∧
      loaded.committed = loaded.live := by
  have hfree : (Check.rawProjectBeside "a").LinkFree := by decide
  have hresources : Check.besideResources.resourcesAt argumentsForData.root = ⟨"./res"⟩ := by
    decide
  have hexclusions : Check.besideResources.exclusionsAt argumentsForData.root =
      ⟨"./chassis_overlayable.xml"⟩ := by decide
  have hmanifest : Check.besideResources.manifestAt argumentsForData.root =
      ⟨"./overlayable.xml"⟩ := by decide
  have hcollect : ∃ scan, Scan.collect (Check.rawProjectBeside "a") Check.besideResources
      (Check.besideResources.resourcesAt argumentsForData.root) = .ok scan ∧
        scan.resources \ ∅ = .ofList [⟨"raw", "a"⟩] := by
    rw [hresources, Scan.collect, Discovery.find, FileTree.locate_eq_walk hfree (by decide)]
    exact ⟨_, rfl, rfl⟩
  have hexcluded : ResourceSet.loadExclusions (Check.rawProjectBeside "a")
      (Check.besideResources.exclusionsAt argumentsForData.root) = .ok ∅ := by
    rw [hexclusions]
    exact ResourceSet.loadExclusions_of_find?
      (FileTree.find?_of_walk hfree (by decide) rfl rfl)
  have hcommitted : ResourceSet.loadManifest (Check.rawProjectBeside "a")
      (Check.besideResources.manifestAt argumentsForData.root) =
        .ok Check.rawManifest.resources := by
    rw [hmanifest]
    apply ResourceSet.loadManifest_of_readBytes
    rw [FileTree.readBytes, FileTree.find?, FileTree.locate_eq_walk hfree (by decide)]
    rfl
  obtain ⟨scan, hscan, hkept⟩ := hcollect
  exact ⟨⟨Check.besideResources, scan, ∅, Check.rawManifest.resources⟩,
    ⟨settings_rawProject, hscan, hexcluded, hcommitted⟩, hkept.symm⟩

/-- The manifest of a project with one raw resource is up to date, and so the data says. -/
theorem verdict_of_run_rawProject : ∃ outcome value,
    run (Check.rawProjectBeside "a") false ["--manifest=overlayable.xml", "-fjson"] = outcome ∧
      outcome.exitCode = 0 ∧ Json.read? outcome.printed = some value ∧
      value.member? "up_to_date" = some (.truth true) := by
  have hread : Arguments.read Switch.ofVerify ["--manifest=overlayable.xml", "-fjson"] =
      .ok argumentsForData := by decide
  obtain ⟨loaded, hloads, hsame⟩ := loads_rawProject
  have hverdict := verdict_of_run hread (Check.rawProjectBeside "a") false
  obtain ⟨hprinted, hvalue⟩ := hverdict.printed_data rfl rfl
  obtain ⟨value, hjson, hmember⟩ := hvalue (hprinted.mpr ⟨loaded, hloads⟩)
  have hexit := hverdict.exitCode_eq_zero_iff.mpr
    ⟨⟨loaded, hloads, hsame⟩, Report.deliverable_of_printed rfl⟩
  rw [hexit] at hmember
  exact ⟨_, value, rfl, hexit, hjson, hmember⟩

end Verify

end OverlayManifest
