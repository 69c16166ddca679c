/-
# Dry runs

A dry run prints what the program would write: it fails as the run that it stands for, and
where that run ends well it prints what the manifest then holds. How much is said about a run
changes nothing else.
-/

import OverlayManifest.Program
import OverlayManifest.Proofs.LeadingFlags
import OverlayManifest.Proofs.SettingsPrecedence
import OverlayManifest.Proofs.UpdateChanges

namespace OverlayManifest

namespace CommandLine.Arguments

/-- Flags do not choose the settings. -/
theorem settings_withFlag (arguments : Arguments) (flag : Switch) (tree : FileTree) :
    (arguments.withFlag flag).settings tree = arguments.settings tree := by
  cases flag with
  | _ => rfl

/-- Arguments that do not say how much is told about a run. -/
def silenced (arguments : Arguments) : Arguments :=
  { arguments with verbose := false, quiet := false }

end CommandLine.Arguments

namespace Outcome

variable {tree : FileTree} {printed : String}

@[simp]
theorem exitCode_success : (success tree printed).exitCode = 0 := rfl

@[simp]
theorem printed_success : (success tree printed).printed = printed := rfl

@[simp]
theorem tree_success : (success tree printed).tree = tree := rfl

end Outcome

namespace Generate

open CommandLine

variable {tree : FileTree} {texts : List String} {arguments : Arguments} {settings : Settings}

/-- What a run comes to once its arguments are known. -/
def outcomeFor (tree : FileTree) (coloured : Bool) (thisYear : Int) (arguments : Arguments) :
    Outcome :=
  match arguments.settings tree with
  | .error fault => .silent tree (.settings fault)
  | .ok settings => runWith tree coloured thisYear arguments settings

theorem run_of_read (hread : Arguments.read Switch.ofGenerate texts = .ok arguments)
    (coloured : Bool) (thisYear : Int) :
    run tree coloured thisYear texts = outcomeFor tree coloured thisYear arguments := by
  unfold run
  rw [hread]
  rfl

/-- The switch for a dry run can be put first. -/
theorem run_dryRun_cons (hread : Arguments.read Switch.ofGenerate texts = .ok arguments)
    (hreal : arguments.dryRun = false) (coloured : Bool) (thisYear : Int) :
    run tree coloured thisYear ("--dry-run" :: texts) =
      outcomeFor tree coloured thisYear (arguments.withFlag .dryRun) := by
  have hknown : Switch.ofLong? Switch.ofGenerate Switch.dryRun.long = some .dryRun := by
    decide
  have hdry : Arguments.read Switch.ofGenerate (("--" ++ Switch.dryRun.long) :: texts) =
      .ok (arguments.withFlag .dryRun) :=
    Arguments.read_cons_flag rfl hknown hread hreal
  exact run_of_read hdry coloured thisYear

/-- A switch for how much is told can be put first, and tells nothing else. -/
theorem exists_read_told (hread : Arguments.read Switch.ofGenerate texts = .ok arguments)
    {flag : Switch} (hflag : flag = .verbose ∨ flag = .quiet)
    (hnew : arguments.has (.switch flag) = false) :
    ∃ spoken, Arguments.read Switch.ofGenerate (("--" ++ flag.long) :: texts) = .ok spoken ∧
      spoken.silenced = arguments.silenced := by
  rcases hflag with rfl | rfl
  · exact ⟨_, Arguments.read_cons_flag rfl (by decide) hread hnew, rfl⟩
  · exact ⟨_, Arguments.read_cons_flag rfl (by decide) hread hnew, rfl⟩

/-- How a dry run compares with the run that it stands for. -/
structure Rehearses (tree : FileTree) (arguments : Arguments) (dry real : Outcome) : Prop where
  /-- Where the run ends well, the dry run prints what the manifest then holds. -/
  printed : real.exitCode = 0 → dry.exitCode = 0 ∧ ∃ settings,
    arguments.settings tree = .ok settings ∧
      real.tree.readBytes (settings.manifestAt arguments.root) = .ok dry.printed.toUTF8
  /-- Where the run fails to do anything but to write, the dry run fails in the same way. -/
  failed : real.exitCode ≠ 0 → real.diagnostic? ≠ some "overlayable::io::write" →
    dry.problem = real.problem ∧ dry.exitCode = real.exitCode ∧
      dry.diagnostic? = real.diagnostic? ∧ dry.printed = ""
  untouched : dry.tree = tree

/-- Two runs that say the same nowhere but in what they print. -/
def SameEffect (first second : Outcome) : Prop :=
  first.problem = second.problem ∧ first.exitCode = second.exitCode ∧ first.tree = second.tree

/-- A dry run plans what a run then writes. -/
theorem runWith_of_dryRun (hdry : arguments.dryRun = true) {year : Int}
    (hyear : arguments.year = some year) (coloured : Bool) (thisYear : Int) :
    runWith tree coloured thisYear arguments settings =
      match Update.plan tree settings arguments.root with
      | .error failure => Outcome.silent tree (.failure failure)
      | .ok update => Outcome.success tree (update.manifest settings year).render := by
  unfold runWith
  rw [hdry, hyear]
  rfl

/-- Any other run updates the manifest. -/
theorem runWith_of_real (hreal : arguments.dryRun = false) {year : Int}
    (hyear : arguments.year = some year) (coloured : Bool) (thisYear : Int) :
    runWith tree coloured thisYear arguments settings =
      match Update.run tree settings arguments.root year with
      | (.error failure, after) => Outcome.silent after (.failure failure)
      | (.ok update, after) => Outcome.success after
          (if arguments.quiet then ""
            else successLine coloured (settings.manifestAt arguments.root) update) := by
  unfold runWith
  rw [hreal, hyear]
  rfl

/-- A run ends well where the update does. -/
theorem run_of_update (hread : Arguments.read Switch.ofGenerate texts = .ok arguments)
    (hsettings : arguments.settings tree = .ok settings) (hreal : arguments.dryRun = false)
    {year : Int} (hyear : arguments.year = some year) {update : Update} {after : FileTree}
    (hupdate : Update.run tree settings arguments.root year = (.ok update, after))
    (coloured : Bool) (thisYear : Int) :
    ∃ line, run tree coloured thisYear texts = .success after line := by
  rw [run_of_read hread, outcomeFor, hsettings]
  dsimp only
  rw [runWith_of_real hreal hyear, hupdate]
  exact ⟨_, rfl⟩

/-- An update that was planned can only fail to write. -/
theorem code_of_run_error {root : Path} {year : Int} {update : Update} {failure : Failure}
    {after : FileTree} (hplan : Update.plan tree settings root = .ok update)
    (hrun : Update.run tree settings root year = (.error failure, after)) :
    failure.code = "overlayable::io::write" := by
  unfold Update.run at hrun
  rw [hplan] at hrun
  dsimp only at hrun
  split at hrun
  · rename_i hwritten
    cases hrun
    obtain ⟨⟨cause, rfl⟩, -⟩ := Update.writeDocument_eq_error hwritten
    rfl
  · cases hrun

/-- A run that ends well is planned, and the manifest then holds what its plan renders. -/
theorem rehearses_of_runWith (hclosed : tree.Closed)
    (hsettings : arguments.settings tree = .ok settings) (hreal : arguments.dryRun = false)
    {year : Int} (hyear : arguments.year = some year) (colouredDry coloured : Bool)
    (thisYearDry thisYear : Int) :
    Rehearses tree arguments
      (runWith tree colouredDry thisYearDry (arguments.withFlag .dryRun) settings)
      (runWith tree coloured thisYear arguments settings) := by
  have hdry : (arguments.withFlag .dryRun).dryRun = true := rfl
  have hdryYear : (arguments.withFlag .dryRun).year = some year := hyear
  rw [runWith_of_dryRun hdry hdryYear, runWith_of_real hreal hyear]
  show Rehearses tree arguments
    (match Update.plan tree settings arguments.root with
      | .error failure => Outcome.silent tree (.failure failure)
      | .ok update => Outcome.success tree (update.manifest settings year).render) _
  cases hplan : Update.plan tree settings arguments.root with
  | error failure =>
      have hrun : Update.run tree settings arguments.root year = (.error failure, tree) := by
        unfold Update.run
        rw [hplan]
      rw [hrun]
      exact ⟨fun h => (nomatch h), fun _ _ => ⟨rfl, rfl, rfl, rfl⟩, rfl⟩
  | ok update =>
      rcases hrun : Update.run tree settings arguments.root year with ⟨failure | updated, after⟩
      · refine ⟨fun h => (nomatch h), fun _ hother => ?_, rfl⟩
        exact absurd (congrArg some (code_of_run_error hplan hrun)) hother
      · obtain rfl : updated = update := by
          have hplanned := (Update.run_eq_ok_iff.mp hrun).1
          rw [hplan] at hplanned
          exact (Except.ok.inj hplanned).symm
        refine ⟨fun _ => ⟨rfl, settings, hsettings, ?_⟩, fun h => absurd Outcome.exitCode_success h,
          rfl⟩
        rw [Outcome.tree_success, Outcome.printed_success]
        exact Update.readBytes_of_run hclosed hrun

/-- The same holds whether or not there are settings. -/
theorem rehearses_outcomeFor (hclosed : tree.Closed) (hreal : arguments.dryRun = false)
    {year : Int} (hyear : arguments.year = some year) (colouredDry coloured : Bool)
    (thisYearDry thisYear : Int) :
    Rehearses tree arguments
      (outcomeFor tree colouredDry thisYearDry (arguments.withFlag .dryRun))
      (outcomeFor tree coloured thisYear arguments) := by
  unfold outcomeFor
  rw [arguments.settings_withFlag]
  cases hsettings : arguments.settings tree with
  | error fault => exact ⟨fun h => (nomatch h), fun _ _ => ⟨rfl, rfl, rfl, rfl⟩, rfl⟩
  | ok settings => exact rehearses_of_runWith hclosed hsettings hreal hyear _ _ _ _

section Silenced

variable {spoken : Arguments} (hsame : spoken.silenced = arguments.silenced)

include hsame

/-- Whatever is told about a run, the rest of its arguments is the same. -/
theorem congr_of_silenced {α : Type} (field : Arguments → α)
    (hfield : ∀ arguments, field (Arguments.silenced arguments) = field arguments) :
    field spoken = field arguments := by
  rw [← hfield spoken, hsame, hfield]

/-- How much is told about a dry run changes nothing. -/
theorem outcomeFor_eq_of_silenced (hdry : arguments.dryRun = true) {year : Int}
    (hyear : arguments.year = some year) (coloured : Bool) (thisYear : Int) :
    outcomeFor tree coloured thisYear spoken = outcomeFor tree coloured thisYear arguments := by
  have hroot := congr_of_silenced hsame Arguments.root fun _ => rfl
  have hspokenYear := congr_of_silenced hsame Arguments.year fun _ => rfl
  have hspoken := congr_of_silenced hsame Arguments.dryRun fun _ => rfl
  unfold outcomeFor
  rw [congr_of_silenced hsame (·.settings tree) fun _ => rfl]
  cases arguments.settings tree with
  | error => rfl
  | ok settings =>
      dsimp only
      rw [runWith_of_dryRun (hspoken.trans hdry) (hspokenYear.trans hyear),
        runWith_of_dryRun hdry hyear, hroot]

/-- How much is told about any other run changes neither its end nor its tree. -/
theorem sameEffect_of_silenced (hreal : arguments.dryRun = false) {year : Int}
    (hyear : arguments.year = some year) (coloured : Bool) (thisYear : Int) :
    SameEffect (outcomeFor tree coloured thisYear spoken)
      (outcomeFor tree coloured thisYear arguments) := by
  have hroot := congr_of_silenced hsame Arguments.root fun _ => rfl
  have hspokenYear := congr_of_silenced hsame Arguments.year fun _ => rfl
  have hspoken := congr_of_silenced hsame Arguments.dryRun fun _ => rfl
  unfold outcomeFor
  rw [congr_of_silenced hsame (·.settings tree) fun _ => rfl]
  cases arguments.settings tree with
  | error => exact ⟨rfl, rfl, rfl⟩
  | ok settings =>
      dsimp only
      rw [runWith_of_real (hspoken.trans hreal) (hspokenYear.trans hyear),
        runWith_of_real hreal hyear, hroot]
      split
      · exact ⟨rfl, rfl, rfl⟩
      · exact ⟨rfl, rfl, rfl⟩

end Silenced

/-- For a year that is given, a run with the switch for a dry run put first rehearses the
run without it. How much is told about them changes neither what the dry run prints nor the
end or the tree of either, and each switch for that can be put first where it was not given. -/
theorem rehearses_of_run (hclosed : tree.Closed)
    (hread : Arguments.read Switch.ofGenerate texts = .ok arguments)
    (hreal : arguments.dryRun = false) {year : Int} (hyear : arguments.year = some year)
    (coloured colouredDry : Bool) (thisYear thisYearDry : Int) :
    Rehearses tree arguments (run tree colouredDry thisYearDry ("--dry-run" :: texts))
      (run tree coloured thisYear texts) ∧
    (∀ others spoken, Arguments.read Switch.ofGenerate others = .ok spoken →
      spoken.silenced = arguments.silenced →
      run tree colouredDry thisYearDry ("--dry-run" :: others) =
        run tree colouredDry thisYearDry ("--dry-run" :: texts) ∧
      SameEffect (run tree coloured thisYear others) (run tree coloured thisYear texts)) ∧
    ∀ flag, flag = .verbose ∨ flag = .quiet → arguments.has (.switch flag) = false →
      ∃ spoken, Arguments.read Switch.ofGenerate (("--" ++ flag.long) :: texts) = .ok spoken ∧
        spoken.silenced = arguments.silenced := by
  rw [run_dryRun_cons hread hreal, run_of_read hread]
  refine ⟨rehearses_outcomeFor hclosed hreal hyear _ _ _ _, ?_, ?_⟩
  · intro others spoken hspoken hsame
    have hspokenReal : spoken.dryRun = false :=
      (congr_of_silenced hsame Arguments.dryRun fun _ => rfl).trans hreal
    have hdrySame : (spoken.withFlag .dryRun).silenced =
        (arguments.withFlag .dryRun).silenced :=
      congrArg (Arguments.withFlag · .dryRun) hsame
    rw [run_dryRun_cons hspoken hspokenReal, run_of_read hspoken]
    exact ⟨outcomeFor_eq_of_silenced hdrySame rfl hyear _ _,
      sameEffect_of_silenced hsame hreal hyear _ _⟩
  · intro flag hflag hnew
    exact exists_read_told hread hflag hnew

/-- Arguments for a manifest beside the resources. -/
def textsForYear : List String := ["--manifest=overlayable.xml", "--year=2024"]

/-- What these arguments say. -/
def argumentsForYear : Arguments :=
  { manifest := some ⟨"overlayable.xml"⟩, year := some 2024 }

/-- The project with one raw resource has no file with settings. -/
theorem settings_argumentsForYear :
    argumentsForYear.settings (.rawProject "a") = .ok Check.besideResources := by
  have hfree := FileTree.linkFree_rawProject
  have hnames : ∀ name ∈ Settings.fileNames,
      FileTree.textFault? (Path.join ⟨"."⟩ ⟨name⟩) = none ∧
        (FileTree.rawProject "a").walk false
          (FileTree.startOf (FileTree.rawProject "a").workingDirectory (Path.join ⟨"."⟩ ⟨name⟩))
          (FileTree.namesOf (Path.join ⟨"."⟩ ⟨name⟩)) = .ok [name] ∧
        (FileTree.rawProject "a").lookup? [name] = none := by decide
  refine Arguments.settings_of_missing rfl fun name hname => ?_
  obtain ⟨hfault, hwalk, hlookup⟩ := hnames name hname
  exact FileTree.find?_of_walk hfree hfault hwalk hlookup

/-- The manifest of this project can be updated. -/
theorem exists_update_rawProject : ∃ update,
    Update.run (.rawProject "a") Check.besideResources ⟨"."⟩ 2024 =
      (.ok update, Check.rawProjectBeside "a") := by
  have hfree := FileTree.linkFree_rawProject
  have hresources : Check.besideResources.resourcesAt ⟨"."⟩ = ⟨"./res"⟩ := by decide
  have hexclusions : Check.besideResources.exclusionsAt ⟨"."⟩ =
      ⟨"./chassis_overlayable.xml"⟩ := by decide
  have hmanifest : Check.besideResources.manifestAt ⟨"."⟩ = ⟨"./overlayable.xml"⟩ := by
    decide
  have hcollect : ∃ scan, Scan.collect (.rawProject "a") Check.besideResources
      (Check.besideResources.resourcesAt ⟨"."⟩) = .ok scan ∧
        scan.resources \ ∅ = .ofList [⟨"raw", "a"⟩] := by
    rw [hresources, Scan.collect, Discovery.find, FileTree.locate_eq_walk hfree (by decide)]
    exact ⟨_, rfl, rfl⟩
  have hexcluded : ResourceSet.loadExclusions (.rawProject "a")
      (Check.besideResources.exclusionsAt ⟨"."⟩) = .ok ∅ := by
    rw [hexclusions]
    exact ResourceSet.loadExclusions_of_find?
      (FileTree.find?_of_walk hfree (by decide) rfl rfl)
  have hwrite : Update.writeDocument (.rawProject "a") (Check.besideResources.manifestAt ⟨"."⟩)
      Check.rawManifest.render = (.ok (), Check.rawProjectBeside "a") := by
    rw [hmanifest]
    exact Update.writeDocument_of_walk hfree ⟨"."⟩ (by decide) (by decide)
      rfl rfl (by decide) rfl (by decide)
  obtain ⟨scan, hscan, hkept⟩ := hcollect
  exact ⟨_, Update.run_of_kept hscan hexcluded hkept hwrite⟩

/-- A dry run prints the manifest that a run then writes, however much is told about it. -/
theorem rehearses_of_run_rawProject :
    (run (.rawProject "a") false 1970 textsForYear).exitCode = 0 ∧
      (run (.rawProject "a") false 1970 ("--dry-run" :: textsForYear)).exitCode = 0 ∧
      (run (.rawProject "a") false 1970 ("--dry-run" :: textsForYear)).tree = .rawProject "a" ∧
      (run (.rawProject "a") false 1970 ("-qv" :: textsForYear)).tree =
        Check.rawProjectBeside "a" ∧
      (Check.rawProjectBeside "a").readBytes ⟨"./overlayable.xml"⟩ =
        .ok (run (.rawProject "a") false 1970 ("--dry-run" :: textsForYear)).printed.toUTF8 := by
  have hread : Arguments.read Switch.ofGenerate textsForYear = .ok argumentsForYear := by
    decide
  have hquiet : Arguments.read Switch.ofGenerate ("-qv" :: textsForYear) =
      .ok { argumentsForYear with quiet := true, verbose := true } := by
    decide
  have hclosed := FileTree.closed_rawProject
  have hmanifest : Check.besideResources.manifestAt argumentsForYear.root =
      ⟨"./overlayable.xml"⟩ := by decide
  obtain ⟨update, hupdate⟩ := exists_update_rawProject
  obtain ⟨line, hrun⟩ := run_of_update hread settings_argumentsForYear rfl rfl hupdate false 1970
  obtain ⟨hrehearses, hsilenced, -⟩ := rehearses_of_run hclosed hread rfl rfl false false 1970 1970
  obtain ⟨-, -, -, htree⟩ := hsilenced _ _ hquiet rfl
  have hexit : (run (.rawProject "a") false 1970 textsForYear).exitCode = 0 := by
    rw [hrun, Outcome.exitCode_success]
  obtain ⟨hdry, settings, hsettings, hbytes⟩ := hrehearses.printed hexit
  obtain rfl : settings = Check.besideResources :=
    Except.ok.inj (hsettings.symm.trans settings_argumentsForYear)
  rw [hrun, Outcome.tree_success, hmanifest] at hbytes
  refine ⟨hexit, hdry, hrehearses.untouched, ?_, hbytes⟩
  rw [htree, hrun, Outcome.tree_success]

end Generate

end OverlayManifest
