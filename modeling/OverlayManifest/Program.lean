/-
# The programs

One program writes the manifest of a project, the other checks it. Both read
their arguments, then the settings, and then the project. A program ends with
the problem that it met, if it met one, with what it printed, and with the tree
it leaves.
-/

import OverlayManifest.Check
import OverlayManifest.CommandLine.Arguments
import OverlayManifest.CommandLine.Help
import OverlayManifest.Settings.File
import OverlayManifest.Update

namespace OverlayManifest

open CommandLine

/-- The settings for a run: those of the file that the arguments name, or of the
project, with the overrides of the arguments. -/
def CommandLine.Arguments.settings (arguments : Arguments) (tree : FileTree) :
    Except Settings.Fault Settings :=
  let loaded :=
    match arguments.config with
    | some path => Settings.ofFile tree path
    | none => Settings.ofProject tree arguments.root
  loaded.map arguments.overrides.applyTo

/-- Why a program does not end well; drift is a finding, not a failure. -/
inductive Problem
  | misuse (cause : Misuse)
  | settings (fault : Settings.Fault)
  | failure (failure : Failure)
  | undelivered (fault : FileTree.Fault)
  | drift
  deriving DecidableEq, Repr

/-- The code with which a program ends. -/
def Problem.exitCode : Problem → Nat
  | .misuse _ => 2
  | _ => 1

/-- How a program ends. -/
structure Outcome where
  problem : Option Problem
  printed : String
  tree : FileTree

namespace Outcome

/-- A program ends well. -/
def success (tree : FileTree) (printed : String) : Outcome := ⟨none, printed, tree⟩

/-- A program ends with a problem and prints nothing. -/
def silent (tree : FileTree) (problem : Problem) : Outcome := ⟨some problem, "", tree⟩

/-- A program that knows some switches does not run. -/
def stopped (tree : FileTree) (coloured : Bool) (program : String) (known : List Switch) :
    Stop → Outcome
  | .misuse cause => silent tree (.misuse cause)
  | .help => success tree (Help.text coloured program known)
  | .version => success tree (program ++ " " ++ Report.Json.version ++ "\n")

/-- The code with which a program ends; zero says that all is well. -/
def exitCode (outcome : Outcome) : Nat := (outcome.problem.map Problem.exitCode).getD 0

/-- The code of the failure that ended a program. -/
def diagnostic? (outcome : Outcome) : Option String :=
  match outcome.problem with
  | some (.failure failure) => some failure.code
  | _ => none

end Outcome

namespace Generate

/-- The name of the program that writes manifests. -/
def programName : String := Report.Terminal.regenerateCommand

/-- The line that tells what was written. -/
def successLine (coloured : Bool) (manifest : Path) (update : Update) : String :=
  String.ofList (Report.Style.paint coloured .success
    ("✓ Wrote " ++ manifest.text ++ " (" ++ toString update.kept.size ++
      " overlayable resources from " ++ toString update.scan.fileCount ++ " files, " ++
      toString update.excludedCount ++ " excluded)").toList) ++ "\n"

/-- Writes or prints the manifest that arguments and settings ask for. -/
def runWith (tree : FileTree) (coloured : Bool) (thisYear : Int) (arguments : Arguments)
    (settings : Settings) : Outcome :=
  let root := arguments.root
  let year := arguments.year.getD thisYear
  if arguments.dryRun then
    match Update.plan tree settings root with
    | .error failure => .silent tree (.failure failure)
    | .ok update => .success tree (update.manifest settings year).render
  else
    match Update.run tree settings root year with
    | (.error failure, after) => .silent after (.failure failure)
    | (.ok update, after) =>
        .success after <|
          if arguments.quiet then ""
          else successLine coloured (settings.manifestAt root) update

/-- Runs the program that writes manifests. -/
def run (tree : FileTree) (coloured : Bool) (thisYear : Int) (texts : List String) : Outcome :=
  match Arguments.read Switch.ofGenerate texts with
  | .error stop => .stopped tree coloured programName Switch.ofGenerate stop
  | .ok arguments =>
      match arguments.settings tree with
      | .error fault => .silent tree (.settings fault)
      | .ok settings => runWith tree coloured thisYear arguments settings

end Generate

namespace Verify

/-- The name of the program that checks manifests. -/
def programName : String := "verify-overlayable"

/-- Checks the manifest that arguments and settings name. -/
def runWith (tree : FileTree) (coloured : Bool) (arguments : Arguments) (settings : Settings) :
    Outcome :=
  match Check.run tree settings arguments.root with
  | .error failure => .silent tree (.failure failure)
  | .ok finding =>
      let report : Report := ⟨arguments.asData.getD false, arguments.output, coloured⟩
      match report.deliver tree finding with
      | .error fault => .silent tree (.undelivered fault)
      | .ok (printed, after) =>
          ⟨if finding.drift.isUpToDate then none else some .drift, printed, after⟩

/-- Runs the program that checks manifests. -/
def run (tree : FileTree) (coloured : Bool) (texts : List String) : Outcome :=
  match Arguments.read Switch.ofVerify texts with
  | .error stop => .stopped tree coloured programName Switch.ofVerify stop
  | .ok arguments =>
      match arguments.settings tree with
      | .error fault => .silent tree (.settings fault)
      | .ok settings => runWith tree coloured arguments settings

end Verify

end OverlayManifest
