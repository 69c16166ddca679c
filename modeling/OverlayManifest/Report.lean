/-
# Reports

A report on the drift of a manifest is printed for a terminal or as data. Data
can go to a file instead, and then a line names the file. Paths are shown as
seen from the root of the project.
-/

import OverlayManifest.FileTree.Change
import OverlayManifest.Report.Json
import OverlayManifest.Report.Terminal

namespace OverlayManifest

/-- A request to report: the form, the file for data, and whether colours are shown. -/
structure Report where
  asData : Bool
  output : Option Path
  coloured : Bool
  deriving DecidableEq, Repr

namespace Report

/-- What is reported: the drift of a manifest, and where resources are declared. -/
structure Finding where
  root : Path
  manifest : Path
  drift : Drift
  origins : Std.ExtTreeMap Resource FilePath

namespace Finding

/-- The manifest as the report shows it. -/
def shownManifest (finding : Finding) : String := finding.manifest.shownFrom finding.root

/-- The file that declares a resource, as the report shows it. -/
def shownOrigin (finding : Finding) (resource : Resource) : Option String :=
  finding.origins[resource]?.map (·.shownFrom finding.root)

/-- The report for a terminal. -/
def terminalText (finding : Finding) (coloured : Bool) : String :=
  String.ofList
    (Terminal.render coloured finding.drift finding.shownManifest finding.shownOrigin)

/-- The report as data. -/
def dataText (finding : Finding) : String :=
  String.ofList (Json.render finding.drift finding.shownManifest finding.shownOrigin)

end Finding

/-- The line that names the file a report went to. -/
def writtenNote (path : Path) : String := "Report written to: " ++ path.text ++ "\n"

/-- What is printed, and the tree after a report; a file may be refused. -/
def deliver (report : Report) (tree : FileTree) (finding : Finding) :
    Except FileTree.Fault (String × FileTree) :=
  match report.asData, report.output with
  | false, _ => .ok (finding.terminalText report.coloured, tree)
  | true, none => .ok (finding.dataText ++ "\n", tree)
  | true, some path =>
      match tree.writeFile path finding.dataText.toUTF8 with
      | .error fault => .error fault
      | .ok after => .ok (writtenNote path, after)

end Report

end OverlayManifest
