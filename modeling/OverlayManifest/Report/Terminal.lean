/-
# The report for a terminal

A headline counts the changes, two sections list them, removed resources first,
and a last line names the command that writes the manifest again. Without
changes the report is empty.
-/

import OverlayManifest.Drift
import OverlayManifest.Report.Style

namespace OverlayManifest.Report.Terminal

open Style (paint)

/-- The command that writes the manifest again. -/
def regenerateCommand : String := "generate-overlayable"

/-- The line that counts the changes. -/
def headline (coloured : Bool) (drift : Drift) (manifest : String) : List Char :=
  paint coloured .headline
      (manifest.toList ++ " is out of date: ".toList ++ (toString drift.added.length).toList ++
        " added, ".toList ++ (toString drift.removed.length).toList ++ " removed".toList) ++
    ['\n', '\n']

/-- The line of a removed resource. -/
def removedLine (coloured : Bool) (resource : Resource) : List Char :=
  [' ', ' '] ++ paint coloured .removedMark ['-'] ++ [' '] ++ resource.display.toList ++ ['\n']

/-- Where a resource is declared, if that is known. -/
def originNote (coloured : Bool) : Option String → List Char
  | some file => ' ' :: paint coloured .origin (['('] ++ file.toList ++ [')'])
  | none => []

/-- The line of an added resource. -/
def addedLine (coloured : Bool) (origin : Resource → Option String) (resource : Resource) :
    List Char :=
  [' ', ' '] ++ paint coloured .addedMark ['+'] ++ [' '] ++ resource.display.toList ++
    originNote coloured (origin resource) ++ ['\n']

/-- A title and the lines below it; a section without lines is left out. -/
def sectionOf (title : List Char) : List (List Char) → List Char
  | [] => []
  | lines => title ++ ['\n'] ++ lines.flatten ++ ['\n']

/-- The line that names the command. -/
def advice (coloured : Bool) (manifest : String) : List Char :=
  "Run ".toList ++ paint coloured .command regenerateCommand.toList ++
    " to regenerate ".toList ++ manifest.toList ++ ['.', '\n']

/-- The report on the drift of a manifest. -/
def render (coloured : Bool) (drift : Drift) (manifest : String)
    (origin : Resource → Option String) : List Char :=
  if drift.isUpToDate then []
  else
    headline coloured drift manifest ++
    sectionOf (paint coloured .removedTitle "Removed resources:".toList)
      (drift.removed.map (removedLine coloured)) ++
    sectionOf (paint coloured .addedTitle "Added resources:".toList)
      (drift.added.map (addedLine coloured origin)) ++
    advice coloured manifest

end OverlayManifest.Report.Terminal
