/-
# Help texts

Each program describes its arguments on request, one line for each. Where
colours are shown, titles are bold and underlined, and what is typed as it stands
is bold. The descriptions of all switches start in one column.
-/

import OverlayManifest.CommandLine.Switch

namespace OverlayManifest.CommandLine.Help

/-- A text between a sequence that sets a style and the one that resets it. -/
def styled (coloured : Bool) (style text : String) : String :=
  if coloured then style ++ text ++ "\x1b[0m" else text

/-- The title of a part. -/
def title (coloured : Bool) (text : String) : String :=
  styled coloured "\x1b[1m\x1b[4m" text

/-- A text that is typed as it stands. -/
def literal (coloured : Bool) (text : String) : String := styled coloured "\x1b[1m" text

/-- What is typed for a switch. -/
def label (coloured : Bool) (switch : Switch) : String :=
  let letter :=
    match switch.letter? with
    | some letter => literal coloured ("-" ++ letter.toString) ++ ", "
    | none => "    "
  let value :=
    match switch.valueName? with
    | some name => " <" ++ name ++ ">"
    | none => ""
  letter ++ literal coloured ("--" ++ switch.long) ++ value

/-- The number of characters that the longest label takes; styles take none. -/
def labelWidth (switches : List Switch) : Nat :=
  (switches.map fun switch => (label false switch).length).foldl max 0

/-- The line that describes a switch. -/
def switchLine (coloured : Bool) (width : Nat) (switch : Switch) : String :=
  let gap := width - (label false switch).length + 2
  "  " ++ label coloured switch ++ "".pushn ' ' gap ++ switch.description ++ "\n"

/-- The help text of a program that knows some switches. -/
def text (coloured : Bool) (program : String) (switches : List Switch) : String :=
  "Generate and verify the overlayable.xml allow-list of an Android app's resources\n\n" ++
    title coloured "Usage:" ++ " " ++ literal coloured program ++ " [OPTIONS] [PATH]\n\n" ++
    title coloured "Arguments:" ++ "\n" ++
    "  [PATH]  Path to the app project (the directory containing `res/`) [default: .]\n\n" ++
    title coloured "Options:" ++ "\n" ++
    String.join (switches.map (switchLine coloured (labelWidth switches)))

end OverlayManifest.CommandLine.Help
