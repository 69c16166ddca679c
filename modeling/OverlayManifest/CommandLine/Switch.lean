/-
# Switches of the command line

A switch has a long name, perhaps a letter, and perhaps a value. Each program
knows some of the switches.
-/

namespace OverlayManifest.CommandLine

/-- A switch that a program may know. -/
inductive Switch
  | config
  | resources
  | manifest
  | exclusions
  | verbose
  | quiet
  | year
  | dryRun
  | format
  | output
  | help
  | version
  deriving DecidableEq, Repr

namespace Switch

/-- The name after two dashes. -/
def long : Switch → String
  | .config => "config"
  | .resources => "res-dir"
  | .manifest => "manifest"
  | .exclusions => "exclusions"
  | .verbose => "verbose"
  | .quiet => "quiet"
  | .year => "year"
  | .dryRun => "dry-run"
  | .format => "format"
  | .output => "output"
  | .help => "help"
  | .version => "version"

/-- The letter after one dash. -/
def letter? : Switch → Option Char
  | .config => some 'c'
  | .verbose => some 'v'
  | .quiet => some 'q'
  | .format => some 'f'
  | .output => some 'o'
  | .help => some 'h'
  | .version => some 'V'
  | _ => none

/-- What the value that follows the switch is called. -/
def valueName? : Switch → Option String
  | .config => some "CONFIG"
  | .resources => some "DIR"
  | .manifest | .exclusions => some "FILE"
  | .year => some "YEAR"
  | .format => some "FORMAT"
  | .output => some "OUTPUT"
  | _ => none

/-- The switch is followed by a value. -/
def takesValue (switch : Switch) : Bool := switch.valueName?.isSome

/-- What the switch does. -/
def description : Switch → String
  | .config => "Path to configuration file"
  | .resources => "Resource directory to scan, relative to the project"
  | .manifest => "Generated manifest, relative to the project"
  | .exclusions => "Overlayable file whose resources are left out of the manifest"
  | .verbose => "Verbose output"
  | .quiet => "Quiet mode - only output results"
  | .year => "Copyright year for the header (defaults to the current year)"
  | .dryRun => "Print the manifest instead of writing it"
  | .format => "Output format [default: terminal] [possible values: terminal, json]"
  | .output => "Output file (for json format)"
  | .help => "Print help"
  | .version => "Print version"

/-- The switches that choose a project and its settings. -/
def ofProject : List Switch := [.config, .resources, .manifest, .exclusions, .verbose, .quiet]

/-- The switches that choose a project, with help on them. -/
def shared : List Switch := ofProject ++ [.help]

/-- The switches of the program that writes manifests. -/
def ofGenerate : List Switch := ofProject ++ [.year, .dryRun, .help, .version]

/-- The switches of the program that checks manifests. -/
def ofVerify : List Switch := ofProject ++ [.format, .output, .help, .version]

/-- The switch with a long name. -/
def ofLong? (known : List Switch) (name : String) : Option Switch :=
  known.find? (·.long == name)

/-- The switch with a letter. -/
def ofLetter? (known : List Switch) (letter : Char) : Option Switch :=
  known.find? (·.letter? == some letter)

end Switch

end OverlayManifest.CommandLine
