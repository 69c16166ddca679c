/-
# Arguments of the command line

Arguments are read from the first to the last. A value that was given is looked
at only when the next switch or path is, or at the end, so that an unknown
argument in between is what is reported. After two dashes every argument is a
path. A program takes one path at most.
-/

import OverlayManifest.CommandLine.Switch
import OverlayManifest.Settings.Overrides
import OverlayManifest.Text.Digit

namespace OverlayManifest.CommandLine

/-- The arguments of a run. -/
structure Arguments where
  path : Option Path := none
  config : Option Path := none
  resources : Option Path := none
  manifest : Option Path := none
  exclusions : Option Path := none
  verbose : Bool := false
  quiet : Bool := false
  year : Option Int := none
  dryRun : Bool := false
  asData : Option Bool := none
  output : Option Path := none
  deriving DecidableEq, Inhabited, Repr

namespace Arguments

/-- The root of the project. -/
def root (arguments : Arguments) : Path := arguments.path.getD ⟨"."⟩

/-- The settings that the arguments replace. -/
def overrides (arguments : Arguments) : Overrides :=
  { resources := arguments.resources
    manifest := arguments.manifest
    exclusions := arguments.exclusions }

end Arguments

/-- What can be wrong with an argument. -/
inductive Misuse
  | unknownArgument
  | invalidValue
  | refusedValue
  | unwantedValue
  | repeated
  deriving DecidableEq, Repr

/-- Why a program does not run. -/
inductive Stop
  | misuse (cause : Misuse)
  | help
  | version
  deriving DecidableEq, Repr

/-- What a value is for. -/
inductive Target
  | path
  | switch (switch : Switch)
  deriving DecidableEq, Repr

/-- Reads a whole number with an optional sign. -/
def readInteger? (text : String) : Option Int :=
  let read? (digits : List Char) : Option Nat :=
    if digits.isEmpty || !digits.all Char.isDigit then none
    else some (Text.numberOf 10 digits)
  match text.toList with
  | '-' :: digits => (read? digits).map fun n => -(n : Int)
  | '+' :: digits => (read? digits).map Int.ofNat
  | digits => (read? digits).map Int.ofNat

/-- Reads a year, which fits into thirty-two bits with its sign. -/
def readYear (text : String) : Except Stop Int :=
  match readInteger? text with
  | some year =>
      if Int32.minValue.toInt ≤ year ∧ year ≤ Int32.maxValue.toInt then .ok year
      else .error (.misuse .refusedValue)
  | none => .error (.misuse .refusedValue)

/-- Reads a path, which is not empty. -/
def readPath (text : String) : Except Stop Path :=
  if text.isEmpty then .error (.misuse .invalidValue) else .ok ⟨text⟩

/-- Reads the form of a report. -/
def readFormat (text : String) : Except Stop Bool :=
  match text with
  | "terminal" => .ok false
  | "json" => .ok true
  | _ => .error (.misuse .invalidValue)

namespace Arguments

/-- A target has its value already. -/
def has (arguments : Arguments) : Target → Bool
  | .path => arguments.path.isSome
  | .switch .config => arguments.config.isSome
  | .switch .resources => arguments.resources.isSome
  | .switch .manifest => arguments.manifest.isSome
  | .switch .exclusions => arguments.exclusions.isSome
  | .switch .verbose => arguments.verbose
  | .switch .quiet => arguments.quiet
  | .switch .year => arguments.year.isSome
  | .switch .dryRun => arguments.dryRun
  | .switch .format => arguments.asData.isSome
  | .switch .output => arguments.output.isSome
  | .switch .help | .switch .version => false

/-- Gives a target its value, which it must not have yet. -/
def store (arguments : Arguments) (target : Target) (text : String) : Except Stop Arguments :=
  if arguments.has target then .error (.misuse .repeated)
  else
    match target with
    | .path => (readPath text).map fun path => { arguments with path }
    | .switch .config => (readPath text).map fun path => { arguments with config := path }
    | .switch .resources => (readPath text).map fun path => { arguments with resources := path }
    | .switch .manifest => (readPath text).map fun path => { arguments with manifest := path }
    | .switch .exclusions =>
        (readPath text).map fun path => { arguments with exclusions := path }
    | .switch .output => (readPath text).map fun path => { arguments with output := path }
    | .switch .year => (readYear text).map fun year => { arguments with year }
    | .switch .format => (readFormat text).map fun asData => { arguments with asData }
    | _ => .ok arguments

/-- Turns on a switch without a value. -/
def turnOn (arguments : Arguments) (switch : Switch) : Except Stop Arguments :=
  if arguments.has (.switch switch) then .error (.misuse .repeated)
  else
    match switch with
    | .help => .error .help
    | .version => .error .version
    | .verbose => .ok { arguments with verbose := true }
    | .quiet => .ok { arguments with quiet := true }
    | .dryRun => .ok { arguments with dryRun := true }
    | _ => .ok arguments

end Arguments

/-- Where a reader of arguments stands: what was looked at, the target that waits for
its value or has one that was not looked at, whether a path was given, and whether
only paths follow. -/
structure Reader where
  arguments : Arguments := {}
  waiting : Option (Target × Option String) := none
  hasPath : Bool := false
  pathsOnly : Bool := false

namespace Reader

/-- Looks at the value that was given last. -/
def settle (reader : Reader) : Except Stop Reader :=
  match reader.waiting with
  | none => .ok reader
  | some (_, none) => .error (.misuse .invalidValue)
  | some (target, some text) =>
      (reader.arguments.store target text).map fun arguments =>
        { reader with arguments, waiting := none }

/-- Turns on a switch without a value. -/
def turnOn (reader : Reader) (switch : Switch) : Except Stop Reader := do
  let reader ← reader.settle
  return { reader with arguments := ← reader.arguments.turnOn switch }

/-- Reads a switch with a value, which may be attached to it. -/
def expect (reader : Reader) (switch : Switch) (attached : Option String) :
    Except Stop Reader := do
  let reader ← reader.settle
  match attached with
  | some text =>
      return { reader with arguments := ← reader.arguments.store (.switch switch) text }
  | none => return { reader with waiting := some (.switch switch, none) }

/-- Reads the text after two dashes: a name and perhaps a value after an equals sign. -/
def readLong (known : List Switch) (reader : Reader) (text : List Char) :
    Except Stop Reader :=
  let attached := match text.dropWhile (· != '=') with
    | [] => none
    | _ :: value => some (String.ofList value)
  match Switch.ofLong? known (String.ofList (text.takeWhile (· != '='))) with
  | none => .error (.misuse .unknownArgument)
  | some switch =>
      if switch.takesValue then reader.expect switch attached
      else if attached.isSome then .error (.misuse .unwantedValue)
      else reader.turnOn switch

/-- Reads the letters after a dash. What follows the letter of a switch with a value is
that value, with or without an equals sign. -/
def readLetters (known : List Switch) (reader : Reader) : List Char → Except Stop Reader
  | [] => .ok reader
  | letter :: rest =>
      match Switch.ofLetter? known letter with
      | none => .error (.misuse .unknownArgument)
      | some switch =>
          if switch.takesValue then
            reader.expect switch <|
              match rest with
              | [] => none
              | '=' :: value => some (String.ofList value)
              | value => some (String.ofList value)
          else
            match reader.turnOn switch with
            | .error stop => .error stop
            | .ok reader => readLetters known reader rest

/-- Reads a path. -/
def readPositional (reader : Reader) (text : String) : Except Stop Reader :=
  if reader.hasPath then .error (.misuse .unknownArgument)
  else
    reader.settle.map fun reader =>
      { reader with waiting := some (.path, some text), hasPath := true }

/-- Reads an argument. -/
def readArgument (known : List Switch) (reader : Reader) (text : String) :
    Except Stop Reader :=
  if reader.pathsOnly then reader.readPositional text
  else
    match text.toList with
    | ['-', '-'] => .ok { reader with pathsOnly := true }
    | '-' :: '-' :: long => reader.readLong known long
    | '-' :: letter :: letters => reader.readLetters known (letter :: letters)
    | _ =>
        match reader.waiting with
        | some (target, none) => .ok { reader with waiting := some (target, some text) }
        | _ => reader.readPositional text

end Reader

/-- Reads the arguments of a program that knows some switches. -/
def Arguments.read (known : List Switch) (texts : List String) : Except Stop Arguments := do
  let reader ← texts.foldlM (Reader.readArgument known) {}
  return (← reader.settle).arguments

end OverlayManifest.CommandLine
