/-
# The command line

The command line takes a snapshot of what a run can look at, runs one of the
programs on it, and writes the files and directories that the program adds or
changes. A link that leads nowhere is left to the file system.
-/

import OverlayManifest.Program
import Std.Time.Zoned

namespace OverlayManifest.Snapshot

/-- The text of the path of a location. -/
def textOf (location : Location) : String :=
  "/" ++ "/".intercalate (location.map FileName.shown)

/-- The location that an absolute path without links names. -/
def locationOf (text : String) : Location := (FileTree.namesOf ⟨text⟩).filter (· != .plain "")

/-- Notes that the places above a location are directories. -/
def noteAbove (tree : FileTree) (location : Location) : FileTree :=
  (List.range location.length).foldl (fun tree count =>
    let above := location.take count
    if (tree.lookup? above).isSome then tree else tree.set above .directory) tree

/-- Notes what stands at a location and, where a link leads elsewhere, what stands
there; gives the location that the link leads to. -/
def noteEntry (tree : FileTree) (location : Location) : IO (FileTree × Location) := do
  let path ← try some <$> IO.FS.realPath (textOf location.dropLast) catch _ => pure none
  let some parent := path | return (tree, location)
  let place := parent / (location.getLast?.map FileName.shown |>.getD ".")
  let found ← try some <$> place.symlinkMetadata catch _ => pure none
  let some metadata := found | return (tree, location)
  match metadata.type with
  | .dir => return (tree.set location .directory, location)
  | .file => return (tree.set location (.file (← IO.FS.readBinFile place)), location)
  | .symlink =>
      let resolved ← try some <$> IO.FS.realPath place catch _ => pure none
      let some target := resolved | return (tree, location)
      let there := locationOf target.toString
      let tree := (noteAbove tree there).set location (.link (.ofPath ⟨target.toString⟩))
      if ← target.isDir then return (tree.set there .directory, there)
      else return (tree.set there (.file (← IO.FS.readBinFile target)), there)
  | .other => return (tree, location)

/-- Notes what stands along a path, and gives the location where it leads. -/
def notePath (tree : FileTree) (path : Path) : IO (FileTree × Location) := do
  let mut tree := tree
  let mut here := FileTree.startOf tree.workingDirectory path
  for name in FileTree.namesOf path do
    if name = ".." then here := here.dropLast
    else if name ≠ "" ∧ name ≠ "." then
      (tree, here) ← noteEntry tree (here ++ [name])
  return (tree, here)

/-- Notes what stands in a directory and, to a depth, in the directories in it. -/
def noteBelow (depth : Nat) (tree : FileTree) (location : Location) : IO FileTree := do
  match depth with
  | 0 => return tree
  | depth + 1 =>
      let mut tree := tree
      if tree.lookup? location = some .directory then
        for entry in ← (← IO.FS.realPath (textOf location)).readDir do
          let below := location ++ [.plain entry.fileName]
          let (after, _) ← noteEntry tree below
          tree ← noteBelow depth after below
      return tree

/-- Notes what stands along paths. -/
def notePaths (tree : FileTree) (paths : List Path) : IO FileTree :=
  paths.foldlM (fun tree path => do return (← notePath tree path).1) tree

/-- What a run with some arguments can look at. -/
def take (arguments : CommandLine.Arguments) : IO FileTree := do
  let here := locationOf (← IO.FS.realPath ".").toString
  let start := (noteAbove { FileTree.empty with workingDirectory := here } here).set here .directory
  let root := arguments.root
  let named := root :: arguments.config.toList ++ arguments.output.toList
  let tree ← notePaths start (named ++ Settings.fileNames.map fun name => root.join ⟨name⟩)
  match arguments.settings tree with
  | .error _ => return tree
  | .ok settings =>
      let tree ← notePaths tree [settings.manifestAt root, settings.exclusionsAt root]
      let (tree, resources) ← notePath tree (settings.resourcesAt root)
      noteBelow 2 tree resources

/-- Makes the directories and writes the files that one tree has over another. -/
def apply (before after : FileTree) : IO Unit := do
  for (location, entry) in after.entries.toList do
    if before.lookup? location ≠ some entry then
      match entry with
      | .directory => IO.FS.createDirAll (textOf location)
      | .file bytes => IO.FS.writeBinFile (textOf location) bytes
      | .link _ => pure ()

/-- Runs a program on a snapshot, if its arguments can be read. -/
def runOn (known : List CommandLine.Switch) (texts : List String) (run : FileTree → Outcome) :
    IO UInt32 := do
  let tree ← match CommandLine.Arguments.read known texts with
    | .ok arguments => take arguments
    | .error _ => pure .empty
  let outcome := run tree
  apply tree outcome.tree
  IO.print outcome.printed
  match outcome.problem with
  | some (.failure failure) =>
      IO.eprintln (failure.code ++ ": " ++ failure.message)
      for cause in failure.cause?.toList do
        IO.eprintln ("caused by: " ++ cause)
      for hint in failure.hint?.toList do
        IO.eprintln ("help: " ++ hint)
  | some (.settings fault) => IO.eprintln fault.message
  | some (.undelivered _) => IO.eprintln "The report could not be written"
  | some (.misuse _) => IO.eprintln "The arguments cannot be understood; try --help"
  | some .drift | none => pure ()
  return outcome.exitCode.toUInt32

end OverlayManifest.Snapshot

open OverlayManifest in
/-- The first argument says which program runs, the others are its arguments. -/
def main (texts : List String) : IO UInt32 := do
  let coloured := (← IO.getEnv "CLICOLOR_FORCE").isSome
  match texts with
  | "generate" :: rest =>
      let year := (← Std.Time.PlainDate.now).year.toInt
      Snapshot.runOn CommandLine.Switch.ofGenerate rest (Generate.run · coloured year rest)
  | "verify" :: rest =>
      Snapshot.runOn CommandLine.Switch.ofVerify rest (Verify.run · coloured rest)
  | _ =>
      IO.eprintln "The first argument is generate or verify"
      return 2
