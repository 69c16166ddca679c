/-
# File trees

A file tree holds directories, files and symbolic links, each at a location:
the names that lead to it from the root. The root is always a directory.
Relative paths start at the working directory. A path is followed step by step;
each step but the last must arrive at a directory, and links are replaced by
the paths they hold. The length of a path, and of each name in it, is limited.
-/

import OverlayManifest.FilePath

namespace OverlayManifest

/-- The names that lead to a place from the root. -/
abbrev Location := List FileName

/-- The names between the slashes of a path. -/
def FileTree.namesOf (path : Path) : List FileName :=
  (path.text.toList.splitOn '/').map .ofStep

/-- What a link holds: the names between the slashes of a path. -/
structure Target where
  isAbsolute : Bool
  names : List FileName
  nonempty : names ≠ []
  noSlash : ∀ name ∈ names, ¬ name.HasSlash
  deriving DecidableEq

/-- The target that is given as a path. -/
def Target.ofPath (path : Path) : Target where
  isAbsolute := path.isAbsolute
  names := FileTree.namesOf path
  nonempty := by simp [FileTree.namesOf]
  noSlash := by
    intro name hname
    obtain ⟨step, hstep, rfl⟩ := List.mem_map.mp hname
    show '/' ∉ (String.ofList step).toList
    rw [String.toList_ofList]
    exact Path.slash_notMem_of_mem_splitOn hstep

/-- Where following a link in a directory starts. -/
def Target.startFrom (target : Target) (here : Location) : Location :=
  if target.isAbsolute then [] else here

/-- What stands at a location. -/
inductive Entry
  | directory
  | file (bytes : ByteArray)
  | link (target : Target)

instance : DecidableEq Entry
  | .directory, .directory => isTrue rfl
  | .file bytes, .file other =>
      @decidable_of_iff _ _ (by rw [Entry.file.injEq]) (ByteArray.decEq bytes other)
  | .link target, .link other => decidable_of_iff (target = other) (by rw [Entry.link.injEq])
  | .directory, .file _ | .directory, .link _ | .file _, .directory | .file _, .link _
  | .link _, .directory | .link _, .file _ => isFalse (by simp)

/-- The entries below the root, and the location where relative paths start. -/
structure FileTree where
  entries : Std.ExtTreeMap Location Entry
  workingDirectory : Location

namespace FileTree

/-- Why a path cannot be used as asked. -/
inductive Fault
  | notFound
  | isDirectory
  | notDirectory
  | alreadyExists
  | notText
  | invalidPath
  | tooLong
  | tooManyLinks
  deriving DecidableEq, Repr

/-- The wording of a fault, most of which are the operating system's. -/
def Fault.message : Fault → String
  | .notFound => "No such file or directory (os error 2)"
  | .isDirectory => "Is a directory (os error 21)"
  | .notDirectory => "Not a directory (os error 20)"
  | .alreadyExists => "File exists (os error 17)"
  | .notText => "stream did not contain valid UTF-8"
  | .invalidPath => "file name contained an unexpected NUL byte"
  | .tooLong => "File name too long (os error 36)"
  | .tooManyLinks => "Too many levels of symbolic links (os error 40)"

/-- A tree without entries, entered at its root. -/
def empty : FileTree := ⟨∅, []⟩

/-- What stands at a location. -/
def lookup? (tree : FileTree) (location : Location) : Option Entry :=
  if location = [] then some .directory else tree.entries[location]?

/-- The tree with an entry at a location. -/
def set (tree : FileTree) (location : Location) (entry : Entry) : FileTree :=
  { tree with entries := tree.entries.insert location entry }

/-- The number of links that following one path may pass through. -/
def linkLimit : Nat := 40

/-- The number of bytes that the text of a path may have. -/
def pathLimit : Nat := 4095

/-- The number of bytes that a name may have. -/
def nameLimit : Nat := 255

/-- What is wrong with the text of a path, wherever it leads. -/
def textFault? (path : Path) : Option Fault :=
  if path.text = "" then some .notFound
  else if '\x00' ∈ path.text.toList then some .invalidPath
  else if pathLimit < path.text.utf8ByteSize then some .tooLong
  else none

/-- What is wrong with the path of a file, wherever it leads. -/
def fileFault? : FilePath → Option Fault
  | .plain path => textFault? path
  | path@(.raw _ _) =>
      if path.HasZero then some .invalidPath
      else if pathLimit < path.size then some .tooLong
      else none

/-- Where following a path starts. -/
def startOf (here : Location) (path : Path) : Location :=
  if path.isAbsolute then [] else here

/-- Only slashes are left of a path, whose last name therefore asks for a directory. -/
def onlySlashes (names : List FileName) : Bool := !names.isEmpty && names.all (· == "")

/-- Follows names from a location, through at most `links` links. Nothing needs to
stand at the location it arrives at. A path on which a file is to be written may not
have slashes after its last name, nor may the links that end it. -/
def follow (tree : FileTree) (writing : Bool) (links : Nat) (here : Location)
    (names : List FileName) : Except Fault Location :=
  match names with
  | [] => .ok here
  | name :: rest =>
      match tree.lookup? here with
      | none => .error .notFound
      | some (.file _) | some (.link _) => .error .notDirectory
      | some .directory =>
          if name = "" ∨ name = "." then tree.follow writing links here rest
          else if name = ".." then tree.follow writing links here.dropLast rest
          else if writing && onlySlashes rest then .error .isDirectory
          else if nameLimit < name.size then .error .tooLong
          else
            match tree.lookup? (here ++ [name]) with
            | some (.link target) =>
                match links with
                | 0 => .error .tooManyLinks
                | links + 1 =>
                    tree.follow writing links (target.startFrom here) (target.names ++ rest)
            | _ => tree.follow writing links (here ++ [name]) rest
termination_by (links, names.length)

/-- The location that a path leads to, where nothing needs to stand. -/
def locate (tree : FileTree) (path : Path) : Except Fault Location :=
  match textFault? path with
  | some fault => .error fault
  | none => tree.follow false linkLimit (startOf tree.workingDirectory path) (namesOf path)

/-- The location where a file is written that a path leads to. -/
def locateToWrite (tree : FileTree) (path : Path) : Except Fault Location :=
  match textFault? path with
  | some fault => .error fault
  | none => tree.follow true linkLimit (startOf tree.workingDirectory path) (namesOf path)

/-- What a path leads to. -/
def find? (tree : FileTree) (path : Path) : Except Fault Entry :=
  match tree.locate path with
  | .error fault => .error fault
  | .ok location =>
      match tree.lookup? location with
      | none => .error .notFound
      | some entry => .ok entry

/-- A path leads to something. -/
def hasEntry (tree : FileTree) (path : Path) : Bool :=
  match tree.find? path with
  | .ok _ => true
  | .error _ => false

/-- A path leads to a file. -/
def hasFile (tree : FileTree) (path : Path) : Bool :=
  match tree.find? path with
  | .ok (.file _) => true
  | _ => false

/-- A path leads to a directory. -/
def hasDirectory (tree : FileTree) (path : Path) : Bool :=
  match tree.find? path with
  | .ok .directory => true
  | _ => false

/-- The bytes of the file that a path leads to. -/
def readBytes (tree : FileTree) (path : Path) : Except Fault ByteArray :=
  match tree.find? path with
  | .error fault => .error fault
  | .ok (.file bytes) => .ok bytes
  | .ok _ => .error .isDirectory

/-- The text that bytes encode. -/
def textOf (bytes : ByteArray) : Except Fault String :=
  match String.fromUTF8? bytes with
  | some text => .ok text
  | none => .error .notText

/-- The text of the file that a path leads to. -/
def readText (tree : FileTree) (path : Path) : Except Fault String :=
  match tree.readBytes path with
  | .error fault => .error fault
  | .ok bytes => textOf bytes

/-- The root is always a directory. -/
@[simp]
theorem lookup?_nil (tree : FileTree) : tree.lookup? [] = some .directory := rfl

/-- An entry is found where it was set, and no other place below the root changes. -/
theorem lookup?_set (tree : FileTree) (location other : Location) (entry : Entry)
    (h : other ≠ []) :
    (tree.set location entry).lookup? other =
      if location = other then some entry else tree.lookup? other := by
  simp [lookup?, set, h, Std.ExtTreeMap.getElem?_insert]

/-- Every text is what its bytes encode. -/
theorem textOf_toUTF8 (text : String) : textOf text.toUTF8 = .ok text := by
  have : String.fromUTF8? text.toUTF8 = some text := by
    simp only [String.fromUTF8?, String.toUTF8_eq_toByteArray, dif_pos text.isValidUTF8]
    rfl
  rw [textOf, this]

end FileTree

end OverlayManifest
