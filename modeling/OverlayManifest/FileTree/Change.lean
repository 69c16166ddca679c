/-
# Changes to file trees

Directories are made, files are written and links are placed by path. A change
that cannot be made leaves the tree as it is, except that making all the
directories of a path may leave some of them made.
-/

import OverlayManifest.FileTree

namespace OverlayManifest.FileTree

/-- The location of the last name of a path, without following a link there, for a
path that ends with a name; a slash after the name does not count. -/
def place (tree : FileTree) (path : Path) : Except Fault Location :=
  match textFault? path, (namesOf path).reverse.dropWhile (· == .plain "") with
  | some fault, _ => .error fault
  | none, [] => .error .alreadyExists
  | none, name :: above =>
      match tree.follow false linkLimit (startOf tree.workingDirectory path) above.reverse with
      | .error fault => .error fault
      | .ok parent =>
          match tree.lookup? parent with
          | none => .error .notFound
          | some .directory =>
              if name = "." ∨ name = ".." then .error .alreadyExists
              else if nameLimit < name.size then .error .tooLong
              else .ok (parent ++ [name])
          | some _ => .error .notDirectory

/-- Places a new entry where a path ends. -/
def create (tree : FileTree) (path : Path) (entry : Entry) : Except Fault FileTree :=
  match tree.place path with
  | .error fault => .error fault
  | .ok location =>
      match tree.lookup? location with
      | some _ => .error .alreadyExists
      | none => .ok (tree.set location entry)

/-- Makes a directory. -/
def makeDirectory (tree : FileTree) (path : Path) : Except Fault FileTree :=
  tree.create path .directory

/-- Makes a directory unless one is there. -/
def ensureDirectory (tree : FileTree) (path : Path) : Except Fault FileTree :=
  match tree.makeDirectory path with
  | .ok after => .ok after
  | .error fault => if tree.hasDirectory path then .ok tree else .error fault

/-- Makes the first directory of a list of ancestors, and those after it that are
missing; also gives the tree that a fault leaves. -/
def makeAncestors (tree : FileTree) : List Path → Except Fault Unit × FileTree
  | [] => (.error .notFound, tree)
  | path :: above =>
      if path.text = "" then (.ok (), tree)
      else
        match tree.ensureDirectory path with
        | .ok after => (.ok (), after)
        | .error .notFound =>
            match tree.makeAncestors above with
            | (.error fault, after) => (.error fault, after)
            | (.ok (), after) =>
                match after.ensureDirectory path with
                | .ok last => (.ok (), last)
                | .error fault => (.error fault, after)
        | .error fault => (.error fault, tree)

/-- Makes a directory and those above it that are missing. -/
def makeDirectories (tree : FileTree) (path : Path) : Except Fault Unit × FileTree :=
  tree.makeAncestors path.ancestors

/-- Places a link to a target, of which only the text counts. A name with a slash after
it is no place for a link. -/
def makeLink (tree : FileTree) (path target : Path) : Except Fault FileTree :=
  match textFault? target, tree.create path (.link (.ofPath target)) with
  | some fault, _ => .error fault
  | none, .error fault => .error fault
  | none, .ok after => if path.text.toList.getLast? = some '/' then .error .notFound else .ok after

/-- Writes a file, which may be there already. -/
def writeFile (tree : FileTree) (path : Path) (bytes : ByteArray) : Except Fault FileTree :=
  match tree.locateToWrite path with
  | .error fault => .error fault
  | .ok location =>
      match tree.lookup? location with
      | some .directory => .error .isDirectory
      | _ => .ok (tree.set location (.file bytes))

/-- Takes away what stands where a path ends, and all that is below it. -/
def remove (tree : FileTree) (path : Path) : Except Fault FileTree :=
  match tree.place path with
  | .error fault => .error fault
  | .ok location =>
      match tree.lookup? location with
      | none => .error .notFound
      | some _ =>
          .ok { tree with entries := tree.entries.filter fun other _ => !location.isPrefixOf other }

end OverlayManifest.FileTree
