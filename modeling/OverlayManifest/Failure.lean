/-
# Failures

A run can fail because a file cannot be read or written or a directory cannot be
listed, because a directory or a file that it needs is missing, or because a
document has a fault. Each failure carries the path it is about and its cause, if
it has one, and is known by a code. For some there is a hint.
-/

import OverlayManifest.Document.Fault
import OverlayManifest.FileTree

namespace OverlayManifest

/-- Why a run stops. -/
inductive Failure
  | read (path : FilePath) (cause : FileTree.Fault)
  | write (path : Path) (cause : FileTree.Fault)
  | walk (path : Path) (directory : FilePath) (cause : FileTree.Fault)
  | noResourceDirectory (path : Path)
  | noManifest (path : Path)
  | document (path : FilePath) (fault : Document.Fault)
  deriving DecidableEq, Repr

namespace Failure

/-- The wording of a failure. -/
def message : Failure → String
  | .read path _ => "Failed to read " ++ path.shown.text
  | .write path _ => "Failed to write " ++ path.text
  | .walk path _ _ => "Failed to walk resource directory " ++ path.text
  | .noResourceDirectory path => "Resource directory not found: " ++ path.text
  | .noManifest path => "Manifest not found: " ++ path.text
  | .document path fault => fault.message path.shown.text

/-- The wording of what caused a failure. -/
def cause? : Failure → Option String
  | .read _ cause | .write _ cause => some cause.message
  | .walk _ directory cause =>
      some ("IO error for operation on " ++ directory.shown.text ++ ": " ++ cause.message)
  | .document _ (.malformed cause) => some cause.message
  | _ => none

/-- The code under which a failure is known to other tools. -/
def code : Failure → String
  | .read _ _ => "overlayable::io::read"
  | .write _ _ => "overlayable::io::write"
  | .walk _ _ _ => "overlayable::io::walk"
  | .noResourceDirectory _ => "overlayable::scan::res_dir_not_found"
  | .noManifest _ => "overlayable::verify::manifest_not_found"
  | .document _ fault =>
      match fault with
      | .malformed _ => "overlayable::xml::malformed"
      | .unexpectedRoot _ => "overlayable::xml::unexpected_root"
      | .unclosed => "overlayable::xml::unclosed"
      | .missingAttribute _ _ => "overlayable::xml::missing_attribute"

/-- What may help against a failure. -/
def hint? : Failure → Option String
  | .noResourceDirectory _ =>
      some "Pass the project root as PATH, or set `res_dir` in the config file"
  | .noManifest _ => some "Run generate-overlayable to create it"
  | _ => none

end Failure

end OverlayManifest
