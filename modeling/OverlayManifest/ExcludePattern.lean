/-
# Exclude patterns

A pattern says which resource files a scan leaves out. It is tried on the path
of a file below the resource directory and on the file's name. Stars stand at
the start or the end of a pattern without slashes; two stars stand for any
directories. Any other pattern is the text itself.
-/

import OverlayManifest.Path
import OverlayManifest.Text

namespace OverlayManifest

/-- A pattern in the spelling it was given. -/
structure ExcludePattern where
  text : String
  deriving DecidableEq, Inhabited, Repr

namespace ExcludePattern

open Text (occurs)

/-- The texts before and after the first two stars. -/
def splitAtStars : List Char → Option (List Char × List Char)
  | '*' :: '*' :: after => some ([], after)
  | c :: text => (splitAtStars text).map fun (before, after) => (c :: before, after)
  | [] => none

/-- A text without the `**/` that it starts with, however often. -/
def dropStars : List Char → List Char
  | '*' :: '*' :: '/' :: text => dropStars text
  | text => text

/-- A pattern for everything below a directory: `**/`, its name, and `/**`. -/
def isDirectoryPattern (pattern : List Char) : Bool :=
  ['*', '*', '/'].isPrefixOf pattern && ['/', '*', '*'].isSuffixOf pattern

/-- The name in a pattern for everything below a directory. -/
def directoryName (pattern : List Char) : List Char :=
  (dropStars (dropStars pattern).reverse).reverse

/-- The text opens with what stands before the stars, or has it as a directory. -/
def opensWith (before text : List Char) : Bool :=
  before.isPrefixOf text || occurs (['/'] ++ before ++ ['/']) text

/-- The text ends with what stands after the stars, or has it after a slash. -/
def endsWith (after text : List Char) : Bool :=
  after.isSuffixOf text || occurs ('/' :: after) text

/-- A text matches the two sides of a pattern with two stars. -/
def matchesSides (before after text : List Char) : Bool :=
  match before, after with
  | [], [] => true
  | [], after => endsWith after text
  | before, [] => before.isPrefixOf text || occurs (before ++ ['/']) text
  | before, after => opensWith before text && endsWith after text

/-- A text matches a pattern that no leading or trailing star decides. -/
def matchesStars (pattern text : List Char) : Bool :=
  if isDirectoryPattern pattern then
    let name := directoryName pattern
    (name ++ ['/']).isPrefixOf text || occurs (['/'] ++ name ++ ['/']) text
  else
    match splitAtStars pattern with
    | none => text == pattern
    | some (before, after) =>
        if (splitAtStars after).isSome then text == pattern
        else
          matchesSides (before.reverse.dropWhile (· == '/')).reverse
            (after.dropWhile (· == '/')) text

/-- A text matches a pattern. -/
def matchesText (pattern text : List Char) : Bool :=
  if '/' ∈ pattern then matchesStars pattern text
  else if pattern.head? = some '*' then pattern.tail.isSuffixOf text
  else if pattern.getLast? = some '*' then pattern.dropLast.isPrefixOf text
  else matchesStars pattern text

/-- A pattern leaves out the file with a path below the resource directory. -/
def excludes (pattern : ExcludePattern) (path : Path) : Bool :=
  matchesText pattern.text.toList (Path.withSlashes path.text).toList ||
    matchesText pattern.text.toList (path.fileName?.getD "").toList

end ExcludePattern

end OverlayManifest
