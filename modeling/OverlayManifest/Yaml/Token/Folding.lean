/-
# Folding

Blanks within a line of a scalar are kept, but only if more text follows in that
line. A single line break within a scalar becomes a blank, and of several the
first is dropped.
-/

import OverlayManifest.Yaml.Character

namespace OverlayManifest.Yaml

/-- Text that is being folded, each part in reverse: what is settled, the blanks
after it, and, once a line has ended, its first break and those that follow. -/
structure Folding where
  text : List Char := []
  blanks : List Char := []
  ended : Bool := false
  firstBreak : List Char := []
  breaks : List Char := []
  deriving Inhabited, Repr

namespace Folding

/-- Blanks or breaks follow the settled text. -/
def isPending (folding : Folding) : Bool := folding.ended || !folding.blanks.isEmpty

/-- Adds a blank; blanks that open a line do not count. -/
def addBlank (folding : Folding) (c : Char) : Folding :=
  if folding.ended then folding else { folding with blanks := c :: folding.blanks }

/-- Adds a line break. -/
def addBreak (folding : Folding) (c : Char) : Folding :=
  if folding.ended then { folding with breaks := c :: folding.breaks }
  else { folding with blanks := [], ended := true, firstBreak := [c] }

/-- Ends the line without a break that counts. -/
def addEscapedBreak (folding : Folding) : Folding := { folding with ended := true }

/-- Settles the blanks and breaks that follow the text. -/
def settle (folding : Folding) : List Char :=
  if !folding.ended then folding.blanks ++ folding.text
  else if folding.firstBreak = ['\n'] then
    if folding.breaks.isEmpty then ' ' :: folding.text else folding.breaks ++ folding.text
  else folding.breaks ++ folding.firstBreak ++ folding.text

/-- Adds a character of text. -/
def addChar (folding : Folding) (c : Char) : Folding := { text := c :: folding.settle }

end Folding

end OverlayManifest.Yaml
