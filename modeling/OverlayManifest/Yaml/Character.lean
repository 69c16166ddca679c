/-
# Characters of a YAML stream

A stream may hold all characters that can be printed, the tab and the line
breaks. Every line break but the two Unicode separators stands for a line feed.
-/

import OverlayManifest.Text

namespace OverlayManifest.Yaml

/-- The character may stand in a stream. -/
def isAllowed (c : Char) : Bool :=
  let code := c.toNat
  c == '\t' || c == '\n' || c == '\r' || (0x20 ≤ code && code ≤ 0x7e) || code == 0x85 ||
    (0xa0 ≤ code && code ≤ 0xd7ff) || (0xe000 ≤ code && code ≤ 0xfffd) || 0x10000 ≤ code

/-- A stream with every line break written as a single character. -/
def normalizeBreaks : List Char → List Char
  | '\r' :: '\n' :: text => '\n' :: normalizeBreaks text
  | '\r' :: text => '\n' :: normalizeBreaks text
  | '\u0085' :: text => '\n' :: normalizeBreaks text
  | c :: text => c :: normalizeBreaks text
  | [] => []

/-- The character ends a line. -/
def isBreak (c : Char) : Bool := c == '\n' || c == '\u2028' || c == '\u2029'

/-- The character separates words within a line. -/
def isBlank (c : Char) : Bool := c == ' ' || c == '\t'

/-- The character may stand in the name of an anchor, a directive or a tag handle. -/
def isWordChar (c : Char) : Bool := c.isAlphanum || c == '_' || c == '-'

/-- A text starts with a blank or a line break, or is empty. -/
def startsBlank : List Char → Bool
  | [] => true
  | c :: _ => isBlank c || isBreak c

/-- A text starts with one of the characters of a list. -/
def startsWithAny (chars : List Char) : List Char → Bool
  | [] => false
  | c :: _ => chars.contains c

/-- A text starts with a mark and then a blank, a line break or its end. -/
def startsWithMark (mark text : List Char) : Bool :=
  mark.isPrefixOf text && startsBlank (text.drop mark.length)

/-- The mark that starts a document. -/
def documentStart : List Char := ['-', '-', '-']

/-- The mark that ends a document. -/
def documentEnd : List Char := ['.', '.', '.']

/-- A text starts with a mark that bounds a document. -/
def startsWithBound (text : List Char) : Bool :=
  startsWithMark documentStart text || startsWithMark documentEnd text

/-- A line and a column, both counted from zero, and the number of bytes that the
line holds before that column. -/
structure Position where
  line : Nat
  column : Nat
  offset : Nat
  deriving DecidableEq, Inhabited, Repr

namespace Position

/-- The start of a stream. -/
def start : Position := ⟨0, 0, 0⟩

/-- The position after characters of the same line. -/
def advance (position : Position) (text : List Char) : Position :=
  { position with
    column := position.column + text.length
    offset := position.offset + Text.byteSize text }

/-- The position after a line break. -/
def nextLine (position : Position) : Position := ⟨position.line + 1, 0, 0⟩

end Position

end OverlayManifest.Yaml
