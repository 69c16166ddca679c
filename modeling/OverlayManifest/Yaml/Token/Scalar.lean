/-
# Scalars

A plain scalar ends where a character has another meaning. A quoted scalar ends
at its quote. A block scalar holds the lines that are indented far enough.
-/

import OverlayManifest.Text.Digit
import OverlayManifest.Yaml.Token
import OverlayManifest.Yaml.Token.Folding

namespace OverlayManifest.Yaml

/-- Characters with a meaning in a flow collection. -/
def flowMarks : List Char := [',', '[', ']', '{', '}']

/-- A plain scalar cannot start a new run of characters here. -/
def endsBeforeRun (inFlow : Bool) (indent : Nat) (position : Position) (text : List Char) : Bool :=
  (!inFlow && decide (position.column < indent)) ||
    (position.column == 0 && startsWithBound text) || text.head? == some '#'

/-- A plain scalar ends before a character. -/
def endsPlain (inFlow : Bool) (c : Char) (rest : List Char) : Bool :=
  (c == ':' && startsBlank rest) || (inFlow && flowMarks.contains c)

/-- A colon that neither ends a plain scalar in a flow collection nor belongs to it. -/
def isStrayColon (inFlow : Bool) (c : Char) (rest : List Char) : Bool :=
  inFlow && c == ':' && startsWithAny ('?' :: flowMarks) rest

/-- Reads the rest of a plain scalar, whose further lines are indented by at least
`indent` outside flow collections. -/
def scanPlain (inFlow : Bool) (indent : Nat) (position : Position) (folding : Folding) :
    List Char → Option ScannedScalar
  | [] => some ⟨folding.text.reverse, folding.ended, position, []⟩
  | c :: rest =>
      if isBreak c then scanPlain inFlow indent position.nextLine (folding.addBreak c) rest
      else if isBlank c then
        if folding.ended && decide (position.column < indent) && c == '\t' then none
        else scanPlain inFlow indent (position.advance [c]) (folding.addBlank c) rest
      else if folding.isPending && endsBeforeRun inFlow indent position (c :: rest) then
        some ⟨folding.text.reverse, folding.ended, position, c :: rest⟩
      else if isStrayColon inFlow c rest then none
      else if endsPlain inFlow c rest then
        some ⟨folding.text.reverse, folding.ended, position, c :: rest⟩
      else scanPlain inFlow indent (position.advance [c]) (folding.addChar c) rest

/-- Reads the rest of a scalar in single quotes, where a quote is written twice. -/
def scanSingleQuoted (position : Position) (folding : Folding) : List Char → Option ScannedScalar
  | [] => none
  | '\'' :: '\'' :: rest =>
      scanSingleQuoted (position.advance ['\'', '\'']) (folding.addChar '\'') rest
  | '\'' :: rest => some ⟨folding.settle.reverse, false, position.advance ['\''], rest⟩
  | c :: rest =>
      if isBreak c then scanSingleQuoted position.nextLine (folding.addBreak c) rest
      else if isBlank c then scanSingleQuoted (position.advance [c]) (folding.addBlank c) rest
      else if position.column == 0 && startsWithBound (c :: rest) then none
      else scanSingleQuoted (position.advance [c]) (folding.addChar c) rest

/-- The character that a backslash and a letter stand for. -/
def namedEscape? : Char → Option Char
  | '0' => some '\x00'
  | 'a' => some '\x07'
  | 'b' => some '\x08'
  | 't' | '\t' => some '\t'
  | 'n' => some '\n'
  | 'v' => some '\x0b'
  | 'f' => some '\x0c'
  | 'r' => some '\r'
  | 'e' => some '\x1b'
  | ' ' => some ' '
  | '"' => some '"'
  | '/' => some '/'
  | '\\' => some '\\'
  | 'N' => some '\u0085'
  | '_' => some '\u00a0'
  | 'L' => some '\u2028'
  | 'P' => some '\u2029'
  | _ => none

/-- The number of digits after a backslash and a letter that numbers a character. -/
def codeLength? : Char → Option Nat
  | 'x' => some 2
  | 'u' => some 4
  | 'U' => some 8
  | _ => none

/-- Where the reader of a scalar in double quotes stands: in text, after a
backslash, or in the number of a character with some digits left. -/
inductive EscapeState
  | text
  | escape
  | code (left value : Nat)
  deriving DecidableEq, Repr

/-- Reads the rest of a scalar in double quotes, where a backslash opens an escape. -/
def scanDoubleQuoted (state : EscapeState) (position : Position) (folding : Folding) :
    List Char → Option ScannedScalar
  | [] => none
  | c :: rest =>
      match state with
      | .text =>
          if c = '"' then some ⟨folding.settle.reverse, false, position.advance [c], rest⟩
          else if isBreak c then
            scanDoubleQuoted .text position.nextLine (folding.addBreak c) rest
          else if isBlank c then
            scanDoubleQuoted .text (position.advance [c]) (folding.addBlank c) rest
          else if position.column == 0 && startsWithBound (c :: rest) then none
          else if c = '\\' then
            scanDoubleQuoted .escape (position.advance [c])
              { text := folding.settle } rest
          else scanDoubleQuoted .text (position.advance [c]) (folding.addChar c) rest
      | .escape =>
          if isBreak c then
            scanDoubleQuoted .text position.nextLine folding.addEscapedBreak rest
          else
            match codeLength? c, namedEscape? c with
            | some left, _ => scanDoubleQuoted (.code left 0) (position.advance [c]) folding rest
            | none, some char =>
                scanDoubleQuoted .text (position.advance [c]) (folding.addChar char) rest
            | none, none => none
      | .code left value =>
          match Text.hexadecimalDigit? c with
          | none => none
          | some digit =>
              if left = 1 then
                match Text.charOfCode? (16 * value + digit) with
                | none => none
                | some char =>
                    scanDoubleQuoted .text (position.advance [c]) (folding.addChar char) rest
              else
                scanDoubleQuoted (.code (left - 1) (16 * value + digit)) (position.advance [c])
                  folding rest

/-- What becomes of the line breaks at the end of a block scalar. -/
inductive Chomping
  | strip
  | clip
  | keep
  deriving DecidableEq, Repr

/-- How a block scalar is written: with line breaks kept or folded, with the breaks
at its end chomped, and, if it is given, with an indentation. -/
structure BlockHeader where
  literal : Bool
  chomping : Chomping
  increment : Option Nat
  deriving DecidableEq, Repr

/-- Reads the sign that chooses a chomping, if there is one. -/
def scanChomping : List Char → Option Chomping × List Char
  | '+' :: rest => (some .keep, rest)
  | '-' :: rest => (some .strip, rest)
  | text => (none, text)

/-- Reads the digit that gives an indentation, if there is one. -/
def scanIncrement (text : List Char) : Option Nat × List Char :=
  match text.head?.bind Text.decimalDigit? with
  | some digit => (some digit, text.drop 1)
  | none => (none, text)

/-- Reads the indicators of a block scalar, in either order; an indentation of zero
is refused. -/
def scanIndicators (literal : Bool) (text : List Char) : Option (BlockHeader × List Char) :=
  let (before, afterSign) := scanChomping text
  let (increment, afterDigit) := scanIncrement afterSign
  let (chomping, rest) :=
    match before with
    | some _ => (before, afterDigit)
    | none => scanChomping afterDigit
  if increment = some 0 then none
  else some (⟨literal, chomping.getD .clip, increment⟩, rest)

/-- A block scalar that is being read; texts are in reverse. A line is either still
in its indentation or in its text. -/
structure BlockState where
  text : List Char := []
  firstBreak : List Char := []
  breaks : List Char := []
  afterBlankLine : Bool := false
  widest : Nat := 0
  indent : Option Nat
  inText : Bool := false

namespace BlockState

/-- The text at the end of a block scalar. -/
def finish (state : BlockState) (chomping : Chomping) : List Char :=
  match chomping with
  | .strip => state.text.reverse
  | .clip => (state.firstBreak ++ state.text).reverse
  | .keep => (state.breaks ++ state.firstBreak ++ state.text).reverse

/-- The state with the first character of a line's text, which settles the breaks
before the line. -/
def openLine (state : BlockState) (literal : Bool) (c : Char) : BlockState :=
  let folds := !literal && state.firstBreak == ['\n'] && !state.afterBlankLine && !isBlank c
  let before :=
    if folds then if state.breaks.isEmpty then [' '] else state.breaks
    else state.breaks ++ state.firstBreak
  { state with
    text := c :: before ++ state.text, firstBreak := [], breaks := []
    afterBlankLine := isBlank c, inText := true }

end BlockState

/-- Reads the lines of a block scalar; `least` is the least indentation it may have. -/
def scanBlockLines (header : BlockHeader) (least : Nat) (state : BlockState)
    (position : Position) : List Char → Option ScannedScalar
  | [] => some ⟨state.finish header.chomping, true, position, []⟩
  | c :: rest =>
      if state.inText then
        if isBreak c then
          scanBlockLines header least { state with firstBreak := [c], inText := false }
            position.nextLine rest
        else
          scanBlockLines header least { state with text := c :: state.text }
            (position.advance [c]) rest
      else
        let indenting := state.indent.all (position.column < ·)
        if indenting && c == ' ' then
          scanBlockLines header least
            { state with widest := max state.widest (position.column + 1) }
            (position.advance [c]) rest
        else if indenting && c == '\t' then none
        else if isBreak c then
          scanBlockLines header least { state with breaks := c :: state.breaks }
            position.nextLine rest
        else
          let indent := state.indent.getD (max state.widest least)
          if position.column = indent then
            scanBlockLines header least
              ({ state with indent := some indent }.openLine header.literal c)
              (position.advance [c]) rest
          else some ⟨state.finish header.chomping, true, position, c :: rest⟩

/-- Reads a block scalar after its opening mark; `indent` is the indentation of the
collection around it, if there is one. -/
def scanBlock (literal : Bool) (indent : Option Nat) (position : Position) (text : List Char) :
    Option ScannedScalar :=
  match scanIndicators literal text with
  | none => none
  | some (header, afterHeader) =>
      let afterBlanks := afterHeader.dropWhile isBlank
      let afterComment :=
        if afterBlanks.head? = some '#' then afterBlanks.dropWhile (!isBreak ·) else afterBlanks
      let least := (indent.map (· + 1)).getD 1
      let state : BlockState :=
        { indent := header.increment.map fun increment => indent.getD 0 + increment }
      match afterComment with
      | [] =>
          some ⟨[], true, position.advance text, []⟩
      | c :: rest =>
          if isBreak c then scanBlockLines header (max least 1) state position.nextLine rest
          else none

end OverlayManifest.Yaml
