/-
# Escapes in attribute values

The five characters with a meaning in markup have names. A value is written
with each of them replaced by its name between `&` and `;`. A value is read with
names and character numbers between `&` and `;` replaced by their characters.
-/

import OverlayManifest.Text.Digit
import OverlayManifest.Xml.Fault

namespace OverlayManifest.Xml

/-- A character as it stands in a written attribute value. -/
def escapeChar : Char → List Char
  | '<' => ['&', 'l', 't', ';']
  | '>' => ['&', 'g', 't', ';']
  | '\'' => ['&', 'a', 'p', 'o', 's', ';']
  | '&' => ['&', 'a', 'm', 'p', ';']
  | '"' => ['&', 'q', 'u', 'o', 't', ';']
  | c => [c]

/-- A text as it stands in a written attribute value. -/
def escape (text : List Char) : List Char := text.flatMap escapeChar

/-- The character with a name. -/
def namedChar? (name : List Char) : Option Char :=
  if name = ['l', 't'] then some '<'
  else if name = ['g', 't'] then some '>'
  else if name = ['a', 'm', 'p'] then some '&'
  else if name = ['a', 'p', 'o', 's'] then some '\''
  else if name = ['q', 'u', 'o', 't'] then some '"'
  else none

/-- The number that digits write after those of `value`; no digits write zero. -/
def readDigits (base : Nat) (digit? : Char → Option Nat) (fault : Char → EscapeFault)
    (value : Nat) : List Char → Except EscapeFault Nat
  | [] => .ok value
  | c :: text =>
      match digit? c with
      | some digit => readDigits base digit? fault (base * value + digit) text
      | none => .error (fault (Text.leadByte c))

/-- The number after a `#`, which an `x` makes hexadecimal. -/
def readCode (text : List Char) : Except EscapeFault Nat :=
  match text with
  | 'x' :: digits =>
      if 6 < Text.byteSize digits then .error .hexadecimalTooLong
      else readDigits 16 Text.hexadecimalDigit? .notHexadecimal 0 digits
  | digits =>
      if 7 < Text.byteSize digits then .error .decimalTooLong
      else readDigits 10 Text.decimalDigit? .notDecimal 0 digits

/-- The character that the text between `&` and `;` stands for; the text between
`start` and `stop` is the escape without its `;`. -/
def resolveEscape (start stop : Nat) (text : List Char) : Except EscapeFault Char :=
  match text with
  | '#' :: number =>
      match readCode number with
      | .error fault => .error fault
      | .ok 0 => .error (.nullCharacter start stop)
      | .ok code =>
          match Text.charOfCode? code with
          | some c => .ok c
          | none => .error (.noCharacter code)
  | name =>
      match namedChar? name with
      | some c => .ok c
      | none => .error (.unknownName (start + 1) stop name)

/-- A character that may end the text of an escape. -/
def endsEscape (c : Char) : Bool := c == '&' || c == ';'

/-- Reads the rest of a value that has `size` bytes in all. -/
def unescapeRest (size : Nat) (text : List Char) : Except EscapeFault (List Char) :=
  match text with
  | [] => .ok []
  | '&' :: rest =>
      let start := size - Text.byteSize ('&' :: rest)
      match h : rest.dropWhile (!endsEscape ·) with
      | ';' :: after =>
          have : after.length < rest.length := by
            have := (List.dropWhile_sublist (l := rest) (!endsEscape ·)).length_le
            simp only [h, List.length_cons] at this
            omega
          let stop := size - Text.byteSize (';' :: after)
          match resolveEscape start stop (rest.takeWhile (!endsEscape ·)) with
          | .error fault => .error fault
          | .ok c => (unescapeRest size after).map (c :: ·)
      | _ => .error (.unterminated start size)
  | c :: rest => (unescapeRest size rest).map (c :: ·)
termination_by text.length

/-- The text that an attribute value stands for. -/
def unescape (value : List Char) : Except EscapeFault (List Char) :=
  unescapeRest (Text.byteSize value) value

end OverlayManifest.Xml
