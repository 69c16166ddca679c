/-
# Directives, anchors, aliases and tags

The words that start with a percent sign, an ampersand, a star or an exclamation
mark. Of a tag only the handle counts, which must have been declared, but its
rest must have the form of a tag.
-/

import OverlayManifest.Text.Digit
import OverlayManifest.Yaml.Token

namespace OverlayManifest.Yaml

/-- A token with the characters it takes and the text after it. -/
structure ScannedToken where
  token : Token
  taken : List Char
  rest : List Char

/-- A token and the text after it, taken from a text. -/
def ScannedToken.from (text : List Char) (token : Token) (rest : List Char) : ScannedToken :=
  ⟨token, text.take (text.length - rest.length), rest⟩

/-- Reads a number of at most nine digits. -/
def scanNumber (text : List Char) : Option (Nat × List Char) :=
  let digits := text.takeWhile Char.isDigit
  if digits.isEmpty || decide (9 < digits.length) then none
  else
    some (Text.numberOf 10 digits, text.dropWhile Char.isDigit)

/-- Reads the handle of a tag. In a directive only a lone exclamation mark may stand
without a second one. -/
def scanHandle (inDirective : Bool) (text : List Char) : Option (List Char × List Char) :=
  match text with
  | '!' :: after =>
      let word := after.takeWhile isWordChar
      match after.dropWhile isWordChar with
      | '!' :: rest => some ('!' :: word ++ ['!'], rest)
      | rest => if inDirective && !word.isEmpty then none else some ('!' :: word, rest)
  | _ => none

/-- The character may stand in a tag; those that end a flow collection's item may do
so only where `wide` says so. -/
def isTagChar (wide : Bool) (c : Char) : Bool :=
  isWordChar c || [';', '/', '?', ':', '@', '&', '=', '+', '$', '.', '!', '~', '*', '\'', '(',
    ')'].contains c || (wide && [',', '[', ']'].contains c)

/-- The number that two hexadecimal digits after a percent sign write. -/
def escapedByte? : List Char → Option (Nat × List Char)
  | '%' :: high :: low :: rest =>
      match Text.hexadecimalDigit? high, Text.hexadecimalDigit? low with
      | some h, some l => some (16 * h + l, rest)
      | _, _ => none
  | _ => none

/-- The number of bytes that the first byte of a UTF-8 sequence announces. -/
def announcedLength? (byte : Nat) : Option Nat :=
  if byte < 0x80 then some 1
  else if 0xc0 ≤ byte ∧ byte < 0xe0 then some 2
  else if 0xe0 ≤ byte ∧ byte < 0xf0 then some 3
  else if 0xf0 ≤ byte ∧ byte < 0xf8 then some 4
  else none

/-- Passes over a number of escaped bytes that go on a UTF-8 sequence. -/
def skipTrailingBytes : Nat → List Char → Option (List Char)
  | 0, text => some text
  | count + 1, text =>
      match escapedByte? text with
      | some (byte, rest) =>
          if 0x80 ≤ byte ∧ byte < 0xc0 then skipTrailingBytes count rest else none
      | none => none

/-- Passes over an escaped character. -/
def skipEscapedChar (text : List Char) : Option (List Char) :=
  match escapedByte? text with
  | none => none
  | some (byte, rest) =>
      match announcedLength? byte with
      | none => none
      | some length => skipTrailingBytes (length - 1) rest

/-- Passes over the characters of a tag, at most as many as `limit`. -/
def skipTagChars (wide : Bool) : Nat → List Char → Option (List Char)
  | 0, text => some text
  | limit + 1, text =>
      match text with
      | [] => some []
      | '%' :: _ =>
          match skipEscapedChar text with
          | none => none
          | some rest => skipTagChars wide limit rest
      | c :: rest => if isTagChar wide c then skipTagChars wide limit rest else some text

/-- Passes over the rest of a tag; it may be empty only after a `head`. -/
def skipTagRest (wide hasHead : Bool) (text : List Char) : Option (List Char) :=
  match skipTagChars wide text.length text with
  | none => none
  | some rest => if !hasHead && rest.length == text.length then none else some rest

/-- Reads a tag. -/
def scanTag (inFlow : Bool) (text : List Char) : Option ScannedToken := do
  let (handle, rest) ← match text with
    | '!' :: '<' :: after =>
        match ← skipTagRest true false after with
        | '>' :: rest => some ("", rest)
        | _ => none
    | _ => do
        let (handle, after) ← scanHandle false text
        if 2 ≤ handle.length ∧ handle.getLast? = some '!' then
          some (String.ofList handle, ← skipTagRest false false after)
        else
          let rest ← skipTagRest false true after
          some (if rest.length + 1 = text.length then "" else "!", rest)
  if startsBlank rest || (inFlow && rest.head? == some ',') then
    some (.from text (.tag handle) rest)
  else none

/-- Reads an anchor or an alias after its mark; `make` makes the token of a name. -/
def scanName (make : String → Token) (text : List Char) : Option ScannedToken :=
  let after := text.drop 1
  let name := after.takeWhile isWordChar
  let rest := after.dropWhile isWordChar
  if name.isEmpty then none
  else if startsBlank rest || startsWithAny ['?', ':', ',', ']', '}', '%', '@', '`'] rest then
    some (.from text (make (String.ofList name)) rest)
  else none

/-- Reads the value of a directive with a name. -/
def scanDirectiveValue (name : List Char) (text : List Char) : Option (Token × List Char) :=
  let value := text.dropWhile isBlank
  if name = ['Y', 'A', 'M', 'L'] then do
    let (major, afterMajor) ← scanNumber value
    match afterMajor with
    | '.' :: afterDot =>
        let (minor, rest) ← scanNumber afterDot
        some (.version major minor, rest)
    | _ => none
  else if name = ['T', 'A', 'G'] then do
    let (handle, afterHandle) ← scanHandle true value
    if (afterHandle.head?.map isBlank).getD false then
      let rest ← skipTagRest true false (afterHandle.dropWhile isBlank)
      if startsBlank rest then some (.tagHandle (String.ofList handle), rest) else none
    else none
  else none

/-- Reads a directive, which takes the rest of its line but for a comment. -/
def scanDirective (text : List Char) : Option ScannedToken := do
  let after := text.drop 1
  let name := after.takeWhile isWordChar
  let afterName := after.dropWhile isWordChar
  if name.isEmpty || !startsBlank afterName then none
  else
    let (token, rest) ← scanDirectiveValue name afterName
    let afterBlanks := rest.dropWhile isBlank
    let afterComment :=
      if afterBlanks.head? = some '#' then afterBlanks.dropWhile (!isBreak ·) else afterBlanks
    if (afterComment.head?.map isBreak).getD true then some (.from text token afterComment)
    else none

end OverlayManifest.Yaml
