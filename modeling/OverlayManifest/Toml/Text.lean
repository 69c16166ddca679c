/-
# Quoted texts of TOML

A text stands between quotes, in one line, or between triple quotes, over
several. In double quotes a backslash opens an escape. Between triple quotes one
or two quotes stand for themselves, a line break that opens the text does not
count, and a backslash at the end of a line drops the blanks up to more text.
-/

import OverlayManifest.Text.Digit

namespace OverlayManifest.Toml

/-- A blank within a line. -/
def isBlank (c : Char) : Bool := c == ' ' || c == '\t'

/-- The character may stand in a comment or in a text. -/
def isPrintable (c : Char) : Bool :=
  c == '\t' || (0x20 ≤ c.toNat && c.toNat ≤ 0x7e) || 0x80 ≤ c.toNat

/-- How a text is quoted: by which quote, and over how many lines. -/
structure Quoting where
  quote : Char
  multiline : Bool
  deriving DecidableEq, Repr

/-- A backslash opens an escape. -/
def Quoting.hasEscapes (quoting : Quoting) : Bool := quoting.quote == '"'

/-- Where the reader of a text stands: after some quotes in a row, after a backslash,
in the number of a character with some digits left, after a backslash and blanks,
or in the blanks that a line break after a backslash drops. -/
inductive TextState
  | text (quotes : Nat)
  | escape
  | code (left value : Nat)
  | lineEnd
  | gap
  deriving DecidableEq, Repr

/-- What a character leads to: the text is longer, or it ended before the character,
or with it. -/
inductive TextStep
  | more (state : TextState) (reversed : List Char)
  | endedBefore (reversed : List Char)
  | endedWith (reversed : List Char)

/-- The character that a backslash and a letter stand for. -/
def namedEscape? : Char → Option Char
  | 'b' => some '\x08'
  | 't' => some '\t'
  | 'n' => some '\n'
  | 'f' => some '\x0c'
  | 'r' => some '\r'
  | '"' => some '"'
  | '\\' => some '\\'
  | _ => none

/-- What a character leads to that follows some quotes in a row. -/
def stepInText (quoting : Quoting) (quotes : Nat) (reversed : List Char) (c : Char) :
    Option TextStep :=
  let withQuotes := List.replicate quotes quoting.quote ++ reversed
  if c = quoting.quote then
    if !quoting.multiline then some (.endedWith reversed)
    else if quotes = 4 then some (.endedWith (List.replicate 2 quoting.quote ++ reversed))
    else some (.more (.text (quotes + 1)) reversed)
  else if 3 ≤ quotes then
    some (.endedBefore (List.replicate (quotes - 3) quoting.quote ++ reversed))
  else if c = '\n' then
    if quoting.multiline then some (.more (.text 0) (c :: withQuotes)) else none
  else if quoting.hasEscapes ∧ c = '\\' then some (.more .escape withQuotes)
  else if isPrintable c then some (.more (.text 0) (c :: withQuotes))
  else none

/-- What a character leads to after a backslash. -/
def stepInEscape (quoting : Quoting) (reversed : List Char) (c : Char) : Option TextStep :=
  if c = 'u' then some (.more (.code 4 0) reversed)
  else if c = 'U' then some (.more (.code 8 0) reversed)
  else if quoting.multiline ∧ isBlank c then some (.more .lineEnd reversed)
  else if quoting.multiline ∧ c = '\n' then some (.more .gap reversed)
  else (namedEscape? c).map fun char => .more (.text 0) (char :: reversed)

/-- What a digit leads to in the number of a character. -/
def stepInCode (left value : Nat) (reversed : List Char) (c : Char) : Option TextStep :=
  match Text.hexadecimalDigit? c with
  | none => none
  | some digit =>
      let code := 16 * value + digit
      if left ≠ 1 then some (.more (.code (left - 1) code) reversed)
      else (Text.charOfCode? code).map fun char => .more (.text 0) (char :: reversed)

/-- What a character leads to. -/
def stepText (quoting : Quoting) (state : TextState) (reversed : List Char) (c : Char) :
    Option TextStep :=
  match state with
  | .text quotes => stepInText quoting quotes reversed c
  | .escape => stepInEscape quoting reversed c
  | .code left value => stepInCode left value reversed c
  | .lineEnd =>
      if isBlank c then some (.more .lineEnd reversed)
      else if c = '\n' then some (.more .gap reversed)
      else none
  | .gap =>
      if isBlank c ∨ c = '\n' then some (.more .gap reversed)
      else stepInText quoting 0 reversed c

/-- Reads the rest of a text and gives what follows its quotes. -/
def readText (quoting : Quoting) (state : TextState) (reversed : List Char) :
    List Char → Option (List Char × List Char)
  | [] =>
      match state with
      | .text quotes =>
          if 3 ≤ quotes then
            some ((List.replicate (quotes - 3) quoting.quote ++ reversed).reverse, [])
          else none
      | _ => none
  | c :: rest =>
      match stepText quoting state reversed c with
      | none => none
      | some (.more state reversed) => readText quoting state reversed rest
      | some (.endedBefore reversed) => some (reversed.reverse, c :: rest)
      | some (.endedWith reversed) => some (reversed.reverse, rest)

/-- Reads a text in quotes of one kind, in one line or over several. -/
def readQuoted (quote : Char) : List Char → Option (List Char × List Char)
  | first :: second :: third :: rest =>
      if first ≠ quote then none
      else if second = quote ∧ third = quote then
        let body := if rest.head? = some '\n' then rest.drop 1 else rest
        readText ⟨quote, true⟩ (.text 0) [] body
      else readText ⟨quote, false⟩ (.text 0) [] (second :: third :: rest)
  | first :: rest => if first = quote then readText ⟨quote, false⟩ (.text 0) [] rest else none
  | [] => none

/-- Reads a text in quotes of one kind, in one line. -/
def readQuotedLine (quote : Char) : List Char → Option (List Char × List Char)
  | first :: rest => if first = quote then readText ⟨quote, false⟩ (.text 0) [] rest else none
  | [] => none

end OverlayManifest.Toml
