/-
# JSON

Values of the data format JSON, and their text over several lines: each member
and each item stands on a line of its own, two blanks further in than what holds
it. An empty list or object is written in one piece.
-/

namespace OverlayManifest.Json

/-- A value without numbers, which no document of this library needs. -/
inductive Value
  | truth (value : Bool)
  | text (value : String)
  | list (items : List Value)
  | object (members : List (String × Value))
  deriving Inhabited, Repr

/-- A control character as it is written without a short form. -/
def numberedEscape (c : Char) : List Char :=
  ['\\', 'u', '0', '0', Nat.digitChar (c.toNat / 16), Nat.digitChar (c.toNat % 16)]

/-- A character as it stands in a written text. -/
def escapeChar (c : Char) : List Char :=
  if c = '"' then ['\\', '"']
  else if c = '\\' then ['\\', '\\']
  else if c = '\x08' then ['\\', 'b']
  else if c = '\x0c' then ['\\', 'f']
  else if c = '\n' then ['\\', 'n']
  else if c = '\r' then ['\\', 'r']
  else if c = '\t' then ['\\', 't']
  else if c.toNat < 0x20 then numberedEscape c
  else [c]

/-- A text in quotes. -/
def quote (text : String) : List Char :=
  '"' :: text.toList.flatMap escapeChar ++ ['"']

/-- A line break and the blanks that open a line at some depth. -/
def lineBreak (depth : Nat) : List Char := '\n' :: List.replicate (2 * depth) ' '

/-- Pieces on lines of their own at some depth, between brackets; none are written
in one piece. -/
def block (opening closing : Char) (depth : Nat) : List (List Char) → List Char
  | [] => [opening, closing]
  | pieces =>
      opening :: lineBreak (depth + 1) ++ (',' :: lineBreak (depth + 1)).intercalate pieces ++
        lineBreak depth ++ [closing]

mutual

/-- The text of a value that stands at some depth. -/
def Value.render (depth : Nat) : Value → List Char
  | .truth true => ['t', 'r', 'u', 'e']
  | .truth false => ['f', 'a', 'l', 's', 'e']
  | .text value => quote value
  | .list items => block '[' ']' depth (renderItems (depth + 1) items)
  | .object members => block '\x7b' '\x7d' depth (renderMembers (depth + 1) members)

/-- The texts of the items of a list. -/
def renderItems (depth : Nat) : List Value → List (List Char)
  | [] => []
  | item :: items => item.render depth :: renderItems depth items

/-- The texts of the members of an object. -/
def renderMembers (depth : Nat) : List (String × Value) → List (List Char)
  | [] => []
  | (key, value) :: members =>
      (quote key ++ [':', ' '] ++ value.render depth) :: renderMembers depth members

end

end OverlayManifest.Json
