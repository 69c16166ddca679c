/-
# TOML documents

A document consists of lines: members, headers, comments and empty lines. The
readers of values go on for at most `fuel` steps, each of which takes a
character, and go no deeper than a fixed depth.
-/

import OverlayManifest.Toml.Scalar
import OverlayManifest.Toml.Table

namespace OverlayManifest.Toml

/-- The number of steps of a key, and the depth of values, stay below this bound. -/
def depthLimit : Nat := 80

/-- A text without the blanks it starts with. -/
def skipBlanks (text : List Char) : List Char := text.dropWhile isBlank

/-- Passes over a comment, if there is one, up to the end of its line. -/
def skipComment (text : List Char) : Option (List Char) :=
  if text.head? = some '#' then
    let rest := text.dropWhile (· != '\n')
    if (text.takeWhile (· != '\n')).all isPrintable then some rest else none
  else some text

/-- Passes over blanks, comments and line breaks; a comment here must have a line
break after it. -/
def skipSpace : Nat → List Char → Option (List Char)
  | 0, _ => none
  | fuel + 1, text =>
      match skipBlanks text with
      | '\n' :: rest => skipSpace fuel rest
      | '#' :: rest =>
          match skipComment ('#' :: rest) with
          | some ('\n' :: after) => skipSpace fuel after
          | _ => none
      | rest => some rest

/-- The character may stand in a key without quotes. -/
def isKeyChar (c : Char) : Bool := c.isAlphanum || c == '_' || c == '-'

/-- Reads one step of a key. -/
def readStep (text : List Char) : Option (String × List Char) :=
  match text with
  | '"' :: _ => (readQuotedLine '"' text).map fun (key, rest) => (String.ofList key, rest)
  | '\'' :: _ => (readQuotedLine '\'' text).map fun (key, rest) => (String.ofList key, rest)
  | _ =>
      match text.takeWhile isKeyChar with
      | [] => none
      | key => some (String.ofList key, text.dropWhile isKeyChar)

/-- Reads a key, which has at most `limit` steps with dots between them, and the
blanks around it. -/
def readKey : Nat → List Char → Option (List String × List Char)
  | 0, _ => none
  | limit + 1, text => do
      let (step, rest) ← readStep (skipBlanks text)
      match skipBlanks rest with
      | '.' :: rest =>
          let (steps, rest) ← readKey limit rest
          return (step :: steps, rest)
      | rest => return ([step], rest)

/-- Reads the key of a member, up to the equals sign after it. -/
def readMemberKey (text : List Char) : Option (List String × List Char) := do
  let (steps, rest) ← readKey (depthLimit - 1) text
  return (steps, ← skipChar '=' rest)

mutual

/-- Reads a value that may be `depth` deep. -/
def readValue (fuel depth : Nat) (text : List Char) : Option (Value × List Char) :=
  match fuel with
  | 0 => none
  | fuel + 1 =>
      match text, depth with
      | '"' :: _, _ => (readQuoted '"' text).map fun (value, rest) =>
          (.text (String.ofList value), rest)
      | '\'' :: _, _ => (readQuoted '\'' text).map fun (value, rest) =>
          (.text (String.ofList value), rest)
      | '[' :: rest, depth + 1 => (readItems fuel depth rest).map fun (items, rest) =>
          (.list items, rest)
      | '{' :: rest, depth + 1 =>
          match skipBlanks rest with
          | '}' :: rest => some (.table .inline [], rest)
          | _ => (readMembers fuel depth [] rest).map fun (members, rest) =>
              (.table .inline members, rest)
      | '[' :: _, 0 | '{' :: _, 0 => none
      | _, _ => (skipScalar text).map fun rest => (.other, rest)

/-- Reads the items of a list and its end; a comma may follow the last item. -/
def readItems (fuel depth : Nat) (text : List Char) : Option (List Value × List Char) :=
  match fuel with
  | 0 => none
  | fuel + 1 => do
      match ← skipSpace (text.length + 1) text with
      | ']' :: rest => return ([], rest)
      | rest =>
          let (item, rest) ← readValue fuel depth rest
          match ← skipSpace (rest.length + 1) rest with
          | ',' :: rest =>
              let (items, rest) ← readItems fuel depth rest
              return (item :: items, rest)
          | ']' :: rest => return ([item], rest)
          | _ => none

/-- Reads the members of an inline table and its end. -/
def readMembers (fuel depth : Nat) (members : Members) (text : List Char) :
    Option (Members × List Char) :=
  match fuel with
  | 0 => none
  | fuel + 1 => do
      let (steps, rest) ← readMemberKey text
      let (value, rest) ← readValue fuel depth (skipBlanks rest)
      let members ← members.assign steps.dropLast (steps.getLast?.getD "") value
      match skipBlanks rest with
      | ',' :: rest => readMembers fuel depth members rest
      | '}' :: rest => return (members, rest)
      | _ => none

end

/-- Passes over the end of a line, with the comment before it. -/
def skipLineEnd (text : List Char) : Option (List Char) := do
  match ← skipComment (skipBlanks text) with
  | [] => return []
  | '\n' :: rest => return rest
  | _ => none

/-- What was read of a document: the members of its root, and the header that further
members belong to. -/
structure Draft where
  root : Members := []
  header : List String := []

namespace Draft

/-- Adds a member to the table of the last header. -/
def readMember (draft : Draft) (text : List Char) : Option (Draft × List Char) := do
  let (steps, rest) ← readMemberKey text
  let (value, rest) ← readValue (rest.length + 1) (depthLimit - 1) (skipBlanks rest)
  let rest ← skipLineEnd rest
  let root ← draft.root.modifyAt draft.header fun members =>
    members.assign steps.dropLast (steps.getLast?.getD "") value
  return ({ draft with root }, rest)

/-- Reads a header after its opening brackets; `closing` are those that end it. -/
def readHeader (draft : Draft) (closing : List Char)
    (add : Members → String → Option Members) (text : List Char) :
    Option (Draft × List Char) := do
  let (steps, rest) ← readKey (depthLimit - 1) text
  let rest ← skipLineEnd (← skipWord closing rest)
  let root ← draft.root.modifyAt steps.dropLast fun members =>
    add members (steps.getLast?.getD "")
  return (⟨root, steps⟩, rest)

/-- Reads the line that a text starts with, after its blanks. -/
def readLine (draft : Draft) (text : List Char) : Option (Draft × List Char) :=
  match text with
  | '\n' :: rest => some (draft, rest)
  | '#' :: _ => (skipLineEnd text).map (draft, ·)
  | '[' :: '[' :: rest => draft.readHeader [']', ']'] Members.addTable rest
  | '[' :: rest => draft.readHeader [']'] Members.openTable rest
  | _ => draft.readMember text

/-- Reads the rest of a document, whose lines are at most as many as `limit`. -/
def readLines : Nat → Draft → List Char → Option Members
  | 0, _, _ => none
  | limit + 1, draft, text =>
      match skipBlanks text with
      | [] => some draft.root
      | rest =>
          match draft.readLine rest with
          | some (draft, rest) => readLines limit draft rest
          | none => none

end Draft

/-- A document with every line break written as a single character. -/
def normalizeBreaks : List Char → List Char
  | '\r' :: '\n' :: text => '\n' :: normalizeBreaks text
  | c :: text => c :: normalizeBreaks text
  | [] => []

/-- Reads the members of a document, which may start with a byte order mark. -/
def read? (text : List Char) : Option Members :=
  let body := normalizeBreaks (if text.head? = some '\ufeff' then text.drop 1 else text)
  Draft.readLines (body.length + 1) {} body

end OverlayManifest.Toml
