/-
# The tokens of a stream

Tokens are read one after another. Outside flow collections the column of a
token says which block collections end before it and whether one starts with it.
Where a key without a mark may stand, its place is kept: a colon later in the
same line puts the mark of a key there.
-/

import OverlayManifest.Yaml.Token.Property
import OverlayManifest.Yaml.Token.Scalar

namespace OverlayManifest.Yaml

/-- A place where a key without a mark may have started: the number of tokens before
it, where it stands, and whether a key must stand there. -/
structure PossibleKey where
  tokenCount : Nat
  position : Position
  isRequired : Bool
  deriving DecidableEq, Repr

/-- Where a reader of tokens stands. Collections and possible keys are listed from the
innermost; `possibleKeys` has a place for each open flow collection and one more. -/
structure Scanner where
  position : Position := .start
  rest : List Char
  flowDepth : Nat := 0
  indents : List Nat := []
  keyAllowed : Bool := true
  possibleKeys : List (Option PossibleKey) := [none]
  tokens : Array Token := #[]

namespace Scanner

/-- The reader stands in a flow collection. -/
def inFlow (scanner : Scanner) : Bool := scanner.flowDepth != 0

/-- The column of the innermost block collection. -/
def indent (scanner : Scanner) : Option Nat := scanner.indents.head?

/-- The reader after characters of the line it stands in, with the text after them. -/
def moveTo (scanner : Scanner) (taken rest : List Char) : Scanner :=
  { scanner with position := scanner.position.advance taken, rest }

/-- The reader after a character that ends a line, or at the end of the text. -/
def nextLine (scanner : Scanner) : Scanner :=
  match scanner.rest with
  | [] => scanner
  | _ :: rest => { scanner with position := scanner.position.nextLine, rest }

/-- Adds a token. -/
def push (scanner : Scanner) (token : Token) : Scanner :=
  { scanner with tokens := scanner.tokens.push token }

/-- Adds a token before those that came after a place. -/
def insert (scanner : Scanner) (tokenCount : Nat) (token : Token) : Scanner :=
  { scanner with
    tokens := scanner.tokens.take tokenCount ++ #[token] ++ scanner.tokens.drop tokenCount }

/-- Passes over the blanks, comments and line breaks before a token. A tab may not
stand where a key may start. -/
def skipToToken (inFlow keyAllowed : Bool) (position : Position) (inComment : Bool) :
    List Char → Bool × Position × List Char
  | [] => (keyAllowed, position, [])
  | c :: rest =>
      if isBreak c then
        skipToToken inFlow (keyAllowed || !inFlow) position.nextLine false rest
      else if inComment || (position.column == 0 && c == '\ufeff') || c == ' ' ||
          (c == '\t' && (inFlow || !keyAllowed)) then
        skipToToken inFlow keyAllowed (position.advance [c]) inComment rest
      else if c = '#' then skipToToken inFlow keyAllowed (position.advance [c]) true rest
      else (keyAllowed, position, c :: rest)

/-- A possible key must be followed by its colon in the same line, within 1024 bytes. -/
def isStale (position : Position) (key : PossibleKey) : Bool :=
  decide (key.position.line < position.line) ||
    decide (key.position.offset + 1024 < position.offset)

/-- Gives up possible keys; one that must be a key cannot be given up. -/
def dropKeys (drop : PossibleKey → Bool) :
    List (Option PossibleKey) → Option (List (Option PossibleKey))
  | [] => some []
  | key? :: keys =>
      match key? with
      | none => (dropKeys drop keys).map (none :: ·)
      | some key =>
          if !drop key then (dropKeys drop keys).map (some key :: ·)
          else if key.isRequired then none
          else (dropKeys drop keys).map (none :: ·)

/-- Gives up the innermost possible key. -/
def removeKey (scanner : Scanner) : Option Scanner :=
  match scanner.possibleKeys with
  | some key :: keys =>
      if key.isRequired then none else some { scanner with possibleKeys := none :: keys }
  | _ => some scanner

/-- Notes that a key without a mark may start here. -/
def saveKey (scanner : Scanner) : Option Scanner :=
  if scanner.keyAllowed then do
    let scanner ← scanner.removeKey
    let required := !scanner.inFlow && scanner.indent == some scanner.position.column
    let key : PossibleKey := ⟨scanner.tokens.size, scanner.position, required⟩
    return { scanner with possibleKeys := some key :: scanner.possibleKeys.drop 1 }
  else some scanner

/-- Ends the block collections that are indented further than a column, or all. -/
def unroll (scanner : Scanner) (column : Option Nat) : Scanner :=
  if scanner.inFlow then scanner
  else
    let closes (indent : Nat) : Bool := column.all (· < indent)
    { scanner with
      indents := scanner.indents.dropWhile closes
      tokens := scanner.tokens ++
        Array.replicate (scanner.indents.takeWhile closes).length Token.blockEnd }

/-- Starts a block collection at a column that is indented further than the innermost. -/
def roll (scanner : Scanner) (column tokenCount : Nat) (token : Token) : Scanner :=
  if !scanner.inFlow && scanner.indent.all (· < column) then
    { scanner.insert tokenCount token with indents := column :: scanner.indents }
  else scanner

/-- Starts a block collection with the next token, if the mark that asks for it may
stand here. -/
def rollHere (scanner : Scanner) (token : Token) : Option Scanner :=
  if scanner.inFlow then some scanner
  else if scanner.keyAllowed then
    some (scanner.roll scanner.position.column scanner.tokens.size token)
  else none

/-- The reader after a token of its line. -/
def take (scanner : Scanner) (scanned : ScannedToken) : Scanner :=
  (scanner.push scanned.token).moveTo scanned.taken scanned.rest

/-- The reader after a mark of some length. -/
def takeMark (scanner : Scanner) (token : Token) (length : Nat) : Scanner :=
  (scanner.push token).moveTo (scanner.rest.take length) (scanner.rest.drop length)

/-- The reader after a scalar. -/
def takeScalar (scanner : Scanner) (plain : Bool) (scanned : ScannedScalar) : Scanner :=
  { scanner.push (.scalar (String.ofList scanned.text) plain) with
    position := scanned.position, rest := scanned.rest }

/-- Reads a directive and the line break after it. -/
def fetchDirective (scanner : Scanner) : Option Scanner := do
  let scanner ← (scanner.unroll none).removeKey
  let scanned ← scanDirective scanner.rest
  return { (scanner.take scanned).nextLine with keyAllowed := false }

/-- Reads a mark that bounds a document. -/
def fetchBound (scanner : Scanner) (token : Token) : Option Scanner := do
  let scanner ← (scanner.unroll none).removeKey
  return { scanner.takeMark token 3 with keyAllowed := false }

/-- Reads the start of a flow collection. -/
def fetchFlowStart (scanner : Scanner) (token : Token) : Option Scanner := do
  let scanner ← scanner.saveKey
  return { scanner.takeMark token 1 with
    keyAllowed := true
    flowDepth := scanner.flowDepth + 1
    possibleKeys := none :: scanner.possibleKeys }

/-- Reads the end of a flow collection. -/
def fetchFlowEnd (scanner : Scanner) (token : Token) : Option Scanner := do
  let scanner ← scanner.removeKey
  return { scanner.takeMark token 1 with
    keyAllowed := false
    flowDepth := scanner.flowDepth - 1
    possibleKeys :=
      if scanner.inFlow then scanner.possibleKeys.drop 1 else scanner.possibleKeys }

/-- Reads a comma. -/
def fetchFlowEntry (scanner : Scanner) : Option Scanner := do
  let scanner ← scanner.removeKey
  return { scanner.takeMark .flowEntry 1 with keyAllowed := true }

/-- Reads the mark of an item. -/
def fetchBlockEntry (scanner : Scanner) : Option Scanner := do
  let scanner ← (← scanner.rollHere .blockSequenceStart).removeKey
  return { scanner.takeMark .blockEntry 1 with keyAllowed := true }

/-- Reads the mark of a key. -/
def fetchKey (scanner : Scanner) : Option Scanner := do
  let scanner ← (← scanner.rollHere .blockMappingStart).removeKey
  return { scanner.takeMark .key 1 with keyAllowed := !scanner.inFlow }

/-- Reads a colon, which turns a possible key before it into a key. -/
def fetchValue (scanner : Scanner) : Option Scanner :=
  match scanner.possibleKeys with
  | some key :: keys =>
      let scanner := (scanner.insert key.tokenCount .key).roll key.position.column key.tokenCount
        .blockMappingStart
      some { scanner.takeMark .value 1 with keyAllowed := false, possibleKeys := none :: keys }
  | _ => do
      let scanner ← scanner.rollHere .blockMappingStart
      return { scanner.takeMark .value 1 with keyAllowed := !scanner.inFlow }

/-- Reads an anchor, an alias or a tag. -/
def fetchProperty (scanner : Scanner) (scan : List Char → Option ScannedToken) :
    Option Scanner := do
  let scanner ← scanner.saveKey
  let scanned ← scan scanner.rest
  return { scanner.take scanned with keyAllowed := false }

/-- Reads a block scalar. -/
def fetchBlockScalar (scanner : Scanner) (literal : Bool) : Option Scanner := do
  let scanner ← scanner.removeKey
  let scanned ← scanBlock literal scanner.indent (scanner.position.advance (scanner.rest.take 1))
    (scanner.rest.drop 1)
  return { scanner.takeScalar false scanned with keyAllowed := true }

/-- Reads a quoted scalar. -/
def fetchQuoted (scanner : Scanner)
    (scan : Position → Folding → List Char → Option ScannedScalar) : Option Scanner := do
  let scanner ← scanner.saveKey
  let scanned ← scan (scanner.position.advance (scanner.rest.take 1)) {} (scanner.rest.drop 1)
  return { scanner.takeScalar false scanned with keyAllowed := false }

/-- Reads a plain scalar; line breaks after it allow a key. -/
def fetchPlain (scanner : Scanner) : Option Scanner := do
  let scanner ← scanner.saveKey
  let indent := (scanner.indent.map (· + 1)).getD 0
  let scanned ← scanPlain scanner.inFlow indent scanner.position {} scanner.rest
  return { scanner.takeScalar true scanned with keyAllowed := scanned.atLineStart }

/-- Characters that no plain scalar starts with, unless the rules for dashes, question
marks and colons allow it. -/
def reservedStarts : List Char :=
  ['-', '?', ':', ',', '[', ']', '{', '}', '#', '&', '*', '!', '|', '>', '\'', '"', '%', '@', '`']

/-- A plain scalar may start with a text. -/
def startsPlain (inFlow : Bool) (c : Char) (rest : List Char) : Bool :=
  !(isBlank c || isBreak c || reservedStarts.contains c) ||
    (c == '-' && !(rest.head?.map isBlank).getD false) ||
    (!inFlow && (c == '?' || c == ':') && !startsBlank rest)

/-- Reads the token that a text starts with. -/
def fetchAt (scanner : Scanner) (c : Char) (rest : List Char) : Option Scanner :=
  let atMargin := scanner.position.column == 0
  if atMargin && c == '%' then scanner.fetchDirective
  else if atMargin && startsWithMark documentStart (c :: rest) then
    scanner.fetchBound .documentStart
  else if atMargin && startsWithMark documentEnd (c :: rest) then scanner.fetchBound .documentEnd
  else if c = '[' then scanner.fetchFlowStart .flowSequenceStart
  else if c = '{' then scanner.fetchFlowStart .flowMappingStart
  else if c = ']' then scanner.fetchFlowEnd .flowSequenceEnd
  else if c = '}' then scanner.fetchFlowEnd .flowMappingEnd
  else if c = ',' then scanner.fetchFlowEntry
  else if c = '-' ∧ startsBlank rest then scanner.fetchBlockEntry
  else if c = '?' ∧ (scanner.inFlow ∨ startsBlank rest) then scanner.fetchKey
  else if c = ':' ∧ (scanner.inFlow ∨ startsBlank rest) then scanner.fetchValue
  else if c = '*' then scanner.fetchProperty (scanName .alias)
  else if c = '&' then scanner.fetchProperty (scanName .anchor)
  else if c = '!' then scanner.fetchProperty (scanTag scanner.inFlow)
  else if c = '|' ∧ !scanner.inFlow then scanner.fetchBlockScalar true
  else if c = '>' ∧ !scanner.inFlow then scanner.fetchBlockScalar false
  else if c = '\'' then scanner.fetchQuoted scanSingleQuoted
  else if c = '"' then scanner.fetchQuoted (scanDoubleQuoted .text)
  else if startsPlain scanner.inFlow c rest then scanner.fetchPlain
  else none

/-- The reader at the next token, with the block collections ended that end before it. -/
def advance (scanner : Scanner) : Option Scanner := do
  let (keyAllowed, position, rest) :=
    skipToToken scanner.inFlow scanner.keyAllowed scanner.position false scanner.rest
  let possibleKeys ← dropKeys (isStale position) scanner.possibleKeys
  return ({ scanner with keyAllowed, position, rest, possibleKeys }).unroll (some position.column)

/-- The tokens up to the end of the text; `limit` bounds their number. -/
def run : Nat → Scanner → Option (List Token)
  | 0, _ => none
  | limit + 1, scanner => do
      let scanner ← scanner.advance
      match scanner.rest with
      | [] => return (← (scanner.unroll none).removeKey).tokens.toList
      | c :: rest => run limit (← scanner.fetchAt c rest)

end Scanner

/-- The tokens of a stream; every token takes at least one character. -/
def tokens? (text : List Char) : Option (List Token) :=
  if text.all isAllowed then Scanner.run (text.length + 1) { rest := normalizeBreaks text }
  else none

end OverlayManifest.Yaml
