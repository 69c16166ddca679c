/-
# From tokens to nodes

The grammar of nodes reads tokens from the front. Its functions go on for at
most `fuel` steps, each of which takes a token or leaves a construct, so that
three steps for each token suffice. A stream holds one document at most.
-/

import OverlayManifest.Yaml.Node
import OverlayManifest.Yaml.Token.Stream

namespace OverlayManifest.Yaml

namespace Node

/-- Reads the anchor and the tag before a node, in either order. -/
def readProperties : List Token → Option String × Option String × List Token
  | .anchor name :: .tag handle :: rest => (some name, some handle, rest)
  | .tag handle :: .anchor name :: rest => (some name, some handle, rest)
  | .anchor name :: rest => (some name, none, rest)
  | .tag handle :: rest => (none, some handle, rest)
  | tokens => (none, none, tokens)

/-- A tag's handle is declared; the empty one stands for tags without a handle. -/
def isDeclared (handles : List String) (handle : String) : Bool :=
  handle.isEmpty || handles.contains handle

/-- The next token is one of those that leave a node out. -/
def isLeftOut (leaving : List Token) : List Token → Bool
  | [] => false
  | token :: _ => leaving.contains token

mutual

/-- Reads a node. Block collections may stand where `block` says so, a block sequence
without indentation where `indentless` says so. -/
def read (handles : List String) (fuel : Nat) (block indentless : Bool) (tokens : List Token) :
    Option (Node String × List Token) :=
  match fuel with
  | 0 => none
  | fuel + 1 =>
      match tokens with
      | .alias name :: rest => some (.alias name, rest)
      | _ =>
          let (anchor, tag, rest) := readProperties tokens
          if !tag.all (isDeclared handles) then none
          else
            match rest, block, indentless with
            | .scalar text plain :: rest, _, _ => some (.scalar anchor text plain, rest)
            | .blockEntry :: _, _, true =>
                (readIndentless handles fuel rest).map fun (items, rest) =>
                  (.sequence anchor items, rest)
            | .flowSequenceStart :: rest, _, _ =>
                (readFlowItems handles fuel true rest).map fun (items, rest) =>
                  (.sequence anchor items, rest)
            | .flowMappingStart :: rest, _, _ =>
                (readFlowMembers handles fuel true rest).map fun (members, rest) =>
                  (.mapping anchor members, rest)
            | .blockSequenceStart :: rest, true, _ =>
                (readBlockItems handles fuel rest).map fun (items, rest) =>
                  (.sequence anchor items, rest)
            | .blockMappingStart :: rest, true, _ =>
                (readBlockMembers handles fuel rest).map fun (members, rest) =>
                  (.mapping anchor members, rest)
            | rest, _, _ =>
                if anchor.isSome || tag.isSome then some (.absent anchor, rest) else none

/-- Reads a node unless one of some tokens leaves it out. -/
def readUnless (handles : List String) (fuel : Nat) (leaving : List Token)
    (block indentless : Bool) (tokens : List Token) : Option (Node String × List Token) :=
  match fuel with
  | 0 => none
  | fuel + 1 =>
      if isLeftOut leaving tokens then some (.absent none, tokens)
      else read handles fuel block indentless tokens

/-- Reads the items of a block sequence and its end. -/
def readBlockItems (handles : List String) (fuel : Nat) (tokens : List Token) :
    Option (List (Node String) × List Token) :=
  match fuel, tokens with
  | fuel + 1, .blockEntry :: rest => do
      let (item, rest) ← readUnless handles fuel [.blockEntry, .blockEnd] true false rest
      let (items, rest) ← readBlockItems handles fuel rest
      return (item :: items, rest)
  | _ + 1, .blockEnd :: rest => some ([], rest)
  | _, _ => none

/-- Reads the items of a block sequence that has no end of its own. -/
def readIndentless (handles : List String) (fuel : Nat) (tokens : List Token) :
    Option (List (Node String) × List Token) :=
  match fuel, tokens with
  | 0, _ => none
  | fuel + 1, .blockEntry :: rest => do
      let (item, rest) ←
        readUnless handles fuel [.blockEntry, .key, .value, .blockEnd] true false rest
      let (items, rest) ← readIndentless handles fuel rest
      return (item :: items, rest)
  | _ + 1, rest => some ([], rest)

/-- Reads the members of a block mapping and its end; keys and values may be left out. -/
def readBlockMembers (handles : List String) (fuel : Nat) (tokens : List Token) :
    Option (List (Node String × Node String) × List Token) :=
  match fuel, tokens with
  | fuel + 1, .key :: rest => do
      let (key, rest) ← readUnless handles fuel [.key, .value, .blockEnd] true true rest
      let (value, rest) ← readBlockValue handles fuel rest
      let (members, rest) ← readBlockMembers handles fuel rest
      return ((key, value) :: members, rest)
  | _ + 1, .blockEnd :: rest => some ([], rest)
  | _, _ => none

/-- Reads the value after a key of a block mapping. -/
def readBlockValue (handles : List String) (fuel : Nat) (tokens : List Token) :
    Option (Node String × List Token) :=
  match fuel, tokens with
  | 0, _ => none
  | fuel + 1, .value :: rest =>
      readUnless handles fuel [.key, .value, .blockEnd] true true rest
  | _ + 1, rest => some (.absent none, rest)

/-- Reads the items of a flow sequence and its end. -/
def readFlowItems (handles : List String) (fuel : Nat) (first : Bool) (tokens : List Token) :
    Option (List (Node String) × List Token) :=
  match fuel with
  | 0 => none
  | fuel + 1 => do
      match tokens with
      | .flowSequenceEnd :: rest => return ([], rest)
      | _ =>
          let tokens ← match first, tokens with
            | true, tokens => some tokens
            | false, .flowEntry :: rest => some rest
            | false, _ => none
          match tokens with
          | .flowSequenceEnd :: rest => return ([], rest)
          | .key :: rest =>
              let (pair, rest) ← readPair handles fuel rest
              let (items, rest) ← readFlowItems handles fuel false rest
              return (.mapping none [pair] :: items, rest)
          | _ =>
              let (item, rest) ← read handles fuel false false tokens
              let (items, rest) ← readFlowItems handles fuel false rest
              return (item :: items, rest)

/-- Reads a key and a value that stand as an item of a flow sequence. A key that is
left out takes the token with it that leaves it out. -/
def readPair (handles : List String) (fuel : Nat) (tokens : List Token) :
    Option ((Node String × Node String) × List Token) :=
  match fuel with
  | 0 => none
  | fuel + 1 => do
      let (key, rest) ←
        if isLeftOut [.value, .flowEntry, .flowSequenceEnd] tokens then
          some (.absent none, tokens.drop 1)
        else read handles fuel false false tokens
      match rest with
      | .value :: rest =>
          let (value, rest) ←
            readUnless handles fuel [.flowEntry, .flowSequenceEnd] false false rest
          return ((key, value), rest)
      | _ => return ((key, .absent none), rest)

/-- Reads the members of a flow mapping and its end; keys and values may be left out. -/
def readFlowMembers (handles : List String) (fuel : Nat) (first : Bool) (tokens : List Token) :
    Option (List (Node String × Node String) × List Token) :=
  match fuel with
  | 0 => none
  | fuel + 1 => do
      match tokens with
      | .flowMappingEnd :: rest => return ([], rest)
      | _ =>
          let tokens ← match first, tokens with
            | true, tokens => some tokens
            | false, .flowEntry :: rest => some rest
            | false, _ => none
          match tokens with
          | .flowMappingEnd :: rest => return ([], rest)
          | .key :: rest =>
              let (key, rest) ←
                readUnless handles fuel [.value, .flowEntry, .flowMappingEnd] false false rest
              let (value, rest) ← match rest with
                | .value :: rest =>
                    readUnless handles fuel [.flowEntry, .flowMappingEnd] false false rest
                | _ => some (.absent none, rest)
              let (members, rest) ← readFlowMembers handles fuel false rest
              return ((key, value) :: members, rest)
          | _ =>
              let (key, rest) ← read handles fuel false false tokens
              let (members, rest) ← readFlowMembers handles fuel false rest
              return ((key, .absent none) :: members, rest)

end

end Node

namespace Document

/-- Reads the directives of a document: at most one version, which must be known, and
handles that are all different. -/
def readDirectives (versioned : Bool) (handles : List String) :
    List Token → Option (List String × List Token)
  | .version major minor :: rest =>
      if versioned || major != 1 || (minor != 1 && minor != 2) then none
      else readDirectives true handles rest
  | .tagHandle handle :: rest =>
      if handles.contains handle then none else readDirectives versioned (handle :: handles) rest
  | rest => some (handles, rest)

/-- The token belongs to what stands before a document, or starts one. -/
def opensDocument : Token → Bool
  | .version _ _ | .tagHandle _ | .documentStart => true
  | _ => false

/-- Reads the root of the document that tokens start with, after its own start if
it has one. -/
def readRoot (tokens : List Token) : Option (Node String × List Token) := do
  let fuel := 3 * tokens.length + 3
  if (tokens.head?.map opensDocument).getD false then
    match ← readDirectives false [] tokens with
    | (handles, .documentStart :: rest) =>
        match rest with
        | [] => return (.absent none, [])
        | token :: _ =>
            if opensDocument token || token == .documentEnd then return (.absent none, rest)
            else Node.read ("!" :: "!!" :: handles) fuel true false rest
    | _ => none
  else Node.read ["!", "!!"] fuel true false tokens

/-- Reads a stream of one document; an empty stream is a document that is not written. -/
def read? (text : List Char) : Option Document := do
  match ← tokens? text with
  | [] => return ⟨.absent none, []⟩
  | tokens =>
      let (root, rest) ← readRoot tokens
      if (rest.dropWhile (· == .documentEnd)).isEmpty then ofNode? root else none

end Document

end OverlayManifest.Yaml
