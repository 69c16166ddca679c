/-
# Tokens of markup

A text is read as a sequence of tags. Character data, comments, CDATA sections,
document types and processing instructions are passed over, but must end. The
text may start with a byte order mark. A `<` that ends the text is passed over
as well.
-/

import OverlayManifest.Xml.Attribute

namespace OverlayManifest.Xml

/-- A tag as it stands in a text; a closing tag has only the text after its slash. -/
inductive Token
  | opening (tag : Tag)
  | single (tag : Tag)
  | closing (text : List Char)
  deriving DecidableEq, Repr

/-- The text up to the first `>` before which the text, here reversed, passes the
test, and the text after that `>`. -/
def splitAtClose (passes : List Char → Bool) (before : List Char) :
    List Char → Option (List Char × List Char)
  | [] => none
  | c :: text =>
      if c = '>' ∧ passes before then some (before.reverse, text)
      else splitAtClose passes (c :: before) text

/-- The text of a tag up to the first `>` outside quotes, and the text after it. -/
def splitTag (quote : Option Char) (before : List Char) :
    List Char → Option (List Char × List Char)
  | [] => none
  | c :: text =>
      match quote with
      | some mark => splitTag (if c = mark then none else quote) (c :: before) text
      | none =>
          if c = '>' then some (before.reverse, text)
          else splitTag (if c = '"' ∨ c = '\'' then some c else none) (c :: before) text

/-- The text opens with a word in small or capital letters; `word` has capitals only. -/
def opensWith (word text : List Char) : Bool :=
  word.isPrefixOf (text.map Char.toUpper)

/-- A comment may end here: two dashes that are not those of its start. -/
def endsComment (before : List Char) : Bool :=
  decide (3 < before.length) && ['-', '-'].isPrefixOf before

/-- A CDATA section may end here. -/
def endsCdata (before : List Char) : Bool := [']', ']'].isPrefixOf before

/-- A document type may end here: every angle bracket in it is closed. -/
def endsDoctype (before : List Char) : Bool := before.count '<' == before.count '>'

/-- What is wrong with the body of a comment that ends. -/
def commentFault? (body : List Char) : Option Fault :=
  if ['-', '-'].isPrefixOf body then none else some (.endOfText .comment)

/-- What is wrong with the body of a CDATA section that ends. -/
def cdataFault? (body : List Char) : Option Fault :=
  if opensWith ['[', 'C', 'D', 'A', 'T', 'A', '['] body then none else some (.endOfText .cdata)

/-- What is wrong with the body of a document type that ends. -/
def doctypeFault? (body : List Char) : Option Fault :=
  if !opensWith ['D', 'O', 'C', 'T', 'Y', 'P', 'E'] body then some (.endOfText .doctype)
  else if (body.drop 7).all isBlank then some .emptyDoctype
  else none

/-- Passes over a section: its body, up to the `>` that ends it, must have no fault. -/
def skipSection (construct : Construct) (ends : List Char → Bool)
    (fault? : List Char → Option Fault) (text : List Char) : Except Fault (List Char) :=
  match splitAtClose ends [] text with
  | none => .error (.endOfText construct)
  | some (body, rest) =>
      match fault? body with
      | some fault => .error fault
      | none => .ok rest

/-- Passes over what starts with `<!`; the text begins after that. -/
def skipBang (text : List Char) : Except Fault (List Char) :=
  match text with
  | [] => .error (.endOfText .bang)
  | '[' :: _ => skipSection .cdata endsCdata cdataFault? text
  | '-' :: _ => skipSection .comment endsComment commentFault? text
  | c :: _ =>
      if c = 'D' ∨ c = 'd' then skipSection .doctype endsDoctype doctypeFault? text
      else .error (.unknownBang (Text.leadByte c))

/-- The text after the first `>`, which may be missing. -/
def afterClose (text : List Char) : List Char := (text.dropWhile (· != '>')).drop 1

/-- Reads one construct after its `<`: the tag it is, if it is one, and the text
after it. A closing tag and an instruction may end with the text. -/
def readConstruct (text : List Char) : Except Fault (Option Token × List Char) :=
  match text with
  | '!' :: rest => (skipBang rest).map (none, ·)
  | '/' :: rest =>
      .ok (some (.closing (rest.takeWhile (· != '>'))), afterClose rest)
  | '?' :: rest =>
      let body := rest.takeWhile (· != '>')
      if 2 ≤ body.length ∧ body.getLast? = some '?' then
        .ok (none, afterClose rest)
      else .error (.endOfText .instruction)
  | _ =>
      match splitTag none [] text with
      | none => .error (.endOfText .element)
      | some (body, rest) =>
          if body.getLast? = some '/' then .ok (some (.single (.ofText body.dropLast)), rest)
          else .ok (some (.opening (.ofText body)), rest)

/-- What is left after a `>` is no longer than the text. -/
theorem afterClose_length (text : List Char) : (afterClose text).length ≤ text.length := by
  have := (List.dropWhile_sublist (l := text) (· != '>')).length_le
  rw [afterClose, List.length_drop]
  omega

/-- The text after a section lacks its `>` at least. -/
theorem splitAtClose_length {passes : List Char → Bool} {before text body rest : List Char}
    (h : splitAtClose passes before text = some (body, rest)) : rest.length < text.length := by
  fun_induction splitAtClose passes before text with
  | case1 => simp at h
  | case2 => simp_all
  | case3 _ _ _ _ ih => exact Nat.lt_succ_of_lt (ih h)

/-- The text after a tag lacks its `>` at least. -/
theorem splitTag_length {quote : Option Char} {before text body rest : List Char}
    (h : splitTag quote before text = some (body, rest)) : rest.length < text.length := by
  fun_induction splitTag quote before text with
  | case1 => simp at h
  | case2 _ _ _ _ ih => exact Nat.lt_succ_of_lt (ih h)
  | case3 => simp_all
  | case4 _ _ _ _ ih => exact Nat.lt_succ_of_lt (ih h)

/-- A section that was passed over had its `>` at least. -/
theorem skipSection_length {construct : Construct} {ends : List Char → Bool}
    {fault? : List Char → Option Fault} {text rest : List Char}
    (h : skipSection construct ends fault? text = .ok rest) : rest.length < text.length := by
  unfold skipSection at h
  split at h
  · cases h
  · rename_i hSplit
    split at h
    · cases h
    · cases h
      exact splitAtClose_length hSplit

/-- What starts with `<!` has a `>` at least. -/
theorem skipBang_length {text rest : List Char} (h : skipBang text = .ok rest) :
    rest.length < text.length := by
  unfold skipBang at h
  split at h
  · cases h
  · exact skipSection_length h
  · exact skipSection_length h
  · split at h
    · exact skipSection_length h
    · cases h

/-- Reading a construct gives no text back. -/
theorem readConstruct_length {text rest : List Char} {token : Option Token}
    (h : readConstruct text = .ok (token, rest)) : rest.length ≤ text.length := by
  unfold readConstruct at h
  split at h
  · rename_i text
    cases hBang : skipBang text with
    | error fault => simp [hBang, Except.map] at h
    | ok after =>
      have := skipBang_length hBang
      simp only [hBang, Except.map, Except.ok.injEq, Prod.mk.injEq] at h
      rw [List.length_cons, ← h.2]
      omega
  · rename_i text
    cases h
    exact Nat.le_succ_of_le (afterClose_length text)
  · rename_i text
    dsimp only at h
    split at h
    · cases h
      exact Nat.le_succ_of_le (afterClose_length text)
    · cases h
  · split at h
    · cases h
    · rename_i hSplit
      have := splitTag_length hSplit
      split at h <;> cases h <;> omega

/-- The tags of a text, in order. -/
def tokens (text : List Char) : Reading Fault Token :=
  match hText : text.dropWhile (· != '<') with
  | [] | [_] => .done
  | _ :: c :: rest =>
      match hRead : readConstruct (c :: rest) with
      | .error fault => .failed fault
      | .ok (token, after) =>
          have : after.length < text.length := by
            have h₁ := (List.dropWhile_sublist (l := text) (· != '<')).length_le
            have h₂ := readConstruct_length hRead
            simp only [hText, List.length_cons] at h₁ h₂
            omega
          match token with
          | none => tokens after
          | some token => .item token (tokens after)
termination_by text.length

/-- The name in a closing tag, less the blanks after it; only blanks stay as they are. -/
def closingName (text : List Char) : List Char :=
  if text.all isBlank then text else (text.reverse.dropWhile isBlank).reverse

/-- Tokens up to the first closing tag that does not name the element it closes;
`path` holds the names of the open elements, the innermost first. -/
def nested (path : List (List Char)) : Reading Fault Token → Reading Fault Token
  | .done => .done
  | .failed fault => .failed fault
  | .item (.opening tag) rest => .item (.opening tag) (nested (tag.name :: path) rest)
  | .item (.single tag) rest => .item (.single tag) (nested path rest)
  | .item (.closing text) rest =>
      match path with
      | [] => .failed (.mismatch [] text)
      | name :: outer =>
          if closingName text = name then .item (.closing text) (nested outer rest)
          else .failed (.mismatch name (closingName text))

/-- A text without the byte order mark it may start with. -/
def dropByteOrderMark : List Char → List Char
  | '\ufeff' :: text => text
  | text => text

/-- The tags of a document, each closing one with the name of the element it closes. -/
def read (text : String) : Reading Fault Token :=
  nested [] (tokens (dropByteOrderMark text.toList))

end OverlayManifest.Xml
