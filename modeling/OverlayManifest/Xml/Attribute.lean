/-
# Attributes of a tag

A tag is a name and the text after it. Attributes are read from that text one
after another: a key, an equals sign and a value in single or double quotes,
with blanks allowed around each. No blank is needed between attributes, and no
key may occur twice. A fault counts only once the attributes before it are read.
-/

import OverlayManifest.Xml.Escape
import OverlayManifest.Xml.Reading

namespace OverlayManifest.Xml

/-- The characters that separate words of markup. -/
def isBlank (c : Char) : Bool := c == ' ' || c == '\t' || c == '\r' || c == '\n'

/-- A key with the value written for it, escapes and all. -/
structure Attribute where
  key : List Char
  value : List Char
  deriving DecidableEq, Repr

/-- What ends a key: an equals sign or a blank. -/
def endsKey (c : Char) : Bool := c == '=' || isBlank c

/-- Passes over the equals sign that follows a key. -/
def skipEquals (size : Nat) (text : List Char) : Except AttributeFault (List Char) :=
  match text.dropWhile isBlank with
  | [] => .error (.expectedEquals size)
  | c :: rest =>
      if c = '=' then .ok rest
      else .error (.expectedEquals (size - Text.byteSize (c :: rest)))

/-- Reads a value in quotes, and gives the text after it. -/
def readValue (size : Nat) (text : List Char) : Except AttributeFault (List Char × List Char) :=
  match text.dropWhile isBlank with
  | [] => .error (.expectedValue size)
  | quote :: body =>
      if quote ≠ '"' ∧ quote ≠ '\'' then
        .error (.unquotedValue (size - Text.byteSize (quote :: body)))
      else
        match body.dropWhile (· != quote) with
        | [] => .error (.unclosedValue size quote)
        | _ :: rest => .ok (body.takeWhile (· != quote), rest)

/-- Reads the attribute whose key starts with a character, and gives the text after
it; a key may even start with an equals sign. -/
def readAttribute (size : Nat) (seen : List (List Char × Nat)) (first : Char)
    (more : List Char) : Except AttributeFault (Attribute × List Char) :=
  let key := first :: more.takeWhile (!endsKey ·)
  match skipEquals size (more.dropWhile (!endsKey ·)) with
  | .error fault => .error fault
  | .ok afterEquals =>
      match seen.lookup key with
      | some previous =>
          .error (.duplicated (size - Text.byteSize (first :: more)) previous)
      | none =>
          match readValue size afterEquals with
          | .error fault => .error fault
          | .ok (value, rest) => .ok (⟨key, value⟩, rest)

/-- An equals sign is at least one character. -/
theorem skipEquals_length {size : Nat} {text rest : List Char}
    (h : skipEquals size text = .ok rest) : rest.length < text.length := by
  have hDrop := (List.dropWhile_sublist (l := text) isBlank).length_le
  unfold skipEquals at h
  split at h
  · cases h
  · rename_i hText
    rw [hText, List.length_cons] at hDrop
    split at h <;> cases h
    exact hDrop

/-- A value has at least its quotes. -/
theorem readValue_length {size : Nat} {text value rest : List Char}
    (h : readValue size text = .ok (value, rest)) : rest.length < text.length := by
  have hDrop := (List.dropWhile_sublist (l := text) isBlank).length_le
  unfold readValue at h
  split at h
  · cases h
  · rename_i quote body hText
    have hBody := (List.dropWhile_sublist (l := body) (· != quote)).length_le
    split at h
    · cases h
    · split at h
      · cases h
      · rename_i hRest
        cases h
        rw [hText, List.length_cons] at hDrop
        rw [hRest, List.length_cons] at hBody
        omega

/-- Reading an attribute takes its key at least. -/
theorem readAttribute_length {size : Nat} {seen : List (List Char × Nat)} {first : Char}
    {more rest : List Char} {found : Attribute}
    (h : readAttribute size seen first more = .ok (found, rest)) : rest.length < more.length := by
  have hDrop := (List.dropWhile_sublist (l := more) (!endsKey ·)).length_le
  unfold readAttribute at h
  dsimp only at h
  split at h
  · cases h
  · rename_i hEquals
    have := skipEquals_length hEquals
    split at h
    · cases h
    · split at h
      · cases h
      · rename_i hValue
        have := readValue_length hValue
        cases h
        omega

/-- Reads attributes from the rest of a tag of `size` bytes; `seen` holds the keys
read so far with their offsets. -/
def readAttributes (size : Nat) (seen : List (List Char × Nat)) (text : List Char) :
    Reading AttributeFault Attribute :=
  match hText : text.dropWhile isBlank with
  | [] => .done
  | first :: more =>
      match hRead : readAttribute size seen first more with
      | .error fault => .failed fault
      | .ok (found, rest) =>
          have : rest.length < text.length := by
            have h₁ := (List.dropWhile_sublist (l := text) isBlank).length_le
            have h₂ := readAttribute_length hRead
            rw [hText, List.length_cons] at h₁
            omega
          let offset := size - Text.byteSize (first :: more)
          .item found (readAttributes size ((found.key, offset) :: seen) rest)
termination_by text.length

/-- A tag: its name and the text between the name and the tag's end. -/
structure Tag where
  name : List Char
  tail : List Char
  deriving DecidableEq, Repr

namespace Tag

/-- Splits the text of a tag after its name, which ends at the first blank. -/
def ofText (text : List Char) : Tag where
  name := text.takeWhile (!isBlank ·)
  tail := text.dropWhile (!isBlank ·)

/-- The attributes of a tag, in the order of the text. -/
def attributes (tag : Tag) : Reading AttributeFault Attribute :=
  readAttributes (Text.byteSize tag.name + Text.byteSize tag.tail) [] tag.tail

/-- The text of the first attribute with a key, if no fault comes before it. -/
def find? (key : List Char) : Reading AttributeFault Attribute → Except Fault (Option String)
  | .done => .ok none
  | .failed fault => .error (.attribute fault)
  | .item first rest =>
      if first.key = key then
        match unescape first.value with
        | .ok value => .ok (some (String.ofList value))
        | .error fault => .error (.escape fault)
      else find? key rest

/-- The text of a tag's attribute with a key. -/
def attribute? (tag : Tag) (key : String) : Except Fault (Option String) :=
  find? key.toList tag.attributes

end Tag

end OverlayManifest.Xml
