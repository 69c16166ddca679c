/-
# Texts of JSON

The texts of a value, with blanks wherever the format allows them. A character may be written
as it is, by a letter or mark after a backslash, or by its number; of the numbers those count
that stand for one character each. Whatever is written of a value is a text of it.
-/

import Mathlib.Data.List.TakeWhile
import OverlayManifest.Json
import OverlayManifest.Text.Digit

namespace OverlayManifest.Json

/-- Blanks may stand around values and marks. -/
def isBlank (c : Char) : Bool := c == ' ' || c == '\n' || c == '\r' || c == '\t'

/-- The character that four hexadecimal digits number. -/
def numberedChar? (digits : List Char) : Option Char :=
  if digits.all (Text.hexadecimalDigit? · |>.isSome) then
    Text.charOfCode? (Text.numberOf 16 digits)
  else none

/-- The character that a letter or mark stands for after a backslash. -/
def escapedChar? : Char → Option Char
  | '"' => some '"'
  | '\\' => some '\\'
  | '/' => some '/'
  | 'b' => some '\x08'
  | 'f' => some '\x0c'
  | 'n' => some '\n'
  | 'r' => some '\r'
  | 't' => some '\t'
  | _ => none

/-- Blanks that may stand around values and marks. -/
def IsBlanks (text : List Char) : Prop := ∀ c ∈ text, isBlank c = true

/-- A character may stand in a text as it is, as a letter or mark after a backslash, or by its
number. -/
inductive SpellsChar : Char → List Char → Prop
  | plain {c : Char} (hquote : c ≠ '"') (hbackslash : c ≠ '\\') (hcode : ¬ c.toNat < 0x20) :
      SpellsChar c [c]
  | escaped {c mark : Char} (hmark : escapedChar? mark = some c) : SpellsChar c ['\\', mark]
  | numbered {c first second third fourth : Char}
      (hdigits : numberedChar? [first, second, third, fourth] = some c) :
      SpellsChar c ['\\', 'u', first, second, third, fourth]

/-- The ways to write a text between quotes. -/
inductive SpellsText : List Char → List Char → Prop
  | nil : SpellsText [] []
  | cons {c : Char} {text written more : List Char} (hchar : SpellsChar c written)
      (hmore : SpellsText text more) : SpellsText (c :: text) (written ++ more)

/-- What a piece of a text can be: a value, the items of a list, or the members of an object. -/
inductive Part
  | value (value : Value)
  | items (items : List Value)
  | members (members : List (String × Value))

/-- The ways to write a part, without the brackets around items and members. -/
inductive Spells : Part → List Char → Prop
  | yes : Spells (.value (.truth true)) ['t', 'r', 'u', 'e']
  | no : Spells (.value (.truth false)) ['f', 'a', 'l', 's', 'e']
  | text {text : String} {written : List Char} (htext : SpellsText text.toList written) :
      Spells (.value (.text text)) ('"' :: (written ++ ['"']))
  | emptyList {blanks : List Char} (hblanks : IsBlanks blanks) :
      Spells (.value (.list [])) ('[' :: (blanks ++ [']']))
  | list {items : List Value} {written : List Char} (hitems : Spells (.items items) written) :
      Spells (.value (.list items)) ('[' :: (written ++ [']']))
  | emptyObject {blanks : List Char} (hblanks : IsBlanks blanks) :
      Spells (.value (.object [])) ('\x7b' :: (blanks ++ ['\x7d']))
  | object {members : List (String × Value)} {written : List Char}
      (hmembers : Spells (.members members) written) :
      Spells (.value (.object members)) ('\x7b' :: (written ++ ['\x7d']))
  | lastItem {item : Value} {before written after : List Char} (hbefore : IsBlanks before)
      (hitem : Spells (.value item) written) (hafter : IsBlanks after) :
      Spells (.items [item]) (before ++ (written ++ after))
  | nextItem {item : Value} {items : List Value} {before written after more : List Char}
      (hbefore : IsBlanks before) (hitem : Spells (.value item) written) (hafter : IsBlanks after)
      (hmore : Spells (.items items) more) :
      Spells (.items (item :: items)) (before ++ (written ++ (after ++ ',' :: more)))
  | lastMember {key : String} {value : Value} {before name colon inside written after : List Char}
      (hbefore : IsBlanks before) (hkey : SpellsText key.toList name) (hcolon : IsBlanks colon)
      (hinside : IsBlanks inside) (hvalue : Spells (.value value) written)
      (hafter : IsBlanks after) :
      Spells (.members [(key, value)])
        (before ++ '"' :: (name ++ '"' :: (colon ++ ':' :: (inside ++ (written ++ after)))))
  | nextMember {key : String} {value : Value} {members : List (String × Value)}
      {before name colon inside written after more : List Char}
      (hbefore : IsBlanks before) (hkey : SpellsText key.toList name) (hcolon : IsBlanks colon)
      (hinside : IsBlanks inside) (hvalue : Spells (.value value) written)
      (hafter : IsBlanks after) (hmore : Spells (.members members) more) :
      Spells (.members ((key, value) :: members))
        (before ++ '"' :: (name ++ '"' :: (colon ++ ':' ::
          (inside ++ (written ++ (after ++ ',' :: more))))))

/-- A text is a value, with blanks around it. -/
def IsText (value : Value) (text : String) : Prop :=
  ∃ before written after, text.toList = before ++ (written ++ after) ∧ IsBlanks before ∧
    Spells (.value value) written ∧ IsBlanks after

theorem isBlanks_nil : IsBlanks [] := fun _ h => absurd h List.not_mem_nil

theorem IsBlanks.append {blanks others : List Char} (h : IsBlanks blanks)
    (hothers : IsBlanks others) : IsBlanks (blanks ++ others) := by
  intro c hc
  exact (List.mem_append.mp hc).elim (h c) (hothers c)

/-! ## What was written -/

/-- A control character is read back from its number. -/
theorem numberedChar?_digits {c : Char} (hc : c.toNat < 0x20) :
    numberedChar? ['0', '0', Nat.digitChar (c.toNat / 16), Nat.digitChar (c.toNat % 16)] =
      some c := by
  have hcode : ∀ code < 0x20, numberedChar?
      ['0', '0', Nat.digitChar (code / 16), Nat.digitChar (code % 16)] =
        Text.charOfCode? code := by decide
  rw [hcode c.toNat hc, Text.charOfCode?_toNat]

/-- A character is written in one of the ways to write it. -/
theorem spellsChar_escapeChar (c : Char) : SpellsChar c (escapeChar c) := by
  have hmark {mark : Char} (h : escapedChar? mark = some c) : SpellsChar c ['\\', mark] :=
    .escaped h
  unfold escapeChar
  split_ifs with hquote hbackslash hbackspace hfeed hline hreturn htab hcode
  · exact hmark (by rw [hquote]; rfl)
  · exact hmark (by rw [hbackslash]; rfl)
  · exact hmark (by rw [hbackspace]; rfl)
  · exact hmark (by rw [hfeed]; rfl)
  · exact hmark (by rw [hline]; rfl)
  · exact hmark (by rw [hreturn]; rfl)
  · exact hmark (by rw [htab]; rfl)
  · exact .numbered (numberedChar?_digits hcode)
  · exact .plain hquote hbackslash hcode

theorem spellsText_escaped (text : List Char) : SpellsText text (text.flatMap escapeChar) := by
  induction text with
  | nil => exact .nil
  | cons c text ih => exact .cons (spellsChar_escapeChar c) ih

theorem isBlanks_lineBreak (depth : Nat) : IsBlanks (lineBreak depth) := by
  intro c hc
  rcases List.mem_cons.mp hc with rfl | hspace
  · rfl
  · rw [List.eq_of_mem_replicate hspace]
    rfl

/-- Pieces on lines of their own at some depth, with a line break before each and after the
last. -/
def lines (depth outer : Nat) : List (List Char) → List Char
  | [] => lineBreak outer
  | [piece] => lineBreak depth ++ (piece ++ lineBreak outer)
  | piece :: pieces => lineBreak depth ++ (piece ++ ',' :: lines depth outer pieces)

theorem block_cons (opening closing : Char) (depth : Nat) (piece : List Char)
    (pieces : List (List Char)) :
    block opening closing depth (piece :: pieces) =
      opening :: (lines (depth + 1) depth (piece :: pieces) ++ [closing]) := by
  have hlines : ∀ piece, lines (depth + 1) depth (piece :: pieces) = lineBreak (depth + 1) ++
      ((',' :: lineBreak (depth + 1)).intercalate (piece :: pieces) ++ lineBreak depth) := by
    induction pieces with
    | nil => simp [lines]
    | cons next pieces ih =>
        intro piece
        rw [lines, ih, List.intercalate_cons_cons]
        · simp
        · simp
  rw [hlines]
  simp [block]

mutual

/-- A written value is a text of it. -/
theorem spells_render (value : Value) (depth : Nat) :
    Spells (.value value) (value.render depth) := by
  match value with
  | .truth true => exact .yes
  | .truth false => exact .no
  | .text value => exact .text (spellsText_escaped value.toList)
  | .list [] => exact .emptyList isBlanks_nil
  | .list (item :: items) =>
      rw [Value.render, renderItems, block_cons, ← renderItems]
      exact .list (spells_renderItems (item :: items) (depth + 1) depth (List.cons_ne_nil _ _))
  | .object [] => exact .emptyObject isBlanks_nil
  | .object ((key, value) :: members) =>
      rw [Value.render, renderMembers, block_cons, ← renderMembers]
      exact .object
        (spells_renderMembers ((key, value) :: members) (depth + 1) depth (List.cons_ne_nil _ _))

/-- Written items are texts of them, line by line. -/
theorem spells_renderItems (items : List Value) (depth outer : Nat) (hitems : items ≠ []) :
    Spells (.items items) (lines depth outer (renderItems depth items)) := by
  have hblanks := isBlanks_lineBreak
  match items with
  | [] => exact absurd rfl hitems
  | [item] => exact .lastItem (hblanks depth) (spells_render item depth) (hblanks outer)
  | item :: next :: items =>
      exact .nextItem (hblanks depth) (spells_render item depth) isBlanks_nil
        (spells_renderItems (next :: items) depth outer (List.cons_ne_nil _ _))

/-- Written members are texts of them, line by line. -/
theorem spells_renderMembers (members : List (String × Value)) (depth outer : Nat)
    (hmembers : members ≠ []) :
    Spells (.members members) (lines depth outer (renderMembers depth members)) := by
  have hblanks := isBlanks_lineBreak
  have hspace : IsBlanks [' '] := by simp [IsBlanks, isBlank]
  match members with
  | [] => exact absurd rfl hmembers
  | [(key, value)] =>
      have hmember := Spells.lastMember (hblanks depth) (spellsText_escaped key.toList)
        isBlanks_nil hspace (spells_render value depth) (hblanks outer)
      simpa [lines, renderMembers, quote] using hmember
  | (key, value) :: (nextKey, next) :: members =>
      have hmember := Spells.nextMember (hblanks depth) (spellsText_escaped key.toList)
        isBlanks_nil hspace (spells_render value depth) isBlanks_nil
        (spells_renderMembers ((nextKey, next) :: members) depth outer (List.cons_ne_nil _ _))
      simpa [lines, renderMembers, quote] using hmember

end

/-- A written value with blanks after it is a text of the value. -/
theorem isText_render (value : Value) {blanks : List Char} (hblanks : IsBlanks blanks) :
    IsText value (String.ofList (value.render 0 ++ blanks)) :=
  ⟨[], value.render 0, blanks, String.toList_ofList, isBlanks_nil, spells_render value 0, hblanks⟩

end OverlayManifest.Json
