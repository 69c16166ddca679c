/-
# Written tags are read back

A tag is written as its name and its attributes, each value in quotation marks. Reading
finds the end of the tag where it was written, and finds in it the attributes that were
written, however they are spaced and quoted. In a manifest each value is escaped and in
double quotes.
-/

import Mathlib.Data.List.Forall2
import OverlayManifest.Manifest
import OverlayManifest.Proofs.Escape
import OverlayManifest.Xml.Token

namespace OverlayManifest.Xml

/-- Items, and then what else is read. -/
def Reading.prepend {ε α : Type} (items : List α) (rest : Reading ε α) : Reading ε α :=
  items.foldr .item rest

@[simp]
theorem Reading.prepend_nil {ε α : Type} (rest : Reading ε α) : prepend [] rest = rest := rfl

@[simp]
theorem Reading.prepend_cons {ε α : Type} (value : α) (items : List α) (rest : Reading ε α) :
    prepend (value :: items) rest = .item value (prepend items rest) := rfl

@[simp]
theorem Reading.prepend_append {ε α : Type} (first second : List α) (rest : Reading ε α) :
    prepend (first ++ second) rest = prepend first (prepend second rest) :=
  List.foldr_append

/-- A character that neither ends a name nor makes it something else than a name. -/
def isNameChar (c : Char) : Bool :=
  !isBlank c && !isDelimiter c && c != '=' && c != '/' && c != '!' && c != '?'

/-- The name of a tag or an attribute. -/
def IsName (name : List Char) : Prop := name ≠ [] ∧ ∀ c ∈ name, isNameChar c = true

instance (name : List Char) : Decidable (IsName name) :=
  decidable_of_iff (name ≠ [] ∧ name.all isNameChar = true)
    (and_congr_right fun _ => List.all_eq_true)

theorem isBlank_of_isNameChar {c : Char} (h : isNameChar c = true) : isBlank c = false := by
  simp only [isNameChar, Bool.and_eq_true, Bool.not_eq_true'] at h
  exact h.1.1.1.1.1

theorem isDelimiter_of_isNameChar {c : Char} (h : isNameChar c = true) :
    isDelimiter c = false := by
  simp only [isNameChar, Bool.and_eq_true, Bool.not_eq_true'] at h
  exact h.1.1.1.1.2

theorem endsKey_of_isNameChar {c : Char} (h : isNameChar c = true) : endsKey c = false := by
  rw [endsKey, isBlank_of_isNameChar h, Bool.or_false]
  simp only [isNameChar, Bool.and_eq_true, bne_iff_ne] at h
  exact beq_false_of_ne h.1.1.1.2

/-- Text that only separates words. -/
def Blanks (text : List Char) : Prop := ∀ c ∈ text, isBlank c = true

/-- A quotation mark, around a value. -/
def IsMark (mark : Char) : Prop := mark = '"' ∨ mark = '\''

instance (mark : Char) : Decidable (IsMark mark) := inferInstanceAs (Decidable (_ ∨ _))

theorem isBlank_of_isMark {mark : Char} (h : IsMark mark) : isBlank mark = false := by
  rcases h with rfl | rfl <;> rfl

theorem isDelimiter_of_isBlank {c : Char} (h : isBlank c = true) : isDelimiter c = false := by
  simp only [isBlank, Bool.or_eq_true, beq_iff_eq] at h
  rcases h with ((rfl | rfl) | rfl) | rfl <;> rfl

/-! ## The end of a tag -/

/-- A part of a tag that neither ends the tag nor leaves a value open. -/
def StaysInTag (part : List Char) : Prop :=
  ∀ before text, splitTag none before (part ++ text) = splitTag none (part.reverse ++ before) text

theorem StaysInTag.append {first second : List Char} (hfirst : StaysInTag first)
    (hsecond : StaysInTag second) : StaysInTag (first ++ second) := by
  intro before text
  rw [List.append_assoc, hfirst, hsecond, List.reverse_append, List.append_assoc]

/-- Without delimiters a part stays in its tag. -/
theorem staysInTag_of_plain {part : List Char} (h : ∀ c ∈ part, isDelimiter c = false) :
    StaysInTag part := by
  induction part with
  | nil => exact fun _ _ => rfl
  | cons c part ih =>
      intro before text
      have hc := h c List.mem_cons_self
      simp only [isDelimiter, Bool.or_eq_false_iff, beq_eq_false_iff_ne] at hc
      obtain ⟨⟨⟨-, hclose⟩, hapos⟩, hquot⟩ := hc
      rw [List.cons_append, splitTag]
      rw [if_neg hclose, if_neg (by simp [hapos, hquot]),
        ih fun d hd => h d (List.mem_cons_of_mem c hd), List.reverse_cons, List.append_assoc]
      rfl

/-- A value ends at its closing quote. -/
theorem splitTag_value {mark : Char} {value : List Char} (h : mark ∉ value)
    (before text : List Char) :
    splitTag (some mark) before (value ++ mark :: text) =
      splitTag none (mark :: (value.reverse ++ before)) text := by
  induction value generalizing before with
  | nil =>
      rw [List.nil_append, splitTag]
      simp
  | cons c value ih =>
      rw [List.mem_cons, not_or] at h
      rw [List.cons_append, splitTag]
      rw [if_neg (Ne.symm h.1), ih h.2, List.reverse_cons, List.append_assoc]
      rfl

/-- A value in quotation marks stays in its tag. -/
theorem staysInTag_quoted {mark : Char} {value : List Char} (hmark : IsMark mark)
    (h : mark ∉ value) : StaysInTag (mark :: (value ++ [mark])) := by
  intro before text
  have hclose : mark ≠ '>' := by
    rintro rfl
    exact absurd hmark (by decide)
  rw [List.cons_append, splitTag, List.append_assoc]
  dsimp only [List.singleton_append]
  rw [if_neg hclose, if_pos (show mark = '"' ∨ mark = '\'' from hmark), splitTag_value h]
  simp

/-- A tag ends at the `>` that follows its text. -/
theorem splitTag_of_staysInTag {body : List Char} (h : StaysInTag body) (rest : List Char) :
    splitTag none [] (body ++ '>' :: rest) = some (body, rest) := by
  rw [h, splitTag]
  simp

/-- What may stand between the name and the end of a tag: it starts with a blank, does not
end the tag, and its last character does not make the tag a single one. -/
structure IsTail (tail : List Char) : Prop where
  stays : StaysInTag tail
  starts : ∀ c, tail.head? = some c → isBlank c = true
  ends : tail.getLast? ≠ some '/'

/-! ## Attributes -/

/-- Attributes as they stand in a tag: each after a blank or more, with blanks allowed on
both sides of its equals sign, and its value between two marks that do not occur in it.
Blanks may follow the last one. -/
inductive LaidOut : List Attribute → List Char → Prop
  | nil {blanks : List Char} (hblanks : Blanks blanks) : LaidOut [] blanks
  | cons {found : Attribute} {attributes : List Attribute}
      {blanks before after text : List Char} {mark : Char} (hapart : blanks ≠ [])
      (hblanks : Blanks blanks) (hbefore : Blanks before) (hafter : Blanks after)
      (hmark : IsMark mark) (hvalue : mark ∉ found.value)
      (hrest : LaidOut attributes text) :
      LaidOut (found :: attributes) (blanks ++ (found.key ++ (before ++
        '=' :: (after ++ mark :: (found.value ++ mark :: text)))))

namespace LaidOut

variable {attributes : List Attribute} {text : List Char}

/-- Attributes stay in their tag. -/
theorem staysInTag (h : LaidOut attributes text)
    (hkeys : ∀ found ∈ attributes, IsName found.key) : StaysInTag text := by
  have hplain {blanks : List Char} (hblanks : Blanks blanks) : StaysInTag blanks :=
    staysInTag_of_plain fun c hc => isDelimiter_of_isBlank (hblanks c hc)
  induction h with
  | nil hblanks => exact hplain hblanks
  | @cons found attributes blanks before after text mark _ hblanks hbefore hafter hmark
      hvalue _ ih =>
      have hkey : StaysInTag found.key := staysInTag_of_plain fun c hc =>
        isDelimiter_of_isNameChar ((hkeys found List.mem_cons_self).2 c hc)
      have hequals : StaysInTag ['='] := staysInTag_of_plain (by simp [isDelimiter])
      have hrest := ih fun other hother => hkeys other (List.mem_cons_of_mem _ hother)
      have hall := (hplain hblanks).append (hkey.append ((hplain hbefore).append
        (hequals.append ((hplain hafter).append ((staysInTag_quoted hmark hvalue).append hrest)))))
      simpa using hall

/-- Attributes may stand between the name of a tag and its end. -/
theorem isTail (h : LaidOut attributes text)
    (hkeys : ∀ found ∈ attributes, IsName found.key) : IsTail text where
  stays := h.staysInTag hkeys
  starts c hc := by
    cases h with
    | nil hblanks => exact hblanks c (List.mem_of_head? hc)
    | @cons _ _ blanks _ _ _ _ hapart hblanks =>
        obtain ⟨blank, more, rfl⟩ := List.exists_cons_of_ne_nil hapart
        cases hc
        exact hblanks c List.mem_cons_self
  ends hlast := by
    clear hkeys
    induction h with
    | nil hblanks => exact absurd (hblanks '/' (List.mem_of_getLast? hlast)) (by decide)
    | @cons _ _ _ _ _ text mark _ _ _ _ hmark _ _ ih =>
        simp only [List.getLast?_append, List.getLast?_cons, Option.some_or] at hlast
        cases hend : text.getLast? with
        | none =>
            rw [hend] at hlast
            cases hlast
            exact absurd hmark (by decide)
        | some c =>
            rw [hend] at hlast
            exact ih (hend.trans hlast)

end LaidOut

/-- The first attribute of a text is what one step reads. -/
theorem readAttributes_of_read {size : Nat} {seen : List (List Char × Nat)}
    {text more rest : List Char} {first : Char} {found : Attribute}
    (htext : text.dropWhile isBlank = first :: more)
    (hread : readAttribute size seen first more = .ok (found, rest)) :
    readAttributes size seen text =
      .item found (readAttributes size
        ((found.key, size - Text.byteSize (first :: more)) :: seen) rest) := by
  rw [readAttributes]
  split
  · rename_i hnil
    rw [htext] at hnil
    cases hnil
  · rename_i first' more' htext'
    rw [htext] at htext'
    cases htext'
    split
    · rename_i hread'
      rw [hread] at hread'
      cases hread'
    · rename_i hread'
      rw [hread] at hread'
      cases hread'
      rfl

/-- A key ends at the equals sign or at the blanks before it. -/
theorem takeWhile_key {name before : List Char} (hname : ∀ c ∈ name, endsKey c = false)
    (hbefore : Blanks before) (rest : List Char) :
    (name ++ (before ++ '=' :: rest)).takeWhile (!endsKey ·) = name ∧
      (name ++ (before ++ '=' :: rest)).dropWhile (!endsKey ·) = before ++ '=' :: rest := by
  have hkeep : ∀ c ∈ name, (!endsKey c) = true := fun c hc => by
    rw [hname c hc]
    rfl
  rw [List.takeWhile_append_of_pos hkeep, List.dropWhile_append_of_pos hkeep]
  cases before with
  | nil => simp [endsKey]
  | cons blank before =>
      have hblank : isBlank blank = true := hbefore blank List.mem_cons_self
      simp [endsKey, hblank]

/-- A value ends at the next mark of its kind. -/
theorem readValue_written {size : Nat} {after value rest : List Char} {mark : Char}
    (hafter : Blanks after) (hmark : IsMark mark) (hvalue : mark ∉ value) :
    readValue size (after ++ mark :: (value ++ mark :: rest)) = .ok (value, rest) := by
  have hopen : (after ++ mark :: (value ++ mark :: rest)).dropWhile isBlank =
      mark :: (value ++ mark :: rest) := by
    rw [List.dropWhile_append_of_pos hafter, List.dropWhile_cons_of_neg]
    rw [isBlank_of_isMark hmark]
    exact Bool.false_ne_true
  have hother : ∀ c ∈ value, (c != mark) = true := fun c hc =>
    bne_iff_ne.mpr fun h => hvalue (h ▸ hc)
  have hend : (value ++ mark :: rest).dropWhile (· != mark) = mark :: rest := by
    rw [List.dropWhile_append_of_pos hother]
    simp
  have hbody : (value ++ mark :: rest).takeWhile (· != mark) = value := by
    rw [List.takeWhile_append_of_pos hother]
    simp
  have hquote : ¬ (mark ≠ '"' ∧ mark ≠ '\'') := by
    rintro ⟨hdouble, hsingle⟩
    exact hmark.elim hdouble hsingle
  rw [readValue]
  simp only [hopen, if_neg hquote, hend, hbody]

/-- One step reads a written attribute whose key was not seen before. -/
theorem readAttribute_written {size : Nat} {seen : List (List Char × Nat)} {first mark : Char}
    {name before after value rest : List Char} (hname : ∀ c ∈ name, endsKey c = false)
    (hbefore : Blanks before) (hafter : Blanks after) (hmark : IsMark mark)
    (hvalue : mark ∉ value) (hseen : seen.lookup (first :: name) = none) :
    readAttribute size seen first
        (name ++ (before ++ '=' :: (after ++ mark :: (value ++ mark :: rest)))) =
      .ok (⟨first :: name, value⟩, rest) := by
  have hkey := takeWhile_key hname hbefore
    (after ++ mark :: (value ++ mark :: rest))
  have hequals : skipEquals size (before ++ '=' :: (after ++ mark :: (value ++ mark :: rest))) =
      .ok (after ++ mark :: (value ++ mark :: rest)) := by
    rw [skipEquals, List.dropWhile_append_of_pos hbefore]
    rfl
  rw [readAttribute]
  simp only [hkey.1, hkey.2, hequals, hseen, readValue_written hafter hmark hvalue]

/-- The attributes of a tag are read in order. -/
theorem LaidOut.readAttributes_eq {attributes : List Attribute} {text : List Char}
    (h : LaidOut attributes text) (size : Nat) {seen : List (List Char × Nat)}
    (hkeys : ∀ found ∈ attributes, IsName found.key)
    (hdistinct : (attributes.map Attribute.key).Nodup)
    (hseen : ∀ found ∈ attributes, seen.lookup found.key = none) :
    readAttributes size seen text = .prepend attributes .done := by
  induction h generalizing seen with
  | @nil blanks hblanks =>
      have hend : blanks.dropWhile isBlank = [] := by
        rw [← List.append_nil blanks, List.dropWhile_append_of_pos hblanks, List.dropWhile_nil]
      rw [readAttributes]
      split
      · rfl
      · rename_i hmore
        rw [hend] at hmore
        cases hmore
  | @cons found attributes blanks before after text mark _ hblanks hbefore hafter hmark
      hvalue _ ih =>
      have hkey : IsName found.key := hkeys _ List.mem_cons_self
      have hnew := hseen _ List.mem_cons_self
      rw [List.map_cons, List.nodup_cons] at hdistinct
      obtain ⟨first, name, hfirst⟩ := List.exists_cons_of_ne_nil hkey.1
      rw [hfirst] at hkey hnew ⊢
      have htext : (blanks ++ (first :: name ++ (before ++ '=' :: (after ++ mark ::
          (found.value ++ mark :: text))))).dropWhile isBlank =
          first :: (name ++ (before ++ '=' :: (after ++ mark ::
            (found.value ++ mark :: text)))) := by
        rw [List.dropWhile_append_of_pos hblanks, List.cons_append, List.dropWhile_cons_of_neg]
        rw [isBlank_of_isNameChar (hkey.2 first List.mem_cons_self)]
        exact Bool.false_ne_true
      rw [readAttributes_of_read htext
        (readAttribute_written (fun c hc => endsKey_of_isNameChar
          (hkey.2 c (List.mem_cons_of_mem _ hc))) hbefore hafter hmark hvalue hnew), ih, ← hfirst]
      · rfl
      · exact fun other hother => hkeys other (List.mem_cons_of_mem _ hother)
      · exact hdistinct.2
      · intro other hother
        rw [List.lookup_cons, hseen other (List.mem_cons_of_mem _ hother)]
        have hne : other.key ≠ first :: name := by
          rw [← hfirst]
          exact fun heq => hdistinct.1 (List.mem_map.mpr ⟨other, hother, heq⟩)
        simp [beq_false_of_ne hne]

/-! ## Texts of attributes -/

/-- A way to write a text as a value: each character stands for itself, unless it is `&`,
or is replaced by its name. -/
inductive WritesValue : List Char → List Char → Prop
  | nil : WritesValue [] []
  | plain {c : Char} {text value : List Char} (hc : c ≠ '&') (hrest : WritesValue text value) :
      WritesValue (c :: text) (c :: value)
  | named {c : Char} {text value : List Char} (hrest : WritesValue text value) :
      WritesValue (c :: text) (escapeChar c ++ value)

/-- A written value is read as its text, wherever it stands. -/
theorem WritesValue.unescapeRest_eq {text value : List Char} (h : WritesValue text value)
    (size : Nat) : unescapeRest size value = .ok text := by
  induction h with
  | nil => rw [unescapeRest]
  | plain hc _ ih =>
      rw [unescapeRest.eq_3 _ _ _ hc, ih]
      rfl
  | named _ ih =>
      rw [unescapeRest_escapeChar, ih]
      rfl

/-- In an escaped text every character may be taken as named. -/
theorem writesValue_escape (text : List Char) : WritesValue text (escape text) := by
  induction text with
  | nil => exact .nil
  | cons c text ih => exact .named ih

/-- A way to write an attribute: the key as it is, and a value for the text. -/
structure WritesAttribute (pair : String × String) (written : Attribute) : Prop where
  key_eq : written.key = pair.1.toList
  value : WritesValue pair.2.toList written.value

theorem WritesAttribute.unescape_eq {pair : String × String} {written : Attribute}
    (h : WritesAttribute pair written) : unescape written.value = .ok pair.2.toList :=
  h.value.unescapeRest_eq _

theorem map_key_of_writes {attributes : List (String × String)} {written : List Attribute}
    (h : List.Forall₂ WritesAttribute attributes written) :
    written.map Attribute.key = (attributes.map Prod.fst).map String.toList := by
  induction h with
  | nil => rfl
  | cons hpair _ ih => rw [List.map_cons, ih, hpair.key_eq, List.map_cons, List.map_cons]

/-- The text of a written attribute is found by its key. -/
theorem find?_of_writes {attributes : List (String × String)} {written : List Attribute}
    (h : List.Forall₂ WritesAttribute attributes written) (key : String) :
    Tag.find? key.toList (.prepend written .done) = .ok (attributes.lookup key) := by
  induction h with
  | nil => rfl
  | @cons pair found attributes written hpair _ ih =>
      rw [Reading.prepend_cons, Tag.find?, hpair.key_eq, hpair.unescape_eq, ih, List.lookup_cons]
      by_cases hkey : key = pair.1
      · simp [hkey]
      · have hother : pair.1.toList ≠ key.toList := fun heq => hkey (String.toList_inj.mp heq).symm
        simp [hother, beq_false_of_ne hkey]

/-! ## Attributes of a manifest -/

/-- Attributes as they stand in a written tag. -/
def writtenAttributes (attributes : List (String × String)) : List Char :=
  attributes.flatMap fun (key, value) => (Manifest.writtenAttribute key value).toList

/-- Attributes as they are read from a written tag. -/
def readBack (attributes : List (String × String)) : List Attribute :=
  attributes.map fun (key, value) => ⟨key.toList, escape value.toList⟩

theorem writes_readBack (attributes : List (String × String)) :
    List.Forall₂ WritesAttribute attributes (readBack attributes) := by
  induction attributes with
  | nil => exact .nil
  | cons pair attributes ih => exact .cons ⟨rfl, writesValue_escape pair.2.toList⟩ ih

theorem toList_writtenAttribute (key value : String) :
    (Manifest.writtenAttribute key value).toList =
      ' ' :: (key.toList ++ '=' :: '"' :: (escape value.toList ++ ['"'])) := by
  simp [Manifest.writtenAttribute]

/-- Written attributes are laid out with one blank before each. -/
theorem laidOut_written (attributes : List (String × String)) :
    LaidOut (readBack attributes) (writtenAttributes attributes) := by
  induction attributes with
  | nil => exact .nil (by simp [Blanks, writtenAttributes])
  | cons pair attributes ih =>
      obtain ⟨key, value⟩ := pair
      have hvalue : '"' ∉ escape value.toList := fun hmem =>
        absurd (isDelimiter_of_mem_escape hmem) (by decide)
      have hnone : Blanks [] := by simp [Blanks]
      have hlaid : LaidOut (readBack ((key, value) :: attributes)) _ :=
        .cons (by simp) (show Blanks [' '] by simp [Blanks, isBlank]) hnone hnone
          (show IsMark '"' by decide) hvalue ih
      simpa [writtenAttributes, toList_writtenAttribute] using hlaid

end OverlayManifest.Xml
