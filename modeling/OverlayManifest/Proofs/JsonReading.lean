/-
# Reading JSON

A reader for the texts of values. A text is read as a value exactly if it is a text of that
value, so that no text is the text of two values, and whatever was written is read back.
-/

import OverlayManifest.Proofs.JsonTexts

namespace OverlayManifest.Json

/-- A text without the blanks it starts with. -/
def skipBlanks (text : List Char) : List Char := text.dropWhile isBlank

/-- Reads a text after its opening quote; gives what follows its closing quote. -/
def readText : List Char → Option (List Char × List Char)
  | [] => none
  | '"' :: rest => some ([], rest)
  | '\\' :: 'u' :: a :: b :: c :: d :: rest =>
      (numberedChar? [a, b, c, d]).bind fun char =>
        (readText rest).map fun (text, rest) => (char :: text, rest)
  | '\\' :: mark :: rest =>
      (escapedChar? mark).bind fun char =>
        (readText rest).map fun (text, rest) => (char :: text, rest)
  | c :: rest =>
      if c.toNat < 0x20 then none
      else (readText rest).map fun (text, rest) => (c :: text, rest)

mutual

/-- Reads a value in at most as many steps as given; gives what follows it. -/
def readValue : Nat → List Char → Option (Value × List Char)
  | 0, _ => none
  | _ + 1, 't' :: 'r' :: 'u' :: 'e' :: rest => some (.truth true, rest)
  | _ + 1, 'f' :: 'a' :: 'l' :: 's' :: 'e' :: rest => some (.truth false, rest)
  | _ + 1, '"' :: rest =>
      (readText rest).map fun (text, rest) => (.text (String.ofList text), rest)
  | steps + 1, '[' :: rest =>
      match skipBlanks rest with
      | ']' :: rest => some (.list [], rest)
      | rest => (readItems steps rest).map fun (items, rest) => (.list items, rest)
  | steps + 1, '\x7b' :: rest =>
      match skipBlanks rest with
      | '\x7d' :: rest => some (.object [], rest)
      | rest => (readMembers steps rest).map fun (members, rest) => (.object members, rest)
  | _ + 1, _ => none

/-- Reads the items of a list up to its closing bracket. -/
def readItems : Nat → List Char → Option (List Value × List Char)
  | 0, _ => none
  | steps + 1, text =>
      (readValue steps text).bind fun (item, rest) =>
        match skipBlanks rest with
        | ']' :: rest => some ([item], rest)
        | ',' :: rest =>
            (readItems steps (skipBlanks rest)).map fun (items, rest) => (item :: items, rest)
        | _ => none

/-- Reads the members of an object up to its closing brace. -/
def readMembers : Nat → List Char → Option (List (String × Value) × List Char)
  | 0, _ => none
  | steps + 1, '"' :: text =>
      (readText text).bind fun (key, rest) =>
        match skipBlanks rest with
        | ':' :: rest =>
            (readValue steps (skipBlanks rest)).bind fun (value, rest) =>
              match skipBlanks rest with
              | '\x7d' :: rest => some ([(String.ofList key, value)], rest)
              | ',' :: rest =>
                  (readMembers steps (skipBlanks rest)).map fun (members, rest) =>
                    ((String.ofList key, value) :: members, rest)
              | _ => none
        | _ => none
  | _ + 1, _ => none

end

/-- The value that a text is, with blanks around it. -/
def read? (text : String) : Option Value :=
  (readValue (2 * text.toList.length) (skipBlanks text.toList)).bind fun (value, rest) =>
    if (skipBlanks rest).isEmpty then some value else none

/-- The value of the first member of an object with a key. -/
def Value.member? (key : String) : Value → Option Value
  | .object members => members.lookup key
  | _ => none

/-! ## Blanks -/

section Blanks

variable {blanks rest : List Char} {c : Char}

/-- The blanks that are skipped. -/
theorem exists_skipBlanks (text : List Char) :
    ∃ blanks, IsBlanks blanks ∧ text = blanks ++ skipBlanks text :=
  ⟨text.takeWhile isBlank, fun _ h => List.mem_takeWhile_imp h,
    List.takeWhile_append_dropWhile.symm⟩

theorem skipBlanks_append (h : IsBlanks blanks) (rest : List Char) :
    skipBlanks (blanks ++ rest) = skipBlanks rest :=
  List.dropWhile_append_of_pos h

theorem skipBlanks_cons (hc : isBlank c = false) (rest : List Char) :
    skipBlanks (c :: rest) = c :: rest := by
  rw [skipBlanks, List.dropWhile_cons_of_neg (by simp [hc])]

/-- Blanks are skipped up to what is none. -/
theorem skipBlanks_append_cons (h : IsBlanks blanks) (hc : isBlank c = false) (rest : List Char) :
    skipBlanks (blanks ++ c :: rest) = c :: rest := by
  rw [skipBlanks_append h, skipBlanks_cons hc]

theorem skipBlanks_eq_nil_iff {text : List Char} : skipBlanks text = [] ↔ IsBlanks text :=
  List.dropWhile_eq_nil_iff

end Blanks

namespace Spells

variable {value : Value} {items : List Value} {members : List (String × Value)}
  {blanks written : List Char}

/-- A value starts with a character of its own. -/
theorem eq_cons (h : Spells (.value value) written) :
    ∃ first tail, written = first :: tail ∧ isBlank first = false ∧ first ≠ ']' := by
  cases h with
  | yes => exact ⟨'t', _, rfl, by decide, by decide⟩
  | no => exact ⟨'f', _, rfl, by decide, by decide⟩
  | text => exact ⟨'"', _, rfl, by decide, by decide⟩
  | emptyList | list => exact ⟨'[', _, rfl, by decide, by decide⟩
  | emptyObject | object => exact ⟨'\x7b', _, rfl, by decide, by decide⟩

/-- More blanks may stand before items. -/
theorem blanks_items (hblanks : IsBlanks blanks) (h : Spells (.items items) written) :
    Spells (.items items) (blanks ++ written) := by
  cases h with
  | lastItem hbefore hitem hafter =>
      rw [← List.append_assoc]
      exact .lastItem (hblanks.append hbefore) hitem hafter
  | nextItem hbefore hitem hafter hmore =>
      rw [← List.append_assoc]
      exact .nextItem (hblanks.append hbefore) hitem hafter hmore

/-- More blanks may stand before members. -/
theorem blanks_members (hblanks : IsBlanks blanks) (h : Spells (.members members) written) :
    Spells (.members members) (blanks ++ written) := by
  cases h with
  | lastMember hbefore hkey hcolon hinside hvalue hafter =>
      rw [← List.append_assoc]
      exact .lastMember (hblanks.append hbefore) hkey hcolon hinside hvalue hafter
  | nextMember hbefore hkey hcolon hinside hvalue hafter hmore =>
      rw [← List.append_assoc]
      exact .nextMember (hblanks.append hbefore) hkey hcolon hinside hvalue hafter hmore

end Spells

/-! ## Steps of the reader -/

section Steps

variable {steps : Nat} {text rest : List Char} {value : Value} {items : List Value}
  {members : List (String × Value)}

/-- A list is read if it ends at once or its items are read. -/
theorem readValue_list_iff : readValue (steps + 1) ('[' :: text) = some (value, rest) ↔
    (skipBlanks text = ']' :: rest ∧ value = .list []) ∨
      ((∀ more, skipBlanks text ≠ ']' :: more) ∧
        ∃ items, readItems steps (skipBlanks text) = some (items, rest) ∧ value = .list items) := by
  rw [readValue]
  split
  · rename_i more hend
    simp [hend, eq_comm, and_comm]
  · rename_i hfirst
    simp only [Option.map_eq_some_iff, Prod.exists, Prod.mk.injEq]
    constructor
    · rintro ⟨items, _, hread, rfl, rfl⟩
      exact .inr ⟨hfirst, items, hread, rfl⟩
    · rintro (⟨hend, -⟩ | ⟨-, items, hread, rfl⟩)
      · exact absurd hend (hfirst rest)
      · exact ⟨items, rest, hread, rfl, rfl⟩

/-- An object is read if it ends at once or its members are read. -/
theorem readValue_object_iff : readValue (steps + 1) ('\x7b' :: text) = some (value, rest) ↔
    (skipBlanks text = '\x7d' :: rest ∧ value = .object []) ∨
      ((∀ more, skipBlanks text ≠ '\x7d' :: more) ∧
        ∃ members, readMembers steps (skipBlanks text) = some (members, rest) ∧
          value = .object members) := by
  rw [readValue]
  split
  · rename_i more hend
    simp [hend, eq_comm, and_comm]
  · rename_i hfirst
    simp only [Option.map_eq_some_iff, Prod.exists, Prod.mk.injEq]
    constructor
    · rintro ⟨members, _, hread, rfl, rfl⟩
      exact .inr ⟨hfirst, members, hread, rfl⟩
    · rintro (⟨hend, -⟩ | ⟨-, members, hread, rfl⟩)
      · exact absurd hend (hfirst rest)
      · exact ⟨members, rest, hread, rfl, rfl⟩

/-- Items are read if the first is, and a bracket or a comma with more items follows. -/
theorem readItems_iff : readItems (steps + 1) text = some (items, rest) ↔
    ∃ item middle, readValue steps text = some (item, middle) ∧
      ((skipBlanks middle = ']' :: rest ∧ items = [item]) ∨
        ∃ next others, skipBlanks middle = ',' :: next ∧
          readItems steps (skipBlanks next) = some (others, rest) ∧ items = item :: others) := by
  rw [readItems, Option.bind_eq_some_iff]
  simp only [Prod.exists]
  refine exists_congr fun item => exists_congr fun middle => and_congr_right fun _ => ?_
  split
  · rename_i more hend
    simp [hend, eq_comm, and_comm]
  · rename_i next hcomma
    simp only [hcomma, Option.map_eq_some_iff, Prod.exists, Prod.mk.injEq, List.cons.injEq,
      Char.reduceEq, false_and, false_or, true_and]
    constructor
    · rintro ⟨others, _, hread, rfl, rfl⟩
      exact ⟨next, others, rfl, hread, rfl⟩
    · rintro ⟨_, others, rfl, hread, rfl⟩
      exact ⟨others, rest, hread, rfl, rfl⟩
  · rename_i hend hcomma
    constructor
    · intro h
      cases h
    · rintro (⟨h, -⟩ | ⟨next, others, h, -⟩)
      · exact absurd h (hend rest)
      · exact absurd h (hcomma next)

/-- Members are read if the first is, and a brace or a comma with more members follows. -/
theorem readMembers_iff : readMembers (steps + 1) text = some (members, rest) ↔
    ∃ opened key closed inside value middle, text = '"' :: opened ∧
      readText opened = some (key, closed) ∧ skipBlanks closed = ':' :: inside ∧
      readValue steps (skipBlanks inside) = some (value, middle) ∧
      ((skipBlanks middle = '\x7d' :: rest ∧ members = [(String.ofList key, value)]) ∨
        ∃ next others, skipBlanks middle = ',' :: next ∧
          readMembers steps (skipBlanks next) = some (others, rest) ∧
          members = (String.ofList key, value) :: others) := by
  rw [readMembers.eq_def]
  split
  · rename_i hzero
    cases hzero
  · rename_i opened hsteps
    cases hsteps
    simp only [Option.bind_eq_some_iff, Prod.exists, List.cons.injEq, true_and, exists_and_left,
      exists_eq_left']
    refine exists_congr fun key => exists_congr fun closed => and_congr_right fun _ => ?_
    split
    · rename_i inside hcolon
      simp only [hcolon, List.cons.injEq, true_and, exists_eq_left', Option.bind_eq_some_iff,
        Prod.exists]
      refine exists_congr fun value => exists_congr fun middle => and_congr_right fun _ => ?_
      split
      · rename_i more hend
        simp [hend, eq_comm, and_comm]
      · rename_i next hcomma
        simp only [hcomma, Option.map_eq_some_iff, Prod.exists, Prod.mk.injEq, List.cons.injEq,
          Char.reduceEq, false_and, false_or, true_and]
        constructor
        · rintro ⟨others, _, hread, rfl, rfl⟩
          exact ⟨next, rfl, others, hread, rfl⟩
        · rintro ⟨_, rfl, others, hread, rfl⟩
          exact ⟨others, rest, hread, rfl, rfl⟩
      · rename_i hend hcomma
        constructor
        · intro h
          cases h
        · rintro (⟨h, -⟩ | ⟨next, h, -⟩)
          · exact absurd h (hend rest)
          · exact absurd h (hcomma next)
    · rename_i hcolon
      constructor
      · intro h
        cases h
      · rintro ⟨inside, h, -⟩
        exact absurd h (hcolon inside)
  · rename_i hquote
    constructor
    · intro h
      cases h
    · rintro ⟨opened, key, closed, inside, value, middle, rfl, -⟩
      exact (hquote opened rfl).elim

end Steps

/-! ## What is read is a text of the value -/

theorem spellsText_of_readText {text value rest : List Char}
    (h : readText text = some (value, rest)) :
    ∃ written, text = written ++ '"' :: rest ∧ SpellsText value written := by
  fun_induction readText text generalizing value rest with
  | case1 => cases h
  | case2 text =>
      cases h
      exact ⟨[], rfl, .nil⟩
  | case3 first second third fourth text ih =>
      obtain ⟨char, hdigits, hrest⟩ := Option.bind_eq_some_iff.mp h
      obtain ⟨⟨chars, after⟩, hread, heq⟩ := Option.map_eq_some_iff.mp hrest
      cases heq
      obtain ⟨written, rfl, hwritten⟩ := ih hread
      exact ⟨_, rfl, .cons (.numbered hdigits) hwritten⟩
  | case4 mark text _ ih =>
      obtain ⟨char, hmark, hrest⟩ := Option.bind_eq_some_iff.mp h
      obtain ⟨⟨chars, after⟩, hread, heq⟩ := Option.map_eq_some_iff.mp hrest
      cases heq
      obtain ⟨written, rfl, hwritten⟩ := ih hread
      exact ⟨_, rfl, .cons (.escaped hmark) hwritten⟩
  | case5 => cases h
  | case6 c text hquote _ hescape hcode ih =>
      obtain ⟨⟨chars, after⟩, hread, heq⟩ := Option.map_eq_some_iff.mp h
      cases heq
      obtain ⟨written, rfl, hwritten⟩ := ih hread
      refine ⟨_, rfl, .cons (.plain hquote (fun hbackslash => ?_) hcode) hwritten⟩
      -- A backslash has a mark after it, since what follows it is not the end.
      obtain ⟨mark, more, hmore⟩ := List.exists_cons_of_ne_nil
        (List.append_ne_nil_of_right_ne_nil written (List.cons_ne_nil '"' rest))
      exact hescape mark more hbackslash hmore

/-- What is read up to a rest is a part of the text before it. -/
structure ReadsParts (steps : Nat) : Prop where
  value : ∀ text value rest, readValue steps text = some (value, rest) →
    ∃ written, text = written ++ rest ∧ Spells (.value value) written
  items : ∀ text items rest, readItems steps text = some (items, rest) →
    ∃ written, text = written ++ ']' :: rest ∧ Spells (.items items) written
  members : ∀ text members rest, readMembers steps text = some (members, rest) →
    ∃ written, text = written ++ '\x7d' :: rest ∧ Spells (.members members) written

namespace ReadsParts

variable {steps : Nat} {text rest : List Char}

theorem value_succ (h : ReadsParts steps) {value : Value}
    (hread : readValue (steps + 1) text = some (value, rest)) :
    ∃ written, text = written ++ rest ∧ Spells (.value value) written := by
  have hread' := hread
  rw [readValue.eq_def] at hread'
  split at hread'
  · rename_i hzero
    cases hzero
  · cases hread'
    exact ⟨_, rfl, .yes⟩
  · cases hread'
    exact ⟨_, rfl, .no⟩
  · rename_i text _
    obtain ⟨⟨chars, after⟩, htext, heq⟩ := Option.map_eq_some_iff.mp hread'
    cases heq
    obtain ⟨written, rfl, hwritten⟩ := spellsText_of_readText htext
    refine ⟨'"' :: (written ++ ['"']), by simp, .text ?_⟩
    rwa [String.toList_ofList]
  · rename_i text _
    obtain ⟨blanks, hblanks, hskip⟩ := exists_skipBlanks text
    rcases readValue_list_iff.mp hread with ⟨hend, rfl⟩ | ⟨-, items, hitems, rfl⟩
    · refine ⟨_, ?_, .emptyList hblanks⟩
      rw [hskip, hend]
      simp
    · obtain ⟨written, hwritten, hspells⟩ := h.items _ _ _ hitems
      refine ⟨_, ?_, .list (hspells.blanks_items hblanks)⟩
      rw [hskip, hwritten]
      simp
  · rename_i text _
    obtain ⟨blanks, hblanks, hskip⟩ := exists_skipBlanks text
    rcases readValue_object_iff.mp hread with ⟨hend, rfl⟩ | ⟨-, members, hmembers, rfl⟩
    · refine ⟨_, ?_, .emptyObject hblanks⟩
      rw [hskip, hend]
      simp
    · obtain ⟨written, hwritten, hspells⟩ := h.members _ _ _ hmembers
      refine ⟨_, ?_, .object (hspells.blanks_members hblanks)⟩
      rw [hskip, hwritten]
      simp
  · cases hread'

theorem items_succ (h : ReadsParts steps) {items : List Value}
    (hread : readItems (steps + 1) text = some (items, rest)) :
    ∃ written, text = written ++ ']' :: rest ∧ Spells (.items items) written := by
  obtain ⟨item, middle, hitem, hrest⟩ := readItems_iff.mp hread
  obtain ⟨written, rfl, hspells⟩ := h.value _ _ _ hitem
  obtain ⟨after, hafter, hskip⟩ := exists_skipBlanks middle
  rcases hrest with ⟨hend, rfl⟩ | ⟨next, others, hcomma, hothers, rfl⟩
  · refine ⟨_, ?_, .lastItem isBlanks_nil hspells hafter⟩
    rw [hskip, hend]
    simp
  · obtain ⟨blanks, hblanks, hnext⟩ := exists_skipBlanks next
    obtain ⟨more, hmore, hmoreSpells⟩ := h.items _ _ _ hothers
    refine ⟨_, ?_, .nextItem isBlanks_nil hspells hafter (hmoreSpells.blanks_items hblanks)⟩
    rw [hskip, hcomma, hnext, hmore]
    simp

theorem members_succ (h : ReadsParts steps) {members : List (String × Value)}
    (hread : readMembers (steps + 1) text = some (members, rest)) :
    ∃ written, text = written ++ '\x7d' :: rest ∧ Spells (.members members) written := by
  obtain ⟨opened, key, closed, inside, value, middle, rfl, hkey, hcolon, hvalue, hrest⟩ :=
    readMembers_iff.mp hread
  obtain ⟨name, rfl, hname⟩ := spellsText_of_readText hkey
  rw [← String.toList_ofList (l := key)] at hname
  obtain ⟨colon, hblanksColon, hskipColon⟩ := exists_skipBlanks closed
  obtain ⟨before, hbefore, hskipInside⟩ := exists_skipBlanks inside
  obtain ⟨written, hwritten, hspells⟩ := h.value _ _ _ hvalue
  obtain ⟨after, hafter, hskip⟩ := exists_skipBlanks middle
  rcases hrest with ⟨hend, rfl⟩ | ⟨next, others, hcomma, hothers, rfl⟩
  · refine ⟨_, ?_, .lastMember isBlanks_nil hname hblanksColon hbefore hspells hafter⟩
    rw [hskipColon, hcolon, hskipInside, hwritten, hskip, hend]
    simp
  · obtain ⟨blanks, hblanks, hnext⟩ := exists_skipBlanks next
    obtain ⟨more, hmore, hmoreSpells⟩ := h.members _ _ _ hothers
    refine ⟨_, ?_, .nextMember isBlanks_nil hname hblanksColon hbefore hspells hafter
      (hmoreSpells.blanks_members hblanks)⟩
    rw [hskipColon, hcolon, hskipInside, hwritten, hskip, hcomma, hnext, hmore]
    simp

end ReadsParts

theorem readsParts (steps : Nat) : ReadsParts steps := by
  induction steps with
  | zero =>
      constructor
      all_goals
        intro text found rest h
        cases h
  | succ steps ih =>
      exact ⟨fun _ _ _ => ih.value_succ, fun _ _ _ => ih.items_succ, fun _ _ _ => ih.members_succ⟩

/-! ## Every text of a value is read -/

theorem SpellsChar.readText_eq {c : Char} {written : List Char} (h : SpellsChar c written)
    (rest : List Char) :
    readText (written ++ rest) = (readText rest).map fun (text, rest) => (c :: text, rest) := by
  cases h with
  | plain hquote hbackslash hcode =>
      rw [List.singleton_append, readText, if_neg hcode]
      · exact hquote
      · exact fun _ _ _ _ _ hescape => absurd hescape hbackslash
      · exact fun _ _ hescape => absurd hescape hbackslash
  | @escaped mark hmark =>
      rw [List.cons_append, List.singleton_append, readText, hmark, Option.bind_some]
      rintro first second third fourth more rfl
      cases hmark
  | numbered hdigits =>
      rw [List.cons_append, List.cons_append, List.cons_append, List.cons_append, List.cons_append,
        List.singleton_append, readText, hdigits, Option.bind_some]

theorem SpellsText.readText_eq {text written : List Char} (h : SpellsText text written)
    (rest : List Char) : readText (written ++ '"' :: rest) = some (text, rest) := by
  induction h with
  | nil => rw [List.nil_append, readText]
  | cons hchar _ ih => rw [List.append_assoc, hchar.readText_eq, ih, Option.map_some]

/-- A part is read from what is written of it, whatever follows. -/
def Part.IsReadFrom (part : Part) (written : List Char) : Prop :=
  match part with
  | .value found => ∀ rest steps, 2 * written.length ≤ steps →
      readValue steps (written ++ rest) = some (found, rest)
  | .items found => ∀ rest steps, 2 * written.length < steps →
      readItems steps (skipBlanks (written ++ ']' :: rest)) = some (found, rest)
  | .members found => ∀ rest steps, 2 * written.length < steps →
      readMembers steps (skipBlanks (written ++ '\x7d' :: rest)) = some (found, rest)

namespace Spells

variable {value : Value} {items : List Value} {members : List (String × Value)} {part : Part}
  {written : List Char}

/-- A value stands behind blanks as it is. -/
theorem skipBlanks_eq (h : Spells (.value value) written) {before : List Char}
    (hbefore : IsBlanks before) (rest : List Char) :
    skipBlanks (before ++ (written ++ rest)) = written ++ rest := by
  obtain ⟨first, tail, rfl, hblank, -⟩ := h.eq_cons
  exact skipBlanks_append_cons hbefore hblank _

/-- Items do not start with the end of their list. -/
theorem skipBlanks_items (h : Spells (.items items) written) (rest more : List Char) :
    skipBlanks (written ++ rest) ≠ ']' :: more := by
  have hstart {item : Value} {before written : List Char} (hbefore : IsBlanks before)
      (hitem : Spells (.value item) written) (rest : List Char) :
      skipBlanks (before ++ (written ++ rest)) ≠ ']' :: more := by
    rw [hitem.skipBlanks_eq hbefore]
    obtain ⟨first, tail, rfl, -, hfirst⟩ := hitem.eq_cons
    exact fun heq => hfirst (List.cons.inj heq).1
  cases h with
  | lastItem hbefore hitem _ | nextItem hbefore hitem _ _ =>
      rw [List.append_assoc, List.append_assoc]
      exact hstart hbefore hitem _

/-- Members do not start with the end of their object. -/
theorem skipBlanks_members (h : Spells (.members members) written) (rest more : List Char) :
    skipBlanks (written ++ rest) ≠ '\x7d' :: more := by
  cases h with
  | lastMember hbefore | nextMember hbefore =>
      rw [List.append_assoc, List.cons_append, skipBlanks_append_cons hbefore rfl]
      exact fun heq => absurd (List.cons.inj heq).1 (by decide)

/-- A step is left for each character, and one for each item or member. -/
theorem isReadFrom (h : Spells part written) : part.IsReadFrom written := by
  induction h with
  | yes | no =>
      intro rest steps h
      simp only [List.length_cons] at h
      obtain ⟨fewer, rfl⟩ := Nat.exists_eq_add_one.mpr (show 0 < steps by omega)
      rfl
  | text htext =>
      intro rest steps h
      simp only [List.length_cons] at h
      obtain ⟨fewer, rfl⟩ := Nat.exists_eq_add_one.mpr (show 0 < steps by omega)
      rw [List.cons_append, List.append_assoc, List.singleton_append, readValue, htext.readText_eq,
        Option.map_some]
      simp only [String.ofList_toList]
  | emptyList hblanks =>
      intro rest steps h
      simp only [List.length_cons] at h
      obtain ⟨fewer, rfl⟩ := Nat.exists_eq_add_one.mpr (show 0 < steps by omega)
      rw [List.cons_append, List.append_assoc, List.singleton_append]
      exact readValue_list_iff.mpr (.inl ⟨skipBlanks_append_cons hblanks rfl rest, rfl⟩)
  | list hitems ih =>
      intro rest steps h
      simp only [List.length_cons, List.length_append] at h
      obtain ⟨fewer, rfl⟩ := Nat.exists_eq_add_one.mpr (show 0 < steps by omega)
      rw [List.cons_append, List.append_assoc, List.singleton_append]
      exact readValue_list_iff.mpr
        (.inr ⟨hitems.skipBlanks_items _, _, ih rest fewer (by omega), rfl⟩)
  | emptyObject hblanks =>
      intro rest steps h
      simp only [List.length_cons] at h
      obtain ⟨fewer, rfl⟩ := Nat.exists_eq_add_one.mpr (show 0 < steps by omega)
      rw [List.cons_append, List.append_assoc, List.singleton_append]
      exact readValue_object_iff.mpr (.inl ⟨skipBlanks_append_cons hblanks rfl rest, rfl⟩)
  | object hmembers ih =>
      intro rest steps h
      simp only [List.length_cons, List.length_append] at h
      obtain ⟨fewer, rfl⟩ := Nat.exists_eq_add_one.mpr (show 0 < steps by omega)
      rw [List.cons_append, List.append_assoc, List.singleton_append]
      exact readValue_object_iff.mpr
        (.inr ⟨hmembers.skipBlanks_members _, _, ih rest fewer (by omega), rfl⟩)
  | lastItem hbefore hitem hafter ih =>
      intro rest steps h
      simp only [List.length_append] at h
      obtain ⟨fewer, rfl⟩ := Nat.exists_eq_add_one.mpr (show 0 < steps by omega)
      rw [List.append_assoc, List.append_assoc, hitem.skipBlanks_eq hbefore]
      exact readItems_iff.mpr ⟨_, _, ih _ fewer (by omega),
        .inl ⟨skipBlanks_append_cons hafter rfl rest, rfl⟩⟩
  | nextItem hbefore hitem hafter hmore ih ihmore =>
      intro rest steps h
      simp only [List.length_append, List.length_cons] at h
      obtain ⟨fewer, rfl⟩ := Nat.exists_eq_add_one.mpr (show 0 < steps by omega)
      rw [List.append_assoc, List.append_assoc, hitem.skipBlanks_eq hbefore, List.append_assoc,
        List.cons_append]
      exact readItems_iff.mpr ⟨_, _, ih _ fewer (by omega),
        .inr ⟨_, _, skipBlanks_append_cons hafter rfl _, ihmore rest fewer (by omega), rfl⟩⟩
  | @lastMember key value before name colon inside written after hbefore hkey hcolon hinside hvalue
      hafter ih =>
      intro rest steps h
      simp only [List.length_append, List.length_cons] at h
      obtain ⟨fewer, rfl⟩ := Nat.exists_eq_add_one.mpr (show 0 < steps by omega)
      simp only [List.append_assoc, List.cons_append]
      rw [skipBlanks_append_cons hbefore rfl]
      refine readMembers_iff.mpr ⟨_, _, _, _, _, _, rfl, hkey.readText_eq _,
        skipBlanks_append_cons hcolon rfl _, ?_,
        .inl ⟨skipBlanks_append_cons hafter rfl rest, by rw [String.ofList_toList]⟩⟩
      rw [hvalue.skipBlanks_eq hinside]
      exact ih _ fewer (by omega)
  | nextMember hbefore hkey hcolon hinside hvalue hafter hmore ih ihmore =>
      intro rest steps h
      simp only [List.length_append, List.length_cons] at h
      obtain ⟨fewer, rfl⟩ := Nat.exists_eq_add_one.mpr (show 0 < steps by omega)
      simp only [List.append_assoc, List.cons_append]
      rw [skipBlanks_append_cons hbefore rfl]
      refine readMembers_iff.mpr ⟨_, _, _, _, _, _, rfl, hkey.readText_eq _,
        skipBlanks_append_cons hcolon rfl _, ?_,
        .inr ⟨_, _, skipBlanks_append_cons hafter rfl _, ihmore rest fewer (by omega),
          by rw [String.ofList_toList]⟩⟩
      rw [hvalue.skipBlanks_eq hinside]
      exact ih _ fewer (by omega)

end Spells

/-- A text is read as a value exactly if it is a text of that value. -/
theorem read?_eq_some_iff {text : String} {value : Value} :
    read? text = some value ↔ IsText value text := by
  rw [read?, Option.bind_eq_some_iff]
  constructor
  · rintro ⟨⟨found, rest⟩, hread, hend⟩
    obtain ⟨before, hbefore, hskip⟩ := exists_skipBlanks text.toList
    obtain ⟨written, hwritten, hspells⟩ := (readsParts _).value _ _ _ hread
    rw [Option.ite_none_right_eq_some, List.isEmpty_iff, skipBlanks_eq_nil_iff] at hend
    obtain ⟨hafter, hfound⟩ := hend
    cases hfound
    exact ⟨before, written, rest, by rw [hskip, hwritten], hbefore, hspells, hafter⟩
  · rintro ⟨before, written, after, htext, hbefore, hspells, hafter⟩
    refine ⟨(value, after), ?_, ?_⟩
    · rw [htext, hspells.skipBlanks_eq hbefore]
      apply hspells.isReadFrom
      simp only [List.length_append]
      omega
    · simp only [skipBlanks_eq_nil_iff.mpr hafter, List.isEmpty_nil, if_true]

/-- A text is the text of one value at most. -/
theorem IsText.unique {text : String} {value other : Value} (h : IsText value text)
    (hother : IsText other text) : other = value := by
  rw [← read?_eq_some_iff] at h hother
  exact Option.some.inj (hother.symm.trans h)

/-- A written value is read back, with blanks after it. -/
theorem read?_render (value : Value) {blanks : List Char}
    (hblanks : ∀ c ∈ blanks, isBlank c = true) :
    read? (String.ofList (value.render 0 ++ blanks)) = some value :=
  read?_eq_some_iff.mpr (isText_render value hblanks)

end OverlayManifest.Json
