/-
# Colours decorate

A report with colours is the report without them, with sequences between its characters that
set and reset styles. A sequence begins with the escape character, so that no text without this
character has one, and deleting the sequences gives the report without colours back. Texts that
only look like the rest of a sequence stay as they are.
-/

import Mathlib.Data.List.Forall2
import OverlayManifest.Report.Terminal
import OverlayManifest.Text.Digit

namespace OverlayManifest.Report

namespace Style

/-! ## Deleting sequences -/

/-- Digits and semicolons make up the numbers of a sequence. -/
def isCode (c : Char) : Bool := c.isDigit || c == ';'

/-- A colour sequence: the escape character and a bracket, numbers, and the letter `m`. -/
inductive IsSequence : List Char → Prop
  | intro {codes : List Char} (hcodes : codes.all isCode = true) :
      IsSequence ('\x1b' :: '[' :: (codes ++ ['m']))

/-- What stands behind the colour sequence that a text begins with. -/
def afterSequence? : List Char → Option (List Char)
  | '\x1b' :: '[' :: text =>
      match text.dropWhile isCode with
      | 'm' :: rest => some rest
      | _ => none
  | _ => none

/-- A rest is found exactly if the text is a colour sequence with that rest behind it. -/
theorem afterSequence?_eq_some_iff {text rest : List Char} :
    afterSequence? text = some rest ↔ ∃ sequence, IsSequence sequence ∧ text = sequence ++ rest := by
  constructor
  · intro h
    unfold afterSequence? at h
    split at h
    · rename_i text
      split at h
      · rename_i hdrop
        cases h
        have hcodes : (text.takeWhile isCode).all isCode = true := List.all_takeWhile
        have hsplit : text.takeWhile isCode ++ 'm' :: rest = text := by
          rw [← hdrop, List.takeWhile_append_dropWhile]
        exact ⟨_, .intro hcodes, by simp [hsplit]⟩
      · cases h
    · cases h
  · rintro ⟨_, @⟨codes, hcodes⟩, rfl⟩
    have hdrop : (codes ++ 'm' :: rest).dropWhile isCode = 'm' :: rest := by
      rw [List.dropWhile_append_of_pos (List.all_eq_true.mp hcodes)]
      rfl
    simp [afterSequence?, hdrop]

theorem afterSequence?_length {text rest : List Char} (h : afterSequence? text = some rest) :
    rest.length < text.length := by
  obtain ⟨_, ⟨-⟩, rfl⟩ := afterSequence?_eq_some_iff.mp h
  simp only [List.length_append, List.length_cons]
  omega

/-- A text without its colour sequences. -/
def uncoloured : List Char → List Char
  | [] => []
  | c :: text =>
      match hafter : afterSequence? (c :: text) with
      | some rest =>
          have := afterSequence?_length hafter
          uncoloured rest
      | none => c :: uncoloured text
termination_by text => text.length
decreasing_by
  · assumption
  · exact Nat.lt_succ_self _

/-- A sequence is deleted where a text begins with it. -/
theorem uncoloured_append {sequence : List Char} (h : IsSequence sequence) (rest : List Char) :
    uncoloured (sequence ++ rest) = uncoloured rest := by
  have hafter : afterSequence? (sequence ++ rest) = some rest :=
    afterSequence?_eq_some_iff.mpr ⟨sequence, h, rfl⟩
  obtain ⟨hcodes⟩ := h
  rw [List.cons_append] at hafter ⊢
  rw [uncoloured]
  split
  · rename_i rest' hrest
    have hsame : rest' = rest := Option.some.inj (hrest.symm.trans hafter)
    exact congrArg uncoloured hsame
  · rename_i hnone
    rw [hafter] at hnone
    cases hnone

/-- A character that begins no sequence is kept. -/
theorem uncoloured_cons {c : Char} (hc : c ≠ '\x1b') (text : List Char) :
    uncoloured (c :: text) = c :: uncoloured text := by
  rw [uncoloured]
  split
  · rename_i rest hrest
    obtain ⟨_, ⟨-⟩, hsequence⟩ := afterSequence?_eq_some_iff.mp hrest
    exact absurd (List.cons.inj hsequence).1 hc
  · rfl

/-- What is no whole sequence stays. -/
example : uncoloured ['\x1b', '[', '1', ';', '3', '1', 'm', 'm', '\x1b', '[', '0'] =
    ['m', '\x1b', '[', '0'] := by cbv

/-! ## Decorated texts -/

/-- A text is another one with colour sequences in it, and so it is whatever follows. -/
def Decorates (coloured plain : List Char) : Prop :=
  ∀ rest, uncoloured (coloured ++ rest) = plain ++ uncoloured rest

theorem Decorates.eq {coloured plain : List Char} (h : Decorates coloured plain) :
    uncoloured coloured = plain := by
  have hall := h []
  rwa [List.append_nil, uncoloured, List.append_nil] at hall

theorem Decorates.append {coloured plain coloured' plain' : List Char}
    (h : Decorates coloured plain) (h' : Decorates coloured' plain') :
    Decorates (coloured ++ coloured') (plain ++ plain') := by
  intro rest
  rw [List.append_assoc, h, h', List.append_assoc]

/-- A text without the escape character has no sequence. -/
theorem decorates_self {text : List Char} (h : '\x1b' ∉ text) : Decorates text text := by
  intro rest
  induction text with
  | nil => rfl
  | cons c text ih =>
      rw [List.mem_cons, not_or] at h
      obtain ⟨hc, htext⟩ := h
      rw [List.cons_append, uncoloured_cons (Ne.symm hc), ih htext, List.cons_append]

/-- Text without the escape character may follow. -/
theorem Decorates.append_plain {coloured plain text : List Char} (h : Decorates coloured plain)
    (htext : '\x1b' ∉ text) : Decorates (coloured ++ text) (plain ++ text) :=
  h.append (decorates_self htext)

/-- Text without the escape character may stand before. -/
theorem Decorates.plain_append {coloured plain text : List Char} (h : Decorates coloured plain)
    (htext : '\x1b' ∉ text) : Decorates (text ++ coloured) (text ++ plain) :=
  (decorates_self htext).append h

/-- Pieces that are decorated one by one are decorated as a whole. -/
theorem Decorates.flatten {coloured plain : List (List Char)}
    (h : List.Forall₂ Decorates coloured plain) : Decorates coloured.flatten plain.flatten := by
  induction h with
  | nil => exact fun rest => rfl
  | cons hfirst _ ih => exact hfirst.append ih

theorem IsSequence.decorates {sequence : List Char} (h : IsSequence sequence) :
    Decorates sequence [] := uncoloured_append h

theorem isSequence_sequence (style : Style) : IsSequence style.sequence := by
  have hcodes : style.codes.all isCode = true := by
    cases style <;> rfl
  exact .intro hcodes

theorem isSequence_reset : IsSequence reset := by
  have hcodes : ['0'].all isCode = true := rfl
  exact .intro hcodes

/-- Where there is no reset, no style is set again. -/
theorem renew_eq_self {style : Style} {text : List Char} (h : '\x1b' ∉ text) :
    renew style text = text := by
  induction text with
  | nil => rfl
  | cons c text ih =>
      rw [List.mem_cons, not_or] at h
      obtain ⟨hc, htext⟩ := h
      rw [renew.eq_2, ih htext]
      intro rest hreset
      exact absurd hreset (Ne.symm hc)

/-- A styled text decorates the text. -/
theorem decorates_paint {text : List Char} (h : '\x1b' ∉ text) (coloured : Bool) (style : Style) :
    Decorates (paint coloured style text) text := by
  have hself := decorates_self h
  cases coloured with
  | false => exact hself
  | true =>
      have hsequences := ((isSequence_sequence style).decorates.append hself).append
        isSequence_reset.decorates
      rw [List.nil_append, List.append_nil] at hsequences
      rwa [paint, if_pos rfl, renew_eq_self h]

end Style

namespace Terminal

open Style

variable {drift : Drift} {manifest : String} {origin : Resource → Option String}

/-- No text that a report shows has the escape character. -/
structure IsUnescaped (drift : Drift) (manifest : String) (origin : Resource → Option String) :
    Prop where
  manifest : '\x1b' ∉ manifest.toList
  resource : ∀ resource ∈ drift.added ++ drift.removed,
    '\x1b' ∉ resource.type.toList ∧ '\x1b' ∉ resource.name.toList
  origin : ∀ resource ∈ drift.added, ∀ file ∈ origin resource, '\x1b' ∉ file.toList

/-! ## The pieces of a report -/

theorem escape_notMem_toString (n : Nat) : '\x1b' ∉ (toString n).toList := by
  intro hmem
  exact absurd (Text.isDigit_of_mem_toString hmem) (by decide)

theorem IsUnescaped.display (h : IsUnescaped drift manifest origin) {resource : Resource}
    (hmem : resource ∈ drift.added ++ drift.removed) : '\x1b' ∉ resource.display.toList := by
  obtain ⟨htype, hname⟩ := h.resource resource hmem
  have hslash : '\x1b' ∉ "/".toList := by decide
  simp only [Resource.display, String.toList_append, List.mem_append, not_or]
  exact ⟨⟨htype, hslash⟩, hname⟩

theorem decorates_headline (coloured : Bool) (hmanifest : '\x1b' ∉ manifest.toList) :
    Decorates (headline coloured drift manifest) (headline false drift manifest) := by
  refine (decorates_paint ?_ coloured .headline).append_plain (by decide)
  simp only [List.mem_append, not_or, hmanifest, escape_notMem_toString, not_false_eq_true,
    true_and, and_true]
  decide

theorem decorates_removedLine (coloured : Bool) {resource : Resource}
    (h : '\x1b' ∉ resource.display.toList) :
    Decorates (removedLine coloured resource) (removedLine false resource) := by
  have hmark : Decorates (paint coloured .removedMark ['-']) ['-'] :=
    decorates_paint (by decide) coloured .removedMark
  exact (((hmark.plain_append (by decide)).append_plain (by decide)).append_plain h).append_plain
    (by decide)

theorem decorates_originNote (coloured : Bool) {file? : Option String}
    (h : ∀ file ∈ file?, '\x1b' ∉ file.toList) :
    Decorates (originNote coloured file?) (originNote false file?) := by
  cases file? with
  | none => exact decorates_self List.not_mem_nil
  | some file =>
      have hspace : '\x1b' ∉ [' '] := by decide
      refine (decorates_paint ?_ coloured .origin).plain_append hspace
      simp only [List.mem_append, not_or, h file rfl, not_false_eq_true, and_true]
      decide

theorem decorates_addedLine (coloured : Bool) {resource : Resource}
    (h : '\x1b' ∉ resource.display.toList)
    (horigin : ∀ file ∈ origin resource, '\x1b' ∉ file.toList) :
    Decorates (addedLine coloured origin resource) (addedLine false origin resource) := by
  have hmark : Decorates (paint coloured .addedMark ['+']) ['+'] :=
    decorates_paint (by decide) coloured .addedMark
  refine (Decorates.append ?_ (decorates_originNote coloured horigin)).append_plain (by decide)
  exact ((hmark.plain_append (by decide)).append_plain (by decide)).append_plain h

/-- A section is decorated if its title and its lines are. -/
theorem decorates_sectionOf {title plainTitle : List Char} {lines plainLines : List (List Char)}
    (htitle : Decorates title plainTitle) (hlines : List.Forall₂ Decorates lines plainLines) :
    Decorates (sectionOf title lines) (sectionOf plainTitle plainLines) := by
  have hbreak : '\x1b' ∉ ['\n'] := by decide
  cases hlines with
  | nil => exact decorates_self List.not_mem_nil
  | cons hfirst hmore =>
      exact ((htitle.append_plain hbreak).append (.flatten (.cons hfirst hmore))).append_plain
        hbreak

theorem decorates_advice (coloured : Bool) (hmanifest : '\x1b' ∉ manifest.toList) :
    Decorates (advice coloured manifest) (advice false manifest) := by
  have hcommand : Decorates (paint coloured .command regenerateCommand.toList)
      regenerateCommand.toList := decorates_paint (by decide) coloured .command
  exact (((hcommand.plain_append (by decide)).append_plain (by decide)).append_plain
    hmanifest).append_plain (by decide)

/-- The lines of resources are decorated if each line is. -/
theorem decorates_lines {resources : List Resource} {line plainLine : Resource → List Char}
    (h : ∀ resource ∈ resources, Decorates (line resource) (plainLine resource)) :
    List.Forall₂ Decorates (resources.map line) (resources.map plainLine) :=
  List.forall₂_map_left_iff.mpr (List.forall₂_map_right_iff.mpr (List.forall₂_same.mpr h))

/-- Deleting every colour sequence from a report with colours gives the report without colours,
if no text in it has the escape character. From a report without colours nothing is deleted. -/
theorem uncoloured_render (h : IsUnescaped drift manifest origin) (coloured : Bool) :
    uncoloured (render coloured drift manifest origin) = render false drift manifest origin := by
  apply Decorates.eq
  unfold render
  split
  · exact decorates_self List.not_mem_nil
  · have htitle (style : Style) {title : List Char} (hplain : '\x1b' ∉ title) :
        Decorates (paint coloured style title) (paint false style title) :=
      decorates_paint hplain coloured style
    have hremoved := decorates_sectionOf
      (htitle .removedTitle (by decide : '\x1b' ∉ "Removed resources:".toList))
      (decorates_lines fun resource hmem =>
        decorates_removedLine coloured (h.display (List.mem_append_right _ hmem)))
    have hadded := decorates_sectionOf
      (htitle .addedTitle (by decide : '\x1b' ∉ "Added resources:".toList))
      (decorates_lines fun resource hmem =>
        decorates_addedLine coloured (h.display (List.mem_append_left _ hmem))
          (h.origin resource hmem))
    exact (((decorates_headline coloured h.manifest).append hremoved).append hadded).append
      (decorates_advice coloured h.manifest)

/-- A drift whose texts look like the rest of a colour sequence. -/
def lookalikeDrift : Drift := ⟨[⟨"string", "[0m"⟩, ⟨"[1;31m", "m"⟩], [⟨"id", ";36[2m"⟩]⟩

/-- One of its resources is declared in a file whose path does, too. -/
def lookalikeOrigin (resource : Resource) : Option String :=
  if resource.type = "string" then some "res/values/[1;33m.xml" else none

/-- The report with colours on that drift is another text than the one without. -/
theorem uncoloured_render_lookalikes :
    IsUnescaped lookalikeDrift "res/[0m.xml" lookalikeOrigin ∧
      render true lookalikeDrift "res/[0m.xml" lookalikeOrigin ≠
        render false lookalikeDrift "res/[0m.xml" lookalikeOrigin ∧
      uncoloured (render true lookalikeDrift "res/[0m.xml" lookalikeOrigin) =
        render false lookalikeDrift "res/[0m.xml" lookalikeOrigin := by
  have hunescaped : IsUnescaped lookalikeDrift "res/[0m.xml" lookalikeOrigin :=
    ⟨by decide, by decide, by decide⟩
  exact ⟨hunescaped, by decide, uncoloured_render hunescaped true⟩

end Terminal

end OverlayManifest.Report
