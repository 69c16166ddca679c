/-
# What a report for a terminal tells

Nothing is shown exactly if nothing came and nothing went. Otherwise the text of a report tells
which resources came and which went, in their order and each as often as it is listed. The
headline counts them, so that it is known how many lines follow, and each line tells its
resource: a line break or a bracket ends the resource, and the first slash ends its type. What
the manifest and the files that declare resources are called does not matter, since the same
resource always has the same file.
-/

import OverlayManifest.Report.Terminal
import OverlayManifest.Text.Digit
import Std.Data.String.ToNat

namespace OverlayManifest

/-- A line shows where the texts of a resource end: no line break and no opening bracket is in
them, and no slash is in the type. -/
structure Resource.IsReadable (resource : Resource) : Prop where
  lineBreak : '\n' ∉ resource.type.toList ∧ '\n' ∉ resource.name.toList
  bracket : '(' ∉ resource.type.toList ∧ '(' ∉ resource.name.toList
  slash : '/' ∉ resource.type.toList

instance (resource : Resource) : Decidable resource.IsReadable :=
  decidable_of_iff
    (('\n' ∉ resource.type.toList ∧ '\n' ∉ resource.name.toList) ∧
      ('(' ∉ resource.type.toList ∧ '(' ∉ resource.name.toList) ∧ '/' ∉ resource.type.toList)
    ⟨fun h => ⟨h.1, h.2.1, h.2.2⟩, fun h => ⟨h.lineBreak, h.bracket, h.slash⟩⟩

/-- All resources of a drift are readable. -/
structure Drift.IsReadable (drift : Drift) : Prop where
  added : ∀ resource ∈ drift.added, resource.IsReadable
  removed : ∀ resource ∈ drift.removed, resource.IsReadable

namespace Text

/-- A text that ends at the first character of a kind is known from whatever begins with it. -/
theorem eq_of_append_cons {ends : Char → Bool} {text text' rest rest' : List Char} {c c' : Char}
    (htext : ∀ x ∈ text, ends x = false) (htext' : ∀ x ∈ text', ends x = false)
    (hc : ends c = true) (hc' : ends c' = true)
    (h : text ++ c :: rest = text' ++ c' :: rest') : text = text' ∧ c = c' ∧ rest = rest' := by
  have htake {text rest : List Char} {c : Char} (htext : ∀ x ∈ text, ends x = false)
      (hc : ends c = true) : (text ++ c :: rest).takeWhile (!ends ·) = text := by
    rw [List.takeWhile_append_of_pos (by simpa using htext),
      List.takeWhile_cons_of_neg (by simp [hc]), List.append_nil]
  obtain rfl : text = text' := by
    rw [← htake htext hc, h, htake htext' hc']
  obtain ⟨hsame, hrest⟩ := List.cons.inj (List.append_cancel_left h)
  exact ⟨rfl, hsame, hrest⟩

/-- A number is known from whatever begins with it and a blank. -/
theorem eq_of_number {n n' : Nat} {rest rest' : List Char}
    (h : (toString n).toList ++ ' ' :: rest = (toString n').toList ++ ' ' :: rest') :
    n = n' ∧ rest = rest' := by
  have hdigits (n : Nat) : ∀ c ∈ (toString n).toList, (!c.isDigit) = false := fun c hc => by
    rw [isDigit_of_mem_toString hc, Bool.not_true]
  obtain ⟨hnumber, -, hrest⟩ := eq_of_append_cons (hdigits n) (hdigits n') rfl rfl h
  exact ⟨Nat.repr_injective (String.toList_inj.mp hnumber), hrest⟩

end Text

namespace Report.Terminal

open Text (eq_of_append_cons eq_of_number)

variable {rest rest' : List Char}

/-! ## Lines -/

/-- A line tells its resource, whatever follows. -/
def Tells (line : Resource → List Char) : Prop :=
  ∀ first second : Resource, first.IsReadable → second.IsReadable → ∀ rest rest' : List Char,
    line first ++ rest = line second ++ rest' → first = second

/-- What ends a resource in its line. -/
def endsResource (c : Char) : Bool := c == '\n' || c == '('

theorem toList_display (resource : Resource) :
    resource.display.toList = resource.type.toList ++ '/' :: resource.name.toList := by
  rw [Resource.display, String.toList_append, String.toList_append, List.append_assoc]
  rfl

/-- No character of a readable resource ends it. -/
theorem endsResource_of_mem_display {resource : Resource} (h : resource.IsReadable) :
    ∀ c ∈ resource.display.toList, endsResource c = false := by
  have hspared {ending : Char} (hslash : ending ≠ '/')
      (hends : ending ∉ resource.type.toList ∧ ending ∉ resource.name.toList) :
      ending ∉ resource.display.toList := by
    rw [toList_display, List.mem_append, List.mem_cons, not_or, not_or]
    exact ⟨hends.1, hslash, hends.2⟩
  intro c hc
  rw [endsResource, Bool.or_eq_false_iff, beq_eq_false_iff_ne, beq_eq_false_iff_ne]
  exact ⟨fun hbreak => hspared (by decide) h.lineBreak (hbreak ▸ hc),
    fun hbracket => hspared (by decide) h.bracket (hbracket ▸ hc)⟩

/-- A readable resource is known from how it is displayed. -/
theorem eq_of_display {first second : Resource} (hfirst : first.IsReadable)
    (hsecond : second.IsReadable) (h : first.display.toList = second.display.toList) :
    first = second := by
  have hslash {resource : Resource} (h : resource.IsReadable) :
      ∀ c ∈ resource.type.toList, (c == '/') = false := fun c hc =>
    beq_eq_false_iff_ne.mpr fun heq => h.slash (heq ▸ hc)
  rw [toList_display, toList_display] at h
  obtain ⟨htype, -, hname⟩ := eq_of_append_cons (hslash hfirst) (hslash hsecond) rfl rfl h
  cases first
  cases second
  rw [Resource.mk.injEq]
  exact ⟨String.toList_inj.mp htype, String.toList_inj.mp hname⟩

/-- Behind a resource its line breaks, or a blank and the bracket of a note follow. -/
inductive IsEnding : List Char → Char → Prop
  | lineBreak : IsEnding [] '\n'
  | note : IsEnding [' '] '('

theorem IsEnding.ends {blanks : List Char} {c : Char} (h : IsEnding blanks c) :
    endsResource c = true := by
  cases h <;> rfl

theorem IsEnding.not_ends {blanks : List Char} {c : Char} (h : IsEnding blanks c) :
    ∀ x ∈ blanks, endsResource x = false := by
  cases h with
  | lineBreak => exact fun x hx => absurd hx List.not_mem_nil
  | note => exact List.forall_mem_singleton.mpr rfl

/-- A readable resource is known from its line, which shows whether a note follows. -/
theorem eq_of_ending {first second : Resource} (hfirst : first.IsReadable)
    (hsecond : second.IsReadable) {blanks blanks' : List Char} {c c' : Char}
    (hending : IsEnding blanks c) (hending' : IsEnding blanks' c')
    (h : first.display.toList ++ (blanks ++ c :: rest) =
      second.display.toList ++ (blanks' ++ c' :: rest')) : first = second := by
  have hkeep {resource : Resource} (hreadable : resource.IsReadable) {blanks : List Char} {c : Char}
      (hending : IsEnding blanks c) :
      ∀ x ∈ resource.display.toList ++ blanks, endsResource x = false :=
    List.forall_mem_append.mpr ⟨endsResource_of_mem_display hreadable, hending.not_ends⟩
  rw [← List.append_assoc, ← List.append_assoc] at h
  obtain ⟨hdisplay, rfl, -⟩ := eq_of_append_cons (hkeep hfirst hending) (hkeep hsecond hending')
    hending.ends hending'.ends h
  obtain rfl : blanks = blanks' := by
    cases hending <;> cases hending' <;> rfl
  exact eq_of_display hfirst hsecond (List.append_cancel_right hdisplay)

theorem tells_removedLine : Tells (removedLine false) := by
  intro first second hfirst hsecond rest rest' h
  have hline (resource : Resource) (rest : List Char) : removedLine false resource ++ rest =
      [' ', ' ', '-', ' '] ++ (resource.display.toList ++ ([] ++ '\n' :: rest)) := by
    simp [removedLine, Style.paint]
  rw [hline, hline] at h
  exact eq_of_ending hfirst hsecond .lineBreak .lineBreak (List.append_cancel_left h)

theorem exists_ending (file? : Option String) (rest : List Char) : ∃ blanks c more,
    IsEnding blanks c ∧ originNote false file? ++ '\n' :: rest = blanks ++ c :: more := by
  cases file? with
  | none => exact ⟨[], '\n', rest, .lineBreak, rfl⟩
  | some file => exact ⟨[' '], '(', _, .note, rfl⟩

theorem tells_addedLine (origin : Resource → Option String) : Tells (addedLine false origin) := by
  intro first second hfirst hsecond rest rest' h
  have hline (resource : Resource) (rest : List Char) : addedLine false origin resource ++ rest =
      [' ', ' ', '+', ' '] ++ (resource.display.toList ++
        (originNote false (origin resource) ++ '\n' :: rest)) := by
    simp [addedLine, Style.paint]
  obtain ⟨blanks, c, more, hending, hnote⟩ := exists_ending (origin first) rest
  obtain ⟨blanks', c', more', hending', hnote'⟩ := exists_ending (origin second) rest'
  rw [hline, hline, hnote, hnote'] at h
  exact eq_of_ending hfirst hsecond hending hending' (List.append_cancel_left h)

/-! ## Sections -/

/-- Resources are known from their lines if it is known how many there are. -/
theorem eq_of_lines {line : Resource → List Char} (hline : Tells line) {first second : List Resource}
    (hfirst : ∀ resource ∈ first, resource.IsReadable)
    (hsecond : ∀ resource ∈ second, resource.IsReadable) (hlength : first.length = second.length)
    (h : (first.map line).flatten ++ rest = (second.map line).flatten ++ rest') :
    first = second := by
  induction first generalizing second with
  | nil => exact (List.length_eq_zero_iff.mp hlength.symm).symm
  | cons resource first ih =>
      cases second with
      | nil => cases hlength
      | cons resource' second =>
          rw [List.map_cons, List.map_cons, List.flatten_cons, List.flatten_cons,
            List.append_assoc, List.append_assoc] at h
          obtain ⟨hreadable, hmore⟩ := List.forall_mem_cons.mp hfirst
          obtain ⟨hreadable', hmore'⟩ := List.forall_mem_cons.mp hsecond
          obtain rfl := hline resource resource' hreadable hreadable' _ _ h
          exact congrArg (resource :: ·)
            (ih hmore hmore' (Nat.succ.inj hlength) (List.append_cancel_left h))

/-- Resources are known from their section, which may be left out, if it is known how many there
are. -/
theorem eq_of_section {line : Resource → List Char} (hline : Tells line) {title : List Char}
    {first second : List Resource} (hfirst : ∀ resource ∈ first, resource.IsReadable)
    (hsecond : ∀ resource ∈ second, resource.IsReadable) (hlength : first.length = second.length)
    (h : sectionOf title (first.map line) ++ rest = sectionOf title (second.map line) ++ rest') :
    first = second := by
  have hlines {resources : List Resource} (hsome : resources ≠ []) (rest : List Char) :
      sectionOf title (resources.map line) ++ rest =
        title ++ ['\n'] ++ ((resources.map line).flatten ++ '\n' :: rest) := by
    obtain ⟨resource, more, rfl⟩ := List.exists_cons_of_ne_nil hsome
    simp [sectionOf]
  by_cases hsome : first = []
  · rw [hsome, List.length_nil] at hlength
    rw [hsome, List.length_eq_zero_iff.mp hlength.symm]
  · have hsome' : second ≠ [] := by
      rintro rfl
      exact hsome (List.length_eq_zero_iff.mp hlength)
    rw [hlines hsome, hlines hsome'] at h
    exact eq_of_lines hline hfirst hsecond hlength (List.append_cancel_left h)

/-! ## Reports -/

variable {drift first second : Drift} {manifest : String} {origin : Resource → Option String}

/-- The headline tells how many resources came and how many went. -/
theorem lengths_eq_of_headline
    (h : headline false first manifest ++ rest = headline false second manifest ++ rest') :
    first.added.length = second.added.length ∧ first.removed.length = second.removed.length ∧
      rest = rest' := by
  have hheadline (drift : Drift) (rest : List Char) : headline false drift manifest ++ rest =
      manifest.toList ++ " is out of date: ".toList ++
        ((toString drift.added.length).toList ++ ' ' :: ("added, ".toList ++
          ((toString drift.removed.length).toList ++ ' ' :: ("removed\n\n".toList ++ rest)))) := by
    simp [headline, Style.paint]
  rw [hheadline, hheadline] at h
  obtain ⟨hadded, h⟩ := eq_of_number (List.append_cancel_left h)
  obtain ⟨hremoved, h⟩ := eq_of_number (List.append_cancel_left h)
  exact ⟨hadded, hremoved, List.append_cancel_left h⟩

/-- Nothing is shown exactly if nothing came and nothing went. -/
theorem render_eq_nil_iff {coloured : Bool} :
    render coloured drift manifest origin = [] ↔ drift.added = [] ∧ drift.removed = [] := by
  rw [render, ← Drift.isUpToDate_iff]
  split
  · rename_i hnone
    exact iff_of_true rfl hnone
  · rename_i hsome
    exact iff_of_false (by simp [headline]) hsome

/-- Readable drifts with the same report have the same resources. -/
theorem resources_eq_of_report (hfirst : first.IsReadable) (hsecond : second.IsReadable)
    (h : render false first manifest origin = render false second manifest origin) :
    first.added = second.added ∧ first.removed = second.removed := by
  by_cases hsome : render false first manifest origin = []
  · obtain ⟨hadded, hremoved⟩ := render_eq_nil_iff.mp hsome
    obtain ⟨hadded', hremoved'⟩ := render_eq_nil_iff.mp (h ▸ hsome)
    exact ⟨hadded.trans hadded'.symm, hremoved.trans hremoved'.symm⟩
  · have hpieces {drift : Drift} (hsome : render false drift manifest origin ≠ []) :
        render false drift manifest origin = headline false drift manifest ++
          (sectionOf (Style.paint false .removedTitle "Removed resources:".toList)
              (drift.removed.map (removedLine false)) ++
            (sectionOf (Style.paint false .addedTitle "Added resources:".toList)
                (drift.added.map (addedLine false origin)) ++ advice false manifest)) := by
      rw [Ne, render_eq_nil_iff, ← Drift.isUpToDate_iff] at hsome
      rw [render, if_neg hsome, List.append_assoc, List.append_assoc]
    have hsome' : render false second manifest origin ≠ [] := h ▸ hsome
    rw [hpieces hsome, hpieces hsome'] at h
    -- Only the counts show which sections follow and where the lines of each end.
    obtain ⟨hadded, hremoved, h⟩ := lengths_eq_of_headline h
    have hsame := eq_of_section tells_removedLine hfirst.removed hsecond.removed hremoved h
    rw [hsame] at h
    exact ⟨eq_of_section (tells_addedLine origin) hfirst.added hsecond.added hadded
      (List.append_cancel_left h), hsame⟩

/-- The report without colours on readable drifts tells both their lists, in order and with all
repetitions, whatever the manifest and the declaring files are called; and a report is empty
exactly if both lists are. -/
theorem render_tells_drift (manifest : String) (origin : Resource → Option String) :
    (∀ first second : Drift, first.IsReadable → second.IsReadable →
      (render false first manifest origin = render false second manifest origin ↔
        first.added = second.added ∧ first.removed = second.removed)) ∧
      ∀ (coloured : Bool) (drift : Drift),
        render coloured drift manifest origin = [] ↔ drift.added = [] ∧ drift.removed = [] := by
  refine ⟨fun first second hfirst hsecond => ⟨resources_eq_of_report hfirst hsecond, ?_⟩,
    fun coloured drift => render_eq_nil_iff⟩
  obtain ⟨added, removed⟩ := first
  obtain ⟨added', removed'⟩ := second
  rintro ⟨rfl, rfl⟩
  rfl

/-- A resource that came twice, and one whose name looks like the mark of another. -/
def repeatedDrift : Drift := ⟨[⟨"raw", "a/b"⟩, ⟨"raw", "a/b"⟩, ⟨"", " + c "⟩], [⟨"id", ""⟩]⟩

/-- The same resources, of which the other one came twice. -/
def repeatedOtherDrift : Drift :=
  ⟨[⟨"raw", "a/b"⟩, ⟨"", " + c "⟩, ⟨"", " + c "⟩], [⟨"id", ""⟩]⟩

/-- A path that looks like the end of a line and another line. -/
def linedOrigin (resource : Resource) : Option String :=
  if resource.type = "raw" then some "a)\n  + raw/b (a" else none

/-- The reports tell which of the resources came twice. -/
theorem render_tells_drift_repeated :
    repeatedDrift.IsReadable ∧ repeatedOtherDrift.IsReadable ∧
      render false repeatedDrift "res\n(1)" linedOrigin ≠
        render false repeatedOtherDrift "res\n(1)" linedOrigin ∧
      render false repeatedDrift "res\n(1)" linedOrigin ≠ [] := by
  have hreadable : repeatedDrift.IsReadable := ⟨by decide, by decide⟩
  have hreadable' : repeatedOtherDrift.IsReadable := ⟨by decide, by decide⟩
  obtain ⟨htells, hempty⟩ := render_tells_drift "res\n(1)" linedOrigin
  refine ⟨hreadable, hreadable', fun h => ?_, fun h => ?_⟩
  · exact absurd ((htells _ _ hreadable hreadable').mp h).1 (by decide)
  · exact absurd ((hempty false repeatedDrift).mp h).1 (by decide)

end Report.Terminal

end OverlayManifest
