/-
# Written markup is read back

Pieces of markup that are written one after another are read one after another:
what a piece is read as does not depend on what follows it. Closing tags are
accepted where each closes the tag that was opened last.
-/

import OverlayManifest.Proofs.WrittenTag

namespace OverlayManifest.Xml

/-! ## Tags -/

namespace IsTail

variable {name tail : List Char}

/-- The text of a tag ends where it was written to end. -/
theorem staysInTag (htail : IsTail tail) (hname : IsName name) : StaysInTag (name ++ tail) :=
  (staysInTag_of_plain fun c hc => isDelimiter_of_isNameChar (hname.2 c hc)).append htail.stays

/-- The name ends where the tail begins. -/
theorem ofText_eq (htail : IsTail tail) (hname : IsName name) :
    Tag.ofText (name ++ tail) = ⟨name, tail⟩ := by
  have hkeep : ∀ c ∈ name, (!isBlank c) = true := fun c hc => by
    rw [isBlank_of_isNameChar (hname.2 c hc)]
    rfl
  have hsplit : tail.takeWhile (!isBlank ·) = [] ∧ tail.dropWhile (!isBlank ·) = tail := by
    cases tail with
    | nil => exact ⟨rfl, rfl⟩
    | cons c tail =>
        have hblank : isBlank c = true := htail.starts c rfl
        simp [hblank]
  rw [Tag.ofText, List.takeWhile_append_of_pos hkeep, List.dropWhile_append_of_pos hkeep,
    hsplit.1, hsplit.2, List.append_nil]

/-- A tag does not end with a slash of its own. -/
theorem getLast?_ne_slash (htail : IsTail tail) (hname : IsName name) :
    (name ++ tail).getLast? ≠ some '/' := by
  rw [List.getLast?_append]
  cases hlast : tail.getLast? with
  | none =>
      intro hslash
      have hmem : '/' ∈ name := List.mem_of_getLast? hslash
      exact absurd (hname.2 _ hmem) (by decide)
  | some c =>
      intro hslash
      exact htail.ends (hlast.trans hslash)

end IsTail

/-- A tag starts with its name, not with a character that makes it something else. -/
theorem readConstruct_eq {name text body rest : List Char} (hname : IsName name)
    (hsplit : splitTag none [] text = some (body, rest)) (htext : name <+: text) :
    readConstruct text =
      if body.getLast? = some '/' then .ok (some (.single (.ofText body.dropLast)), rest)
      else .ok (some (.opening (.ofText body)), rest) := by
  obtain ⟨tail, rfl⟩ := htext
  obtain ⟨first, more, rfl⟩ := List.exists_cons_of_ne_nil hname.1
  have hfirst := hname.2 first List.mem_cons_self
  rw [List.cons_append] at hsplit ⊢
  unfold readConstruct
  split
  · rename_i hbang
    cases hbang
    exact absurd hfirst (by decide)
  · rename_i hslash
    cases hslash
    exact absurd hfirst (by decide)
  · rename_i hquestion
    cases hquestion
    exact absurd hfirst (by decide)
  · rw [hsplit]

/-- An opening tag is read as itself. -/
theorem readConstruct_opening {name tail : List Char} (hname : IsName name)
    (htail : IsTail tail) (rest : List Char) :
    readConstruct (name ++ tail ++ '>' :: rest) = .ok (some (.opening ⟨name, tail⟩), rest) := by
  rw [readConstruct_eq hname (splitTag_of_staysInTag (htail.staysInTag hname) rest)
    ⟨_, (List.append_assoc name _ _).symm⟩, if_neg (htail.getLast?_ne_slash hname),
    htail.ofText_eq hname]

/-- A single tag is read as itself, without its slash. -/
theorem readConstruct_single {name tail : List Char} (hname : IsName name)
    (htail : IsTail tail) (rest : List Char) :
    readConstruct (name ++ tail ++ '/' :: '>' :: rest) =
      .ok (some (.single ⟨name, tail⟩), rest) := by
  have hstays : StaysInTag (name ++ tail ++ ['/']) :=
    (htail.staysInTag hname).append (staysInTag_of_plain (by simp [isDelimiter]))
  have hsplit := splitTag_of_staysInTag hstays rest
  rw [List.append_assoc, List.singleton_append] at hsplit
  rw [readConstruct_eq hname hsplit ⟨_, (List.append_assoc name _ _).symm⟩,
    if_pos (List.getLast?_concat), List.dropLast_concat, htail.ofText_eq hname]

/-! ## Written tags -/

/-- A tag as it is written, with attributes. -/
def Tag.written (name : List Char) (attributes : List (String × String)) : Tag :=
  ⟨name, writtenAttributes attributes⟩

/-- Names and attributes can be told apart in a written tag: the names have no
characters with a meaning, and no attribute is written twice. -/
structure IsWritten (name : List Char) (attributes : List (String × String)) : Prop where
  name_isName : IsName name
  keys_isName : ∀ pair ∈ attributes, IsName pair.1.toList
  keys_nodup : (attributes.map Prod.fst).Nodup

instance (name : List Char) (attributes : List (String × String)) :
    Decidable (IsWritten name attributes) :=
  decidable_of_iff
    (IsName name ∧ (∀ pair ∈ attributes, IsName pair.1.toList) ∧
      (attributes.map Prod.fst).Nodup)
    ⟨fun ⟨hname, hkeys, hnodup⟩ => ⟨hname, hkeys, hnodup⟩,
      fun ⟨hname, hkeys, hnodup⟩ => ⟨hname, hkeys, hnodup⟩⟩

namespace IsWritten

variable {name : List Char} {attributes : List (String × String)} {written : List Attribute}
  {tail : List Char}

/-- Written keys are names and occur once. -/
theorem keys_of_writes (h : IsWritten name attributes)
    (hwrites : List.Forall₂ WritesAttribute attributes written) :
    (∀ found ∈ written, IsName found.key) ∧ (written.map Attribute.key).Nodup := by
  have hkeys := map_key_of_writes hwrites
  constructor
  · intro found hfound
    have hmem : found.key ∈ (attributes.map Prod.fst).map String.toList :=
      hkeys ▸ List.mem_map_of_mem hfound
    simp only [List.mem_map, exists_exists_and_eq_and] at hmem
    obtain ⟨pair, hpair, heq⟩ := hmem
    exact heq ▸ h.keys_isName pair hpair
  · rw [hkeys]
    exact List.Pairwise.map _ (fun _ _ hne heq => hne (String.toList_inj.mp heq)) h.keys_nodup

/-- Attributes that are written after the name of a tag are a tail. -/
theorem isTail_of_writes (h : IsWritten name attributes)
    (hwrites : List.Forall₂ WritesAttribute attributes written) (hlaid : LaidOut written tail) :
    IsTail tail :=
  hlaid.isTail (h.keys_of_writes hwrites).1

/-- The attributes of a tag are those that were written. -/
theorem attributes_of_writes (h : IsWritten name attributes)
    (hwrites : List.Forall₂ WritesAttribute attributes written) (hlaid : LaidOut written tail) :
    Tag.attributes ⟨name, tail⟩ = .prepend written .done :=
  hlaid.readAttributes_eq _ (h.keys_of_writes hwrites).1 (h.keys_of_writes hwrites).2
    fun _ _ => rfl

theorem isTail (h : IsWritten name attributes) : IsTail (writtenAttributes attributes) :=
  h.isTail_of_writes (writes_readBack attributes) (laidOut_written attributes)

/-- The attributes of a written tag. -/
theorem attributes_eq (h : IsWritten name attributes) :
    (Tag.written name attributes).attributes = .prepend (readBack attributes) .done :=
  h.attributes_of_writes (writes_readBack attributes) (laidOut_written attributes)

/-- A written attribute is found by its key. -/
theorem attribute?_eq (h : IsWritten name attributes) (key : String) :
    (Tag.written name attributes).attribute? key = .ok (attributes.lookup key) := by
  rw [Tag.attribute?, h.attributes_eq, find?_of_writes (writes_readBack attributes)]

end IsWritten

/-- A closing tag is read up to its `>`. -/
theorem readConstruct_closing {name : List Char} (h : '>' ∉ name) (rest : List Char) :
    readConstruct ('/' :: (name ++ '>' :: rest)) = .ok (some (.closing name), rest) := by
  have hkeep : ∀ c ∈ name, (c != '>') = true := fun c hc =>
    bne_iff_ne.mpr fun heq => h (heq ▸ hc)
  have htake : (name ++ '>' :: rest).takeWhile (· != '>') = name := by
    rw [List.takeWhile_append_of_pos hkeep]
    exact List.append_nil name
  have hdrop : (name ++ '>' :: rest).dropWhile (· != '>') = '>' :: rest := by
    rw [List.dropWhile_append_of_pos hkeep]
    rfl
  rw [readConstruct, afterClose, htake, hdrop]
  rfl

/-- An instruction is passed over. -/
theorem readConstruct_instruction {body : List Char} (h : '>' ∉ body) (hbody : body ≠ [])
    (rest : List Char) :
    readConstruct ('?' :: (body ++ '?' :: '>' :: rest)) = .ok (none, rest) := by
  have hkeep : ∀ c ∈ body ++ ['?'], (c != '>') = true := by
    intro c hc
    rw [bne_iff_ne]
    rintro rfl
    rcases List.mem_append.mp hc with hc | hc
    · exact h hc
    · exact absurd hc (by decide)
  have hassoc : body ++ '?' :: '>' :: rest = (body ++ ['?']) ++ '>' :: rest :=
    (List.append_assoc body ['?'] _).symm
  have htake : (body ++ '?' :: '>' :: rest).takeWhile (· != '>') = body ++ ['?'] := by
    rw [hassoc, List.takeWhile_append_of_pos hkeep]
    exact List.append_nil _
  have hdrop : (body ++ '?' :: '>' :: rest).dropWhile (· != '>') = '>' :: rest := by
    rw [hassoc, List.dropWhile_append_of_pos hkeep]
    rfl
  have hlong : 2 ≤ (body ++ ['?']).length := by
    have := List.length_pos_iff.mpr hbody
    rw [List.length_append, List.length_singleton]
    omega
  rw [readConstruct]
  simp only [htake, List.getLast?_concat, hlong, and_self, ↓reduceIte, afterClose, hdrop]
  rfl

/-- A section ends at the first `>` where it may end. -/
theorem splitAtClose_append {passes : List Char → Bool} {before body : List Char}
    (rest : List Char)
    (hinside : ∀ first second, body = first ++ '>' :: second →
      passes (first.reverse ++ before) = false)
    (hpasses : passes (body.reverse ++ before) = true) :
    splitAtClose passes before (body ++ '>' :: rest) = some (before.reverse ++ body, rest) := by
  induction body generalizing before with
  | nil =>
      rw [List.nil_append, splitAtClose, if_pos ⟨rfl, hpasses⟩, List.append_nil]
  | cons c body ih =>
      have hgoes : ¬ (c = '>' ∧ passes before = true) := by
        rintro ⟨rfl, hends⟩
        have hearly := hinside [] body rfl
        simp [hends] at hearly
      rw [List.cons_append, splitAtClose, if_neg hgoes, ih]
      · simp
      · intro first second hsplit
        simpa using hinside (c :: first) second (by rw [hsplit, List.cons_append])
      · simpa using hpasses

/-- How a CDATA section opens, after its `<!`. -/
def cdataOpening : List Char := ['[', 'C', 'D', 'A', 'T', 'A', '[']

/-- A `>` between two texts without one stands in the text between them. -/
theorem split_of_close {opening body ending first second : List Char} (hopening : '>' ∉ opening)
    (hending : '>' ∉ ending) (hsplit : opening ++ (body ++ ending) = first ++ '>' :: second) :
    ∃ inner outer, first = opening ++ inner ∧ body = inner ++ '>' :: outer := by
  have hafter : ∃ inner, first = opening ++ inner ∧ body ++ ending = inner ++ '>' :: second := by
    rcases List.append_eq_append_iff.mp hsplit with hafter | ⟨late, hlate, hrest⟩
    · exact hafter
    · cases late with
      | nil => exact ⟨[], by simpa using hlate.symm, by simpa using hrest.symm⟩
      | cons c late =>
          rw [List.cons_append, List.cons.injEq] at hrest
          obtain ⟨rfl, -⟩ := hrest
          exact absurd (by simp [hlate]) hopening
  obtain ⟨inner, hfirst, hbody⟩ := hafter
  rcases List.append_eq_append_iff.mp hbody with ⟨late, -, hends⟩ | ⟨outer, hinner, hrest⟩
  · exact absurd (by simp [hends]) hending
  · cases outer with
    | nil =>
        rw [List.nil_append] at hrest
        exact absurd (by simp [← hrest]) hending
    | cons c outer =>
        rw [List.cons_append, List.cons.injEq] at hrest
        exact ⟨inner, outer, hfirst, by rw [hinner, hrest.1]⟩

/-- A comment is passed over; it may have any text but its own end. -/
theorem readConstruct_comment {body : List Char} (h : ¬ ['-', '-', '>'] <:+: body)
    (rest : List Char) :
    readConstruct ('!' :: '-' :: '-' :: (body ++ '-' :: '-' :: '>' :: rest)) =
      .ok (none, rest) := by
  have hinside : ∀ first second, ['-', '-'] ++ (body ++ ['-', '-']) = first ++ '>' :: second →
      endsComment (first.reverse ++ []) = false := by
    intro first second hsplit
    obtain ⟨inner, outer, rfl, rfl⟩ := split_of_close (by decide) (by decide) hsplit
    rw [Bool.eq_false_iff]
    intro hends
    simp only [endsComment, List.append_nil, List.length_reverse, List.length_append,
      List.length_cons, List.length_nil, Bool.and_eq_true, decide_eq_true_eq,
      List.isPrefixOf_iff_prefix, List.reverse_append] at hends
    -- Two dashes of the start and two more are needed, and these stand in the body.
    have hdashes : ['-', '-'] <+: inner.reverse :=
      List.prefix_of_prefix_length_le hends.2 (List.prefix_append _ _) (by
        simp only [List.length_reverse, List.length_cons, List.length_nil]
        omega)
    obtain ⟨early, hearly⟩ := List.reverse_prefix.mp (show ['-', '-'].reverse <+: _ from hdashes)
    exact h ⟨early, outer, by rw [← hearly]; simp⟩
  have hends : endsComment ((['-', '-'] ++ (body ++ ['-', '-'])).reverse ++ []) = true := by
    simp [endsComment, List.isPrefixOf]
  have hsplit := splitAtClose_append rest hinside hends
  have hassoc : ['-', '-'] ++ (body ++ ['-', '-']) ++ '>' :: rest =
      '-' :: '-' :: (body ++ '-' :: '-' :: '>' :: rest) := by
    simp
  rw [hassoc] at hsplit
  rw [readConstruct, skipBang, skipSection, hsplit]
  simp [commentFault?, List.isPrefixOf, Except.map]

/-- A CDATA section is passed over; it may have any text but its own end. -/
theorem readConstruct_cdata {body : List Char} (h : ¬ [']', ']', '>'] <:+: body)
    (rest : List Char) :
    readConstruct ('!' :: (cdataOpening ++ (body ++ ']' :: ']' :: '>' :: rest))) =
      .ok (none, rest) := by
  have hinside : ∀ first second, cdataOpening ++ (body ++ [']', ']']) = first ++ '>' :: second →
      endsCdata (first.reverse ++ []) = false := by
    intro first second hsplit
    obtain ⟨inner, outer, rfl, rfl⟩ := split_of_close (by decide) (by decide) hsplit
    rw [Bool.eq_false_iff]
    intro hends
    rw [endsCdata, List.append_nil, List.isPrefixOf_iff_prefix, List.reverse_append] at hends
    -- The opening ends with another bracket, so both brackets stand in the body.
    have hbrackets : [']', ']'] <+: inner.reverse := by
      match hinner : inner.reverse with
      | [] => simp [hinner, cdataOpening] at hends
      | [c] => simp [hinner, cdataOpening] at hends
      | c :: d :: more => simpa [hinner] using hends
    obtain ⟨early, hearly⟩ :=
      List.reverse_prefix.mp (show [']', ']'].reverse <+: _ from hbrackets)
    exact h ⟨early, outer, by rw [← hearly]; simp⟩
  have hends : endsCdata ((cdataOpening ++ (body ++ [']', ']'])).reverse ++ []) = true := by
    simp [endsCdata, List.isPrefixOf]
  have hsplit := splitAtClose_append rest hinside hends
  have hassoc : cdataOpening ++ (body ++ [']', ']']) ++ '>' :: rest =
      '[' :: 'C' :: 'D' :: 'A' :: 'T' :: 'A' :: '[' :: (body ++ ']' :: ']' :: '>' :: rest) := by
    simp [cdataOpening]
  rw [hassoc] at hsplit
  have hfault : cdataFault? (cdataOpening ++ (body ++ [']', ']'])) = none := by
    have hword : opensWith cdataOpening (cdataOpening ++ (body ++ [']', ']'])) = true := by
      rw [opensWith, List.map_append, List.isPrefixOf_iff_prefix]
      exact List.prefix_append _ _
    exact if_pos hword
  simp only [cdataOpening, List.cons_append, List.nil_append]
  rw [readConstruct, skipBang, skipSection, hsplit]
  simp [hfault, Except.map]

/-! ## Pieces of a text -/

/-- The next `<` starts a construct, and the tokens go on after it. -/
theorem tokens_eq (text : List Char) :
    tokens text =
      match text.dropWhile (· != '<') with
      | [] | [_] => .done
      | _ :: c :: rest =>
          match readConstruct (c :: rest) with
          | .error fault => .failed fault
          | .ok (token, after) => .prepend token.toList (tokens after) := by
  rw [tokens]
  split
  · rename_i htext
    rw [htext]
  · rename_i htext
    rw [htext]
  · rename_i htext
    split
    · rename_i hread
      simp only [htext, hread]
    · rename_i token after hread
      simp only [htext, hread]
      cases token <;> rfl

/-- A piece of markup is read as some tokens, whatever follows it. -/
def ReadsAs (piece : List Char) (found : List Token) : Prop :=
  ∀ rest, tokens (piece ++ rest) = .prepend found (tokens rest)

namespace ReadsAs

theorem append {first second : List Char} {found others : List Token}
    (hfirst : ReadsAs first found) (hsecond : ReadsAs second others) :
    ReadsAs (first ++ second) (found ++ others) := by
  intro rest
  rw [List.append_assoc, hfirst, hsecond, Reading.prepend_append]

/-- Character data is passed over. -/
theorem data {gap : List Char} (h : '<' ∉ gap) : ReadsAs gap [] := by
  intro rest
  have hskip : ∀ c ∈ gap, (c != '<') = true := fun c hc =>
    bne_iff_ne.mpr fun heq => h (heq ▸ hc)
  rw [tokens_eq, List.dropWhile_append_of_pos hskip, ← tokens_eq]
  rfl

/-- What follows a `<` is read as one construct. -/
theorem construct (token : Option Token) {c : Char} {piece : List Char}
    (h : ∀ rest, readConstruct (c :: (piece ++ rest)) = .ok (token, rest)) :
    ReadsAs ('<' :: c :: piece) token.toList := by
  intro rest
  have hdrop : ('<' :: c :: (piece ++ rest)).dropWhile (· != '<') =
      '<' :: c :: (piece ++ rest) := rfl
  rw [List.cons_append, List.cons_append, tokens_eq, hdrop]
  dsimp only
  rw [h rest]

theorem opening_of_isTail {name tail : List Char} (hname : IsName name) (htail : IsTail tail) :
    ReadsAs ('<' :: (name ++ tail ++ ['>'])) [.opening ⟨name, tail⟩] := by
  obtain ⟨c, name, rfl⟩ := List.exists_cons_of_ne_nil hname.1
  refine construct (some (.opening ⟨c :: name, tail⟩)) fun rest => ?_
  rw [← readConstruct_opening hname htail rest]
  simp

theorem single_of_isTail {name tail : List Char} (hname : IsName name) (htail : IsTail tail) :
    ReadsAs ('<' :: (name ++ tail ++ ['/', '>'])) [.single ⟨name, tail⟩] := by
  obtain ⟨c, name, rfl⟩ := List.exists_cons_of_ne_nil hname.1
  refine construct (some (.single ⟨c :: name, tail⟩)) fun rest => ?_
  rw [← readConstruct_single hname htail rest]
  simp

theorem opening {name : List Char} {attributes : List (String × String)}
    (h : IsWritten name attributes) :
    ReadsAs ('<' :: (name ++ writtenAttributes attributes ++ ['>']))
      [.opening (.written name attributes)] :=
  opening_of_isTail h.name_isName h.isTail

theorem single {name : List Char} {attributes : List (String × String)}
    (h : IsWritten name attributes) :
    ReadsAs ('<' :: (name ++ writtenAttributes attributes ++ ['/', '>']))
      [.single (.written name attributes)] :=
  single_of_isTail h.name_isName h.isTail

theorem closing {name : List Char} (h : '>' ∉ name) :
    ReadsAs ('<' :: '/' :: (name ++ ['>'])) [.closing name] := by
  refine construct (some (.closing name)) fun rest => ?_
  rw [List.append_assoc]
  exact readConstruct_closing h rest

theorem instruction {body : List Char} (h : '>' ∉ body) (hbody : body ≠ []) :
    ReadsAs ('<' :: '?' :: (body ++ ['?', '>'])) [] := by
  refine construct none fun rest => ?_
  rw [List.append_assoc]
  exact readConstruct_instruction h hbody rest

theorem comment {body : List Char} (h : ¬ ['-', '-', '>'] <:+: body) :
    ReadsAs ('<' :: '!' :: '-' :: '-' :: (body ++ ['-', '-', '>'])) [] := by
  refine construct none fun rest => ?_
  simp only [List.cons_append, List.append_assoc, List.nil_append]
  exact readConstruct_comment h rest

theorem cdata {body : List Char} (h : ¬ [']', ']', '>'] <:+: body) :
    ReadsAs ('<' :: '!' :: (cdataOpening ++ (body ++ [']', ']', '>']))) [] := by
  refine construct none fun rest => ?_
  simp only [List.append_assoc, List.cons_append, List.nil_append]
  exact readConstruct_cdata h rest

end ReadsAs

/-! ## Nesting -/

/-- Tokens in which each closing tag names the element it closes, and that leave
no element open. -/
def Balanced (found : List Token) : Prop :=
  ∀ path rest, nested path (.prepend found rest) = .prepend found (nested path rest)

namespace Balanced

theorem nil : Balanced [] := fun _ _ => rfl

theorem append {first second : List Token} (hfirst : Balanced first)
    (hsecond : Balanced second) : Balanced (first ++ second) := by
  intro path rest
  rw [Reading.prepend_append, hfirst, hsecond, Reading.prepend_append]

theorem single (tag : Tag) : Balanced [.single tag] := fun _ _ => rfl

/-- Single tags leave nothing open. -/
theorem singles (tags : List Tag) : Balanced (tags.map .single) := by
  induction tags with
  | nil => exact nil
  | cons tag tags ih => exact (single tag).append ih

/-- An element around balanced tokens is balanced. -/
theorem element {tag : Tag} {inner : List Token} {closing : List Char} (hinner : Balanced inner)
    (hname : closingName closing = tag.name) :
    Balanced (.opening tag :: (inner ++ [.closing closing])) := by
  intro path rest
  rw [Reading.prepend_cons, Reading.prepend_append, nested, hinner, Reading.prepend_cons,
    Reading.prepend_nil, nested, if_pos hname]
  simp

end Balanced

/-- Blanks after the name in a closing tag do not count. -/
theorem closingName_append {name blanks : List Char} (hname : IsName name)
    (hblanks : Blanks blanks) : closingName (name ++ blanks) = name := by
  have hkeep : ∀ c ∈ name, isBlank c = false := fun c hc =>
    isBlank_of_isNameChar (hname.2 c hc)
  have hsome : (name ++ blanks).all isBlank = false := by
    obtain ⟨first, more, rfl⟩ := List.exists_cons_of_ne_nil hname.1
    simp [hkeep first List.mem_cons_self]
  have hdrop : (name ++ blanks).reverse.dropWhile isBlank = name.reverse := by
    rw [List.reverse_append,
      List.dropWhile_append_of_pos fun c hc => hblanks c (List.mem_reverse.mp hc)]
    cases hreverse : name.reverse with
    | nil => rfl
    | cons c text =>
        have hmem : c ∈ name := List.mem_reverse.mp (hreverse ▸ List.mem_cons_self)
        rw [List.dropWhile_cons_of_neg]
        rw [hkeep c hmem]
        exact Bool.false_ne_true
  rw [closingName, hsome, hdrop, List.reverse_reverse]
  rfl

/-- A name has no blanks at its end. -/
theorem closingName_of_isName {name : List Char} (h : IsName name) :
    closingName name = name := by
  simpa using closingName_append h (show Blanks [] by simp [Blanks])

/-- A byte order mark is character data like any other. -/
theorem tokens_dropByteOrderMark (text : List Char) :
    tokens (dropByteOrderMark text) = tokens text := by
  unfold dropByteOrderMark
  split
  · rename_i rest
    rw [tokens_eq, tokens_eq ('\ufeff' :: rest), List.dropWhile_cons_of_pos (by decide)]
  · rfl

/-- A text is read as what its pieces are read as. -/
theorem read_of_readsAs {text : String} {found : List Token} (hreads : ReadsAs text.toList found)
    (hbalanced : Balanced found) : read text = .prepend found .done := by
  have htokens : tokens text.toList = .prepend found .done := by
    have hall := hreads []
    rwa [List.append_nil, show tokens [] = .done by rw [tokens]; rfl] at hall
  rw [read, tokens_dropByteOrderMark, htokens, hbalanced, nested]

end OverlayManifest.Xml
