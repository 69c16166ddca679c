/-
# Quoted attributes

Attributes are well-formed if each has a quoted value and no key occurs twice. The attributes
that are read from the front of a text, before any fault, are just those; so a tag is
well-formed exactly if its attributes are read without a fault, and attributes that were read
say nothing about what follows them.
-/

import Mathlib.Data.List.Nodup
import Mathlib.Data.List.TakeWhile
import OverlayManifest.Proofs.WrittenTag

namespace OverlayManifest

namespace Xml

/-! ## Well-formed attributes -/

/-- A key ends before an equals sign or a blank, but it may start with an equals sign. -/
structure IsKey (key : List Char) : Prop where
  nonempty : key ≠ []
  starts : ∀ c ∈ key.head?, isBlank c = false
  goes : ∀ c ∈ key.tail, endsKey c = false

/-- Attributes in front of a text: each has a key, an equals sign and a value between two
marks that do not occur in it. Blanks may stand around each of these, and none has to. -/
inductive Quoted : List Attribute → List Char → List Char → Prop
  | nil (rest : List Char) : Quoted [] rest rest
  | cons {found : Attribute} {attributes : List Attribute}
      {blanks before after text rest : List Char} {mark : Char}
      (hblanks : Blanks blanks) (hkey : IsKey found.key) (hbefore : Blanks before)
      (hafter : Blanks after) (hmark : IsMark mark) (hvalue : mark ∉ found.value)
      (hrest : Quoted attributes text rest) :
      Quoted (found :: attributes) (blanks ++ (found.key ++ (before ++
        '=' :: (after ++ mark :: (found.value ++ mark :: text))))) rest

theorem Quoted.append {first second : List Attribute} {text between rest : List Char}
    (hfirst : Quoted first text between) (hsecond : Quoted second between rest) :
    Quoted (first ++ second) text rest := by
  induction hfirst with
  | nil => exact hsecond
  | cons hblanks hkey hbefore hafter hmark hvalue _ ih =>
      exact .cons hblanks hkey hbefore hafter hmark hvalue (ih hsecond)

/-- A tag has well-formed attributes: every value is quoted, and no key occurs twice. -/
def Tag.IsWellFormed (tag : Tag) : Prop :=
  ∃ attributes blanks, Quoted attributes tag.tail blanks ∧ Blanks blanks ∧
    (attributes.map Attribute.key).Nodup

/-! ## What is read is well-formed -/

section Steps

variable {size : Nat} {seen : List (List Char × Nat)} {text rest : List Char}

theorem blanks_takeWhile (text : List Char) : Blanks (text.takeWhile isBlank) :=
  fun _ hmem => List.mem_takeWhile_imp hmem

theorem eq_blanks_append {first : Char} {more : List Char}
    (h : text.dropWhile isBlank = first :: more) :
    text = text.takeWhile isBlank ++ first :: more ∧ isBlank first = false := by
  refine ⟨by rw [← h, List.takeWhile_append_dropWhile], ?_⟩
  have hhead := List.head?_dropWhile_not isBlank text
  rw [h] at hhead
  simpa using hhead

/-- Up to an equals sign there are only blanks. -/
theorem of_skipEquals (h : skipEquals size text = .ok rest) :
    ∃ before, Blanks before ∧ text = before ++ '=' :: rest := by
  unfold skipEquals at h
  split at h
  · cases h
  · rename_i c more hdrop
    split at h
    · rename_i hequals
      cases h
      subst hequals
      exact ⟨_, blanks_takeWhile text, (eq_blanks_append hdrop).1⟩
    · cases h

/-- A value that is read stands between two marks. -/
theorem of_readValue {value : List Char} (h : readValue size text = .ok (value, rest)) :
    ∃ after mark, Blanks after ∧ IsMark mark ∧ mark ∉ value ∧
      text = after ++ mark :: (value ++ mark :: rest) := by
  unfold readValue at h
  split at h
  · cases h
  · rename_i mark body hdrop
    split at h
    · cases h
    · rename_i hmark
      split at h
      · cases h
      · rename_i closing _ hclosing
        cases h
        have hclosed := List.head?_dropWhile_not (· != mark) body
        rw [hclosing] at hclosed
        have hbody : body = body.takeWhile (· != mark) ++ mark :: rest := by
          have hmarked : closing = mark := by simpa using hclosed
          rw [← hmarked, ← hclosing, hmarked, List.takeWhile_append_dropWhile]
        refine ⟨_, mark, blanks_takeWhile text, ?_, ?_, ?_⟩
        · rwa [not_and_or, not_not, not_not] at hmark
        · exact fun hmem => by simpa using List.mem_takeWhile_imp hmem
        · rw [← hbody]
          exact (eq_blanks_append hdrop).1

/-- An attribute that is read has a key that was not seen before, and is written with it. -/
theorem of_readAttribute {first : Char} {more : List Char} {found : Attribute}
    (h : readAttribute size seen first more = .ok (found, rest)) (hfirst : isBlank first = false) :
    IsKey found.key ∧ seen.lookup found.key = none ∧ ∃ before after mark,
      Blanks before ∧ Blanks after ∧ IsMark mark ∧ mark ∉ found.value ∧
      first :: more =
        found.key ++ (before ++ '=' :: (after ++ mark :: (found.value ++ mark :: rest))) := by
  unfold readAttribute at h
  dsimp only at h
  split at h
  · cases h
  · rename_i afterEquals hequals
    split at h
    · cases h
    · rename_i hseen
      split at h
      · cases h
      · rename_i value _ hvalue
        cases h
        obtain ⟨before, hbefore, hmore⟩ := of_skipEquals hequals
        obtain ⟨after, mark, hafter, hmark, hfree, hquoted⟩ := of_readValue hvalue
        have hkey : IsKey (first :: more.takeWhile (!endsKey ·)) :=
          ⟨List.cons_ne_nil _ _, by simpa using hfirst, fun c hc => by
            simpa using List.mem_takeWhile_imp hc⟩
        refine ⟨hkey, hseen, before, after, mark, hbefore, hafter, hmark, hfree, ?_⟩
        rw [← hquoted, ← hmore, List.cons_append, List.takeWhile_append_dropWhile]

/-- Nothing more is read if only blanks are left. -/
theorem readAttributes_eq_done_iff : readAttributes size seen text = .done ↔ Blanks text := by
  rw [Blanks, ← List.dropWhile_eq_nil_iff, readAttributes]
  split
  · rename_i hnil
    simp [hnil]
  · rename_i first more hcons
    simp only [hcons, reduceCtorEq, iff_false]
    split <;> simp

/-- What is read first is one attribute, and the rest is read with its key as a seen one. -/
theorem of_readAttributes_eq_item {found : Attribute} {reading : Reading AttributeFault Attribute}
    (h : readAttributes size seen text = .item found reading) :
    ∃ first more rest offset, text.dropWhile isBlank = first :: more ∧
      readAttribute size seen first more = .ok (found, rest) ∧
      reading = readAttributes size ((found.key, offset) :: seen) rest := by
  rw [readAttributes] at h
  split at h
  · cases h
  · rename_i first more hcons
    split at h
    · cases h
    · rename_i hread
      cases h
      exact ⟨first, more, _, _, hcons, hread, rfl⟩

/-- The attributes that were read are quoted, and no key among the seen ones occurs twice. -/
theorem readAttributes_sound {attributes : List Attribute}
    {reading : Reading AttributeFault Attribute} (hseen : (seen.map Prod.fst).Nodup)
    (h : readAttributes size seen text = .prepend attributes reading) :
    ∃ rest later, Quoted attributes text rest ∧
      later.map Prod.fst = (attributes.map Attribute.key).reverse ++ seen.map Prod.fst ∧
      (later.map Prod.fst).Nodup ∧ reading = readAttributes size later rest := by
  induction attributes generalizing seen text with
  | nil => exact ⟨text, seen, .nil text, rfl, hseen, h.symm⟩
  | cons found attributes ih =>
      obtain ⟨first, more, between, offset, hcons, hread, hreading⟩ := of_readAttributes_eq_item h
      obtain ⟨htext, hfirst⟩ := eq_blanks_append hcons
      obtain ⟨hkey, hnew, before, after, mark, hbefore, hafter, hmark, hvalue, hwritten⟩ :=
        of_readAttribute hread hfirst
      have hdistinct : (((found.key, offset) :: seen).map Prod.fst).Nodup := by
        rw [List.map_cons, List.nodup_cons]
        refine ⟨fun hmem => ?_, hseen⟩
        obtain ⟨pair, hpair, heq⟩ := List.mem_map.mp hmem
        exact absurd heq.symm (by simpa using List.lookup_eq_none_iff.mp hnew pair hpair)
      obtain ⟨rest, later, hquoted, hlater, hnodup, heq⟩ := ih hdistinct hreading.symm
      refine ⟨rest, later, ?_, by simpa using hlater, hnodup, heq⟩
      rw [htext, hwritten]
      exact .cons (blanks_takeWhile text) hkey hbefore hafter hmark hvalue hquoted

/-- Quoted attributes are read if no key among them and the seen ones occurs twice. -/
theorem readAttributes_complete {attributes : List Attribute}
    (h : Quoted attributes text rest)
    (hdistinct : ((attributes.map Attribute.key).reverse ++ seen.map Prod.fst).Nodup) :
    ∃ later, later.map Prod.fst = (attributes.map Attribute.key).reverse ++ seen.map Prod.fst ∧
      readAttributes size seen text = .prepend attributes (readAttributes size later rest) := by
  induction h generalizing seen with
  | nil => exact ⟨seen, rfl, rfl⟩
  | @cons found attributes blanks before after text rest mark hblanks hkey hbefore hafter hmark
      hvalue _ ih =>
      rw [List.map_cons, List.reverse_cons, List.append_assoc, List.singleton_append] at hdistinct
      have hnew : seen.lookup found.key = none := by
        rw [List.lookup_eq_none_iff]
        intro pair hpair
        have hmem := (List.nodup_cons.mp (List.nodup_append.mp hdistinct).2.1).1
        exact bne_iff_ne.mpr fun heq => hmem (heq ▸ List.mem_map_of_mem hpair)
      obtain ⟨first, name, hfirst⟩ := List.exists_cons_of_ne_nil hkey.nonempty
      rw [hfirst] at hnew ⊢
      have hends : ∀ c ∈ name, endsKey c = false := by simpa [hfirst] using hkey.goes
      have hblank : ¬ isBlank first = true := by simpa [hfirst] using hkey.starts
      have hdrop : (blanks ++ (first :: name ++ (before ++ '=' :: (after ++ mark ::
          (found.value ++ mark :: text))))).dropWhile isBlank =
          first :: (name ++ (before ++ '=' :: (after ++ mark ::
            (found.value ++ mark :: text)))) := by
        rw [List.dropWhile_append_of_pos hblanks, List.cons_append,
          List.dropWhile_cons_of_neg hblank]
      rw [readAttributes_of_read hdrop
        (readAttribute_written hends hbefore hafter hmark hvalue hnew), ← hfirst]
      obtain ⟨later, hlater, hread⟩ := @ih ((found.key, _) :: seen) hdistinct
      refine ⟨later, by simpa using hlater, ?_⟩
      rw [hread]
      rfl

end Steps

/-! ## Readings that start alike -/

namespace Reading

variable {ε α : Type} {first second : List α} {rest other : Reading ε α}

theorem prefix_or_prefix_of_prepend (h : prepend first rest = prepend second other) :
    first <+: second ∨ second <+: first := by
  induction first generalizing second with
  | nil => exact .inl List.nil_prefix
  | cons value first ih =>
      cases second with
      | nil => exact .inr List.nil_prefix
      | cons value' second =>
          rw [prepend_cons, prepend_cons, item.injEq] at h
          obtain ⟨rfl, h⟩ := h
          exact (ih h).imp (List.prefix_cons_inj value).mpr (List.prefix_cons_inj value).mpr

/-- What is left of a reading without a fault has none. -/
theorem exists_of_prepend_eq_done (h : prepend first rest = prepend second .done) :
    ∃ more, second = first ++ more ∧ rest = prepend more .done := by
  induction first generalizing second with
  | nil => exact ⟨second, rfl, h⟩
  | cons value first ih =>
      cases second with
      | nil => cases h
      | cons value' second =>
          rw [prepend_cons, prepend_cons, item.injEq] at h
          obtain ⟨rfl, h⟩ := h
          obtain ⟨more, rfl, hrest⟩ := ih h
          exact ⟨more, rfl, hrest⟩

/-- A reading without a fault has its items only. -/
theorem eq_of_prepend_done (h : (prepend first .done : Reading ε α) = prepend second .done) :
    first = second := by
  obtain ⟨more, rfl, hmore⟩ := exists_of_prepend_eq_done h
  cases more with
  | nil => exact (List.append_nil first).symm
  | cons value more => cases hmore

/-- Behind the same items there is left the same. -/
theorem eq_of_prepend_eq (h : prepend first rest = prepend first other) : rest = other := by
  induction first with
  | nil => exact h
  | cons value first ih => exact ih (item.inj h).2

end Reading

/-! ## Tags -/

namespace Tag

variable {tag : Tag} {attributes : List Attribute} {reading : Reading AttributeFault Attribute}

/-- A tag is well-formed if its attributes are read without a fault. -/
theorem isWellFormed_iff :
    tag.IsWellFormed ↔ ∃ attributes, tag.attributes = .prepend attributes .done := by
  constructor
  · rintro ⟨attributes, blanks, hquoted, hblanks, hdistinct⟩
    have hkeys : ((attributes.map Attribute.key).reverse ++
        ([] : List (List Char × Nat)).map Prod.fst).Nodup := by
      simpa using hdistinct
    obtain ⟨later, -, hread⟩ := readAttributes_complete hquoted hkeys
    rw [readAttributes_eq_done_iff.mpr hblanks] at hread
    exact ⟨attributes, hread⟩
  · rintro ⟨attributes, hread⟩
    obtain ⟨blanks, later, hquoted, hlater, hdistinct, hdone⟩ :=
      readAttributes_sound (by simp) hread
    rw [hlater] at hdistinct
    exact ⟨attributes, blanks, hquoted, readAttributes_eq_done_iff.mp hdone.symm,
      by simpa using hdistinct⟩

/-- A tag with a fault is not well-formed. -/
theorem not_isWellFormed_of_failed {fault : AttributeFault}
    (h : tag.attributes = .prepend attributes (.failed fault)) : ¬ tag.IsWellFormed := by
  intro hformed
  obtain ⟨all, hall⟩ := isWellFormed_iff.mp hformed
  obtain ⟨more, -, hmore⟩ := Reading.exists_of_prepend_eq_done (h.symm.trans hall)
  cases more <;> cases hmore

/-- The text after attributes that were read is without a fault: attributes whose keys are
new, and blanks behind them. -/
def GoesOn (attributes : List Attribute) (unread : List Char) : Prop :=
  ∃ more blanks, Quoted more unread blanks ∧ Blanks blanks ∧
    ((attributes ++ more).map Attribute.key).Nodup

/-- The attributes that are read from the front of a tag are quoted and have different keys.
The tag is well-formed if there is no fault behind them. -/
theorem exists_unread (h : tag.attributes = .prepend attributes reading) :
    ∃ unread, Quoted attributes tag.tail unread ∧ (attributes.map Attribute.key).Nodup ∧
      (tag.IsWellFormed ↔ GoesOn attributes unread) := by
  obtain ⟨unread, later, hquoted, hlater, hdistinct, hreading⟩ :=
    readAttributes_sound (by simp) h
  refine ⟨unread, hquoted, ?_, ?_⟩
  · rw [hlater] at hdistinct
    simpa using hdistinct
  · constructor
    · intro hformed
      obtain ⟨all, hall⟩ := isWellFormed_iff.mp hformed
      obtain ⟨more, rfl, hmore⟩ := Reading.exists_of_prepend_eq_done (h.symm.trans hall)
      obtain ⟨blanks, last, hquoted', hlast, hdistinct', hdone⟩ :=
        readAttributes_sound hdistinct (hreading.symm.trans hmore)
      refine ⟨more, blanks, hquoted', readAttributes_eq_done_iff.mp hdone.symm, ?_⟩
      rw [hlast, hlater, List.map_nil, List.append_nil, ← List.reverse_append,
        List.nodup_reverse] at hdistinct'
      rwa [List.map_append]
    · rintro ⟨more, blanks, hmore, hblanks, hnodup⟩
      exact ⟨attributes ++ more, blanks, hquoted.append hmore, hblanks, hnodup⟩

end Tag

end Xml

end OverlayManifest
