/-
# Attributes that are looked up

A reader of declarations or of listed items looks attributes up by their keys, from the front
of a tag. A tag that gives a resource was therefore read without a fault up to the last
attribute that was looked up in it. What follows is not read, and a document with a fault
there is accepted.
-/

import OverlayManifest.Proofs.QuotedAttributes
import OverlayManifest.Proofs.ReadingSteps

namespace OverlayManifest

namespace Xml.Tag

variable {reading : Reading AttributeFault Attribute}

/-- Attributes among which some are looked up, the last one as well. -/
structure Covers (attributes : List Attribute) (texts : List (String × String)) : Prop where
  found : ∀ pair ∈ texts, ∃ found ∈ attributes, found.key = pair.1.toList ∧
    unescape found.value = .ok pair.2.toList
  last : ∃ found ∈ attributes.getLast?, ∃ pair ∈ texts, found.key = pair.1.toList

/-- The attribute that is looked up stands behind attributes that were read. -/
theorem exists_of_find? {key : List Char} {value : String}
    (h : find? key reading = .ok (some value)) : ∃ before found rest,
      reading = .prepend (before ++ [found]) rest ∧ found.key = key ∧
        unescape found.value = .ok value.toList := by
  induction reading with
  | done => cases h
  | failed fault => cases h
  | item first rest ih =>
      rw [find?] at h
      split at h
      · rename_i hkey
        split at h
        · rename_i text htext
          cases h
          exact ⟨[], first, rest, rfl, hkey, by rw [htext, String.toList_ofList]⟩
        · cases h
      · obtain ⟨before, found, rest', rfl, hfound⟩ := ih h
        exact ⟨first :: before, found, rest', rfl, hfound⟩

/-- Where several attributes are looked up, those up to the last of them are read. -/
theorem exists_covers {texts : List (String × String)} (hsome : texts ≠ [])
    (h : ∀ pair ∈ texts, find? pair.1.toList reading = .ok (some pair.2)) :
    ∃ attributes rest, reading = .prepend attributes rest ∧ Covers attributes texts := by
  induction texts with
  | nil => exact absurd rfl hsome
  | cons pair texts ih =>
      obtain ⟨before, found, rest, hread, hkey, hvalue⟩ :=
        exists_of_find? (h pair List.mem_cons_self)
      have hself : found ∈ before ++ [found] := by simp
      have hlast : found ∈ (before ++ [found]).getLast? := by simp
      rcases eq_or_ne texts [] with rfl | hmore
      · refine ⟨_, rest, hread, ⟨fun other hother => ?_, found, hlast, pair, by simp, hkey⟩⟩
        rw [List.mem_singleton.mp hother]
        exact ⟨found, hself, hkey, hvalue⟩
      · obtain ⟨attributes, rest', hread', hcovers⟩ :=
          ih hmore fun other hother => h other (List.mem_cons_of_mem _ hother)
        -- whichever attribute stands further behind, the others are before it
        rcases Reading.prefix_or_prefix_of_prepend (hread.symm.trans hread') with hle | hle
        · obtain ⟨other, hother, pair', hpair', hkey'⟩ := hcovers.last
          refine ⟨attributes, rest', hread', ⟨?_, other, hother, pair',
            List.mem_cons_of_mem _ hpair', hkey'⟩⟩
          exact List.forall_mem_cons.mpr
            ⟨⟨found, hle.subset hself, hkey, hvalue⟩, hcovers.found⟩
        · refine ⟨_, rest, hread, ⟨?_, found, hlast, pair, List.mem_cons_self, hkey⟩⟩
          refine List.forall_mem_cons.mpr ⟨⟨found, hself, hkey, hvalue⟩, fun other hother => ?_⟩
          obtain ⟨held, hmem, hheld⟩ := hcovers.found other hother
          exact ⟨held, hle.subset hmem, hheld⟩

end Xml.Tag

namespace Document

open Xml

/-! ## Tags that give resources -/

/-- The tag that a token is, unless it is a closing one. -/
def tag? : Token → Option Tag
  | .opening tag | .single tag => some tag
  | .closing _ => none

/-- The keys that are looked up in a tag that gives a resource, with the texts found there. -/
def lookups (tag : Tag) (resource : Resource) : List (String × String) :=
  (if String.ofList tag.name = "item" then [("type", resource.type)] else []) ++
    [("name", resource.name)]

/-- A tag was read up to the last attribute that is looked up for a resource. The attributes up
to there are quoted, have different keys and hold the resource, and the tag is well-formed
exactly if there is no fault behind them. -/
structure HeldIn (tag : Tag) (resource : Resource) (attributes : List Attribute)
    (unread : List Char) : Prop where
  quoted : Quoted attributes tag.tail unread
  distinct : (attributes.map Attribute.key).Nodup
  covers : Tag.Covers attributes (lookups tag resource)
  isWellFormed_iff : tag.IsWellFormed ↔ Tag.GoesOn attributes unread

/-- A token is a tag that gives a resource. -/
def Gives (token : Token) (resource : Resource) : Prop :=
  ∃ tag attributes unread, tag? token = some tag ∧ HeldIn tag resource attributes unread

/-- A tag gives the resource whose parts are found where they are looked up. -/
theorem gives_of_lookups {token : Token} {tag : Tag} {resource : Resource}
    (htag : tag? token = some tag)
    (h : ∀ pair ∈ lookups tag resource, required tag pair.1 = .ok pair.2) :
    Gives token resource := by
  have hfind : ∀ pair ∈ lookups tag resource,
      Tag.find? pair.1.toList tag.attributes = .ok (some pair.2) := fun pair hpair => by
    have hrequired := h pair hpair
    rw [required] at hrequired
    split at hrequired
    · cases hrequired
    · cases hrequired
    · rename_i value hvalue
      cases hrequired
      exact hvalue
  obtain ⟨attributes, rest, hread, hcovers⟩ := Tag.exists_covers (by simp [lookups]) hfind
  obtain ⟨unread, hquoted, hdistinct, hformed⟩ := Tag.exists_unread hread
  exact ⟨tag, attributes, unread, htag, hquoted, hdistinct, hcovers, hformed⟩

/-- Where a reader takes one token after the other, the tokens that give it resources, each
with its own. -/
def givers {σ : Type} (step : σ → Token → Except Fault (Option Resource × σ)) (state : σ) :
    Reading Xml.Fault Token → List (Token × Resource)
  | .done | .failed _ => []
  | .item token rest =>
      match step state token with
      | .error _ => []
      | .ok (given, after) => given.toList.map (token, ·) ++ givers step after rest

/-- A reader takes one token after the other: a token is a fault, or it may give a resource,
and the rest is read in the state that the token leaves. -/
structure ReadsBySteps {σ : Type} (step : σ → Token → Except Fault (Option Resource × σ))
    (readFrom : σ → Reading Xml.Fault Token → Except Fault (List Resource)) : Prop where
  done : ∀ state found, readFrom state .done = .ok found → found = []
  failed : ∀ state cause, ∃ fault, readFrom state (.failed cause) = .error fault
  item : ∀ state token rest, readFrom state (.item token rest) =
    step state token >>= fun stepped => (readFrom stepped.2 rest).map (stepped.1.toList ++ ·)
  gives : ∀ state token resource after, step state token = .ok (some resource, after) →
    Gives token resource

namespace ReadsBySteps

variable {σ : Type} {step : σ → Token → Except Fault (Option Resource × σ)}
  {readFrom : σ → Reading Xml.Fault Token → Except Fault (List Resource)} {state : σ}
  {reading : Reading Xml.Fault Token}

/-- What a reader accepts gives just the resources of the tokens that give some. -/
theorem map_snd_givers (h : ReadsBySteps step readFrom) {resources : List Resource}
    (hread : readFrom state reading = .ok resources) :
    (givers step state reading).map Prod.snd = resources := by
  induction reading generalizing state resources with
  | done => rw [h.done state resources hread, givers, List.map_nil]
  | failed cause =>
      obtain ⟨fault, hfault⟩ := h.failed state cause
      rw [hfault] at hread
      cases hread
  | item token rest ih =>
      rw [h.item] at hread
      obtain ⟨⟨given, after⟩, hstep, hrest⟩ := bind_eq_ok_iff.mp hread
      obtain ⟨others, hothers, rfl⟩ := map_eq_ok_iff.mp hrest
      simp [givers, hstep, ih hothers, Function.comp_def]

/-- Each of these tokens gives the resource that it is listed with. -/
theorem gives_of_mem (h : ReadsBySteps step readFrom) {giver : Token × Resource}
    (hmem : giver ∈ givers step state reading) : Gives giver.1 giver.2 := by
  induction reading generalizing state with
  | done => cases hmem
  | failed cause => cases hmem
  | item token rest ih =>
      rw [givers] at hmem
      split at hmem
      · cases hmem
      · rename_i given after hstep
        rcases List.mem_append.mp hmem with hfirst | hlater
        · obtain ⟨resource, hresource, rfl⟩ := List.mem_map.mp hfirst
          rw [Option.mem_toList] at hresource
          rw [hresource] at hstep
          exact h.gives state token resource after hstep
        · exact ih hlater

end ReadsBySteps

namespace Values

/-- The tags of a values document that declare resources, each with its resource. -/
def declarers (text : String) : List (Token × Resource) := givers step .start (Xml.read text)

theorem lookups_of_declaration? {tag : Tag} {resource : Resource}
    (h : declaration? tag = .ok (some resource)) :
    ∀ pair ∈ lookups tag resource, required tag pair.1 = .ok pair.2 := by
  rw [declaration?] at h
  split at h
  · cases h
  · obtain ⟨type, htype, h⟩ := bind_eq_ok_iff.mp h
    obtain ⟨name, hname, h⟩ := bind_eq_ok_iff.mp h
    cases h
    intro pair hpair
    rcases List.mem_append.mp hpair with hpair | hpair
    · split at hpair
      · rename_i hitem
        rw [declaredType, hitem] at htype
        rw [List.mem_singleton.mp hpair]
        exact htype
      · cases hpair
    · rw [List.mem_singleton.mp hpair]
      exact hname

theorem lookups_of_styleableAttribute? {tag : Tag} {resource : Resource}
    (h : styleableAttribute? tag = .ok (some resource)) :
    ∀ pair ∈ lookups tag resource, required tag pair.1 = .ok pair.2 := by
  rw [styleableAttribute?] at h
  split at h
  · rename_i hattr
    obtain ⟨name, hname, h⟩ := bind_eq_ok_iff.mp h
    have hresource : resource = ⟨"attr", name⟩ := by
      split at h
      · cases h
      · cases h
        rfl
    intro pair hpair
    rw [lookups, hattr, if_neg (by decide), List.nil_append, List.mem_singleton] at hpair
    rw [hpair, hresource]
    exact hname
  · cases h

/-- A tag that declares a resource holds it in the attributes that are looked up. -/
theorem lookups_of_enter {state after : State} {tag : Tag} {single : Bool} {resource : Resource}
    (h : state.enter tag single = .ok (some resource, after)) :
    ∀ pair ∈ lookups tag resource, required tag pair.1 = .ok pair.2 := by
  unfold State.enter at h
  split at h
  · split at h <;> cases h
  · obtain ⟨declared, hdeclared, h⟩ := bind_eq_ok_iff.mp h
    cases declared with
    | none => cases h
    | some other =>
        cases h
        exact lookups_of_declaration? hdeclared
  · split at h
    · obtain ⟨declared, hdeclared, h⟩ := bind_eq_ok_iff.mp h
      cases h
      exact lookups_of_styleableAttribute? hdeclared
    · cases h
  · cases h

theorem readsBySteps : ReadsBySteps step readFrom where
  done state found h := by
    rw [readFrom] at h
    split at h
    · cases h
    · split at h <;> cases h
      rfl
  failed state cause := ⟨.malformed cause, rfl⟩
  item := readFrom_item
  gives state token resource after h := by
    cases token with
    | opening tag =>
        obtain ⟨⟨declared, inside⟩, henter, heq⟩ := map_eq_ok_iff.mp h
        cases heq
        exact gives_of_lookups rfl (lookups_of_enter henter)
    | single tag => exact gives_of_lookups rfl (lookups_of_enter h)
    | closing text => cases h

end Values

namespace Listing

/-- The tags of a listing that list resources, each with its resource. -/
def listers (text : String) : List (Token × Resource) := givers step .start (Xml.read text)

/-- A tag that lists a resource holds it in the attributes that are looked up. -/
theorem lookups_of_listed? {state : State} {tag : Tag} {resource : Resource}
    (h : listed? state tag = .ok (some resource)) :
    ∀ pair ∈ lookups tag resource, required tag pair.1 = .ok pair.2 := by
  obtain ⟨-, -, h⟩ := bind_eq_ok_iff.mp h
  split at h
  · rename_i hitem
    obtain ⟨type, htype, h⟩ := bind_eq_ok_iff.mp h
    obtain ⟨name, hname, h⟩ := bind_eq_ok_iff.mp h
    cases h
    simp [lookups, hitem.1, htype, hname]
  · cases h

theorem readsBySteps : ReadsBySteps step readFrom where
  done state found h := by
    rw [readFrom] at h
    split at h
    · cases h
    · split at h <;> cases h
      rfl
  failed state cause := ⟨.malformed cause, rfl⟩
  item := readFrom_item
  gives state token resource after h := by
    cases token with
    | opening tag | single tag =>
        obtain ⟨found, hlisted, heq⟩ := map_eq_ok_iff.mp h
        cases heq
        exact gives_of_lookups rfl (lookups_of_listed? hlisted)
    | closing text => cases h

end Listing

/-! ## What is accepted -/

/-- A values document or a listing that is accepted gives just the resources of its tags that
give some. Each of these tags holds its resource in attributes that are quoted and have
different keys, up to the last one that is looked up; the tag as a whole is well-formed exactly
if there is no fault behind that one. -/
theorem gives_of_read {text : String} {resources : List Resource} :
    (Values.read text = .ok resources →
      (Values.declarers text).map Prod.snd = resources ∧
        ∀ giver ∈ Values.declarers text, Gives giver.1 giver.2) ∧
    (Listing.read text = .ok resources →
      (Listing.listers text).map Prod.snd = resources ∧
        ∀ giver ∈ Listing.listers text, Gives giver.1 giver.2) :=
  ⟨fun h => ⟨Values.readsBySteps.map_snd_givers h, fun _ => Values.readsBySteps.gives_of_mem⟩,
    fun h => ⟨Listing.readsBySteps.map_snd_givers h, fun _ => Listing.readsBySteps.gives_of_mem⟩⟩

/-- A values document with a second name and a listing with a key that has no value, each behind
what is looked up. -/
theorem gives_of_read_unnoticed :
    let values := "<resources><string name='a' name='b'/><item name='c' type='d'/></resources>"
    let listing := "<resources><overlayable><policy><item type='c' name='d' e/></policy>" ++
      "</overlayable></resources>"
    (Values.read values = .ok [⟨"string", "a"⟩, ⟨"d", "c"⟩] ∧
      ∀ giver ∈ Values.declarers values, Gives giver.1 giver.2) ∧
    (Listing.read listing = .ok [⟨"c", "d"⟩] ∧
      ∀ giver ∈ Listing.listers listing, Gives giver.1 giver.2) := by
  intro values listing
  have hvalues : Values.read values = .ok [⟨"string", "a"⟩, ⟨"d", "c"⟩] := by decide +kernel
  have hlisting : Listing.read listing = .ok [⟨"c", "d"⟩] := by decide +kernel
  exact ⟨⟨hvalues, (gives_of_read.1 hvalues).2⟩, hlisting, (gives_of_read.2 hlisting).2⟩

/-- A tag with a fault that is behind the name declares or lists its resource all the same: a
second name, and a key without a value. -/
theorem not_isWellFormed_of_given :
    let twice : Tag := ⟨"string".toList, " name='a' name='b'".toList⟩
    let bare : Tag := ⟨"item".toList, " type='c' name='d' e".toList⟩
    let values := "<resources><string name='a' name='b'/></resources>"
    let listing := "<resources><overlayable><policy><item type='c' name='d' e/></policy>" ++
      "</overlayable></resources>"
    (Values.read values = .ok [⟨"string", "a"⟩] ∧
      Values.declarers values = [(.single twice, ⟨"string", "a"⟩)] ∧ ¬ twice.IsWellFormed) ∧
    (Listing.read listing = .ok [⟨"c", "d"⟩] ∧
      Listing.listers listing = [(.single bare, ⟨"c", "d"⟩)] ∧ ¬ bare.IsWellFormed) := by
  intro twice bare values listing
  have htwice : twice.attributes =
      .prepend [⟨"name".toList, "a".toList⟩] (.failed (.duplicated 16 7)) := by decide +kernel
  have hbare : bare.attributes = .prepend [⟨"type".toList, "c".toList⟩, ⟨"name".toList, "d".toList⟩]
      (.failed (.expectedEquals 24)) := by decide +kernel
  refine ⟨⟨by decide +kernel, by decide +kernel, Tag.not_isWellFormed_of_failed htwice⟩,
    by decide +kernel, by decide +kernel, Tag.not_isWellFormed_of_failed hbare⟩

end Document

end OverlayManifest
