/-
# Truncated documents that create ids

A document that creates ids needs no root, so its text may hold elements one beside the other,
and it may hold none. If such a text is cut off between two of them, what is left is accepted: it
creates the ids of the elements before the cut, and the ids of those behind it are lost. No other
cut is accepted. Of a document with one root a cut therefore loses all ids or none: all of them
only if it leaves no tag at all.
-/

import OverlayManifest.Proofs.Outlines
import OverlayManifest.Proofs.Truncation

namespace OverlayManifest

namespace Xml

/-! ## Elements beside each other -/

/-- The tokens of elements that stand one beside the other. -/
inductive AreElements : List Token → Prop
  | nil : AreElements []
  | cons {name : String} {first rest : List Token} (hfirst : IsElement name first)
      (hrest : AreElements rest) : AreElements (first ++ rest)

/-- An element leaves none open. -/
theorem IsElement.balanced {name : String} {tokens : List Token} (h : IsElement name tokens) :
    Balanced tokens := by
  cases h with
  | single => exact .single _
  | around hname hinner hclosing => exact hinner.element hclosing

theorem AreElements.balanced {tokens : List Token} (h : AreElements tokens) :
    Balanced tokens := by
  induction h with
  | nil => exact .nil
  | cons hfirst _ ih => exact hfirst.balanced.append ih

/-- What is open outside of where some tokens were read stays open behind them. -/
theorem openAfter_append {path : List (List Char)} {reading rest : Reading Fault Token}
    {taken : List Token} (h : nested path reading = .prepend taken rest)
    (outer : List (List Char)) :
    openAfter (path ++ outer) taken = openAfter path taken ++ outer := by
  induction taken generalizing path reading with
  | nil => rfl
  | cons token taken ih =>
      obtain ⟨hinside, -, unread, hlater⟩ := nested_eq_item h
      have hfirst : openAfter (path ++ outer) [token] = openAfter path [token] ++ outer := by
        cases token with
        | opening tag => rfl
        | single tag => rfl
        | closing text => exact List.tail_append_of_ne_nil (hinside text rfl)
      rw [openAfter_cons, hfirst, ih hlater, ← openAfter_cons]

/-- Balanced tokens leave no element open. -/
theorem Balanced.openAfter_eq {tokens : List Token} (h : Balanced tokens) :
    openAfter [] tokens = [] := by
  -- A closing tag with a blank behind its name is another fault inside an element than outside.
  have hother := (nested_of_prepend (h [] .done)).2 (.item (.closing ['x', ' ']) .done)
  rw [h] at hother
  have hsame := Reading.eq_of_prepend_eq hother
  cases hopen : openAfter [] tokens with
  | nil => rfl
  | cons name outer =>
      rw [hopen, nested, nested] at hsame
      split at hsame
      · cases hsame
      · have hclosing : closingName ['x', ' '] = ['x'] := by decide
        rw [hclosing] at hsame
        cases hsame

/-- Elements that stand at the start of one element are all of it, or there are none. -/
theorem IsElement.eq_nil_or_eq_nil {name : String} {before after : List Token}
    (h : IsElement name (before ++ after)) (hbefore : AreElements before) :
    before = [] ∨ after = [] := by
  generalize hall : before ++ after = all at h
  cases before with
  | nil => exact .inl rfl
  | cons token before =>
      obtain ⟨hname⟩ | @⟨tag, inner, closing, hname, hinner, hclosing⟩ := h
      · obtain ⟨-, hrest⟩ := List.cons.inj hall
        exact .inr (List.append_eq_nil_iff.mp hrest).2
      · obtain ⟨rfl, hrest⟩ := List.cons.inj hall
        rcases List.eq_nil_or_concat after with rfl | ⟨late, last, rfl⟩
        · exact .inr rfl
        · have hrest : before ++ late ++ [last] = inner ++ [.closing closing] := by
            rw [← hrest, List.concat_eq_append, List.append_assoc]
            rfl
          obtain ⟨rfl, -⟩ := List.append_inj' hrest rfl
          have hread : nested [] (.prepend (before ++ late) .done) =
              .prepend before (.prepend late .done) := by
            rw [hinner, Reading.prepend_append]
            rfl
          have hopen : openAfter [tag.name] before = openAfter [] before ++ [tag.name] :=
            openAfter_append hread [tag.name]
          have hnone : openAfter [tag.name] before = [] := hbefore.balanced.openAfter_eq
          simp [hnone] at hopen

/-! ## The tags of a text that is cut off -/

/-- A token without the text of a closing tag. -/
def Token.bare : Token → Token
  | .closing _ => .closing []
  | token => token

/-- A text that is cut off has the first tags of the whole text, if nothing is wrong with
either. -/
theorem CutOff.exists_append {cut whole : Reading Fault Token} (h : CutOff cut whole)
    {tokens all : List Token} (hcut : cut = .prepend tokens .done)
    (hwhole : whole = .prepend all .done) :
    ∃ before after, all = before ++ after ∧ tokens.map Token.bare = before.map Token.bare := by
  induction h generalizing tokens all with
  | ended =>
      cases tokens with
      | nil => exact ⟨[], all, rfl, rfl⟩
      | cons token tokens => cases hcut
  | failed => cases tokens <;> cases hcut
  | wholeFailed => cases all <;> cases hwhole
  | closing =>
      cases tokens with
      | nil => cases hcut
      | cons token tokens =>
          cases all with
          | nil => cases hwhole
          | cons first all =>
              obtain ⟨rfl, hcut⟩ := Reading.item.inj hcut
              obtain ⟨rfl, -⟩ := Reading.item.inj hwhole
              cases tokens with
              | nil => exact ⟨[_], all, rfl, rfl⟩
              | cons token tokens => cases hcut
  | item _ ih =>
      cases tokens with
      | nil => cases hcut
      | cons token tokens =>
          cases all with
          | nil => cases hwhole
          | cons first all =>
              obtain ⟨rfl, htokens⟩ := Reading.item.inj hcut
              obtain ⟨rfl, hall⟩ := Reading.item.inj hwhole
              obtain ⟨before, after, rfl, hbare⟩ := ih htokens hall
              exact ⟨_ :: before, after, rfl, congrArg (Token.bare _ :: ·) hbare⟩

end Xml

namespace Document.Ids

open Xml

/-! ## The reader, tag by tag -/

/-- The ids that a token creates. -/
def own : Token → Except Fault (List Resource)
  | .opening tag | .single tag => created tag.attributes
  | .closing _ => .ok []

/-- The number of open elements behind a token. -/
def depthBehind (depth : Nat) : Token → Nat
  | .opening _ => depth + 1
  | .single _ => depth
  | .closing _ => depth - 1

/-- A document creates the ids of its first token, and after them those of the others. -/
theorem readFrom_item (depth : Nat) (token : Token) (rest : Reading Xml.Fault Token) :
    readFrom depth (.item token rest) =
      followedBy (own token) (readFrom (depthBehind depth token) rest) := by
  cases token with
  | opening tag => rfl
  | single tag => rfl
  | closing text => exact (nil_followedBy _).symm

/-- The texts of closing tags do not matter. -/
theorem readFrom_bare (depth : Nat) (tokens : List Token) (rest : Reading Xml.Fault Token) :
    readFrom depth (.prepend (tokens.map Token.bare) rest) =
      readFrom depth (.prepend tokens rest) := by
  induction tokens generalizing depth with
  | nil => rfl
  | cons token tokens ih =>
      have hown : own token.bare = own token := by cases token <;> rfl
      have hdepth : depthBehind depth token.bare = depthBehind depth token := by
        cases token <;> rfl
      rw [List.map_cons, Reading.prepend_cons, Reading.prepend_cons, readFrom_item,
        readFrom_item, hown, hdepth, ih]

/-- Nothing is wrong with the markup of a document that is accepted. -/
theorem exists_prepend_of_readFrom {depth : Nat} {reading : Reading Xml.Fault Token}
    {ids : List Resource} (h : readFrom depth reading = .ok ids) :
    ∃ tokens, reading = .prepend tokens .done := by
  induction reading generalizing depth ids with
  | done => exact ⟨[], rfl⟩
  | failed cause => cases h
  | item token rest ih =>
      rw [readFrom_item] at h
      obtain ⟨found, -, hrest⟩ := bind_eq_ok_iff.mp h
      obtain ⟨others, hothers, -⟩ := bind_eq_ok_iff.mp hrest
      obtain ⟨tokens, rfl⟩ := ih hothers
      exact ⟨token :: tokens, rfl⟩

/-- The reader counts the elements that are open behind some tokens. -/
theorem foldl_depthBehind {path : List (List Char)} {reading rest : Reading Xml.Fault Token}
    {tokens : List Token} (h : nested path reading = .prepend tokens rest) :
    tokens.foldl depthBehind path.length = (openAfter path tokens).length := by
  induction tokens generalizing path reading with
  | nil => rfl
  | cons token tokens ih =>
      obtain ⟨-, -, unread, hlater⟩ := nested_eq_item h
      have hfirst : depthBehind path.length token = (openAfter path [token]).length := by
        cases token with
        | opening tag => rfl
        | single tag => rfl
        | closing text => exact (List.length_tail).symm
      rw [List.foldl_cons, hfirst, ih hlater, ← openAfter_cons]

/-- Behind elements no element is open. -/
theorem foldl_depthBehind_eq_zero {tokens : List Token} (h : AreElements tokens) :
    tokens.foldl depthBehind 0 = 0 := by
  have hcount := foldl_depthBehind (h.balanced [] .done)
  rwa [h.balanced.openAfter_eq] at hcount

/-- Tokens that leave no element open are accepted by themselves where more is accepted. -/
theorem exists_found_of_readFrom {depth : Nat} {tokens : List Token}
    {rest : Reading Xml.Fault Token} {all : List Resource}
    (hdepth : tokens.foldl depthBehind depth = 0)
    (h : readFrom depth (.prepend tokens rest) = .ok all) :
    ∃ found others, readFrom depth (.prepend tokens .done) = .ok found ∧
      readFrom 0 rest = .ok others ∧ all = found ++ others := by
  induction tokens generalizing depth all with
  | nil =>
      rw [List.foldl_nil] at hdepth
      subst hdepth
      exact ⟨[], all, rfl, h, rfl⟩
  | cons token tokens ih =>
      rw [Reading.prepend_cons, readFrom_item] at h
      obtain ⟨ids, hown, hrest⟩ := bind_eq_ok_iff.mp h
      obtain ⟨later, hlater, hall⟩ := bind_eq_ok_iff.mp hrest
      cases hall
      obtain ⟨found, others, hfound, hothers, rfl⟩ := ih hdepth hlater
      refine ⟨ids ++ found, others, ?_, hothers, (List.append_assoc _ _ _).symm⟩
      rw [Reading.prepend_cons, readFrom_item, hown, hfound]
      rfl

/-- A document that is accepted closes the open elements, and has whole elements behind them. -/
theorem closes_of_readFrom {path : List (List Char)} {reading : Reading Xml.Fault Token}
    {ids : List Resource} (h : readFrom path.length (nested path reading) = .ok ids) :
    ∃ tokens more, nested path reading = .prepend (tokens ++ more) .done ∧
      Closes path tokens ∧ AreElements more := by
  induction reading generalizing path ids with
  | done =>
      cases path with
      | nil => exact ⟨[], [], rfl, .nil, .nil⟩
      | cons name outer => cases h
  | failed cause => cases h
  | item token reading ih =>
      cases token with
      | opening tag =>
          rw [nested, readFrom_item] at h
          obtain ⟨found, -, hrest⟩ := bind_eq_ok_iff.mp h
          obtain ⟨others, hothers, -⟩ := bind_eq_ok_iff.mp hrest
          obtain ⟨tokens, more, hread, hcloses, hmore⟩ := @ih (tag.name :: path) others hothers
          cases path with
          | nil =>
              -- The tokens close the element that is opened here.
              cases hcloses with
              | @cons _ closing _ inner _ hinner hclosing hclosed =>
                  cases hclosed
                  refine ⟨[], .opening tag :: (inner ++ [.closing closing]) ++ more, ?_, .nil,
                    .cons (.around rfl hinner hclosing) hmore⟩
                  rw [nested, hread]
                  rfl
          | cons name outer =>
              refine ⟨.opening tag :: tokens, more, ?_, hcloses.opening, hmore⟩
              rw [nested, hread]
              rfl
      | single tag =>
          rw [nested, readFrom_item] at h
          obtain ⟨found, -, hrest⟩ := bind_eq_ok_iff.mp h
          obtain ⟨others, hothers, -⟩ := bind_eq_ok_iff.mp hrest
          obtain ⟨tokens, more, hread, hcloses, hmore⟩ := ih hothers
          cases path with
          | nil =>
              cases hcloses
              refine ⟨[], [.single tag] ++ more, ?_, .nil, .cons (.single rfl) hmore⟩
              rw [nested, hread]
              rfl
          | cons name outer =>
              refine ⟨.single tag :: tokens, more, ?_, hcloses.balanced_append (.single tag),
                hmore⟩
              rw [nested, hread]
              rfl
      | closing text =>
          cases path with
          | nil => cases h
          | cons name outer =>
              rw [nested] at h
              split at h
              · rename_i hname
                obtain ⟨tokens, more, hread, hcloses, hmore⟩ := @ih outer ids h
                refine ⟨.closing text :: tokens, more, ?_, Closes.cons .nil hname hcloses, hmore⟩
                rw [nested, if_pos hname, hread]
                rfl
              · cases h

/-- The tokens of a document that is accepted are those of elements. -/
theorem areElements_of_readFrom {reading : Reading Xml.Fault Token} {tokens : List Token}
    {ids : List Resource} (hread : nested [] reading = .prepend tokens .done)
    (h : readFrom 0 (.prepend tokens .done) = .ok ids) : AreElements tokens := by
  rw [← hread] at h
  obtain ⟨closing, more, hmore, hcloses, helements⟩ := @closes_of_readFrom [] reading ids h
  cases hcloses
  rw [hread] at hmore
  rwa [Reading.eq_of_prepend_done hmore]

/-! ## Texts that are cut off -/

/-- The tags of a text stop between two outer elements of the whole text. -/
structure StopsBetween (cut whole : String) (before after : List Token) : Prop where
  cut_eq : ∃ tokens, Xml.read cut = .prepend tokens .done ∧
    tokens.map Token.bare = before.map Token.bare
  whole_eq : Xml.read whole = .prepend (before ++ after) .done
  before_elements : AreElements before
  after_elements : AreElements after

/-- A text that is cut off and accepted stops between outer elements. -/
theorem exists_stopsBetween {cut whole : String} (hcut : cut.toList <+: whole.toList)
    {found all : List Resource} (hfound : read cut = .ok found) (hall : read whole = .ok all) :
    ∃ before after, StopsBetween cut whole before after := by
  obtain ⟨tokens, htokens⟩ := exists_prepend_of_readFrom hfound
  obtain ⟨wholeTokens, hwhole⟩ := exists_prepend_of_readFrom hall
  obtain ⟨before, after, rfl, hbare⟩ := (cutOff_read hcut).exists_append htokens hwhole
  have hbefore : readFrom 0 (.prepend before .done) = .ok found := by
    rw [← readFrom_bare, ← hbare, readFrom_bare, ← htokens]
    exact hfound
  have hparts : Xml.read whole = .prepend before (.prepend after .done) := by
    rw [hwhole, Reading.prepend_append]
  obtain ⟨⟨unread, hunread⟩, hother⟩ := nested_of_prepend hparts
  have helements : AreElements before := areElements_of_readFrom (hother .done) hbefore
  rw [helements.balanced.openAfter_eq] at hunread
  rw [read, hparts] at hall
  obtain ⟨-, lost, -, hlost, -⟩ :=
    exists_found_of_readFrom (foldl_depthBehind_eq_zero helements) hall
  exact ⟨before, after, ⟨tokens, htokens, hbare⟩, hwhole, helements,
    areElements_of_readFrom hunread.symm hlost⟩

/-- A text that stops between outer elements creates the ids of those before the cut. -/
theorem StopsBetween.exists_found {cut whole : String} {before after : List Token}
    (h : StopsBetween cut whole before after) {all : List Resource} (hall : read whole = .ok all) :
    ∃ found lost, read cut = .ok found ∧ readFrom 0 (.prepend after .done) = .ok lost ∧
      all = found ++ lost := by
  obtain ⟨tokens, htokens, hbare⟩ := h.cut_eq
  have hparts : Xml.read whole = .prepend before (.prepend after .done) := by
    rw [h.whole_eq, Reading.prepend_append]
  rw [read, hparts] at hall
  obtain ⟨found, lost, hfound, hlost, hsum⟩ :=
    exists_found_of_readFrom (foldl_depthBehind_eq_zero h.before_elements) hall
  rw [← readFrom_bare, ← hbare, readFrom_bare, ← htokens] at hfound
  exact ⟨found, lost, hfound, hlost, hsum⟩

/-- A text that is cut off is accepted only if it stops between outer elements of the whole
text. It then lacks the ids of those behind the cut, and these only. Where the whole text is one
element, the cut leaves all of it or no tag. -/
theorem read_truncated {cut whole : String} (hcut : cut.toList <+: whole.toList)
    {all : List Resource} (hall : read whole = .ok all) :
    ((∃ found, read cut = .ok found) ↔ ∃ before after, StopsBetween cut whole before after) ∧
      ∀ before after, StopsBetween cut whole before after →
        (∃ found lost, read cut = .ok found ∧ readFrom 0 (.prepend after .done) = .ok lost ∧
          all = found ++ lost) ∧
        ∀ name, IsElement name (before ++ after) → before = [] ∨ after = [] := by
  refine ⟨⟨?_, ?_⟩, fun before after hstops => ⟨hstops.exists_found hall, fun name hroot => ?_⟩⟩
  · rintro ⟨found, hfound⟩
    exact exists_stopsBetween hcut hfound hall
  · rintro ⟨before, after, hstops⟩
    obtain ⟨found, lost, hfound, -⟩ := hstops.exists_found hall
    exact ⟨found, hfound⟩
  · exact hroot.eq_nil_or_eq_nil hstops.before_elements

/-- Of two elements beside each other the second is cut off, and its id is lost. -/
theorem read_truncated_twoElements : ∃ before after lost,
    StopsBetween "<a b='@+id/c'/>" "<a b='@+id/c'/><d e='@+id/f'/>" before after ∧
      read "<a b='@+id/c'/><d e='@+id/f'/>" = .ok [⟨"id", "c"⟩, ⟨"id", "f"⟩] ∧
      read "<a b='@+id/c'/>" = .ok [⟨"id", "c"⟩] ∧
      readFrom 0 (.prepend after .done) = .ok lost ∧ lost = [⟨"id", "f"⟩] := by
  have hcut : "<a b='@+id/c'/>".toList <+: "<a b='@+id/c'/><d e='@+id/f'/>".toList := by decide
  have hall : read "<a b='@+id/c'/><d e='@+id/f'/>" = .ok [⟨"id", "c"⟩, ⟨"id", "f"⟩] := by
    decide +kernel
  have hleft : read "<a b='@+id/c'/>" = .ok [⟨"id", "c"⟩] := by decide +kernel
  obtain ⟨haccepted, hlacks⟩ := read_truncated hcut hall
  obtain ⟨before, after, hstops⟩ := haccepted.mp ⟨_, hleft⟩
  obtain ⟨found, lost, hfound, hlost, hsum⟩ := (hlacks before after hstops).1
  cases hleft.symm.trans hfound
  exact ⟨before, after, lost, hstops, hall, hleft, hlost, (List.cons.inj hsum).2.symm⟩

/-- A document of which nothing is left is accepted as well, without its id. -/
theorem not_same_of_truncated :
    ¬ ∀ (cut whole : String) (ids : List Resource), cut.toList <+: whole.toList →
      read whole = .ok ids → (∃ fault, read cut = .error fault) ∨ read cut = .ok ids := by
  intro hsame
  have hwhole : read "<a b='@+id/c'/>" = .ok [⟨"id", "c"⟩] := by decide +kernel
  have hcut : read "" = .ok [] := by decide +kernel
  rcases hsame "" _ _ (List.nil_prefix) hwhole with ⟨fault, hfault⟩ | hids
  · rw [hcut] at hfault
    cases hfault
  · rw [hcut] at hids
    cases hids

end Document.Ids

end OverlayManifest
