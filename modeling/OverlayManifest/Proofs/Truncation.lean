/-
# Truncated documents

A text that is cut off is read like the whole text up to the cut. The construct in which
the cut falls is a fault, or it is passed over, or it is a closing tag that ends with the
text. A values document or a listing that is accepted has one root and nothing behind it,
so none of its resources can be lost in this way.
-/

import OverlayManifest.Proofs.ReadingSteps
import OverlayManifest.Proofs.WrittenMarkup

namespace OverlayManifest

namespace Xml

variable {cut rest : List Char}

/-! ## Constructs that end before the cut -/

/-- A section that ends before the cut ends there in the whole text. -/
theorem splitAtClose_whole {passes : List Char → Bool} {before body : List Char}
    (h : splitAtClose passes before cut = some (body, rest)) (more : List Char) :
    splitAtClose passes before (cut ++ more) = some (body, rest ++ more) := by
  induction cut generalizing before with
  | nil => cases h
  | cons c cut ih =>
      rw [splitAtClose] at h
      rw [List.cons_append, splitAtClose]
      split at h
      · rename_i hends
        cases h
        rw [if_pos hends]
      · rename_i hgoes
        rw [if_neg hgoes]
        exact ih h

/-- A tag that ends before the cut ends there in the whole text. -/
theorem splitTag_whole {quote : Option Char} {before body : List Char}
    (h : splitTag quote before cut = some (body, rest)) (more : List Char) :
    splitTag quote before (cut ++ more) = some (body, rest ++ more) := by
  fun_induction splitTag quote before cut with
  | case1 => cases h
  | case2 before c cut mark ih => exact ih h
  | case3 before cut =>
      cases h
      rfl
  | case4 before c cut hopen ih =>
      rw [List.cons_append, splitTag, if_neg hopen]
      exact ih h

theorem skipSection_whole {construct : Construct} {ends : List Char → Bool}
    {fault? : List Char → Option Fault} (h : skipSection construct ends fault? cut = .ok rest)
    (more : List Char) : skipSection construct ends fault? (cut ++ more) = .ok (rest ++ more) := by
  unfold skipSection at h
  split at h
  · cases h
  · rename_i hsplit
    split at h
    · cases h
    · rename_i hfault
      cases h
      simp only [skipSection, splitAtClose_whole hsplit more, hfault]

theorem skipBang_whole (h : skipBang cut = .ok rest) (more : List Char) :
    skipBang (cut ++ more) = .ok (rest ++ more) := by
  unfold skipBang at h
  split at h
  · cases h
  · exact skipSection_whole h more
  · exact skipSection_whole h more
  · rename_i c cut hcdata hcomment
    split at h
    · rename_i hdoctype
      rw [List.cons_append, skipBang.eq_4 _ _ hcdata hcomment, if_pos hdoctype]
      exact skipSection_whole h more
    · cases h

/-- Either there is no `>` before the cut, or the first one there is the first of the whole
text. -/
theorem afterClose_cases (cut more : List Char) :
    afterClose cut = [] ∨
      (cut ++ more).takeWhile (· != '>') = cut.takeWhile (· != '>') ∧
        afterClose (cut ++ more) = afterClose cut ++ more := by
  by_cases hclose : '>' ∈ cut
  · obtain ⟨before, after, rfl, hbefore⟩ := List.eq_append_cons_of_mem hclose
    have hkeep : ∀ c ∈ before, (c != '>') = true := fun c hc =>
      bne_iff_ne.mpr fun heq => hbefore (heq ▸ hc)
    have htake (late : List Char) :
        (before ++ '>' :: late).takeWhile (· != '>') = before := by
      rw [List.takeWhile_append_of_pos hkeep]
      exact List.append_nil before
    have hafter (late : List Char) : afterClose (before ++ '>' :: late) = late := by
      rw [afterClose, List.dropWhile_append_of_pos hkeep]
      rfl
    right
    rw [List.append_assoc, List.cons_append, htake, htake, hafter, hafter]
    exact ⟨rfl, rfl⟩
  · left
    have hkeep : ∀ c ∈ cut, (c != '>') = true := fun c hc =>
      bne_iff_ne.mpr fun heq => hclose (heq ▸ hc)
    have hdrop : cut.dropWhile (· != '>') = [] := by
      rw [← List.append_nil cut, List.dropWhile_append_of_pos hkeep]
      rfl
    rw [afterClose, hdrop]
    rfl

/-- A construct that can be read before the cut is read so in the whole text, unless the
text before the cut ends with it. Then it is no tag, or it is a closing tag in both. -/
theorem readConstruct_whole {token : Option Token} (h : readConstruct cut = .ok (token, rest))
    (more : List Char) :
    readConstruct (cut ++ more) = .ok (token, rest ++ more) ∨
      rest = [] ∧ (token = none ∨ ∃ text whole after, token = some (.closing text) ∧
        readConstruct (cut ++ more) = .ok (some (.closing whole), after)) := by
  unfold readConstruct at h
  split at h
  · rename_i cut
    left
    cases hbang : skipBang cut with
    | error fault =>
        rw [hbang] at h
        cases h
    | ok after =>
        rw [hbang] at h
        cases h
        rw [List.cons_append, readConstruct, skipBang_whole hbang more]
        rfl
  · rename_i cut
    cases h
    rcases afterClose_cases cut more with hend | ⟨htake, hafter⟩
    · exact .inr ⟨hend, .inr ⟨_, _, _, rfl, rfl⟩⟩
    · left
      rw [List.cons_append, readConstruct, htake, hafter]
  · rename_i cut
    dsimp only at h
    split at h
    · rename_i hbody
      cases h
      rcases afterClose_cases cut more with hend | ⟨htake, hafter⟩
      · exact .inr ⟨hend, .inl rfl⟩
      · left
        rw [List.cons_append, readConstruct, htake, hafter]
        exact if_pos hbody
    · cases h
  · rename_i hbang hslash hquestion
    left
    split at h
    · cases h
    · rename_i body after hsplit
      have hwhole := splitTag_whole hsplit more
      have hmore : readConstruct (cut ++ more) =
          if body.getLast? = some '/' then
            .ok (some (.single (.ofText body.dropLast)), after ++ more)
          else .ok (some (.opening (.ofText body)), after ++ more) := by
        cases cut with
        | nil => cases hsplit
        | cons c cut =>
            rw [List.cons_append] at hwhole ⊢
            rw [readConstruct.eq_4 _ (fun text heq => ?_) (fun text heq => ?_)
              (fun text heq => ?_), hwhole]
            · cases heq
              exact hbang _ rfl
            · cases heq
              exact hslash _ rfl
            · cases heq
              exact hquestion _ rfl
      rw [hmore]
      split at h
      · rename_i hsingle
        cases h
        rw [if_pos hsingle]
      · rename_i hopening
        cases h
        rw [if_neg hopening]

/-! ## Readings that are cut off -/

/-- What is read of a text that is cut off, beside what is read of the whole text: the same
up to the cut, but for the text of a closing tag in which the cut falls. Nothing is said of
what follows a fault. -/
inductive CutOff : Reading Fault Token → Reading Fault Token → Prop
  | ended {whole : Reading Fault Token} : CutOff .done whole
  | failed {fault : Fault} {whole : Reading Fault Token} : CutOff (.failed fault) whole
  | wholeFailed {cut : Reading Fault Token} {fault : Fault} : CutOff cut (.failed fault)
  | closing {text wholeText : List Char} {rest : Reading Fault Token} :
      CutOff (.item (.closing text) .done) (.item (.closing wholeText) rest)
  | item {token : Token} {cut whole : Reading Fault Token} (hrest : CutOff cut whole) :
      CutOff (.item token cut) (.item token whole)

theorem tokens_nil : tokens [] = .done := by rw [tokens_eq, List.dropWhile_nil]

theorem cutOff_tokens (cut more : List Char) : CutOff (tokens cut) (tokens (cut ++ more)) := by
  have hwhole {first c : Char} {cut rest after : List Char} {token : Option Token}
      (h : cut.dropWhile (· != '<') = first :: c :: rest)
      (hread : readConstruct (c :: rest ++ more) = .ok (token, after)) :
      tokens (cut ++ more) = .prepend token.toList (tokens after) := by
    rw [List.cons_append] at hread
    rw [tokens_eq, List.dropWhile_append, h]
    simp only [List.isEmpty_cons, Bool.false_eq_true, if_false, List.cons_append, hread]
  -- The induction is on the text before the cut, construct by construct.
  fun_induction tokens cut with
  | case1 => exact .ended
  | case2 => exact .ended
  | case3 => exact .failed
  | case4 cut first c rest hcut after _ hread _ ih =>
      rcases readConstruct_whole hread more with hsame | ⟨rfl, -⟩
      · rw [hwhole hcut hsame]
        exact ih
      · rw [tokens_nil]
        exact .ended
  | case5 cut first c rest hcut after token _ hread _ ih =>
      rcases readConstruct_whole hread more with hsame | ⟨rfl, hend⟩
      · rw [hwhole hcut hsame]
        exact .item ih
      · rcases hend with hnone | ⟨text, wholeText, after, htoken, hsame⟩
        · cases hnone
        · cases htoken
          rw [hwhole hcut hsame, tokens_nil]
          exact .closing

namespace CutOff

variable {cut whole : Reading Fault Token}

/-- Both readings fail at the same closing tag, or the cut falls into the closing tag. -/
theorem nested (h : CutOff cut whole) (path : List (List Char)) :
    CutOff (Xml.nested path cut) (Xml.nested path whole) := by
  induction h generalizing path with
  | ended => exact .ended
  | failed => exact .failed
  | wholeFailed => exact .wholeFailed
  | closing =>
      cases path with
      | nil => exact .failed
      | cons name outer =>
          simp only [Xml.nested]
          split
          · split
            · exact .closing
            · exact .wholeFailed
          · exact .failed
  | @item token cut whole _ ih =>
      cases token with
      | opening tag => exact .item (ih _)
      | single tag => exact .item (ih _)
      | closing text =>
          cases path with
          | nil => exact .failed
          | cons name outer =>
              simp only [Xml.nested]
              split
              · exact .item (ih outer)
              · exact .failed

end CutOff

/-- A document that is cut off is read like the whole document up to the cut. -/
theorem cutOff_read {cut whole : String} (h : cut.toList <+: whole.toList) :
    CutOff (read cut) (read whole) := by
  obtain ⟨more, hmore⟩ := h
  rw [read, read, ← hmore]
  apply CutOff.nested
  cases hcut : cut.toList with
  | nil =>
      rw [show dropByteOrderMark [] = [] from rfl, tokens_nil]
      exact .ended
  | cons c text =>
      by_cases hmark : c = '\ufeff'
      · subst hmark
        exact cutOff_tokens text more
      · have hkeep (text : List Char) : dropByteOrderMark (c :: text) = c :: text := by
          unfold dropByteOrderMark
          split
          · rename_i heq
            cases heq
            exact absurd rfl hmark
          · rfl
        rw [List.cons_append, hkeep, hkeep, ← List.cons_append]
        exact cutOff_tokens (c :: text) more

end Xml

namespace Document

open Xml

/-! ## Readers of documents -/

/-- A reader takes one tag after the other: a tag is a fault, or it gives resources and the
state in which the rest is read. The text of a closing tag does not matter. Where the reader
accepts the end of a text, it finds nothing in what it would accept instead. -/
structure ReadsByTag {σ : Type} (readFrom : σ → Reading Xml.Fault Token →
    Except Fault (List Resource)) : Prop where
  failed : ∀ state cause, ∃ fault, readFrom state (.failed cause) = .error fault
  tag : ∀ state token, (∃ fault, ∀ rest, readFrom state (.item token rest) = .error fault) ∨
    ∃ found after, ∀ rest,
      readFrom state (.item token rest) = (readFrom after rest).map (found ++ ·)
  closing : ∀ state, ∃ after, ∀ text rest,
    readFrom state (.item (.closing text) rest) = readFrom after rest
  ended : ∀ state found rest others, readFrom state .done = .ok found →
    readFrom state rest = .ok others → others = found

/-- A token is a fault or gives resources, whatever follows. -/
theorem fault_or_found {σ : Type} {step : σ → Token → Except Fault (Option Resource × σ)}
    {readFrom : σ → Reading Xml.Fault Token → Except Fault (List Resource)}
    (hitem : ∀ state token rest, readFrom state (.item token rest) =
      step state token >>= fun stepped => (readFrom stepped.2 rest).map (stepped.1.toList ++ ·))
    (state : σ) (token : Token) :
    (∃ fault, ∀ rest, readFrom state (.item token rest) = .error fault) ∨
      ∃ found after, ∀ rest,
        readFrom state (.item token rest) = (readFrom after rest).map (found ++ ·) := by
  cases hstep : step state token with
  | error fault =>
      refine .inl ⟨fault, fun rest => ?_⟩
      rw [hitem, hstep]
      rfl
  | ok stepped =>
      refine .inr ⟨stepped.1.toList, stepped.2, fun rest => ?_⟩
      rw [hitem, hstep]
      rfl

/-- A reader that accepts a text and the part of it up to a cut finds the same in both. -/
theorem ReadsByTag.eq_of_cutOff {σ : Type} {readFrom : σ → Reading Xml.Fault Token →
    Except Fault (List Resource)} (h : ReadsByTag readFrom) {cut whole : Reading Xml.Fault Token}
    (hcut : CutOff cut whole) {state : σ} {found others : List Resource}
    (hfound : readFrom state cut = .ok found) (hothers : readFrom state whole = .ok others) :
    others = found := by
  induction hcut generalizing state found others with
  | ended => exact h.ended state found _ others hfound hothers
  | @failed cause =>
      obtain ⟨fault, hfault⟩ := h.failed state cause
      rw [hfault] at hfound
      cases hfound
  | @wholeFailed _ cause =>
      obtain ⟨fault, hfault⟩ := h.failed state cause
      rw [hfault] at hothers
      cases hothers
  | closing =>
      obtain ⟨after, hafter⟩ := h.closing state
      rw [hafter] at hfound hothers
      exact h.ended after found _ others hfound hothers
  | @item token cut whole _ ih =>
      rcases h.tag state token with ⟨fault, hfault⟩ | ⟨first, after, hafter⟩
      · rw [hfault] at hfound
        cases hfound
      · rw [hafter, map_eq_ok_iff] at hfound hothers
        obtain ⟨rest, hrest, rfl⟩ := hfound
        obtain ⟨wholeRest, hwholeRest, rfl⟩ := hothers
        rw [ih hrest hwholeRest]

/-- Behind its root a values document declares nothing. -/
theorem Values.eq_nil_of_rootSeen {state : State} (hdepth : state.depth = 0)
    (hroot : state.rootSeen = true) {rest : Reading Xml.Fault Token} {found : List Resource}
    (h : readFrom state rest = .ok found) : found = [] := by
  induction rest generalizing state with
  | done =>
      rw [readFrom, if_neg (not_not_intro hdepth), hroot] at h
      cases h
      rfl
  | failed cause => cases h
  | item token rest ih =>
      have hfault (tag : Tag) (single : Bool) :
          state.enter tag single = .error (.unexpectedRoot (some (String.ofList tag.name))) := by
        simp [State.enter, hdepth, hroot]
      cases token with
      | opening tag =>
          rw [readFrom_opening_of_error (hfault tag false)] at h
          cases h
      | single tag =>
          rw [readFrom_single_of_error (hfault tag true)] at h
          cases h
      | closing text =>
          have hascended : state.ascend.depth = 0 := by rw [State.ascend, hdepth]
          exact ih hascended hroot h

theorem Values.readsByTag : ReadsByTag readFrom where
  failed state cause := ⟨.malformed cause, rfl⟩
  tag := fault_or_found readFrom_item
  closing state := ⟨state.ascend, fun text rest => rfl⟩
  ended state found rest others hfound hothers := by
    rw [readFrom] at hfound
    split at hfound
    · cases hfound
    · rename_i hdepth
      split at hfound
      · cases hfound
      · rename_i hroot
        cases hfound
        exact eq_nil_of_rootSeen (not_not.mp hdepth) (by simpa using hroot) hothers

/-- Behind its root a listing lists nothing. -/
theorem Listing.eq_nil_of_rootSeen {state : State} (hpath : state.path = [])
    (hroot : state.rootSeen = true) {rest : Reading Xml.Fault Token} {found : List Resource}
    (h : readFrom state rest = .ok found) : found = [] := by
  induction rest generalizing state with
  | done =>
      rw [readFrom, hpath, hroot] at h
      cases h
      rfl
  | failed cause => cases h
  | item token rest ih =>
      have hfault (tag : Tag) :
          listed? state tag = .error (.unexpectedRoot (some (String.ofList tag.name))) := by
        simp [listed?, checkRoot, hpath, hroot, bind, Except.bind]
      cases token with
      | opening tag =>
          rw [readFrom_opening_eq, hfault] at h
          cases h
      | single tag =>
          rw [readFrom_single_eq, hfault] at h
          cases h
      | closing text =>
          have hleft : (⟨state.path.tail, state.rootSeen⟩ : State).path = [] := by
            rw [hpath, List.tail_nil]
          exact ih hleft hroot h

theorem Listing.readsByTag : ReadsByTag readFrom where
  failed state cause := ⟨.malformed cause, rfl⟩
  tag := fault_or_found readFrom_item
  closing state := ⟨⟨state.path.tail, state.rootSeen⟩, fun text rest => rfl⟩
  ended state found rest others hfound hothers := by
    rw [readFrom] at hfound
    split at hfound
    · cases hfound
    · rename_i hpath
      split at hfound
      · cases hfound
      · rename_i hroot
        cases hfound
        exact eq_nil_of_rootSeen (by simpa using hpath) (by simpa using hroot) hothers

/-- A values document or a listing that is cut off anywhere is refused, or it gives the same
resources as the whole document. -/
theorem same_of_truncated {cut whole : String} (h : cut.toList <+: whole.toList)
    {found : List Resource} :
    (Values.read whole = .ok found →
      (∃ fault, Values.read cut = .error fault) ∨ Values.read cut = .ok found) ∧
    (Listing.read whole = .ok found →
      (∃ fault, Listing.read cut = .error fault) ∨ Listing.read cut = .ok found) := by
  have hcut := cutOff_read h
  constructor
  · intro hwhole
    cases hread : Values.read cut with
    | error fault => exact .inl ⟨fault, rfl⟩
    | ok others => exact .inr (by rw [Values.readsByTag.eq_of_cutOff hcut hread hwhole])
  · intro hwhole
    cases hread : Listing.read cut with
    | error fault => exact .inl ⟨fault, rfl⟩
    | ok others => exact .inr (by rw [Listing.readsByTag.eq_of_cutOff hcut hread hwhole])

/-- A document whose last closing tag lacks its end is accepted, and nothing of it is lost. -/
theorem same_of_truncated_closing :
    let values := "<resources><a name='b'/></resources"
    let listing := "<resources><overlayable><policy><item type='c' name='d'/></policy>" ++
      "</overlayable></resources"
    Values.read (values ++ ">") = .ok [⟨"a", "b"⟩] ∧ Values.read values = .ok [⟨"a", "b"⟩] ∧
      Listing.read (listing ++ ">") = .ok [⟨"c", "d"⟩] ∧
      Listing.read listing = .ok [⟨"c", "d"⟩] := by
  intro values listing
  have hcut (text : String) : text.toList <+: (text ++ ">").toList := by
    rw [String.toList_append]
    exact List.prefix_append _ _
  have hvalues : Values.read (values ++ ">") = .ok [⟨"a", "b"⟩] := by decide +kernel
  have hlisting : Listing.read (listing ++ ">") = .ok [⟨"c", "d"⟩] := by decide +kernel
  refine ⟨hvalues, ?_, hlisting, ?_⟩
  · refine ((same_of_truncated (hcut values)).1 hvalues).resolve_left ?_
    rintro ⟨fault, hfault⟩
    have haccepted : (Values.read values).isOk = true := by decide +kernel
    rw [hfault] at haccepted
    cases haccepted
  · refine ((same_of_truncated (hcut listing)).2 hlisting).resolve_left ?_
    rintro ⟨fault, hfault⟩
    have haccepted : (Listing.read listing).isOk = true := by decide +kernel
    rw [hfault] at haccepted
    cases haccepted

end Document

end OverlayManifest
