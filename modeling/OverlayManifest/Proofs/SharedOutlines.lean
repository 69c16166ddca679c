/-
# Two readers share one outline

The reader of values documents counts the open elements, the reader of listings keeps their
names, and the reader of markup checks the names. All three always agree on how many are open. So
one text has one outline for both readers of documents: they end alike, unless one of them stops
before at an attribute that the other does not ask for.
-/

import OverlayManifest.Proofs.MarkupFaults
import OverlayManifest.Proofs.Outlines

namespace OverlayManifest.Document

open Xml

/-! ## How a reader ends -/

/-- The tokens that a reader takes before it ends. -/
def takenFrom {σ : Type} (step : σ → Token → Except Fault (Option Resource × σ)) (state : σ) :
    Reading Xml.Fault Token → List Token
  | .done | .failed _ => []
  | .item token rest =>
      match step state token with
      | .error _ => []
      | .ok (_, after) => token :: takenFrom step after rest

section

variable {σ : Type} {step : σ → Token → Except Fault (Option Resource × σ)} {state after : σ}
  {token : Token} {given : Option Resource} {fault : Fault}

theorem takenFrom_of_ok (h : step state token = .ok (given, after))
    (rest : Reading Xml.Fault Token) :
    takenFrom step state (.item token rest) = token :: takenFrom step after rest := by
  rw [takenFrom, h]

theorem takenFrom_of_error (h : step state token = .error fault)
    (rest : Reading Xml.Fault Token) : takenFrom step state (.item token rest) = [] := by
  rw [takenFrom, h]

end

/-- What some tokens give a reader, and where it stands after them. -/
def stepAll {σ : Type} (step : σ → Token → Except Fault (Option Resource × σ)) (state : σ) :
    List Token → Except Fault (List Resource × σ)
  | [] => .ok ([], state)
  | token :: taken => do
      let (given, after) ← step state token
      let (found, last) ← stepAll step after taken
      return (given.toList ++ found, last)

/-- An outline takes a token and gives nothing for it. -/
def Place.step (place : Place) (token : Token) : Except Fault (Option Resource × Place) :=
  (place.next token).map (none, ·)

theorem Place.step_of_ok {place next : Place} {token : Token} (h : place.next token = .ok next) :
    place.step token = .ok (none, next) := by
  rw [step, h]
  rfl

theorem Place.step_of_error {place : Place} {token : Token} {fault : Fault}
    (h : place.next token = .error fault) : place.step token = .error fault := by
  rw [step, h]
  rfl

/-- How a reader ends, whatever it found: it accepts, or it has a fault. -/
def outcome (result : Except Fault (List Resource)) : Except Fault Unit := result.map fun _ => ()

/-- Behind the tokens taken stands a tag in which an attribute was asked for that is missing or
cannot be read. -/
def StopsAt (reading : Reading Xml.Fault Token) (taken : List Token) (fault : Fault) : Prop :=
  ∃ token rest tag key, reading = .prepend taken (.item token rest) ∧
    tag? token = some tag ∧ required tag key = .error fault

/-- One end is the same as another, at the same token, or it is a stop at an attribute of a tag
that is no further behind. -/
def EndsAs (reading : Reading Xml.Fault Token) (ends other : Except Fault Unit)
    (taken otherTaken : List Token) : Prop :=
  (ends = other ∧ taken = otherTaken) ∨
    ∃ fault, ends = .error fault ∧ StopsAt reading taken fault ∧ taken <+: otherTaken

/-- Ends are compared alike behind one more token. -/
theorem EndsAs.item {reading : Reading Xml.Fault Token} {ends other : Except Fault Unit}
    {taken otherTaken : List Token} (h : EndsAs reading ends other taken otherTaken)
    (token : Token) :
    EndsAs (.item token reading) ends other (token :: taken) (token :: otherTaken) := by
  rcases h with ⟨hsame, htaken⟩ | ⟨fault, hfault, ⟨stop, rest, tag, key, hread, hkey⟩, hprefix⟩
  · exact .inl ⟨hsame, congrArg (token :: ·) htaken⟩
  · refine .inr ⟨fault, hfault, ⟨stop, rest, tag, key, ?_, hkey⟩,
      List.cons_prefix_cons.mpr ⟨rfl, hprefix⟩⟩
    rw [hread, Reading.prepend_cons]

/-- A reader follows the outline of a document if it stands where the outline stands, refuses
what the outline refuses, and otherwise only asks for attributes. -/
structure Follows {σ : Type} (step : σ → Token → Except Fault (Option Resource × σ))
    (readFrom : σ → Reading Xml.Fault Token → Except Fault (List Resource))
    (standsAt : σ → Place → Prop) : Prop where
  done : ∀ state place, standsAt state place → outcome (readFrom state .done) = place.finish
  failed : ∀ state cause, readFrom state (.failed cause) = .error (.malformed cause)
  item : ∀ state token rest, readFrom state (.item token rest) =
    step state token >>= fun stepped => (readFrom stepped.2 rest).map (stepped.1.toList ++ ·)
  refuses : ∀ state place token fault, standsAt state place → place.next token = .error fault →
    step state token = .error fault
  goesOn : ∀ state place token next, standsAt state place → place.next token = .ok next →
    (∃ given after, step state token = .ok (given, after) ∧ standsAt after next) ∨
      ∃ fault tag key, step state token = .error fault ∧ tag? token = some tag ∧
        required tag key = .error fault

namespace Follows

variable {σ : Type} {step : σ → Token → Except Fault (Option Resource × σ)}
  {readFrom : σ → Reading Xml.Fault Token → Except Fault (List Resource)}
  {standsAt : σ → Place → Prop} {state last : σ} {place : Place} {found : List Resource}
  {taken : List Token}

theorem readFrom_of_error (h : Follows step readFrom standsAt) {token : Token} {fault : Fault}
    (hstep : step state token = .error fault) (rest : Reading Xml.Fault Token) :
    readFrom state (.item token rest) = .error fault := by
  rw [h.item, hstep]
  rfl

/-- What a token gives does not change how the reader ends. -/
theorem outcome_of_ok (h : Follows step readFrom standsAt) {token : Token}
    {given : Option Resource} {after : σ} (hstep : step state token = .ok (given, after))
    (rest : Reading Xml.Fault Token) :
    outcome (readFrom state (.item token rest)) = outcome (readFrom after rest) := by
  rw [h.item, hstep]
  show outcome ((readFrom after rest).map (given.toList ++ ·)) = _
  cases readFrom after rest <;> rfl

/-- A reader ends as the outline does, unless it stops at an attribute before. -/
theorem endsAs (h : Follows step readFrom standsAt) (hstands : standsAt state place)
    (reading : Reading Xml.Fault Token) :
    EndsAs reading (outcome (readFrom state reading)) (outlineFrom place reading)
      (takenFrom step state reading) (takenFrom Place.step place reading) := by
  induction reading generalizing state place with
  | done => exact .inl ⟨h.done state place hstands, rfl⟩
  | failed cause => exact .inl ⟨congrArg outcome (h.failed state cause), rfl⟩
  | item token rest ih =>
      rw [outlineFrom]
      cases hnext : place.next token with
      | error fault =>
          have hstep := h.refuses state place token fault hstands hnext
          rw [h.readFrom_of_error hstep, takenFrom_of_error hstep,
            takenFrom_of_error (Place.step_of_error hnext)]
          exact .inl ⟨rfl, rfl⟩
      | ok next =>
          rw [takenFrom_of_ok (Place.step_of_ok hnext)]
          rcases h.goesOn state place token next hstands hnext with
            ⟨given, after, hstep, hafter⟩ | ⟨fault, tag, key, hstep, htag, hkey⟩
          · rw [h.outcome_of_ok hstep, takenFrom_of_ok hstep]
            exact (ih hafter).item token
          · rw [h.readFrom_of_error hstep, takenFrom_of_error hstep]
            exact .inr ⟨fault, rfl, ⟨token, rest, tag, key, rfl, htag, hkey⟩, List.nil_prefix⟩

/-- The rest of a text is read where the tokens before it leave the reader. -/
theorem readFrom_prepend (h : Follows step readFrom standsAt)
    (htaken : stepAll step state taken = .ok (found, last)) (rest : Reading Xml.Fault Token) :
    readFrom state (.prepend taken rest) = (readFrom last rest).map (found ++ ·) := by
  induction taken generalizing state found with
  | nil =>
      cases htaken
      rw [Reading.prepend_nil, ← ok_followedBy, nil_followedBy]
  | cons token taken ih =>
      obtain ⟨⟨given, after⟩, hstep, htaken⟩ := bind_eq_ok_iff.mp htaken
      obtain ⟨⟨later, stands⟩, hlater, heq⟩ := bind_eq_ok_iff.mp htaken
      cases heq
      calc readFrom state (.prepend (token :: taken) rest)
          = (readFrom after (.prepend taken rest)).map (given.toList ++ ·) := by
            rw [Reading.prepend_cons, h.item, hstep]
            rfl
        _ = followedBy (.ok given.toList) (followedBy (.ok later) (readFrom last rest)) := by
            rw [ih hlater, ok_followedBy, ok_followedBy]
        _ = followedBy (.ok (given.toList ++ later)) (readFrom last rest) := by
            rw [← followedBy_assoc]
            rfl
        _ = (readFrom last rest).map (given.toList ++ later ++ ·) := ok_followedBy _ _

/-- After some tokens a reader stands where they leave the outline. -/
theorem standsAt_of_stepAll (h : Follows step readFrom standsAt) (hstands : standsAt state place)
    (htaken : stepAll step state taken = .ok (found, last)) :
    ∃ next, standsAt last next ∧ next.path = openAfter place.path taken := by
  induction taken generalizing state place found with
  | nil =>
      cases htaken
      exact ⟨place, hstands, rfl⟩
  | cons token taken ih =>
      obtain ⟨⟨given, after⟩, hstep, htaken⟩ := bind_eq_ok_iff.mp htaken
      obtain ⟨⟨later, stands⟩, hlater, heq⟩ := bind_eq_ok_iff.mp htaken
      cases heq
      cases hnext : place.next token with
      | error fault =>
          rw [h.refuses state place token fault hstands hnext] at hstep
          cases hstep
      | ok next =>
          rcases h.goesOn state place token next hstands hnext with
            ⟨_, _, hsame, hafter⟩ | ⟨fault, tag, key, herror, -, -⟩
          · rw [hstep] at hsame
            cases hsame
            obtain ⟨final, hfinal, hpath⟩ := ih hafter hlater
            exact ⟨final, hfinal, by rw [hpath, Place.path_of_next hnext]⟩
          · rw [hstep] at herror
            cases herror

end Follows

/-! ## The two readers of documents -/

namespace Values

variable {state after : State} {tag : Tag} {fault : Fault} {place : Place}

/-- A reader of values documents counts the open elements. -/
def StandsAt (state : State) (place : Place) : Prop :=
  state.depth = place.path.length ∧ state.rootSeen = place.rootSeen

theorem standsAt_start : StandsAt .start .start := ⟨rfl, rfl⟩

theorem exists_of_declaration? (h : declaration? tag = .error fault) :
    ∃ key, required tag key = .error fault := by
  rw [declaration?] at h
  split at h
  · cases h
  · rcases bind_eq_error_iff.mp h with htype | ⟨type, -, h⟩
    · rw [declaredType] at htype
      split at htype
      · exact ⟨"type", htype⟩
      all_goals cases htype
    · rcases bind_eq_error_iff.mp h with hname | ⟨name, -, h⟩
      · exact ⟨"name", hname⟩
      · cases h

theorem exists_of_styleableAttribute? (h : styleableAttribute? tag = .error fault) :
    ∃ key, required tag key = .error fault := by
  rw [styleableAttribute?] at h
  split at h
  · rcases bind_eq_error_iff.mp h with hname | ⟨name, -, h⟩
    · exact ⟨"name", hname⟩
    · split at h <;> cases h
  · cases h

/-- Inside the root a tag is a fault only by an attribute that is asked for. -/
theorem exists_of_enter {single : Bool} (hdepth : state.depth ≠ 0)
    (h : state.enter tag single = .error fault) : ∃ key, required tag key = .error fault := by
  unfold State.enter at h
  split at h
  · rename_i hzero
    exact absurd hzero hdepth
  · rcases bind_eq_error_iff.mp h with hdeclared | ⟨declared, -, h⟩
    · exact exists_of_declaration? hdeclared
    · cases declared <;> cases h
  · split at h
    · rcases bind_eq_error_iff.mp h with hdeclared | ⟨declared, -, h⟩
      · exact exists_of_styleableAttribute? hdeclared
      · cases h
    · cases h
  · cases h

/-- A tag does not change the depth of what stands beside it, and a root was seen then. -/
theorem seen_of_enter {single : Bool} {declared : Option Resource}
    (hseen : state.depth ≠ 0 → state.rootSeen = true)
    (h : state.enter tag single = .ok (declared, after)) :
    after.depth = state.depth ∧ after.rootSeen = true := by
  unfold State.enter at h
  split at h
  · split at h
    · cases h
    · cases h
      exact ⟨rfl, rfl⟩
  · rename_i hdepth
    have hroot := hseen (by rw [hdepth]; decide)
    obtain ⟨found, -, h⟩ := bind_eq_ok_iff.mp h
    cases found <;> cases h <;> exact ⟨rfl, hroot⟩
  · rename_i hdepth
    have hroot := hseen (by rw [hdepth]; decide)
    split at h
    · obtain ⟨found, -, h⟩ := bind_eq_ok_iff.mp h
      cases h
      exact ⟨rfl, hroot⟩
    · cases h
      exact ⟨rfl, hroot⟩
  · rename_i hzero _ _
    cases h
    exact ⟨rfl, hseen hzero⟩

namespace StandsAt

/-- What the outline refuses is refused as a root. -/
theorem enter_of_refuses (h : StandsAt state place) (hrefuses : place.Refuses tag)
    (single : Bool) :
    state.enter tag single = .error (.unexpectedRoot (some (String.ofList tag.name))) := by
  obtain ⟨hpath, hroot⟩ := hrefuses
  have hdepth : state.depth = 0 := by rw [h.1, hpath, List.length_nil]
  rcases hroot with hseen | hname
  · simp [State.enter, hdepth, h.2, hseen]
  · simp [State.enter, hdepth, hname]

/-- A tag that the outline does not refuse is taken, or it lacks an attribute. -/
theorem enter_or_required (h : StandsAt state place) (hallowed : ¬ place.Refuses tag)
    (single : Bool) :
    (∃ declared after, state.enter tag single = .ok (declared, after) ∧
      StandsAt after place.beside) ∨
      ∃ fault key, state.enter tag single = .error fault ∧ required tag key = .error fault := by
  have hseen (hdepth : state.depth ≠ 0) : state.rootSeen = true := by
    rw [h.2]
    refine place.seen_of_open fun hpath => hdepth ?_
    rw [h.1, hpath, List.length_nil]
  cases henter : state.enter tag single with
  | ok entered =>
      obtain ⟨hdepth, hroot⟩ := seen_of_enter hseen henter
      exact .inl ⟨entered.1, entered.2, rfl, hdepth.trans h.1, hroot⟩
  | error fault =>
      refine .inr ⟨fault, ?_⟩
      by_cases hdepth : state.depth = 0
      · have hpath : place.path = [] := List.length_eq_zero_iff.mp (h.1 ▸ hdepth)
        obtain ⟨hfirst, hname⟩ := not_or.mp fun hroot => hallowed ⟨hpath, hroot⟩
        simp [State.enter, hdepth, h.2, hfirst, not_not.mp hname] at henter
      · obtain ⟨key, hkey⟩ := exists_of_enter hdepth henter
        exact ⟨key, rfl, hkey⟩

end StandsAt

/-- The reader of values documents follows the outline. -/
theorem follows : Follows step readFrom StandsAt where
  done state place h := by
    rw [readFrom, Place.finish, h.1, h.2]
    by_cases hpath : place.path = []
    · cases place.rootSeen <;> simp [outcome, Except.map, hpath]
    · simp [outcome, Except.map, hpath]
  failed state cause := rfl
  item := readFrom_item
  refuses state place token fault h hnext := by
    obtain ⟨tag, htag, hrefuses, rfl⟩ := Place.next_eq_error hnext
    cases token with
    | opening tag =>
        cases htag
        rw [step, h.enter_of_refuses hrefuses]
        rfl
    | single tag =>
        cases htag
        exact h.enter_of_refuses hrefuses true
    | closing text => cases htag
  goesOn state place token next h hnext := by
    rcases Place.next_eq_ok hnext with
      ⟨tag, rfl, hallowed, rfl⟩ | ⟨tag, rfl, hallowed, rfl⟩ | ⟨text, rfl, rfl⟩
    · rcases h.enter_or_required hallowed false with
        ⟨declared, after, henter, hafter⟩ | ⟨fault, key, henter, hkey⟩
      · refine .inl ⟨declared, after.descend, ?_, congrArg (· + 1) hafter.1, hafter.2⟩
        rw [step, henter]
        rfl
      · refine .inr ⟨fault, tag, key, ?_, rfl, hkey⟩
        rw [step, henter]
        rfl
    · rcases h.enter_or_required hallowed true with
        ⟨declared, after, henter, hafter⟩ | ⟨fault, key, henter, hkey⟩
      · exact .inl ⟨declared, after, henter, hafter⟩
      · exact .inr ⟨fault, tag, key, henter, rfl, hkey⟩
    · refine .inl ⟨none, state.ascend, rfl, ?_, h.2⟩
      rw [State.ascend, h.1, Place.path_outside, List.length_tail]

end Values

namespace Listing

variable {state : State} {tag : Tag} {fault : Fault} {place : Place}

/-- A reader of listings keeps the names of the open elements. -/
def StandsAt (state : State) (place : Place) : Prop :=
  state.path = place.path.map String.ofList ∧ state.rootSeen = place.rootSeen

theorem standsAt_start : StandsAt .start .start := ⟨rfl, rfl⟩

namespace StandsAt

/-- A root is refused where the outline refuses it. -/
theorem checkRoot_eq (h : StandsAt state place) (tag : Tag) :
    checkRoot state (String.ofList tag.name) =
      if place.Refuses tag then .error (.unexpectedRoot (some (String.ofList tag.name)))
      else .ok () := by
  have hrefuses : place.Refuses tag ↔ (state.path.isEmpty &&
      (state.rootSeen || String.ofList tag.name != "resources")) = true := by
    simp [Place.Refuses, h.1, h.2]
  simp only [checkRoot, hrefuses]

theorem listed?_of_refuses (h : StandsAt state place) (hrefuses : place.Refuses tag) :
    listed? state tag = .error (.unexpectedRoot (some (String.ofList tag.name))) := by
  rw [listed?, h.checkRoot_eq, if_pos hrefuses]
  rfl

/-- A tag that the outline does not refuse is taken, or it lacks an attribute. -/
theorem listed?_or_required (h : StandsAt state place) (hallowed : ¬ place.Refuses tag) :
    (∃ listed, listed? state tag = .ok listed) ∨
      ∃ fault key, listed? state tag = .error fault ∧ required tag key = .error fault := by
  cases hlisted : listed? state tag with
  | ok listed => exact .inl ⟨listed, rfl⟩
  | error fault =>
      refine .inr ⟨fault, ?_⟩
      rw [listed?, h.checkRoot_eq, if_neg hallowed] at hlisted
      rcases bind_eq_error_iff.mp hlisted with hroot | ⟨_, -, hlisted⟩
      · cases hroot
      split at hlisted
      · rcases bind_eq_error_iff.mp hlisted with htype | ⟨type, -, hlisted⟩
        · exact ⟨"type", rfl, htype⟩
        · rcases bind_eq_error_iff.mp hlisted with hname | ⟨name, -, hlisted⟩
          · exact ⟨"name", rfl, hname⟩
          · cases hlisted
      · cases hlisted

end StandsAt

/-- The reader of listings follows the outline. -/
theorem follows : Follows step readFrom StandsAt where
  done state place h := by
    rw [readFrom, Place.finish, h.1, h.2]
    by_cases hpath : place.path = []
    · cases place.rootSeen <;> simp [outcome, Except.map, hpath]
    · simp [outcome, Except.map, hpath]
  failed state cause := rfl
  item := readFrom_item
  refuses state place token fault h hnext := by
    obtain ⟨tag, htag, hrefuses, rfl⟩ := Place.next_eq_error hnext
    cases token with
    | opening tag | single tag =>
        cases htag
        rw [step, h.listed?_of_refuses hrefuses]
        rfl
    | closing text => cases htag
  goesOn state place token next h hnext := by
    rcases Place.next_eq_ok hnext with
      ⟨tag, rfl, hallowed, rfl⟩ | ⟨tag, rfl, hallowed, rfl⟩ | ⟨text, rfl, rfl⟩
    · rcases h.listed?_or_required hallowed with ⟨listed, hlisted⟩ | ⟨fault, key, hlisted, hkey⟩
      · refine .inl ⟨listed, ⟨String.ofList tag.name :: state.path, true⟩, ?_, ?_, rfl⟩
        · rw [step, hlisted]
          rfl
        · rw [h.1, Place.path_inside, List.map_cons]
      · refine .inr ⟨fault, tag, key, ?_, rfl, hkey⟩
        rw [step, hlisted]
        rfl
    · rcases h.listed?_or_required hallowed with ⟨listed, hlisted⟩ | ⟨fault, key, hlisted, hkey⟩
      · refine .inl ⟨listed, ⟨state.path, true⟩, ?_, h.1, rfl⟩
        rw [step, hlisted]
        rfl
      · refine .inr ⟨fault, tag, key, ?_, rfl, hkey⟩
        rw [step, hlisted]
        rfl
    · refine .inl ⟨none, ⟨state.path.tail, state.rootSeen⟩, rfl, ?_, h.2⟩
      rw [h.1, Place.path_outside, List.map_tail]

end Listing

/-! ## One outline for both -/

/-- The result of a reader has to do with the outline of a text only: it is no fault that was
met in looking for an attribute. -/
def IsStructural (text : String) : Except Fault (List Resource) → Prop
  | .ok _ | .error (.unexpectedRoot _) | .error .unclosed => True
  | .error (.malformed cause) => ∃ taken, Xml.read text = .prepend taken (.failed cause)
  | .error (.missingAttribute _ _) => False

/-- Looking for an attribute does not give what the outline gives. -/
theorem not_isStructural_of_stopsAt {text : String} {reading : Reading Xml.Fault Token}
    {taken : List Token} {fault : Fault} (h : StopsAt reading taken fault) :
    ¬ IsStructural text (.error fault) := by
  obtain ⟨token, rest, tag, key, -, -, hkey⟩ := h
  rw [required] at hkey
  split at hkey
  · rename_i cause hcause
    cases hkey
    rintro ⟨taken, hread⟩
    exact not_isOfMarkup_of_attribute? hcause (isOfMarkup_of_read hread)
  · cases hkey
    exact id
  · cases hkey

/-- Behind some tokens of a text the reader of markup has some elements open, and a closing tag
that follows closes one of them. A reader of documents that takes the tokens goes on from there:
the reader of values documents has counted these elements, the reader of listings has their
names. -/
structure OpensAlike (text : String) (taken : List Token) (rest : Reading Xml.Fault Token) :
    Prop where
  markup : LeavesOpen taken (openAfter [] taken)
  closes : ∀ closing later, rest = .item (.closing closing) later → openAfter [] taken ≠ []
  values : ∀ found state, stepAll Values.step .start taken = .ok (found, state) →
    Values.read text = (Values.readFrom state rest).map (found ++ ·) ∧
      state.depth = (openAfter [] taken).length
  listing : ∀ found state, stepAll Listing.step .start taken = .ok (found, state) →
    Listing.read text = (Listing.readFrom state rest).map (found ++ ·) ∧
      state.path = (openAfter [] taken).map String.ofList

theorem opensAlike {text : String} {taken : List Token} {rest : Reading Xml.Fault Token}
    (h : Xml.read text = .prepend taken rest) : OpensAlike text taken rest where
  markup := (nested_of_prepend h).2
  closes closing later hrest := openAfter_ne_nil (hrest ▸ h)
  values found state htaken := by
    obtain ⟨place, hstands, hpath⟩ :=
      Values.follows.standsAt_of_stepAll Values.standsAt_start htaken
    refine ⟨?_, by rw [hstands.1, hpath]; rfl⟩
    rw [Values.read, h, Values.follows.readFrom_prepend htaken]
  listing found state htaken := by
    obtain ⟨place, hstands, hpath⟩ :=
      Listing.follows.standsAt_of_stepAll Listing.standsAt_start htaken
    refine ⟨?_, by rw [hstands.1, hpath]; rfl⟩
    rw [Listing.read, h, Listing.follows.readFrom_prepend htaken]

/-- The tokens of a text that the reader of values documents takes. -/
def Values.taken (text : String) : List Token := takenFrom step .start (Xml.read text)

/-- The tokens of a text that the reader of listings takes. -/
def Listing.taken (text : String) : List Token := takenFrom step .start (Xml.read text)

theorem EndsAs.eq_of_isStructural {text : String} {result : Except Fault (List Resource)}
    {reading : Reading Xml.Fault Token} {other : Except Fault Unit} {taken otherTaken : List Token}
    (h : EndsAs reading (outcome result) other taken otherTaken)
    (hstructural : IsStructural text result) : outcome result = other ∧ taken = otherTaken := by
  rcases h with hsame | ⟨fault, hfault, hstops, -⟩
  · exact hsame
  · cases result with
    | ok found => cases hfault
    | error cause =>
        cases hfault
        exact absurd hstructural (not_isStructural_of_stopsAt hstops)

/-- Both readers of documents agree with each other and with the reader of markup on how many
elements are open at each token of a text. A result that has to do with the outline only is that
of the other reader too, at the same token, unless the other one stops at an attribute of a tag
that is no further behind. What one of the two accepts is one element `resources`. -/
theorem same_outline (text : String) :
    (∀ taken rest, Xml.read text = .prepend taken rest → OpensAlike text taken rest) ∧
    (IsStructural text (Values.read text) →
      EndsAs (Xml.read text) (outcome (Listing.read text)) (outcome (Values.read text))
        (Listing.taken text) (Values.taken text)) ∧
    (IsStructural text (Listing.read text) →
      EndsAs (Xml.read text) (outcome (Values.read text)) (outcome (Listing.read text))
        (Values.taken text) (Listing.taken text)) ∧
    (∀ found, Values.read text = .ok found ∨ Listing.read text = .ok found →
      ∃ tokens, Xml.read text = .prepend tokens .done ∧ IsElement "resources" tokens) := by
  have hvalues := Values.follows.endsAs Values.standsAt_start (Xml.read text)
  have hlisting := Listing.follows.endsAs Listing.standsAt_start (Xml.read text)
  have haccepted {result : Except Fault (List Resource)} {taken otherTaken : List Token}
      {found : List Resource}
      (h : EndsAs (Xml.read text) (outcome result) (outlineFrom .start (Xml.read text)) taken
        otherTaken) (hok : result = .ok found) : outlineFrom .start (Xml.read text) = .ok () := by
    have hstructural : IsStructural text result := hok ▸ trivial
    have hsame := h.eq_of_isStructural hstructural
    rw [← hsame.1, hok]
    rfl
  refine ⟨fun taken rest => opensAlike, fun hstructural => ?_, fun hstructural => ?_, ?_⟩
  · obtain ⟨hsame, htaken⟩ := hvalues.eq_of_isStructural hstructural
    rw [← hsame, ← htaken] at hlisting
    exact hlisting
  · obtain ⟨hsame, htaken⟩ := hlisting.eq_of_isStructural hstructural
    rw [← hsame, ← htaken] at hvalues
    exact hvalues
  · rintro found (hok | hok)
    · exact isElement_of_outlineFrom (haccepted hvalues hok)
    · exact isElement_of_outlineFrom (haccepted hlisting hok)

/-- A text that only the reader of listings refuses, for an item without a type, and one in which
the reader of values documents stops at a name before the wrong closing tag. -/
theorem same_outline_attributes :
    let accepted := "<resources><overlayable><policy><item name='a'/></policy></overlayable>" ++
      "</resources>"
    let broken := "<resources><string/></a>"
    let taken : List Token :=
      [.opening ⟨"resources".toList, []⟩, .single ⟨"string".toList, []⟩]
    let cause : Xml.Fault := .mismatch "resources".toList "a".toList
    (Values.read accepted = .ok [] ∧
      Listing.read accepted = .error (.missingAttribute "item" "type") ∧
      EndsAs (Xml.read accepted) (outcome (Listing.read accepted))
        (outcome (Values.read accepted)) (Listing.taken accepted) (Values.taken accepted) ∧
      ∃ tokens, Xml.read accepted = .prepend tokens .done ∧ IsElement "resources" tokens) ∧
    (Listing.read broken = .error (.malformed cause) ∧
      Values.read broken = .error (.missingAttribute "string" "name") ∧
      EndsAs (Xml.read broken) (outcome (Values.read broken)) (outcome (Listing.read broken))
        (Values.taken broken) (Listing.taken broken)) ∧
    OpensAlike broken taken (.failed cause) := by
  intro accepted broken taken cause
  have haccepted : Values.read accepted = .ok [] := by decide +kernel
  have hbroken : Listing.read broken = .error (.malformed cause) := by decide +kernel
  have hread : Xml.read broken = .prepend taken (.failed cause) := by decide +kernel
  refine ⟨⟨haccepted, by decide +kernel, ?_, ?_⟩, ⟨hbroken, by decide +kernel, ?_⟩, ?_⟩
  · exact (same_outline accepted).2.1 (by rw [haccepted]; trivial)
  · exact (same_outline accepted).2.2.2 [] (.inl haccepted)
  · exact (same_outline broken).2.2.1 (by rw [hbroken]; exact ⟨taken, hread⟩)
  · exact (same_outline broken).1 taken _ hread

end OverlayManifest.Document
