/-
# Outlines of documents

The outline of a document is how its elements are nested. A tag outside all elements must be
that of the one root, and at the end no element may be open. A text with such an outline is one
element and what it holds. A reader of documents follows the outline if it keeps account of the
open elements and otherwise only asks for attributes: it then ends as the outline does, unless
it stops earlier at an attribute.
-/

import OverlayManifest.Proofs.LookedUpAttributes
import OverlayManifest.Proofs.WrittenMarkup

namespace OverlayManifest

namespace Xml

/-! ## Open elements -/

/-- The names of the elements that are open after some tokens, the innermost first, where those
with some other names were open before. -/
def openAfter (path : List (List Char)) : List Token → List (List Char)
  | [] => path
  | .opening tag :: taken => openAfter (tag.name :: path) taken
  | .single _ :: taken => openAfter path taken
  | .closing _ :: taken => openAfter path.tail taken

theorem openAfter_cons (path : List (List Char)) (token : Token) (taken : List Token) :
    openAfter path (token :: taken) = openAfter (openAfter path [token]) taken := by
  cases token <;> rfl

/-- After some tokens the reader of markup has elements with some names open: whatever follows
is read inside these. -/
def LeavesOpen (taken : List Token) (path : List (List Char)) : Prop :=
  ∀ rest, nested [] (.prepend taken rest) = .prepend taken (nested path rest)

/-- Where a token was read, the elements that it leaves open are open, and it is read whatever
follows. It is no closing tag outside of all elements. -/
theorem nested_eq_item {path : List (List Char)} {reading later : Reading Fault Token}
    {token : Token} (h : nested path reading = .item token later) :
    (∀ text, token = .closing text → path ≠ []) ∧
      (∀ other, nested path (.item token other) =
        .item token (nested (openAfter path [token]) other)) ∧
      ∃ unread, nested (openAfter path [token]) unread = later := by
  cases reading with
  | done => cases h
  | failed fault => cases h
  | item first reading =>
      cases first with
      | opening tag | single tag =>
          obtain ⟨rfl, rfl⟩ := Reading.item.inj h
          exact ⟨fun _ hclosing => (nomatch hclosing), fun _ => rfl, reading, rfl⟩
      | closing text =>
          cases path with
          | nil => cases h
          | cons name outer =>
              rw [nested] at h
              split at h
              · rename_i hname
                obtain ⟨rfl, rfl⟩ := Reading.item.inj h
                exact ⟨fun _ _ => List.cons_ne_nil _ _, fun _ => if_pos hname, reading, rfl⟩
              · cases h

/-- Where tokens were read, the elements that they leave open are open. -/
theorem nested_of_prepend {path : List (List Char)} {reading rest : Reading Fault Token}
    {taken : List Token} (h : nested path reading = .prepend taken rest) :
    (∃ unread, rest = nested (openAfter path taken) unread) ∧
      ∀ other, nested path (.prepend taken other) =
        .prepend taken (nested (openAfter path taken) other) := by
  induction taken generalizing path reading with
  | nil => exact ⟨⟨reading, h.symm⟩, fun other => rfl⟩
  | cons token taken ih =>
      obtain ⟨-, hread, unread, hlater⟩ := nested_eq_item h
      rw [openAfter_cons]
      obtain ⟨hunread, hother⟩ := ih hlater
      refine ⟨hunread, fun other => ?_⟩
      rw [Reading.prepend_cons, hread, hother, Reading.prepend_cons]

/-- A closing tag is read only where an element is open. -/
theorem openAfter_ne_nil {path : List (List Char)} {reading later : Reading Fault Token}
    {taken : List Token} {closing : List Char}
    (h : nested path reading = .prepend taken (.item (.closing closing) later)) :
    openAfter path taken ≠ [] := by
  obtain ⟨⟨unread, hunread⟩, -⟩ := nested_of_prepend h
  exact (nested_eq_item hunread.symm).1 closing rfl

/-! ## One element -/

/-- The tokens of one element with a name: a single tag, or an opening and a closing one around
balanced tokens. -/
inductive IsElement (name : String) : List Token → Prop
  | single {tag : Tag} (hname : String.ofList tag.name = name) : IsElement name [.single tag]
  | around {tag : Tag} {inner : List Token} {closing : List Char}
      (hname : String.ofList tag.name = name) (hinner : Balanced inner)
      (hclosing : closingName closing = tag.name) :
      IsElement name (.opening tag :: (inner ++ [.closing closing]))

/-- Tokens that close the elements with some names, the innermost first, each behind balanced
tokens. -/
inductive Closes : List (List Char) → List Token → Prop
  | nil : Closes [] []
  | cons {name closing : List Char} {path : List (List Char)} {inner more : List Token}
      (hinner : Balanced inner) (hclosing : closingName closing = name)
      (hmore : Closes path more) : Closes (name :: path) (inner ++ .closing closing :: more)

namespace Closes

variable {name : List Char} {path : List (List Char)} {tokens : List Token}

/-- A balanced piece may stand before tokens that close something. -/
theorem balanced_append {first : List Token} (hfirst : Balanced first)
    (h : Closes (name :: path) tokens) : Closes (name :: path) (first ++ tokens) := by
  cases h with
  | cons hinner hclosing hmore =>
      rw [← List.append_assoc]
      exact .cons (hfirst.append hinner) hclosing hmore

/-- An element that is opened and closed is balanced with what it holds. -/
theorem opening {tag : Tag} (h : Closes (tag.name :: name :: path) tokens) :
    Closes (name :: path) (.opening tag :: tokens) := by
  cases h with
  | @cons _ closing _ inner more hinner hclosing hmore =>
      have hall := hmore.balanced_append (hinner.element hclosing)
      simpa using hall

end Closes

end Xml

namespace Document

open Xml

/-! ## Places -/

/-- Where a document stands: the names of the open elements, the innermost first, and whether a
root was seen. -/
structure Place where
  path : List (List Char)
  rootSeen : Bool
  seen_of_open : path ≠ [] → rootSeen = true

namespace Place

/-- Before the first tag. -/
def start : Place := ⟨[], false, fun h => absurd rfl h⟩

/-- Outside all elements only the first root may stand, and it must have the right tag. -/
def Refuses (place : Place) (tag : Tag) : Prop :=
  place.path = [] ∧ (place.rootSeen = true ∨ String.ofList tag.name ≠ "resources")

instance (place : Place) (tag : Tag) : Decidable (place.Refuses tag) :=
  inferInstanceAs (Decidable (_ ∧ _))

/-- Inside an element that is opened here. -/
def inside (place : Place) (name : List Char) : Place := ⟨name :: place.path, true, fun _ => rfl⟩

/-- Behind a single tag. -/
def beside (place : Place) : Place := ⟨place.path, true, fun _ => rfl⟩

/-- Behind the element that is closed here. -/
def outside (place : Place) : Place where
  path := place.path.tail
  rootSeen := place.rootSeen
  seen_of_open h := place.seen_of_open fun hnil => h (by rw [hnil, List.tail_nil])

@[simp]
theorem path_inside (place : Place) (name : List Char) :
    (place.inside name).path = name :: place.path := rfl

@[simp]
theorem path_beside (place : Place) : place.beside.path = place.path := rfl

@[simp]
theorem path_outside (place : Place) : place.outside.path = place.path.tail := rfl

/-- Where the document stands after a token. -/
def next (place : Place) : Token → Except Fault Place
  | .opening tag =>
      if place.Refuses tag then .error (.unexpectedRoot (some (String.ofList tag.name)))
      else .ok (place.inside tag.name)
  | .single tag =>
      if place.Refuses tag then .error (.unexpectedRoot (some (String.ofList tag.name)))
      else .ok place.beside
  | .closing _ => .ok place.outside

/-- Behind the root only a tag inside it is not refused. -/
theorem inside_of_not_refuses (place : Place) {tag : Tag} (hseen : place.rootSeen = true)
    (h : ¬ place.Refuses tag) : ∃ name outer, place.path = name :: outer :=
  List.exists_cons_of_ne_nil fun hpath => h ⟨hpath, .inl hseen⟩

/-- What is wrong with a document that ends here. -/
def finish (place : Place) : Except Fault Unit :=
  if place.path ≠ [] then .error .unclosed
  else if place.rootSeen then .ok ()
  else .error (.unexpectedRoot none)

/-- Only a tag outside all elements can be refused. -/
theorem next_eq_error {place : Place} {token : Token} {fault : Fault}
    (h : place.next token = .error fault) : ∃ tag, tag? token = some tag ∧ place.Refuses tag ∧
      fault = .unexpectedRoot (some (String.ofList tag.name)) := by
  cases token with
  | opening tag | single tag =>
      rw [next] at h
      split at h
      · rename_i hrefuses
        cases h
        exact ⟨tag, rfl, hrefuses, rfl⟩
      · cases h
  | closing text => cases h

/-- Where a token that is taken leads. -/
theorem next_eq_ok {place after : Place} {token : Token} (h : place.next token = .ok after) :
    (∃ tag, token = .opening tag ∧ ¬ place.Refuses tag ∧ after = place.inside tag.name) ∨
      (∃ tag, token = .single tag ∧ ¬ place.Refuses tag ∧ after = place.beside) ∨
      ∃ text, token = .closing text ∧ after = place.outside := by
  cases token with
  | opening tag =>
      rw [next] at h
      split at h
      · cases h
      · rename_i hallowed
        cases h
        exact .inl ⟨tag, rfl, hallowed, rfl⟩
  | single tag =>
      rw [next] at h
      split at h
      · cases h
      · rename_i hallowed
        cases h
        exact .inr (.inl ⟨tag, rfl, hallowed, rfl⟩)
  | closing text =>
      cases h
      exact .inr (.inr ⟨text, rfl, rfl⟩)

/-- The open elements are those that the tokens leave open. -/
theorem path_of_next {place after : Place} {token : Token} (h : place.next token = .ok after)
    (taken : List Token) :
    openAfter place.path (token :: taken) = openAfter after.path taken := by
  rcases next_eq_ok h with ⟨tag, rfl, -, rfl⟩ | ⟨tag, rfl, -, rfl⟩ | ⟨text, rfl, rfl⟩ <;> rfl

end Place

/-- The outline of the rest of a document: whether its elements are nested as they should be. -/
def outlineFrom (place : Place) : Reading Xml.Fault Token → Except Fault Unit
  | .done => place.finish
  | .failed cause => .error (.malformed cause)
  | .item token rest =>
      match place.next token with
      | .error fault => .error fault
      | .ok after => outlineFrom after rest

/-- A tag that is not refused is taken. -/
theorem outlineFrom_opening {place : Place} {tag : Tag} {rest : Reading Xml.Fault Token}
    (h : ¬ place.Refuses tag) : outlineFrom place (.item (.opening tag) rest) =
      outlineFrom (place.inside tag.name) rest := by
  rw [outlineFrom, Place.next, if_neg h]

theorem outlineFrom_single {place : Place} {tag : Tag} {rest : Reading Xml.Fault Token}
    (h : ¬ place.Refuses tag) : outlineFrom place (.item (.single tag) rest) =
      outlineFrom place.beside rest := by
  rw [outlineFrom, Place.next, if_neg h]

/-- A sound outline has no tag that is refused. -/
theorem not_refuses_of_outlineFrom {place : Place} {token : Token} {tag : Tag}
    {rest : Reading Xml.Fault Token} (htag : tag? token = some tag)
    (h : outlineFrom place (.item token rest) = .ok ()) : ¬ place.Refuses tag := by
  intro hrefuses
  cases token with
  | opening other | single other =>
      cases htag
      rw [outlineFrom, Place.next, if_pos hrefuses] at h
      cases h
  | closing text => cases htag

/-- From inside the root on, a sound outline closes what is open and ends. -/
theorem closes_of_outlineFrom {place : Place} {reading : Reading Xml.Fault Token}
    (hseen : place.rootSeen = true)
    (h : outlineFrom place (nested place.path reading) = .ok ()) :
    ∃ tokens, nested place.path reading = .prepend tokens .done ∧ Closes place.path tokens := by
  induction reading generalizing place with
  | done =>
      rw [nested, outlineFrom, Place.finish] at h
      split at h
      · cases h
      · rename_i hpath
        rw [not_not] at hpath
        exact ⟨[], rfl, hpath ▸ .nil⟩
  | failed cause => cases h
  | item token reading ih =>
      cases token with
      | opening tag =>
          have hallowed := not_refuses_of_outlineFrom rfl h
          obtain ⟨name, outer, hpath⟩ := place.inside_of_not_refuses hseen hallowed
          rw [nested, outlineFrom_opening hallowed] at h
          obtain ⟨tokens, hread, hcloses⟩ := ih rfl h
          refine ⟨.opening tag :: tokens, congrArg (Reading.item _) hread, ?_⟩
          rw [Place.path_inside, hpath] at hcloses
          rw [hpath]
          exact hcloses.opening
      | single tag =>
          have hallowed := not_refuses_of_outlineFrom rfl h
          obtain ⟨name, outer, hpath⟩ := place.inside_of_not_refuses hseen hallowed
          rw [nested, outlineFrom_single hallowed] at h
          obtain ⟨tokens, hread, hcloses⟩ := ih rfl h
          refine ⟨.single tag :: tokens, congrArg (Reading.item _) hread, ?_⟩
          rw [Place.path_beside, hpath] at hcloses
          rw [hpath]
          exact hcloses.balanced_append (.single tag)
      | closing text =>
          cases hpath : place.path with
          | nil =>
              rw [hpath] at h
              cases h
          | cons name outer =>
              have houter : place.outside.path = outer := congrArg List.tail hpath
              rw [hpath, nested] at h
              split at h
              · rename_i hname
                have hrest : outlineFrom place.outside (nested outer reading) = .ok () := h
                rw [← houter] at hrest
                obtain ⟨tokens, hread, hcloses⟩ :=
                  ih (show place.outside.rootSeen = true from hseen) hrest
                rw [houter] at hread hcloses
                refine ⟨.closing text :: tokens, ?_, Closes.cons .nil hname hcloses⟩
                rw [nested, if_pos hname, hread, Reading.prepend_cons]
              · cases h

/-- A text with a sound outline is one element with the name of the root. -/
theorem isElement_of_outlineFrom {text : String}
    (h : outlineFrom .start (Xml.read text) = .ok ()) :
    ∃ tokens, Xml.read text = .prepend tokens .done ∧ IsElement "resources" tokens := by
  rw [Xml.read] at h ⊢
  have hname {tag : Tag} (hallowed : ¬ Place.start.Refuses tag) :
      String.ofList tag.name = "resources" := by
    by_contra hother
    exact hallowed ⟨rfl, .inr hother⟩
  cases hreading : Xml.tokens (dropByteOrderMark text.toList) with
  | done =>
      rw [hreading] at h
      cases h
  | failed cause =>
      rw [hreading] at h
      cases h
  | item token reading =>
      rw [hreading] at h
      cases token with
      | opening tag =>
          have hallowed := not_refuses_of_outlineFrom rfl h
          rw [nested, outlineFrom_opening hallowed] at h
          obtain ⟨tokens, hread, hcloses⟩ := closes_of_outlineFrom rfl h
          cases hcloses with
          | cons hinner hclosing hmore =>
              cases hmore
              refine ⟨_, ?_, .around (hname hallowed) hinner hclosing⟩
              exact congrArg (Reading.item _) hread
      | single tag =>
          have hallowed := not_refuses_of_outlineFrom rfl h
          rw [nested, outlineFrom_single hallowed] at h
          obtain ⟨tokens, hread, hcloses⟩ := closes_of_outlineFrom rfl h
          cases hcloses
          refine ⟨_, ?_, .single (hname hallowed)⟩
          exact congrArg (Reading.item _) hread
      | closing text => cases h

end Document

end OverlayManifest
