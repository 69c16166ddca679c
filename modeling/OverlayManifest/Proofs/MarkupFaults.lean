/-
# Faults of markup

A text of markup can have two kinds of faults. One stops the reader of markup: a construct that
does not end, or a closing tag with the wrong name. The other is met only when an attribute of a
tag is looked for. No fault is of both kinds.
-/

import OverlayManifest.Proofs.WrittenTag

namespace OverlayManifest.Xml

/-- A fault of the reader of markup, and not of the attributes in a tag. -/
def Fault.IsOfMarkup : Fault → Prop
  | .attribute _ | .escape _ => False
  | _ => True

variable {fault : Fault} {taken : List Token}

theorem isOfMarkup_of_skipSection {construct : Construct} {ends : List Char → Bool}
    {fault? : List Char → Option Fault} {text : List Char}
    (hfault : ∀ body fault, fault? body = some fault → fault.IsOfMarkup)
    (h : skipSection construct ends fault? text = .error fault) : fault.IsOfMarkup := by
  unfold skipSection at h
  split at h
  · cases h
    trivial
  · split at h
    · rename_i hsome
      cases h
      exact hfault _ _ hsome
    · cases h

theorem isOfMarkup_of_cdataFault? {body : List Char} (h : cdataFault? body = some fault) :
    fault.IsOfMarkup := by
  unfold cdataFault? at h
  split at h <;> cases h
  trivial

theorem isOfMarkup_of_commentFault? {body : List Char} (h : commentFault? body = some fault) :
    fault.IsOfMarkup := by
  unfold commentFault? at h
  split at h <;> cases h
  trivial

theorem isOfMarkup_of_doctypeFault? {body : List Char} (h : doctypeFault? body = some fault) :
    fault.IsOfMarkup := by
  unfold doctypeFault? at h
  split at h
  · cases h
    trivial
  · split at h <;> cases h
    trivial

theorem isOfMarkup_of_skipBang {text : List Char} (h : skipBang text = .error fault) :
    fault.IsOfMarkup := by
  unfold skipBang at h
  split at h
  · cases h
    trivial
  · exact isOfMarkup_of_skipSection (fun _ _ => isOfMarkup_of_cdataFault?) h
  · exact isOfMarkup_of_skipSection (fun _ _ => isOfMarkup_of_commentFault?) h
  · split at h
    · exact isOfMarkup_of_skipSection (fun _ _ => isOfMarkup_of_doctypeFault?) h
    · cases h
      trivial

theorem isOfMarkup_of_readConstruct {text : List Char} (h : readConstruct text = .error fault) :
    fault.IsOfMarkup := by
  unfold readConstruct at h
  split at h
  · rename_i text
    cases hbang : skipBang text with
    | error cause =>
        rw [hbang] at h
        cases h
        exact isOfMarkup_of_skipBang hbang
    | ok after =>
        rw [hbang] at h
        cases h
  · cases h
  · dsimp only at h
    split at h <;> cases h
    trivial
  · split at h
    · cases h
      trivial
    · split at h <;> cases h

theorem isOfMarkup_of_tokens {text : List Char} (h : tokens text = .prepend taken (.failed fault)) :
    fault.IsOfMarkup := by
  fun_induction tokens text generalizing taken with
  | case1 => cases taken <;> cases h
  | case2 => cases taken <;> cases h
  | case3 text first c rest htext cause hread =>
      cases taken with
      | nil =>
          cases h
          exact isOfMarkup_of_readConstruct hread
      | cons token taken => cases h
  | case4 text first c rest htext after hshorter hread hlonger ih => exact ih h
  | case5 text first c rest htext after token hshorter hread hlonger ih =>
      cases taken with
      | nil => cases h
      | cons other taken => exact ih (Reading.item.inj h).2

theorem isOfMarkup_of_nested {path : List (List Char)} {reading : Reading Fault Token}
    (hreading : ∀ taken fault, reading = .prepend taken (.failed fault) → fault.IsOfMarkup)
    (h : nested path reading = .prepend taken (.failed fault)) : fault.IsOfMarkup := by
  induction reading generalizing path taken with
  | done => cases taken <;> cases h
  | failed cause =>
      cases taken with
      | nil =>
          cases h
          exact hreading [] _ rfl
      | cons token taken => cases h
  | item token reading ih =>
      have hrest (taken : List Token) (fault : Fault)
          (hfailed : reading = .prepend taken (.failed fault)) : fault.IsOfMarkup :=
        hreading (token :: taken) fault (congrArg (Reading.item token) hfailed)
      cases token with
      | opening tag | single tag =>
          cases taken with
          | nil => cases h
          | cons other taken => exact ih hrest (Reading.item.inj h).2
      | closing text =>
          cases path with
          | nil =>
              cases taken with
              | nil =>
                  cases h
                  trivial
              | cons other taken => cases h
          | cons name outer =>
              rw [nested] at h
              split at h
              · cases taken with
                | nil => cases h
                | cons other taken => exact ih hrest (Reading.item.inj h).2
              · cases taken with
                | nil =>
                    cases h
                    trivial
                | cons other taken => cases h

/-- What stops the reader of markup is a fault of markup. -/
theorem isOfMarkup_of_read {text : String} (h : read text = .prepend taken (.failed fault)) :
    fault.IsOfMarkup :=
  isOfMarkup_of_nested (fun _ _ => isOfMarkup_of_tokens) h

/-- Looking for an attribute finds no fault of markup. -/
theorem not_isOfMarkup_of_attribute? {tag : Tag} {key : String}
    (h : tag.attribute? key = .error fault) : ¬ fault.IsOfMarkup := by
  rw [Tag.attribute?] at h
  generalize tag.attributes = reading at h
  induction reading with
  | done => cases h
  | failed cause =>
      cases h
      exact id
  | item first rest ih =>
      rw [Tag.find?] at h
      split at h
      · split at h
        · cases h
        · cases h
          exact id
      · exact ih h

end OverlayManifest.Xml
