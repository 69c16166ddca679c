/-
# Switches that are put first

A switch without a value can be put before all other arguments, unless it is among them. The
reader that has read it goes on as the one that has not: no later step looks at it.
-/

import Mathlib.Data.List.TakeWhile
import OverlayManifest.CommandLine.Arguments

namespace OverlayManifest.CommandLine

/-- A switch without a value that a run looks at. -/
def Switch.isFlag : Switch → Bool
  | .verbose | .quiet | .dryRun => true
  | _ => false

/-- Arguments with a switch without a value. -/
def Arguments.withFlag (arguments : Arguments) : Switch → Arguments
  | .verbose => { arguments with verbose := true }
  | .quiet => { arguments with quiet := true }
  | .dryRun => { arguments with dryRun := true }
  | _ => arguments

/-- A reader that has also read a switch without a value. -/
def Reader.withFlag (reader : Reader) (flag : Switch) : Reader :=
  { reader with arguments := reader.arguments.withFlag flag }

/-- Only switches with a value wait for one. -/
def Reader.IsSound (reader : Reader) : Prop :=
  ∀ switch value, reader.waiting = some (.switch switch, value) → switch.takesValue = true

namespace Arguments

variable {arguments after : Arguments} {flag : Switch}

/-- What takes a value is given or not whatever flags there are. -/
theorem has_withFlag_of_value (hflag : flag.isFlag = true) {target : Target}
    (htarget : ∀ switch, target = .switch switch → switch.takesValue = true) :
    (arguments.withFlag flag).has target = arguments.has target := by
  rcases target with _ | switch
  · cases flag with
    | _ => rfl
  · have hvalue := htarget switch rfl
    cases switch with
    | verbose | quiet | dryRun | help | version => cases hvalue
    | _ =>
        cases flag with
        | _ => rfl

/-- A value is stored beside a flag. -/
theorem store_withFlag (hflag : flag.isFlag = true) {target : Target} {text : String}
    (htarget : ∀ switch, target = .switch switch → switch.takesValue = true)
    (h : arguments.store target text = .ok after) :
    after.has (.switch flag) = arguments.has (.switch flag) ∧
      (arguments.withFlag flag).store target text = .ok (after.withFlag flag) := by
  have hmap {α : Type} {value : Except Stop α} {make : α → Arguments}
      (h : value.map make = .ok after)
      (hmake : ∀ a, (make a).has (.switch flag) = arguments.has (.switch flag)) :
      after.has (.switch flag) = arguments.has (.switch flag) ∧
        value.map (fun a => (make a).withFlag flag) = .ok (after.withFlag flag) := by
    cases value with
    | error stop => cases h
    | ok a =>
        cases h
        exact ⟨hmake a, rfl⟩
  unfold store at h ⊢
  rw [has_withFlag_of_value hflag htarget]
  split at h
  · cases h
  · rename_i hnew
    rw [if_neg hnew]
    rcases target with _ | switch
    · cases flag with
      | verbose | quiet | dryRun => exact hmap h fun _ => rfl
      | _ => cases hflag
    · have hvalue := htarget switch rfl
      cases switch with
      | verbose | quiet | dryRun | help | version => cases hvalue
      | _ =>
          cases flag with
          | verbose | quiet | dryRun => exact hmap h fun _ => rfl
          | _ => cases hflag

/-- A switch without a value is turned on beside another one. -/
theorem turnOn_withFlag (hflag : flag.isFlag = true) {switch : Switch}
    (h : arguments.turnOn switch = .ok after) (hafter : after.has (.switch flag) = false) :
    arguments.has (.switch flag) = false ∧
      (arguments.withFlag flag).turnOn switch = .ok (after.withFlag flag) := by
  unfold turnOn at h ⊢
  split at h
  · cases h
  · rename_i hnew
    cases flag with
    | verbose | quiet | dryRun =>
      cases switch with
      | help | version => cases h
      | _ =>
          cases h
          simp_all [has, withFlag]
    | _ => cases hflag

end Arguments

namespace Reader

variable {flag switch : Switch} {known : List Switch}

/-- A step goes the same way after a flag, unless it reads that flag itself. -/
def Passes (flag : Switch) (step : Reader → Except Stop Reader) : Prop :=
  ∀ reader after : Reader, reader.IsSound → step reader = .ok after →
    after.IsSound ∧ (after.arguments.has (.switch flag) = false →
      reader.arguments.has (.switch flag) = false ∧
        step (reader.withFlag flag) = .ok (after.withFlag flag))

/-- A step after another one. -/
theorem Passes.bind {first last : Reader → Except Stop Reader} (hfirst : Passes flag first)
    (hlast : Passes flag last) : Passes flag fun reader => first reader >>= last := by
  intro reader after hsound h
  dsimp only at h ⊢
  cases hmiddle : first reader with
  | error stop =>
      rw [hmiddle] at h
      cases h
  | ok middle =>
      rw [hmiddle] at h
      obtain ⟨hmiddleSound, hmiddleNew⟩ := hfirst _ _ hsound hmiddle
      obtain ⟨hafterSound, hafterNew⟩ := hlast _ _ hmiddleSound h
      refine ⟨hafterSound, fun hnew => ?_⟩
      obtain ⟨hnew, hafter⟩ := hafterNew hnew
      obtain ⟨hnew, hmiddle⟩ := hmiddleNew hnew
      refine ⟨hnew, ?_⟩
      rw [hmiddle]
      exact hafter

theorem Passes.congr {step other : Reader → Except Stop Reader} (hstep : Passes flag step)
    (h : ∀ reader, other reader = step reader) : Passes flag other := by
  obtain rfl : other = step := funext h
  exact hstep

/-- Steps that are taken for a list of texts. -/
theorem Passes.foldlM {step : Reader → String → Except Stop Reader}
    (hstep : ∀ text, Passes flag (step · text)) (texts : List String) :
    Passes flag fun reader => texts.foldlM step reader := by
  induction texts with
  | nil =>
      intro reader after hsound h
      cases h
      exact ⟨hsound, fun hnew => ⟨hnew, rfl⟩⟩
  | cons text texts ih =>
      simp only [List.foldlM_cons]
      exact (hstep text).bind ih

theorem passes_settle (hflag : flag.isFlag = true) : Passes flag settle := by
  intro reader after hsound h
  have hwaiting : (reader.withFlag flag).waiting = reader.waiting := rfl
  unfold settle at h ⊢
  rw [hwaiting]
  split at h
  · cases h
    exact ⟨hsound, fun hnew => ⟨hnew, rfl⟩⟩
  · cases h
  · rename_i target text hpending
    have htarget : ∀ switch, target = .switch switch → switch.takesValue = true := by
      rintro switch rfl
      exact hsound switch _ hpending
    cases hstored : reader.arguments.store target text with
    | error stop =>
        rw [hstored] at h
        cases h
    | ok arguments =>
        rw [hstored] at h
        cases h
        obtain ⟨hhas, hafter⟩ := Arguments.store_withFlag hflag htarget hstored
        refine ⟨fun _ _ hnone => (nomatch hnone), fun hnew => ⟨hhas ▸ hnew, ?_⟩⟩
        show (Except.map _ ((reader.arguments.withFlag flag).store target text)) = _
        rw [hafter]
        rfl

/-- What is done to the arguments alone. -/
theorem passes_arguments {change : Arguments → Except Stop Arguments}
    (h : ∀ arguments after, change arguments = .ok after → after.has (.switch flag) = false →
      arguments.has (.switch flag) = false ∧
        change (arguments.withFlag flag) = .ok (after.withFlag flag)) :
    Passes flag fun reader => do return { reader with arguments := ← change reader.arguments } := by
  intro reader after hsound hrun
  dsimp only at hrun ⊢
  cases hchanged : change reader.arguments with
  | error stop =>
      rw [hchanged] at hrun
      cases hrun
  | ok arguments =>
      rw [hchanged] at hrun
      cases hrun
      refine ⟨hsound, fun hnew => ?_⟩
      obtain ⟨hbefore, hafter⟩ := h _ _ hchanged hnew
      refine ⟨hbefore, ?_⟩
      show (do return { reader.withFlag flag with
        arguments := ← change (reader.arguments.withFlag flag) }) = _
      rw [hafter]
      rfl

theorem passes_turnOn (hflag : flag.isFlag = true) : Passes flag (turnOn · switch) := by
  apply (passes_settle hflag).bind
  exact passes_arguments fun _ _ hturned hnew => Arguments.turnOn_withFlag hflag hturned hnew

theorem passes_expect (hflag : flag.isFlag = true) (hvalue : switch.takesValue = true)
    (attached : Option String) : Passes flag (expect · switch attached) := by
  apply (passes_settle hflag).bind
  cases attached with
  | none =>
      intro reader after hsound h
      cases h
      refine ⟨fun other value hwaiting => ?_, fun hnew => ⟨hnew, rfl⟩⟩
      cases hwaiting
      exact hvalue
  | some text =>
      have htarget : ∀ other, Target.switch switch = .switch other →
          other.takesValue = true := by
        rintro other hother
        cases hother
        exact hvalue
      have hstore : ∀ arguments after : Arguments,
          arguments.store (.switch switch) text = .ok after → after.has (.switch flag) = false →
            arguments.has (.switch flag) = false ∧
              (arguments.withFlag flag).store (.switch switch) text =
                .ok (after.withFlag flag) := by
        intro arguments after hstored hnew
        obtain ⟨hhas, hafter⟩ := Arguments.store_withFlag hflag htarget hstored
        exact ⟨hhas ▸ hnew, hafter⟩
      exact passes_arguments hstore

theorem passes_readLong (hflag : flag.isFlag = true) (text : List Char) :
    Passes flag (readLong known · text) := by
  unfold readLong
  dsimp only
  split
  · intro reader after _ h
    cases h
  · rename_i switch _
    by_cases hvalue : switch.takesValue = true
    · simp only [if_pos hvalue]
      exact passes_expect hflag hvalue _
    · simp only [if_neg hvalue]
      split
      · exact passes_turnOn hflag
      · intro reader after _ h
        cases h

theorem passes_readLetters (hflag : flag.isFlag = true) (letters : List Char) :
    Passes flag (readLetters known · letters) := by
  induction letters with
  | nil =>
      intro reader after hsound h
      cases h
      exact ⟨hsound, fun hnew => ⟨hnew, rfl⟩⟩
  | cons letter letters ih =>
      simp only [readLetters]
      split
      · intro reader after _ h
        cases h
      · rename_i switch _
        split
        · rename_i hvalue
          exact passes_expect hflag hvalue _
        · have hbind : Passes flag fun reader =>
              reader.turnOn switch >>= (readLetters known · letters) :=
            (passes_turnOn hflag).bind ih
          refine hbind.congr fun reader => ?_
          cases reader.turnOn switch with
          | error => rfl
          | ok => rfl

theorem passes_readPositional (hflag : flag.isFlag = true) (text : String) :
    Passes flag (readPositional · text) := by
  intro reader after hsound h
  have hpath : (reader.withFlag flag).hasPath = reader.hasPath := rfl
  unfold readPositional at h ⊢
  dsimp only at h ⊢
  rw [hpath]
  by_cases htaken : reader.hasPath = true
  · rw [if_pos htaken] at h
    cases h
  · rw [if_neg htaken] at h ⊢
    cases hsettled : reader.settle with
    | error stop =>
        rw [hsettled] at h
        cases h
    | ok settled =>
        rw [hsettled] at h
        cases h
        obtain ⟨-, hafter⟩ := passes_settle hflag _ _ hsound hsettled
        refine ⟨fun _ _ hwaiting => (nomatch hwaiting), fun hnew => ?_⟩
        obtain ⟨hnew, hafter⟩ := hafter hnew
        refine ⟨hnew, ?_⟩
        rw [hafter]
        rfl

theorem passes_readArgument (hflag : flag.isFlag = true) (text : String) :
    Passes flag (readArgument known · text) := by
  intro reader after hsound h
  have hpaths : (reader.withFlag flag).pathsOnly = reader.pathsOnly := rfl
  have hwaiting : (reader.withFlag flag).waiting = reader.waiting := rfl
  unfold readArgument at h ⊢
  dsimp only at h ⊢
  rw [hpaths, hwaiting]
  by_cases honly : reader.pathsOnly = true
  · rw [if_pos honly] at h ⊢
    exact passes_readPositional hflag text _ _ hsound h
  · rw [if_neg honly] at h ⊢
    split at h
    · cases h
      exact ⟨hsound, fun hnew => ⟨hnew, rfl⟩⟩
    · exact passes_readLong hflag _ _ _ hsound h
    · exact passes_readLetters hflag _ _ _ hsound h
    · split at h
      · rename_i target hpending
        cases h
        refine ⟨fun switch value hsame => ?_, fun hnew => ⟨hnew, rfl⟩⟩
        cases hsame
        exact hsound switch _ hpending
      · exact passes_readPositional hflag text _ _ hsound h

end Reader

/-- The name of a flag is read as a whole. -/
theorem Reader.readArgument_flag {known : List Switch} {flag : Switch}
    (hflag : flag.isFlag = true) (hknown : Switch.ofLong? known flag.long = some flag) :
    readArgument known {} ("--" ++ flag.long) = .ok (withFlag {} flag) := by
  have hletters : flag.long.toList.all (· != '=') = true ∧ flag.long.toList ≠ [] := by
    cases flag with
    | _ => decide
  have hlong : readArgument known {} ("--" ++ flag.long) =
      readLong known {} flag.long.toList := by
    unfold readArgument
    rw [String.toList_append]
    obtain ⟨letter, letters, hcons⟩ := List.exists_cons_of_ne_nil hletters.2
    rw [hcons]
    rfl
  have hname : flag.long.toList.takeWhile (· != '=') = flag.long.toList :=
    List.takeWhile_eq_self_iff.2 (List.all_eq_true.1 hletters.1)
  have hvalue : flag.long.toList.dropWhile (· != '=') = [] :=
    List.dropWhile_eq_nil_iff.2 (List.all_eq_true.1 hletters.1)
  rw [hlong]
  unfold readLong
  rw [hname, hvalue, String.ofList_toList, hknown]
  cases flag with
  | verbose | quiet | dryRun => rfl
  | _ => cases hflag

/-- Arguments are read text by text, and the value that was given last at the end. -/
theorem Arguments.read_eq (known : List Switch) (texts : List String) :
    read known texts =
      (texts.foldlM (Reader.readArgument known) {} >>= Reader.settle).map Reader.arguments := by
  unfold read
  cases texts.foldlM (Reader.readArgument known) {} with
  | error => rfl
  | ok reader =>
      show (do return (← reader.settle).arguments) = reader.settle.map Reader.arguments
      cases reader.settle with
      | error => rfl
      | ok => rfl

/-- A flag that was not given can be put before all other arguments. -/
theorem Arguments.read_cons_flag {known : List Switch} {flag : Switch} {texts : List String}
    {arguments : Arguments} (hflag : flag.isFlag = true)
    (hknown : Switch.ofLong? known flag.long = some flag)
    (hread : read known texts = .ok arguments) (hnew : arguments.has (.switch flag) = false) :
    read known (("--" ++ flag.long) :: texts) = .ok (arguments.withFlag flag) := by
  rw [read_eq] at hread ⊢
  cases hrun : texts.foldlM (Reader.readArgument known) {} >>= Reader.settle with
  | error stop =>
      rw [hrun] at hread
      cases hread
  | ok reader =>
      rw [hrun] at hread
      cases hread
      have hall : Reader.Passes flag fun reader =>
          texts.foldlM (Reader.readArgument known) reader >>= Reader.settle :=
        (Reader.Passes.foldlM (Reader.passes_readArgument hflag) texts).bind
          (Reader.passes_settle hflag)
      obtain ⟨-, hafter⟩ := hall {} reader (fun _ _ hnone => (nomatch hnone)) hrun
      have hflagged : texts.foldlM (Reader.readArgument known) (Reader.withFlag {} flag) >>=
          Reader.settle = .ok (reader.withFlag flag) := (hafter hnew).2
      rw [List.foldlM_cons, Reader.readArgument_flag hflag hknown]
      show (texts.foldlM (Reader.readArgument known) (Reader.withFlag {} flag) >>=
        Reader.settle).map Reader.arguments = _
      rw [hflagged]
      rfl

end OverlayManifest.CommandLine
