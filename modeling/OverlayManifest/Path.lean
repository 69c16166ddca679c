/-
# Paths

A path is kept as the text it was given in. Slashes separate its steps; an
empty step and a `.` stand for nothing, except that a `.` which opens a relative
path is a component of its own, as is the slash that opens an absolute one. What
is cut off a path keeps the spelling of the text that remains, less the steps at
the cut that stand for nothing.
-/

import OverlayManifest.Text

namespace OverlayManifest

/-- A path in the spelling it was given. -/
structure Path where
  text : String
  deriving DecidableEq, Inhabited, Repr

namespace Path

/-- What a part of a path says. -/
inductive Component
  | root
  | current
  | above
  | named (name : String)
  deriving DecidableEq, Repr

/-- How a path opens: from the root, with a `.`, or with its first step. -/
inductive Opening
  | root
  | current
  | plain
  deriving DecidableEq, Repr

namespace Opening

/-- The characters of an opening. -/
def text : Opening → List Char
  | .root => ['/']
  | .current => ['.']
  | .plain => []

/-- The component that an opening is, if it is one. -/
def components : Opening → List Component
  | .root => [.root]
  | .current => [.current]
  | .plain => []

end Opening

/-- Splits a text into its opening and what follows. -/
def splitOpening : List Char → Opening × List Char
  | '/' :: rest => (.root, rest)
  | ['.'] => (.current, [])
  | '.' :: '/' :: rest => (.current, '/' :: rest)
  | text => (.plain, text)

/-- How the path opens. -/
def opening (path : Path) : Opening := (splitOpening path.text.toList).1

/-- The steps after the opening, with those that stand for nothing. -/
def steps (path : Path) : List (List Char) :=
  (splitOpening path.text.toList).2.splitOn '/'

/-- An empty step and a `.` stand for nothing. -/
def isVoid (step : List Char) : Bool := step == [] || step == ['.']

/-- What a step that stands for something says. -/
def Component.ofStep (step : List Char) : Component :=
  if step = ['.', '.'] then .above else .named (String.ofList step)

/-- The components of a path; two spellings of one path have the same. -/
def components (path : Path) : List Component :=
  path.opening.components ++ (path.steps.filter (!isVoid ·)).map .ofStep

/-- The path with the given opening and steps. -/
def assemble (opening : Opening) (steps : List (List Char)) : Path :=
  ⟨String.ofList (opening.text ++ ['/'].intercalate steps)⟩

/-- The steps from the last to the first, from the last that stands for something. -/
def stepsFromEnd (path : Path) : List (List Char) :=
  path.steps.reverse.dropWhile isVoid

/-- The path opens with a slash. -/
def isAbsolute (path : Path) : Bool := path.opening == .root

/-- The path that leads on from `base` along `path`; an absolute `path` stands alone. -/
def join (base path : Path) : Path :=
  if path.isAbsolute || base.text.isEmpty then path
  else if base.text.toList.getLast? = some '/' then ⟨base.text ++ path.text⟩
  else ⟨base.text ++ "/" ++ path.text⟩

/-- The path without its last component; the root and the empty path have no parent. -/
def parent? (path : Path) : Option Path :=
  match path.stepsFromEnd, path.opening with
  | _ :: above, opening => some (assemble opening (above.dropWhile isVoid).reverse)
  | [], .current => some ⟨""⟩
  | [], _ => none

/-- The path with the given opening and steps, the last first, without its last
component, and so on. -/
def above (opening : Opening) : List (List Char) → List Path
  | [] => if opening = .current then [⟨""⟩] else []
  | _ :: steps =>
      have : (steps.dropWhile isVoid).length < steps.length + 1 :=
        Nat.lt_succ_of_le (List.dropWhile_sublist _).length_le
      assemble opening (steps.dropWhile isVoid).reverse ::
        above opening (steps.dropWhile isVoid)
termination_by steps => steps.length

/-- The path, its parent, the parent of that, and so on. -/
def ancestors (path : Path) : List Path := path :: above path.opening path.stepsFromEnd

/-- The last component, if it is a name. -/
def fileName? (path : Path) : Option String :=
  match path.stepsFromEnd with
  | step :: _ => if step = ['.', '.'] then none else some (String.ofList step)
  | [] => none

/-- What follows the last dot of the file name, unless that dot opens the name. -/
def extension? (path : Path) : Option String :=
  path.fileName?.bind fun name => (Text.afterLast? '.' name.toList).map String.ofList

/-- Drops steps until `count` of those that stand for something are gone. -/
def dropSteps : Nat → List (List Char) → List (List Char)
  | 0, steps => steps
  | _, [] => []
  | count + 1, step :: steps =>
      if isVoid step then dropSteps (count + 1) steps else dropSteps count steps

/-- What remains of a path below `base`, if its components begin with those of `base`. -/
def stripPrefix? (path base : Path) : Option Path :=
  match base.components, path.stepsFromEnd.reverse with
  | [], steps => some (assemble path.opening steps)
  | _, steps =>
      if base.components.isPrefixOf path.components then
        let below := dropSteps (base.steps.countP (!isVoid ·)) steps
        some (assemble .plain (below.dropWhile isVoid))
      else none

/-- Two paths have the same components. -/
def agrees (path other : Path) : Bool := path.components == other.components

/-- A text with every backslash turned into a slash. -/
def withSlashes (text : String) : String :=
  text.map fun c => if c = '\\' then '/' else c

/-- How a path is shown to someone who works at `root`. -/
def shownFrom (path root : Path) : String :=
  withSlashes ((path.stripPrefix? root).getD path).text

/-- The first step of a text that does not start with a slash starts as the text does. -/
theorem splitOn_cons_of_ne {c : Char} (text : List Char) (hc : c ≠ '/') : ∃ start rest,
    text.splitOn '/' = start :: rest ∧ (c :: text).splitOn '/' = (c :: start) :: rest := by
  obtain ⟨start, rest, hsplit⟩ := List.exists_cons_of_ne_nil (List.splitOn_ne_nil '/' text)
  refine ⟨start, rest, hsplit, ?_⟩
  rw [List.splitOn_cons_eq_if_modifyHead, if_neg (by simpa using hc), hsplit]
  rfl

/-- The steps of a text hold its characters, less the slashes. -/
theorem mem_of_mem_splitOn {text step : List Char} {c : Char} (hstep : step ∈ text.splitOn '/')
    (hc : c ∈ step) : c ≠ '/' ∧ c ∈ text := by
  induction text generalizing step with
  | nil =>
      rw [List.splitOn_nil, List.mem_singleton] at hstep
      rw [hstep] at hc
      cases hc
  | cons first text ih =>
      by_cases hslash : first = '/'
      · rw [hslash, ← List.nil_append ('/' :: text), List.splitOn_append_cons_self] at hstep
        rcases List.mem_cons.mp hstep with rfl | hstep
        · cases hc
        · exact (ih hstep hc).imp_right (List.mem_cons_of_mem first)
      · obtain ⟨start, rest, hsplit, hfirst⟩ := splitOn_cons_of_ne text hslash
        rw [hfirst] at hstep
        rw [hsplit] at ih
        rcases List.mem_cons.mp hstep with rfl | hstep
        · rcases List.mem_cons.mp hc with rfl | hc
          · exact ⟨hslash, List.mem_cons_self⟩
          · exact (ih List.mem_cons_self hc).imp_right (List.mem_cons_of_mem first)
        · exact (ih (List.mem_cons_of_mem start hstep) hc).imp_right
            (List.mem_cons_of_mem first)

theorem slash_notMem_of_mem_splitOn {text step : List Char} (h : step ∈ text.splitOn '/') :
    '/' ∉ step :=
  fun hslash => (mem_of_mem_splitOn h hslash).1 rfl

end Path

end OverlayManifest
