/-
# Tables of TOML

A table has members by name. Where a table comes from says how it may grow: one
with a header is closed to other headers and to dotted keys, one that a longer
header or a dotted key passes through stays open to its like, and an inline
table is closed. A header in double brackets adds a table to a list of tables,
and what follows belongs to the last of them.
-/

namespace OverlayManifest.Toml

/-- Where a table comes from. -/
inductive Origin
  | header
  | passing
  | dotted
  | inline
  deriving DecidableEq, Repr

/-- A value; of numbers, truth values and moments nothing is kept. -/
inductive Value
  | text (value : String)
  | other
  | list (items : List Value)
  | table (origin : Origin) (members : List (String × Value))
  | tables (earlier : List Value) (last : List (String × Value))
  deriving Inhabited, Repr

/-- The members of a table, each with its name. -/
abbrev Members := List (String × Value)

namespace Members

/-- The value of a member. -/
def find? (members : Members) (name : String) : Option Value := members.lookup name

/-- Gives a member a value in place of the one it has. -/
def put (members : Members) (name : String) (value : Value) : Members :=
  (members.filter (·.1 != name)) ++ [(name, value)]

/-- Adds a member below a dotted key, whose steps are tables that only dotted keys or
longer headers made, or lists of tables; the last must be a table of dotted keys. -/
def assign (members : Members) (path : List String) (name : String) (value : Value) :
    Option Members :=
  match path with
  | [] => if (members.find? name).isSome then none else some (members ++ [(name, value)])
  | step :: path =>
      match members.find? step with
      | none => do
          let inner ← assign [] path name value
          return members.put step (.table .dotted inner)
      | some (.table origin inner) => do
          if origin = .header ∨ origin = .inline ∨ (path.isEmpty ∧ origin = .passing) then none
          else return members.put step (.table origin (← assign inner path name value))
      | some (.tables earlier last) => do
          if path.isEmpty then none
          else return members.put step (.tables earlier (← assign last path name value))
      | some _ => none

/-- Changes the table that a header's path leads to; tables on the way that are
missing are made. -/
def modifyAt (members : Members) (path : List String) (change : Members → Option Members) :
    Option Members :=
  match path with
  | [] => change members
  | step :: path =>
      match members.find? step with
      | none => do
          let inner ← modifyAt [] path change
          return members.put step (.table .passing inner)
      | some (.table origin inner) => do
          if origin = .inline then none
          else return members.put step (.table origin (← modifyAt inner path change))
      | some (.tables earlier last) => do
          return members.put step (.tables earlier (← modifyAt last path change))
      | some _ => none

/-- Adds the table of a header, which may be there only because a longer header
passed through it. -/
def openTable (members : Members) (name : String) : Option Members :=
  match members.find? name with
  | none => some (members.put name (.table .header []))
  | some (.table .passing inner) => some (members.put name (.table .header inner))
  | some _ => none

/-- Adds a table to a list of tables. -/
def addTable (members : Members) (name : String) : Option Members :=
  match members.find? name with
  | none => some (members.put name (.tables [] []))
  | some (.tables earlier last) =>
      some (members.put name (.tables (earlier ++ [.table .header last]) []))
  | some _ => none

end Members

end OverlayManifest.Toml
