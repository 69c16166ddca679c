/-
# Trees without links

In a tree without links, following a path is a recursion on its names, which can be
evaluated, and the names alone decide where the path leads.
-/

import OverlayManifest.Proofs.TreeGrowth

namespace OverlayManifest.FileTree

/-- No link stands in the tree. -/
def LinkFree (tree : FileTree) : Prop :=
  ∀ location target, tree.lookup? location ≠ some (.link target)

/-- Follows names in a tree without links. -/
def walk (tree : FileTree) (writing : Bool) (here : Location) :
    List FileName → Except Fault Location
  | [] => .ok here
  | name :: rest =>
      match tree.lookup? here with
      | none => .error .notFound
      | some (.file _) | some (.link _) => .error .notDirectory
      | some .directory =>
          if name = "" ∨ name = "." then tree.walk writing here rest
          else if name = ".." then tree.walk writing here.dropLast rest
          else if writing && onlySlashes rest then .error .isDirectory
          else if nameLimit < name.size then .error .tooLong
          else tree.walk writing (here ++ [name]) rest

/-- Without links, following names needs no count of links. -/
theorem follow_eq_walk {tree : FileTree} (hfree : tree.LinkFree) (writing : Bool) (links : Nat)
    (here : Location) (names : List FileName) :
    tree.follow writing links here names = tree.walk writing here names := by
  induction names generalizing here with
  | nil => rw [follow, walk]
  | cons name rest ih =>
      rw [follow, walk]
      cases tree.lookup? here with
      | none => rfl
      | some entry =>
          cases entry with
          | file => rfl
          | link => rfl
          | directory =>
              have hlink : ∀ target, tree.lookup? (here ++ [name]) ≠ some (.link target) :=
                hfree _
              simp only [ih]

theorem locate_eq_walk {tree : FileTree} (hfree : tree.LinkFree) {path : Path}
    (hfault : textFault? path = none) :
    tree.locate path =
      tree.walk false (startOf tree.workingDirectory path) (namesOf path) := by
  rw [locate, hfault]
  exact follow_eq_walk hfree _ _ _ _

theorem locateToWrite_eq_walk {tree : FileTree} (hfree : tree.LinkFree) {path : Path}
    (hfault : textFault? path = none) :
    tree.locateToWrite path =
      tree.walk true (startOf tree.workingDirectory path) (namesOf path) := by
  rw [locateToWrite, hfault]
  exact follow_eq_walk hfree _ _ _ _

/-- Following names passes through where the first of them lead. -/
theorem walk_append (tree : FileTree) (here : Location) (first last : List FileName) :
    tree.walk false here (first ++ last) =
      match tree.walk false here first with
      | .error fault => .error fault
      | .ok middle => tree.walk false middle last := by
  induction first generalizing here with
  | nil => rfl
  | cons name first ih =>
      rw [List.cons_append, walk, walk]
      cases tree.lookup? here with
      | none => rfl
      | some entry =>
          cases entry with
          | file => rfl
          | link => rfl
          | directory =>
              simp only [ih, Bool.false_and, Bool.false_eq_true, if_false]
              repeat' split
              all_goals simp_all

/-- Slashes at the end lead nowhere else, but ask for a directory. -/
theorem walk_slashes {tree : FileTree} {here location : Location} {names : List FileName}
    (hnames : ∀ name ∈ names, name = "") :
    tree.walk false here names = .ok location ↔
      location = here ∧ (names = [] ∨ tree.lookup? here = some .directory) := by
  induction names with
  | nil => simp [walk, eq_comm]
  | cons name names ih =>
      have hname : name = "" := hnames name (by simp)
      have hrest := ih fun other hother => hnames other (by simp [hother])
      rw [walk]
      cases hhere : tree.lookup? here with
      | none => simp
      | some entry =>
          cases entry with
          | file => simp
          | link => simp
          | directory => simp [hname, hrest, hhere]

/-- Without links, a path leads to nothing if its names do. -/
theorem find?_of_walk {tree : FileTree} (hfree : tree.LinkFree) {path : Path}
    {location : Location} (hfault : textFault? path = none)
    (hwalk : tree.walk false (startOf tree.workingDirectory path) (namesOf path) = .ok location)
    (hnone : tree.lookup? location = none) : tree.find? path = .error .notFound := by
  rw [find?, locate_eq_walk hfree hfault, hwalk]
  simp only [hnone]

/-- A tree that only grows gets no links. -/
theorem LinkFree.keep {tree after : FileTree} (hfree : tree.LinkFree) (hkeeps : Keeps tree after) :
    after.LinkFree := by
  intro location target hlink
  exact hfree location target (hkeeps.link_iff.mp hlink)

/-- What holds of all entries of a tree can be checked on their list. -/
theorem forall_lookup?_iff {tree : FileTree} {Holds : Location → Entry → Prop}
    (hroot : Holds [] .directory) :
    (∀ location entry, tree.lookup? location = some entry → Holds location entry) ↔
      ∀ pair ∈ tree.entries.toList, pair.1 = [] ∨ Holds pair.1 pair.2 := by
  constructor
  · intro h pair hpair
    by_cases hnil : pair.1 = []
    · exact .inl hnil
    · refine .inr (h _ _ ?_)
      rw [lookup?, if_neg hnil]
      exact Std.ExtTreeMap.mem_toList_iff_getElem?_eq_some.mp hpair
  · intro h location entry hlookup
    by_cases hnil : location = []
    · subst hnil
      rw [lookup?_nil] at hlookup
      cases hlookup
      exact hroot
    · rw [lookup?, if_neg hnil] at hlookup
      have hpair := Std.ExtTreeMap.mem_toList_iff_getElem?_eq_some.mpr hlookup
      exact (h (location, entry) hpair).resolve_left hnil

/-- An entry is a link. -/
def isLink : Entry → Bool
  | .link _ => true
  | _ => false

theorem linkFree_iff {tree : FileTree} :
    tree.LinkFree ↔
      ∀ location entry, tree.lookup? location = some entry → isLink entry = false := by
  constructor
  · intro hfree location entry hlookup
    cases entry with
    | link target => exact absurd hlookup (hfree location target)
    | directory => rfl
    | file => rfl
  · intro h location target hlookup
    cases h location _ hlookup

instance (tree : FileTree) : Decidable tree.LinkFree :=
  decidable_of_iff _ (linkFree_iff.trans (forall_lookup?_iff rfl)).symm

theorem closed_iff {tree : FileTree} :
    tree.Closed ↔ ∀ location entry, tree.lookup? location = some entry →
      tree.lookup? location.dropLast = some .directory := by
  constructor
  · intro hclosed location entry hlookup
    rcases List.eq_nil_or_concat location with rfl | ⟨parent, name, rfl⟩
    · rfl
    · rw [List.concat_eq_append] at hlookup
      rw [List.concat_eq_append, List.dropLast_concat]
      exact hclosed parent name (by simp [hlookup])
  · intro h parent name hbelow
    obtain ⟨entry, hentry⟩ := Option.ne_none_iff_exists'.mp hbelow
    simpa using h _ _ hentry

instance (tree : FileTree) : Decidable tree.Closed :=
  decidable_of_iff _ (closed_iff.trans (forall_lookup?_iff rfl)).symm

/-- The tree with the entries of a list, entered at its root. -/
def ofEntries (entries : List (Location × Entry)) : FileTree := ⟨.ofList entries, []⟩

/-- A project whose only resource is a raw file with the given name. -/
def rawProject (name : String) : FileTree :=
  ofEntries [(["res"], .directory), (["res", "raw"], .directory),
    (["res", "raw", name], .file "".toUTF8)]

theorem closed_rawProject : (rawProject "a").Closed := by decide

theorem linkFree_rawProject : (rawProject "a").LinkFree := by decide

end OverlayManifest.FileTree
