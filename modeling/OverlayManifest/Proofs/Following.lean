/-
# Following paths

Following a path step by step is given as a relation, so that what holds of all
paths is proved by induction on the steps. Trees are closed: whatever stands
somewhere stands in a directory. A tree that keeps the directories and the links
of another leads every path of it to the same place.
-/

import OverlayManifest.FileTree.Change

namespace OverlayManifest.FileTree

/-- Names lead from a location to another one, through at most `links` links. -/
inductive Leads (tree : FileTree) (writing : Bool) :
    Nat → Location → List FileName → Location → Prop
  | arrived {links here} : Leads tree writing links here [] here
  | stay {links here} {name : FileName} {rest location}
      (hhere : tree.lookup? here = some .directory) (hname : name = "" ∨ name = ".")
      (hrest : Leads tree writing links here rest location) :
      Leads tree writing links here (name :: rest) location
  | up {links here rest location} (hhere : tree.lookup? here = some .directory)
      (hrest : Leads tree writing links here.dropLast rest location) :
      Leads tree writing links here (".." :: rest) location
  | link {links here} {name : FileName} {rest location target}
      (hhere : tree.lookup? here = some .directory)
      (hname : ¬ (name = "" ∨ name = ".")) (hup : name ≠ "..")
      (hwriting : ¬ (writing && onlySlashes rest) = true)
      (hsize : ¬ nameLimit < name.size)
      (hlink : tree.lookup? (here ++ [name]) = some (.link target))
      (hrest : Leads tree writing links (target.startFrom here) (target.names ++ rest) location) :
      Leads tree writing (links + 1) here (name :: rest) location
  | down {links here} {name : FileName} {rest location}
      (hhere : tree.lookup? here = some .directory)
      (hname : ¬ (name = "" ∨ name = ".")) (hup : name ≠ "..")
      (hwriting : ¬ (writing && onlySlashes rest) = true)
      (hsize : ¬ nameLimit < name.size)
      (hlink : ∀ target, tree.lookup? (here ++ [name]) ≠ some (.link target))
      (hrest : Leads tree writing links (here ++ [name]) rest location) :
      Leads tree writing links here (name :: rest) location

/-- Following names succeeds exactly if they lead somewhere. -/
theorem follow_eq_ok_iff {tree : FileTree} {writing : Bool} {links : Nat} {here : Location}
    {names : List FileName} {location : Location} :
    tree.follow writing links here names = .ok location ↔
      tree.Leads writing links here names location := by
  constructor
  · intro h
    fun_induction follow tree writing links here names with
    | case1 =>
        cases h
        exact .arrived
    | case2 => cases h
    | case3 => cases h
    | case4 => cases h
    | case5 links here name rest hhere hname ih => exact .stay hhere hname (ih h)
    | case6 links here rest hhere hname ih => exact .up hhere (ih h)
    | case7 => cases h
    | case8 => cases h
    | case9 => cases h
    | case10 here name rest hhere hname hup hwriting hsize target hlink links ih =>
        exact .link hhere hname hup hwriting hsize hlink (ih h)
    | case11 links here name rest hhere hname hup hwriting hsize hlink ih =>
        exact .down hhere hname hup hwriting hsize hlink (ih h)
  · intro h
    induction h with
    | arrived => rw [follow]
    | stay hhere hname _ ih => rw [follow, hhere, if_pos hname, ih]
    | up hhere _ ih =>
        rw [follow, hhere, if_neg (by decide), if_pos rfl, ih]
    | link hhere hname hup hwriting hsize hlink _ ih =>
        rw [follow, hhere]
        simp only [if_neg hname, if_neg hup, if_neg hwriting, if_neg hsize, hlink, ih]
    | down hhere hname hup hwriting hsize hlink _ ih =>
        rw [follow, hhere]
        simp only [if_neg hname, if_neg hup, if_neg hwriting, if_neg hsize]
        exact ih

/-- Whatever stands somewhere stands in a directory. -/
def Closed (tree : FileTree) : Prop :=
  ∀ parent name, tree.lookup? (parent ++ [name]) ≠ none → tree.lookup? parent = some .directory

/-- The directory above a directory is one. -/
theorem Closed.dropLast {tree : FileTree} (hclosed : tree.Closed) {location : Location}
    (h : tree.lookup? location = some .directory) :
    tree.lookup? location.dropLast = some .directory := by
  rcases List.eq_nil_or_concat location with rfl | ⟨parent, name, rfl⟩
  · exact h
  · rw [List.concat_eq_append, List.dropLast_concat]
    rw [List.concat_eq_append] at h
    exact hclosed parent name (by rw [h]; simp)

/-- Above whatever stands somewhere there are directories. -/
theorem Closed.above {tree : FileTree} (hclosed : tree.Closed) {location below : Location}
    (hbelow : below ≠ []) (h : tree.lookup? (location ++ below) ≠ none) :
    tree.lookup? location = some .directory := by
  induction below generalizing location with
  | nil => exact absurd rfl hbelow
  | cons name rest ih =>
      apply hclosed location name
      by_cases hrest : rest = []
      · rw [hrest] at h
        exact h
      · rw [← List.singleton_append, ← List.append_assoc] at h
        rw [ih hrest h]
        simp

/-- Where steps end there is a directory, or something in a directory that is no link. -/
theorem Leads.end_cases {tree : FileTree} (hclosed : tree.Closed) {writing : Bool} {links : Nat}
    {here : Location} {names : List FileName} {location : Location}
    (h : tree.Leads writing links here names location) :
    (names = [] ∧ location = here) ∨ tree.lookup? location = some .directory ∨
      ∃ parent name, location = parent ++ [name] ∧ tree.lookup? parent = some .directory ∧
        ∀ target, tree.lookup? location ≠ some (.link target) := by
  induction h with
  | arrived => exact .inl ⟨rfl, rfl⟩
  | stay hhere _ _ ih =>
      rcases ih with ⟨-, rfl⟩ | ih
      · exact .inr (.inl hhere)
      · exact .inr ih
  | up hhere _ ih =>
      rcases ih with ⟨-, rfl⟩ | ih
      · exact .inr (.inl (hclosed.dropLast hhere))
      · exact .inr ih
  | @link _ here _ rest _ target hhere _ _ _ _ _ _ ih =>
      rcases ih with ⟨hnil, -⟩ | ih
      · -- A path has a name, if only an empty one.
        exact absurd (List.append_eq_nil_iff.mp hnil).1 target.nonempty
      · exact .inr ih
  | @down _ here name _ _ hhere _ _ _ _ hlink _ ih =>
      rcases ih with ⟨-, rfl⟩ | ih
      · exact .inr (.inr ⟨here, name, rfl, hhere, hlink⟩)
      · exact .inr ih

/-- What can be written can be read. -/
theorem Leads.toRead {tree : FileTree} {writing : Bool} {links : Nat} {here : Location}
    {names : List FileName} {location : Location}
    (h : tree.Leads writing links here names location) :
    tree.Leads false links here names location := by
  induction h with
  | arrived => exact .arrived
  | stay hhere hname _ ih => exact .stay hhere hname ih
  | up hhere _ ih => exact .up hhere ih
  | link hhere hname hup _ hsize hlink _ ih =>
      exact .link hhere hname hup Bool.false_ne_true hsize hlink ih
  | down hhere hname hup _ hsize hlink _ ih =>
      exact .down hhere hname hup Bool.false_ne_true hsize hlink ih

/-- Steps pass through where the first of them lead, with the links that are left. -/
theorem Leads.split {tree : FileTree} {links : Nat} {here : Location} {names first last : List FileName}
    {location : Location} (h : tree.Leads false links here names location)
    (hnames : names = first ++ last) :
    ∃ left middle, tree.Leads false links here first middle ∧
      tree.Leads false left middle last location := by
  induction h generalizing first with
  | @arrived links here =>
      obtain ⟨rfl, rfl⟩ := List.append_eq_nil_iff.mp hnames.symm
      exact ⟨links, here, .arrived, .arrived⟩
  | @stay links here name rest location hhere hname hrest ih =>
      cases first with
      | nil =>
          cases hnames
          exact ⟨links, here, .arrived, .stay hhere hname hrest⟩
      | cons other first =>
          rw [List.cons_append, List.cons.injEq] at hnames
          obtain ⟨rfl, hnames⟩ := hnames
          obtain ⟨left, middle, hfirst, hlast⟩ := ih hnames
          exact ⟨left, middle, .stay hhere hname hfirst, hlast⟩
  | @up links here rest location hhere hrest ih =>
      cases first with
      | nil =>
          cases hnames
          exact ⟨links, here, .arrived, .up hhere hrest⟩
      | cons other first =>
          rw [List.cons_append, List.cons.injEq] at hnames
          obtain ⟨rfl, hnames⟩ := hnames
          obtain ⟨left, middle, hfirst, hlast⟩ := ih hnames
          exact ⟨left, middle, .up hhere hfirst, hlast⟩
  | @link links here name rest location target hhere hname hup hwriting hsize hlink hrest ih =>
      cases first with
      | nil =>
          cases hnames
          exact ⟨links + 1, here, .arrived, .link hhere hname hup hwriting hsize hlink hrest⟩
      | cons other first =>
          rw [List.cons_append, List.cons.injEq] at hnames
          obtain ⟨rfl, rfl⟩ := hnames
          obtain ⟨left, middle, hfirst, hlast⟩ := ih (List.append_assoc _ _ _).symm
          exact ⟨left, middle, .link hhere hname hup Bool.false_ne_true hsize hlink hfirst, hlast⟩
  | @down links here name rest location hhere hname hup hwriting hsize hlink hrest ih =>
      cases first with
      | nil =>
          cases hnames
          exact ⟨links, here, .arrived, .down hhere hname hup hwriting hsize hlink hrest⟩
      | cons other first =>
          rw [List.cons_append, List.cons.injEq] at hnames
          obtain ⟨rfl, hnames⟩ := hnames
          obtain ⟨left, middle, hfirst, hlast⟩ := ih hnames
          exact ⟨left, middle, .down hhere hname hup Bool.false_ne_true hsize hlink hfirst, hlast⟩

/-- Steps go on from where the first of them lead, if the rest of them need no links. -/
theorem Leads.append {tree : FileTree} {links : Nat} {here middle location : Location}
    {first last : List FileName} (hfirst : tree.Leads false links here first middle)
    (hlast : ∀ left, tree.Leads false left middle last location) :
    tree.Leads false links here (first ++ last) location := by
  induction hfirst with
  | arrived => exact hlast _
  | stay hhere hname _ ih => exact .stay hhere hname (ih hlast)
  | up hhere _ ih => exact .up hhere (ih hlast)
  | link hhere hname hup _ hsize hlink _ ih =>
      rw [List.cons_append]
      refine .link hhere hname hup Bool.false_ne_true hsize hlink ?_
      rw [← List.append_assoc]
      exact ih hlast
  | down hhere hname hup _ hsize hlink _ ih =>
      exact .down hhere hname hup Bool.false_ne_true hsize hlink (ih hlast)

/-- Slashes lead nowhere else. -/
theorem Leads.slashes {tree : FileTree} {writing : Bool} {links : Nat} {here : Location}
    {names : List FileName} (hhere : tree.lookup? here = some .directory)
    (hnames : ∀ name ∈ names, name = "") : tree.Leads writing links here names here := by
  induction names with
  | nil => exact .arrived
  | cons name rest ih =>
      exact .stay hhere (.inl (hnames name (by simp)))
        (ih fun other hother => hnames other (by simp [hother]))

/-- Steps lead to one place. -/
theorem Leads.unique {tree : FileTree} {writing : Bool} {links : Nat} {here : Location}
    {names : List FileName} {location other : Location}
    (h : tree.Leads writing links here names location)
    (hother : tree.Leads writing links here names other) : other = location :=
  Except.ok.inj ((follow_eq_ok_iff.mpr hother).symm.trans (follow_eq_ok_iff.mpr h))

/-- Steps to a name start in a directory. -/
theorem Leads.directory_of_cons {tree : FileTree} {writing : Bool} {links : Nat}
    {here location : Location} {name : FileName} {rest : List FileName}
    (h : tree.Leads writing links here (name :: rest) location) :
    tree.lookup? here = some .directory := by
  cases h with
  | stay hhere => exact hhere
  | up hhere => exact hhere
  | link hhere => exact hhere
  | down hhere => exact hhere

/-- A slash after the last name asks for a directory. -/
theorem Leads.directory_of_slash {tree : FileTree} {writing : Bool} {links : Nat}
    {here : Location} {names : List FileName} {location : Location}
    (h : tree.Leads writing links here names location) (hslash : names.getLast? = some (.plain "")) :
    tree.lookup? location = some .directory := by
  have hlater {name : FileName} {rest : List FileName} (hnil : rest ≠ [])
      (hlast : (name :: rest).getLast? = some (.plain "")) : rest.getLast? = some (.plain "") := by
    rwa [List.getLast?_cons_of_ne_nil hnil] at hlast
  induction h with
  | arrived => cases hslash
  | @stay _ _ _ rest _ hhere _ hrest ih =>
      by_cases hnil : rest = []
      · subst hnil
        cases hrest
        exact hhere
      · exact ih (hlater hnil hslash)
  | @up _ _ rest _ _ _ ih =>
      by_cases hnil : rest = []
      · subst hnil
        exact absurd hslash (by decide)
      · exact ih (hlater hnil hslash)
  | @link _ _ name rest _ target _ hname _ _ _ _ _ ih =>
      by_cases hnil : rest = []
      · subst hnil
        cases hslash
        exact absurd (.inl rfl) hname
      · apply ih
        rw [List.getLast?_append, hlater hnil hslash]
        rfl
  | @down _ _ name rest _ _ hname _ _ _ _ _ ih =>
      by_cases hnil : rest = []
      · subst hnil
        cases hslash
        exact absurd (.inl rfl) hname
      · exact ih (hlater hnil hslash)

/-- What can be read can be written, unless it is a directory. -/
theorem Leads.toWrite {tree : FileTree} {links : Nat} {here : Location} {names : List FileName}
    {location : Location} (h : tree.Leads false links here names location)
    (hlocation : tree.lookup? location ≠ some .directory) :
    tree.Leads true links here names location := by
  have hslash {rest : List FileName} (honly : (true && onlySlashes rest) = true) :
      rest.getLast? = some (.plain "") := by
    rw [Bool.true_and, onlySlashes, Bool.and_eq_true, List.all_eq_true] at honly
    obtain ⟨last, hlast⟩ := Option.ne_none_iff_exists'.mp
      (show rest.getLast? ≠ none by simpa using honly.1)
    rw [hlast, Option.some.injEq]
    simpa using honly.2 last (List.mem_of_getLast? hlast)
  induction h with
  | arrived => exact .arrived
  | stay hhere hname _ ih => exact .stay hhere hname (ih hlocation)
  | up hhere _ ih => exact .up hhere (ih hlocation)
  | link hhere hname hup _ hsize hlink hrest ih =>
      refine .link hhere hname hup (fun honly => ?_) hsize hlink (ih hlocation)
      refine hlocation (hrest.directory_of_slash ?_)
      rw [List.getLast?_append, hslash honly]
      rfl
  | down hhere hname hup _ hsize hlink hrest ih =>
      refine .down hhere hname hup (fun honly => ?_) hsize hlink (ih hlocation)
      exact hlocation (hrest.directory_of_slash (hslash honly))

/-- A tree has the directories and the links of another, and no other links. -/
structure Keeps (tree after : FileTree) : Prop where
  workingDirectory_eq : after.workingDirectory = tree.workingDirectory
  directory : ∀ {location}, tree.lookup? location = some .directory →
    after.lookup? location = some .directory
  link_iff : ∀ {location target},
    after.lookup? location = some (.link target) ↔ tree.lookup? location = some (.link target)

/-- What leads somewhere still leads there. -/
theorem Leads.keep {tree after : FileTree} (hkeeps : Keeps tree after) {writing : Bool}
    {links : Nat} {here : Location} {names : List FileName} {location : Location}
    (h : tree.Leads writing links here names location) :
    after.Leads writing links here names location := by
  induction h with
  | arrived => exact .arrived
  | stay hhere hname _ ih => exact .stay (hkeeps.directory hhere) hname ih
  | up hhere _ ih => exact .up (hkeeps.directory hhere) ih
  | link hhere hname hup hwriting hsize hlink _ ih =>
      exact .link (hkeeps.directory hhere) hname hup hwriting hsize (hkeeps.link_iff.mpr hlink) ih
  | down hhere hname hup hwriting hsize hlink _ ih =>
      exact .down (hkeeps.directory hhere) hname hup hwriting hsize
        (fun target h => hlink target (hkeeps.link_iff.mp h)) ih

/-- A path that leads somewhere has a text without faults. -/
theorem locate_eq_ok_iff {tree : FileTree} {path : Path} {location : Location} :
    tree.locate path = .ok location ↔
      textFault? path = none ∧
        tree.Leads false linkLimit (startOf tree.workingDirectory path) (namesOf path)
          location := by
  unfold locate
  split
  · rename_i hfault
    simp [hfault]
  · rename_i hfault
    rw [follow_eq_ok_iff]
    simp [hfault]

theorem locateToWrite_eq_ok_iff {tree : FileTree} {path : Path} {location : Location} :
    tree.locateToWrite path = .ok location ↔
      textFault? path = none ∧
        tree.Leads true linkLimit (startOf tree.workingDirectory path) (namesOf path) location := by
  unfold locateToWrite
  split
  · rename_i hfault
    simp [hfault]
  · rename_i hfault
    rw [follow_eq_ok_iff]
    simp [hfault]

/-- A path still leads where it led. -/
theorem locate_of_keeps {tree after : FileTree} (hkeeps : Keeps tree after) {path : Path}
    {location : Location} (h : tree.locate path = .ok location) :
    after.locate path = .ok location := by
  rw [locate_eq_ok_iff] at h ⊢
  rw [hkeeps.workingDirectory_eq]
  exact ⟨h.1, h.2.keep hkeeps⟩

theorem find?_eq_ok_iff {tree : FileTree} {path : Path} {entry : Entry} :
    tree.find? path = .ok entry ↔
      ∃ location, tree.locate path = .ok location ∧ tree.lookup? location = some entry := by
  unfold find?
  cases tree.locate path with
  | error => simp
  | ok location =>
      cases hentry : tree.lookup? location with
      | none => simp [hentry]
      | some found => simp [hentry]

theorem hasDirectory_iff {tree : FileTree} {path : Path} :
    tree.hasDirectory path = true ↔
      ∃ location, tree.locate path = .ok location ∧ tree.lookup? location = some .directory := by
  rw [← find?_eq_ok_iff]
  unfold hasDirectory
  split
  · rename_i hfound
    simp [hfound]
  · rename_i hother
    constructor
    · intro h
      cases h
    · intro hfound
      exact absurd hfound hother

theorem hasFile_iff {tree : FileTree} {path : Path} : tree.hasFile path = true ↔
    ∃ location bytes, tree.locate path = .ok location ∧
      tree.lookup? location = some (.file bytes) := by
  rw [exists_comm]
  simp only [← find?_eq_ok_iff]
  unfold hasFile
  split
  · rename_i bytes hfound
    simp [hfound]
  · rename_i hother
    constructor
    · intro h
      cases h
    · rintro ⟨bytes, hfound⟩
      exact absurd hfound (hother bytes)

/-- A directory that a path leads to stays one. -/
theorem hasDirectory_of_keeps {tree after : FileTree} (hkeeps : Keeps tree after) {path : Path}
    (h : tree.hasDirectory path = true) : after.hasDirectory path = true := by
  obtain ⟨location, hlocation, hdirectory⟩ := hasDirectory_iff.mp h
  exact hasDirectory_iff.mpr
    ⟨location, locate_of_keeps hkeeps hlocation, hkeeps.directory hdirectory⟩

end OverlayManifest.FileTree
