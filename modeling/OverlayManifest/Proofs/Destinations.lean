/-
# Where paths lead without links

In a tree without links, the names of a path decide where it leads, and every
directory on the way is there. Making the directories above a path makes directories
where paths above it lead.
-/

import OverlayManifest.Proofs.LinkFree
import OverlayManifest.Proofs.PathNames

namespace OverlayManifest.FileTree

/-- A name that stands for nothing. -/
def isVoidName (name : FileName) : Bool := name == "" || name == "."

/-- The names of a path that stand for something. -/
def solidNames (path : Path) : List FileName := (namesOf path).filter (!isVoidName ·)

/-- One step from a location. -/
def advance (here : Location) (name : FileName) : Location :=
  if isVoidName name then here
  else if name = ".." then here.dropLast
  else here ++ [name]

/-- Where names lead from a location. -/
def destination (here : Location) (names : List FileName) : Location := names.foldl advance here

/-- Where a path leads in a tree without links. -/
def destinationOf (tree : FileTree) (path : Path) : Location :=
  destination (startOf tree.workingDirectory path) (solidNames path)

theorem isVoidName_iff {name : FileName} : isVoidName name = true ↔ name = "" ∨ name = "." := by
  rw [isVoidName, Bool.or_eq_true, beq_iff_eq, beq_iff_eq]

theorem isVoidName_ofStep (step : List Char) :
    isVoidName (.ofStep step) = Path.isVoid step := by
  rw [Bool.eq_iff_iff, isVoidName_iff, Path.isVoid, Bool.or_eq_true, beq_iff_eq, beq_iff_eq,
    FileName.ofStep, FileName.plain.injEq, FileName.plain.injEq, ← String.toList_inj,
    ← String.toList_inj, String.toList_ofList]
  rfl

theorem solidNames_eq (path : Path) : solidNames path = path.solidSteps.map .ofStep := by
  rw [solidNames, namesOf, List.filter_map, Path.solidSteps]
  congr 2
  funext step
  exact congrArg (!·) (isVoidName_ofStep step)

theorem destination_cons (here : Location) (name : FileName) (rest : List FileName) :
    destination here (name :: rest) = destination (advance here name) rest := rfl

theorem destination_append (here : Location) (first last : List FileName) :
    destination here (first ++ last) = destination (destination here first) last :=
  List.foldl_append

/-- Names that stand for nothing lead nowhere else. -/
theorem destination_filter (here : Location) (names : List FileName) :
    destination here (names.filter (!isVoidName ·)) = destination here names := by
  induction names generalizing here with
  | nil => rfl
  | cons name names ih =>
      by_cases hvoid : isVoidName name = true
      · rw [List.filter_cons_of_neg (by simp [hvoid]), ih, destination_cons, advance,
          if_pos hvoid]
      · rw [List.filter_cons_of_pos (by simp [hvoid]), destination_cons, destination_cons, ih]

/-- Plain names lead down. -/
theorem destination_names {here : Location} {names : List FileName}
    (hsolid : ∀ name ∈ names, isVoidName name = false) (hup : .plain ".." ∉ names) :
    destination here names = here ++ names := by
  induction names generalizing here with
  | nil => simp [destination]
  | cons name names ih =>
      rw [List.mem_cons, not_or] at hup
      have hname : advance here name = here ++ [name] := by
        rw [advance, if_neg (by simp [hsolid name]), if_neg (Ne.symm hup.1)]
      rw [destination_cons, hname, ih (fun other hother => hsolid other (by simp [hother])) hup.2]
      simp

/-! ## Walks -/

/-- A walk starts in a directory, and goes on from where its first name leads. -/
theorem walk_cons {tree : FileTree} {writing : Bool} {here location : Location} {name : FileName}
    {rest : List FileName} (h : tree.walk writing here (name :: rest) = .ok location) :
    tree.lookup? here = some .directory ∧
      tree.walk writing (advance here name) rest = .ok location := by
  rw [walk] at h
  split at h
  · cases h
  · cases h
  · cases h
  · rename_i hhere
    refine ⟨hhere, ?_⟩
    unfold advance
    split at h
    · rename_i hvoid
      rw [if_pos (isVoidName_iff.mpr hvoid)]
      exact h
    · rename_i hsolid
      rw [if_neg (fun hvoid => hsolid (isVoidName_iff.mp hvoid))]
      split at h
      · rename_i hup
        rw [if_pos hup]
        exact h
      · rename_i hup
        rw [if_neg hup]
        split at h
        · cases h
        · split at h
          · cases h
          · exact h

/-- A walk ends where its names lead. -/
theorem destination_of_walk {tree : FileTree} {writing : Bool} {here location : Location}
    {names : List FileName} (h : tree.walk writing here names = .ok location) :
    location = destination here names := by
  induction names generalizing here with
  | nil =>
      cases h
      rfl
  | cons name rest ih => exact ih (walk_cons h).2

/-- On the way, a walk passes through directories. -/
theorem directory_of_walk {tree : FileTree} {writing : Bool} {here location : Location}
    {names first : List FileName} (h : tree.walk writing here names = .ok location)
    (hfirst : first <+: names.filter (!isVoidName ·)) :
    first = names.filter (!isVoidName ·) ∨
      tree.lookup? (destination here first) = some .directory := by
  induction names generalizing here first with
  | nil => exact .inl (List.prefix_nil.mp hfirst)
  | cons name rest ih =>
      obtain ⟨hhere, hrest⟩ := walk_cons h
      by_cases hvoid : isVoidName name = true
      · rw [advance, if_pos hvoid] at hrest
        rw [List.filter_cons_of_neg (by simp [hvoid])] at hfirst ⊢
        exact ih hrest hfirst
      · rw [List.filter_cons_of_pos (by simp [hvoid])] at hfirst ⊢
        rcases List.prefix_cons_iff.mp hfirst with rfl | ⟨below, rfl, hbelow⟩
        · exact .inr hhere
        · rcases ih hrest hbelow with hall | hdirectory
          · exact .inl (by rw [hall])
          · exact .inr hdirectory

/-- A walk down to something that was there before could be made before. -/
theorem walk_back {tree after : FileTree} (hclosed : tree.Closed) {here location : Location}
    {names : List FileName} (hup : .plain ".." ∉ names) (hthere : tree.lookup? location ≠ none)
    (hdirectory : after.lookup? location = some .directory →
      tree.lookup? location = some .directory)
    (h : after.walk false here names = .ok location) :
    tree.walk false here names = .ok location := by
  induction names generalizing here with
  | nil => exact h
  | cons name rest ih =>
      have hlocation := destination_of_walk h
      rw [← destination_filter, destination_names (fun other hother => by
        rw [List.mem_filter] at hother
        simpa using hother.2) (fun hmem => hup (List.mem_filter.mp hmem).1)] at hlocation
      have hafter := (walk_cons h).1
      have htree : tree.lookup? here = some .directory := by
        by_cases hbelow : (name :: rest).filter (!isVoidName ·) = []
        · rw [hbelow, List.append_nil] at hlocation
          rw [← hlocation]
          exact hdirectory (hlocation ▸ hafter)
        · exact hclosed.above hbelow (hlocation ▸ hthere)
      rw [List.mem_cons, not_or] at hup
      rw [walk, hafter] at h
      rw [walk, htree]
      simp only [Bool.false_and, Bool.false_eq_true, if_false, if_neg (Ne.symm hup.1)] at h ⊢
      by_cases hvoid : name = "" ∨ name = "."
      · rw [if_pos hvoid] at h ⊢
        exact ih hup.2 h
      · rw [if_neg hvoid] at h ⊢
        split at h
        · cases h
        · rename_i hsize
          rw [if_neg hsize]
          exact ih hup.2 h

/-- A path leads where its names do. -/
theorem destinationOf_of_locate {tree : FileTree} (hfree : tree.LinkFree) {path : Path}
    {location : Location} (h : tree.locate path = .ok location) :
    location = tree.destinationOf path := by
  have hfault := (locate_eq_ok_iff.mp h).1
  rw [locate_eq_walk hfree hfault] at h
  rw [destinationOf, solidNames, destination_filter]
  exact destination_of_walk h

/-- Making the directories above a path changes only places where paths above it lead. -/
theorem makeDirectories_changes {tree : FileTree} (hfree : tree.LinkFree) (path : Path)
    {location : Location}
    (h : (tree.makeDirectories path).2.lookup? location ≠ tree.lookup? location) :
    ∃ ancestor ∈ path.ancestors, ancestor.text ≠ "" ∧ location = tree.destinationOf ancestor := by
  obtain ⟨ancestor, hancestor, hlocate⟩ := locate_of_makeDirectories h
  have hgrows := tree.makeDirectories_grows path
  refine ⟨ancestor, hancestor, fun hempty => ?_, ?_⟩
  · have hfault := (locate_eq_ok_iff.mp hlocate).1
    rw [textFault?, if_pos hempty] at hfault
    cases hfault
  · rw [destinationOf_of_locate (hfree.keep hgrows.keeps) hlocate, destinationOf,
      hgrows.workingDirectory_eq, destinationOf]

/-! ## Joined paths -/

section Joined

variable {tree : FileTree} {root path : Path}

/-- The names before those of what is joined to a root. -/
def namesBefore (root : Path) : List FileName := root.stepsBefore.map .ofStep

/-- These names are those of the root. -/
theorem filter_namesBefore (root : Path) :
    (namesBefore root).filter (!isVoidName ·) = solidNames root := by
  rw [namesBefore, solidNames_eq, ← Path.filter_stepsBefore, List.filter_map]
  congr 2
  funext step
  exact congrArg (!·) (isVoidName_ofStep step)

theorem namesOf_join (hrelative : path.isAbsolute = false) :
    namesOf (root.join path) = namesBefore root ++ namesOf path := by
  rw [namesOf, Path.splitOn_join hrelative, List.map_append, namesBefore, namesOf]

theorem startOf_join (hrelative : path.isAbsolute = false) (here : Location) :
    startOf here (root.join path) = startOf here root := by
  rw [startOf, Path.isAbsolute_join hrelative, startOf]

/-- What is joined leads on from where the root leads. -/
theorem destinationOf_join (hrelative : path.isAbsolute = false) :
    tree.destinationOf (root.join path) =
      destination (tree.destinationOf root) (solidNames path) := by
  rw [destinationOf, destinationOf, startOf_join hrelative, ← destination_append,
    solidNames_eq, solidNames_eq, solidNames_eq, Path.solidSteps_join hrelative, List.map_append]

/-- The names of a path of names are its components. -/
theorem solidNames_of_named {names : List String}
    (hnamed : path.components = names.map .named) :
    path.isAbsolute = false ∧ solidNames path = names.map .plain ∧
      (∀ name ∈ names, isVoidName name = false) ∧ ".." ∉ names := by
  obtain ⟨hrelative, hsteps, hup⟩ := Path.components_eq_named hnamed
  have hnames : solidNames path = names.map .plain := by
    rw [solidNames_eq, hsteps, List.map_map]
    exact List.map_congr_left fun name _ => congrArg FileName.plain String.ofList_toList
  refine ⟨hrelative, hnames, fun name hname => ?_, hup⟩
  have hmem : FileName.plain name ∈ solidNames path := hnames ▸ List.mem_map_of_mem hname
  rw [solidNames, List.mem_filter] at hmem
  simpa using hmem.2

theorem isVoidName_of_mem_solidNames {name : FileName} (h : name ∈ solidNames path) :
    isVoidName name = false := by
  simpa using (List.mem_filter.mp h).2

/-- A path of names does not lead up. -/
theorem dots_notMem_namesOf (h : path.IsNamed) : FileName.plain ".." ∉ namesOf path := by
  obtain ⟨names, hnamed⟩ := h
  obtain ⟨-, hnames, -, hup⟩ := solidNames_of_named hnamed
  intro hmem
  have hsolid : .plain ".." ∈ solidNames path := List.mem_filter.mpr ⟨hmem, by decide⟩
  rw [hnames] at hsolid
  exact hup (by simpa using hsolid)

theorem dots_notMem_solidNames (h : path.IsNamed) : FileName.plain ".." ∉ solidNames path :=
  fun hmem => dots_notMem_namesOf h (List.mem_filter.mp hmem).1

/-- Names that are joined lead down from where the root leads. -/
theorem destinationOf_join_names {names : List String}
    (hnamed : path.components = names.map .named) :
    tree.destinationOf (root.join path) = tree.destinationOf root ++ names.map .plain := by
  obtain ⟨hrelative, hnames, hsolid, hup⟩ := solidNames_of_named hnamed
  rw [destinationOf_join hrelative, hnames, destination_names (by simpa using hsolid)
    (by simpa using hup)]

/-- Without links, a joined path is walked from where the root leads. -/
theorem locate_join (hfree : tree.LinkFree) (hrelative : path.isAbsolute = false)
    {location : Location} :
    tree.locate (root.join path) = .ok location ↔
      textFault? (root.join path) = none ∧
        tree.walk false (startOf tree.workingDirectory root) (namesBefore root) =
          .ok (tree.destinationOf root) ∧
        tree.walk false (tree.destinationOf root) (namesOf path) = .ok location := by
  have hbefore {location : Location}
      (h : tree.walk false (startOf tree.workingDirectory root) (namesBefore root) =
        .ok location) : location = tree.destinationOf root := by
    rw [destination_of_walk h, ← destination_filter, filter_namesBefore, destinationOf]
  cases hfault : textFault? (root.join path) with
  | some fault => simp [locate, hfault]
  | none =>
      rw [locate_eq_walk hfree hfault, startOf_join hrelative, namesOf_join hrelative,
        walk_append]
      cases hwalk : tree.walk false (startOf tree.workingDirectory root) (namesBefore root) with
      | error fault => simp
      | ok middle =>
          rw [hbefore hwalk]
          simp

/-- Where a joined path leads somewhere, the root leads to a directory, and so does what
its names begin with. -/
theorem directory_of_locate_join (hfree : tree.LinkFree) (hrelative : path.isAbsolute = false)
    {location : Location} (h : tree.locate (root.join path) = .ok location)
    {first : List FileName} (hfirst : first <+: solidNames root) :
    tree.lookup? (destination (startOf tree.workingDirectory root) first) =
      some .directory := by
  obtain ⟨-, hroot, hpath⟩ := (locate_join hfree hrelative).mp h
  rw [← filter_namesBefore] at hfirst
  rcases directory_of_walk hroot hfirst with hall | hdirectory
  · obtain ⟨name, rest, hnames⟩ :=
      List.exists_cons_of_ne_nil (show namesOf path ≠ [] by simp [namesOf])
    rw [hnames] at hpath
    rw [hall, filter_namesBefore]
    exact (walk_cons hpath).1
  · exact hdirectory

/-- What a path of names leads to was there before, if anything is there that was. -/
theorem locate_back {after : FileTree} (hclosed : tree.Closed) (hfree : tree.LinkFree)
    (hkeeps : Keeps tree after) {names : List String}
    (hnamed : path.components = names.map .named) {other : Path} {base location : Location}
    (hother : other.isAbsolute = false) (hbase : tree.locate (root.join other) = .ok base)
    (hthere : tree.lookup? location ≠ none)
    (hdirectory : after.lookup? location = some .directory →
      tree.lookup? location = some .directory)
    (h : after.locate (root.join path) = .ok location) :
    tree.locate (root.join path) = .ok location := by
  have hrelative := (solidNames_of_named hnamed).1
  obtain ⟨hfault, -, hpath⟩ := (locate_join (hfree.keep hkeeps) hrelative).mp h
  obtain ⟨-, hroot, -⟩ := (locate_join hfree hother).mp hbase
  refine (locate_join hfree hrelative).mpr ⟨hfault, hroot, ?_⟩
  have hstart : after.destinationOf root = tree.destinationOf root := by
    rw [destinationOf, hkeeps.workingDirectory_eq, destinationOf]
  rw [hstart] at hpath
  exact walk_back hclosed (dots_notMem_namesOf ⟨names, hnamed⟩) hthere hdirectory hpath

end Joined

end OverlayManifest.FileTree
