/-
# How trees grow

Making directories only adds directories where nothing was. A change puts an entry
into a directory or takes one away with all that is below it, so whatever changes make
from nothing is closed.
-/

import OverlayManifest.Proofs.Following

namespace OverlayManifest.FileTree

/-- Directories were added where nothing was, and nothing else changed. -/
structure Grows (tree after : FileTree) : Prop where
  workingDirectory_eq : after.workingDirectory = tree.workingDirectory
  lookup?_cases : ∀ location, after.lookup? location = tree.lookup? location ∨
    tree.lookup? location = none ∧ after.lookup? location = some .directory

namespace Grows

theorem refl (tree : FileTree) : Grows tree tree := ⟨rfl, fun _ => .inl rfl⟩

theorem trans {tree middle after : FileTree} (hfirst : Grows tree middle)
    (hlast : Grows middle after) : Grows tree after := by
  refine ⟨hlast.workingDirectory_eq.trans hfirst.workingDirectory_eq, fun location => ?_⟩
  rcases hfirst.lookup?_cases location with hsame | ⟨hnone, hmade⟩
  · rw [← hsame]
    exact hlast.lookup?_cases location
  · refine .inr ⟨hnone, ?_⟩
    rcases hlast.lookup?_cases location with hsame | ⟨-, hmade'⟩
    · rw [hsame, hmade]
    · exact hmade'

/-- A file is one before and after. -/
theorem file_iff {tree after : FileTree} (hgrows : Grows tree after) {location : Location}
    {bytes : ByteArray} :
    after.lookup? location = some (.file bytes) ↔ tree.lookup? location = some (.file bytes) := by
  rcases hgrows.lookup?_cases location with hsame | ⟨hnone, hmade⟩
  · rw [hsame]
  · simp [hnone, hmade]

theorem keeps {tree after : FileTree} (hgrows : Grows tree after) : Keeps tree after where
  workingDirectory_eq := hgrows.workingDirectory_eq
  directory {location} hdirectory := by
    rcases hgrows.lookup?_cases location with hsame | ⟨hnone, -⟩
    · rw [hsame, hdirectory]
    · simp [hdirectory] at hnone
  link_iff {location target} := by
    rcases hgrows.lookup?_cases location with hsame | ⟨hnone, hmade⟩
    · rw [hsame]
    · simp [hnone, hmade]

end Grows

/-- What stands at a location below the root after an entry is set. -/
theorem lookup?_set_below (tree : FileTree) (parent : Location) (name : FileName) (entry : Entry)
    (other : Location) :
    (tree.set (parent ++ [name]) entry).lookup? other =
      if other = parent ++ [name] then some entry else tree.lookup? other := by
  by_cases hother : other = []
  · subst hother
    rw [if_neg (by simp), lookup?_nil, lookup?_nil]
  · rw [lookup?_set _ _ _ _ hother]
    simp only [eq_comm]

/-- A tree stays closed if an entry is set in a directory and replaces no directory. -/
theorem Closed.set {tree : FileTree} (hclosed : tree.Closed) {parent : Location} {name : FileName}
    (entry : Entry) (hparent : tree.lookup? parent = some .directory)
    (hplace : tree.lookup? (parent ++ [name]) ≠ some .directory) :
    (tree.set (parent ++ [name]) entry).Closed := by
  intro above below hbelow
  rw [lookup?_set_below] at hbelow ⊢
  have habove : tree.lookup? above = some .directory := by
    by_cases hsame : above ++ [below] = parent ++ [name]
    · rw [(List.append_inj' hsame rfl).1]
      exact hparent
    · rw [if_neg hsame] at hbelow
      exact hclosed above below hbelow
  have hother : above ≠ parent ++ [name] := by
    intro hsame
    rw [hsame] at habove
    exact hplace habove
  rw [if_neg hother, habove]

/-- A new place is a name in a directory. -/
theorem place_eq_ok_iff {tree : FileTree} {path : Path} {location : Location} :
    tree.place path = .ok location ↔
      textFault? path = none ∧ ∃ parent name above,
        location = parent ++ [name] ∧ tree.lookup? parent = some .directory ∧
        (namesOf path).reverse.dropWhile (· == .plain "") = name :: above ∧
        ¬ (name = "." ∨ name = "..") ∧ ¬ nameLimit < name.size ∧
        tree.Leads false linkLimit (startOf tree.workingDirectory path) above.reverse parent := by
  constructor
  · intro h
    unfold place at h
    split at h
    · cases h
    · cases h
    · rename_i name above hfault hnames
      refine ⟨hfault, ?_⟩
      split at h
      · cases h
      · rename_i parent hparent
        rw [follow_eq_ok_iff] at hparent
        split at h
        · cases h
        · rename_i hdirectory
          split at h
          · cases h
          · rename_i hname
            split at h
            · cases h
            · rename_i hsize
              cases h
              exact ⟨parent, name, above, rfl, hdirectory, hnames, hname, hsize, hparent⟩
        · cases h
  · rintro ⟨hfault, parent, name, above, rfl, hdirectory, hnames, hname, hsize, hleads⟩
    rw [← follow_eq_ok_iff] at hleads
    simp only [place, hfault, hnames, hleads, hdirectory, if_neg hname, if_neg hsize]

/-- The names of a path are those that lead to the parent of its place, the name there,
and then slashes. -/
theorem namesOf_of_place {tree : FileTree} {path : Path} {location : Location}
    (h : tree.place path = .ok location) :
    ∃ parent, ∃ name : FileName, ∃ above slashes, location = parent ++ [name] ∧
      namesOf path = above ++ name :: slashes ∧ (∀ slash ∈ slashes, slash = "") ∧
      tree.Leads false linkLimit (startOf tree.workingDirectory path) above parent ∧
      tree.lookup? parent = some .directory ∧ name ≠ "" ∧ ¬ (name = "." ∨ name = "..") ∧
      ¬ nameLimit < name.size := by
  obtain ⟨-, parent, name, above, hlocation, hparent, hnames, hdots, hsize, hleads⟩ :=
    place_eq_ok_iff.mp h
  refine ⟨parent, name, above.reverse, ((namesOf path).reverse.takeWhile (· == .plain "")).reverse,
    hlocation, ?_, fun slash hslash => ?_, hleads, hparent, ?_, hdots, hsize⟩
  · have hsplit := List.takeWhile_append_dropWhile (p := (· == .plain "")) (l := (namesOf path).reverse)
    rw [hnames] at hsplit
    have hreverse := congrArg List.reverse hsplit
    simp only [List.reverse_append, List.reverse_cons, List.reverse_reverse,
      List.append_assoc, List.singleton_append] at hreverse
    exact hreverse.symm
  · rw [List.mem_reverse] at hslash
    simpa using List.all_eq_true.mp List.all_takeWhile slash hslash
  · have hhead := List.head?_dropWhile_not (p := (· == .plain "")) (l := (namesOf path).reverse)
    rw [hnames] at hhead
    simpa using hhead

/-- A new place is still one where the directories and the links are kept. -/
theorem place_of_keeps {tree after : FileTree} (hkeeps : Keeps tree after) {path : Path}
    {location : Location} (h : tree.place path = .ok location) :
    after.place path = .ok location := by
  obtain ⟨hfault, parent, name, above, rfl, hparent, hnames, hdots, hsize, hleads⟩ :=
    place_eq_ok_iff.mp h
  rw [place_eq_ok_iff, hkeeps.workingDirectory_eq]
  exact ⟨hfault, parent, name, above, rfl, hkeeps.directory hparent, hnames, hdots, hsize,
    hleads.keep hkeeps⟩

/-- A path leads to the directory at its place. -/
theorem locate_of_place {tree : FileTree} {path : Path} {place : Location}
    (h : tree.place path = .ok place) (hdirectory : tree.lookup? place = some .directory) :
    tree.locate path = .ok place := by
  obtain ⟨parent, name, above, slashes, rfl, hnames, hslashes, hleads, hparent, hname, hdots,
    hsize⟩ := namesOf_of_place h
  rw [not_or] at hdots
  have hend (left : Nat) : tree.Leads false left parent (name :: slashes) (parent ++ [name]) := by
    refine .down hparent (not_or.mpr ⟨hname, hdots.1⟩) hdots.2 Bool.false_ne_true hsize ?_
      (.slashes hdirectory hslashes)
    simp [hdirectory]
  rw [locate_eq_ok_iff, hnames]
  exact ⟨(place_eq_ok_iff.mp h).1, hleads.append hend⟩

/-- A new entry stands in a directory, where nothing was. -/
theorem create_eq_ok {tree after : FileTree} {path : Path} {entry : Entry}
    (h : tree.create path entry = .ok after) :
    ∃ location, tree.place path = .ok location ∧ tree.lookup? location = none ∧
      after = tree.set location entry := by
  unfold create at h
  split at h
  · cases h
  · rename_i location hplace
    split at h
    · cases h
    · rename_i hnone
      cases h
      exact ⟨location, hplace, hnone, rfl⟩

theorem Closed.create {tree after : FileTree} (hclosed : tree.Closed) {path : Path}
    {entry : Entry} (h : tree.create path entry = .ok after) : after.Closed := by
  obtain ⟨location, hplace, hnone, rfl⟩ := create_eq_ok h
  obtain ⟨-, parent, name, -, rfl, hparent, -⟩ := place_eq_ok_iff.mp hplace
  exact hclosed.set entry hparent (by simp [hnone])

theorem makeDirectory_grows {tree after : FileTree} {path : Path}
    (h : tree.makeDirectory path = .ok after) : Grows tree after := by
  obtain ⟨location, hplace, hnone, rfl⟩ := create_eq_ok h
  obtain ⟨-, parent, name, -, rfl, -⟩ := place_eq_ok_iff.mp hplace
  refine ⟨rfl, fun other => ?_⟩
  rw [lookup?_set_below]
  by_cases hother : other = parent ++ [name]
  · rw [if_pos hother, hother]
    exact .inr ⟨hnone, rfl⟩
  · rw [if_neg hother]
    exact .inl rfl

/-- A directory is there already or is made. -/
theorem ensureDirectory_cases {tree after : FileTree} {path : Path}
    (h : tree.ensureDirectory path = .ok after) :
    after = tree ∨ tree.makeDirectory path = .ok after := by
  unfold ensureDirectory at h
  split at h
  · rename_i hmade
    cases h
    exact .inr hmade
  · split at h
    · cases h
      exact .inl rfl
    · cases h

/-- The path of a directory that was made leads to it. -/
theorem locate_of_makeDirectory {tree after : FileTree} {path : Path}
    (h : tree.makeDirectory path = .ok after) :
    ∃ place, after.locate path = .ok place ∧ after.lookup? place = some .directory ∧
      ∀ location, location ≠ place → after.lookup? location = tree.lookup? location := by
  obtain ⟨place, hplace, -, hset⟩ := create_eq_ok h
  obtain ⟨-, parent, name, -, rfl, -⟩ := place_eq_ok_iff.mp hplace
  have hlookup (location : Location) : after.lookup? location =
      if location = parent ++ [name] then some .directory else tree.lookup? location := by
    rw [hset, lookup?_set_below]
  have hdirectory : after.lookup? (parent ++ [name]) = some .directory := by
    rw [hlookup, if_pos rfl]
  refine ⟨parent ++ [name], ?_, hdirectory, fun location hother => ?_⟩
  · exact locate_of_place (place_of_keeps (makeDirectory_grows h).keeps hplace) hdirectory
  · rw [hlookup, if_neg hother]

/-- Once a directory is there or made, the path leads to one. -/
theorem hasDirectory_of_ensureDirectory {tree after : FileTree} {path : Path}
    (h : tree.ensureDirectory path = .ok after) : after.hasDirectory path = true := by
  unfold ensureDirectory at h
  split at h
  · rename_i hmade
    cases h
    obtain ⟨place, hplace, hdirectory, -⟩ := locate_of_makeDirectory hmade
    exact hasDirectory_iff.mpr ⟨place, hplace, hdirectory⟩
  · split at h
    · rename_i hdirectory
      cases h
      exact hdirectory
    · cases h

/-- Where a directory is, none has to be made. -/
theorem ensureDirectory_of_hasDirectory {tree : FileTree} {path : Path}
    (h : tree.hasDirectory path = true) : tree.ensureDirectory path = .ok tree := by
  unfold ensureDirectory
  split
  · rename_i after hmade
    obtain ⟨place, hplace, hnone, -⟩ := create_eq_ok hmade
    obtain ⟨parent, name, above, slashes, rfl, hnames, hslashes, habove, hparent, hname, hdots,
      -⟩ := namesOf_of_place hplace
    obtain ⟨location, hlocate, hdirectory⟩ := hasDirectory_iff.mp h
    obtain ⟨left, middle, hfirst, hlast⟩ := (locate_eq_ok_iff.mp hlocate).2.split hnames
    have hmiddle : middle = parent := habove.unique hfirst
    subst hmiddle
    -- Nothing is where the name leads, so nothing is where the path leads.
    cases hlast with
    | stay _ hvoid => exact absurd (.inl (hvoid.resolve_left hname)) hdots
    | up => exact absurd (.inr rfl) hdots
    | link _ _ _ _ _ hlink => simp [hnone] at hlink
    | down _ _ _ _ _ _ hrest =>
        cases hrest with
        | arrived => simp [hnone] at hdirectory
        | stay hhere => simp [hnone] at hhere
        | up hhere => simp [hnone] at hhere
        | link hhere => simp [hnone] at hhere
        | down hhere => simp [hnone] at hhere
  · rw [if_pos h]

/-- No directory is made for a path that leads to one. -/
theorem makeDirectories_of_hasDirectory {tree : FileTree} {path : Path}
    (h : path.text = "" ∨ tree.hasDirectory path = true) :
    tree.makeDirectories path = (.ok (), tree) := by
  rw [makeDirectories, Path.ancestors, makeAncestors]
  split
  · rfl
  · rename_i hnamed
    rw [ensureDirectory_of_hasDirectory (h.resolve_left hnamed)]

/-- What holds of a tree, and of every tree after one of the directories is made, holds
when the directories above a path are made. -/
theorem makeAncestors_induction (Holds : FileTree → Prop) {tree : FileTree} {paths : List Path}
    (hstep : ∀ {tree after path}, path ∈ paths → path.text ≠ "" → Holds tree →
      tree.makeDirectory path = .ok after → Holds after)
    (htree : Holds tree) : Holds (tree.makeAncestors paths).2 := by
  induction paths with
  | nil => exact htree
  | cons path above ih =>
      have hensure : path.text ≠ "" → ∀ {tree after}, Holds tree →
          tree.ensureDirectory path = .ok after → Holds after := by
        intro hnamed tree after htree hensured
        rcases ensureDirectory_cases hensured with rfl | hmade
        · exact htree
        · exact hstep (by simp) hnamed htree hmade
      have habove := ih fun hpath => hstep (by simp [hpath])
      rw [makeAncestors]
      split
      · exact htree
      · rename_i hnamed
        split
        · rename_i hensured
          exact hensure hnamed htree hensured
        · split
          · rename_i hfault
            rw [hfault] at habove
            exact habove
          · rename_i hmade
            rw [hmade] at habove
            split
            · rename_i hensured
              exact hensure hnamed habove hensured
            · exact habove
        · exact htree

theorem makeAncestors_grows (tree : FileTree) (paths : List Path) :
    Grows tree (tree.makeAncestors paths).2 :=
  makeAncestors_induction (Grows tree)
    (fun _ _ htree hmade => htree.trans (makeDirectory_grows hmade)) (Grows.refl tree)

theorem makeDirectories_grows (tree : FileTree) (path : Path) :
    Grows tree (tree.makeDirectories path).2 :=
  tree.makeAncestors_grows path.ancestors

/-- The directories above a path are there once they were made. -/
theorem hasDirectory_of_makeDirectories {tree after : FileTree} {path : Path}
    (h : tree.makeDirectories path = (.ok (), after)) :
    path.text = "" ∨ after.hasDirectory path = true := by
  rw [makeDirectories, Path.ancestors, makeAncestors] at h
  split at h
  · rename_i hempty
    exact .inl hempty
  · refine .inr ?_
    split at h
    · rename_i hensured
      cases h
      exact hasDirectory_of_ensureDirectory hensured
    · split at h
      · cases h
      · split at h
        · rename_i hensured
          cases h
          exact hasDirectory_of_ensureDirectory hensured
        · cases h
    · cases h

/-- Making the directories above a path changes only places where paths above it lead then. -/
theorem locate_of_makeDirectories {tree : FileTree} {path : Path} {location : Location}
    (h : (tree.makeDirectories path).2.lookup? location ≠ tree.lookup? location) :
    ∃ ancestor ∈ path.ancestors, (tree.makeDirectories path).2.locate ancestor = .ok location := by
  let ChangesAbove (after : FileTree) : Prop := ∀ location,
    after.lookup? location ≠ tree.lookup? location →
      ∃ ancestor ∈ path.ancestors, after.locate ancestor = .ok location
  have hmade : ChangesAbove (tree.makeDirectories path).2 := by
    refine makeAncestors_induction ChangesAbove
      (fun {before after ancestor} hancestor _ hbefore hmade location hlocation => ?_)
      (fun location hsame => absurd rfl hsame)
    obtain ⟨place, hplace, -, helsewhere⟩ := locate_of_makeDirectory hmade
    by_cases hother : location = place
    · exact ⟨ancestor, hancestor, hother ▸ hplace⟩
    · rw [helsewhere location hother] at hlocation
      obtain ⟨earlier, hearlier, hlocate⟩ := hbefore location hlocation
      exact ⟨earlier, hearlier, locate_of_keeps (makeDirectory_grows hmade).keeps hlocate⟩
  exact hmade location h

theorem Closed.makeDirectories {tree : FileTree} (hclosed : tree.Closed) (path : Path) :
    (tree.makeDirectories path).2.Closed :=
  makeAncestors_induction Closed (fun _ _ htree hmade => htree.create hmade) hclosed

theorem Closed.makeLink {tree after : FileTree} (hclosed : tree.Closed) {path target : Path}
    (h : tree.makeLink path target = .ok after) : after.Closed := by
  unfold FileTree.makeLink at h
  split at h
  · cases h
  · cases h
  · rename_i hmade
    split at h
    · cases h
    · cases h
      exact hclosed.create hmade

/-- Taking an entry away takes away what is below it, and nothing else. -/
theorem lookup?_of_remove {tree after : FileTree} {path : Path}
    (h : tree.remove path = .ok after) :
    ∃ location, ∀ other, other ≠ [] → after.lookup? other =
      if location <+: other then none else tree.lookup? other := by
  unfold FileTree.remove at h
  split at h
  · cases h
  · rename_i location _
    split at h
    · cases h
    · cases h
      refine ⟨location, fun other hother => ?_⟩
      simp only [lookup?, if_neg hother, Std.ExtTreeMap.getElem?_filter']
      by_cases hbegins : location <+: other
      · simp [hbegins]
      · have hapart : location.isPrefixOf other = false := by
          rw [Bool.eq_false_iff, ne_eq, List.isPrefixOf_iff_prefix]
          exact hbegins
        simp only [hbegins, hapart, Bool.not_false, if_false]
        cases tree.entries[other]? with
        | none => rfl
        | some => rfl

theorem Closed.remove {tree after : FileTree} (hclosed : tree.Closed) {path : Path}
    (h : tree.remove path = .ok after) : after.Closed := by
  obtain ⟨location, hleft⟩ := lookup?_of_remove h
  intro parent name hbelow
  rw [hleft _ (by simp)] at hbelow
  split at hbelow
  · exact absurd rfl hbelow
  · rename_i hbegins
    have hparent := hclosed parent name hbelow
    by_cases hroot : parent = []
    · rw [hroot, lookup?_nil]
    · rw [hleft parent hroot, if_neg, hparent]
      intro habove
      exact hbegins (habove.trans (List.prefix_append parent [name]))

/-- A file is written where a path leads, unless a directory is there. -/
theorem writeFile_eq_ok_iff {tree after : FileTree} {path : Path} {bytes : ByteArray} :
    tree.writeFile path bytes = .ok after ↔
      ∃ location, tree.locateToWrite path = .ok location ∧
        tree.lookup? location ≠ some .directory ∧ after = tree.set location (.file bytes) := by
  unfold writeFile
  cases tree.locateToWrite path with
  | error fault => simp
  | ok location =>
      dsimp only
      split
      · rename_i hdirectory
        simp [hdirectory]
      · rename_i hother
        constructor
        · intro h
          cases h
          exact ⟨location, rfl, hother, rfl⟩
        · rintro ⟨other, hsame, -, rfl⟩
          cases hsame
          rfl

/-- A file is written in a directory, in the place of a file or of nothing. -/
theorem writeFile_eq_ok {tree after : FileTree} (hclosed : tree.Closed) {path : Path}
    {bytes : ByteArray} (h : tree.writeFile path bytes = .ok after) :
    ∃ parent name, tree.locateToWrite path = .ok (parent ++ [name]) ∧
      tree.lookup? parent = some .directory ∧
      (tree.lookup? (parent ++ [name]) = none ∨
        ∃ old, tree.lookup? (parent ++ [name]) = some (.file old)) ∧
      after = tree.set (parent ++ [name]) (.file bytes) := by
  obtain ⟨location, hlocation, hdirectory, rfl⟩ := writeFile_eq_ok_iff.mp h
  have hleads := (locateToWrite_eq_ok_iff.mp hlocation).2
  rcases hleads.end_cases hclosed with
    ⟨hnames, -⟩ | hplace | ⟨parent, name, rfl, hparent, hlink⟩
  · simp [namesOf] at hnames
  · exact absurd hplace hdirectory
  · refine ⟨parent, name, hlocation, hparent, ?_, rfl⟩
    cases hentry : tree.lookup? (parent ++ [name]) with
    | none => exact .inl rfl
    | some entry =>
        cases entry with
        | file old => exact .inr ⟨old, rfl⟩
        | directory => exact absurd hentry hdirectory
        | link target => exact absurd hentry (hlink target)

theorem Closed.writeFile {tree after : FileTree} (hclosed : tree.Closed) {path : Path}
    {bytes : ByteArray} (h : tree.writeFile path bytes = .ok after) : after.Closed := by
  obtain ⟨parent, name, -, hparent, hplace, rfl⟩ := writeFile_eq_ok hclosed h
  apply hclosed.set _ hparent
  rcases hplace with hnone | ⟨old, hfile⟩
  · simp [hnone]
  · simp [hfile]

/-! ## Trees that changes make -/

/-- A change that was made to a tree. Making directories may have stopped on the way. -/
inductive Change (tree : FileTree) : FileTree → Prop
  | directories (path : Path) : Change tree (tree.makeDirectories path).2
  | file {path : Path} {bytes : ByteArray} {after : FileTree} :
      tree.writeFile path bytes = .ok after → Change tree after
  | link {path target : Path} {after : FileTree} :
      tree.makeLink path target = .ok after → Change tree after
  | removal {path : Path} {after : FileTree} : tree.remove path = .ok after → Change tree after

/-- A tree that changes make from nothing. -/
inductive Built : FileTree → Prop
  | nothing (workingDirectory : Location) : Built ⟨∅, workingDirectory⟩
  | change {tree after : FileTree} : Built tree → Change tree after → Built after

/-- Every change keeps a tree closed. -/
theorem Closed.change {tree after : FileTree} (hclosed : tree.Closed) (h : Change tree after) :
    after.Closed := by
  cases h with
  | directories path => exact hclosed.makeDirectories path
  | file hwritten => exact hclosed.writeFile hwritten
  | link hmade => exact hclosed.makeLink hmade
  | removal hremoved => exact hclosed.remove hremoved

/-- Whatever changes make from nothing is closed. -/
theorem Built.closed {tree : FileTree} (h : Built tree) : tree.Closed := by
  induction h with
  | nothing workingDirectory =>
      intro parent name hbelow
      exact absurd (by simp [lookup?]) hbelow
  | change _ hchange ih => exact ih.change hchange

end OverlayManifest.FileTree
