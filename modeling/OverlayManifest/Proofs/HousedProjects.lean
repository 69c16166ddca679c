/-
# Projects in trees

A project without links stands in a tree at the place that a root leads to. A path of names
that is joined to the root is walked inside the project, and so it leads to the same thing
wherever the project stands and however the root is spelled.
-/

import OverlayManifest.Proofs.PathLimits
import OverlayManifest.Proofs.TreeNames

namespace OverlayManifest

namespace Path

/-- Nothing that is joined makes a path empty. -/
theorem text_join_ne {base path : Path} (hbase : base.text ≠ "")
    (hrelative : path.isAbsolute = false) : (base.join path).text ≠ "" := by
  intro hempty
  have htext := congrArg String.toList hempty
  rw [toList_join hrelative hbase] at htext
  split at htext
  · simp [hbase] at htext
  · simp at htext

/-- Relative paths can be joined in either order. -/
theorem join_join {base first last : Path} (hfirst : first.isAbsolute = false)
    (hlast : last.isAbsolute = false) :
    (base.join first).join last = base.join (first.join last) := by
  by_cases hnamed : first.text = ""
  · -- The empty path adds at most a slash, which joining adds anyway.
    have hnothing : first.join last = last := by simp [join, hnamed]
    rw [hnothing]
    by_cases hbase : base.text = ""
    · simp [join, hbase, hnamed]
    · have hjoined := text_join_ne hbase hfirst
      have htext : ((base.join first).join last).text.toList = (base.join last).text.toList := by
        rw [toList_join hlast hjoined, toList_join hlast hbase, toList_join hfirst hbase, hnamed]
        by_cases hslash : base.text.toList.getLast? = some '/'
        · simp [hslash]
        · simp [hslash]
      exact congrArg Path.mk (String.toList_inj.mp htext)
  · exact (join_assoc hfirst hlast hnamed).symm

end Path

namespace FileTree

/-- A relative path that is joined to a usable one adds its zero characters. -/
theorem zero_mem_join_iff {root path : Path} (hroot : textFault? root = none)
    (hrelative : path.isAbsolute = false) :
    '\x00' ∈ (root.join path).text.toList ↔ '\x00' ∈ path.text.toList := by
  obtain ⟨hnamed, hnul, -⟩ := textFault?_eq_none_iff.mp hroot
  rw [Path.toList_join hrelative hnamed]
  split
  · simp [hnul]
  · simp [hnul]

/-- It is usable if it holds none, unless it becomes too long. -/
theorem textFault?_join_of_fits {root path : Path} (hroot : textFault? root = none)
    (hrelative : path.isAbsolute = false)
    (hfits : (root.join path).text.utf8ByteSize ≤ pathLimit) :
    textFault? (root.join path) =
      if '\x00' ∈ path.text.toList then some .invalidPath else none := by
  have hnamed := (textFault?_eq_none_iff.mp hroot).1
  rw [textFault?, if_neg (Path.text_join_ne hnamed hrelative)]
  simp only [zero_mem_join_iff hroot hrelative, if_neg (Nat.not_lt.mpr hfits)]

/-- The path of a file that is joined to a root is usable under the same conditions. -/
theorem fileFault?_joinedTo_of_fits {root base : Path} {name : FileName}
    (hroot : textFault? root = none) (hrelative : base.isAbsolute = false)
    (hslash : ¬ name.HasSlash)
    (hfits : ((FilePath.inside base name).joinedTo root).size ≤ pathLimit) :
    fileFault? ((FilePath.inside base name).joinedTo root) =
      if (FilePath.inside base name).HasZero then some .invalidPath else none := by
  cases name with
  | plain name =>
      have hname : (base.join ⟨name⟩).isAbsolute = false :=
        (Path.isAbsolute_join (Path.isAbsolute_of_notMem hslash)).trans hrelative
      exact textFault?_join_of_fits hroot hname hfits
  | raw name =>
      have hempty : Path.isAbsolute ⟨""⟩ = false := by decide
      have hopening : (base.join ⟨""⟩).isAbsolute = false :=
        (Path.isAbsolute_join hempty).trans hrelative
      have hzero : ((FilePath.inside base (.raw name)).joinedTo root).HasZero ↔
          (FilePath.inside base (.raw name)).HasZero := by
        show '\x00' ∈ ((root.join base).join ⟨""⟩).text.toList ∨ _ ↔ _ ∨ _
        rw [Path.join_join hrelative hempty, zero_mem_join_iff hroot hopening]
      rw [FilePath.inside, FilePath.joinedTo] at hfits hzero ⊢
      simp only [fileFault?, hzero, if_neg (Nat.not_lt.mpr hfits)]

/-- Following names goes on from where the first of them lead, with the links that are left. -/
theorem Leads.follow_append {tree : FileTree} {links : Nat} {here middle : Location}
    {first : List FileName} (h : tree.Leads false links here first middle) (rest : List FileName) :
    ∃ left, tree.follow false links here (first ++ rest) =
      tree.follow false left middle rest := by
  induction h with
  | @arrived links here => exact ⟨links, rfl⟩
  | stay hhere hname _ ih =>
      obtain ⟨left, hleft⟩ := ih
      refine ⟨left, ?_⟩
      rw [List.cons_append, follow, hhere, if_pos hname, hleft]
  | up hhere _ ih =>
      obtain ⟨left, hleft⟩ := ih
      refine ⟨left, ?_⟩
      rw [List.cons_append, follow, hhere, if_neg (by decide), if_pos rfl, hleft]
  | link hhere hname hup _ hsize hlink _ ih =>
      obtain ⟨left, hleft⟩ := ih
      refine ⟨left, ?_⟩
      rw [List.cons_append, follow, hhere]
      simp only [if_neg hname, if_neg hup, Bool.false_and, Bool.false_eq_true, if_false,
        if_neg hsize, hlink]
      rw [← List.append_assoc, hleft]
  | @down links here name _ _ hhere hname hup _ hsize hlink _ ih =>
      obtain ⟨left, hleft⟩ := ih
      refine ⟨left, ?_⟩
      rw [List.cons_append, follow, hhere]
      simp only [if_neg hname, if_neg hup, Bool.false_and, Bool.false_eq_true, if_false,
        if_neg hsize, hleft]

/-- A root leads to a directory below which there are no links. -/
structure RootAt (tree : FileTree) (root : Path) (location : Location) : Prop where
  locate_eq : tree.locate root = .ok location
  directory : tree.lookup? location = some .directory
  linkFree : ∀ below target, tree.lookup? (location ++ below) ≠ some (.link target)

theorem isAbsolute_of_isNamed {path : Path} (h : path.IsNamed) : path.isAbsolute = false := by
  obtain ⟨names, hnamed⟩ := h
  exact (Path.components_eq_named hnamed).1

namespace RootAt

variable {tree : FileTree} {root path : Path} {location : Location}

theorem textFault?_eq (h : RootAt tree root location) : textFault? root = none :=
  (locate_eq_ok_iff.mp h.locate_eq).1

theorem text_ne (h : RootAt tree root location) : root.text ≠ "" :=
  (textFault?_eq_none_iff.mp h.textFault?_eq).1

/-- Below the root, following names that do not lead up needs no count of links. -/
theorem follow_eq_walk (h : RootAt tree root location) (links : Nat) (below : Location)
    {names : List FileName} (hup : FileName.plain ".." ∉ names) :
    tree.follow false links (location ++ below) names =
      tree.walk false (location ++ below) names := by
  induction names generalizing below with
  | nil => rw [follow, walk]
  | cons name rest ih =>
      rw [List.mem_cons, not_or] at hup
      have hdown := ih (below ++ [name]) hup.2
      rw [← List.append_assoc] at hdown
      have hlink : ∀ target,
          tree.lookup? (location ++ below ++ [name]) ≠ some (.link target) := by
        rw [List.append_assoc]
        exact h.linkFree (below ++ [name])
      rw [follow, walk]
      cases tree.lookup? (location ++ below) with
      | none => rfl
      | some entry =>
          cases entry with
          | file => rfl
          | link => rfl
          | directory => simp only [ih below hup.2, hdown, if_neg (Ne.symm hup.1)]

/-- A path of names that is joined to the root is walked from where the root leads. -/
theorem locate_join (h : RootAt tree root location) (hpath : path.IsNamed)
    (hfits : (root.join path).text.utf8ByteSize ≤ pathLimit) :
    tree.locate (root.join path) =
      if '\x00' ∈ path.text.toList then .error .invalidPath
      else tree.walk false location (namesOf path) := by
  have hrelative := isAbsolute_of_isNamed hpath
  obtain ⟨left, hleft⟩ := (leads_namesBefore h.locate_eq).follow_append (namesOf path)
  have hwalk := h.follow_eq_walk left [] (dots_notMem_namesOf hpath)
  rw [List.append_nil] at hwalk
  rw [locate, textFault?_join_of_fits h.textFault?_eq hrelative hfits]
  by_cases hnul : '\x00' ∈ path.text.toList
  · rw [if_pos hnul, if_pos hnul]
  · rw [if_neg hnul, if_neg hnul, startOf_join hrelative, namesOf_join hrelative, hleft, hwalk]

end RootAt

/-- A project without links stands at the location that a root leads to. -/
structure Houses (tree project : FileTree) (root : Path) (location : Location) : Prop where
  linkFree : project.LinkFree
  locate_eq : tree.locate root = .ok location
  lookup?_eq : ∀ below, tree.lookup? (location ++ below) = project.lookup? below

/-- Where a path leads in a project, from the root of the project. -/
def below? (project : FileTree) (path : Path) : Except Fault Location :=
  if '\x00' ∈ path.text.toList then .error .invalidPath
  else project.walk false [] (namesOf path)

/-- What a path leads to in a project. -/
def found? (project : FileTree) (path : Path) : Except Fault Entry :=
  match project.below? path with
  | .error fault => .error fault
  | .ok below =>
      match project.lookup? below with
      | none => .error .notFound
      | some entry => .ok entry

/-- Names that do not lead up are walked alike where the same stands. -/
theorem walk_eq_map {tree project : FileTree} {location : Location}
    (hsame : ∀ below, tree.lookup? (location ++ below) = project.lookup? below)
    (below : Location) {names : List FileName} (hup : FileName.plain ".." ∉ names) :
    tree.walk false (location ++ below) names =
      (project.walk false below names).map (location ++ ·) := by
  induction names generalizing below with
  | nil => rw [walk, walk, Except.map]
  | cons name rest ih =>
      rw [List.mem_cons, not_or] at hup
      have hdown := ih (below ++ [name]) hup.2
      rw [← List.append_assoc] at hdown
      rw [walk, walk, hsame]
      cases project.lookup? below with
      | none => rfl
      | some entry =>
          cases entry with
          | file => rfl
          | link => rfl
          | directory =>
              simp only [ih below hup.2, hdown, if_neg (Ne.symm hup.1), Bool.false_and,
                Bool.false_eq_true, if_false, apply_ite (Except.map (location ++ ·))]
              rfl

namespace Houses

variable {tree project : FileTree} {root path : Path} {location : Location}

theorem rootAt (h : Houses tree project root location) : RootAt tree root location where
  locate_eq := h.locate_eq
  directory := by
    have hroot := h.lookup?_eq []
    rwa [List.append_nil, lookup?_nil] at hroot
  linkFree below target := by
    rw [h.lookup?_eq]
    exact h.linkFree below target

/-- A path of names that is joined to the root leads into the project. -/
theorem locate_join (h : Houses tree project root location) (hpath : path.IsNamed)
    (hfits : (root.join path).text.utf8ByteSize ≤ pathLimit) :
    tree.locate (root.join path) = (project.below? path).map (location ++ ·) := by
  have hwalk := walk_eq_map h.lookup?_eq [] (dots_notMem_namesOf hpath)
  rw [List.append_nil] at hwalk
  rw [h.rootAt.locate_join hpath hfits, below?, hwalk,
    apply_ite (Except.map (location ++ ·))]
  rfl

/-- It leads to what the path leads to in the project. -/
theorem find?_join (h : Houses tree project root location) (hpath : path.IsNamed)
    (hfits : (root.join path).text.utf8ByteSize ≤ pathLimit) :
    tree.find? (root.join path) = project.found? path := by
  rw [find?, h.locate_join hpath hfits, found?]
  cases project.below? path with
  | error fault => rfl
  | ok below =>
      show (match tree.lookup? (location ++ below) with
        | none => Except.error Fault.notFound
        | some entry => .ok entry) = _
      rw [h.lookup?_eq]

end Houses

end FileTree

end OverlayManifest
