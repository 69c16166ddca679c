/-
# Directories below a root

A path below a root without links may spell its names with others between them that stand for
nothing. Where nothing but directories stands on its way, the directories that it names are
made as far as they are missing, and nothing else changes.
-/

import Mathlib.Data.List.Induction
import OverlayManifest.Proofs.HousedProjects
import OverlayManifest.Proofs.PathParents

namespace OverlayManifest

namespace FileTree

/-! ## Respelled names -/

theorem filter_cons_void {name : FileName} (hname : name = "" ∨ name = ".") (rest : List FileName) :
    (name :: rest).filter (!isVoidName ·) = rest.filter (!isVoidName ·) :=
  List.filter_cons_of_neg (by simp [isVoidName_iff.mpr hname])

theorem filter_cons_solid {name : FileName} (hname : ¬ (name = "" ∨ name = "."))
    (rest : List FileName) :
    (name :: rest).filter (!isVoidName ·) = name :: rest.filter (!isVoidName ·) := by
  rw [← isVoidName_iff, Bool.not_eq_true] at hname
  exact List.filter_cons_of_pos (by simp [hname])

/-- Names that stand for nothing can be left out before others. -/
theorem follow_voids {tree : FileTree} {links : Nat} {here : Location}
    (hhere : tree.lookup? here = some .directory) {voids : List FileName}
    (hvoids : ∀ name ∈ voids, isVoidName name = true) (names : List FileName) :
    tree.follow false links here (voids ++ names) = tree.follow false links here names := by
  induction voids with
  | nil => rfl
  | cons name voids ih =>
      have hname := isVoidName_iff.mp (hvoids name (by simp))
      rw [List.cons_append, follow, hhere]
      simp only [if_pos hname]
      exact ih fun other hother => hvoids other (by simp [hother])

/-- The first name that stands for something comes after some that do not. -/
theorem split_of_filter {names rest : List FileName} {name : FileName}
    (h : names.filter (!isVoidName ·) = name :: rest) :
    ∃ voids others, names = voids ++ name :: others ∧
      (∀ void ∈ voids, isVoidName void = true) ∧ others.filter (!isVoidName ·) = rest := by
  obtain ⟨voids, others, hnames, hvoids, -, hothers⟩ := List.filter_eq_cons_iff.mp h
  exact ⟨voids, others, hnames, by simpa using hvoids, hothers⟩

/-- Names that begin as others do, but for those that stand for nothing, lead on from where
the others lead. -/
theorem Leads.follow_respell {tree : FileTree} {links : Nat} {here location : Location}
    {first : List FileName} (h : tree.Leads false links here first location)
    {names rest : List FileName} (hnames : names.filter (!isVoidName ·) =
      first.filter (!isVoidName ·) ++ rest) :
    ∃ left spelled, spelled.filter (!isVoidName ·) = rest ∧
      tree.follow false links here names = tree.follow false left location spelled := by
  induction h generalizing names with
  | @arrived links here => exact ⟨links, names, hnames, rfl⟩
  | stay hhere hname _ ih =>
      rw [filter_cons_void hname] at hnames
      exact ih hnames
  | up hhere _ ih =>
      rw [filter_cons_solid (by decide), List.cons_append] at hnames
      obtain ⟨voids, others, rfl, hvoids, hothers⟩ := split_of_filter hnames
      obtain ⟨left, spelled, hspelled, hfollow⟩ := ih hothers
      refine ⟨left, spelled, hspelled, ?_⟩
      rw [follow_voids hhere hvoids, follow, hhere, ← hfollow]
      simp only [FileName.plain.injEq, String.reduceEq, or_self, if_false, if_true]
  | @link _ _ _ more _ target hhere hname hup _ hsize hlink _ ih =>
      rw [filter_cons_solid hname, List.cons_append] at hnames
      obtain ⟨voids, others, rfl, hvoids, hothers⟩ := split_of_filter hnames
      have hfollowed : (target.names ++ others).filter (!isVoidName ·) =
          (target.names ++ more).filter (!isVoidName ·) ++ rest := by
        rw [List.filter_append, List.filter_append, hothers, List.append_assoc]
      obtain ⟨left, spelled, hspelled, hfollow⟩ := ih hfollowed
      refine ⟨left, spelled, hspelled, ?_⟩
      rw [follow_voids hhere hvoids, follow, hhere, ← hfollow]
      simp only [if_neg hname, if_neg hup, Bool.false_and, Bool.false_eq_true, if_false,
        if_neg hsize, hlink]
  | @down links here name _ _ hhere hname hup _ hsize hlink _ ih =>
      rw [filter_cons_solid hname, List.cons_append] at hnames
      obtain ⟨voids, others, rfl, hvoids, hothers⟩ := split_of_filter hnames
      obtain ⟨left, spelled, hspelled, hfollow⟩ := ih hothers
      refine ⟨left, spelled, hspelled, ?_⟩
      rw [follow_voids hhere hvoids, follow, hhere, ← hfollow]
      simp only [if_neg hname, if_neg hup, Bool.false_and, Bool.false_eq_true, if_false,
        if_neg hsize]

/-! ## Ways down -/

/-- Names lead down from a location, past directories and then to where nothing is. -/
structure Passable (tree : FileTree) (location : Location) (names : List FileName) : Prop where
  down : FileName.plain ".." ∉ names
  short : ∀ name ∈ names, name.size ≤ nameLimit
  lookup?_cases : ∀ above, above <+: names →
    tree.lookup? (location ++ above) = some .directory ∨ tree.lookup? (location ++ above) = none

namespace Passable

variable {tree after : FileTree} {location : Location} {names : List FileName}

theorem of_prefix (h : Passable tree location names) {above : List FileName}
    (habove : above <+: names) : Passable tree location above where
  down hmem := h.down (habove.subset hmem)
  short name hname := h.short name (habove.subset hname)
  lookup?_cases first hfirst := h.lookup?_cases first (hfirst.trans habove)

/-- Directories that are made are no obstacle. -/
theorem of_grows (h : Passable tree location names) (hgrows : Grows tree after) :
    Passable after location names where
  down := h.down
  short := h.short
  lookup?_cases above habove := by
    rcases hgrows.lookup?_cases (location ++ above) with hsame | ⟨-, hmade⟩
    · rw [hsame]
      exact h.lookup?_cases above habove
    · exact .inl hmade

/-- The names are walked to their end or to where nothing is, however they are spelled. -/
theorem walk_cases (h : Passable tree location names) {spelled : List FileName}
    (hspelled : spelled.filter (!isVoidName ·) = names) :
    tree.walk false location spelled = .ok (location ++ names) ∨
      (tree.walk false location spelled = .error .notFound ∧
        ∃ above, above <+: names ∧ tree.lookup? (location ++ above) = none) := by
  induction spelled generalizing location names with
  | nil =>
      obtain rfl : [] = names := hspelled
      exact .inl (by rw [walk, List.append_nil])
  | cons name rest ih =>
      have hhere := h.lookup?_cases [] List.nil_prefix
      rw [List.append_nil] at hhere
      rw [walk]
      rcases hhere with hdirectory | hnone
      · rw [hdirectory]
        by_cases hvoid : name = "" ∨ name = "."
        · rw [filter_cons_void hvoid] at hspelled
          simp only [if_pos hvoid]
          exact ih h hspelled
        · rw [filter_cons_solid hvoid] at hspelled
          obtain rfl := hspelled.symm
          have hbelow : Passable tree (location ++ [name]) (rest.filter (!isVoidName ·)) :=
            { down := fun hmem => h.down (List.mem_cons_of_mem _ hmem)
              short := fun other hother => h.short other (List.mem_cons_of_mem _ hother)
              lookup?_cases := fun above habove => by
                rw [List.append_assoc]
                exact h.lookup?_cases (name :: above) (List.cons_prefix_cons.mpr ⟨rfl, habove⟩) }
          have hup : name ≠ ".." := fun hdots => h.down (by simp [hdots])
          have hsize := Nat.not_lt.mpr (h.short name (by simp))
          simp only [if_neg hvoid, if_neg hup, Bool.false_and, Bool.false_eq_true, if_false,
            if_neg hsize]
          rcases ih hbelow rfl with hwalk | ⟨hwalk, above, habove, hnone⟩
          · exact .inl (by rw [hwalk, List.append_assoc]; rfl)
          · refine .inr ⟨hwalk, name :: above, List.cons_prefix_cons.mpr ⟨rfl, habove⟩, ?_⟩
            rwa [List.append_assoc] at hnone
      · rw [hnone]
        exact .inr ⟨rfl, [], List.nil_prefix, by rw [List.append_nil, hnone]⟩

/-- Names that end in a directory are walked to their end. -/
theorem walk_eq_ok (h : Passable tree location names) (hclosed : tree.Closed)
    (hdirectory : tree.lookup? (location ++ names) = some .directory) {spelled : List FileName}
    (hspelled : spelled.filter (!isVoidName ·) = names) :
    tree.walk false location spelled = .ok (location ++ names) := by
  rcases h.walk_cases hspelled with hwalk | ⟨-, above, ⟨rest, rfl⟩, hnone⟩
  · exact hwalk
  · by_cases hrest : rest = []
    · rw [hrest, List.append_nil, hnone] at hdirectory
      cases hdirectory
    · rw [← List.append_assoc] at hdirectory
      rw [hclosed.above hrest (by rw [hdirectory]; exact Option.some_ne_none _)] at hnone
      cases hnone

end Passable

/-! ## Directories that are made -/

/-- The last name of a path stands for something. -/
def EndsNamed (path : Path) : Prop :=
  ∃ above name, namesOf path = above ++ [name] ∧ isVoidName name = false

/-- A path has the names of a root and then others, however they are spelled. It can be used
unless it is empty. -/
structure Spells (root path : Path) (names : List FileName) : Prop where
  isAbsolute_eq : path.isAbsolute = root.isAbsolute
  solidNames_eq : solidNames path = solidNames root ++ names
  textFault?_eq : path.text ≠ "" → textFault? path = none
  ends : names = [] ∨ EndsNamed path

namespace Spells

variable {root path parent : Path} {names : List FileName} {name : FileName}

theorem startOf_eq (h : Spells root path names) (here : Location) :
    startOf here path = startOf here root := by
  rw [startOf, h.isAbsolute_eq, startOf]

theorem solidSteps_ne_nil (h : Spells root path (names ++ [name])) : path.solidSteps ≠ [] := by
  intro hnil
  have hnames := h.solidNames_eq
  rw [FileTree.solidNames_eq, hnil] at hnames
  simp at hnames

theorem text_ne (h : Spells root path (names ++ [name])) : path.text ≠ "" := by
  intro hempty
  apply h.solidSteps_ne_nil
  rw [Path.solidSteps, hempty]
  rfl

/-- The parent of a path spells the names before the last. -/
theorem of_parent? (h : Spells root path (names ++ [name]))
    (hparent : path.parent? = some parent) : Spells root parent names := by
  obtain ⟨hsteps, habsolute⟩ := Path.solidSteps_eq_dropLast hparent
  have hnames : solidNames parent = solidNames root ++ names := by
    rw [FileTree.solidNames_eq, hsteps, List.map_dropLast, ← FileTree.solidNames_eq,
      h.solidNames_eq, ← List.append_assoc, List.dropLast_concat]
  refine ⟨habsolute.trans h.isAbsolute_eq, hnames,
    textFault?_of_parent? hparent (h.textFault?_eq h.text_ne), ?_⟩
  rcases Path.splitOn_of_parent? hparent with hnil | ⟨before, step, hsplit, hsolid⟩
  · rw [FileTree.solidNames_eq, hnil, eq_comm, List.map_nil, List.append_eq_nil_iff] at hnames
    exact .inl hnames.2
  · refine .inr ⟨before.map .ofStep, .ofStep step, ?_, ?_⟩
    · rw [namesOf, hsplit, List.map_append, List.map_singleton]
    · rw [isVoidName_ofStep, hsolid]

end Spells

namespace RootAt

variable {tree after : FileTree} {root path : Path} {location : Location} {names : List FileName}

/-- Where directories are made, a root stays one. -/
theorem of_grows (h : RootAt tree root location) (hgrows : Grows tree after) :
    RootAt after root location where
  locate_eq := locate_of_keeps hgrows.keeps h.locate_eq
  directory := hgrows.keeps.directory h.directory
  linkFree below target hlink := h.linkFree below target (hgrows.keeps.link_iff.mp hlink)

/-- Names that begin as those of the root are walked from where the root leads. -/
theorem follow_spelled (h : RootAt tree root location) {spelled : List FileName}
    (hspelled : spelled.filter (!isVoidName ·) = solidNames root ++ names) (hup : FileName.plain ".." ∉ names) :
    ∃ below, below.filter (!isVoidName ·) = names ∧
      tree.follow false linkLimit (startOf tree.workingDirectory root) spelled =
        tree.walk false location below := by
  obtain ⟨left, below, hbelow, hfollow⟩ :=
    (locate_eq_ok_iff.mp h.locate_eq).2.follow_respell hspelled
  have hdown : FileName.plain ".." ∉ below := by
    intro hmem
    apply hup
    rw [← hbelow, List.mem_filter]
    exact ⟨hmem, by decide⟩
  have hwalk := h.follow_eq_walk left [] hdown
  rw [List.append_nil] at hwalk
  exact ⟨below, hbelow, hfollow.trans hwalk⟩

/-- A path that spells names below the root is walked from where the root leads. -/
theorem locate_spelled (h : RootAt tree root location) (hpath : Spells root path names)
    (hnamed : path.text ≠ "") (hup : FileName.plain ".." ∉ names) : ∃ below, below.filter (!isVoidName ·) = names ∧
      tree.locate path = tree.walk false location below := by
  obtain ⟨below, hbelow, hfollow⟩ := h.follow_spelled hpath.solidNames_eq hup
  refine ⟨below, hbelow, ?_⟩
  rw [locate, hpath.textFault?_eq hnamed, hpath.startOf_eq, hfollow]

/-- A directory below the root is where its path leads. -/
theorem hasDirectory_spelled (h : RootAt tree root location) (hclosed : tree.Closed)
    (hpath : Spells root path names) (hnamed : path.text ≠ "")
    (hpassable : Passable tree location names)
    (hdirectory : tree.lookup? (location ++ names) = some .directory) :
    tree.hasDirectory path = true := by
  obtain ⟨below, hbelow, hlocate⟩ := h.locate_spelled hpath hnamed hpassable.down
  rw [hpassable.walk_eq_ok hclosed hdirectory hbelow] at hlocate
  exact hasDirectory_iff.mpr ⟨_, hlocate, hdirectory⟩

/-- Where a path leads below the root is where its names do. -/
theorem lookup?_of_hasDirectory (h : RootAt tree root location) (hpath : Spells root path names)
    (hnamed : path.text ≠ "") (hpassable : Passable tree location names)
    (hdirectory : tree.hasDirectory path = true) :
    tree.lookup? (location ++ names) = some .directory := by
  obtain ⟨below, hbelow, hlocate⟩ := h.locate_spelled hpath hnamed hpassable.down
  obtain ⟨place, hplace, hfound⟩ := hasDirectory_iff.mp hdirectory
  rw [hlocate] at hplace
  rcases hpassable.walk_cases hbelow with hwalk | ⟨hwalk, -⟩
  · rw [hwalk] at hplace
    cases hplace
    exact hfound
  · rw [hwalk] at hplace
    cases hplace

/-- A new directory has a place if the directory above is there. -/
theorem place_cases (h : RootAt tree root location) (hclosed : tree.Closed) {name : FileName}
    (hpath : Spells root path (names ++ [name]))
    (hpassable : Passable tree location (names ++ [name])) :
    tree.place path = .ok (location ++ names ++ [name]) ∨
      (tree.place path = .error .notFound ∧
        tree.lookup? (location ++ names) ≠ some .directory) := by
  have habove := hpassable.of_prefix (List.prefix_append names [name])
  rcases hpath.ends with hnil | ⟨first, last, hnames, hsolid⟩
  · simp at hnil
  have hsplit : first.filter (!isVoidName ·) ++ [last] = (solidNames root ++ names) ++ [name] := by
    rw [List.append_assoc, ← hpath.solidNames_eq, solidNames, hnames, List.filter_append,
      List.filter_cons_of_pos (by simp [hsolid]), List.filter_nil]
  obtain ⟨hfirst, hlast⟩ := List.append_inj' hsplit rfl
  obtain rfl : last = name := by simpa using hlast
  obtain ⟨hvoid, hdot⟩ : last ≠ "" ∧ last ≠ "." := by
    rw [← not_or, ← isVoidName_iff, hsolid]
    exact Bool.false_ne_true
  have hreverse : (namesOf path).reverse.dropWhile (· == .plain "") = last :: first.reverse := by
    rw [hnames, List.reverse_append, List.reverse_singleton, List.singleton_append,
      List.dropWhile_cons_of_neg (by simp [hvoid])]
  have hup : ¬ (last = "." ∨ last = "..") :=
    not_or.mpr ⟨hdot, fun hdots => hpassable.down (by simp [hdots])⟩
  have hsize := Nat.not_lt.mpr (hpassable.short last (by simp))
  obtain ⟨below, hbelow, hfollow⟩ := h.follow_spelled hfirst habove.down
  rcases habove.walk_cases hbelow with hwalk | ⟨hwalk, -⟩
  · rcases habove.lookup?_cases names List.prefix_rfl with hdirectory | hnone
    · refine .inl ?_
      rw [place, hpath.textFault?_eq hpath.text_ne, hreverse, hpath.startOf_eq]
      simp only [List.reverse_reverse, hfollow, hwalk, hdirectory, if_neg hup, if_neg hsize]
    · refine .inr ⟨?_, by simp [hnone]⟩
      rw [place, hpath.textFault?_eq hpath.text_ne, hreverse, hpath.startOf_eq]
      simp only [List.reverse_reverse, hfollow, hwalk, hnone]
  · refine .inr ⟨?_, fun hdirectory => ?_⟩
    · rw [place, hpath.textFault?_eq hpath.text_ne, hreverse, hpath.startOf_eq]
      simp only [List.reverse_reverse, hfollow, hwalk]
    · rw [habove.walk_eq_ok hclosed hdirectory hbelow] at hwalk
      cases hwalk

/-- A directory below the root is there or is made, and nothing else changes, unless the
directory above is missing. -/
theorem ensureDirectory_cases (h : RootAt tree root location) (hclosed : tree.Closed)
    {name : FileName} (hpath : Spells root path (names ++ [name]))
    (hpassable : Passable tree location (names ++ [name])) :
    (∃ after, tree.ensureDirectory path = .ok after ∧
      after.lookup? (location ++ (names ++ [name])) = some .directory ∧
      ∀ other, other ≠ location ++ (names ++ [name]) →
        after.lookup? other = tree.lookup? other) ∨
    (tree.ensureDirectory path = .error .notFound ∧
      tree.lookup? (location ++ names) ≠ some .directory) := by
  rcases hpassable.lookup?_cases _ List.prefix_rfl with hdirectory | hnone
  · have hthere := h.hasDirectory_spelled hclosed hpath hpath.text_ne hpassable hdirectory
    exact .inl ⟨tree, ensureDirectory_of_hasDirectory hthere, hdirectory, fun _ _ => rfl⟩
  · rcases h.place_cases hclosed hpath hpassable with hplace | ⟨hplace, habove⟩
    · have hmade : tree.makeDirectory path =
          .ok (tree.set (location ++ names ++ [name]) .directory) := by
        rw [makeDirectory, create, hplace]
        rw [← List.append_assoc] at hnone
        simp only [hnone]
      refine .inl ⟨tree.set (location ++ names ++ [name]) .directory, ?_, ?_,
        fun other hother => ?_⟩
      · rw [ensureDirectory, hmade]
      · rw [← List.append_assoc, lookup?_set_below, if_pos rfl]
      · rw [← List.append_assoc] at hother
        rw [lookup?_set_below, if_neg hother]
    · refine .inr ⟨?_, habove⟩
      have hmissing : ¬ tree.hasDirectory path = true := fun hthere => by
        rw [h.lookup?_of_hasDirectory hpath hpath.text_ne hpassable hthere] at hnone
        cases hnone
      rw [ensureDirectory, makeDirectory, create, hplace]
      simp only [if_neg hmissing]

/-- Where nothing stands in the way, the directories of a path below the root are made, and
nothing else changes. -/
theorem makeDirectories_ok (h : RootAt tree root location) (hclosed : tree.Closed)
    (hpath : Spells root path names) (hpassable : Passable tree location names) :
    ∃ after, tree.makeDirectories path = (.ok (), after) ∧
      after.lookup? (location ++ names) = some .directory ∧
      ∀ other, (∀ above, above <+: names → other ≠ location ++ above) →
        after.lookup? other = tree.lookup? other := by
  induction names using List.reverseRecOn generalizing path with
  | nil =>
      have hroot : tree.lookup? (location ++ []) = some .directory := by
        rw [List.append_nil]
        exact h.directory
      have hthere : path.text = "" ∨ tree.hasDirectory path = true :=
        or_iff_not_imp_left.mpr fun hnamed =>
          h.hasDirectory_spelled hclosed hpath hnamed hpassable hroot
      exact ⟨tree, makeDirectories_of_hasDirectory hthere, hroot, fun _ _ => rfl⟩
  | append_singleton names name ih =>
      obtain ⟨parent, hparent⟩ := Path.exists_parent? hpath.solidSteps_ne_nil
      rw [makeDirectories, Path.ancestors_of_parent? hparent, makeAncestors,
        if_neg hpath.text_ne]
      rcases h.ensureDirectory_cases hclosed hpath hpassable with
        ⟨after, hmade, hdirectory, hother⟩ | ⟨hmissing, -⟩
      · rw [hmade]
        exact ⟨after, rfl, hdirectory, fun other happart =>
          hother other (happart _ List.prefix_rfl)⟩
      · have hpassableAbove := hpassable.of_prefix (List.prefix_append names [name])
        obtain ⟨grown, hgrown, hdirectory, hother⟩ := ih (hpath.of_parent? hparent) hpassableAbove
        rw [makeDirectories] at hgrown
        have hgrows : Grows tree grown := by
          rw [show grown = (tree.makeAncestors parent.ancestors).2 by rw [hgrown]]
          exact tree.makeAncestors_grows parent.ancestors
        have hgrownClosed : grown.Closed := by
          rw [show grown = (tree.makeDirectories parent).2 by rw [makeDirectories, hgrown]]
          exact hclosed.makeDirectories parent
        rcases (h.of_grows hgrows).ensureDirectory_cases hgrownClosed hpath
          (hpassable.of_grows hgrows) with ⟨after, hmade, hend, hsame⟩ | ⟨-, hagain⟩
        · rw [hmissing, hgrown]
          dsimp only
          rw [hmade]
          refine ⟨after, rfl, hend, fun other happart => ?_⟩
          rw [hsame other (happart _ List.prefix_rfl)]
          exact hother other fun above hbegins =>
            happart above (hbegins.trans (List.prefix_append names [name]))
        · exact absurd hdirectory hagain

end RootAt

end FileTree

end OverlayManifest
