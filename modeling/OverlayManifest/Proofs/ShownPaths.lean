/-
# Shown paths

A path is shown from another one as what remains below it, whose components are those that
follow, or as it is if it does not lead below. What remains of a path that was joined does not
depend on what it was joined to.
-/

import OverlayManifest.Proofs.PathsBelow

namespace OverlayManifest

namespace Path

/-- A path ends with a step that stands for something. -/
def EndsSolid (path : Path) : Prop := path.stepsFromEnd = path.steps.reverse

/-- What follows one path in another. -/
def IsBelow (rest path base : Path) : Prop := path.components = base.components ++ rest.components

/-- A name that is joined to a path ends it. -/
theorem endsSolid_join_name {base : Path} {name : String} (hbase : base.text ≠ "")
    (hslash : '/' ∉ name.toList) (hsolid : isVoid name.toList = false) :
    (base.join ⟨name⟩).EndsSolid := by
  have hsplit : (base.join ⟨name⟩).text.toList.splitOn '/' = base.stepsBefore ++ [name.toList] :=
    splitOn_join_name hslash
  obtain ⟨first, hsteps, -⟩ := steps_of_splitOn (stepsBefore_ne_nil hbase) hsplit
  rw [EndsSolid, stepsFromEnd, hsteps, List.reverse_append, List.reverse_singleton,
    List.singleton_append, List.dropWhile_cons_of_neg (by simp [hsolid])]

/-- Dropping steps drops as many that stand for something. -/
theorem filter_dropSteps (count : Nat) (steps : List (List Char)) :
    (dropSteps count steps).filter (!isVoid ·) = (steps.filter (!isVoid ·)).drop count := by
  induction steps generalizing count with
  | nil =>
      cases count with
      | zero => rfl
      | succ count => rfl
  | cons step steps ih =>
      cases count with
      | zero => rfl
      | succ count =>
          rw [dropSteps]
          by_cases hvoid : isVoid step = true
          · rw [if_pos hvoid, ih, List.filter_cons_of_neg (by simp [hvoid])]
          · rw [if_neg hvoid, ih, List.filter_cons_of_pos (by simp [hvoid]), List.drop_succ_cons]

theorem dropSteps_suffix (count : Nat) (steps : List (List Char)) :
    dropSteps count steps <:+ steps := by
  induction steps generalizing count with
  | nil =>
      cases count with
      | zero => exact List.suffix_rfl
      | succ count => exact List.suffix_rfl
  | cons step steps ih =>
      cases count with
      | zero => exact List.suffix_rfl
      | succ count =>
          rw [dropSteps]
          split
          · exact (ih _).trans (List.suffix_cons step steps)
          · exact (ih _).trans (List.suffix_cons step steps)

/-- A first step that stands for something is no opening. -/
theorem opening_eq_plain {path : Path} {first : List Char} {more : List (List Char)}
    (hsplit : path.text.toList.splitOn '/' = first :: more) (hfirst : isVoid first = false) :
    path.opening = .plain := by
  rw [opening]
  rcases splitOpening_cases path.text.toList with
    ⟨rest, hother, -⟩ | ⟨hother, -⟩ | ⟨rest, hother, -⟩ | ⟨-, hplain⟩
  · have hvoid : ('/' :: rest).splitOn '/' = [] :: rest.splitOn '/' :=
      List.splitOn_append_cons_self [] rest
    rw [hother, hvoid, List.cons.injEq] at hsplit
    rw [← hsplit.1] at hfirst
    cases hfirst
  · rw [hother] at hsplit
    cases hsplit
    cases hfirst
  · have hvoid : ('.' :: '/' :: rest).splitOn '/' = ['.'] :: rest.splitOn '/' :=
      List.splitOn_append_cons_self ['.'] rest
    rw [hother, hvoid, List.cons.injEq] at hsplit
    rw [← hsplit.1] at hfirst
    cases hfirst
  · rw [hplain]

/-- Steps of which the first stands for something are the components of a path of them. -/
theorem components_assemble_plain {steps : List (List Char)} (hslash : ∀ step ∈ steps, '/' ∉ step)
    (hhead : ∀ step, steps.head? = some step → isVoid step = false) :
    (assemble .plain steps).components = (steps.filter (!isVoid ·)).map .ofStep := by
  cases steps with
  | nil => decide
  | cons first more =>
      have hsplit : (assemble .plain (first :: more)).text.toList.splitOn '/' = first :: more := by
        rw [assemble, String.toList_ofList]
        exact List.splitOn_intercalate '/' hslash (by simp)
      rw [components, opening_eq_plain hsplit (hhead first rfl), filter_steps, solidSteps, hsplit]
      rfl

/-- The first component says how a path opens. -/
theorem opening_eq_of_head? (path : Path) :
    path.opening = match path.components.head? with
      | some .root => .root
      | some .current => .current
      | _ => .plain := by
  rw [components]
  cases path.opening with
  | root => rfl
  | current => rfl
  | plain =>
      cases path.steps.filter (!isVoid ·) with
      | nil => rfl
      | cons step steps =>
          show _ = match some (Component.ofStep step) with
            | some .root => Opening.root
            | some .current => .current
            | _ => .plain
          by_cases hup : step = ['.', '.']
          · rw [Component.ofStep, if_pos hup]
          · rw [Component.ofStep, if_neg hup]

/-- Paths with a common first component open in the same way. -/
theorem opening_eq_of_prefix {base path : Path} (hbase : base.components ≠ [])
    (h : base.components <+: path.components) : path.opening = base.opening := by
  obtain ⟨rest, hrest⟩ := h
  obtain ⟨first, more, hfirst⟩ := List.exists_cons_of_ne_nil hbase
  rw [opening_eq_of_head?, opening_eq_of_head? base, ← hrest, hfirst]
  rfl

/-- A path remains below another one if its components begin with those, and then the others
remain. -/
theorem stripPrefix?_cases {path : Path} (hend : path.EndsSolid) (base : Path) :
    (∃ rest, path.stripPrefix? base = some rest ∧ rest.IsBelow path base) ∨
      (path.stripPrefix? base = none ∧ ¬ base.components <+: path.components) := by
  have hsteps : path.stepsFromEnd.reverse = path.steps := by rw [hend, List.reverse_reverse]
  unfold stripPrefix?
  rw [hsteps]
  split
  · rename_i hnil
    refine .inl ⟨_, rfl, ?_⟩
    rw [assemble_steps, IsBelow, hnil, List.nil_append]
  · rename_i hbase
    split
    · rename_i hprefix
      rw [List.isPrefixOf_iff_prefix] at hprefix
      obtain ⟨below, hbelow⟩ := hprefix
      have hopening := opening_eq_of_prefix hbase ⟨below, hbelow⟩
      have hcount : base.steps.countP (!isVoid ·) =
          (base.solidSteps.map Component.ofStep).length := by
        rw [List.countP_eq_length_filter, filter_steps, List.length_map]
      have hsolid : path.solidSteps.map Component.ofStep =
          base.solidSteps.map Component.ofStep ++ below := by
        rw [components, components, hopening, filter_steps, filter_steps,
          List.append_assoc] at hbelow
        exact (List.append_cancel_left hbelow).symm
      refine .inl ⟨_, rfl, ?_⟩
      rw [IsBelow, components_assemble_plain, filter_dropWhile_isVoid, filter_dropSteps,
        filter_steps, List.map_drop, hsolid, hcount, List.drop_left, hbelow]
      · intro step hstep
        have hmem := (dropSteps_suffix _ _).subset ((List.dropWhile_suffix _).subset hstep)
        exact slash_notMem_of_mem_splitOn hmem
      · exact fun step => isVoid_head_dropWhile
    · rename_i hprefix
      rw [List.isPrefixOf_iff_prefix] at hprefix
      exact .inr ⟨rfl, hprefix⟩

/-- A text shows a path to someone at another one: what follows, or the path as it is. -/
def Shows (root path : Path) (text : String) : Prop :=
  IsBelow ⟨text⟩ path root ∨ (¬ root.components <+: path.components ∧ text = path.text)

theorem withSlashes_eq_self {text : String} (h : '\\' ∉ text.toList) : withSlashes text = text := by
  rw [withSlashes, ← String.toList_inj, String.toList_map]
  refine (List.map_congr_left fun c hc => ?_).trans (List.map_id _)
  rw [if_neg (ne_of_mem_of_not_mem hc h), id]

/-- Steps that hold no backslash make a path without one. -/
theorem backslash_notMem_assemble (opening : Opening) {steps : List (List Char)}
    (hsteps : ∀ step ∈ steps, '\\' ∉ step) : '\\' ∉ (assemble opening steps).text.toList := by
  have hjoined : '\\' ∉ ['/'].intercalate steps := by
    induction steps with
    | nil => simp
    | cons step steps ih =>
        have hstep := hsteps step (by simp)
        cases steps with
        | nil => simpa using hstep
        | cons next steps =>
            rw [List.intercalate_cons_cons, List.mem_append, List.mem_append, not_or, not_or]
            exact ⟨⟨hstep, by decide⟩, ih fun step hmem => hsteps step (by simp [hmem])⟩
  rw [assemble, String.toList_ofList, List.mem_append, not_or]
  cases opening with
  | _ => exact ⟨by decide, hjoined⟩

/-- Nor does what remains of a path without backslashes hold any. -/
theorem backslash_notMem_stripPrefix? {path base rest : Path}
    (hslashes : '\\' ∉ path.text.toList) (h : path.stripPrefix? base = some rest) :
    '\\' ∉ rest.text.toList := by
  have hend : ∀ step ∈ path.stepsFromEnd.reverse, '\\' ∉ step := by
    intro step hstep hmem
    rw [List.mem_reverse] at hstep
    have hsteps : step ∈ path.steps :=
      List.mem_reverse.mp ((List.dropWhile_suffix _).subset hstep)
    have hrest := (mem_of_mem_splitOn hsteps hmem).2
    rw [← splitOpening_append path.text.toList] at hslashes
    exact hslashes (List.mem_append_right _ hrest)
  unfold stripPrefix? at h
  split at h
  · cases h
    exact backslash_notMem_assemble _ hend
  · split at h
    · cases h
      refine backslash_notMem_assemble _ fun step hstep => hend step ?_
      exact (dropSteps_suffix _ _).subset ((List.dropWhile_suffix _).subset hstep)
    · cases h

/-- Without backslashes, what is shown of a path is what remains of it. -/
theorem shows_shownFrom {path : Path} (hend : path.EndsSolid) (hslashes : '\\' ∉ path.text.toList)
    (root : Path) : Shows root path (path.shownFrom root) := by
  rw [shownFrom]
  rcases stripPrefix?_cases hend root with ⟨rest, hrest, hbelow⟩ | ⟨hnone, houtside⟩
  · rw [hrest, Option.getD_some,
      withSlashes_eq_self (backslash_notMem_stripPrefix? hslashes hrest)]
    exact .inl hbelow
  · rw [hnone, Option.getD_none, withSlashes_eq_self hslashes]
    exact .inr ⟨houtside, rfl⟩

/-- A relative path adds what its steps say to what it is joined to. -/
theorem components_join {base path : Path} (hbase : base.text ≠ "")
    (hrelative : path.isAbsolute = false) :
    (base.join path).components = base.components ++ path.solidSteps.map .ofStep := by
  rw [components, components, opening_join hrelative hbase, filter_steps, filter_steps,
    solidSteps_join hrelative, List.map_append, List.append_assoc]

/-- What remains of a joined path is what was joined, whatever it was joined to. -/
theorem stripPrefix?_join_of_endsSolid {base path : Path} (hbase : base.text ≠ "")
    (hrelative : path.isAbsolute = false) (hend : (base.join path).EndsSolid) :
    (base.join path).stripPrefix? base =
      some (assemble .plain ((path.text.toList.splitOn '/').dropWhile isVoid)) := by
  obtain ⟨before, hsteps, hcount⟩ :=
    steps_of_splitOn (stepsBefore_ne_nil hbase) (splitOn_join hrelative)
  have hbefore : base.steps.countP (!isVoid ·) = before.countP (!isVoid ·) := by
    rw [hcount, List.countP_eq_length_filter, List.countP_eq_length_filter, filter_stepsBefore,
      filter_steps]
  have hprefix : base.components.isPrefixOf (base.join path).components = true := by
    rw [List.isPrefixOf_iff_prefix, components_join hbase hrelative]
    exact List.prefix_append _ _
  unfold stripPrefix?
  rw [hend, List.reverse_reverse]
  split
  · rename_i hnil
    exact absurd (text_eq_of_components hnil) hbase
  · rw [if_pos hprefix, hbefore, hsteps]
    dsimp only
    rw [dropWhile_dropSteps]

end Path

namespace FilePath

/-- A text shows the path of a file to someone at a path: what follows of the components of its
directory and its name, or the path as it is shown. -/
def Shows (root : Path) (path : FilePath) (text : String) : Prop :=
  match path with
  | .plain path => root.Shows path text
  | .raw directory _ =>
      (root.components <+: directory.components ∧ Path.IsBelow ⟨text⟩ path.shown root) ∨
        (¬ root.components <+: directory.components ∧ text = path.shown.text)

/-- Without backslashes, what is shown of the path of a file is what remains of it. -/
theorem shows_shownFrom {directory : Path} {name : FileName} (hbase : directory.text ≠ "")
    (hslash : '/' ∉ name.shown.toList) (hsolid : Path.isVoid name.shown.toList = false)
    (hslashes : '\\' ∉ (inside directory name).shown.text.toList) (root : Path) :
    (inside directory name).Shows root ((inside directory name).shownFrom root) := by
  have hend := Path.endsSolid_join_name hbase hslash hsolid
  have hbelow : directory.components <+: (directory.join ⟨name.shown⟩).components := by
    rw [Path.components_join hbase (Path.isAbsolute_of_notMem hslash)]
    exact List.prefix_append _ _
  rw [shown_inside] at hslashes
  cases name with
  | plain name => exact Path.shows_shownFrom hend hslashes root
  | raw name =>
      rw [inside, Shows, shownFrom]
      by_cases habove : root.components <+: directory.components
      · rw [if_pos (List.isPrefixOf_iff_prefix.mpr habove)]
        refine .inl ⟨habove, ?_⟩
        exact (Path.shows_shownFrom hend hslashes root).resolve_right fun houtside =>
          houtside.1 (habove.trans hbelow)
      · rw [if_neg (mt List.isPrefixOf_iff_prefix.mp habove)]
        exact .inr ⟨habove, Path.withSlashes_eq_self hslashes⟩

end FilePath

end OverlayManifest
