/-
# The names in paths

Where a path leads depends on the steps that stand for something. Joining two paths
puts these steps one after the other, and the paths above a path have fewer and fewer
of them.
-/

import OverlayManifest.FileTree

namespace OverlayManifest.Path

/-- The steps of a path, less those that stand for nothing. -/
def solidSteps (path : Path) : List (List Char) :=
  (path.text.toList.splitOn '/').filter (!isVoid ·)

/-- A path is relative, and all its components are names. -/
def IsNamed (path : Path) : Prop := ∃ names : List String, path.components = names.map .named

/-! ## Openings -/

/-- Whatever opens a text stands for nothing, as a step. -/
theorem filter_splitOpening (text : List Char) :
    ((splitOpening text).2.splitOn '/').filter (!isVoid ·) =
      (text.splitOn '/').filter (!isVoid ·) := by
  fun_cases splitOpening text with
  | case1 rest =>
      rw [← List.nil_append ('/' :: rest), List.splitOn_append_cons_self]
      rfl
  | case2 => rfl
  | case3 rest =>
      show _ = (List.splitOn '/' (['.'] ++ '/' :: rest)).filter _
      rw [← List.nil_append ('/' :: rest), List.splitOn_append_cons_self, List.nil_append,
        List.splitOn_append_cons_self]
      rfl
  | case4 => rfl

theorem filter_steps (path : Path) : path.steps.filter (!isVoid ·) = path.solidSteps :=
  filter_splitOpening path.text.toList

theorem opening_eq_root_iff (text : List Char) :
    (splitOpening text).1 = .root ↔ text.head? = some '/' := by
  fun_cases splitOpening text with
  | case1 rest => simp
  | case2 => simp
  | case3 rest => simp
  | case4 =>
      rename_i hroot _ _
      cases text with
      | nil => simp
      | cons c rest =>
          simp only [reduceCtorEq, List.head?_cons, Option.some.injEq, false_iff]
          rintro rfl
          exact hroot rest rfl

/-- A path is absolute if its text starts with a slash. -/
theorem isAbsolute_iff {path : Path} :
    path.isAbsolute = true ↔ path.text.toList.head? = some '/' := by
  rw [isAbsolute, beq_iff_eq, opening, opening_eq_root_iff]

/-! ## Joined paths -/

/-- The steps before those of what is joined. -/
def stepsBefore (base : Path) : List (List Char) :=
  if base.text = "" then []
  else if base.text.toList.getLast? = some '/' then
    base.text.toList.dropLast.splitOn '/'
  else base.text.toList.splitOn '/'

/-- The text of a joined path. -/
theorem toList_join {base path : Path} (hrelative : path.isAbsolute = false)
    (hbase : base.text ≠ "") :
    (base.join path).text.toList =
      if base.text.toList.getLast? = some '/' then base.text.toList ++ path.text.toList
      else base.text.toList ++ '/' :: path.text.toList := by
  unfold join
  rw [hrelative, Bool.false_or, if_neg (by simpa using hbase)]
  split
  · rw [String.toList_append]
  · rw [String.toList_append, String.toList_append, List.append_assoc]
    rfl

/-- What is joined stands in the joined path. -/
theorem mem_toList_join {base path : Path} (hrelative : path.isAbsolute = false) {c : Char}
    (hc : c ∈ path.text.toList) : c ∈ (base.join path).text.toList := by
  by_cases hbase : base.text = ""
  · simpa [join, hbase] using hc
  · rw [toList_join hrelative hbase]
    split
    · exact List.mem_append_right _ hc
    · exact List.mem_append_right _ (List.mem_cons_of_mem _ hc)

/-- A joined path has the steps of its base, and then those of what is joined. -/
theorem splitOn_join {base path : Path} (hrelative : path.isAbsolute = false) :
    (base.join path).text.toList.splitOn '/' =
      base.stepsBefore ++ path.text.toList.splitOn '/' := by
  by_cases hempty : base.text = ""
  · simp [join, stepsBefore, hempty]
  · rw [toList_join hrelative hempty, stepsBefore, if_neg hempty]
    split
    · rename_i hslash
      obtain ⟨text, htext⟩ := List.getLast?_eq_some_iff.mp hslash
      rw [htext, List.dropLast_concat, List.append_assoc, List.singleton_append,
        List.splitOn_append_cons_self]
    · rw [List.splitOn_append_cons_self]

/-- The steps before what is joined are those of the base that stand for something. -/
theorem filter_stepsBefore (base : Path) :
    base.stepsBefore.filter (!isVoid ·) = base.solidSteps := by
  unfold stepsBefore solidSteps
  split
  · rename_i hempty
    rw [hempty]
    rfl
  · split
    · rename_i hslash
      obtain ⟨text, htext⟩ := List.getLast?_eq_some_iff.mp hslash
      rw [htext, List.dropLast_concat, List.splitOn_append_cons_self, List.filter_append]
      simp [isVoid]
    · rfl

/-- A joined path is absolute if its base is. -/
theorem isAbsolute_join {base path : Path} (hrelative : path.isAbsolute = false) :
    (base.join path).isAbsolute = base.isAbsolute := by
  by_cases hempty : base.text = ""
  · have hbase : base.isAbsolute = false := by
      rw [Bool.eq_false_iff, ne_eq, isAbsolute_iff, hempty]
      simp
    rw [join, hempty, if_pos (by simp), hrelative, hbase]
  · have hfirst : (base.join path).text.toList.head? = base.text.toList.head? := by
      obtain ⟨c, text, htext⟩ := List.exists_cons_of_ne_nil
        (show base.text.toList ≠ [] by simpa using hempty)
      rw [toList_join hrelative hempty, htext]
      split
      · rfl
      · rfl
    rw [Bool.eq_iff_iff, isAbsolute_iff, isAbsolute_iff, hfirst]

theorem solidSteps_join {base path : Path} (hrelative : path.isAbsolute = false) :
    (base.join path).solidSteps = base.solidSteps ++ path.solidSteps := by
  rw [solidSteps, splitOn_join hrelative, List.filter_append, filter_stepsBefore]
  rfl

/-! ## Named paths -/

theorem map_ofStep_eq_named {steps : List (List Char)} {names : List String}
    (h : steps.map Component.ofStep = names.map .named) :
    steps = names.map String.toList ∧ ".." ∉ names := by
  induction names generalizing steps with
  | nil => simpa using h
  | cons name names ih =>
      cases steps with
      | nil => simp at h
      | cons step steps =>
          rw [List.map_cons, List.map_cons, List.cons.injEq] at h
          obtain ⟨hsteps, hup⟩ := ih h.2
          have hstep := h.1
          unfold Component.ofStep at hstep
          split at hstep
          · cases hstep
          · rename_i hdots
            cases hstep
            refine ⟨by rw [hsteps, List.map_cons, String.toList_ofList], ?_⟩
            rw [List.mem_cons, not_or]
            refine ⟨fun hname => hdots ?_, hup⟩
            rw [← String.toList_ofList (l := step), ← hname]
            rfl

/-- A path of names is relative, and its names are its steps that stand for something. -/
theorem components_eq_named {path : Path} {names : List String}
    (h : path.components = names.map .named) :
    path.isAbsolute = false ∧ path.solidSteps = names.map String.toList ∧ ".." ∉ names := by
  rw [components, filter_steps] at h
  cases hopening : path.opening with
  | plain =>
      rw [hopening] at h
      refine ⟨?_, map_ofStep_eq_named h⟩
      rw [isAbsolute, hopening]
      rfl
  | root => cases names <;> simp [hopening, Opening.components] at h
  | current => cases names <;> simp [hopening, Opening.components] at h

/-! ## The paths above a path -/

/-- What an opening says about the text that it opens. -/
theorem splitOpening_cases (text : List Char) :
    (∃ rest, text = '/' :: rest ∧ splitOpening text = (.root, rest)) ∨
      (text = ['.'] ∧ splitOpening text = (.current, [])) ∨
      (∃ rest, text = '.' :: '/' :: rest ∧ splitOpening text = (.current, '/' :: rest)) ∨
      (text.head? ≠ some '/' ∧ splitOpening text = (.plain, text)) := by
  fun_cases splitOpening text with
  | case1 rest => exact .inl ⟨rest, rfl, rfl⟩
  | case2 => exact .inr (.inl ⟨rfl, rfl⟩)
  | case3 rest => exact .inr (.inr (.inl ⟨rest, rfl, rfl⟩))
  | case4 =>
      rename_i hroot _ _
      refine .inr (.inr (.inr ⟨fun hhead => ?_, rfl⟩))
      obtain ⟨rest, rfl⟩ := List.head?_eq_some_iff.mp hhead
      exact hroot rest rfl

/-- Steps that are written one after the other are read back. -/
theorem filter_splitOn_intercalate {steps : List (List Char)}
    (hslash : ∀ step ∈ steps, '/' ∉ step) :
    ((['/'].intercalate steps).splitOn '/').filter (!isVoid ·) = steps.filter (!isVoid ·) := by
  by_cases hnil : steps = []
  · subst hnil
    rfl
  · rw [List.splitOn_intercalate '/' hslash hnil]

/-- Steps from the start of a text without a slash there start as the text does. -/
theorem head?_intercalate {text : List Char} {steps : List (List Char)}
    (hplain : text.head? ≠ some '/') (hsteps : steps <+: text.splitOn '/')
    (hlast : ∀ step, steps.getLast? = some step → isVoid step = false) :
    ['/'].intercalate steps = [] ∨ (['/'].intercalate steps).head? = text.head? := by
  cases steps with
  | nil => exact .inl rfl
  | cons first more =>
      refine .inr ?_
      cases text with
      | nil =>
          rw [List.splitOn_nil, List.cons_prefix_cons, List.prefix_nil] at hsteps
          rw [hsteps.1, hsteps.2] at hlast
          cases hlast [] rfl
      | cons c text =>
          obtain ⟨start, rest, -, hsplit⟩ :=
            splitOn_cons_of_ne text (show c ≠ '/' by simpa using hplain)
          rw [hsplit] at hsteps
          rw [(List.cons_prefix_cons.mp hsteps).1]
          cases more with
          | nil => simp
          | cons second more => simp [List.intercalate_cons_cons]

/-- Steps of a path are read back after its opening. -/
theorem solidSteps_assemble {path : Path} {steps : List (List Char)}
    (hsteps : steps <+: path.steps)
    (hlast : ∀ step, steps.getLast? = some step → isVoid step = false) :
    (assemble path.opening steps).solidSteps = steps.filter (!isVoid ·) ∧
      ((assemble path.opening steps).text = "" ∨
        (assemble path.opening steps).isAbsolute = path.isAbsolute) := by
  have hslash : ∀ step ∈ steps, '/' ∉ step := fun step hstep =>
    slash_notMem_of_mem_splitOn (hsteps.mem hstep)
  have htext : (assemble path.opening steps).text.toList =
      path.opening.text ++ ['/'].intercalate steps := by
    rw [assemble, String.toList_ofList]
  have hempty : (assemble path.opening steps).text = "" ↔
      path.opening.text ++ ['/'].intercalate steps = [] := by
    rw [← htext, String.toList_eq_nil_iff]
  rw [hempty, Bool.eq_iff_iff, isAbsolute_iff, isAbsolute_iff, solidSteps, htext]
  unfold Path.steps at hsteps
  unfold Path.opening
  rcases splitOpening_cases path.text.toList with
    ⟨rest, hpath, hopening⟩ | ⟨hpath, hopening⟩ | ⟨rest, hpath, hopening⟩ | ⟨hpath, hopening⟩
  · rw [hopening, hpath]
    refine ⟨?_, .inr (by simp [Opening.text])⟩
    show (List.splitOn '/' ([] ++ '/' :: ['/'].intercalate steps)).filter _ = _
    rw [List.splitOn_append_cons_self, List.filter_append, filter_splitOn_intercalate hslash]
    rfl
  · -- The only step after a lone `.` stands for nothing.
    rw [hopening] at hsteps
    have hnil : steps = [] := by
      rcases List.prefix_cons_iff.mp hsteps with hnil | ⟨last, rfl, hnothing⟩
      · exact hnil
      · rw [List.prefix_nil.mp hnothing] at hlast
        cases hlast [] rfl
    rw [hopening, hpath, hnil]
    exact ⟨rfl, .inr Iff.rfl⟩
  · rw [hopening] at hsteps ⊢
    rw [hpath]
    have hstart : ('/' :: rest).splitOn '/' = [] :: rest.splitOn '/' :=
      List.splitOn_append_cons_self [] rest
    rw [hstart] at hsteps
    rcases List.prefix_cons_iff.mp hsteps with rfl | ⟨below, rfl, hbelow⟩
    · exact ⟨rfl, .inr (by simp [Opening.text])⟩
    · have hbelowNil : below ≠ [] := by
        rintro rfl
        cases hlast [] rfl
      rw [List.intercalate_cons_of_ne_nil hbelowNil]
      refine ⟨?_, .inr (by simp [Opening.text])⟩
      show (List.splitOn '/' (['.'] ++ '/' :: ['/'].intercalate below)).filter _ = _
      rw [List.splitOn_append_cons_self, List.filter_append,
        filter_splitOn_intercalate fun step hstep => hslash step (by simp [hstep])]
      rfl
  · rw [hopening] at hsteps ⊢
    refine ⟨filter_splitOn_intercalate hslash, ?_⟩
    rw [Opening.text, List.nil_append]
    rcases head?_intercalate hpath hsteps hlast with hnil | hhead
    · exact .inl hnil
    · exact .inr (by rw [hhead])

/-- A path that is cut after a step that stands for something keeps the steps before. -/
theorem solidSteps_cut {path : Path} {rest : List (List Char)}
    (hrest : rest <:+ path.stepsFromEnd)
    (hhead : ∀ step, rest.head? = some step → isVoid step = false) :
    (assemble path.opening rest.reverse).text = "" ∨
      (assemble path.opening rest.reverse).solidSteps = (rest.filter (!isVoid ·)).reverse ∧
        (assemble path.opening rest.reverse).isAbsolute = path.isAbsolute := by
  have hsteps : rest.reverse <+: path.steps := by
    rw [← List.reverse_reverse path.steps, List.reverse_prefix]
    exact hrest.trans (List.dropWhile_suffix _)
  obtain ⟨hsolid, habsolute⟩ := solidSteps_assemble hsteps fun step hstep => by
    rw [List.getLast?_reverse] at hstep
    exact hhead step hstep
  rcases habsolute with hempty | habsolute
  · exact .inl hempty
  · exact .inr ⟨by rw [hsolid, List.filter_reverse], habsolute⟩

theorem filter_dropWhile_isVoid (steps : List (List Char)) :
    (steps.dropWhile isVoid).filter (!isVoid ·) = steps.filter (!isVoid ·) := by
  induction steps with
  | nil => rfl
  | cons step steps ih =>
      rw [List.dropWhile_cons]
      by_cases hvoid : isVoid step = true
      · rw [if_pos hvoid, ih, List.filter_cons_of_neg (by simp [hvoid])]
      · rw [if_neg hvoid]

/-- The steps from the end are those that stand for something, the last first. -/
theorem filter_stepsFromEnd (path : Path) :
    path.stepsFromEnd.filter (!isVoid ·) = path.solidSteps.reverse := by
  rw [stepsFromEnd, filter_dropWhile_isVoid, List.filter_reverse, filter_steps]

theorem isVoid_head_dropWhile {steps : List (List Char)} {step : List Char}
    (h : (steps.dropWhile isVoid).head? = some step) : isVoid step = false := by
  have hhead := List.head?_dropWhile_not isVoid steps
  rw [h] at hhead
  simpa using hhead

/-- The paths above a path open as it does, and have some of its steps, of which the last
stands for something. -/
theorem mem_above {opening : Opening} {steps : List (List Char)} {path : Path}
    (h : path ∈ above opening steps) :
    path.text = "" ∨ ∃ rest, rest <:+ steps.tail ∧
      (∀ step, rest.head? = some step → isVoid step = false) ∧
      path = assemble opening rest.reverse := by
  fun_induction above opening steps with
  | case1 =>
      rw [List.mem_singleton] at h
      exact .inl (by rw [h])
  | case2 => cases h
  | case3 step steps hlength ih =>
      have hbelow : steps.dropWhile isVoid <:+ steps := List.dropWhile_suffix _
      rcases List.mem_cons.mp h with rfl | h
      · exact .inr ⟨_, hbelow, fun first hfirst => isVoid_head_dropWhile hfirst, rfl⟩
      · rcases ih h with hempty | ⟨rest, hrest, hhead, rfl⟩
        · exact .inl hempty
        · exact .inr ⟨rest, (hrest.trans (List.tail_suffix _)).trans hbelow, hhead, rfl⟩

/-- A path above another one has steps from its start. -/
theorem solidSteps_of_mem_ancestors {path ancestor : Path} (h : ancestor ∈ path.ancestors) :
    ancestor.text = "" ∨
      ancestor.solidSteps <+: path.solidSteps ∧ ancestor.isAbsolute = path.isAbsolute := by
  rcases List.mem_cons.mp h with rfl | h
  · exact .inr ⟨List.prefix_rfl, rfl⟩
  · rcases mem_above h with hempty | ⟨rest, hrest, hhead, rfl⟩
    · exact .inl hempty
    · have hend : rest <:+ path.stepsFromEnd := hrest.trans (List.tail_suffix _)
      rcases solidSteps_cut hend hhead with hempty | ⟨hsolid, habsolute⟩
      · exact .inl hempty
      · refine .inr ⟨?_, habsolute⟩
        rw [hsolid, ← List.reverse_reverse path.solidSteps, ← filter_stepsFromEnd,
          List.reverse_prefix]
        exact hend.filter _

end OverlayManifest.Path
