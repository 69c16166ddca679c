/-
# Paths below a path

What is joined to a path is what remains of it below that path, so that exclude
patterns are tried on the directory and the name of a resource file.
-/

import OverlayManifest.Proofs.PathNames

namespace OverlayManifest.Path

/-- The steps of a text are those after its opening, but for one that stands for nothing. -/
theorem steps_cases (path : Path) : ∃ front back common,
    path.text.toList.splitOn '/' = front ++ common ∧ path.steps = back ++ common ∧
      front.length ≤ 1 ∧ (∀ step ∈ front ++ back, isVoid step = true) := by
  unfold steps
  rcases splitOpening_cases path.text.toList with
    ⟨rest, hpath, hopening⟩ | ⟨hpath, hopening⟩ | ⟨rest, hpath, hopening⟩ | ⟨-, hopening⟩
  · rw [hopening, hpath]
    exact ⟨[[]], [], rest.splitOn '/', List.splitOn_append_cons_self [] rest, rfl,
      Nat.le_refl 1, by simp [isVoid]⟩
  · rw [hopening, hpath]
    exact ⟨[['.']], [[]], [], rfl, rfl, Nat.le_refl 1, by simp [isVoid]⟩
  · rw [hopening, hpath]
    exact ⟨[['.']], [[]], rest.splitOn '/', List.splitOn_append_cons_self ['.'] rest,
      List.splitOn_append_cons_self [] rest, Nat.le_refl 1, by simp [isVoid]⟩
  · rw [hopening]
    exact ⟨[], [], path.text.toList.splitOn '/', rfl, rfl, Nat.zero_le 1, by simp⟩

/-- A path that is joined to another one opens as that does. -/
theorem opening_join {base path : Path} (hrelative : path.isAbsolute = false)
    (hbase : base.text ≠ "") : (base.join path).opening = base.opening := by
  obtain ⟨more, hmore, hslash⟩ : ∃ more,
      (base.join path).text.toList = base.text.toList ++ more ∧
        (base.text.toList.getLast? ≠ some '/' → ∃ rest, more = '/' :: rest) := by
    rw [toList_join hrelative hbase]
    split
    · rename_i hends
      exact ⟨_, rfl, fun hnot => absurd hends hnot⟩
    · exact ⟨_, rfl, fun _ => ⟨_, rfl⟩⟩
  unfold opening
  rw [hmore]
  rcases splitOpening_cases base.text.toList with
    ⟨rest, htext, hopening⟩ | ⟨htext, hopening⟩ | ⟨rest, htext, hopening⟩ | ⟨htext, hopening⟩
  · rw [hopening, htext]
    rfl
  · obtain ⟨rest, rfl⟩ := hslash (by rw [htext]; decide)
    rw [hopening, htext]
    rfl
  · rw [hopening, htext]
    rfl
  · rw [hopening]
    obtain ⟨c, text, hcons⟩ :=
      List.exists_cons_of_ne_nil (show base.text.toList ≠ [] by simpa using hbase)
    rw [hcons] at hopening htext ⊢
    rcases splitOpening_cases (c :: text ++ more) with
      ⟨rest, hother, -⟩ | ⟨hother, hcurrent⟩ | ⟨rest, hother, -⟩ | ⟨-, hplain⟩
    · rw [List.cons_append, List.cons.injEq] at hother
      exact absurd (by rw [hother.1]; rfl) htext
    · simp only [List.cons_append, List.cons.injEq, List.append_eq_nil_iff] at hother
      rw [hother.1, hother.2.1] at hopening
      cases hopening
    · rw [List.cons_append, List.cons.injEq] at hother
      rw [hother.1] at hopening
      cases text with
      | nil => cases hopening
      | cons next text =>
          rw [List.cons_append, List.cons.injEq] at hother
          rw [hother.2.1] at hopening
          cases hopening
    · rw [hplain]

/-- Dropping as many steps as stand for something before others leaves those. -/
theorem dropWhile_dropSteps (before after : List (List Char)) :
    (dropSteps (before.countP (!isVoid ·)) (before ++ after)).dropWhile isVoid =
      after.dropWhile isVoid := by
  induction before with
  | nil => rw [List.countP_nil, dropSteps, List.nil_append]
  | cons step before ih =>
      rw [List.cons_append]
      by_cases hvoid : isVoid step = true
      · rw [List.countP_cons_of_neg (by simp [hvoid])]
        cases hcount : before.countP (!isVoid ·) with
        | zero =>
            rw [hcount, dropSteps] at ih
            rw [dropSteps, List.dropWhile_cons_of_pos hvoid, ih]
        | succ count =>
            rw [hcount] at ih
            rw [dropSteps, if_pos hvoid, ih]
      · rw [List.countP_cons_of_pos (by simp [hvoid]), dropSteps, if_neg hvoid, ih]

/-- Only the empty path has no components. -/
theorem text_eq_of_components {path : Path} (h : path.components = []) : path.text = "" := by
  rw [components, filter_steps, List.append_eq_nil_iff, List.map_eq_nil_iff] at h
  rw [← String.toList_eq_nil_iff]
  unfold opening solidSteps at h
  rcases splitOpening_cases path.text.toList with
    ⟨rest, htext, hopening⟩ | ⟨htext, hopening⟩ | ⟨rest, htext, hopening⟩ | ⟨htext, hopening⟩
  · simp [hopening, Opening.components] at h
  · simp [hopening, Opening.components] at h
  · simp [hopening, Opening.components] at h
  · cases hcons : path.text.toList with
    | nil => rfl
    | cons c text =>
        -- A first step that stands for nothing would be an opening.
        rw [hcons] at h hopening htext
        obtain ⟨start, rest, hsplit, hstart⟩ :=
          splitOn_cons_of_ne text (show c ≠ '/' by simpa using htext)
        have hsteps := h.2
        rw [hstart, List.filter_eq_nil_iff] at hsteps
        have hfirst : c = '.' ∧ start = [] := by
          simpa [isVoid] using hsteps (c :: start) (by simp)
        rw [hfirst.1] at hopening
        cases text with
        | nil => cases hopening
        | cons next text =>
            by_cases hnext : next = '/'
            · rw [hnext] at hopening
              cases hopening
            · obtain ⟨start', rest', -, hstart'⟩ := splitOn_cons_of_ne text hnext
              rw [hstart', hfirst.2] at hsplit
              cases hsplit

theorem isAbsolute_of_notMem {name : String} (h : '/' ∉ name.toList) :
    isAbsolute ⟨name⟩ = false := by
  rw [Bool.eq_false_iff, ne_eq, isAbsolute_iff]
  exact fun hhead => h (List.mem_of_head? hhead)

/-- A name that is joined to a path is a step after those before. -/
theorem splitOn_join_name {base : Path} {name : String} (hname : '/' ∉ name.toList) :
    (base.join ⟨name⟩).text.toList.splitOn '/' = base.stepsBefore ++ [name.toList] := by
  rw [splitOn_join (isAbsolute_of_notMem hname), List.splitOn_eq_singleton hname]

/-- After a name, the steps before what is joined are all steps. -/
theorem stepsBefore_join_name {base : Path} {name : String} (hbase : base.text ≠ "")
    (hname : '/' ∉ name.toList) (hsolid : isVoid name.toList = false) :
    (base.join ⟨name⟩).stepsBefore = base.stepsBefore ++ [name.toList] := by
  have hnil : name.toList ≠ [] := by
    intro hnil
    rw [hnil] at hsolid
    cases hsolid
  obtain ⟨last, hlast⟩ := Option.ne_none_iff_exists'.mp
    (show name.toList.getLast? ≠ none by simpa using hnil)
  have hend : (base.join ⟨name⟩).text.toList.getLast? = some last := by
    rw [toList_join (isAbsolute_of_notMem hname) hbase]
    split
    · rw [List.getLast?_append, hlast]
      rfl
    · rw [List.getLast?_append, List.getLast?_cons_of_ne_nil hnil, hlast]
      rfl
  have hslash : last ≠ '/' := by
    rintro rfl
    exact hname (List.mem_of_getLast? hlast)
  have hjoined : (base.join ⟨name⟩).text ≠ "" := by
    intro hempty
    rw [hempty] at hend
    cases hend
  rw [stepsBefore, if_neg hjoined, hend, if_neg (by simpa using hslash),
    splitOn_join_name hname]

/-- After its first step, the steps of a text are those of the path, and as many stand for
something before them. -/
theorem steps_of_splitOn {path : Path} {before after : List (List Char)} (hbefore : before ≠ [])
    (hsplit : path.text.toList.splitOn '/' = before ++ after) : ∃ first,
      path.steps = first ++ after ∧
        first.countP (!isVoid ·) = before.countP (!isVoid ·) := by
  obtain ⟨front, back, common, hfront, hback, hlength, hvoid⟩ := steps_cases path
  obtain ⟨middle, hmiddle, hcommon⟩ : ∃ middle,
      before = front ++ middle ∧ common = middle ++ after := by
    rw [hsplit] at hfront
    rcases List.append_eq_append_iff.mp hfront with ⟨rest, hrest, hafter⟩ | hmiddle
    · have hpositive := List.length_pos_iff.mpr hbefore
      have hnil : rest = [] := by
        rw [hrest, List.length_append] at hlength
        exact List.length_eq_zero_iff.mp (by omega)
      rw [hnil] at hrest hafter
      exact ⟨[], by rw [hrest]; simp, hafter.symm⟩
    · exact hmiddle
  have hnone {steps : List (List Char)} (hsteps : ∀ step ∈ steps, isVoid step = true) :
      steps.countP (!isVoid ·) = 0 := by
    rw [List.countP_eq_zero]
    intro step hstep
    simp [hsteps step hstep]
  refine ⟨back ++ middle, by rw [hback, hcommon, List.append_assoc], ?_⟩
  rw [hmiddle, List.countP_append, List.countP_append,
    hnone fun step hstep => hvoid step (List.mem_append_right front hstep),
    hnone fun step hstep => hvoid step (List.mem_append_left back hstep)]

theorem stepsBefore_ne_nil {base : Path} (hbase : base.text ≠ "") : base.stepsBefore ≠ [] := by
  unfold stepsBefore
  rw [if_neg hbase]
  split
  · exact List.splitOn_ne_nil '/' _
  · exact List.splitOn_ne_nil '/' _

/-- A name that stands for something is the file name if it is the last of several steps. -/
theorem fileName?_of_splitOn {path : Path} {before : List (List Char)} {name : String}
    (hsplit : path.text.toList.splitOn '/' = before ++ [name.toList]) (hbefore : before ≠ [])
    (hsolid : isVoid name.toList = false) (hup : name ≠ "..") : path.fileName? = some name := by
  obtain ⟨first, hsteps, -⟩ := steps_of_splitOn hbefore hsplit
  have hend : path.stepsFromEnd = name.toList :: first.reverse := by
    rw [stepsFromEnd, hsteps, List.reverse_append, List.reverse_singleton, List.singleton_append,
      List.dropWhile_cons_of_neg (by simp [hsolid])]
  have hname : name.toList ≠ ['.', '.'] := by
    intro hdots
    apply hup
    rw [← String.toList_inj, hdots]
    rfl
  rw [fileName?, hend]
  simp only [if_neg hname, String.ofList_toList]

/-- A name that is joined to a path is its file name. -/
theorem fileName?_join_name {base : Path} {name : String} (hbase : base.text ≠ "")
    (hslash : '/' ∉ name.toList) (hsolid : isVoid name.toList = false) (hup : name ≠ "..") :
    (base.join ⟨name⟩).fileName? = some name :=
  fileName?_of_splitOn (splitOn_join_name hslash) (stepsBefore_ne_nil hbase) hsolid hup

/-- A directory and a name that are joined to a path are what remains below it. -/
theorem stripPrefix?_join {base : Path} {directory name : String} (hbase : base.text ≠ "")
    (hdirectory : '/' ∉ directory.toList) (hname : '/' ∉ name.toList)
    (hsolidDirectory : isVoid directory.toList = false) (hsolidName : isVoid name.toList = false) :
    ((base.join ⟨directory⟩).join ⟨name⟩).stripPrefix? base =
      some ⟨directory ++ "/" ++ name⟩ := by
  have hjoined : (base.join ⟨directory⟩).text ≠ "" := by
    intro hempty
    have htext := congrArg String.toList hempty
    rw [toList_join (isAbsolute_of_notMem hdirectory) hbase] at htext
    split at htext
    · simp_all
    · simp at htext
  have hsplit : ((base.join ⟨directory⟩).join ⟨name⟩).text.toList.splitOn '/' =
      base.stepsBefore ++ [directory.toList, name.toList] := by
    rw [splitOn_join_name hname, stepsBefore_join_name hbase hdirectory hsolidDirectory,
      List.append_assoc]
    rfl
  have hsolid : ((base.join ⟨directory⟩).join ⟨name⟩).solidSteps =
      base.solidSteps ++ [directory.toList, name.toList] := by
    rw [solidSteps, hsplit, List.filter_append, filter_stepsBefore]
    simp [hsolidDirectory, hsolidName]
  obtain ⟨before, hsteps, hcount⟩ := steps_of_splitOn (stepsBefore_ne_nil hbase) hsplit
  rw [List.countP_eq_length_filter, List.countP_eq_length_filter, filter_stepsBefore,
    ← filter_steps, ← List.countP_eq_length_filter, ← List.countP_eq_length_filter] at hcount
  have hend : ((base.join ⟨directory⟩).join ⟨name⟩).stepsFromEnd.reverse =
      before ++ [directory.toList, name.toList] := by
    rw [stepsFromEnd, hsteps]
    simp [hsolidName]
  have hcomponents : base.components.isPrefixOf
      ((base.join ⟨directory⟩).join ⟨name⟩).components = true := by
    rw [List.isPrefixOf_iff_prefix, components, components, filter_steps, filter_steps, hsolid,
      opening_join (isAbsolute_of_notMem hname) hjoined,
      opening_join (isAbsolute_of_notMem hdirectory) hbase, List.map_append, ← List.append_assoc]
    exact List.prefix_append _ _
  unfold stripPrefix?
  rw [hend]
  split
  · rename_i hnil
    exact absurd (text_eq_of_components hnil) hbase
  · rw [if_pos hcomponents, ← hcount]
    dsimp only
    rw [dropWhile_dropSteps,
      List.dropWhile_cons_of_neg (by simp [hsolidDirectory]), Option.some.injEq, assemble,
      Path.mk.injEq, ← String.toList_inj, String.toList_ofList]
    simp [Opening.text, List.intercalate_cons_cons]

/-! ## Parents of joined paths -/

/-- A text is its opening and what follows. -/
theorem splitOpening_append (text : List Char) :
    (splitOpening text).1.text ++ (splitOpening text).2 = text := by
  rcases splitOpening_cases text with ⟨rest, rfl, hopening⟩ | ⟨rfl, hopening⟩ |
    ⟨rest, rfl, hopening⟩ | ⟨-, hopening⟩
  all_goals
    rw [hopening]
    rfl

/-- A path is its opening and its steps. -/
theorem assemble_steps (path : Path) : assemble path.opening path.steps = path := by
  rw [assemble, steps, opening, List.intercalate_splitOn, splitOpening_append, String.ofList_toList]

/-- A name that is joined to a path without a slash at its end is a step after its steps. -/
theorem steps_join_name {base : Path} {name : String} (hbase : base.text ≠ "")
    (hend : base.text.toList.getLast? ≠ some '/') (hname : '/' ∉ name.toList) :
    (base.join ⟨name⟩).steps = base.steps ++ [name.toList] := by
  have hrelative := isAbsolute_of_notMem hname
  have htext : (base.join ⟨name⟩).text.toList = base.text.toList ++ '/' :: name.toList := by
    rw [toList_join hrelative hbase, if_neg hend]
  have hrest : (splitOpening (base.join ⟨name⟩).text.toList).2 =
      (splitOpening base.text.toList).2 ++ '/' :: name.toList := by
    refine List.append_cancel_left (show base.opening.text ++ _ = base.opening.text ++ _ from ?_)
    calc base.opening.text ++ (splitOpening (base.join ⟨name⟩).text.toList).2
        = (base.join ⟨name⟩).opening.text ++ (splitOpening (base.join ⟨name⟩).text.toList).2 := by
          rw [opening_join hrelative hbase]
      _ = base.text.toList ++ '/' :: name.toList := by
          rw [opening, splitOpening_append, htext]
      _ = base.opening.text ++ (splitOpening base.text.toList).2 ++ '/' :: name.toList := by
          rw [opening, splitOpening_append]
      _ = _ := List.append_assoc _ _ _
  rw [steps, hrest, List.splitOn_append_cons_self, List.splitOn_eq_singleton hname, steps]

/-- The parent of a name that is joined to a path is the path, if that ends with a step. -/
theorem parent?_join_name {base : Path} {name : String} (hbase : base.text ≠ "")
    (hend : base.text.toList.getLast? ≠ some '/') (hname : '/' ∉ name.toList)
    (hsolid : isVoid name.toList = false)
    (hlast : ∀ step, base.steps.getLast? = some step → isVoid step = false) :
    (base.join ⟨name⟩).parent? = some base := by
  have hsteps : (base.join ⟨name⟩).stepsFromEnd = name.toList :: base.steps.reverse := by
    rw [stepsFromEnd, steps_join_name hbase hend hname, List.reverse_append,
      List.reverse_singleton, List.singleton_append, List.dropWhile_cons_of_neg (by simp [hsolid])]
  have hkeep : base.steps.reverse.dropWhile isVoid = base.steps.reverse := by
    cases hreverse : base.steps.reverse with
    | nil => rfl
    | cons step steps =>
        have hstep : base.steps.getLast? = some step := by
          rw [← List.head?_reverse, hreverse, List.head?_cons]
        rw [List.dropWhile_cons_of_neg (by simp [hlast step hstep])]
  rw [parent?, hsteps]
  dsimp only
  rw [hkeep, opening_join (isAbsolute_of_notMem hname) hbase, List.reverse_reverse,
    assemble_steps]

/-- A path that ends with a name does not end with a slash. -/
theorem ends_join_name {base : Path} {name : String} (hname : '/' ∉ name.toList)
    (hnamed : name ≠ "") :
    (base.join ⟨name⟩).text ≠ "" ∧ (base.join ⟨name⟩).text.toList.getLast? ≠ some '/' := by
  have hend : ∃ before, (base.join ⟨name⟩).text.toList = before ++ name.toList := by
    by_cases hbase : base.text = ""
    · exact ⟨[], by simp [join, hbase]⟩
    · rw [toList_join (isAbsolute_of_notMem hname) hbase]
      split
      · exact ⟨_, rfl⟩
      · exact ⟨base.text.toList ++ ['/'], by simp⟩
  obtain ⟨before, hend⟩ := hend
  obtain ⟨c, hlast⟩ := Option.ne_none_iff_exists'.mp
    (show name.toList.getLast? ≠ none by simpa using hnamed)
  constructor
  · intro hempty
    rw [hempty] at hend
    simp [hnamed] at hend
  · rw [hend, List.getLast?_append, hlast, Option.some_or, ne_eq, Option.some.injEq]
    rintro rfl
    exact hname (List.mem_of_getLast? hlast)

/-- Relative paths can be joined in either order. -/
theorem join_assoc {base first last : Path} (hfirst : first.isAbsolute = false)
    (hlast : last.isAbsolute = false) (hnamed : first.text ≠ "") :
    base.join (first.join last) = (base.join first).join last := by
  by_cases hbase : base.text = ""
  · simp [join, hbase]
  · obtain ⟨c, hend⟩ := Option.ne_none_iff_exists'.mp
      (show first.text.toList.getLast? ≠ none by simpa using hnamed)
    have hends : (base.join first).text.toList.getLast? = some c := by
      rw [toList_join hfirst hbase]
      split
      · rw [List.getLast?_append, hend, Option.some_or]
      · rw [List.getLast?_append, List.getLast?_cons, hend]
        rfl
    have hsome : (base.join first).text ≠ "" := by
      intro hempty
      rw [hempty] at hends
      cases hends
    have htext : (base.join (first.join last)).text.toList =
        ((base.join first).join last).text.toList := by
      rw [toList_join ((isAbsolute_join hlast).trans hfirst) hbase, toList_join hlast hsome, hends,
        toList_join hfirst hbase, toList_join hlast hnamed, hend]
      split <;> split <;> simp
    exact congrArg Path.mk (String.toList_inj.mp htext)

end OverlayManifest.Path
