/-
# Parents of paths

The parent of a path opens as the path does and has its first steps, up to one that stands
for something. So the paths above a path are its parent and those above that, and a parent
can be used if the path can.
-/

import OverlayManifest.Proofs.PathLimits
import OverlayManifest.Proofs.ShownPaths

namespace OverlayManifest

namespace Path

/-- Steps that end with one that stands for something are all kept. -/
theorem dropWhile_isVoid_reverse {steps : List (List Char)}
    (hlast : ∀ step, steps.getLast? = some step → isVoid step = false) :
    steps.reverse.dropWhile isVoid = steps.reverse := by
  cases hreverse : steps.reverse with
  | nil => rfl
  | cons step rest =>
      have hstep : steps.getLast? = some step := by
        rw [← List.head?_reverse, hreverse, List.head?_cons]
      rw [List.dropWhile_cons_of_neg (by simp [hlast step hstep])]

/-- The first step of a path that opens plainly stands for something, if there is one. -/
theorem isVoid_first_of_plain {path : Path} (hplain : path.opening = .plain)
    {first : List Char} {more : List (List Char)}
    (hsplit : path.text.toList.splitOn '/' = first :: more) (hnamed : path.text ≠ "") :
    isVoid first = false := by
  rw [Bool.eq_false_iff]
  intro hvoid
  rw [isVoid, Bool.or_eq_true, beq_iff_eq, beq_iff_eq] at hvoid
  have htext : ['/'].intercalate (path.text.toList.splitOn '/') = path.text.toList :=
    List.intercalate_splitOn '/'
  rw [hsplit] at htext
  rw [opening] at hplain
  cases more with
  | nil =>
      rw [List.intercalate_singleton] at htext
      rcases hvoid with rfl | rfl
      · exact hnamed (String.toList_eq_nil_iff.mp htext.symm)
      · rw [← htext] at hplain
        cases hplain
  | cons second more =>
      rw [List.intercalate_cons_cons, List.append_assoc] at htext
      rcases hvoid with rfl | rfl
      · rw [← htext] at hplain
        cases hplain
      · rw [← htext] at hplain
        cases hplain

/-- Cut after a step that stands for something, a text opens as before. -/
theorem splitOpening_cut {path : Path} {steps : List (List Char)} (hsteps : steps <+: path.steps)
    (hlast : ∀ step, steps.getLast? = some step → isVoid step = false) :
    splitOpening (path.opening.text ++ ['/'].intercalate steps) =
      (path.opening, ['/'].intercalate steps) := by
  have hslash : ∀ step ∈ steps, '/' ∉ step := fun step hstep =>
    slash_notMem_of_mem_splitOn (hsteps.mem hstep)
  unfold Path.steps at hsteps
  rcases splitOpening_cases path.text.toList with
    ⟨rest, -, hopening⟩ | ⟨-, hopening⟩ | ⟨rest, -, hopening⟩ | ⟨-, hopening⟩
  · rw [opening, hopening]
    rfl
  · -- The only step after a lone `.` stands for nothing.
    rw [hopening] at hsteps
    rw [opening, hopening]
    rcases List.prefix_cons_iff.mp hsteps with rfl | ⟨more, rfl, hmore⟩
    · rfl
    · rw [List.prefix_nil.mp hmore] at hlast
      cases hlast [] rfl
  · rw [hopening] at hsteps
    rw [opening, hopening]
    have hstart : ('/' :: rest).splitOn '/' = [] :: rest.splitOn '/' :=
      List.splitOn_append_cons_self [] rest
    rw [hstart] at hsteps
    rcases List.prefix_cons_iff.mp hsteps with rfl | ⟨more, rfl, -⟩
    · rfl
    · have hmore : more ≠ [] := by
        rintro rfl
        cases hlast [] rfl
      rw [List.intercalate_cons_of_ne_nil hmore]
      rfl
  · have hpath : path.opening = .plain := by rw [opening, hopening]
    rw [hopening] at hsteps
    rw [hpath]
    cases steps with
    | nil => rfl
    | cons first more =>
        obtain ⟨others, hothers⟩ := hsteps
        have hnamed : path.text ≠ "" := by
          intro hempty
          rw [hempty] at hothers
          obtain ⟨rfl, hnothing⟩ := List.cons.inj hothers
          rw [(List.append_eq_nil_iff.mp hnothing).1] at hlast
          cases hlast [] rfl
        have hfirst : isVoid first = false :=
          isVoid_first_of_plain hpath hothers.symm hnamed
        have hsplit := List.splitOn_intercalate '/' hslash (List.cons_ne_nil first more)
        have hcut : opening ⟨String.ofList (['/'].intercalate (first :: more))⟩ = .plain :=
          opening_eq_plain (by rw [String.toList_ofList, hsplit]) hfirst
        rw [opening, String.toList_ofList] at hcut
        have htext := splitOpening_append (['/'].intercalate (first :: more))
        rw [hcut] at htext
        exact Prod.ext hcut htext

/-- Cut after a step that stands for something, a path opens as before and has the steps
before the cut. -/
theorem cut_eq {path : Path} {steps : List (List Char)} (hsteps : steps <+: path.steps)
    (hlast : ∀ step, steps.getLast? = some step → isVoid step = false) :
    (assemble path.opening steps).opening = path.opening ∧
      (assemble path.opening steps).stepsFromEnd = steps.reverse ∧
      (steps ≠ [] → (assemble path.opening steps).steps = steps) := by
  have hopening := splitOpening_cut hsteps hlast
  have hcut (hnil : steps ≠ []) : (assemble path.opening steps).steps = steps := by
    rw [Path.steps, assemble, String.toList_ofList, hopening]
    exact List.splitOn_intercalate '/'
      (fun step hstep => slash_notMem_of_mem_splitOn (hsteps.mem hstep)) hnil
  refine ⟨?_, ?_, hcut⟩
  · rw [opening, assemble, String.toList_ofList, hopening]
  · by_cases hnil : steps = []
    · rw [hnil] at hopening ⊢
      rw [stepsFromEnd, Path.steps, assemble, String.toList_ofList, hopening]
      rfl
    · rw [stepsFromEnd, hcut hnil, dropWhile_isVoid_reverse hlast]

/-- A step that stands for something does not end steps that do not. -/
theorem exists_append_of_solid {front common before : List (List Char)} {step : List Char}
    (h : front ++ common = before ++ [step]) (hfront : ∀ void ∈ front, isVoid void = true)
    (hsolid : isVoid step = false) : ∃ rest, common = rest ++ [step] := by
  rcases List.eq_nil_or_concat common with rfl | ⟨rest, last, rfl⟩
  · have hmem : step ∈ front := by
      rw [List.append_nil] at h
      rw [h]
      simp
    rw [hfront step hmem] at hsolid
    cases hsolid
  · rw [List.concat_eq_append, ← List.append_assoc] at h
    obtain ⟨-, hlast⟩ := List.append_inj' h rfl
    exact ⟨rest, by rw [List.concat_eq_append, hlast]⟩

/-- A last step that stands for something ends the text, and the other way round. -/
theorem splitOn_ends_iff {path : Path} {step : List Char} (hsolid : isVoid step = false) :
    (∃ before, path.text.toList.splitOn '/' = before ++ [step]) ↔
      ∃ before, path.steps = before ++ [step] := by
  obtain ⟨front, back, common, hfront, hback, -, hvoid⟩ := steps_cases path
  rw [hfront, hback]
  constructor
  · rintro ⟨before, h⟩
    obtain ⟨rest, rfl⟩ := exists_append_of_solid h
      (fun void hmem => hvoid void (List.mem_append_left back hmem)) hsolid
    exact ⟨back ++ rest, (List.append_assoc _ _ _).symm⟩
  · rintro ⟨before, h⟩
    obtain ⟨rest, rfl⟩ := exists_append_of_solid h
      (fun void hmem => hvoid void (List.mem_append_right front hmem)) hsolid
    exact ⟨front ++ rest, (List.append_assoc _ _ _).symm⟩

/-- A path whose text ends with a step that stands for something ends with it. -/
theorem endsSolid_of_splitOn {path : Path} {before : List (List Char)} {step : List Char}
    (h : path.text.toList.splitOn '/' = before ++ [step]) (hsolid : isVoid step = false) :
    path.EndsSolid := by
  obtain ⟨first, hsteps⟩ := (splitOn_ends_iff hsolid).mp ⟨before, h⟩
  rw [EndsSolid, stepsFromEnd]
  apply dropWhile_isVoid_reverse
  intro last hlast
  rw [hsteps, List.getLast?_concat, Option.some.injEq] at hlast
  rw [← hlast, hsolid]

variable {path parent : Path}

/-- A parent is a path that is cut, or it is empty. -/
theorem parent?_cases (h : path.parent? = some parent) :
    (∃ last above, path.stepsFromEnd = last :: above ∧
      parent = assemble path.opening (above.dropWhile isVoid).reverse ∧
      (above.dropWhile isVoid).reverse <+: path.steps) ∨
    (path.stepsFromEnd = [] ∧ path.opening = .current ∧ parent = ⟨""⟩) := by
  unfold parent? at h
  split at h
  · rename_i last above hsteps
    cases h
    refine .inl ⟨last, above, hsteps, rfl, ?_⟩
    rw [← List.reverse_reverse path.steps, List.reverse_prefix]
    exact (List.dropWhile_suffix _).trans ((List.suffix_cons last above).trans
      (hsteps ▸ List.dropWhile_suffix _))
  · rename_i hsteps hopening
    cases h
    exact .inr ⟨hsteps, hopening, rfl⟩
  · cases h

theorem ancestors_empty : ancestors ⟨""⟩ = [⟨""⟩] := by
  have hopening : opening ⟨""⟩ = .plain := by decide
  have hsteps : stepsFromEnd ⟨""⟩ = [] := by decide
  rw [ancestors, hopening, hsteps, above]
  rfl

/-- Where a path is cut there is a step that stands for something, or nothing. -/
theorem isVoid_getLast_dropWhile (steps : List (List Char)) (step : List Char)
    (h : (steps.dropWhile isVoid).reverse.getLast? = some step) : isVoid step = false := by
  rw [List.getLast?_reverse] at h
  exact isVoid_head_dropWhile h

/-- The paths above a path are its parent and those above that. -/
theorem ancestors_of_parent? (h : path.parent? = some parent) :
    path.ancestors = path :: parent.ancestors := by
  rcases parent?_cases h with ⟨last, steps, hsteps, rfl, hcut⟩ | ⟨hsteps, hopening, rfl⟩
  · obtain ⟨hopening, hend, -⟩ := cut_eq hcut (isVoid_getLast_dropWhile steps)
    rw [List.reverse_reverse] at hend
    rw [ancestors, hsteps, above, ancestors, hopening, hend]
  · rw [ancestors_empty, ancestors, hsteps, hopening, above]
    rfl

theorem solidSteps_of_stepsFromEnd (h : path.stepsFromEnd = []) : path.solidSteps = [] := by
  have hnothing := filter_stepsFromEnd path
  rwa [h, List.filter_nil, eq_comm, List.reverse_eq_nil_iff] at hnothing

/-- A parent lacks the last of the steps that stand for something, and starts as the path. -/
theorem solidSteps_eq_dropLast (h : path.parent? = some parent) :
    parent.solidSteps = path.solidSteps.dropLast ∧ parent.isAbsolute = path.isAbsolute := by
  rcases parent?_cases h with ⟨last, steps, hsteps, rfl, hcut⟩ | ⟨hsteps, hopening, rfl⟩
  · obtain ⟨hopening, hend, -⟩ := cut_eq hcut (isVoid_getLast_dropWhile steps)
    have hlast : isVoid last = false := by
      apply @isVoid_head_dropWhile path.steps.reverse
      rw [← stepsFromEnd, hsteps, List.head?_cons]
    have hparent := filter_stepsFromEnd (assemble path.opening (steps.dropWhile isVoid).reverse)
    have hpath := filter_stepsFromEnd path
    rw [hend, List.reverse_reverse, filter_dropWhile_isVoid] at hparent
    rw [hsteps, List.filter_cons_of_pos (by simp [hlast]), hparent] at hpath
    refine ⟨?_, by rw [isAbsolute, isAbsolute, hopening]⟩
    rw [← List.reverse_reverse path.solidSteps, ← hpath, List.reverse_cons, List.dropLast_concat,
      List.reverse_reverse]
  · rw [solidSteps_of_stepsFromEnd hsteps, isAbsolute, isAbsolute, hopening]
    exact ⟨rfl, rfl⟩

/-- A path with a step that stands for something has a parent. -/
theorem exists_parent? (h : path.solidSteps ≠ []) : ∃ parent, path.parent? = some parent := by
  rw [parent?]
  split
  · exact ⟨_, rfl⟩
  · exact ⟨_, rfl⟩
  · rename_i hsteps _
    exact absurd (solidSteps_of_stepsFromEnd hsteps) h

/-- A parent ends with a step that stands for something, if it has one. -/
theorem splitOn_of_parent? (h : path.parent? = some parent) :
    parent.solidSteps = [] ∨ ∃ before step,
      parent.text.toList.splitOn '/' = before ++ [step] ∧ isVoid step = false := by
  rcases parent?_cases h with ⟨last, steps, -, rfl, hcut⟩ | ⟨-, -, rfl⟩
  · obtain ⟨-, hend, hsteps⟩ := cut_eq hcut (isVoid_getLast_dropWhile steps)
    cases hrest : steps.dropWhile isVoid with
    | nil =>
        rw [hrest] at hend
        exact .inl (solidSteps_of_stepsFromEnd hend)
    | cons step rest =>
        rw [hrest] at hsteps
        have hsolid : isVoid step = false :=
          isVoid_head_dropWhile (by rw [hrest, List.head?_cons])
        obtain ⟨before, hbefore⟩ := (splitOn_ends_iff hsolid).mpr
          ⟨rest.reverse, (hsteps (by simp)).trans List.reverse_cons⟩
        exact .inr ⟨before, step, hbefore, hsolid⟩
  · exact .inl rfl

/-- The first steps of a text are written at its start. -/
theorem intercalate_prefix {steps more : List (List Char)} (h : steps <+: more) :
    ['/'].intercalate steps <+: ['/'].intercalate more := by
  induction steps generalizing more with
  | nil => exact List.nil_prefix
  | cons step steps ih =>
      obtain ⟨rest, rfl⟩ := h
      cases steps with
      | nil =>
          cases rest with
          | nil => exact List.prefix_rfl
          | cons next rest =>
              rw [List.singleton_append, List.intercalate_cons_cons, List.intercalate_singleton,
                List.append_assoc]
              exact List.prefix_append _ _
      | cons next steps =>
          rw [List.cons_append, List.cons_append, List.intercalate_cons_cons,
            List.intercalate_cons_cons, List.prefix_append_right_inj]
          exact ih (List.prefix_append _ _)

/-- A parent is written as the path starts. -/
theorem toList_prefix_of_parent? (h : path.parent? = some parent) :
    parent.text.toList <+: path.text.toList := by
  rcases parent?_cases h with ⟨last, steps, -, rfl, hcut⟩ | ⟨-, -, rfl⟩
  · have hpath := congrArg Path.text (assemble_steps path)
    rw [← hpath, assemble, assemble, String.toList_ofList, String.toList_ofList,
      List.prefix_append_right_inj]
    exact intercalate_prefix hcut
  · exact List.nil_prefix

end Path

namespace FileTree

/-- A parent can be used if the path can, unless it is empty. -/
theorem textFault?_of_parent? {path parent : Path} (h : path.parent? = some parent)
    (hpath : textFault? path = none) (hnamed : parent.text ≠ "") : textFault? parent = none := by
  obtain ⟨-, hnul, hsize⟩ := textFault?_eq_none_iff.mp hpath
  obtain ⟨rest, hrest⟩ := Path.toList_prefix_of_parent? h
  have htext : path.text = parent.text ++ String.ofList rest := by
    rw [← String.toList_inj, String.toList_append, String.toList_ofList, hrest]
  rw [textFault?_eq_none_iff]
  refine ⟨hnamed, fun hmem => hnul ?_, ?_⟩
  · rw [← hrest]
    exact List.mem_append_left _ hmem
  · rw [htext, String.utf8ByteSize_append] at hsize
    exact Nat.le_trans (Nat.le_add_right _ _) hsize

end FileTree

end OverlayManifest
