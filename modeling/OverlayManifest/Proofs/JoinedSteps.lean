/-
# Steps joined by slashes

Where steps without slashes are joined, each slash of the text stands between two of them.
So a text without slashes begins the joined text if it begins the first step, and ends it if
it ends the last one; and what stands at a slash of the text begins or ends steps there.
-/

import OverlayManifest.Proofs.PathNames
import OverlayManifest.Text

namespace OverlayManifest.Path

/-! ## Cuts -/

/-- Steps are joined in two parts, with a slash between these. -/
theorem intercalate_append {left right : List (List Char)} (hleft : left ≠ [])
    (hright : right ≠ []) :
    ['/'].intercalate (left ++ right) =
      ['/'].intercalate left ++ '/' :: ['/'].intercalate right := by
  induction left with
  | nil => exact absurd rfl hleft
  | cons step left ih =>
      cases left with
      | nil =>
          rw [List.singleton_append, List.intercalate_cons_of_ne_nil hright,
            List.intercalate_singleton, List.append_assoc]
          rfl
      | cons next left =>
          rw [List.cons_append, List.cons_append, List.intercalate_cons_cons,
            List.intercalate_cons_cons, ← List.cons_append, ih (List.cons_ne_nil next left)]
          exact (List.append_assoc _ _ _).symm

variable {steps : List (List Char)}

/-- A slash of the joined text stands between two of the steps. -/
theorem intercalate_eq_append_slash_iff (hsteps : steps ≠ []) (hplain : ∀ step ∈ steps, '/' ∉ step)
    {before after : List Char} :
    ['/'].intercalate steps = before ++ '/' :: after ↔
      ∃ left right, steps = left ++ right ∧ left ≠ [] ∧ right ≠ [] ∧
        before = ['/'].intercalate left ∧ after = ['/'].intercalate right := by
  constructor
  · intro h
    refine ⟨before.splitOn '/', after.splitOn '/', ?_, List.splitOn_ne_nil '/' before,
      List.splitOn_ne_nil '/' after, (List.intercalate_splitOn '/').symm,
      (List.intercalate_splitOn '/').symm⟩
    rw [← List.splitOn_append_cons_self, ← h, List.splitOn_intercalate '/' hplain hsteps]
  · rintro ⟨left, right, rfl, hleft, hright, rfl, rfl⟩
    exact intercalate_append hleft hright

/-- The joined text is its first step, and then nothing or a slash. -/
theorem intercalate_cons (first : List Char) (more : List (List Char)) :
    ∃ rest, ['/'].intercalate (first :: more) = first ++ rest ∧
      (rest = [] ∨ rest.head? = some '/') := by
  cases more with
  | nil => exact ⟨[], by simp, .inl rfl⟩
  | cons next more =>
      exact ⟨'/' :: ['/'].intercalate (next :: more), by simp [List.intercalate_cons_cons],
        .inr rfl⟩

/-- The joined text is nothing or ends with a slash before its last step. -/
theorem intercalate_concat (before : List (List Char)) (last : List Char) :
    ∃ front, ['/'].intercalate (before ++ [last]) = front ++ last ∧
      (front = [] ∨ front.getLast? = some '/') := by
  by_cases hbefore : before = []
  · exact ⟨[], by simp [hbefore], .inl rfl⟩
  · refine ⟨['/'].intercalate before ++ ['/'], ?_, .inr (by simp)⟩
    rw [intercalate_append hbefore (List.cons_ne_nil last []), List.intercalate_singleton]
    simp

/-! ## The ends of the text -/

/-- Without a slash, what begins the text begins its first step. -/
theorem prefix_intercalate_cons_iff {opening first : List Char} (hopening : '/' ∉ opening)
    (more : List (List Char)) :
    opening <+: ['/'].intercalate (first :: more) ↔ opening <+: first := by
  obtain ⟨rest, htext, hrest⟩ := intercalate_cons first more
  rw [htext]
  refine ⟨fun h => ?_, fun h => h.trans (List.prefix_append first rest)⟩
  rcases List.prefix_or_prefix_of_prefix h (List.prefix_append first rest) with
    hshort | ⟨between, rfl⟩
  · exact hshort
  · -- What reached beyond the first step would begin with a slash.
    rw [List.prefix_append_right_inj] at h
    have hnil : between = [] := by
      rcases hrest with rfl | hslash
      · exact List.prefix_nil.mp h
      · cases between with
        | nil => rfl
        | cons c between =>
            obtain ⟨after, rfl⟩ := h
            obtain rfl : c = '/' := by simpa using hslash
            exact absurd (by simp) hopening
    simp only [hnil, List.append_nil, List.prefix_rfl]

/-- Without a slash, what ends the text ends its last step. -/
theorem suffix_intercalate_concat_iff {ending last : List Char} (hending : '/' ∉ ending)
    (before : List (List Char)) :
    ending <:+ ['/'].intercalate (before ++ [last]) ↔ ending <:+ last := by
  obtain ⟨front, htext, hfront⟩ := intercalate_concat before last
  rw [htext]
  refine ⟨fun h => ?_, fun h => h.trans (List.suffix_append front last)⟩
  rcases List.suffix_or_suffix_of_suffix h (List.suffix_append front last) with
    hshort | ⟨between, rfl⟩
  · exact hshort
  · rw [List.suffix_append_self_iff] at h
    have hnil : between = [] := by
      rcases hfront with rfl | hslash
      · exact List.suffix_nil.mp h
      · rcases List.eq_nil_or_concat between with hnil | ⟨start, c, rfl⟩
        · exact hnil
        · obtain ⟨after, rfl⟩ := h
          obtain rfl : c = '/' := by simpa using hslash
          exact absurd (by simp) hending
    simp only [hnil, List.nil_append, List.suffix_rfl]

/-- A text with a slash after it begins the joined text if it is the first of more steps. -/
theorem prefix_slash_iff {opening first : List Char} (hopening : '/' ∉ opening)
    (hplain : ∀ step ∈ first :: steps, '/' ∉ step) (hmore : steps ≠ []) :
    (opening ++ ['/']) <+: ['/'].intercalate (first :: steps) ↔ opening = first := by
  constructor
  · rintro ⟨rest, h⟩
    have hsplit := congrArg (List.splitOn '/') h
    rw [List.splitOn_intercalate '/' hplain (List.cons_ne_nil first steps), List.append_assoc,
      List.singleton_append, List.splitOn_append_cons_self, List.splitOn_eq_singleton hopening,
      List.singleton_append, List.cons.injEq] at hsplit
    exact hsplit.1
  · rintro rfl
    rw [← List.singleton_append (x := opening), intercalate_append (by simp) hmore,
      List.intercalate_singleton]
    exact ⟨['/'].intercalate steps, by simp⟩

/-! ## Inside the text -/

/-- Without a slash, what stands after a slash of the text begins a step after the first. -/
theorem slash_infix_iff {opening first : List Char} (hopening : '/' ∉ opening)
    (hplain : ∀ step ∈ first :: steps, '/' ∉ step) :
    ('/' :: opening) <:+: ['/'].intercalate (first :: steps) ↔
      ∃ step ∈ steps, opening <+: step := by
  constructor
  · rintro ⟨before, after, h⟩
    rw [List.append_assoc, List.cons_append] at h
    obtain ⟨left, right, hsteps, hleft, hright, -, hafter⟩ :=
      (intercalate_eq_append_slash_iff (List.cons_ne_nil first steps) hplain).mp h.symm
    obtain ⟨start, left, rfl⟩ := List.exists_cons_of_ne_nil hleft
    obtain ⟨step, right, rfl⟩ := List.exists_cons_of_ne_nil hright
    rw [List.cons_append, List.cons.injEq] at hsteps
    refine ⟨step, by simp [hsteps.2], (prefix_intercalate_cons_iff hopening right).mp ?_⟩
    exact hafter ▸ List.prefix_append opening after
  · rintro ⟨step, hstep, hprefix⟩
    obtain ⟨left, right, rfl⟩ := List.append_of_mem hstep
    obtain ⟨after, hafter⟩ := (prefix_intercalate_cons_iff hopening right).mpr hprefix
    rw [← List.cons_append, intercalate_append (List.cons_ne_nil first left)
      (List.cons_ne_nil step right), ← hafter]
    exact ⟨['/'].intercalate (first :: left), after, by simp⟩

/-- Without a slash, what stands before a slash of the text ends a step before the last. -/
theorem infix_slash_iff {ending last : List Char} (hending : '/' ∉ ending)
    (hplain : ∀ step ∈ steps ++ [last], '/' ∉ step) :
    (ending ++ ['/']) <:+: ['/'].intercalate (steps ++ [last]) ↔
      ∃ step ∈ steps, ending <:+ step := by
  constructor
  · rintro ⟨before, after, h⟩
    have hcut : ['/'].intercalate (steps ++ [last]) = (before ++ ending) ++ '/' :: after := by
      rw [← h]
      simp
    obtain ⟨left, right, hsteps, hleft, hright, hbefore, -⟩ :=
      (intercalate_eq_append_slash_iff (by simp) hplain).mp hcut
    obtain ⟨left, step, rfl⟩ := (List.eq_nil_or_concat left).resolve_left hleft
    obtain ⟨right, stop, rfl⟩ := (List.eq_nil_or_concat right).resolve_left hright
    rw [List.concat_eq_append] at hsteps hbefore
    rw [List.concat_eq_append, ← List.append_assoc] at hsteps
    obtain ⟨hsteps, -⟩ := List.append_inj' hsteps rfl
    refine ⟨step, by simp [hsteps], (suffix_intercalate_concat_iff hending left).mp ?_⟩
    exact hbefore ▸ List.suffix_append before ending
  · rintro ⟨step, hstep, hsuffix⟩
    obtain ⟨left, right, rfl⟩ := List.append_of_mem hstep
    obtain ⟨before, hbefore⟩ := (suffix_intercalate_concat_iff hending left).mpr hsuffix
    have hjoined : ['/'].intercalate ((left ++ step :: right) ++ [last]) =
        ['/'].intercalate (left ++ [step]) ++ '/' :: ['/'].intercalate (right ++ [last]) := by
      rw [← intercalate_append (by simp) (by simp)]
      simp
    rw [hjoined, ← hbefore]
    exact ⟨before, ['/'].intercalate (right ++ [last]), by simp⟩

/-- Without a slash, what stands between two slashes of the text is a step between others. -/
theorem slash_infix_slash_iff {middle first last : List Char} (hmiddle : '/' ∉ middle)
    (hplain : ∀ step ∈ first :: (steps ++ [last]), '/' ∉ step) :
    ('/' :: (middle ++ ['/'])) <:+: ['/'].intercalate (first :: (steps ++ [last])) ↔
      middle ∈ steps := by
  constructor
  · rintro ⟨before, after, h⟩
    have hcut : ['/'].intercalate (first :: (steps ++ [last])) =
        before ++ '/' :: (middle ++ '/' :: after) := by
      rw [← h]
      simp
    have hsplit := congrArg (List.splitOn '/') hcut
    rw [List.splitOn_intercalate '/' hplain (by simp), List.splitOn_append_cons_self,
      List.splitOn_append_cons_self, List.splitOn_eq_singleton hmiddle] at hsplit
    obtain ⟨start, left, hleft⟩ := List.exists_cons_of_ne_nil (List.splitOn_ne_nil '/' before)
    obtain ⟨right, stop, hright⟩ :=
      (List.eq_nil_or_concat (after.splitOn '/')).resolve_left (List.splitOn_ne_nil '/' after)
    rw [hleft, hright, List.concat_eq_append, List.cons_append, List.cons.injEq,
      ← List.append_assoc, ← List.append_assoc] at hsplit
    obtain ⟨hsteps, -⟩ := List.append_inj' hsplit.2 rfl
    simp [hsteps]
  · intro hmem
    obtain ⟨left, right, rfl⟩ := List.append_of_mem hmem
    have hjoined : ['/'].intercalate (first :: ((left ++ middle :: right) ++ [last])) =
        ['/'].intercalate (first :: left) ++
          '/' :: ['/'].intercalate ([middle] ++ (right ++ [last])) := by
      rw [← intercalate_append (List.cons_ne_nil first left) (by simp)]
      simp
    rw [hjoined, intercalate_append (by simp) (by simp), List.intercalate_singleton]
    exact ⟨['/'].intercalate (first :: left), ['/'].intercalate (right ++ [last]), by simp⟩

end OverlayManifest.Path
