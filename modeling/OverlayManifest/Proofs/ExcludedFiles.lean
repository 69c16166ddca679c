/-
# Excluded files

A file below the resource directory has directories and a name. Three forms of patterns are
exact: a star before the end of a name, a directory between stars, and a text without stars.
Two stars next to the name of a directory or of a file are not: such a pattern is compared
with the ends of directories and names, and so leaves out files beside those it is for.
-/

import Mathlib.Data.List.Basic
import OverlayManifest.Proofs.JoinedSteps
import OverlayManifest.Proofs.PathsBelow
import OverlayManifest.Proofs.ShownPaths
import OverlayManifest.Settings

namespace OverlayManifest

/-! ## Files below the resource directory -/

/-- A step that is written as it stands: a name without slashes of either kind. -/
structure Path.IsPlainStep (step : String) : Prop where
  nonempty : step ≠ ""
  notDot : step ≠ "."
  notDots : step ≠ ".."
  noSlash : '/' ∉ step.toList
  noBackslash : '\\' ∉ step.toList

instance (step : String) : Decidable (Path.IsPlainStep step) :=
  decidable_of_iff (step ≠ "" ∧ step ≠ "." ∧ step ≠ ".." ∧ '/' ∉ step.toList ∧ '\\' ∉ step.toList)
    ⟨fun ⟨h₁, h₂, h₃, h₄, h₅⟩ => ⟨h₁, h₂, h₃, h₄, h₅⟩, fun ⟨h₁, h₂, h₃, h₄, h₅⟩ => ⟨h₁, h₂, h₃, h₄, h₅⟩⟩

/-- A file in a directory, or in a directory of a directory, and so on. -/
structure PlacedFile where
  directories : List String
  name : String
  placed : directories ≠ []
  plain : ∀ step ∈ directories ++ [name], Path.IsPlainStep step

namespace PlacedFile

/-- The path of the file: its directories and its name, joined by slashes. -/
def path (file : PlacedFile) : Path := ⟨"/".intercalate (file.directories ++ [file.name])⟩

variable (file : PlacedFile)

theorem toList_path : file.path.text.toList =
    ['/'].intercalate (file.directories.map String.toList ++ [file.name.toList]) := by
  rw [path, String.toList_intercalate, List.map_append, List.map_singleton]
  rfl

theorem noSlash_of_mem {step : List Char}
    (h : step ∈ file.directories.map String.toList ++ [file.name.toList]) : '/' ∉ step := by
  rw [← List.map_singleton, ← List.map_append, List.mem_map] at h
  obtain ⟨text, hmem, rfl⟩ := h
  exact (file.plain text hmem).noSlash

/-- The first directory, and then the steps below it. -/
theorem exists_steps_eq : ∃ first more, file.directories = first :: more ∧
    file.path.text.toList =
      ['/'].intercalate (first.toList :: (more.map String.toList ++ [file.name.toList])) := by
  obtain ⟨first, more, hcons⟩ := List.exists_cons_of_ne_nil file.placed
  refine ⟨first, more, hcons, ?_⟩
  rw [toList_path, hcons, List.map_cons, List.cons_append]

/-- The file name of the path is the name of the file. -/
theorem fileName?_path : file.path.fileName? = some file.name := by
  have hname := file.plain file.name (by simp)
  have hsplit : file.path.text.toList.splitOn '/' =
      file.directories.map String.toList ++ [file.name.toList] := by
    rw [toList_path]
    exact List.splitOn_intercalate '/' (fun step => file.noSlash_of_mem) (by simp)
  have hvoid : Path.isVoid file.name.toList = false := by
    rw [Path.isVoid, Bool.or_eq_false_iff]
    refine ⟨by simpa using hname.nonempty, beq_false_of_ne fun hdot => hname.notDot ?_⟩
    rw [← String.toList_inj, hdot]
    rfl
  exact Path.fileName?_of_splitOn hsplit (by simpa using file.placed) hvoid hname.notDots

/-- The path is tried as it is written. -/
theorem withSlashes_path : Path.withSlashes file.path.text = file.path.text := by
  apply Path.withSlashes_eq_self
  have hsteps : ∀ step ∈ (file.directories ++ [file.name]).map String.toList, '\\' ∉ step :=
    fun step hstep => by
      obtain ⟨text, hmem, rfl⟩ := List.mem_map.mp hstep
      exact (file.plain text hmem).noBackslash
  have hpath := Path.backslash_notMem_assemble .plain hsteps
  rwa [Path.assemble, String.toList_ofList, Path.Opening.text, List.nil_append, List.map_append,
    List.map_singleton, ← toList_path] at hpath

/-! ## Parts of the path -/

section Parts

variable {file} {opening ending : List Char}

theorem prefix_path_iff (hopening : '/' ∉ opening) :
    opening <+: file.path.text.toList ↔
      ∃ first ∈ file.directories.head?, opening <+: first.toList := by
  obtain ⟨first, more, hcons, htext⟩ := file.exists_steps_eq
  rw [htext, hcons, Path.prefix_intercalate_cons_iff hopening]
  simp

theorem suffix_path_iff (hending : '/' ∉ ending) :
    ending <:+ file.path.text.toList ↔ ending <:+ file.name.toList := by
  rw [toList_path, Path.suffix_intercalate_concat_iff hending]

theorem prefix_slash_path_iff {directory : String} (hdirectory : '/' ∉ directory.toList) :
    (directory.toList ++ ['/']) <+: file.path.text.toList ↔
      directory ∈ file.directories.head? := by
  obtain ⟨first, more, hcons, htext⟩ := file.exists_steps_eq
  have hplain : ∀ step ∈ first.toList :: (more.map String.toList ++ [file.name.toList]),
      '/' ∉ step := fun step hstep => file.noSlash_of_mem (by rw [hcons]; exact hstep)
  rw [htext, hcons, Path.prefix_slash_iff hdirectory hplain (by simp), String.toList_inj]
  simp [eq_comm]

theorem slash_infix_path_iff (hopening : '/' ∉ opening) :
    ('/' :: opening) <:+: file.path.text.toList ↔
      ∃ step ∈ file.directories.tail ++ [file.name], opening <+: step.toList := by
  obtain ⟨first, more, hcons, htext⟩ := file.exists_steps_eq
  have hplain : ∀ step ∈ first.toList :: (more.map String.toList ++ [file.name.toList]),
      '/' ∉ step := fun step hstep => file.noSlash_of_mem (by rw [hcons]; exact hstep)
  rw [htext, hcons, Path.slash_infix_iff hopening hplain, List.tail_cons, ← List.map_singleton,
    ← List.map_append]
  simp only [List.mem_map, exists_exists_and_eq_and]

theorem infix_slash_path_iff (hending : '/' ∉ ending) :
    (ending ++ ['/']) <:+: file.path.text.toList ↔
      ∃ directory ∈ file.directories, ending <:+ directory.toList := by
  rw [toList_path, Path.infix_slash_iff hending fun step => file.noSlash_of_mem]
  simp only [List.mem_map, exists_exists_and_eq_and]

theorem slash_infix_slash_path_iff {directory : String} (hdirectory : '/' ∉ directory.toList) :
    ('/' :: (directory.toList ++ ['/'])) <:+: file.path.text.toList ↔
      directory ∈ file.directories.tail := by
  obtain ⟨first, more, hcons, htext⟩ := file.exists_steps_eq
  have hplain : ∀ step ∈ first.toList :: (more.map String.toList ++ [file.name.toList]),
      '/' ∉ step := fun step hstep => file.noSlash_of_mem (by rw [hcons]; exact hstep)
  rw [htext, hcons, Path.slash_infix_slash_iff hdirectory hplain, List.tail_cons,
    List.mem_map_of_injective fun _ _ => String.toList_inj.mp]

/-- A part with a slash does not stand in the name. -/
theorem not_infix_name {part : List Char} (hpart : '/' ∈ part) : ¬ part <:+: file.name.toList :=
  fun h => (file.plain file.name (by simp)).noSlash (h.subset hpart)

end Parts

end PlacedFile

namespace ExcludePattern

/-! ## Patterns -/

variable {text : List Char}

theorem splitAtStars_append {before : List Char} (h : '*' ∉ before) (after : List Char) :
    splitAtStars (before ++ '*' :: '*' :: after) = some (before, after) := by
  induction before with
  | nil => rfl
  | cons c before ih =>
      rw [List.mem_cons, not_or] at h
      rw [List.cons_append, splitAtStars.eq_2 _ _ fun _ hstars _ => h.1 hstars.symm, ih h.2]
      rfl

theorem splitAtStars_of_notMem (h : '*' ∉ text) : splitAtStars text = none := by
  induction text with
  | nil => rfl
  | cons c text ih =>
      rw [List.mem_cons, not_or] at h
      rw [splitAtStars.eq_2 _ _ fun _ hstars _ => h.1 hstars.symm, ih h.2]
      rfl

theorem dropStars_of_head? (h : text.head? ≠ some '*') : dropStars text = text := by
  unfold dropStars
  split
  · exact absurd rfl h
  · rfl

/-- A pattern for everything below a directory has stars at both ends. -/
theorem isDirectoryPattern_of_ends {pattern : List Char}
    (h : pattern.head? ≠ some '*' ∨ pattern.getLast? ≠ some '*') :
    isDirectoryPattern pattern = false := by
  rw [Bool.eq_false_iff, isDirectoryPattern, ne_eq, Bool.and_eq_true, List.isPrefixOf_iff_prefix,
    List.isSuffixOf_iff_suffix]
  rintro ⟨⟨rest, hfront⟩, ⟨start, hback⟩⟩
  rcases h with hhead | hlast
  · exact hhead (by rw [← hfront]; rfl)
  · exact hlast (by rw [← hback, List.getLast?_append]; rfl)

/-- A star and a text without slashes match what ends with the text. -/
theorem matchesText_ending {ending : List Char} (h : '/' ∉ ending) :
    matchesText ('*' :: ending) text = ending.isSuffixOf text := by
  rw [matchesText, if_neg (by simp [h])]
  rfl

/-- A text without stars matches itself. -/
theorem matchesText_literal {pattern : List Char} (h : '*' ∉ pattern) :
    matchesText pattern text = (text == pattern) := by
  have hhead : pattern.head? ≠ some '*' := fun hstar => h (List.mem_of_head? hstar)
  have hlast : pattern.getLast? ≠ some '*' := fun hstar => h (List.mem_of_getLast? hstar)
  have hstars : matchesStars pattern text = (text == pattern) := by
    rw [matchesStars, isDirectoryPattern_of_ends (.inl hhead), splitAtStars_of_notMem h]
    rfl
  rw [matchesText, if_neg hhead, if_neg hlast, hstars, ite_self]

/-- A directory between stars and slashes matches what opens with it or has it inside. -/
theorem matchesText_directory {directory : List Char} (hnamed : directory ≠ [])
    (hstars : '*' ∉ directory) :
    matchesText (['*', '*', '/'] ++ directory ++ ['/', '*', '*']) text =
      ((directory ++ ['/']).isPrefixOf text ||
        Text.occurs (['/'] ++ directory ++ ['/']) text) := by
  have hpattern : isDirectoryPattern (['*', '*', '/'] ++ directory ++ ['/', '*', '*']) = true := by
    rw [isDirectoryPattern, Bool.and_eq_true, List.isPrefixOf_iff_prefix,
      List.isSuffixOf_iff_suffix, List.append_assoc]
    exact ⟨List.prefix_append _ _, (List.suffix_append _ _).trans (List.suffix_append _ _)⟩
  have hfront : dropStars (['*', '*', '/'] ++ directory ++ ['/', '*', '*']) =
      directory ++ ['/', '*', '*'] := by
    refine dropStars_of_head? fun hstar : (directory ++ ['/', '*', '*']).head? = _ => hstars ?_
    obtain ⟨first, more, rfl⟩ := List.exists_cons_of_ne_nil hnamed
    exact List.mem_of_head? hstar
  have hback : dropStars (directory ++ ['/', '*', '*']).reverse = directory.reverse := by
    rw [List.reverse_append]
    refine dropStars_of_head? fun hstar : directory.reverse.head? = _ => hstars ?_
    exact List.mem_reverse.mp (List.mem_of_head? hstar)
  have hname : directoryName (['*', '*', '/'] ++ directory ++ ['/', '*', '*']) = directory := by
    rw [directoryName, hfront, hback, List.reverse_reverse]
  rw [matchesText, if_pos (by simp), matchesStars, if_pos hpattern, hname]

/-- Two stars match between what stands before and after them, less the slashes there. -/
theorem matchesText_stars {before after : List Char} (hbefore : '*' ∉ before)
    (hafter : '*' ∉ after) (hslash : '/' ∈ before ++ after) :
    matchesText (before ++ '*' :: '*' :: after) text =
      matchesSides (before.reverse.dropWhile (· == '/')).reverse (after.dropWhile (· == '/'))
        text := by
  have hends : (before ++ '*' :: '*' :: after).head? ≠ some '*' ∨
      (before ++ '*' :: '*' :: after).getLast? ≠ some '*' := by
    cases before with
    | cons c before => exact .inl fun hstar => hbefore (List.mem_of_head? (by simpa using hstar))
    | nil =>
        obtain ⟨c, hlast⟩ := Option.ne_none_iff_exists'.mp
          (show after.getLast? ≠ none by rintro hnil; simp_all)
        refine .inr fun hstar => hafter (List.mem_of_getLast? ?_)
        rw [List.nil_append, List.getLast?_cons, List.getLast?_cons, hlast] at hstar
        exact hlast.trans hstar
  have hmem : '/' ∈ before ++ '*' :: '*' :: after := by
    rcases List.mem_append.mp hslash with h | h
    · exact List.mem_append_left _ h
    · exact List.mem_append_right _ (List.mem_cons_of_mem _ (List.mem_cons_of_mem _ h))
  rw [matchesText, if_pos hmem, matchesStars, isDirectoryPattern_of_ends hends,
    splitAtStars_append hbefore]
  simp only [splitAtStars_of_notMem hafter, Option.isSome_none, Bool.false_eq_true, if_false]

theorem dropWhile_slash (h : '/' ∉ text) : text.dropWhile (· == '/') = text := by
  cases text with
  | nil => rfl
  | cons c text =>
      refine List.dropWhile_cons_of_neg fun hc => h ?_
      rw [beq_iff_eq.mp hc]
      exact List.mem_cons_self

/-- The slash before the stars does not count. -/
theorem dropWhile_slash_reverse (h : '/' ∉ text) :
    ((text ++ ['/']).reverse.dropWhile (· == '/')).reverse = text := by
  rw [List.reverse_append, List.reverse_singleton, List.singleton_append,
    List.dropWhile_cons_of_pos (by simp),
    dropWhile_slash fun hmem => h (List.mem_reverse.mp hmem), List.reverse_reverse]

/-- A directory before the stars opens what matches, or ends before a slash in it. -/
theorem matchesText_below {directory : List Char} (hnamed : directory ≠ [])
    (hslash : '/' ∉ directory) (hstar : '*' ∉ directory) :
    matchesText (directory ++ ['/', '*', '*']) text =
      (directory.isPrefixOf text || Text.occurs (directory ++ ['/']) text) := by
  have hpattern : directory ++ ['/', '*', '*'] = (directory ++ ['/']) ++ '*' :: '*' :: [] := by simp
  rw [hpattern, matchesText_stars (by simp [hstar]) (by simp) (by simp),
    dropWhile_slash_reverse hslash]
  obtain ⟨c, more, rfl⟩ := List.exists_cons_of_ne_nil hnamed
  rfl

/-- A name after the stars ends what matches, or stands after a slash in it. -/
theorem matchesText_anywhere {name : List Char} (hnamed : name ≠ []) (hslash : '/' ∉ name)
    (hstar : '*' ∉ name) :
    matchesText (['*', '*', '/'] ++ name) text = endsWith name text := by
  have hpattern : ['*', '*', '/'] ++ name = [] ++ '*' :: '*' :: '/' :: name := rfl
  rw [hpattern, matchesText_stars (by simp) (by simp [hstar]) (by simp),
    List.dropWhile_cons_of_pos (by simp), dropWhile_slash hslash]
  obtain ⟨c, more, rfl⟩ := List.exists_cons_of_ne_nil hnamed
  rfl

/-- With both, what matches does so at both ends. -/
theorem matchesText_between {directory name : List Char} (hdirectory : directory ≠ [])
    (hname : name ≠ []) (hslash : '/' ∉ directory ++ name) (hstar : '*' ∉ directory ++ name) :
    matchesText (directory ++ ['/', '*', '*', '/'] ++ name) text =
      (opensWith directory text && endsWith name text) := by
  rw [List.mem_append, not_or] at hslash hstar
  have hpattern : directory ++ ['/', '*', '*', '/'] ++ name =
      (directory ++ ['/']) ++ '*' :: '*' :: '/' :: name := by simp
  rw [hpattern, matchesText_stars (by simp [hstar.1]) (by simp [hstar.2]) (by simp),
    dropWhile_slash_reverse hslash.1, List.dropWhile_cons_of_pos (by simp),
    dropWhile_slash hslash.2]
  obtain ⟨c, more, rfl⟩ := List.exists_cons_of_ne_nil hdirectory
  obtain ⟨c', more', rfl⟩ := List.exists_cons_of_ne_nil hname
  rfl

end ExcludePattern

/-! ## Which files are excluded -/

namespace PlacedFile

open ExcludePattern

variable {file : PlacedFile}

/-- A pattern is tried on the path and on the name. -/
theorem excludes_iff (pattern : String) :
    ExcludePattern.excludes ⟨pattern⟩ file.path = true ↔
      matchesText pattern.toList file.path.text.toList = true ∨
        matchesText pattern.toList file.name.toList = true := by
  rw [ExcludePattern.excludes, withSlashes_path, fileName?_path, Bool.or_eq_true]
  rfl

/-- A text without slashes ends the path or stands after a slash of it. -/
theorem endsWith_path_iff {ending : List Char} (h : '/' ∉ ending) :
    endsWith ending file.path.text.toList = true ↔
      ending <:+ file.name.toList ∨
        ∃ step ∈ file.directories.tail ++ [file.name], ending <+: step.toList := by
  rw [endsWith, Bool.or_eq_true, List.isSuffixOf_iff_suffix, Text.occurs_iff, suffix_path_iff h,
    slash_infix_path_iff h]

theorem endsWith_name_iff (ending : List Char) :
    endsWith ending file.name.toList = true ↔ ending <:+ file.name.toList := by
  rw [endsWith, Bool.or_eq_true, List.isSuffixOf_iff_suffix, Text.occurs_iff,
    or_iff_left (not_infix_name (by simp))]

/-- A text without slashes opens the path or stands between slashes of it. -/
theorem opensWith_path_iff {directory : String} (h : '/' ∉ directory.toList) :
    opensWith directory.toList file.path.text.toList = true ↔
      (∃ first ∈ file.directories.head?, directory.toList <+: first.toList) ∨
        directory ∈ file.directories.tail := by
  rw [opensWith, Bool.or_eq_true, List.isPrefixOf_iff_prefix, Text.occurs_iff, prefix_path_iff h,
    List.append_assoc, List.singleton_append, slash_infix_slash_path_iff h]

theorem opensWith_name_iff (directory : List Char) :
    opensWith directory file.name.toList = true ↔ directory <+: file.name.toList := by
  rw [opensWith, Bool.or_eq_true, List.isPrefixOf_iff_prefix, Text.occurs_iff,
    or_iff_left (not_infix_name (by simp))]

/-- The documented patterns are exact: a star leaves out the files whose names end as it says,
a directory between stars leaves out what is below directories of that name, a text leaves out
the file at that path and the files of that name, and several patterns leave out what one of
them does. -/
theorem excludes_documented_iff (settings : Settings) (file : PlacedFile) :
    (∀ ending : String, '/' ∉ ending.toList →
      (({ settings with exclude := [⟨"*" ++ ending⟩] } : Settings).excludes file.path = true ↔
        ending.toList <:+ file.name.toList)) ∧
    (∀ directory : String, directory ≠ "" → '/' ∉ directory.toList → '*' ∉ directory.toList →
      (({ settings with exclude := [⟨"**/" ++ directory ++ "/**"⟩] } : Settings).excludes
        file.path = true ↔ directory ∈ file.directories)) ∧
    (∀ text : String, '*' ∉ text.toList →
      (({ settings with exclude := [⟨text⟩] } : Settings).excludes file.path = true ↔
        text = file.path.text ∨ text = file.name)) ∧
    ∀ path : Path, settings.excludes path = true ↔
      ∃ pattern ∈ settings.exclude,
        ({ settings with exclude := [pattern] } : Settings).excludes path = true := by
  have hone (pattern : ExcludePattern) (path : Path) :
      ({ settings with exclude := [pattern] } : Settings).excludes path = pattern.excludes path :=
    Bool.or_false _
  refine ⟨fun ending hslash => ?_, fun directory hnamed hslash hstar => ?_, fun text hstar => ?_,
    fun path => ?_⟩
  · have hpattern : ("*" ++ ending).toList = '*' :: ending.toList := by simp
    rw [hone, excludes_iff, hpattern, matchesText_ending hslash, matchesText_ending hslash,
      List.isSuffixOf_iff_suffix, List.isSuffixOf_iff_suffix, suffix_path_iff hslash, or_self]
  · have hpattern : ("**/" ++ directory ++ "/**").toList =
        ['*', '*', '/'] ++ directory.toList ++ ['/', '*', '*'] := by simp
    have hname : ¬ matchesText (['*', '*', '/'] ++ directory.toList ++ ['/', '*', '*'])
        file.name.toList = true := by
      rw [matchesText_directory (by simpa using hnamed) hstar, Bool.or_eq_true, not_or,
        List.isPrefixOf_iff_prefix, Text.occurs_iff]
      exact ⟨fun h => not_infix_name (by simp) h.isInfix, not_infix_name (by simp)⟩
    rw [hone, excludes_iff, hpattern, or_iff_left hname,
      matchesText_directory (by simpa using hnamed) hstar, Bool.or_eq_true,
      List.isPrefixOf_iff_prefix, Text.occurs_iff, prefix_slash_path_iff hslash,
      List.append_assoc, List.singleton_append, slash_infix_slash_path_iff hslash]
    obtain ⟨first, more, hcons⟩ := List.exists_cons_of_ne_nil file.placed
    simp [hcons, eq_comm]
  · rw [hone, excludes_iff, matchesText_literal hstar, matchesText_literal hstar, beq_iff_eq,
      beq_iff_eq, String.toList_inj, String.toList_inj, eq_comm, @eq_comm _ file.name]
  · simp only [hone]
    rw [Settings.excludes, List.any_eq_true]

/-- A file two directories deep. -/
def nestedFile : PlacedFile :=
  ⟨["values-xx", "night"], "strings_test.xml", by decide, by decide⟩

/-- Its name and either of its directories leave it out, the start of a directory does not. -/
theorem excludes_documented_nestedFile :
    ({ exclude := [⟨"*" ++ "_test.xml"⟩] } : Settings).excludes nestedFile.path = true ∧
    ({ exclude := [⟨"**/" ++ "night" ++ "/**"⟩] } : Settings).excludes nestedFile.path = true ∧
    ({ exclude := [⟨"**/" ++ "values" ++ "/**"⟩] } : Settings).excludes nestedFile.path ≠ true ∧
    ({ exclude := [⟨"strings_test.xml"⟩] } : Settings).excludes nestedFile.path = true := by
  obtain ⟨hending, hdirectory, htext, -⟩ := excludes_documented_iff {} nestedFile
  refine ⟨(hending _ (by decide)).mpr (by decide), (hdirectory _ (by decide) (by decide)
    (by decide)).mpr (by decide), ?_, (htext _ (by decide)).mpr (.inr rfl)⟩
  exact (hdirectory _ (by decide) (by decide) (by decide)).not.mpr (by decide)

/-- Two stars at a slash leave the text beside the slash open at its other end. A directory
before them stands for what the first directory starts with, another one ends with, or the name
starts with; a name after them for what the name ends with, or a step below the first directory
starts with. Both together stand for what one and the other do, except that the directory then
has to be another one as a whole. -/
theorem excludes_stars_iff (file : PlacedFile) {directory name : String}
    (hdirectory : directory ≠ "" ∧ '/' ∉ directory.toList ∧ '*' ∉ directory.toList)
    (hname : name ≠ "" ∧ '/' ∉ name.toList ∧ '*' ∉ name.toList) :
    (ExcludePattern.excludes ⟨directory ++ "/**"⟩ file.path = true ↔
      (∃ first ∈ file.directories.head?, directory.toList <+: first.toList) ∨
        (∃ other ∈ file.directories, directory.toList <:+ other.toList) ∨
          directory.toList <+: file.name.toList) ∧
    (ExcludePattern.excludes ⟨"**/" ++ name⟩ file.path = true ↔
      name.toList <:+ file.name.toList ∨
        ∃ step ∈ file.directories.tail ++ [file.name], name.toList <+: step.toList) ∧
    (ExcludePattern.excludes ⟨directory ++ "/**/" ++ name⟩ file.path = true ↔
      (((∃ first ∈ file.directories.head?, directory.toList <+: first.toList) ∨
          directory ∈ file.directories.tail) ∧
        (name.toList <:+ file.name.toList ∨
          ∃ step ∈ file.directories.tail ++ [file.name], name.toList <+: step.toList)) ∨
      (directory.toList <+: file.name.toList ∧ name.toList <:+ file.name.toList)) := by
  obtain ⟨hdirectoryNamed, hdirectorySlash, hdirectoryStar⟩ := hdirectory
  obtain ⟨hnameNamed, hnameSlash, hnameStar⟩ := hname
  rw [← String.toList_eq_nil_iff.ne] at hdirectoryNamed hnameNamed
  refine ⟨?_, ?_, ?_⟩
  · have hpattern : (directory ++ "/**").toList = directory.toList ++ ['/', '*', '*'] := by simp
    rw [excludes_iff, hpattern, matchesText_below hdirectoryNamed hdirectorySlash hdirectoryStar,
      matchesText_below hdirectoryNamed hdirectorySlash hdirectoryStar, Bool.or_eq_true,
      Bool.or_eq_true, List.isPrefixOf_iff_prefix, List.isPrefixOf_iff_prefix, Text.occurs_iff,
      Text.occurs_iff, prefix_path_iff hdirectorySlash, infix_slash_path_iff hdirectorySlash,
      or_iff_left (not_infix_name (by simp)), or_assoc]
  · have hpattern : ("**/" ++ name).toList = ['*', '*', '/'] ++ name.toList := by simp
    rw [excludes_iff, hpattern, matchesText_anywhere hnameNamed hnameSlash hnameStar,
      matchesText_anywhere hnameNamed hnameSlash hnameStar, endsWith_path_iff hnameSlash,
      endsWith_name_iff]
    exact or_iff_left_of_imp .inl
  · have hpattern : (directory ++ "/**/" ++ name).toList =
        directory.toList ++ ['/', '*', '*', '/'] ++ name.toList := by simp
    have hslash : '/' ∉ directory.toList ++ name.toList := by simp [hdirectorySlash, hnameSlash]
    have hstar : '*' ∉ directory.toList ++ name.toList := by simp [hdirectoryStar, hnameStar]
    rw [excludes_iff, hpattern, matchesText_between hdirectoryNamed hnameNamed hslash hstar,
      matchesText_between hdirectoryNamed hnameNamed hslash hstar, Bool.and_eq_true,
      Bool.and_eq_true, opensWith_path_iff hdirectorySlash, endsWith_path_iff hnameSlash,
      opensWith_name_iff, endsWith_name_iff]

/-- A file in a directory with a qualifier, under a longer name. -/
def qualifiedFile : PlacedFile :=
  ⟨["drawable-hdpi"], "my_strings.xml", by decide, by decide⟩

/-- Its directory starts with the one and its name ends with the other. -/
theorem excludes_stars_qualifiedFile :
    ExcludePattern.excludes ⟨"drawable" ++ "/**"⟩ qualifiedFile.path = true ∧
    ExcludePattern.excludes ⟨"**/" ++ "strings.xml"⟩ qualifiedFile.path = true ∧
    ExcludePattern.excludes ⟨"drawable" ++ "/**/" ++ "strings.xml"⟩ qualifiedFile.path = true := by
  obtain ⟨hbelow, hanywhere, hbetween⟩ :=
    @excludes_stars_iff qualifiedFile "drawable" "strings.xml" (by decide) (by decide)
  have hopens : ∃ first ∈ qualifiedFile.directories.head?, "drawable".toList <+: first.toList :=
    ⟨"drawable-hdpi", rfl, by decide⟩
  have hends : "strings.xml".toList <:+ qualifiedFile.name.toList := by decide
  exact ⟨hbelow.mpr (.inl hopens), hanywhere.mpr (.inl hends),
    hbetween.mpr (.inl ⟨.inl hopens, .inl hends⟩)⟩

/-- So the file is left out, in no directory of the one name and not called by the other. -/
theorem excludes_beside :
    "drawable" ∉ qualifiedFile.directories ∧ qualifiedFile.name ≠ "strings.xml" ∧
    ExcludePattern.excludes ⟨"drawable/**"⟩ qualifiedFile.path = true ∧
    ExcludePattern.excludes ⟨"**/strings.xml"⟩ qualifiedFile.path = true ∧
    ExcludePattern.excludes ⟨"drawable/**/strings.xml"⟩ qualifiedFile.path = true := by
  refine ⟨by decide, by decide, ?_, ?_, ?_⟩ <;> decide +kernel

end PlacedFile

end OverlayManifest
