/-
# How long paths may be

The text of a path is limited, so a path that can be used need not lead on to a name.
Slashes at the end count for the limit, though they lead nowhere else.
-/

import OverlayManifest.Proofs.LinkFree
import OverlayManifest.Proofs.PathsBelow

namespace OverlayManifest.FileTree

theorem textFault?_eq_none_iff {path : Path} :
    textFault? path = none ↔ path.text ≠ "" ∧ '\x00' ∉ path.text.toList ∧
      path.text.utf8ByteSize ≤ pathLimit := by
  unfold textFault?
  split
  · rename_i hempty
    simp [hempty]
  · rename_i hnamed
    split
    · rename_i hnul
      simp [hnul]
    · rename_i hnul
      split
      · rename_i hlong
        simp [Nat.not_le.mpr hlong]
      · rename_i hshort
        simp [hnamed, hnul, Nat.le_of_not_lt hshort]

/-- A name that is joined to a path makes it longer by the name and at most a slash. -/
theorem utf8ByteSize_join (base : Path) {name : String} (hname : '/' ∉ name.toList) :
    base.text.utf8ByteSize + name.utf8ByteSize ≤ (base.join ⟨name⟩).text.utf8ByteSize ∧
      (base.join ⟨name⟩).text.utf8ByteSize ≤
        base.text.utf8ByteSize + 1 + name.utf8ByteSize := by
  rw [Path.join, Path.isAbsolute_of_notMem hname, Bool.false_or]
  split
  · rename_i hempty
    rw [String.isEmpty_iff] at hempty
    rw [hempty, String.utf8ByteSize_empty]
    dsimp only
    omega
  · split
    · rw [String.utf8ByteSize_append]
      dsimp only
      omega
    · have hslash : ("/" : String).utf8ByteSize = 1 := rfl
      rw [String.utf8ByteSize_append, String.utf8ByteSize_append, hslash]
      dsimp only
      omega

theorem utf8ByteSize_le_join (base : Path) {name : String} (hname : '/' ∉ name.toList) :
    base.text.utf8ByteSize ≤ (base.join ⟨name⟩).text.utf8ByteSize :=
  Nat.le_trans (Nat.le_add_right _ _) (utf8ByteSize_join base hname).1

/-- Two names make it longer by both and at most two slashes. -/
theorem utf8ByteSize_join_join (base : Path) {directory name : String}
    (hdirectory : '/' ∉ directory.toList) (hname : '/' ∉ name.toList) :
    base.text.utf8ByteSize + directory.utf8ByteSize + name.utf8ByteSize ≤
        ((base.join ⟨directory⟩).join ⟨name⟩).text.utf8ByteSize ∧
      ((base.join ⟨directory⟩).join ⟨name⟩).text.utf8ByteSize ≤
        base.text.utf8ByteSize + 1 + directory.utf8ByteSize + 1 + name.utf8ByteSize := by
  have habove := utf8ByteSize_join base hdirectory
  have hbelow := utf8ByteSize_join (base.join ⟨directory⟩) hname
  omega

/-- A name that is joined to a usable path makes one, unless it becomes too long. -/
theorem textFault?_join {base : Path} {name : String} (hbase : textFault? base = none)
    (hslash : '/' ∉ name.toList) (hnul : '\x00' ∉ name.toList)
    (hsize : (base.join ⟨name⟩).text.utf8ByteSize ≤ pathLimit) :
    textFault? (base.join ⟨name⟩) = none := by
  rw [textFault?_eq_none_iff] at hbase ⊢
  have htext := Path.toList_join (Path.isAbsolute_of_notMem hslash) hbase.1
  refine ⟨fun hempty => hbase.1 ?_, ?_, hsize⟩
  · have hlonger := utf8ByteSize_le_join base hslash
    rw [hempty, String.utf8ByteSize_empty] at hlonger
    exact String.utf8ByteSize_eq_zero_iff.mp (Nat.le_zero.mp hlonger)
  · rw [htext]
    split
    · simp [hbase.2.1, hnul]
    · simp [hbase.2.1, hnul]

/-- The names of a path of names are plain, and hold what the path holds. -/
theorem plain_of_named {root path : Path} {names : List String}
    (hnamed : path.components = names.map .named) {name : String} (hname : name ∈ names)
    (hfault : textFault? (root.join path) = none) :
    '/' ∉ name.toList ∧ '\x00' ∉ name.toList ∧ Path.isVoid name.toList = false := by
  obtain ⟨hrelative, hsteps, -⟩ := Path.components_eq_named hnamed
  have hstep : name.toList ∈ path.solidSteps := by
    rw [hsteps]
    exact List.mem_map_of_mem hname
  rw [Path.solidSteps, List.mem_filter] at hstep
  refine ⟨Path.slash_notMem_of_mem_splitOn hstep.1, fun hnul => ?_, by simpa using hstep.2⟩
  have hpath := (Path.mem_of_mem_splitOn hstep.1 hnul).2
  exact (textFault?_eq_none_iff.mp hfault).2.1 (Path.mem_toList_join hrelative hpath)

/-! ## Slashes at the end -/

/-- The path with a text and slashes after it. -/
def slashed (text : String) (count : Nat) : Path :=
  ⟨text ++ String.ofList (List.replicate count '/')⟩

theorem toList_slashed (text : String) (count : Nat) :
    (slashed text count).text.toList = text.toList ++ List.replicate count '/' := by
  rw [slashed, String.toList_append, String.toList_ofList]

/-- The slashes count for the limit. -/
theorem utf8ByteSize_slashed (text : String) (count : Nat) :
    (slashed text count).text.utf8ByteSize = text.utf8ByteSize + count := by
  have hslashes : (String.ofList (List.replicate count '/')).utf8ByteSize = count := by
    induction count with
    | zero => rfl
    | succ count ih =>
        rw [List.replicate_succ, String.ofList_cons, String.utf8ByteSize_append, ih,
          String.utf8ByteSize_singleton, Nat.add_comm]
        rfl
  rw [slashed, String.utf8ByteSize_append, hslashes]

/-- The slashes are steps that stand for nothing. -/
theorem splitOn_slashed (text : String) (count : Nat) :
    (slashed text count).text.toList.splitOn '/' =
      text.toList.splitOn '/' ++ List.replicate count [] := by
  have hslashes (text : List Char) : (text ++ List.replicate count '/').splitOn '/' =
      text.splitOn '/' ++ List.replicate count [] := by
    induction count generalizing text with
    | zero => rw [List.replicate_zero, List.replicate_zero, List.append_nil, List.append_nil]
    | succ count ih =>
        have hrest := ih []
        rw [List.nil_append, List.splitOn_nil] at hrest
        rw [List.replicate_succ, List.splitOn_append_cons_self, hrest]
        rfl
  rw [toList_slashed, hslashes]

theorem solidSteps_slashed (text : String) (count : Nat) :
    (slashed text count).solidSteps = Path.solidSteps ⟨text⟩ := by
  rw [Path.solidSteps, splitOn_slashed, List.filter_append,
    List.filter_replicate_of_neg (by decide), List.append_nil]
  rfl

theorem isAbsolute_slashed {text : String} (htext : text ≠ "") (count : Nat) :
    (slashed text count).isAbsolute = Path.isAbsolute ⟨text⟩ := by
  obtain ⟨first, rest, hcons⟩ :=
    List.exists_cons_of_ne_nil (show text.toList ≠ [] by simpa using htext)
  rw [Bool.eq_iff_iff, Path.isAbsolute_iff, Path.isAbsolute_iff, toList_slashed, hcons]
  rfl

/-- Slashes at the end of a usable path make one, unless it becomes too long. -/
theorem textFault?_slashed {text : String} (htext : textFault? ⟨text⟩ = none) {count : Nat}
    (hcount : text.utf8ByteSize + count ≤ pathLimit) : textFault? (slashed text count) = none := by
  obtain ⟨hnamed, hnul, -⟩ := textFault?_eq_none_iff.mp htext
  refine textFault?_eq_none_iff.mpr ⟨?_, ?_, ?_⟩
  · rw [ne_eq, ← String.toList_eq_nil_iff, toList_slashed, List.append_eq_nil_iff]
    exact fun hnil => hnamed (String.toList_eq_nil_iff.mp hnil.1)
  · rw [toList_slashed, List.mem_append, not_or]
    refine ⟨hnul, fun hslash => ?_⟩
    cases List.eq_of_mem_replicate hslash
  · rw [utf8ByteSize_slashed]
    exact hcount

/-- Slashes at the end of the path of a directory lead nowhere else. -/
theorem locate_slashed {tree : FileTree} (hfree : tree.LinkFree) {text : String}
    {location : Location} (hlocate : tree.locate ⟨text⟩ = .ok location)
    (hdirectory : tree.lookup? location = some .directory) {count : Nat}
    (hcount : text.utf8ByteSize + count ≤ pathLimit) :
    tree.locate (slashed text count) = .ok location := by
  have hfault := (locate_eq_ok_iff.mp hlocate).1
  have hnamed := (textFault?_eq_none_iff.mp hfault).1
  have hnames : namesOf (slashed text count) = namesOf ⟨text⟩ ++ List.replicate count (.plain "") := by
    rw [namesOf, splitOn_slashed, List.map_append, List.map_replicate]
    rfl
  rw [locate_eq_walk hfree hfault] at hlocate
  rw [locate_eq_walk hfree (textFault?_slashed hfault hcount), startOf,
    isAbsolute_slashed hnamed, ← startOf, hnames, walk_append, hlocate]
  exact (walk_slashes fun name hname => List.eq_of_mem_replicate hname).mpr
    ⟨rfl, .inr hdirectory⟩

end OverlayManifest.FileTree
