/-
# Where documents can be written

Below a root without links, a document can be written at a path of names if it ends with a
name, nothing but directories stands on the way, and no directory stands at its end. Whether
that is so depends only on what stands below the root.
-/

import OverlayManifest.Proofs.MadeDirectories
import OverlayManifest.Proofs.Runs

namespace OverlayManifest

namespace FileTree

/-- A document can be written at a path below a location: the path ends with a name, nothing
but directories stands on the way, and no directory stands at the end. -/
structure CanHold (tree : FileTree) (location : Location) (path : Path) : Prop where
  noZero : '\x00' ∉ path.text.toList
  ends : EndsNamed path
  short : ∀ name ∈ solidNames path, name.size ≤ nameLimit
  lookup?_cases : ∀ above, above <+: (solidNames path).dropLast →
    tree.lookup? (location ++ above) = some .directory ∨ tree.lookup? (location ++ above) = none
  place : tree.lookup? (location ++ solidNames path) ≠ some .directory

/-- Whether a document can be written depends only on what stands below the location. -/
theorem CanHold.congr {tree other : FileTree} {location location' : Location} {path : Path}
    (h : CanHold tree location path)
    (hsame : ∀ below, other.lookup? (location' ++ below) = tree.lookup? (location ++ below)) :
    CanHold other location' path where
  noZero := h.noZero
  ends := h.ends
  short := h.short
  lookup?_cases above habove := by
    rw [hsame]
    exact h.lookup?_cases above habove
  place := by
    rw [hsame]
    exact h.place

/-- The last name of a path is the last that stands for something. -/
theorem solidNames_of_ends {path : Path} {above : List FileName} {name : FileName}
    (hnames : namesOf path = above ++ [name]) (hsolid : isVoidName name = false) :
    solidNames path = above.filter (!isVoidName ·) ++ [name] := by
  rw [solidNames, hnames, List.filter_append, List.filter_cons_of_pos (by simp [hsolid]),
    List.filter_nil]

/-- A name leads down from a directory. -/
theorem walk_name {tree : FileTree} {here : Location} {name : FileName}
    (hhere : tree.lookup? here = some .directory) (hsolid : isVoidName name = false)
    (hup : name ≠ "..") (hsize : name.size ≤ nameLimit) :
    tree.walk false here [name] = .ok (here ++ [name]) := by
  have hvoid : ¬ (name = "" ∨ name = ".") := by
    rw [← isVoidName_iff, hsolid]
    exact Bool.false_ne_true
  rw [walk, hhere]
  simp only [if_neg hvoid, if_neg hup, Bool.false_and, Bool.false_eq_true, if_false,
    if_neg (Nat.not_lt.mpr hsize), walk]

/-- Names that were walked are not too long. -/
theorem short_of_walk {tree : FileTree} {here location : Location} {names : List FileName}
    (h : tree.walk false here names = .ok location) (hup : FileName.plain ".." ∉ names) :
    ∀ name ∈ names.filter (!isVoidName ·), name.size ≤ nameLimit := by
  induction names generalizing here with
  | nil => simp
  | cons name rest ih =>
      rw [List.mem_cons, not_or] at hup
      have hrest := ih (walk_cons h).2 hup.2
      by_cases hvoid : name = "" ∨ name = "."
      · rwa [filter_cons_void hvoid]
      · rw [filter_cons_solid hvoid, List.forall_mem_cons]
        refine ⟨?_, hrest⟩
        rw [walk, (walk_cons h).1] at h
        simp only [if_neg hvoid, if_neg (Ne.symm hup.1), Bool.false_and, Bool.false_eq_true,
          if_false] at h
        split at h
        · cases h
        · rename_i hsize
          exact Nat.le_of_not_lt hsize

/-- A walk that ends with a name that stands for nothing ends in a directory. -/
theorem directory_of_walk_void {tree : FileTree} {here location : Location} {names : List FileName}
    {name : FileName} (h : tree.walk false here (names ++ [name]) = .ok location)
    (hvoid : isVoidName name = true) : tree.lookup? location = some .directory := by
  rw [walk_append] at h
  split at h
  · cases h
  · rename_i middle _
    obtain ⟨hmiddle, hend⟩ := walk_cons h
    rw [advance, if_pos hvoid] at hend
    cases hend
    exact hmiddle

/-- A path that does not lead to a directory ends with a name. -/
theorem endsNamed_of_walk {tree : FileTree} {here location : Location} {path : Path}
    (h : tree.walk false here (namesOf path) = .ok location)
    (hlocation : tree.lookup? location ≠ some .directory) : EndsNamed path := by
  rcases List.eq_nil_or_concat (namesOf path) with hnil | ⟨first, name, hnames⟩
  · simp [namesOf] at hnil
  · rw [List.concat_eq_append] at hnames
    refine ⟨first, name, hnames, ?_⟩
    rw [Bool.eq_false_iff]
    intro hvoid
    rw [hnames] at h
    exact hlocation (directory_of_walk_void h hvoid)

/-- A path that ends with a name ends with it from every root. -/
theorem EndsNamed.endsSolid_join {path : Path} (h : EndsNamed path)
    (hrelative : path.isAbsolute = false) (root : Path) : (root.join path).EndsSolid := by
  obtain ⟨above, name, hnames, hsolid⟩ := h
  obtain ⟨steps, last, hsplit, -, hlast⟩ := List.map_eq_append_iff.mp hnames
  obtain ⟨step, rfl, rfl⟩ := List.map_eq_singleton_iff.mp hlast
  rw [isVoidName_ofStep] at hsolid
  have hjoined : (root.join path).text.toList.splitOn '/' =
      root.stepsBefore ++ steps ++ [step] := by
    rw [Path.splitOn_join hrelative, hsplit, List.append_assoc]
  exact Path.endsSolid_of_splitOn hjoined hsolid

/-- Where a path of names leads below a root. -/
theorem RootAt.walk_of_locate_join {tree : FileTree} {root path : Path} {location place : Location}
    (h : RootAt tree root location) (hpath : path.IsNamed)
    (hfits : (root.join path).text.utf8ByteSize ≤ pathLimit)
    (hplace : tree.locate (root.join path) = .ok place) :
    '\x00' ∉ path.text.toList ∧ tree.walk false location (namesOf path) = .ok place ∧
      place = location ++ solidNames path := by
  rw [h.locate_join hpath hfits] at hplace
  split at hplace
  · cases hplace
  · rename_i hnul
    refine ⟨hnul, hplace, ?_⟩
    rw [destination_of_walk hplace, ← destination_filter, ← solidNames,
      destination_names (fun _ => isVoidName_of_mem_solidNames) (dots_notMem_solidNames hpath)]

/-- A path of names that leads to a file ends with a name. -/
theorem RootAt.endsNamed_of_hasFile {tree : FileTree} {root path : Path} {location : Location}
    (h : RootAt tree root location) (hpath : path.IsNamed)
    (hfits : (root.join path).text.utf8ByteSize ≤ pathLimit)
    (hfile : tree.hasFile (root.join path) = true) : EndsNamed path := by
  unfold hasFile at hfile
  split at hfile
  · rename_i bytes hfound
    obtain ⟨place, hplace, hbytes⟩ := find?_eq_ok_iff.mp hfound
    obtain ⟨-, hwalk, -⟩ := h.walk_of_locate_join hpath hfits hplace
    exact endsNamed_of_walk hwalk (by simp [hbytes])
  · cases hfile

/-- A path of names at which a document can be written spells them from the root. -/
theorem RootAt.spells_join {tree : FileTree} {root path : Path} {location : Location}
    (h : RootAt tree root location) (hpath : path.IsNamed)
    (hfits : (root.join path).text.utf8ByteSize ≤ pathLimit)
    (hhold : CanHold tree location path) : Spells root (root.join path) (solidNames path) where
  isAbsolute_eq := Path.isAbsolute_join (isAbsolute_of_isNamed hpath)
  solidNames_eq := by
    rw [solidNames_eq, Path.solidSteps_join (isAbsolute_of_isNamed hpath), List.map_append,
      ← solidNames_eq, ← solidNames_eq]
  textFault?_eq _ := by
    rw [textFault?_join_of_fits h.textFault?_eq (isAbsolute_of_isNamed hpath) hfits,
      if_neg hhold.noZero]
  ends := by
    obtain ⟨first, name, hnames, hsolid⟩ := hhold.ends
    refine .inr ⟨namesBefore root ++ first, name, ?_, hsolid⟩
    rw [namesOf_join (isAbsolute_of_isNamed hpath), hnames, List.append_assoc]

/-- The names before the last lead down. -/
theorem CanHold.passable {tree : FileTree} {path : Path} {location : Location}
    (h : CanHold tree location path) (hpath : path.IsNamed) :
    Passable tree location (solidNames path).dropLast where
  down hmem := dots_notMem_solidNames hpath (List.dropLast_subset _ hmem)
  short name hname := h.short name (List.dropLast_subset _ hname)
  lookup?_cases := h.lookup?_cases

/-- Once the directory above is there, a document can be written as a file. -/
theorem RootAt.writeFile_ok {tree : FileTree} {root path : Path} {location : Location}
    (h : RootAt tree root location) (hclosed : tree.Closed) (hpath : path.IsNamed)
    (hfits : (root.join path).text.utf8ByteSize ≤ pathLimit) (hhold : CanHold tree location path)
    (hdirectory : tree.lookup? (location ++ (solidNames path).dropLast) = some .directory)
    (bytes : ByteArray) : ∃ after, tree.writeFile (root.join path) bytes = .ok after := by
  have hpassable := hhold.passable hpath
  have hshort := hhold.short
  have hend := hhold.place
  obtain ⟨first, name, hnames, hsolid⟩ := hhold.ends
  rw [solidNames_of_ends hnames hsolid] at hpassable hshort hdirectory hend
  rw [List.dropLast_concat] at hpassable hdirectory
  rw [← List.append_assoc] at hend
  have hup : name ≠ ".." := fun hdots => dots_notMem_namesOf hpath (by simp [hnames, hdots])
  have hwalk : tree.walk false location (namesOf path) =
      .ok (location ++ first.filter (!isVoidName ·) ++ [name]) := by
    rw [hnames, walk_append, hpassable.walk_eq_ok hclosed hdirectory rfl]
    exact walk_name hdirectory hsolid hup (hshort name (by simp))
  have hlocate : tree.locate (root.join path) =
      .ok (location ++ first.filter (!isVoidName ·) ++ [name]) := by
    rw [h.locate_join hpath hfits, if_neg hhold.noZero, hwalk]
  obtain ⟨hfault, hleads⟩ := locate_eq_ok_iff.mp hlocate
  exact ⟨_, writeFile_eq_ok_iff.mpr
    ⟨_, locateToWrite_eq_ok_iff.mpr ⟨hfault, hleads.toWrite hend⟩, hend, rfl⟩⟩

end FileTree

namespace Update

open FileTree

variable {tree after : FileTree} {root path : Path} {location : Location} {text : String}

/-- Where a document was written it could be. -/
theorem canHold_of_writeDocument (hclosed : tree.Closed) (h : RootAt tree root location)
    (hpath : path.IsNamed) (hfits : (root.join path).text.utf8ByteSize ≤ pathLimit)
    (hwritten : writeDocument tree (root.join path) text = (.ok (), after)) :
    CanHold tree location path := by
  obtain ⟨grown, hgrown, hfile⟩ := writeDocument_eq_ok hwritten
  obtain ⟨-, hgrows⟩ := grows_above hclosed hgrown
  obtain ⟨place, hplace, hdirectory, -⟩ := writeFile_eq_ok_iff.mp hfile
  have hlocate : grown.locate (root.join path) = .ok place :=
    locate_eq_ok_iff.mpr ((locateToWrite_eq_ok_iff.mp hplace).imp_right Leads.toRead)
  obtain ⟨hnul, hwalk, rfl⟩ := (h.of_grows hgrows).walk_of_locate_join hpath hfits hlocate
  have hends := endsNamed_of_walk hwalk hdirectory
  refine ⟨hnul, hends, short_of_walk hwalk (dots_notMem_namesOf hpath), fun above habove => ?_,
    fun hthere => hdirectory (hgrows.keeps.directory hthere)⟩
  have hbegins : above <+: solidNames path := habove.trans (List.dropLast_prefix _)
  rcases directory_of_walk hwalk hbegins with hall | hthere
  · obtain ⟨first, name, hends, hlast⟩ := hends
    rw [hall, ← solidNames, solidNames_of_ends hends hlast, List.dropLast_concat] at habove
    exact absurd habove.length_le (by simp)
  · rw [destination_names (fun name hname => isVoidName_of_mem_solidNames (hbegins.subset hname))
      (fun hmem => dots_notMem_solidNames hpath (hbegins.subset hmem))] at hthere
    rcases hgrows.lookup?_cases (location ++ above) with hsame | ⟨hnone, -⟩
    · exact .inl (hsame ▸ hthere)
    · exact .inr hnone

/-- Where a document can be written it is. -/
theorem writeDocument_of_canHold (hclosed : tree.Closed) (h : RootAt tree root location)
    (hpath : path.IsNamed) (hfits : (root.join path).text.utf8ByteSize ≤ pathLimit)
    (hhold : CanHold tree location path) :
    ∃ after, writeDocument tree (root.join path) text = (.ok (), after) := by
  have hspells := h.spells_join hpath hfits hhold
  have hpassable := hhold.passable hpath
  obtain ⟨first, name, hnames, hsolid⟩ := hhold.ends
  have hsplit := solidNames_of_ends hnames hsolid
  have hshorter : (solidNames path).dropLast = first.filter (!isVoidName ·) := by
    rw [hsplit, List.dropLast_concat]
  rw [hsplit, ← hshorter] at hspells
  obtain ⟨parent, hparent⟩ := Path.exists_parent? hspells.solidSteps_ne_nil
  have habove := hspells.of_parent? hparent
  obtain ⟨grown, hgrown, hdirectory, hother⟩ := h.makeDirectories_ok hclosed habove hpassable
  have hmade : (((root.join path).parent?.map tree.makeDirectories).getD (.ok (), tree)) =
      (.ok (), grown) := by
    rw [hparent, Option.map_some, Option.getD_some, hgrown]
  obtain ⟨hgrownClosed, hgrows⟩ := grows_above hclosed hmade
  have hend : grown.lookup? (location ++ solidNames path) =
      tree.lookup? (location ++ solidNames path) := by
    apply hother
    intro above hbegins hsame
    rw [List.append_cancel_left_eq] at hsame
    rw [← hsame, hsplit, List.dropLast_concat] at hbegins
    exact absurd hbegins.length_le (by simp)
  have hgrownHold : CanHold grown location path :=
    { hhold with
      lookup?_cases := (hpassable.of_grows hgrows).lookup?_cases
      place := hend ▸ hhold.place }
  obtain ⟨after, hafter⟩ :=
    (h.of_grows hgrows).writeFile_ok hgrownClosed hpath hfits hgrownHold hdirectory text.toUTF8
  refine ⟨after, ?_⟩
  rw [writeDocument, hmade]
  simp only [hafter]

/-- Below a root, a document can be written at a path of names exactly where nothing stands in
the way. -/
theorem exists_writeDocument_iff (hclosed : tree.Closed) (h : RootAt tree root location)
    (hpath : path.IsNamed) (hfits : (root.join path).text.utf8ByteSize ≤ pathLimit) :
    (∃ after, writeDocument tree (root.join path) text = (.ok (), after)) ↔
      CanHold tree location path := by
  constructor
  · rintro ⟨after, hwritten⟩
    exact canHold_of_writeDocument hclosed h hpath hfits hwritten
  · exact writeDocument_of_canHold hclosed h hpath hfits

end Update

end OverlayManifest
