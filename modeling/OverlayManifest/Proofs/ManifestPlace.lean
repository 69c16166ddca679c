/-
# The place of the manifest

In a tree without links, a manifest whose path is made of names is written below where
the root leads, and the directories that are made for it are those that its path names
one after the other.
-/

import OverlayManifest.Proofs.Destinations
import OverlayManifest.Proofs.PathParents
import OverlayManifest.Proofs.Runs

namespace OverlayManifest

namespace FileTree

/-- What is above the parent of a joined path has the first names of that path, and starts
where the root does. -/
theorem solidNames_above {root path parent ancestor : Path} {names : List String}
    (hnamed : path.components = names.map .named)
    (hparent : (root.join path).parent? = some parent) (hancestor : ancestor ∈ parent.ancestors)
    (hnonempty : ancestor.text ≠ "") :
    solidNames ancestor <+: (solidNames root ++ names.map FileName.plain).dropLast ∧
      ∀ here, startOf here ancestor = startOf here root := by
  obtain ⟨hrelative, hnames, -⟩ := solidNames_of_named hnamed
  obtain ⟨hsteps, habsolute⟩ := Path.solidSteps_eq_dropLast hparent
  rcases Path.solidSteps_of_mem_ancestors hancestor with hempty | ⟨hbelow, habsolute'⟩
  · exact absurd hempty hnonempty
  · rw [hsteps, Path.solidSteps_join hrelative] at hbelow
    constructor
    · rw [← hnames, solidNames_eq, solidNames_eq, solidNames_eq, ← List.map_append,
        ← List.map_dropLast]
      exact hbelow.map _
    · intro here
      rw [startOf, startOf, habsolute', habsolute, Path.isAbsolute_join hrelative]

/-- What has to be made for a manifest is what its path names, without the last name. -/
theorem changes_above {tree : FileTree} (hfree : tree.LinkFree) {root path other parent : Path}
    {names : List String} (hnamed : path.components = names.map .named)
    (hother : other.isAbsolute = false) {base : Location}
    (hbase : tree.locate (root.join other) = .ok base)
    (hparent : (root.join path).parent? = some parent) {location : Location}
    (h : (tree.makeDirectories parent).2.lookup? location ≠ tree.lookup? location) :
    ∃ made : Location, made ≠ [] ∧ made <+: (names.map FileName.plain).dropLast ∧
      location = tree.destinationOf root ++ made := by
  obtain ⟨ancestor, hancestor, hancestorNamed, rfl⟩ := makeDirectories_changes hfree parent h
  have hnames := (solidNames_of_named hnamed).2.1
  obtain ⟨hfirst, hstart⟩ := solidNames_above hnamed hparent hancestor hancestorNamed
  -- Where the root leads was there, so what was made is below that.
  have hpresent {first : Location} (hfirst : first <+: solidNames root)
      (hsame : solidNames ancestor = first) : False := by
    have hdirectory := directory_of_locate_join hfree hother hbase hfirst
    rw [← hsame, ← hstart] at hdirectory
    exact h (((makeDirectories_grows tree parent).keeps.directory hdirectory).trans
      hdirectory.symm)
  by_cases hnil : names = []
  · rw [hnil, List.map_nil, List.append_nil] at hfirst
    exact (hpresent (hfirst.trans (List.dropLast_prefix _)) rfl).elim
  · rw [List.dropLast_append_of_ne_nil (by simpa using hnil)] at hfirst
    rcases List.prefix_or_prefix_of_prefix hfirst (List.prefix_append _ _) with
      hroot | ⟨made, hmade⟩
    · exact (hpresent hroot rfl).elim
    · rw [← hmade, List.prefix_append_right_inj] at hfirst
      refine ⟨made, ?_, hfirst, ?_⟩
      · rintro rfl
        rw [List.append_nil] at hmade
        exact hpresent List.prefix_rfl hmade.symm
      · have hbelow := hfirst.trans (List.dropLast_prefix _)
        rw [destinationOf, hstart, ← hmade, destination_append, destinationOf]
        rw [← hnames] at hbelow
        exact destination_names (fun name hname => isVoidName_of_mem_solidNames (hbelow.mem hname))
          (fun hmem => dots_notMem_solidNames ⟨names, hnamed⟩ (hbelow.mem hmem))

/-- Where names lead that do not begin those of the manifest, nothing changes. -/
theorem lookup?_apart {tree after : FileTree} {start : Location} {names others : List FileName}
    (hapart : ¬ others <+: names)
    (hchanges : ∀ location, location ≠ start ++ names →
      after.lookup? location ≠ tree.lookup? location →
        ∃ made : Location, made ≠ [] ∧ made <+: names.dropLast ∧ location = start ++ made) :
    after.lookup? (start ++ others) = tree.lookup? (start ++ others) := by
  refine Decidable.byContradiction fun hchanged => ?_
  have hother : start ++ others ≠ start ++ names := by
    intro hplace
    rw [List.append_cancel_left hplace] at hapart
    exact hapart List.prefix_rfl
  obtain ⟨made, -, hmade, hlocation⟩ := hchanges _ hother hchanged
  rw [List.append_cancel_left hlocation] at hapart
  exact hapart (hmade.trans (List.dropLast_prefix _))

end FileTree

namespace Update

open FileTree

/-- A document with a path of names is written below where the root leads. Elsewhere
nothing changes but for the directories that its path names. -/
theorem place_of_writeDocument {tree after : FileTree} (hclosed : tree.Closed)
    (hfree : tree.LinkFree) {root path other : Path} {names : List String}
    (hnamed : path.components = names.map .named) (hother : other.isAbsolute = false)
    {base : Location} (hbase : tree.locate (root.join other) = .ok base) {text : String}
    (h : writeDocument tree (root.join path) text = (.ok (), after)) :
    after.locate (root.join path) = .ok (tree.destinationOf root ++ names.map FileName.plain) ∧
      Rewrites tree after (tree.destinationOf root ++ names.map FileName.plain) text.toUTF8 ∧
      ∀ location, location ≠ tree.destinationOf root ++ names.map FileName.plain →
        after.lookup? location ≠ tree.lookup? location →
          ∃ made : Location, made ≠ [] ∧ made <+: (names.map FileName.plain).dropLast ∧
            location = tree.destinationOf root ++ made := by
  obtain ⟨grown, hgrown, hwritten⟩ := writeDocument_eq_ok h
  obtain ⟨hgrownClosed, hgrows⟩ := grows_above hclosed hgrown
  obtain ⟨place, -, hplace, hrewrites, hunchanged⟩ :=
    rewrites_of_writeFile hgrownClosed hwritten
  have hdestination : place = tree.destinationOf root ++ names.map FileName.plain := by
    have hfreeAfter := (hfree.keep hgrows.keeps).keep hrewrites.keeps
    rw [destinationOf_of_locate hfreeAfter hplace, destinationOf_join_names hnamed, destinationOf,
      hrewrites.workingDirectory_eq, hgrows.workingDirectory_eq, destinationOf]
  subst hdestination
  refine ⟨hplace, hgrows.rewrites hrewrites, fun location hlocation hchanged => ?_⟩
  rw [hunchanged location hlocation] at hchanged
  cases hparent : (root.join path).parent? with
  | none =>
      rw [hparent] at hgrown
      cases hgrown
      exact absurd rfl hchanged
  | some parent =>
      rw [hparent] at hgrown
      have hmade : (tree.makeDirectories parent).2 = grown := congrArg Prod.snd hgrown
      rw [← hmade] at hchanged
      exact changes_above hfree hnamed hother hbase hparent hchanged

end Update

end OverlayManifest
