/-
# Repeated updates

Writing a document again leaves the tree as it is: the directories above it are there,
and the file holds the text already. So an update that keeps the same resources again
changes nothing.
-/

import OverlayManifest.Proofs.Runs

namespace OverlayManifest

namespace FileTree

/-- Setting what stands at a location already changes nothing. -/
theorem set_of_lookup? {tree : FileTree} {location : Location} {entry : Entry}
    (hlocation : location ≠ []) (h : tree.lookup? location = some entry) :
    tree.set location entry = tree := by
  have hentries : tree.entries.insert location entry = tree.entries := by
    apply Std.ExtTreeMap.ext_getElem?
    intro other
    rw [Std.ExtTreeMap.getElem?_insert]
    split
    · rename_i hsame
      rw [lookup?, if_neg hlocation] at h
      rw [← Std.LawfulEqCmp.eq_of_compare hsame, h]
    · rfl
  rw [set, hentries]

/-- A file that was written can be written again, which changes nothing. -/
theorem writeFile_again {tree after : FileTree} (hclosed : tree.Closed) {path : Path}
    {bytes : ByteArray} (h : tree.writeFile path bytes = .ok after) :
    after.writeFile path bytes = .ok after := by
  obtain ⟨place, hplace, -, hrewrites, -⟩ := rewrites_of_writeFile hclosed h
  have hagain : after.locateToWrite path = .ok place := by
    rw [locateToWrite_eq_ok_iff] at hplace ⊢
    rw [hrewrites.workingDirectory_eq]
    exact ⟨hplace.1, hplace.2.keep hrewrites.keeps⟩
  have hbelow : place ≠ [] := by
    rintro rfl
    cases hrewrites.written
  rw [writeFile, hagain]
  simp only [hrewrites.written, set_of_lookup? hbelow hrewrites.written]

end FileTree

namespace Update

/-- A document that was written can be written again, which changes nothing. -/
theorem writeDocument_again {tree after : FileTree} (hclosed : tree.Closed) {path : Path}
    {text : String}
    (h : writeDocument tree path text = (.ok (), after)) :
    writeDocument after path text = (.ok (), after) := by
  obtain ⟨grown, hgrown, hwritten⟩ := writeDocument_eq_ok h
  obtain ⟨hgrownClosed, hgrows⟩ := grows_above hclosed hgrown
  have hagain := FileTree.writeFile_again hgrownClosed hwritten
  obtain ⟨_, _, _, hrewrites, _⟩ := FileTree.rewrites_of_writeFile hgrownClosed hwritten
  cases hparent : path.parent? with
  | none =>
      rw [writeDocument, hparent]
      simp only [Option.map_none, Option.getD_none, hagain]
  | some parent =>
      rw [hparent] at hgrown
      refine writeDocument_of_hasDirectory parent hparent ?_ hagain
      rcases FileTree.hasDirectory_of_makeDirectories hgrown with hempty | hdirectory
      · exact .inl hempty
      · exact .inr (FileTree.hasDirectory_of_keeps hrewrites.keeps hdirectory)

end Update

end OverlayManifest
