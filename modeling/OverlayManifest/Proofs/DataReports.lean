/-
# Reports as data

The report as data is a text of one JSON value, which says what was found: the manifest as it is
shown, whether it is up to date, and the added and the removed resources in their order. Each
added resource has the file that is known to declare it, as it is shown, and no removed one has
a file. A report that goes to a file is the same text.
-/

import OverlayManifest.Proofs.Rewriting
import OverlayManifest.Proofs.Verdict

namespace OverlayManifest

open OverlayManifest.Json (Value IsText)

namespace Json.Value

/-- An object has no two members with one key. -/
inductive IsObject : Value → Prop
  | members {members : List (String × Value)} (hkeys : (members.map Prod.fst).Nodup) :
      IsObject (.object members)

/-- An object names a resource, and a file if there is one. -/
structure Names (entry : Value) (resource : Resource) (file : Option String) : Prop where
  isObject : entry.IsObject
  type_eq : entry.member? "type" = some (.text resource.type)
  name_eq : entry.member? "name" = some (.text resource.name)
  origin_eq : entry.member? "origin" = file.map .text

end Json.Value

namespace Report

variable {tree after : FileTree} {finding : Finding}

/-- The object for a resource names it. -/
theorem Json.names_resourceValue (resource : Resource) (file : Option String) :
    (Json.resourceValue resource file).Names resource file := by
  cases file with
  | none =>
    have hkeys : ["type", "name"].Nodup := by decide
    exact ⟨.members hkeys, rfl, rfl, rfl⟩
  | some file =>
    have hkeys : ["type", "name", "origin"].Nodup := by decide
    exact ⟨.members hkeys, rfl, rfl, rfl⟩

namespace Finding

/-- An object says what was found. The file of a resource is the one that is known to declare it,
as it is shown from the root. -/
structure IsToldBy (finding : Finding) (value : Value) : Prop where
  isObject : value.IsObject
  manifest_eq : value.member? "manifest" =
    some (.text (finding.manifest.shownFrom finding.root))
  upToDate_eq : value.member? "up_to_date" =
    some (.truth (decide (finding.drift.added = [] ∧ finding.drift.removed = [])))
  added : ∃ entries, value.member? "added" = some (.list entries) ∧
    List.Forall₂ (fun resource entry => entry.Names resource
        (finding.origins[resource]?.map fun path => path.shownFrom finding.root))
      finding.drift.added entries
  removed : ∃ entries, value.member? "removed" = some (.list entries) ∧
    List.Forall₂ (fun resource entry => entry.Names resource none) finding.drift.removed entries

/-- The value that is written says what was found. -/
theorem isToldBy_value (finding : Finding) :
    finding.IsToldBy (Json.value finding.drift finding.shownManifest finding.shownOrigin) where
  isObject := by
    have hkeys : ["version", "manifest", "up_to_date", "added", "removed"].Nodup := by decide
    exact .members hkeys
  manifest_eq := rfl
  upToDate_eq := by
    have htruth : finding.drift.isUpToDate =
        decide (finding.drift.added = [] ∧ finding.drift.removed = []) :=
      Bool.eq_iff_iff.mpr (by simp [Drift.isUpToDate])
    rw [← htruth]
    rfl
  added := by
    refine ⟨_, rfl, List.forall₂_map_right_iff.mpr (List.forall₂_same.mpr fun resource _ => ?_)⟩
    exact Json.names_resourceValue resource _
  removed := by
    refine ⟨_, rfl, List.forall₂_map_right_iff.mpr (List.forall₂_same.mpr fun resource _ => ?_)⟩
    exact Json.names_resourceValue resource none

/-- The report is a text of the value that is written, and of no other, with blanks after it. -/
theorem isText_dataText_iff {blanks : String}
    (hblanks : OverlayManifest.Json.IsBlanks blanks.toList) {value : Value} :
    IsText value (finding.dataText ++ blanks) ↔
      value = Json.value finding.drift finding.shownManifest finding.shownOrigin := by
  have htext := OverlayManifest.Json.isText_render
    (Json.value finding.drift finding.shownManifest finding.shownOrigin) hblanks
  rw [String.ofList_append, String.ofList_toList] at htext
  constructor
  · exact fun hother => htext.unique hother
  · rintro rfl
    exact htext

end Finding

/-- A file that a report went to holds the report. -/
theorem readText_of_deliver {path : Path} {printed : String} {coloured : Bool}
    (hclosed : tree.Closed)
    (h : Report.deliver ⟨true, some path, coloured⟩ tree finding = .ok (printed, after)) :
    after.readText path = .ok finding.dataText := by
  obtain ⟨-, hwritten⟩ := (deliver_file_eq_ok_iff rfl rfl).mp h
  obtain ⟨place, -, hlocated, hrewrites, -⟩ := FileTree.rewrites_of_writeFile hclosed hwritten
  rw [FileTree.readText, FileTree.readBytes, FileTree.find?, hlocated]
  simp only [hrewrites.written, FileTree.textOf_toUTF8]

/-- The report that is printed is a text of one value, which says what was found, and so it is
without its last line break. A report that goes to a file is delivered if there is a place for
it that is no directory. The file is written there, and on its path the same text is read, which
is that without the line break. -/
theorem delivered_data (finding : Finding) (coloured : Bool) (tree : FileTree) :
    ∃ value text, finding.IsToldBy value ∧
      (∀ other, IsText other text ↔ other = value) ∧
      (∀ other, IsText other (text ++ "\n") ↔ other = value) ∧
      Report.deliver ⟨true, none, coloured⟩ tree finding = .ok (text ++ "\n", tree) ∧
      ∀ path,
        ((∃ printed after,
            Report.deliver ⟨true, some path, coloured⟩ tree finding = .ok (printed, after)) ↔
          ∃ place, tree.locateToWrite path = .ok place ∧ tree.lookup? place ≠ some .directory) ∧
        ∀ printed after,
          Report.deliver ⟨true, some path, coloured⟩ tree finding = .ok (printed, after) →
          printed = writtenNote path ∧
            (∃ place, tree.locateToWrite path = .ok place ∧
              after.lookup? place = some (.file text.toUTF8)) ∧
            (tree.Closed → after.readText path = .ok text) := by
  refine ⟨_, finding.dataText, finding.isToldBy_value, fun other => ?_, fun other => ?_,
    deliver_data rfl rfl, fun path => ⟨?_, fun printed after hdeliver => ?_⟩⟩
  · have htext := @Finding.isText_dataText_iff finding "" OverlayManifest.Json.isBlanks_nil other
    rwa [String.append_empty] at htext
  · exact Finding.isText_dataText_iff (by simp [OverlayManifest.Json.IsBlanks,
      OverlayManifest.Json.isBlank])
  · rw [exists_deliver_iff, Deliverable]
    simp
  · obtain ⟨rfl, hwritten⟩ := (deliver_file_eq_ok_iff rfl rfl).mp hdeliver
    refine ⟨rfl, ?_, fun hclosed => readText_of_deliver hclosed hdeliver⟩
    obtain ⟨place, hplace, hdirectory, rfl⟩ := FileTree.writeFile_eq_ok_iff.mp hwritten
    have hbelow : place ≠ [] := by
      rintro rfl
      exact hdirectory rfl
    exact ⟨place, hplace, by rw [FileTree.lookup?_set _ _ _ _ hbelow, if_pos rfl]⟩

/-- A finding whose texts have quotes, a backslash, control characters and a wide character. -/
def quotedFinding : Finding :=
  { root := ⟨"app"⟩, manifest := ⟨"app/say \"hi\".xml"⟩,
    drift := ⟨[⟨"raw", "a\\b"⟩, ⟨"𝄞", "\u0001\n"⟩, ⟨"raw", "a\\b"⟩], [⟨"id", "\t"⟩]⟩,
    origins := (∅ : Std.ExtTreeMap Resource FilePath).insert ⟨"raw", "a\\b"⟩
      (.plain ⟨"app/res/raw/a\\b"⟩) }

/-- The report on the quoted finding is delivered to a file, where the same text is read. -/
theorem delivered_data_quoted : ∃ value text after,
    quotedFinding.IsToldBy value ∧ IsText value text ∧
      value.member? "up_to_date" = some (.truth false) ∧
      Report.deliver ⟨true, none, true⟩ (.rawProject "a") quotedFinding =
        .ok (text ++ "\n", .rawProject "a") ∧
      Report.deliver ⟨true, some ⟨"report.json"⟩, true⟩ (.rawProject "a") quotedFinding =
        .ok (writtenNote ⟨"report.json"⟩, after) ∧
      after.readText ⟨"report.json"⟩ = .ok text := by
  have hfree := FileTree.linkFree_rawProject
  have hclosed := FileTree.closed_rawProject
  have hplace : (FileTree.rawProject "a").locateToWrite ⟨"report.json"⟩ = .ok ["report.json"] := by
    rw [FileTree.locateToWrite_eq_walk hfree (by decide)]
    rfl
  obtain ⟨value, text, htold, htext, -, hprinted, hfile⟩ :=
    delivered_data quotedFinding true (.rawProject "a")
  obtain ⟨hdelivered, hread⟩ := hfile ⟨"report.json"⟩
  obtain ⟨printed, after, hdeliver⟩ := hdelivered.mpr ⟨_, hplace, by decide⟩
  obtain ⟨rfl, -, hreads⟩ := hread printed after hdeliver
  have hdrifted : value.member? "up_to_date" = some (.truth false) := htold.upToDate_eq.trans rfl
  exact ⟨value, text, after, htold, (htext value).mpr rfl, hdrifted, hprinted, hdeliver,
    hreads hclosed⟩

end Report

end OverlayManifest
