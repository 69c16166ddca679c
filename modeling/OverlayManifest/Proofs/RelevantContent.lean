/-
# What a scan depends on

Of a resource directory without exclude patterns a scan reads which files there are, what
their directories are for, and what stands in those that it parses. Trees in which the same
files of this kind come equally often scan alike, as long as the paths on which directories
are listed and files opened can be used.
-/

import Mathlib.Data.Multiset.MapFold
import OverlayManifest.Proofs.ListedFiles
import OverlayManifest.Proofs.PathLimits
import OverlayManifest.Proofs.ScanUnion

namespace OverlayManifest

/-- What a scan reads of a file: what its directory is for, its name, and its bytes if they
are parsed. -/
structure RelevantPart where
  type : String
  name : FileName
  contents : Option ByteArray

/-- Markup is parsed unless it is raw, or neither its name is a text nor its directory one for
values. -/
def isParsedAt (directory : String) (name : FileName) : Bool :=
  isMarkupName name && partBefore '-' directory != "raw" &&
    (partBefore '-' directory == "values" || name.text?.isSome)

/-- The part of a file that counts, given its directory, its name and its bytes. -/
def relevantPart : String × FileName × ByteArray → RelevantPart
  | (directory, name, bytes) =>
      ⟨partBefore '-' directory, name, if isParsedAt directory name then some bytes else none⟩

namespace RelevantPart

/-- The resource that a file is, unless it is one of values or its name is no text. -/
def own (part : RelevantPart) : List Resource :=
  if part.type = "values" then []
  else (part.name.text?.map fun name => ⟨part.type, partBefore '.' name⟩).toList

/-- The resources that a text declares, as values or by the ids that it creates. -/
def parse (part : RelevantPart) (text : String) : Except Document.Fault (List Resource) :=
  if part.type = "values" then Document.Values.read text else Document.Ids.read text

/-- The resources that a file declares, if what is parsed of it has no fault. -/
def declared? (part : RelevantPart) : Option (List Resource) :=
  match part.contents with
  | none => some part.own
  | some bytes =>
      (FileTree.textOf bytes).toOption.bind fun text =>
        (part.parse text).toOption.map (part.own ++ ·)

end RelevantPart

namespace FileTree

/-- The files that count below a resource directory, as often as they come. -/
def relevant? (tree : FileTree) (resources : Path) : Option (Multiset RelevantPart) :=
  match tree.locate resources with
  | .error _ => none
  | .ok base =>
      if tree.lookup? base = some .directory then
        some (((tree.filesBelow base).filter isListed).map relevantPart)
      else none

/-- The paths on which a scan lists directories and opens files can be used. -/
structure Reaches (tree : FileTree) (resources : Path) : Prop where
  lists : ∀ base (directory : FileName), tree.locate resources = .ok base →
    tree.lookup? (base ++ [directory]) = some .directory → directory.isHidden = false →
      fileFault? (.inside resources directory) = none
  opens : ∀ base directory name bytes, tree.locate resources = .ok base →
    (directory, name, bytes) ∈ tree.filesBelow base → isListed (directory, name, bytes) = true →
    (relevantPart (directory, name, bytes)).contents ≠ none →
      fileFault? (.inside (resources.join ⟨directory⟩) name) = none

theorem relevant?_eq_some_iff {tree : FileTree} {resources : Path}
    {parts : Multiset RelevantPart} :
    tree.relevant? resources = some parts ↔
      ∃ base, tree.locate resources = .ok base ∧ tree.lookup? base = some .directory ∧
        parts = ((tree.filesBelow base).filter isListed).map relevantPart := by
  unfold relevant?
  cases tree.locate resources with
  | error => simp
  | ok base => simp [eq_comm]

end FileTree

namespace FoundFile

variable {resources : Path} {directory : String} {name : FileName} {bytes : ByteArray}

theorem ownResources_eq (directory : String) (name : FileName) (bytes : ByteArray) :
    ownResources directory name = (relevantPart (directory, name, bytes)).own := by
  rw [ownResources, relevantPart, RelevantPart.own]
  rcases DirectoryKind.ofName_cases directory with ⟨hpart, hkind⟩ | ⟨hpart, hkind⟩
  · rw [hkind, if_pos hpart]
  · rw [hkind, if_neg hpart]

theorem parse_under (text : String) :
    (under resources (directory, name, bytes)).parse text =
      (relevantPart (directory, name, bytes)).parse text := by
  rw [parse, under, relevantPart, RelevantPart.parse]
  rcases DirectoryKind.ofName_cases directory with ⟨hpart, hkind⟩ | ⟨hpart, hkind⟩
  · rw [hkind, if_pos hpart]
  · rw [hkind, if_neg hpart]

/-- What a scan parses of a file counts. -/
theorem isParsed_under_iff
    (hstands : (under resources (directory, name, bytes)).StandsIn resources directory name)
    (hlisted : isListed (directory, name, bytes) = true) :
    (under resources (directory, name, bytes)).IsParsed ↔ isParsedAt directory name = true := by
  have hxml := isXml_of_standsIn hstands
  rw [isListed, Bool.or_eq_true, bne_iff_ne] at hlisted
  rw [IsParsed, hstands.kind_eq, hxml, hstands.textName?_eq, isParsedAt]
  rcases DirectoryKind.ofName_cases directory with ⟨hpart, hkind⟩ | ⟨hpart, hkind⟩
  · have hmarkup := hlisted.resolve_left (not_not_intro hpart)
    rw [hkind, hpart]
    simp [hmarkup]
  · rw [hkind]
    simp [hpart, Option.isSome_iff_ne_none, and_assoc]

/-- A file can be read if what counts of it can, and if it can be opened where it has to be. -/
theorem declared_under_eq_ok_iff
    (hstands : (under resources (directory, name, bytes)).StandsIn resources directory name)
    (hlisted : isListed (directory, name, bytes) = true) {declared : List Resource} :
    (under resources (directory, name, bytes)).declared = .ok declared ↔
      ((relevantPart (directory, name, bytes)).contents ≠ none →
        FileTree.fileFault? (.inside (resources.join ⟨directory⟩) name) = none) ∧
      (relevantPart (directory, name, bytes)).declared? = some declared := by
  have hparsed := isParsed_under_iff hstands hlisted
  have hown := ownResources_eq directory name bytes
  by_cases hopened : isParsedAt directory name = true
  · have hcontents : (relevantPart (directory, name, bytes)).contents = some bytes :=
      if_pos hopened
    have hpath : (under resources (directory, name, bytes)).path =
        .inside (resources.join ⟨directory⟩) name := rfl
    rw [declared_of_isParsed hstands (hparsed.mpr hopened), hown, RelevantPart.declared?,
      hcontents, readText, hpath]
    cases hfault : FileTree.fileFault? (.inside (resources.join ⟨directory⟩) name) with
    | some fault => simp [readDocument, Except.map]
    | none =>
        show (readDocument _ (FileTree.textOf bytes) _).map _ = .ok declared ↔ _
        cases htext : FileTree.textOf bytes with
        | error fault => simp [htext, readDocument, Except.map, Except.toOption]
        | ok text =>
            have hparse : (under resources (directory, name, bytes)).parse text =
                (relevantPart (directory, name, bytes)).parse text :=
              parse_under text
            cases hfound : (relevantPart (directory, name, bytes)).parse text with
            | error fault =>
                simp [htext, hparse, hfound, readDocument, Except.map, Except.toOption]
            | ok found =>
                simp [htext, hparse, hfound, readDocument, Except.map, Except.toOption]
  · have hcontents : (relevantPart (directory, name, bytes)).contents = none := if_neg hopened
    rw [declared_of_not_isParsed hstands (mt hparsed.mp hopened), hown, RelevantPart.declared?,
      hcontents]
    simp

end FoundFile

/-- Without patterns, all files are listed that count. -/
theorem Settings.lists_eq_isListed {settings : Settings} (hexclude : settings.exclude = []) :
    settings.lists = isListed := by
  funext ⟨directory, name, bytes⟩
  rw [lists, excludes, hexclude]
  rfl

namespace Scan

variable {tree : FileTree} {settings : Settings} {resources : Path} {base : Location}

/-- Without patterns, the files that count are found. -/
theorem foundFiles_of_locate (hnamed : tree.Named) (hexclude : settings.exclude = [])
    (hlocate : tree.locate resources = .ok base) :
    tree.foundFiles settings resources base =
      ((tree.filesBelow base).filter isListed).map (FoundFile.under resources) := by
  have hfault := (FileTree.locate_eq_ok_iff.mp hlocate).1
  have hresources := (FileTree.textFault?_eq_none_iff.mp hfault).1
  rw [FileTree.foundFiles_eq_map hnamed settings hresources, Settings.lists_eq_isListed hexclude]

/-- Whether such a file can be read depends on what counts of it, and on its path. -/
theorem declared_of_mem (hnamed : tree.Named) {directory : String} {name : FileName} {bytes : ByteArray}
    (hfile : (directory, name, bytes) ∈ (tree.filesBelow base).filter isListed)
    {declared : List Resource} :
    (FoundFile.under resources (directory, name, bytes)).declared = .ok declared ↔
      ((relevantPart (directory, name, bytes)).contents ≠ none →
        FileTree.fileFault? (.inside (resources.join ⟨directory⟩) name) = none) ∧
      (relevantPart (directory, name, bytes)).declared? = some declared := by
  obtain ⟨hfile, hlisted⟩ := List.mem_filter.mp hfile
  exact FoundFile.declared_under_eq_ok_iff (FoundFile.standsIn_under hnamed hfile) hlisted

/-- Without patterns, a scan succeeds if all that counts can be reached and read. -/
theorem exists_collect_iff_relevant (hnamed : tree.Named) (hexclude : settings.exclude = []) :
    (∃ scan, collect tree settings resources = .ok scan) ↔
      ∃ parts, tree.relevant? resources = some parts ∧ tree.Reaches resources ∧
        ∀ part ∈ parts, ∃ declared, part.declared? = some declared := by
  constructor
  · rintro ⟨scan, hscan⟩
    obtain ⟨files, hfind, hdeclared, -⟩ := collect_eq_ok_iff.mp hscan
    obtain ⟨base, hlocate, hdirectory, hlists, rfl⟩ := Discovery.find_eq_ok_iff.mp hfind
    rw [foundFiles_of_locate hnamed hexclude hlocate] at hdeclared
    refine ⟨_, FileTree.relevant?_eq_some_iff.mpr ⟨base, hlocate, hdirectory, rfl⟩, ⟨?_, ?_⟩, ?_⟩
    · intro base' directory hlocate'
      cases hlocate.symm.trans hlocate'
      exact hlists directory
    · intro base' directory name bytes hlocate' hfile hlisted
      cases hlocate.symm.trans hlocate'
      have hmem := List.mem_filter.mpr ⟨hfile, hlisted⟩
      obtain ⟨declared, hread⟩ := hdeclared _ (List.mem_map_of_mem hmem)
      exact ((declared_of_mem hnamed hmem).mp hread).1
    · intro part hpart
      obtain ⟨⟨directory, name, bytes⟩, hmem, rfl⟩ := List.mem_map.mp hpart
      obtain ⟨declared, hread⟩ := hdeclared _ (List.mem_map_of_mem hmem)
      exact ⟨declared, ((declared_of_mem hnamed hmem).mp hread).2⟩
  · rintro ⟨parts, hparts, hreaches, hdeclared⟩
    obtain ⟨base, hlocate, hdirectory, rfl⟩ := FileTree.relevant?_eq_some_iff.mp hparts
    have hfind : Discovery.find tree settings resources =
        .ok (tree.foundFiles settings resources base) :=
      Discovery.find_eq_ok_iff.mpr ⟨base, hlocate, hdirectory,
        fun directory => hreaches.lists base directory hlocate, rfl⟩
    refine ⟨_, collect_eq_ok_iff.mpr ⟨_, hfind, fun file hfile => ?_, rfl⟩⟩
    rw [foundFiles_of_locate hnamed hexclude hlocate] at hfile
    obtain ⟨⟨directory, name, bytes⟩, hmem, rfl⟩ := List.mem_map.mp hfile
    obtain ⟨declared, hread⟩ := hdeclared _ (List.mem_map_of_mem hmem)
    obtain ⟨hbelow, hlisted⟩ := List.mem_filter.mp hmem
    exact ⟨declared, (declared_of_mem hnamed hmem).mpr
      ⟨hreaches.opens base directory name bytes hlocate hbelow hlisted, hread⟩⟩

/-- A scan without patterns finds what the files declare that count. -/
theorem relevant_of_collect (hnamed : tree.Named) (hexclude : settings.exclude = []) {scan : Scan}
    (h : collect tree settings resources = .ok scan) :
    ∃ parts, tree.relevant? resources = some parts ∧ scan.fileCount = parts.card ∧
      ∀ resource, resource ∈ scan.resources ↔
        ∃ part ∈ parts, ∃ declared, part.declared? = some declared ∧ resource ∈ declared := by
  obtain ⟨files, hfind, hdeclared, rfl⟩ := collect_eq_ok_iff.mp h
  obtain ⟨base, hlocate, hdirectory, -, rfl⟩ := Discovery.find_eq_ok_iff.mp hfind
  rw [foundFiles_of_locate hnamed hexclude hlocate] at hdeclared ⊢
  refine ⟨_, FileTree.relevant?_eq_some_iff.mpr ⟨base, hlocate, hdirectory, rfl⟩, ?_, ?_⟩
  · rw [fileCount_foldl_add, List.length_map, Multiset.coe_card, List.length_map]
    exact Nat.zero_add _
  · intro resource
    have hempty : resource ∉ empty.resources := Std.ExtTreeSet.not_mem_empty
    have hcontents (file : String × FileName × ByteArray)
        (hmem : file ∈ (tree.filesBelow base).filter isListed) :
        resource ∈ (FoundFile.under resources file).contents ↔
          ∃ declared, (relevantPart file).declared? = some declared ∧ resource ∈ declared := by
      obtain ⟨directory, name, bytes⟩ := file
      obtain ⟨declared, hread⟩ := hdeclared _ (List.mem_map_of_mem hmem)
      rw [FoundFile.contents, hread, ((declared_of_mem hnamed hmem).mp hread).2]
      simp [Except.toOption]
    simp only [mem_foldl_add, hempty, false_or, List.mem_map, exists_exists_and_eq_and,
      Multiset.mem_coe]
    exact exists_congr fun file => and_congr_right fun hmem => hcontents file hmem

end Scan

/-! ## Places -/

namespace FileTree

/-- What counts of the file under a name in a directory, if one counts there. -/
def partAt? (tree : FileTree) (base : Location) : String × FileName → Option RelevantPart
  | (directory, name) =>
      match tree.lookup? (base ++ [.plain directory]),
        tree.lookup? (base ++ [.plain directory, name]) with
      | some .directory, some (.file bytes) =>
          if FileName.isHidden directory || name.isHidden || !isListed (directory, name, bytes) then
            none
          else some (relevantPart (directory, name, bytes))
      | _, _ => none

variable {tree other : FileTree} {base base' : Location}

theorem partAt?_eq_some_iff {directory : String} {name : FileName} {part : RelevantPart} :
    tree.partAt? base (directory, name) = some part ↔
      ∃ bytes, (directory, name, bytes) ∈ (tree.filesBelow base).filter isListed ∧
        relevantPart (directory, name, bytes) = part := by
  simp only [List.mem_filter, mem_filesBelow]
  rw [partAt?]
  split
  · rename_i bytes hdirectory hfile
    simp [hdirectory, hfile, and_assoc]
  · rename_i hother
    constructor
    · intro h
      cases h
    · rintro ⟨bytes, ⟨⟨hfile, hdirectory, -⟩, -⟩, -⟩
      exact absurd hfile (hother bytes hdirectory)

/-- The places of the files that count. -/
def places (tree : FileTree) (base : Location) : List (String × FileName) :=
  ((tree.filesBelow base).filter isListed).map fun (directory, name, _) => (directory, name)

theorem mem_places_iff {place : String × FileName} :
    place ∈ tree.places base ↔ (tree.partAt? base place).isSome = true := by
  obtain ⟨directory, name⟩ := place
  simp only [Option.isSome_iff_exists, partAt?_eq_some_iff, places, List.mem_map, Prod.exists,
    Prod.mk.injEq]
  constructor
  · rintro ⟨_, _, bytes, hmem, rfl, rfl⟩
    exact ⟨_, bytes, hmem, rfl⟩
  · rintro ⟨_, bytes, hmem, -⟩
    exact ⟨directory, name, bytes, hmem, rfl, rfl⟩

/-- No place comes twice. -/
theorem nodup_places (tree : FileTree) (base : Location) : (tree.places base).Nodup := by
  rw [places, List.nodup_iff_pairwise_ne, List.pairwise_map]
  refine ((pairwise_filesBelow tree base).filter _).imp ?_
  rintro ⟨directory, name, bytes⟩ ⟨directory', name', bytes'⟩ hbefore hsame
  cases hsame
  rw [ComesBefore, Std.compare_self] at hbefore
  cases hbefore

/-- What counts is what counts at the places. -/
theorem map_relevantPart_eq (tree : FileTree) (base : Location) :
    ((tree.filesBelow base).filter isListed).map relevantPart =
      (tree.places base).filterMap (tree.partAt? base) := by
  rw [places, List.filterMap_map, ← List.filterMap_eq_map]
  apply List.filterMap_congr
  rintro ⟨directory, name, bytes⟩ hmem
  exact (partAt?_eq_some_iff.mpr ⟨bytes, hmem, rfl⟩).symm

/-- Where the same counts at the places of two trees, be they named otherwise, the same
counts as often in both. -/
theorem perm_of_places (move : String × FileName ≃ String × FileName)
    (h : ∀ place, tree.partAt? base place = other.partAt? base' (move place)) :
    (((tree.filesBelow base).filter isListed).map relevantPart).Perm
      (((other.filesBelow base').filter isListed).map relevantPart) := by
  have hplaces : ((tree.places base).map move).Perm (other.places base') := by
    rw [List.perm_ext_iff_of_nodup ((nodup_places tree base).map move.injective)
      (nodup_places other base')]
    intro place
    obtain ⟨place, rfl⟩ := move.surjective place
    rw [List.mem_map_of_injective move.injective, mem_places_iff, mem_places_iff, h]
  have hparts : (tree.places base).filterMap (tree.partAt? base) =
      ((tree.places base).map move).filterMap (other.partAt? base') := by
    rw [List.filterMap_map]
    apply List.filterMap_congr
    exact fun place _ => h place
  rw [map_relevantPart_eq, map_relevantPart_eq, hparts]
  exact hplaces.filterMap _

end FileTree

/-! ## Two trees -/

namespace Scan

/-- Two scans both fail, or they find the same resources in as many files. -/
structure Agree (first second : Except Failure Scan) : Prop where
  succeeds_iff : (∃ scan, first = .ok scan) ↔ ∃ scan, second = .ok scan
  found : ∀ scan scan', first = .ok scan → second = .ok scan' →
    scan.resources = scan'.resources ∧ scan.fileCount = scan'.fileCount

variable {tree other : FileTree} {settings : Settings} {resources resources' : Path}

/-- Without patterns, scans agree where the same counts as often, and the paths can be used
in both trees or in neither. The same counts as often where it counts at places that
correspond, whatever else there is. -/
theorem agree_of_relevant (hnamed : tree.Named) (hnamed' : other.Named)
    (hexclude : settings.exclude = []) :
    (tree.relevant? resources = other.relevant? resources' →
      (tree.Reaches resources ↔ other.Reaches resources') →
        Agree (collect tree settings resources) (collect other settings resources')) ∧
    ∀ base base' (move : String × FileName ≃ String × FileName),
      tree.locate resources = .ok base → tree.lookup? base = some .directory →
      other.locate resources' = .ok base' → other.lookup? base' = some .directory →
      (∀ place, tree.partAt? base place = other.partAt? base' (move place)) →
        tree.relevant? resources = other.relevant? resources' := by
  refine ⟨fun hparts hreaches => ⟨?_, ?_⟩, ?_⟩
  · rw [exists_collect_iff_relevant hnamed hexclude, exists_collect_iff_relevant hnamed' hexclude,
      hparts, hreaches]
  · intro scan scan' hscan hscan'
    obtain ⟨parts, hsome, hcount, hfound⟩ := relevant_of_collect hnamed hexclude hscan
    obtain ⟨parts', hsome', hcount', hfound'⟩ := relevant_of_collect hnamed' hexclude hscan'
    obtain rfl : parts = parts' := Option.some.inj (hsome.symm.trans (hparts.trans hsome'))
    refine ⟨Std.ExtTreeSet.ext_mem fun resource => ?_, hcount.trans hcount'.symm⟩
    rw [hfound, hfound']
  · intro base base' move hlocate hdirectory hlocate' hdirectory' hplaces
    rw [FileTree.relevant?_eq_some_iff.mpr ⟨base, hlocate, hdirectory, rfl⟩,
      FileTree.relevant?_eq_some_iff.mpr ⟨base', hlocate', hdirectory', rfl⟩, Option.some.injEq,
      Multiset.coe_eq_coe]
    exact FileTree.perm_of_places move hplaces

/-- The paths can be used if they can for all that is looked at. -/
theorem reaches_of_forall {base : Location} (hlocate : tree.locate resources = .ok base)
    (hlists : Discovery.firstUnlisted? tree resources base = none)
    (hopens : ∀ file ∈ tree.filesBelow base,
      FileTree.fileFault? (.inside (resources.join ⟨file.1⟩) file.2.1) = none) :
    tree.Reaches resources := by
  constructor
  · intro base' directory hlocate' hdirectory hvisible
    cases hlocate.symm.trans hlocate'
    exact Discovery.firstUnlisted?_eq_none_iff.mp hlists directory hdirectory hvisible
  · intro base' directory name bytes hlocate' hfile _ _
    cases hlocate.symm.trans hlocate'
    exact hopens (directory, name, bytes) hfile

/-- A scan succeeds where all files can be read that count. -/
theorem exists_collect_of_forall {base : Location} (hnamed : tree.Named)
    (hexclude : settings.exclude = []) (hlocate : tree.locate resources = .ok base)
    (hdirectory : tree.lookup? base = some .directory) (hreaches : tree.Reaches resources)
    (hdeclared : ∀ file ∈ (tree.filesBelow base).filter isListed,
      (relevantPart file).declared?.isSome = true) :
    ∃ scan, collect tree settings resources = .ok scan := by
  refine (exists_collect_iff_relevant hnamed hexclude).mpr
    ⟨_, FileTree.relevant?_eq_some_iff.mpr ⟨base, hlocate, hdirectory, rfl⟩, hreaches,
      fun part hpart => ?_⟩
  obtain ⟨file, hfile, rfl⟩ := List.mem_map.mp hpart
  exact Option.isSome_iff_exists.mp (hdeclared file hfile)

/-- A project with two values files, of which one has a qualifier, and a raw file. -/
def qualifiedTree : FileTree :=
  .ofEntries [(["res"], .directory), (["res", "raw"], .directory),
    (["res", "raw", "r"], .file "1".toUTF8), (["res", "values"], .directory),
    (["res", "values", "a.xml"], stringFile "a"), (["res", "values-de"], .directory),
    (["res", "values-de", "b.xml"], stringFile "b")]

/-- The same project with other qualifiers and other raw bytes, and with more that does not
count. -/
def clutteredTree : FileTree :=
  .ofEntries [(["res"], .directory), (["res", ".git"], .directory),
    (["res", ".git", "c.xml"], stringFile "c"), (["res", "link"], .link (.ofPath ⟨"values"⟩)),
    (["res", "raw-v21"], .directory), (["res", "raw-v21", "deep"], .directory),
    (["res", "raw-v21", "deep", "d"], .file "".toUTF8),
    (["res", "raw-v21", "r"], .file ⟨#[255]⟩), (["res", "values"], .directory),
    (["res", "values", "b.xml"], stringFile "b"), (["res", "values", "notes.txt"], .file "".toUTF8),
    (["res", "values-land"], .directory), (["res", "values-land", "a.xml"], stringFile "a")]

/-- Both projects can be scanned, and the scans find the same. -/
theorem agree_of_relevant_cluttered : ∃ scan scan',
    collect qualifiedTree {} ⟨"res"⟩ = .ok scan ∧ collect clutteredTree {} ⟨"res"⟩ = .ok scan' ∧
      scan.resources = scan'.resources ∧ scan.fileCount = scan'.fileCount := by
  have hnamed : qualifiedTree.Named := by decide
  have hnamed' : clutteredTree.Named := by decide
  have hlocate : qualifiedTree.locate ⟨"res"⟩ = .ok ["res"] := locate_res rfl rfl
  have hlocate' : clutteredTree.locate ⟨"res"⟩ = .ok ["res"] := locate_res rfl rfl
  have hreaches : qualifiedTree.Reaches ⟨"res"⟩ :=
    reaches_of_forall hlocate rfl (by decide)
  have hreaches' : clutteredTree.Reaches ⟨"res"⟩ :=
    reaches_of_forall hlocate' rfl (by decide)
  have hparts := FileTree.relevant?_eq_some_iff.mpr ⟨["res"], hlocate, rfl, rfl⟩
  have hparts' : clutteredTree.relevant? ⟨"res"⟩ =
      some ((qualifiedTree.filesBelow ["res"]).filter isListed |>.map relevantPart) := by
    refine FileTree.relevant?_eq_some_iff.mpr ⟨["res"], hlocate', rfl, ?_⟩
    exact Multiset.coe_eq_coe.mpr (.cons _ (.swap _ _ _))
  have hexclude : ({} : Settings).exclude = [] := rfl
  have hagree := (agree_of_relevant hnamed hnamed' hexclude).1 (hparts.trans hparts'.symm)
    (iff_of_true hreaches hreaches')
  obtain ⟨scan, hscan⟩ := exists_collect_of_forall hnamed hexclude hlocate rfl hreaches
    (by decide +kernel)
  obtain ⟨scan', hscan'⟩ := hagree.succeeds_iff.mp ⟨scan, hscan⟩
  exact ⟨scan, scan', hscan, hscan', hagree.found scan scan' hscan hscan'⟩

/-- With all these slashes, the file without a qualifier can just be opened. -/
theorem reaches_valuesTree : (valuesTree "values").Reaches (FileTree.slashed "res" 4079) := by
  have hlists {base : Location} {name : FileName}
      (hbase : (valuesTree "values").locate (FileTree.slashed "res" 4079) = .ok base)
      (hname : (valuesTree "values").lookup? (base ++ [name]) = some .directory) :=
    lists_valuesTree (by decide) hbase hname
  refine ⟨fun base directory hbase hdirectory _ => hlists hbase hdirectory, ?_⟩
  intro base directory name bytes hbase hfile _ _
  obtain ⟨-, hdirectory, -⟩ := FileTree.mem_filesBelow.mp hfile
  have hlisted := hlists hbase hdirectory
  rw [locate_valuesTree (by decide) rfl (by decide), Except.ok.injEq] at hbase
  subst hbase
  have hfiles : (valuesTree "values").filesBelow ["res"] =
      [("values", .plain "a.xml", "<resources><string name='a'/></resources>".toUTF8)] := rfl
  rw [hfiles, List.mem_singleton] at hfile
  cases hfile
  refine FileTree.textFault?_join hlisted (by decide) (by decide) ?_
  have hsize := (FileTree.utf8ByteSize_join_join (FileTree.slashed "res" 4079)
    (show '/' ∉ "values".toList by decide) (show '/' ∉ "a.xml".toList by decide)).2
  rw [FileTree.utf8ByteSize_slashed] at hsize
  exact Nat.le_trans hsize (by decide)

/-- The name of a raw directory with a qualifier that is no text. -/
def unnamedQualifier : RawName := ⟨⟨#[0x72, 0x61, 0x77, 0x2d, 0xff]⟩, rfl⟩

/-- A project with a raw file in the directory with that name. -/
def unnamedDirectoryTree : FileTree :=
  .ofEntries [(["res"], .directory), (["res", .raw unnamedQualifier], .directory),
    (["res", .raw unnamedQualifier, "a"], .file "".toUTF8)]

/-- The same counts in two trees of which only one can be scanned, since a qualifier makes
the path of a file too long. And a directory does not count with a qualifier that is no text. -/
theorem not_agree_of_qualifier :
    ((valuesTree "values").Named ∧ (valuesTree "values-de").Named ∧
      (valuesTree "values").relevant? (FileTree.slashed "res" 4079) =
        (valuesTree "values-de").relevant? (FileTree.slashed "res" 4079) ∧
      ¬ Agree (collect (valuesTree "values") {} (FileTree.slashed "res" 4079))
        (collect (valuesTree "values-de") {} (FileTree.slashed "res" 4079))) ∧
    ((FileTree.rawProject "a").Named ∧ unnamedDirectoryTree.Named ∧
      (FileName.raw unnamedQualifier).bytes.takeWhile (· != 0x2d) = Text.bytesOf "raw" ∧
      ¬ Agree (collect (FileTree.rawProject "a") {} ⟨"res"⟩)
        (collect unnamedDirectoryTree {} ⟨"res"⟩)) := by
  have hexclude : ({} : Settings).exclude = [] := rfl
  constructor
  · have hnamed : (valuesTree "values").Named := by decide
    have hnamed' : (valuesTree "values-de").Named := by decide
    have hlocate : (valuesTree "values").locate (FileTree.slashed "res" 4079) = .ok ["res"] :=
      locate_valuesTree (by decide) rfl (by decide)
    have hlocate' : (valuesTree "values-de").locate (FileTree.slashed "res" 4079) = .ok ["res"] :=
      locate_valuesTree (by decide) rfl (by decide)
    have hparts := FileTree.relevant?_eq_some_iff.mpr ⟨["res"], hlocate, rfl, rfl⟩
    have hparts' := FileTree.relevant?_eq_some_iff.mpr ⟨["res"], hlocate', rfl, rfl⟩
    refine ⟨hnamed, hnamed', hparts.trans hparts'.symm, fun hagree => ?_⟩
    have hscan := exists_collect_of_forall hnamed hexclude hlocate rfl reaches_valuesTree
      (by decide +kernel)
    obtain ⟨-, -, hreaches', -⟩ :=
      (exists_collect_iff_relevant hnamed' rfl).mp (hagree.succeeds_iff.mp hscan)
    have hopened := hreaches'.opens ["res"] "values-de" "a.xml" _ hlocate'
      (List.mem_singleton.mpr rfl) rfl (Option.ne_none_iff_isSome.mpr rfl)
    have hsize := (FileTree.utf8ByteSize_join_join (FileTree.slashed "res" 4079)
      (show '/' ∉ "values-de".toList by decide) (show '/' ∉ "a.xml".toList by decide)).1
    rw [FileTree.utf8ByteSize_slashed] at hsize
    have hlong : ¬ "res".utf8ByteSize + 4079 + "values-de".utf8ByteSize + "a.xml".utf8ByteSize ≤
        FileTree.pathLimit := by decide
    exact hlong (Nat.le_trans hsize (FileTree.textFault?_eq_none_iff.mp hopened).2.2)
  · refine ⟨by decide, by decide, rfl, fun hagree => ?_⟩
    have hscan : ∃ scan, collect (FileTree.rawProject "a") {} ⟨"res"⟩ = .ok scan ∧
        scan.fileCount = 1 := by
      rw [collect, Discovery.find, locate_res rfl rfl]
      exact ⟨_, rfl, rfl⟩
    have hscan' : collect unnamedDirectoryTree {} ⟨"res"⟩ = .ok .empty := by
      rw [collect, Discovery.find, locate_res rfl rfl]
      rfl
    obtain ⟨scan, hscan, hcount⟩ := hscan
    cases hcount.symm.trans (hagree.found scan .empty hscan hscan').2

end Scan

end OverlayManifest
