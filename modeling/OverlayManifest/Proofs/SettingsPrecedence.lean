/-
# Which settings win

A run takes its settings from the command line, then from one settings file, then from the
defaults. The file is the one that the command line names, or the first of the six names under
the root that is a file, or there is none. If it cannot be read, or its text gives no overrides,
then there are no settings: no other file stands in for it. What the other files hold does not
matter.
-/

import Mathlib.Data.List.Induction
import OverlayManifest.Program
import OverlayManifest.Proofs.LinkFree

namespace OverlayManifest

open CommandLine

/-! ## What members give -/

namespace Overrides

variable {α β : Type} {read? : α → Option β} {text? : α → Option String}
  {texts? : α → Option (List String)} {key name : String} {value : α}
  {members : List (String × α)} {known result : Option β} {overrides before after : Overrides}

/-- A key is given one value that can be read, or it is given none. -/
def Gives (read? : α → Option β) (key : String) (members : List (String × α))
    (result : Option β) : Prop :=
  (members.filter (·.1 == key)).map (read? ·.2) = result.toList.map some

/-- Overrides are what members give: each setting has a key of its own. -/
structure GivenBy (text? : α → Option String) (texts? : α → Option (List String))
    (members : List (String × α)) (overrides : Overrides) : Prop where
  resources : Gives (fun value => (text? value).map Path.mk) "res_dir" members
    overrides.resources
  manifest : Gives (fun value => (text? value).map Path.mk) "manifest" members
    overrides.manifest
  exclusions : Gives (fun value => (text? value).map Path.mk) "exclusions" members
    overrides.exclusions
  overlayable : Gives text? "overlayable_name" members overrides.overlayable
  policy : Gives text? "policy" members overrides.policy
  exclude : Gives (fun value => (texts? value).map (·.map ExcludePattern.mk)) "exclude" members
    overrides.exclude

/-- A member gives its key a value, which it must not have yet, and nothing to another key. -/
def Adds (read? : α → Option β) (key name : String) (value : α) (known result : Option β) : Prop :=
  if name = key then known = none ∧ ∃ found, read? value = some found ∧ result = some found
  else result = known

theorem gives_nil : Gives read? key [] result ↔ result = none := by
  cases result <;> simp [Gives]

/-- The last member adds to what the others give. -/
theorem gives_concat : Gives read? key (members ++ [(name, value)]) result ↔
    ∃ known, Gives read? key members known ∧ Adds read? key name value known result := by
  by_cases hname : name = key
  · have hsplit : Gives read? key (members ++ [(name, value)]) result ↔
        (members.filter (·.1 == key)).map (read? ·.2) ++ [read? value] =
          result.toList.map some := by
      simp [Gives, List.filter_append, hname]
    have hnone : Gives read? key members none ↔
        (members.filter (·.1 == key)).map (read? ·.2) = [] := Iff.rfl
    rw [hsplit]
    simp only [Adds, if_pos hname]
    constructor
    · intro h
      cases result with
      | none => simp at h
      | some found =>
        have hlast : _ ++ [read? value] = [] ++ [some found] := h
        obtain ⟨hothers, hvalue⟩ := List.append_inj' hlast rfl
        exact ⟨none, hothers, rfl, found, List.singleton_inj.mp hvalue, rfl⟩
    · rintro ⟨_, hothers, rfl, found, hvalue, rfl⟩
      rw [hnone.mp hothers, hvalue]
      rfl
  · simp [Gives, Adds, List.filter_append, hname]

theorem once_eq_some_iff {γ : Type} {known : Option γ} {value : Option β} {make : β → γ}
    {result : Option γ} : once known value make = some result ↔
      known = none ∧ ∃ found, value.map make = some found ∧ result = some found := by
  cases known <;> cases value <;> simp [once, eq_comm]

/-- A member of another key leaves a setting as it is. -/
@[simp]
theorem adds_of_ne (h : name ≠ key) :
    Adds read? key name value known result ↔ known = result := by
  rw [Adds, if_neg h, eq_comm]

/-- A member is added to the setting that its key names, and the others are taken over. -/
theorem map_once_eq_some_iff {γ : Type} (key : String) {known : Option γ} {make : β → γ}
    {replace : Option γ → Overrides} :
    (once known (read? value) make).map replace = some after ↔
      ∃ result, Adds (fun value => (read? value).map make) key key value known result ∧
        replace result = after := by
  simp only [Option.map_eq_some_iff, once_eq_some_iff, Adds, if_pos]

/-- A member adds to each setting. -/
theorem add_eq_some_iff : before.add text? texts? name value = some after ↔
    Adds (fun value => (text? value).map Path.mk) "res_dir" name value before.resources
        after.resources ∧
      Adds (fun value => (text? value).map Path.mk) "manifest" name value before.manifest
        after.manifest ∧
      Adds (fun value => (text? value).map Path.mk) "exclusions" name value before.exclusions
        after.exclusions ∧
      Adds text? "overlayable_name" name value before.overlayable after.overlayable ∧
      Adds text? "policy" name value before.policy after.policy ∧
      Adds (fun value => (texts? value).map (·.map ExcludePattern.mk)) "exclude" name value
        before.exclude after.exclude := by
  obtain ⟨resources, manifest, exclusions, overlayable, policy, exclude⟩ := before
  obtain ⟨resources', manifest', exclusions', overlayable', policy', exclude'⟩ := after
  unfold add
  split
  · simp [map_once_eq_some_iff "res_dir"]
  · simp [map_once_eq_some_iff "manifest", and_left_comm]
  · simp [map_once_eq_some_iff "exclusions", and_left_comm]
  · simp [map_once_eq_some_iff "overlayable_name", and_left_comm]
  · simp [map_once_eq_some_iff "policy", and_left_comm]
  · simp [map_once_eq_some_iff "exclude", and_left_comm]
  · -- The name is none of the keys, so nothing is added.
    rename_i hresources hmanifest hexclusions hoverlayable hpolicy hexclude
    simp [adds_of_ne hresources, adds_of_ne hmanifest, adds_of_ne hexclusions,
      adds_of_ne hoverlayable, adds_of_ne hpolicy, adds_of_ne hexclude]

/-- The last of some members adds to each setting that the others give. -/
theorem givenBy_concat : GivenBy text? texts? (members ++ [(name, value)]) after ↔
    ∃ before, GivenBy text? texts? members before ∧
      add text? texts? before name value = some after := by
  constructor
  · intro h
    obtain ⟨resources, hresources, hresourcesAdds⟩ := gives_concat.mp h.resources
    obtain ⟨manifest, hmanifest, hmanifestAdds⟩ := gives_concat.mp h.manifest
    obtain ⟨exclusions, hexclusions, hexclusionsAdds⟩ := gives_concat.mp h.exclusions
    obtain ⟨overlayable, hoverlayable, hoverlayableAdds⟩ := gives_concat.mp h.overlayable
    obtain ⟨policy, hpolicy, hpolicyAdds⟩ := gives_concat.mp h.policy
    obtain ⟨exclude, hexclude, hexcludeAdds⟩ := gives_concat.mp h.exclude
    exact ⟨⟨resources, manifest, exclusions, overlayable, policy, exclude⟩,
      ⟨hresources, hmanifest, hexclusions, hoverlayable, hpolicy, hexclude⟩,
      add_eq_some_iff.mpr ⟨hresourcesAdds, hmanifestAdds, hexclusionsAdds, hoverlayableAdds,
        hpolicyAdds, hexcludeAdds⟩⟩
  · rintro ⟨before, hbefore, hadd⟩
    obtain ⟨hresources, hmanifest, hexclusions, hoverlayable, hpolicy, hexclude⟩ :=
      add_eq_some_iff.mp hadd
    exact ⟨gives_concat.mpr ⟨_, hbefore.resources, hresources⟩,
      gives_concat.mpr ⟨_, hbefore.manifest, hmanifest⟩,
      gives_concat.mpr ⟨_, hbefore.exclusions, hexclusions⟩,
      gives_concat.mpr ⟨_, hbefore.overlayable, hoverlayable⟩,
      gives_concat.mpr ⟨_, hbefore.policy, hpolicy⟩,
      gives_concat.mpr ⟨_, hbefore.exclude, hexclude⟩⟩

/-- Members are read as the overrides that they give. -/
theorem ofMembers?_eq_some_iff :
    ofMembers? text? texts? members = some overrides ↔ GivenBy text? texts? members overrides := by
  -- The members are added from the first to the last, so the last one is taken off.
  induction members using List.reverseRecOn generalizing overrides with
  | nil =>
      constructor
      · intro h
        cases h
        exact ⟨gives_nil.mpr rfl, gives_nil.mpr rfl, gives_nil.mpr rfl, gives_nil.mpr rfl,
          gives_nil.mpr rfl, gives_nil.mpr rfl⟩
      · intro h
        obtain ⟨resources, manifest, exclusions, overlayable, policy, exclude⟩ := overrides
        cases gives_nil.mp h.resources
        cases gives_nil.mp h.manifest
        cases gives_nil.mp h.exclusions
        cases gives_nil.mp h.overlayable
        cases gives_nil.mp h.policy
        cases gives_nil.mp h.exclude
        rfl
  | append_singleton members member ih =>
      have hfold : ofMembers? text? texts? (members ++ [member]) =
          (ofMembers? text? texts? members).bind fun before =>
            before.add text? texts? member.1 member.2 := by
        rw [ofMembers?, List.foldlM_append]
        simp only [List.foldlM_cons, List.foldlM_nil, bind_pure]
        rfl
      rw [hfold, Option.bind_eq_some_iff, givenBy_concat]
      simp only [ih]

end Overrides

/-! ## What a file gives -/

namespace Settings

variable {tree other : FileTree} {path : Path} {text : String} {overrides : Overrides}

/-- A YAML text gives overrides. -/
def YamlGives (text : String) (overrides : Overrides) : Prop :=
  ∃ document members, Yaml.Document.read? text.toList = some document ∧
    document.members? = some members ∧
    overrides.GivenBy document.text? document.texts? members

/-- A TOML text gives overrides. -/
def TomlGives (text : String) (overrides : Overrides) : Prop :=
  ∃ members, Toml.read? text.toList = some members ∧
    overrides.GivenBy Toml.Value.text? Toml.Value.texts? members

/-- The text of a settings file gives overrides. The extension of the file's path says whether
it is YAML or TOML, and for another extension it is TOML only if it is no YAML. -/
inductive TextGives (path : Path) (text : String) (overrides : Overrides) : Prop
  | yaml (hextension : path.extension? = some "yml" ∨ path.extension? = some "yaml")
      (hgives : YamlGives text overrides)
  | toml (hextension : path.extension? = some "toml") (hgives : TomlGives text overrides)
  | otherYaml (hextension : ∀ known ∈ ["yml", "yaml", "toml"], path.extension? ≠ some known)
      (hgives : YamlGives text overrides)
  | otherToml (hextension : ∀ known ∈ ["yml", "yaml", "toml"], path.extension? ≠ some known)
      (hyaml : ∀ others, ¬ YamlGives text others) (hgives : TomlGives text overrides)

theorem ofYaml?_eq_some_iff : ofYaml? text = some overrides ↔ YamlGives text overrides := by
  simp [ofYaml?, YamlGives, Option.bind_eq_some_iff, Overrides.ofMembers?_eq_some_iff]

theorem ofToml?_eq_some_iff : ofToml? text = some overrides ↔ TomlGives text overrides := by
  simp [ofToml?, TomlGives, Option.bind_eq_some_iff, Overrides.ofMembers?_eq_some_iff]

/-- A text with an extension for YAML gives what it gives as YAML. -/
theorem textGives_iff_yaml (h : path.extension? = some "yml" ∨ path.extension? = some "yaml") :
    TextGives path text overrides ↔ YamlGives text overrides := by
  refine ⟨fun hgives => ?_, .yaml h⟩
  cases hgives with
  | yaml _ hgives => exact hgives
  | toml htoml => simp [htoml] at h
  | otherYaml _ hgives => exact hgives
  | otherToml hother => simp_all

/-- A text with the extension for TOML gives what it gives as TOML. -/
theorem textGives_iff_toml (h : path.extension? = some "toml") :
    TextGives path text overrides ↔ TomlGives text overrides := by
  refine ⟨fun hgives => ?_, .toml h⟩
  cases hgives with
  | yaml hyaml => simp [h] at hyaml
  | toml _ hgives => exact hgives
  | otherYaml hother => simp_all
  | otherToml _ _ hgives => exact hgives

/-- A text with another extension gives what it gives as YAML, or else as TOML. -/
theorem textGives_iff_other
    (h : ∀ known ∈ ["yml", "yaml", "toml"], path.extension? ≠ some known) :
    TextGives path text overrides ↔ YamlGives text overrides ∨
      (∀ others, ¬ YamlGives text others) ∧ TomlGives text overrides := by
  constructor
  · intro hgives
    cases hgives with
    | yaml _ hgives | otherYaml _ hgives => exact .inl hgives
    | toml htoml => exact absurd htoml (h "toml" (by simp))
    | otherToml _ hyaml hgives => exact .inr ⟨hyaml, hgives⟩
  · rintro (hgives | ⟨hyaml, hgives⟩)
    · exact .otherYaml h hgives
    · exact .otherToml h hyaml hgives

/-- A text is read as the overrides that it gives. -/
theorem ofText_eq_ok_iff : ofText path text = .ok overrides ↔ TextGives path text overrides := by
  unfold ofText
  split
  · rename_i hextension
    rw [textGives_iff_yaml (.inl hextension), ← ofYaml?_eq_some_iff]
    cases ofYaml? text <;> simp
  · rename_i hextension
    rw [textGives_iff_yaml (.inr hextension), ← ofYaml?_eq_some_iff]
    cases ofYaml? text <;> simp
  · rename_i hextension
    rw [textGives_iff_toml hextension, ← ofToml?_eq_some_iff]
    cases ofToml? text <;> simp
  · rename_i hyml hyaml htoml
    have hother : ∀ known ∈ ["yml", "yaml", "toml"], path.extension? ≠ some known := by
      simp_all
    rw [textGives_iff_other hother]
    simp only [← ofYaml?_eq_some_iff, ← ofToml?_eq_some_iff]
    cases ofYaml? text <;> cases ofToml? text <;> simp

end Settings

/-! ## Trees with other contents -/

namespace FileTree

/-- Two trees have the same directories, links and files, and may differ in what files hold. -/
structure SameShape (tree other : FileTree) : Prop where
  workingDirectory_eq : other.workingDirectory = tree.workingDirectory
  lookup?_cases : ∀ location, other.lookup? location = tree.lookup? location ∨
    (∃ bytes, tree.lookup? location = some (.file bytes)) ∧
      ∃ bytes, other.lookup? location = some (.file bytes)

namespace SameShape

variable {tree other : FileTree}

theorem symm (h : tree.SameShape other) : other.SameShape tree where
  workingDirectory_eq := h.workingDirectory_eq.symm
  lookup?_cases location := (h.lookup?_cases location).imp Eq.symm And.symm

/-- What is no file stands in both trees. -/
theorem lookup?_of_lookup? (h : tree.SameShape other) {location : Location} {entry : Entry}
    (hentry : tree.lookup? location = some entry) (hfile : ∀ bytes, entry ≠ .file bytes) :
    other.lookup? location = some entry := by
  rcases h.lookup?_cases location with hsame | ⟨⟨bytes, hbytes⟩, -⟩
  · exact hsame.trans hentry
  · rw [hbytes, Option.some.injEq] at hentry
    exact absurd hentry.symm (hfile bytes)

theorem keeps (h : tree.SameShape other) : Keeps tree other where
  workingDirectory_eq := h.workingDirectory_eq
  directory hdirectory := h.lookup?_of_lookup? hdirectory (by simp)
  link_iff := ⟨fun hlink => h.symm.lookup?_of_lookup? hlink (by simp),
    fun hlink => h.lookup?_of_lookup? hlink (by simp)⟩

/-- A path leads to a file in both trees, or in none. -/
theorem hasFile_of_hasFile (h : tree.SameShape other) {path : Path}
    (hfile : tree.hasFile path = true) : other.hasFile path = true := by
  obtain ⟨location, bytes, hlocation, hbytes⟩ := hasFile_iff.mp hfile
  have hplace := locate_of_keeps h.keeps hlocation
  rcases h.lookup?_cases location with hsame | ⟨-, others, hothers⟩
  · exact hasFile_iff.mpr ⟨location, bytes, hplace, hsame.trans hbytes⟩
  · exact hasFile_iff.mpr ⟨location, others, hplace, hothers⟩

theorem hasFile_eq (h : tree.SameShape other) {path : Path} :
    other.hasFile path = tree.hasFile path :=
  Bool.eq_iff_iff.mpr ⟨h.symm.hasFile_of_hasFile, h.hasFile_of_hasFile⟩

/-- Writing a file anew changes no more than what it holds. -/
theorem of_set {place : Location} {old : ByteArray}
    (hplace : tree.lookup? place = some (.file old)) (bytes : ByteArray) :
    tree.SameShape (tree.set place (.file bytes)) where
  workingDirectory_eq := rfl
  lookup?_cases location := by
    by_cases hroot : location = []
    · rw [hroot, lookup?_nil, lookup?_nil]
      exact .inl rfl
    · rw [lookup?_set _ _ _ _ hroot]
      by_cases hhere : place = location
      · rw [if_pos hhere, ← hhere]
        exact .inr ⟨⟨old, hplace⟩, bytes, rfl⟩
      · rw [if_neg hhere]
        exact .inl rfl

end SameShape

end FileTree

/-! ## The settings of a run -/

namespace CommandLine.Arguments

variable {arguments : Arguments} {tree other : FileTree}

/-- The settings file of a run: the one that the command line names, else the first of the
project's names that leads to a file, else none. -/
inductive Chooses (arguments : Arguments) (tree : FileTree) : Option Path → Prop
  | named {path : Path} (hconfig : arguments.config = some path) :
      Chooses arguments tree (some path)
  | first {before after : List String} {name : String} (hconfig : arguments.config = none)
      (hnames : Settings.fileNames = before ++ name :: after)
      (hfile : tree.hasFile (arguments.root.join ⟨name⟩) = true)
      (hbefore : ∀ other ∈ before, tree.hasFile (arguments.root.join ⟨other⟩) = false) :
      Chooses arguments tree (some (arguments.root.join ⟨name⟩))
  | nothing (hconfig : arguments.config = none)
      (hnames : ∀ name ∈ Settings.fileNames,
        tree.hasFile (arguments.root.join ⟨name⟩) = false) : Chooses arguments tree none

/-- The file that a run looks for is the one that is chosen. -/
theorem chooses_iff {chosen : Option Path} : arguments.Chooses tree chosen ↔
    chosen = arguments.config.or (Settings.fileOf? tree arguments.root) := by
  have hfind : Settings.fileOf? tree arguments.root =
      (Settings.fileNames.find? fun name => tree.hasFile (arguments.root.join ⟨name⟩)).map
        fun name => arguments.root.join ⟨name⟩ := List.find?_map ..
  constructor
  · rintro (hconfig | ⟨hconfig, hnames, hfile, hbefore⟩ | ⟨hconfig, hnames⟩)
    · rw [hconfig, Option.some_or]
    · have hfirst : (Settings.fileNames.find? fun name =>
          tree.hasFile (arguments.root.join ⟨name⟩)) = some _ :=
        List.find?_eq_some_iff_append.mpr ⟨hfile, _, _, hnames, by simpa using hbefore⟩
      rw [hconfig, Option.none_or, hfind, hfirst, Option.map_some]
    · have hnone : (Settings.fileNames.find? fun name =>
          tree.hasFile (arguments.root.join ⟨name⟩)) = none :=
        List.find?_eq_none.mpr fun name hname => Bool.eq_false_iff.mp (hnames name hname)
      rw [hconfig, Option.none_or, hfind, hnone, Option.map_none]
  · rintro rfl
    cases hconfig : arguments.config with
    | some path => exact .named hconfig
    | none =>
        rw [Option.none_or, hfind]
        cases hname : Settings.fileNames.find?
            fun name => tree.hasFile (arguments.root.join ⟨name⟩) with
        | none =>
            exact .nothing hconfig fun name hmem =>
              Bool.eq_false_iff.mpr (List.find?_eq_none.mp hname name hmem)
        | some name =>
            obtain ⟨hfile, before, after, hnames, hbefore⟩ :=
              List.find?_eq_some_iff_append.mp hname
            exact .first hconfig hnames hfile (by simpa using hbefore)

/-- A run takes the settings of the chosen file, or the defaults without a file, and replaces
those that the command line names. -/
theorem settings_of_chooses {chosen : Option Path} (h : arguments.Chooses tree chosen) :
    arguments.settings tree =
      ((chosen.map (Settings.ofFile tree)).getD (.ok {})).map arguments.overrides.applyTo := by
  rw [chooses_iff.mp h, settings, Settings.ofProject]
  cases arguments.config with
  | some path => rfl
  | none =>
      dsimp only
      cases Settings.fileOf? tree arguments.root <;> rfl

/-- Where the names under the root lead to nothing, a run takes the defaults. -/
theorem settings_of_missing (hconfig : arguments.config = none)
    (hnames : ∀ name ∈ Settings.fileNames,
      tree.find? (arguments.root.join ⟨name⟩) = .error .notFound) :
    arguments.settings tree = .ok (arguments.overrides.applyTo {}) := by
  refine settings_of_chooses (.nothing hconfig fun name hname => ?_)
  rw [FileTree.hasFile, hnames name hname]

/-- Each setting is that of the command line, if it has one, else that of the file, if it has
one, else the default. -/
structure Settles (arguments : Arguments) (given : Overrides) (settings : Settings) : Prop where
  resources : settings.resources = (arguments.resources.or given.resources).getD ⟨"res"⟩
  manifest : settings.manifest =
    (arguments.manifest.or given.manifest).getD ⟨"res/values/overlayable.xml"⟩
  exclusions : settings.exclusions =
    (arguments.exclusions.or given.exclusions).getD ⟨"chassis_overlayable.xml"⟩
  overlayable : settings.overlayable = given.overlayable.getD "CarSettings"
  policy : settings.policy = given.policy.getD "public"
  exclude : settings.exclude = given.exclude.getD []

theorem settles_iff {given : Overrides} {settings : Settings} :
    arguments.Settles given settings ↔
      arguments.overrides.applyTo (given.applyTo {}) = settings := by
  constructor
  · rintro ⟨hresources, hmanifest, hexclusions, hoverlayable, hpolicy, hexclude⟩
    obtain ⟨resources, manifest, exclusions, overlayable, policy, exclude⟩ := settings
    subst hresources hmanifest hexclusions hoverlayable hpolicy hexclude
    simp [Overrides.applyTo, overrides, Option.getD_or]
  · rintro rfl
    constructor <;> simp [Overrides.applyTo, overrides, Option.getD_or]

/-- The settings of a run with a settings file are settled by what the file gives. -/
theorem settings_eq_ok_iff {path : Path} (h : arguments.Chooses tree (some path))
    {settings : Settings} : arguments.settings tree = .ok settings ↔
      ∃ text given, tree.readText path = .ok text ∧ Settings.TextGives path text given ∧
        arguments.Settles given settings := by
  simp only [settles_iff, ← Settings.ofText_eq_ok_iff]
  rw [settings_of_chooses h, Option.map_some, Option.getD_some, Settings.ofFile]
  cases tree.readText path with
  | error fault => simp [Except.map]
  | ok text =>
      dsimp only
      cases hgiven : Settings.ofText path text <;> simp [Except.map, hgiven]

/-- Trees that differ only in what their files hold have the same files to choose from. -/
theorem Chooses.of_sameShape {chosen : Option Path} (h : arguments.Chooses tree chosen)
    (hshape : tree.SameShape other) : arguments.Chooses other chosen := by
  cases h with
  | named hconfig => exact .named hconfig
  | first hconfig hnames hfile hbefore =>
      refine .first hconfig hnames (hshape.hasFile_eq.trans hfile) fun name hname => ?_
      exact hshape.hasFile_eq.trans (hbefore name hname)
  | nothing hconfig hnames =>
      exact .nothing hconfig fun name hname => hshape.hasFile_eq.trans (hnames name hname)

/-- A run chooses one settings file or none. Without one its settings are those of the command
line, and else the defaults. With one, they are those of the command line, else those that the
file gives, and else the defaults; and where the file cannot be read or gives nothing, there are
none. What another file holds does not matter. -/
theorem settings_precedence (arguments : Arguments) (tree : FileTree) :
    ∃ chosen, (∀ another, arguments.Chooses tree another ↔ another = chosen) ∧
      (chosen = none → ∀ settings,
        arguments.settings tree = .ok settings ↔ arguments.Settles {} settings) ∧
      (∀ path, chosen = some path →
        (∀ settings, arguments.settings tree = .ok settings ↔
          ∃ text given, tree.readText path = .ok text ∧ Settings.TextGives path text given ∧
            arguments.Settles given settings) ∧
        ((∀ text given, tree.readText path = .ok text → ¬ Settings.TextGives path text given) →
          ∃ fault, arguments.settings tree = .error fault)) ∧
      ∀ other, tree.SameShape other →
        (∀ path, chosen = some path → other.readText path = tree.readText path) →
        arguments.settings other = arguments.settings tree := by
  let chosen := arguments.config.or (Settings.fileOf? tree arguments.root)
  have hchosen : arguments.Chooses tree chosen := chooses_iff.mpr rfl
  refine ⟨chosen, fun another => chooses_iff, fun hnone settings => ?_,
    fun path hpath => ⟨fun settings => ?_, fun hnothing => ?_⟩, fun other hshape hread => ?_⟩
  · rw [hnone] at hchosen
    rw [settings_of_chooses hchosen, settles_iff]
    exact ⟨Except.ok.inj, congrArg Except.ok⟩
  · rw [hpath] at hchosen
    exact settings_eq_ok_iff hchosen
  · rw [hpath] at hchosen
    cases hsettings : arguments.settings tree with
    | error fault => exact ⟨fault, rfl⟩
    | ok settings =>
        obtain ⟨text, given, htext, hgives, -⟩ := (settings_eq_ok_iff hchosen).mp hsettings
        exact absurd hgives (hnothing text given htext)
  · rw [settings_of_chooses hchosen, settings_of_chooses (hchosen.of_sameShape hshape)]
    cases hpath : chosen with
    | none => rfl
    | some path =>
        have hfile : Settings.ofFile other path = Settings.ofFile tree path := by
          rw [Settings.ofFile, Settings.ofFile, hread path hpath]
        rw [Option.map_some, Option.map_some, hfile]

/-- What the first file of a project gives. -/
def rivalText : String := "manifest: out.xml\npolicy: system\n"

/-- A project with a directory under the first name, and two files that give settings. -/
def rivalsTree : FileTree :=
  .ofEntries [([".overlayable.toml"], .directory), ([".overlayable.yml"], .file rivalText.toUTF8),
    (["overlayable.toml"], .file "policy = 'odm'".toUTF8)]

/-- The same project, where the last file gives nothing. -/
def brokenRivalTree : FileTree := rivalsTree.set ["overlayable.toml"] (.file "policy = [".toUTF8)

/-- Arguments that name the resources. -/
def argumentsForResources : Arguments := { resources := some ⟨"app/res"⟩ }

theorem sameShape_rivals : rivalsTree.SameShape brokenRivalTree := by
  have hfile : rivalsTree.lookup? ["overlayable.toml"] =
      some (.file "policy = 'odm'".toUTF8) := by decide
  exact .of_set hfile _

theorem locate_rivals : rivalsTree.locate ⟨"./.overlayable.yml"⟩ = .ok [".overlayable.yml"] := by
  have hfree : rivalsTree.LinkFree := by decide
  rw [FileTree.locate_eq_walk hfree (by decide)]
  rfl

/-- The directory is passed over. -/
theorem chooses_rivals :
    argumentsForResources.Chooses rivalsTree (some ⟨"./.overlayable.yml"⟩) := by
  have hfree : rivalsTree.LinkFree := by decide
  have hjoin : argumentsForResources.root.join ⟨".overlayable.toml"⟩ =
      ⟨"./.overlayable.toml"⟩ := by decide
  have hpath : argumentsForResources.root.join ⟨".overlayable.yml"⟩ =
      ⟨"./.overlayable.yml"⟩ := by decide
  have hdirectory : rivalsTree.hasFile ⟨"./.overlayable.toml"⟩ = false := by
    rw [FileTree.hasFile, FileTree.find?, FileTree.locate_eq_walk hfree (by decide)]
    rfl
  have hfile : rivalsTree.hasFile ⟨"./.overlayable.yml"⟩ = true :=
    FileTree.hasFile_iff.mpr ⟨_, rivalText.toUTF8, locate_rivals, by decide⟩
  have hnames : Settings.fileNames = [".overlayable.toml"] ++ ".overlayable.yml" :: _ := rfl
  rw [← hpath] at hfile ⊢
  refine .first rfl hnames hfile fun name hname => ?_
  rw [List.mem_singleton.mp hname, hjoin]
  exact hdirectory

/-- The first of the two files is chosen, and the other one may hold anything. -/
theorem settings_precedence_rivals : ∃ settings,
    argumentsForResources.settings rivalsTree = .ok settings ∧
      argumentsForResources.settings brokenRivalTree = .ok settings ∧
      settings.resources = ⟨"app/res"⟩ ∧ settings.manifest = ⟨"out.xml"⟩ ∧
      settings.policy = "system" ∧ settings.exclusions = ⟨"chassis_overlayable.xml"⟩ := by
  have hread {tree : FileTree} (hlocate : tree.locate ⟨"./.overlayable.yml"⟩ =
      .ok [".overlayable.yml"])
      (hbytes : tree.lookup? [".overlayable.yml"] = some (.file rivalText.toUTF8)) :
      tree.readText ⟨"./.overlayable.yml"⟩ = .ok rivalText := by
    have hfound := FileTree.find?_eq_ok_iff.mpr ⟨_, hlocate, hbytes⟩
    simp only [FileTree.readText, FileTree.readBytes, hfound, FileTree.textOf_toUTF8]
  have htext : rivalsTree.readText ⟨"./.overlayable.yml"⟩ = .ok rivalText :=
    hread locate_rivals (by decide)
  have hbroken : brokenRivalTree.readText ⟨"./.overlayable.yml"⟩ = .ok rivalText :=
    hread (FileTree.locate_of_keeps sameShape_rivals.keeps locate_rivals) (by decide)
  have hgives : Settings.TextGives ⟨"./.overlayable.yml"⟩ rivalText
      { manifest := some ⟨"out.xml"⟩, policy := some "system" } :=
    Settings.ofText_eq_ok_iff.mp (by decide +kernel)
  obtain ⟨chosen, hchosen, -, hfile, haside⟩ := settings_precedence argumentsForResources rivalsTree
  obtain rfl := (hchosen _).mp chooses_rivals
  have hsettings := ((hfile _ rfl).1 _).mpr ⟨_, _, htext, hgives, settles_iff.mpr rfl⟩
  have hsame := haside brokenRivalTree sameShape_rivals fun path hpath => by
    cases hpath
    rw [hbroken, htext]
  exact ⟨_, hsettings, hsame.trans hsettings, rfl, rfl, rfl, rfl⟩

end CommandLine.Arguments

end OverlayManifest
