/-
# The tags of a rendered manifest

A rendered manifest is read as the tags that were written: the root, the
overlayable, the policy and one single tag for each resource, with the name, the
policy and the resources as attributes. The declaration and the comments above
the root are passed over, whatever the year.
-/

import OverlayManifest.Proofs.WrittenMarkup

namespace OverlayManifest.Manifest

open Xml

/-! ## The tags -/

def rootTag : Tag := .written "resources".toList []

def overlayableTag (name : String) : Tag := .written "overlayable".toList [("name", name)]

def policyTag (policy : String) : Tag := .written "policy".toList [("type", policy)]

def itemTag (resource : Resource) : Tag :=
  .written "item".toList [("type", resource.type), ("name", resource.name)]

/-- The tags of the policy; without resources it is a single tag. -/
def policyTokens (policy : String) : List Resource → List Token
  | [] => [.single (policyTag policy)]
  | resource :: resources =>
      .opening (policyTag policy) ::
        ((resource :: resources).map (Token.single ∘ itemTag) ++
          [.closing (policyTag policy).name])

/-- The tags of the document. -/
def tokens (manifest : Manifest) : List Token :=
  .opening rootTag ::
    (.opening (overlayableTag manifest.overlayable) ::
        (policyTokens manifest.policy manifest.resources.toList ++
          [.closing (overlayableTag manifest.overlayable).name]) ++
      [.closing rootTag.name])

theorem isWritten_root : IsWritten "resources".toList [] := by decide

theorem isWritten_overlayable (name : String) :
    IsWritten "overlayable".toList [("name", name)] :=
  ⟨by decide, by simp only [List.mem_singleton, forall_eq]; decide, by simp⟩

theorem isWritten_policy (policy : String) : IsWritten "policy".toList [("type", policy)] :=
  ⟨by decide, by simp only [List.mem_singleton, forall_eq]; decide, by simp⟩

theorem isWritten_item (resource : Resource) :
    IsWritten "item".toList [("type", resource.type), ("name", resource.name)] :=
  ⟨by decide,
    by simp only [List.forall_mem_cons, List.mem_singleton, forall_eq]; decide,
    by simp⟩

/-- The tags are properly nested. -/
theorem balanced_tokens (manifest : Manifest) : Balanced manifest.tokens := by
  have hpolicy : Balanced (policyTokens manifest.policy manifest.resources.toList) := by
    unfold policyTokens
    split
    · exact .single _
    · rw [← List.map_map]
      exact (Balanced.singles _).element
        (closingName_of_isName (isWritten_policy manifest.policy).name_isName)
  exact (hpolicy.element
    (closingName_of_isName (isWritten_overlayable manifest.overlayable).name_isName)).element
      (closingName_of_isName isWritten_root.name_isName)

/-! ## The lines -/

/-- A line break after a piece, and blanks before it, are passed over. -/
theorem readsAs_line (indent : List Char) {piece : List Char} {found : List Token}
    (hindent : '<' ∉ indent) (h : ReadsAs piece found) :
    ReadsAs (indent ++ piece ++ ['\n']) found := by
  have hbreak : '<' ∉ ['\n'] := by decide
  have hline := ((ReadsAs.data hindent).append h).append (.data hbreak)
  rwa [List.nil_append, List.append_nil] at hline

/-- Years are written with digits and a sign. -/
theorem close_not_mem_toString (year : Int) : '>' ∉ (toString year).toList :=
  Text.notMem_toString (by decide) (by decide) year

/-- The licence ends where its comment was written to end. -/
theorem close_not_mem_licence (year : Int) : '>' ∉ (licence year).toList := by
  have hyear := close_not_mem_toString year
  unfold licence
  simp only [String.toList_append, List.mem_append, not_or, hyear, not_false_eq_true, and_true]
  and_intros
  all_goals
    -- The characters of a literal are given; they need not be decoded from its bytes.
    rw [String.toList_ofList]
    decide

theorem readsAs_itemLine (resource : Resource) :
    ReadsAs (itemLine resource).toList [.single (itemTag resource)] := by
  have hline := readsAs_line "      ".toList (by decide) (.single (isWritten_item resource))
  simpa [itemLine, itemTag, writtenAttributes] using hline

/-- The lines of a list of resources. -/
theorem readsAs_itemLines (resources : List Resource) :
    ReadsAs ((resources.map itemLine).flatMap String.toList)
      (resources.map (Token.single ∘ itemTag)) := by
  induction resources with
  | nil => exact ReadsAs.data (by simp)
  | cons resource resources ih => exact (readsAs_itemLine resource).append ih

theorem readsAs_policyLines (policy : String) (resources : List Resource) :
    ReadsAs ((policyLines policy resources).flatMap String.toList)
      (policyTokens policy resources) := by
  cases resources with
  | nil =>
      have hline := readsAs_line "    ".toList (by decide) (.single (isWritten_policy policy))
      simpa [policyLines, policyTokens, policyTag, writtenAttributes] using hline
  | cons resource resources =>
      have hopen := readsAs_line "    ".toList (by decide) (.opening (isWritten_policy policy))
      have hclose := readsAs_line "    ".toList (by decide)
        (ReadsAs.closing (by decide : '>' ∉ "policy".toList))
      have hall := (hopen.append (readsAs_itemLines (resource :: resources))).append hclose
      simpa [policyLines, policyTokens, policyTag, Tag.written, writtenAttributes] using hall

/-- The lines above the root are passed over. -/
theorem readsAs_header (year : Int) :
    ReadsAs (["<?xml version='1.0' encoding='utf-8'?>\n", "<!--" ++ licence year ++ "-->\n",
      "<!--" ++ notice ++ "-->\n"].flatMap String.toList) [] := by
  have hdeclaration := readsAs_line [] (by decide)
    (ReadsAs.instruction (by decide : '>' ∉ "xml version='1.0' encoding='utf-8'".toList)
      (by decide))
  have hcomment {body : List Char} (h : '>' ∉ body) : ¬ ['-', '-', '>'] <:+: body :=
    fun hend => h (hend.subset (by simp))
  have hlicence := readsAs_line [] (by decide) (.comment (hcomment (close_not_mem_licence year)))
  have hnotice := readsAs_line [] (by decide)
    (ReadsAs.comment (hcomment (by decide : '>' ∉ notice.toList)))
  have hall := (hdeclaration.append hlicence).append hnotice
  simpa using hall

/-- A rendered manifest is read as its tags. -/
theorem read_render (manifest : Manifest) :
    Xml.read manifest.render = .prepend manifest.tokens .done := by
  have hroot := readsAs_line [] (by decide) (.opening isWritten_root)
  have hoverlayable := readsAs_line "  ".toList (by decide)
    (.opening (isWritten_overlayable manifest.overlayable))
  have hpolicy := readsAs_policyLines manifest.policy manifest.resources.toList
  have hcloseOverlayable := readsAs_line "  ".toList (by decide)
    (ReadsAs.closing (by decide : '>' ∉ "overlayable".toList))
  have hcloseRoot := readsAs_line [] (by decide)
    (ReadsAs.closing (by decide : '>' ∉ "resources".toList))
  have hall := ((((readsAs_header manifest.year).append hroot).append hoverlayable).append
    hpolicy).append (hcloseOverlayable.append hcloseRoot)
  have htext : ReadsAs manifest.render.toList manifest.tokens := by
    rw [render, String.toList_join]
    simpa [lines, Manifest.tokens, rootTag, overlayableTag, Tag.written, writtenAttributes]
      using hall
  exact read_of_readsAs htext (balanced_tokens manifest)

end OverlayManifest.Manifest
