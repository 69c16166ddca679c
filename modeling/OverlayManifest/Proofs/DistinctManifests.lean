/-
# Distinct manifests have distinct documents

Every part of a manifest can be told from its document. The name and the policy are the texts
of attributes that are read back, the resources are what the document lists, and the year
stands between fixed words of the licence and has no blank. No part can therefore be written so
that it passes for another.
-/

import OverlayManifest.Proofs.ManifestContents
import OverlayManifest.Proofs.ResourceOrder
import Std.Data.String.ToInt

namespace OverlayManifest.Manifest

open Xml Document

/-! ## Names, policies and resources -/

theorem overlayableTag_injective : Function.Injective overlayableTag := by
  intro first second h
  have hname (name : String) : (overlayableTag name).attribute? "name" = .ok (some name) :=
    (isWritten_overlayable name).attribute?_eq "name"
  have hsame := congrArg (Tag.attribute? · "name") h
  rw [hname, hname] at hsame
  exact Option.some.inj (Except.ok.inj hsame)

theorem policyTag_injective : Function.Injective policyTag := by
  intro first second h
  have htype (policy : String) : (policyTag policy).attribute? "type" = .ok (some policy) :=
    (isWritten_policy policy).attribute?_eq "type"
  have hsame := congrArg (Tag.attribute? · "type") h
  rw [htype, htype] at hsame
  exact Option.some.inj (Except.ok.inj hsame)

/-- The tag of the policy comes first among its tags, with resources or without. -/
theorem policy_eq_of_policyTokens {first second : String} {resources : List Resource}
    {rest rest' : Reading Xml.Fault Token}
    (h : Reading.prepend (policyTokens first resources) rest =
      .prepend (policyTokens second resources) rest') : first = second := by
  cases resources with
  | nil =>
      rw [policyTokens, policyTokens, Reading.prepend_cons, Reading.prepend_cons] at h
      exact policyTag_injective (Token.single.inj (Reading.item.inj h).1)
  | cons resource resources =>
      rw [policyTokens, policyTokens, Reading.prepend_cons, Reading.prepend_cons] at h
      exact policyTag_injective (Token.opening.inj (Reading.item.inj h).1)

variable {first second : Manifest}

/-- Documents with the same text list the same resources. -/
theorem resources_eq_of_text (h : first.render = second.render) :
    first.resources = second.resources := by
  have hlisted := congrArg Listing.read h
  rw [read_listing, read_listing] at hlisted
  have hsets := congrArg ResourceSet.ofList (Except.ok.inj hlisted)
  rwa [ResourceSet.ofList_toList, ResourceSet.ofList_toList] at hsets

/-- Documents with the same text have the same tags. -/
theorem names_eq_of_text (h : first.render = second.render) :
    first.overlayable = second.overlayable ∧ first.policy = second.policy := by
  have hread := congrArg Xml.read h
  rw [read_render, read_render, prepend_tokens, prepend_tokens, resources_eq_of_text h] at hread
  obtain ⟨hoverlayable, hpolicy⟩ := Reading.item.inj (Reading.item.inj hread).2
  exact ⟨overlayableTag_injective (Token.opening.inj hoverlayable),
    policy_eq_of_policyTokens hpolicy⟩

/-! ## Years -/

/-- A year has no blank, so it ends where the words after it begin. -/
theorem blank_notMem_toString (year : Int) : ' ' ∉ (toString year).toList :=
  Text.notMem_toString (by decide) (by decide) year

/-- What stands in a document before the year. -/
def beforeYear : String := "<?xml version='1.0' encoding='utf-8'?>\n" ++ "<!--" ++ "\n  Copyright (C) "

/-- What stands in a document behind the year. -/
def behindYear : String := " The Android Open Source Project\n"

/-- The year of a licence stands between words that are always the same. -/
theorem exists_licence_eq (year : Int) : ∃ words,
    licence year = "\n  Copyright (C) " ++ (toString year ++ (behindYear ++ words)) := by
  unfold licence
  -- literals stay apart, so that the year keeps its place between them
  simp only [String.append_assoc, -String.reduceAppend]
  exact ⟨_, rfl⟩

/-- The year of a document stands between words that are always the same. -/
theorem exists_render_eq (manifest : Manifest) : ∃ words,
    manifest.render = beforeYear ++ (toString manifest.year ++ (behindYear ++ words)) := by
  obtain ⟨words, hlicence⟩ := exists_licence_eq manifest.year
  obtain ⟨more, hlines⟩ : ∃ more, manifest.lines = "<?xml version='1.0' encoding='utf-8'?>\n" ::
      ("<!--" ++ licence manifest.year ++ "-->\n") :: more := by
    rw [lines, List.append_assoc, List.cons_append, List.cons_append]
    exact ⟨_, rfl⟩
  have hregroup (declaration mark opening year words close more : String) :
      declaration ++ (mark ++ (opening ++ (year ++ (behindYear ++ words))) ++ close ++ more) =
        declaration ++ mark ++ opening ++ (year ++ (behindYear ++ (words ++ (close ++ more)))) := by
    simp only [String.append_assoc]
  have hrender : manifest.render = "<?xml version='1.0' encoding='utf-8'?>\n" ++
      ("<!--" ++ ("\n  Copyright (C) " ++ (toString manifest.year ++ (behindYear ++ words))) ++
        "-->\n" ++ String.join more) := by
    rw [render, hlines, String.join_cons, String.join_cons, hlicence]
  exact ⟨_, hrender.trans (hregroup _ _ _ _ _ _ _)⟩

/-- Documents with the same text have the same year. -/
theorem year_eq_of_text (h : first.render = second.render) : first.year = second.year := by
  obtain ⟨rest, hfirst⟩ := exists_render_eq first
  obtain ⟨rest', hsecond⟩ := exists_render_eq second
  rw [hfirst, hsecond, String.append_right_inj] at h
  have htake (year : Int) (rest : String) :
      (toString year ++ (behindYear ++ rest)).toList.takeWhile (· != ' ') =
        (toString year).toList := by
    have hkeep : ∀ c ∈ (toString year).toList, (c != ' ') = true := fun c hc =>
      bne_iff_ne.mpr fun heq => blank_notMem_toString year (heq ▸ hc)
    have hblank : behindYear.toList = ' ' :: behindYear.toList.tail := by decide
    rw [String.toList_append, String.toList_append, hblank,
      List.takeWhile_append_of_pos hkeep, List.cons_append, List.takeWhile_cons_of_neg (by decide),
      List.append_nil]
  have hyears : toString first.year = toString second.year := by
    rw [← String.toList_inj, ← htake first.year rest, h, htake second.year rest']
  exact Int.repr_injective hyears

/-! ## Manifests -/

/-- Two manifests have the same document only if they have the same name, the same policy, the
same year and the same resources, whatever their texts hold. -/
theorem render_eq_iff : first.render = second.render ↔
    first.overlayable = second.overlayable ∧ first.policy = second.policy ∧
      first.year = second.year ∧
      ∀ resource, resource ∈ first.resources ↔ resource ∈ second.resources := by
  constructor
  · intro h
    obtain ⟨hoverlayable, hpolicy⟩ := names_eq_of_text h
    refine ⟨hoverlayable, hpolicy, year_eq_of_text h, fun resource => ?_⟩
    rw [resources_eq_of_text h]
  · rintro ⟨hoverlayable, hpolicy, hyear, hmembers⟩
    have hresources : first.resources = second.resources := Std.ExtTreeSet.ext_mem hmembers
    rw [render, render, lines, lines, hoverlayable, hpolicy, hyear, hresources]

end OverlayManifest.Manifest
