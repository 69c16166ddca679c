/-
# Escaped characters

A character that is escaped is read back as itself, whatever follows it. None of the
characters that could end a value or a tag occurs in an escaped text, so that a value
stays inside its quotes.
-/

import OverlayManifest.Xml.Escape

namespace OverlayManifest.Xml

/-- A name between `&` and `;` is read as the character it resolves to. -/
theorem unescapeRest_reference (name : List Char) {size : Nat} {rest : List Char} {c : Char}
    (hends : name.all (!endsEscape ·) = true)
    (hresolve : ∀ start stop, resolveEscape start stop name = .ok c) :
    unescapeRest size ('&' :: (name ++ ';' :: rest)) = (unescapeRest size rest).map (c :: ·) := by
  have hdrop : (name ++ ';' :: rest).dropWhile (!endsEscape ·) = ';' :: rest := by
    rw [List.dropWhile_append_of_pos (by simpa using hends)]
    rfl
  have htake : (name ++ ';' :: rest).takeWhile (!endsEscape ·) = name := by
    rw [List.takeWhile_append_of_pos (by simpa using hends)]
    exact List.append_nil name
  rw [unescapeRest]
  dsimp only
  split
  · rename_i after hafter
    rw [hdrop] at hafter
    cases hafter
    rw [htake, hresolve]
  · rename_i hother
    exact absurd hdrop (hother rest)

/-- A written character is read as itself. -/
theorem unescapeRest_escapeChar (size : Nat) (c : Char) (rest : List Char) :
    unescapeRest size (escapeChar c ++ rest) = (unescapeRest size rest).map (c :: ·) := by
  unfold escapeChar
  split
  case h_1 => exact unescapeRest_reference ['l', 't'] rfl fun _ _ => rfl
  case h_2 => exact unescapeRest_reference ['g', 't'] rfl fun _ _ => rfl
  case h_3 => exact unescapeRest_reference ['a', 'p', 'o', 's'] rfl fun _ _ => rfl
  case h_4 => exact unescapeRest_reference ['a', 'm', 'p'] rfl fun _ _ => rfl
  case h_5 => exact unescapeRest_reference ['q', 'u', 'o', 't'] rfl fun _ _ => rfl
  case h_6 hlt hgt hapos hamp hquot =>
    rw [List.singleton_append, unescapeRest.eq_3]
    exact hamp

/-- The characters that open and close tags and values. -/
def isDelimiter (c : Char) : Bool := c == '<' || c == '>' || c == '\'' || c == '"'

/-- Only the `&` of its name is left of a written delimiter. -/
theorem isDelimiter_of_mem_escapeChar {c d : Char} (h : c ∈ escapeChar d) :
    isDelimiter c = false := by
  have hplain : (escapeChar d).all (!isDelimiter ·) = true := by
    unfold escapeChar
    split
    case h_6 hlt hgt hapos hamp hquot =>
      have hother : isDelimiter d = false := by
        simp only [isDelimiter, Bool.or_eq_false_iff, beq_eq_false_iff_ne]
        exact ⟨⟨⟨hlt, hgt⟩, hapos⟩, hquot⟩
      simp [hother]
    all_goals rfl
  simpa using List.all_eq_true.mp hplain c h

/-- No delimiter occurs in a written text. -/
theorem isDelimiter_of_mem_escape {c : Char} {text : List Char} (h : c ∈ escape text) :
    isDelimiter c = false := by
  rw [escape, List.mem_flatMap] at h
  obtain ⟨d, -, hmem⟩ := h
  exact isDelimiter_of_mem_escapeChar hmem

end OverlayManifest.Xml
