/-
# The order of bytes

Texts are compared character by character. The bytes that encode them in UTF-8 compare in the
same way: of two characters the one with the smaller number has the smaller bytes, whatever
follows.
-/

import Mathlib.Data.String.Basic
import OverlayManifest.Text.Lossy

namespace OverlayManifest.Text

theorem bytesOf_eq (text : String) : bytesOf text = text.toList.flatMap String.utf8EncodeChar := by
  rw [bytesOf, String.toUTF8_eq_toByteArray, ← String.utf8Encode_toList, List.utf8Encode,
    List.data_toByteArray]

/-! ## Characters -/

/-- A character has up to four bytes, of which the first tells how many there are. -/
theorem utf8EncodeChar_cases (c : Char) :
    (c.toNat < 128 ∧ String.utf8EncodeChar c = [UInt8.ofNat c.toNat]) ∨
    ((128 ≤ c.toNat ∧ c.toNat < 2048) ∧ String.utf8EncodeChar c =
      [UInt8.ofNat (c.toNat / 64 + 192), UInt8.ofNat (c.toNat % 64 + 128)]) ∨
    ((2048 ≤ c.toNat ∧ c.toNat < 65536) ∧ String.utf8EncodeChar c =
      [UInt8.ofNat (c.toNat / 4096 + 224), UInt8.ofNat (c.toNat / 64 % 64 + 128),
        UInt8.ofNat (c.toNat % 64 + 128)]) ∨
    ((65536 ≤ c.toNat ∧ c.toNat < 1114112) ∧ String.utf8EncodeChar c =
      [UInt8.ofNat (c.toNat / 262144 + 240), UInt8.ofNat (c.toNat / 4096 % 64 + 128),
        UInt8.ofNat (c.toNat / 64 % 64 + 128), UInt8.ofNat (c.toNat % 64 + 128)]) := by
  have hmax : c.toNat < 1114112 := by
    rcases c.valid with hlow | hhigh
    · exact Nat.lt_trans hlow (by decide)
    · exact hhigh.2
  have hnumber : c.val.toNat = c.toNat := rfl
  simp only [String.utf8EncodeChar, hnumber]
  generalize c.toNat = number at hmax
  split
  · exact .inl ⟨by omega, rfl⟩
  · split
    · have hlead : number / 64 % 32 = number / 64 := by omega
      exact .inr (.inl ⟨by omega, by rw [hlead]⟩)
    · split
      · have hlead : number / 4096 % 16 = number / 4096 := by omega
        exact .inr (.inr (.inl ⟨by omega, by rw [hlead]⟩))
      · have hlead : number / 262144 % 8 = number / 262144 := by omega
        exact .inr (.inr (.inr ⟨by omega, by rw [hlead]⟩))

/-- A smaller byte makes bytes smaller, whatever follows. -/
theorem cons_lt_cons_of_lt {a b : Nat} (h : a < b) (hb : b < 256) (bytes bytes' : List UInt8) :
    UInt8.ofNat a :: bytes < UInt8.ofNat b :: bytes' := by
  rw [List.cons_lt_cons_iff, UInt8.lt_iff_toNat_lt, UInt8.toNat_ofNat', UInt8.toNat_ofNat']
  omega

/-- A byte that is no greater makes bytes smaller if the others do. -/
theorem cons_lt_cons_of_le {a b : Nat} (h : a ≤ b) (hb : b < 256) {bytes bytes' : List UInt8}
    (hrest : a = b → bytes < bytes') : UInt8.ofNat a :: bytes < UInt8.ofNat b :: bytes' := by
  rcases Nat.lt_or_eq_of_le h with hlt | rfl
  · exact cons_lt_cons_of_lt hlt hb bytes bytes'
  · exact List.cons_lt_cons_iff.mpr (.inr ⟨rfl, hrest rfl⟩)

/-- Of two characters the smaller one has the smaller bytes, whatever follows. -/
theorem utf8EncodeChar_append_lt {c d : Char} (h : c < d) (rest rest' : List UInt8) :
    String.utf8EncodeChar c ++ rest < String.utf8EncodeChar d ++ rest' := by
  have hlt : c.toNat < d.toNat := h
  rcases utf8EncodeChar_cases c with ⟨hc, hbytes⟩ | ⟨hc, hbytes⟩ | ⟨hc, hbytes⟩ | ⟨hc, hbytes⟩ <;>
    rcases utf8EncodeChar_cases d with
      ⟨hd, hbytes'⟩ | ⟨hd, hbytes'⟩ | ⟨hd, hbytes'⟩ | ⟨hd, hbytes'⟩ <;>
    rw [hbytes, hbytes']
  -- a smaller character has no more bytes
  case inr.inl.inl | inr.inr.inl.inl | inr.inr.inl.inr.inl | inr.inr.inr.inl |
      inr.inr.inr.inr.inl | inr.inr.inr.inr.inr.inl => omega
  -- if it has fewer, already its first byte is smaller
  case inl.inr.inl | inl.inr.inr.inl | inl.inr.inr.inr | inr.inl.inr.inr.inl |
      inr.inl.inr.inr.inr | inr.inr.inl.inr.inr.inr =>
    exact cons_lt_cons_of_lt (by omega) (by omega) _ _
  case inl.inl => exact cons_lt_cons_of_lt hlt (by omega) rest rest'
  case inr.inl.inr.inl =>
    refine cons_lt_cons_of_le (by omega) (by omega) fun hlead => ?_
    exact cons_lt_cons_of_lt (by omega) (by omega) rest rest'
  case inr.inr.inl.inr.inr.inl =>
    refine cons_lt_cons_of_le (by omega) (by omega) fun hlead => ?_
    refine cons_lt_cons_of_le (by omega) (by omega) fun hsecond => ?_
    exact cons_lt_cons_of_lt (by omega) (by omega) rest rest'
  case inr.inr.inr.inr.inr.inr =>
    refine cons_lt_cons_of_le (by omega) (by omega) fun hlead => ?_
    refine cons_lt_cons_of_le (by omega) (by omega) fun hsecond => ?_
    refine cons_lt_cons_of_le (by omega) (by omega) fun hthird => ?_
    exact cons_lt_cons_of_lt (by omega) (by omega) rest rest'

/-! ## Texts -/

theorem utf8EncodeChar_ne_nil (c : Char) : String.utf8EncodeChar c ≠ [] := by
  rw [← List.length_pos_iff, String.length_utf8EncodeChar]
  exact c.utf8Size_pos

/-- The bytes of a text become greater where its first characters that differ do. -/
theorem flatMap_utf8EncodeChar_lt {first second : List Char} (h : first < second) :
    first.flatMap String.utf8EncodeChar < second.flatMap String.utf8EncodeChar := by
  induction first generalizing second with
  | nil =>
      cases second with
      | nil => exact absurd h (List.lt_irrefl [])
      | cons d second =>
          obtain ⟨byte, more, hcons⟩ := List.exists_cons_of_ne_nil (utf8EncodeChar_ne_nil d)
          rw [List.flatMap_nil, List.flatMap_cons, hcons]
          exact List.nil_lt_cons byte _
  | cons c first ih =>
      cases second with
      | nil => exact absurd h (List.not_lt_nil _)
      | cons d second =>
          rw [List.flatMap_cons, List.flatMap_cons]
          rcases List.cons_lt_cons_iff.mp h with hlt | ⟨rfl, hrest⟩
          · exact utf8EncodeChar_append_lt hlt _ _
          · exact List.Lex.append_left _ (ih hrest) _

/-- Texts compare as their bytes do. -/
theorem lt_iff_bytesOf_lt {first second : String} :
    first < second ↔ bytesOf first < bytesOf second := by
  have hmono {first second : String} (h : first < second) : bytesOf first < bytesOf second := by
    rw [bytesOf_eq, bytesOf_eq]
    exact flatMap_utf8EncodeChar_lt (String.lt_iff_toList_lt.mp h)
  refine ⟨hmono, fun h => ?_⟩
  rcases lt_trichotomy first second with hlt | rfl | hgt
  · exact hlt
  · exact absurd h (List.lt_irrefl _)
  · exact absurd (hmono hgt) (List.lt_asymm h)

end OverlayManifest.Text
