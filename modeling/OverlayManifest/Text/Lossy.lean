/-
# Bytes shown as text

Bytes that are no text are shown as one all the same: where no character starts, what could
have opened one is shown as a replacement character, and reading goes on behind it.
-/

namespace OverlayManifest.Text

/-- The bytes of a text in UTF-8. -/
def bytesOf (text : String) : List UInt8 := text.toUTF8.data.toList

/-- A byte is none of the first of a character. -/
def isContinuation (byte : UInt8) : Bool := 0x80 ≤ byte && byte ≤ 0xbf

/-- A character of three or four bytes can open with two bytes. -/
def opensWith (first second : UInt8) : Bool :=
  if first = 0xe0 then 0xa0 ≤ second && second ≤ 0xbf
  else if first = 0xed then 0x80 ≤ second && second ≤ 0x9f
  else if first = 0xf0 then 0x90 ≤ second && second ≤ 0xbf
  else if first = 0xf4 then 0x80 ≤ second && second ≤ 0x8f
  else 0xe1 ≤ first && first ≤ 0xf3 && isContinuation second

/-- The number of bytes that one replacement stands for: those that open a character which
then breaks off, or else a single byte. -/
def brokenLength : List UInt8 → Nat
  | first :: second :: rest =>
      if opensWith first second then
        if 0xf0 ≤ first ∧ rest.head?.any isContinuation then 3 else 2
      else 1
  | _ => 1

theorem brokenLength_pos (bytes : List UInt8) : 0 < brokenLength bytes := by
  unfold brokenLength
  repeat' split
  all_goals decide

/-- The character that stands in for bytes that are none. -/
def replacement : Char := '\uFFFD'

/-- The text that bytes are shown as. -/
def lossy (bytes : List UInt8) : List Char :=
  match bytes with
  | [] => []
  | first :: rest =>
      match (first :: rest).toByteArray.utf8DecodeChar? 0 with
      | some c => c :: lossy ((first :: rest).drop c.utf8Size)
      | none => replacement :: lossy ((first :: rest).drop (brokenLength (first :: rest)))
termination_by bytes.length
decreasing_by
  · have hsize := c.utf8Size_pos
    rw [List.length_drop, List.length_cons]
    omega
  · have hbroken := brokenLength_pos (first :: rest)
    rw [List.length_drop, List.length_cons]
    omega

/-- A character that is decoded stands at the start of the bytes. -/
theorem eq_append_of_decode {bytes : List UInt8} {c : Char}
    (h : bytes.toByteArray.utf8DecodeChar? 0 = some c) :
    bytes = String.utf8EncodeChar c ++ bytes.drop c.utf8Size := by
  have hlist (bytes : ByteArray) : bytes = bytes.data.toList.toByteArray :=
    ByteArray.ext (by simp)
  have hsplit := ByteArray.eq_of_utf8DecodeChar?_eq_some h
  rw [hlist (ByteArray.extract _ _ _), ← List.toByteArray_append, List.toByteArray_inj] at hsplit
  have hlength := String.length_utf8EncodeChar c
  rw [hsplit, List.drop_left' hlength]

/-- Where nothing is replaced, the bytes encode the text that they are shown as. -/
theorem flatMap_lossy {bytes : List UInt8} (h : replacement ∉ lossy bytes) :
    (lossy bytes).flatMap String.utf8EncodeChar = bytes := by
  fun_induction lossy bytes with
  | case1 => rfl
  | case2 first rest c hdecode ih =>
      rw [List.mem_cons, not_or] at h
      rw [List.flatMap_cons, ih h.2]
      exact (eq_append_of_decode hdecode).symm
  | case3 => exact absurd List.mem_cons_self h

/-- A slash is shown only where there is one. -/
theorem slash_mem_of_mem_lossy {bytes : List UInt8} (h : '/' ∈ lossy bytes) : 0x2f ∈ bytes := by
  fun_induction lossy bytes with
  | case1 => cases h
  | case2 first rest c hdecode ih =>
      rw [eq_append_of_decode hdecode, List.mem_append]
      rcases List.mem_cons.mp h with rfl | h
      · exact .inl (by decide)
      · exact .inr (ih h)
  | case3 first rest hdecode ih =>
      rcases List.mem_cons.mp h with hslash | h
      · exact absurd hslash (by decide)
      · exact List.mem_of_mem_drop (ih h)

end OverlayManifest.Text
