/-
# Names of files

The name of something in a directory is any bytes. It is a text where the bytes encode one, and
that is how names are given. Names are in the order of their bytes.
-/

import OverlayManifest.Text.Lossy
import Std.Data.ExtTreeMap

namespace OverlayManifest

/-- Bytes that encode no text. -/
@[ext]
structure RawName where
  bytes : ByteArray
  notText : bytes.validateUTF8 = false

instance : DecidableEq RawName := fun first second =>
  decidable_of_iff (first.bytes.data = second.bytes.data)
    (ByteArray.ext_iff.symm.trans RawName.ext_iff.symm)

instance : Repr RawName := ⟨fun name _ => repr name.bytes.data⟩

/-- The text that a name is shown as. -/
def RawName.shown (name : RawName) : String := String.ofList (Text.lossy name.bytes.data.toList)

/-- Something is replaced in what such a name is shown as. -/
theorem RawName.replacement_mem_shown (name : RawName) : Text.replacement ∈ name.shown.toList := by
  rw [shown, String.toList_ofList]
  refine Decidable.byContradiction fun hplain => ?_
  have hbytes : name.bytes = (Text.lossy name.bytes.data.toList).utf8Encode := by
    rw [List.utf8Encode, Text.flatMap_lossy hplain]
    exact ByteArray.ext (by simp)
  have hvalid := name.notText
  rw [ByteArray.validateUTF8_eq_false_iff, hbytes] at hvalid
  exact hvalid ByteArray.isValidUTF8_utf8Encode

/-- A name, which need not be a text. -/
inductive FileName
  | plain (text : String)
  | raw (name : RawName)
  deriving DecidableEq, Repr

namespace FileName

instance : Coe String FileName := ⟨.plain⟩

/-- The name that some bytes are. -/
def ofBytes (bytes : ByteArray) : FileName :=
  if h : bytes.validateUTF8 = true then
    .plain (.fromUTF8 bytes (ByteArray.validateUTF8_eq_true_iff.mp h))
  else .raw ⟨bytes, Bool.eq_false_iff.mpr h⟩

/-- The name that a step of a path is. -/
def ofStep (step : List Char) : FileName := .plain (String.ofList step)

/-- The bytes of a name. -/
def bytes : FileName → List UInt8
  | .plain text => Text.bytesOf text
  | .raw name => name.bytes.data.toList

@[simp]
theorem bytes_ofBytes (bytes : ByteArray) : (ofBytes bytes).bytes = bytes.data.toList := by
  rw [ofBytes]
  split <;> rfl

/-- The number of bytes of a name. -/
def size : FileName → Nat
  | .plain text => text.utf8ByteSize
  | .raw name => name.bytes.size

/-- The text that a name is. -/
def text? : FileName → Option String
  | .plain text => some text
  | .raw _ => none

/-- The text that a name is shown as. -/
def shown : FileName → String
  | .plain text => text
  | .raw name => name.shown

/-- A name that starts with a dot is hidden. -/
def isHidden : FileName → Bool
  | .plain text => text.toList.head? == some '.'
  | .raw name => name.bytes.data.toList.head? == some 0x2e

/-- A slash stands in the name, which no name in a directory has. -/
def HasSlash : FileName → Prop
  | .plain text => '/' ∈ text.toList
  | .raw name => 0x2f ∈ name.bytes.data.toList

instance : DecidablePred HasSlash
  | .plain text => inferInstanceAs (Decidable ('/' ∈ text.toList))
  | .raw name => inferInstanceAs (Decidable (0x2f ∈ name.bytes.data.toList))

/-- A name is known by its bytes. -/
theorem bytes_inj {first second : FileName} : first.bytes = second.bytes ↔ first = second := by
  have hbytes {bytes bytes' : ByteArray} (h : bytes.data.toList = bytes'.data.toList) :
      bytes = bytes' :=
    ByteArray.ext (Array.toList_inj.mp h)
  have hraw (text : String) (name : RawName) : (plain text).bytes ≠ (raw name).bytes := by
    intro h
    have hvalid := name.notText
    have hsame : text.toByteArray = name.bytes := hbytes h
    rw [← hsame, ByteArray.validateUTF8_eq_false_iff] at hvalid
    exact hvalid text.isValidUTF8
  refine ⟨fun h => ?_, fun h => by rw [h]⟩
  cases first with
  | plain first =>
      cases second with
      | plain second =>
          have hsame : first.toByteArray = second.toByteArray := hbytes h
          rw [String.toByteArray_inj.mp hsame]
      | raw second => exact absurd h (hraw first second)
  | raw first =>
      cases second with
      | plain second => exact absurd h.symm (hraw second first)
      | raw second =>
          cases first
          cases second
          cases hbytes h
          rfl

instance : Ord FileName := ⟨fun first second => compare first.bytes second.bytes⟩

instance : Std.LawfulEqOrd FileName where
  compare_self := Std.compare_self (α := List UInt8)
  eq_of_compare h := bytes_inj.mp (Std.LawfulEqOrd.eq_of_compare h)

instance : Std.TransOrd FileName where
  eq_swap := Std.OrientedOrd.eq_swap (α := List UInt8)
  isLE_trans := Std.TransOrd.isLE_trans (α := List UInt8)

end FileName

end OverlayManifest
