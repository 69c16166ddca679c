/-
# Digits

Digits write numbers in decimal, in hexadecimal with small or capital letters,
or in any base between. A number may also stand for the character that it
numbers.
-/

namespace OverlayManifest.Text

/-- The value of a decimal digit. -/
def decimalDigit? (c : Char) : Option Nat :=
  if '0' ≤ c ∧ c ≤ '9' then some (c.toNat - '0'.toNat) else none

/-- The value of a hexadecimal digit. -/
def hexadecimalDigit? (c : Char) : Option Nat :=
  if 'a' ≤ c ∧ c ≤ 'f' then some (c.toNat - 'a'.toNat + 10)
  else if 'A' ≤ c ∧ c ≤ 'F' then some (c.toNat - 'A'.toNat + 10)
  else decimalDigit? c

/-- The number that digits write in a base; what is no digit counts as zero. -/
def numberOf (base : Nat) (digits : List Char) : Nat :=
  digits.foldl (fun n c => base * n + (hexadecimalDigit? c).getD 0) 0

/-- The character that a number stands for, if it stands for one. -/
def charOfCode? (code : Nat) : Option Char :=
  if h : code.isValidChar then some (Char.ofNatAux code h) else none

/-- Every character is what its number stands for. -/
theorem charOfCode?_toNat (c : Char) : charOfCode? c.toNat = some c := by
  have h : c.toNat.isValidChar := c.valid
  rw [charOfCode?, dif_pos h]
  exact congrArg some (Char.ext rfl)

/-- A number is written with decimal digits. -/
theorem isDigit_of_mem_toString {n : Nat} {c : Char} (h : c ∈ (toString n).toList) :
    c.isDigit = true := by
  rw [Nat.toString_eq_repr, Nat.toList_repr] at h
  exact Nat.isDigit_of_mem_toDigits (by decide) (by decide) h

/-- What is neither a digit nor a sign does not occur where a whole number is written. -/
theorem notMem_toString {c : Char} (hdigit : c.isDigit = false) (hsign : c ≠ '-') (n : Int) :
    c ∉ (toString n).toList := by
  have hnumber (n : Nat) : c ∉ n.repr.toList := by
    rw [← Nat.toString_eq_repr]
    intro hmem
    rw [isDigit_of_mem_toString hmem] at hdigit
    cases hdigit
  rw [Int.toString_eq_repr, Int.repr_eq_if]
  split
  · exact hnumber _
  · rw [String.toList_append, List.mem_append, not_or]
    exact ⟨fun hmark => hsign (List.mem_singleton.mp hmark), hnumber _⟩

end OverlayManifest.Text
