/-
# Numbers, truth values and moments of TOML

The readers of this module pass over a value and give the text after it. They
refuse a number that is too large and a moment that is in no calendar.
-/

import OverlayManifest.Toml.Text

namespace OverlayManifest.Toml

/-- Reads a number of exactly so many decimal digits. -/
def readFixed (count : Nat) (text : List Char) : Option (Nat × List Char) :=
  let digits := text.take count
  if digits.length = count ∧ digits.all Char.isDigit then
    some (Text.numberOf 10 digits, text.drop count)
  else none

/-- Reads a number of two digits between bounds. -/
def readBounded (least greatest : Nat) (text : List Char) : Option (Nat × List Char) :=
  (readFixed 2 text).filter fun (n, _) => least ≤ n && n ≤ greatest

/-- Passes over one character. -/
def skipChar (c : Char) : List Char → Option (List Char)
  | first :: rest => if first = c then some rest else none
  | [] => none

/-- The number of days of a month. -/
def daysOfMonth (year month : Nat) : Nat :=
  if month = 2 then
    if year % 4 = 0 ∧ (year % 100 ≠ 0 ∨ year % 400 = 0) then 29 else 28
  else if month = 4 ∨ month = 6 ∨ month = 9 ∨ month = 11 then 30
  else 31

/-- Passes over a date. -/
def skipDate (text : List Char) : Option (List Char) := do
  let (year, rest) ← readFixed 4 text
  let (month, rest) ← readBounded 1 12 (← skipChar '-' rest)
  let (_, rest) ← readBounded 1 (daysOfMonth year month) (← skipChar '-' rest)
  return rest

/-- Passes over the fraction of a second, if there is one. -/
def skipFraction : List Char → List Char
  | '.' :: c :: rest => if c.isDigit then rest.dropWhile Char.isDigit else '.' :: c :: rest
  | text => text

/-- Passes over a time of day; a minute may have a leap second. -/
def skipTime (text : List Char) : Option (List Char) := do
  let (_, rest) ← readBounded 0 23 text
  let (_, rest) ← readBounded 0 59 (← skipChar ':' rest)
  let (_, rest) ← readBounded 0 60 (← skipChar ':' rest)
  return skipFraction rest

/-- Passes over an offset from universal time, if there is one. -/
def skipOffset (text : List Char) : List Char :=
  let offset? : Option (List Char) :=
    match text with
    | c :: rest =>
        if c = 'Z' ∨ c = 'z' then some rest
        else if c = '+' ∨ c = '-' then do
          let (_, rest) ← readBounded 0 23 rest
          let (_, rest) ← readBounded 0 59 (← skipChar ':' rest)
          return rest
        else none
    | [] => none
  offset?.getD text

/-- Passes over the time after a date, if there is one. -/
def skipTimeAfterDate : List Char → List Char
  | c :: rest =>
      if c = 'T' ∨ c = 't' ∨ c = ' ' then
        match skipTime rest with
        | some after => skipOffset after
        | none => c :: rest
      else c :: rest
  | [] => []

/-- Passes over a date, a time, or both. -/
def skipMoment (text : List Char) : Option (List Char) :=
  match skipDate text with
  | some rest => some (skipTimeAfterDate rest)
  | none => skipTime text

/-- Reads digits of some kind, with single underscores between them. -/
def readGrouped (isDigit : Char → Bool) : List Char → List Char × List Char
  | '_' :: c :: rest =>
      if isDigit c then
        let (digits, after) := readGrouped isDigit rest
        (c :: digits, after)
      else ([], '_' :: c :: rest)
  | c :: rest =>
      if isDigit c then
        let (digits, after) := readGrouped isDigit rest
        (c :: digits, after)
      else ([], c :: rest)
  | [] => ([], [])

/-- Reads one digit at least. -/
def readDigits (isDigit : Char → Bool) (text : List Char) : Option (List Char × List Char) :=
  if (text.head?.map isDigit).getD false then some (readGrouped isDigit text) else none

/-- The text starts with a sign. -/
def hasSign (text : List Char) : Bool := text.head? == some '+' || text.head? == some '-'

/-- A text without the sign it may start with. -/
def dropSign (text : List Char) : List Char := if hasSign text then text.drop 1 else text

/-- Reads the digits of a whole number, after its sign; a zero stands alone. -/
def readWhole (text : List Char) : Option (List Char × List Char) :=
  match dropSign text with
  | '0' :: rest => some (['0'], rest)
  | rest => readDigits Char.isDigit rest

/-- Passes over a whole number in another base. -/
def skipBased (base : Nat) (text : List Char) : Option (List Char) := do
  let isDigit (c : Char) : Bool := (Text.hexadecimalDigit? c).any (· < base)
  let (digits, rest) ← readDigits isDigit text
  if Text.numberOf base digits < Nat.pow 2 63 then some rest else none

/-- Passes over a whole number, which must fit into sixty-four bits with its sign. -/
def skipInteger (text : List Char) : Option (List Char) :=
  match text with
  | '0' :: 'x' :: rest => skipBased 16 rest
  | '0' :: 'o' :: rest => skipBased 8 rest
  | '0' :: 'b' :: rest => skipBased 2 rest
  | _ => do
      let (digits, rest) ← readWhole text
      let bound := if text.head? = some '-' then Nat.pow 2 63 else Nat.pow 2 63 - 1
      if Text.numberOf 10 digits ≤ bound then some rest else none

/-- Reads the exponent of a number: its sign and digits. -/
def readExponent (text : List Char) : Option (Bool × List Char × List Char) :=
  match text with
  | c :: rest =>
      if c = 'e' ∨ c = 'E' then
        (readDigits Char.isDigit (dropSign rest)).map fun (digits, after) =>
          (rest.head? == some '-', digits, after)
      else none
  | [] => none

/-- A number is too large for a double: it is at least halfway from the greatest one
to the next power of two. `digits` are its digits without a point, and `scale` is
the power of ten by which they are multiplied. -/
def isTooLarge (digits : List Char) (scale : Int) : Bool :=
  let significant := digits.dropWhile (· == '0')
  let magnitude := significant.length + scale
  if significant.isEmpty ∨ magnitude < 300 then false
  else if 320 < magnitude then true
  else
    let value := Text.numberOf 10 significant
    let bound := Nat.pow 2 1024 - Nat.pow 2 970
    if 0 ≤ scale then decide (bound ≤ value * Nat.pow 10 scale.toNat)
    else decide (bound * Nat.pow 10 (-scale).toNat ≤ value)

/-- Passes over a number with a fraction or an exponent; a positive one must not be
too large. -/
def skipFloat (text : List Char) : Option (List Char) := do
  let (whole, rest) ← readWhole text
  let (fraction, afterFraction) ← match rest with
    | '.' :: digits => readDigits Char.isDigit digits
    | _ => some ([], rest)
  let (down, exponent, after) := (readExponent afterFraction).getD (false, [], afterFraction)
  if fraction.isEmpty ∧ exponent.isEmpty then none
  else
    let power : Int := Text.numberOf 10 exponent
    let scale := (if down then -power else power) - fraction.length
    if text.head? ≠ some '-' ∧ isTooLarge (whole ++ fraction) scale then none else some after

/-- Passes over a word. -/
def skipWord (word text : List Char) : Option (List Char) :=
  if word.isPrefixOf text then some (text.drop word.length) else none

/-- Passes over infinity or the value that is not a number. -/
def skipSpecial (text : List Char) : Option (List Char) :=
  (skipWord ['i', 'n', 'f'] (dropSign text)).or (skipWord ['n', 'a', 'n'] (dropSign text))

/-- Passes over a number, a truth value or a moment. -/
def skipScalar (text : List Char) : Option (List Char) :=
  (skipWord ['t', 'r', 'u', 'e'] text) |>.or (skipWord ['f', 'a', 'l', 's', 'e'] text)
    |>.or (skipMoment text) |>.or (skipFloat text) |>.or (skipSpecial text)
    |>.or (skipInteger text)

end OverlayManifest.Toml
