/-
# Quoted text in messages

A message shows a text it is about in double quotes. Quotes, backslashes and
characters that cannot be seen are written as escapes.
-/

import OverlayManifest.Text
import OverlayManifest.Text.Hidden

namespace OverlayManifest.Text

/-- A character as it stands between double quotes in a message. -/
def quotedChar (c : Char) : List Char :=
  if c = '"' then ['\\', '"']
  else if c = '\\' then ['\\', '\\']
  else if c = '\n' then ['\\', 'n']
  else if c = '\r' then ['\\', 'r']
  else if c = '\t' then ['\\', 't']
  else if c = '\x00' then ['\\', '0']
  else if isHidden c then ['\\', 'u', '\x7b'] ++ Nat.toDigits 16 c.toNat ++ ['\x7d']
  else [c]

/-- A text in double quotes, as messages show it. -/
def quoted (text : List Char) : String :=
  String.ofList ('"' :: text.flatMap quotedChar ++ ['"'])

end OverlayManifest.Text
