/-
# Readings

A text is read from the front, and what was read before a fault still counts:
a reading is a sequence of items that ends with the text or with a fault.
-/

namespace OverlayManifest.Xml

/-- The items read from a text, up to its end or up to the first fault. -/
inductive Reading (ε α : Type)
  | done
  | failed (fault : ε)
  | item (value : α) (rest : Reading ε α)
  deriving DecidableEq, Repr

end OverlayManifest.Xml
