/-
# White space

The characters with the property White_Space: twenty-five code points.
-/

namespace OverlayManifest.Text

/-- The ranges of code points that are white space. -/
def spaceRanges : List (Nat × Nat) :=
  [(0x09, 0x0d), (0x20, 0x20), (0x85, 0x85), (0xa0, 0xa0), (0x1680, 0x1680), (0x2000, 0x200a),
    (0x2028, 0x2029), (0x202f, 0x202f), (0x205f, 0x205f), (0x3000, 0x3000)]

/-- The character is white space. -/
def isSpace (c : Char) : Bool :=
  spaceRanges.any fun (first, last) => first ≤ c.toNat && c.toNat ≤ last

end OverlayManifest.Text
