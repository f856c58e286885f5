/-!
# Blank characters

The characters that count as white space everywhere in a source file: around headers, bullets,
roles and labels, and between the words of a declaration.  The class is the Unicode property
`White_Space`, given here as a table of ranges.  The zero-width characters (`U+200B`, `U+2060`,
`U+FEFF`) and the separators `U+001C` to `U+001F` do not belong to it.
-/

namespace DialogModel

/-- The code points of the property `White_Space`, as closed ranges in increasing order. -/
def blankRanges : List (Nat × Nat) :=
  [(0x09, 0x0D), (0x20, 0x20), (0x85, 0x85), (0xA0, 0xA0), (0x1680, 0x1680), (0x2000, 0x200A),
   (0x2028, 0x2029), (0x202F, 0x202F), (0x205F, 0x205F), (0x3000, 0x3000)]

/-- Whether a character is white space. -/
def isBlank (c : Char) : Bool :=
  blankRanges.any fun (lo, hi) => decide (lo ≤ c.toNat) && decide (c.toNat ≤ hi)

end DialogModel
