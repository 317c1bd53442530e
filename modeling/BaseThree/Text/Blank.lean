/-! Blank characters.

The twenty-nine characters that separate tokens and mean nothing else: those that
Unicode classifies as spaces or that its bidirectional algorithm treats as
separators. Zero-width characters (U+200B, U+FEFF) and U+180E are not blank. -/
namespace BaseThree.Text

/-- The ranges of blank code points, both ends included. -/
def blankRanges : List (Nat × Nat) :=
  [(0x09, 0x0d), (0x1c, 0x20), (0x85, 0x85), (0xa0, 0xa0), (0x1680, 0x1680), (0x2000, 0x200a),
   (0x2028, 0x2029), (0x202f, 0x202f), (0x205f, 0x205f), (0x3000, 0x3000)]

/-- Whether `n` lies in one of the ranges, both ends included. -/
def inRanges (ranges : List (Nat × Nat)) (n : Nat) : Bool :=
  ranges.any fun r => r.1 ≤ n && n ≤ r.2

def isBlank (c : Char) : Bool := inRanges blankRanges c.toNat

end BaseThree.Text
