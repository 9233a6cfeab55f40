import EcmaSyntax.Text.Interval

/-! The Unicode property White_Space and the general category Cc. -/

namespace EcmaSyntax.Text

/-- Code points with the property White_Space, as closed intervals in increasing order. -/
def whiteSpaceTable : List (Nat × Nat) :=
  [ (0x9, 0xD), (0x20, 0x20), (0x85, 0x85), (0xA0, 0xA0), (0x1680, 0x1680), (0x2000, 0x200A),
    (0x2028, 0x2029), (0x202F, 0x202F), (0x205F, 0x205F), (0x3000, 0x3000)]

def isWhiteSpace (c : Char) : Bool :=
  inIntervals whiteSpaceTable c.toNat

/-- The control characters U+0000 to U+001F and U+007F to U+009F. -/
def isControl (c : Char) : Bool :=
  inIntervals [(0x0, 0x1F), (0x7F, 0x9F)] c.toNat

end EcmaSyntax.Text
