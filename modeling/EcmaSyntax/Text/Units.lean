/-!
Texts as sequences of 16-bit units. A character beyond U+FFFF is a pair of surrogates, and
reading units back puts U+FFFD in the place of every surrogate that is not part of a pair.
-/

namespace EcmaSyntax.Text

/-- The units of one character. -/
def unitsOfChar (c : Char) : List UInt16 :=
  if c.toNat < 0x10000 then
    [c.toNat.toUInt16]
  else
    let offset := c.toNat - 0x10000
    [(0xD800 + offset / 0x400).toUInt16, (0xDC00 + offset % 0x400).toUInt16]

/-- The units of a text. -/
def encodeUnits (text : List Char) : List UInt16 :=
  text.flatMap unitsOfChar

/-- A unit that opens a surrogate pair. -/
def isLeadUnit (unit : UInt16) : Bool :=
  0xD800 ≤ unit && unit < 0xDC00

/-- A unit that closes a surrogate pair. -/
def isTrailUnit (unit : UInt16) : Bool :=
  0xDC00 ≤ unit && unit < 0xE000

/-- The character of a surrogate pair. -/
def charOfPair (lead trail : UInt16) : Char :=
  Char.ofNat (0x10000 + (lead.toNat - 0xD800) * 0x400 + (trail.toNat - 0xDC00))

/-- What stands for a surrogate without a partner. -/
def replacement : Char := '\uFFFD'

/-- The character of a unit that is not part of a pair. -/
def charOfUnit (unit : UInt16) : Char :=
  if isLeadUnit unit || isTrailUnit unit then replacement else Char.ofNat unit.toNat

/-- Reads units as a text. -/
def decodeUnits : List UInt16 → List Char
  | [] => []
  | [unit] => [charOfUnit unit]
  | first :: second :: rest =>
      if isLeadUnit first && isTrailUnit second then
        charOfPair first second :: decodeUnits rest
      else
        charOfUnit first :: decodeUnits (second :: rest)

/-- The character with the code point, if the code point is not a surrogate and in range. -/
def charOfCode? (code : Nat) : Option Char :=
  if h : code.isValidChar then some (Char.ofNatAux code h) else none

end EcmaSyntax.Text
