import EcmaSyntax.Text.Alphabetic
import EcmaSyntax.Text.Numeric

/-!
The character classes of programs: line terminators, blanks, and the characters of identifiers.
Within ASCII they are fixed sets; beyond it identifiers follow the Unicode properties.
-/

namespace EcmaSyntax.Text

/-- The four characters that end a line. -/
def isLineTerminator (c : Char) : Bool :=
  c = '\n' || c = '\r' || c = '\u2028' || c = '\u2029'

/-- The blank characters between tokens that do not end a line. -/
def blanks : List Char :=
  [ '\t', '\x0b', '\x0c', ' ', '\u00A0', '\u1680', '\u2000', '\u2001', '\u2002', '\u2003', '\u2004',
    '\u2005', '\u2006', '\u2007', '\u2008', '\u2009', '\u200A', '\u202F', '\u205F', '\u3000', '\uFEFF']

def isBlank (c : Char) : Bool :=
  blanks.contains c

def digitSet : CharSet :=
  CharSet.empty.addInterval '0' '9'

def hexDigitSet : CharSet :=
  ((CharSet.empty.addInterval '0' '9').addInterval 'a' 'f').addInterval 'A' 'F'

/-- The ASCII characters that may open an identifier. -/
def asciiStartSet : CharSet :=
  (((CharSet.empty.addInterval 'a' 'z').addInterval 'A' 'Z').addInterval '$' '$').addInterval '_' '_'

/-- The ASCII characters that may stand in an identifier. -/
def asciiPartSet : CharSet :=
  asciiStartSet.addInterval '0' '9'

def isAscii (c : Char) : Bool :=
  c.toNat < 0x80

/-- A character that may open an identifier. -/
def isIdentifierStart (c : Char) : Bool :=
  if isAscii c then asciiStartSet.contains c else isAlphabetic c

/-- A character that may go on an identifier: beyond ASCII also the two joiners U+200C and U+200D. -/
def isIdentifierPart (c : Char) : Bool :=
  if isAscii c then
    asciiPartSet.contains c
  else
    isAlphabetic c || isNumeric c || c = '\u200C' || c = '\u200D'

end EcmaSyntax.Text
