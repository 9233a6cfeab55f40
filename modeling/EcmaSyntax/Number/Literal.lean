import EcmaSyntax.Number.Decimal

/-!
Number literals: decimal, hexadecimal after `0x`, and octal after a zero. Literals that are not
decimal are summed up digit by digit, and every partial sum is rounded.
-/

namespace EcmaSyntax

/-- A zero and then octal digits only, at least one. -/
def isLegacyOctal : List Char → Bool
  | '0' :: digits => !digits.isEmpty && digits.all Text.isOctalDigit
  | _ => false

namespace Magnitude

/-- Appends a digit: the magnitude nearest to `radix * magnitude + digit`. -/
def appendDigit (radix : Nat) (magnitude : Magnitude) (digit : Nat) : Magnitude :=
  if magnitude.isInfinite then
    magnitude
  else
    nearest (radix * magnitude.units + digit * unitsPerOne) 1

/-- Appends the digits one by one; none if a character is not a digit of the radix. -/
def appendDigits? (radix : Nat) : Magnitude → List Char → Option Magnitude
  | magnitude, [] => some magnitude
  | magnitude, c :: rest =>
      (Text.digitValue? radix c).bind fun digit =>
        appendDigits? radix (magnitude.appendDigit radix digit) rest

/-- The magnitude that the digits sum up to, at least one digit. -/
def ofDigits? (radix : Nat) (digits : List Char) : Option Magnitude :=
  if digits.isEmpty then none else appendDigits? radix zero digits

end Magnitude

namespace Number

/-- The characters that decimal literals consist of. -/
def isLiteralChar (c : Char) : Bool :=
  Text.isDigit c || c = '.' || c = 'e' || c = 'E' || c = '+' || c = '-'

/-- The value of a number literal. -/
def ofLiteral? : List Char → Option Number
  | '0' :: 'x' :: digits => (Magnitude.ofDigits? 16 digits).map (signed false)
  | '0' :: 'X' :: digits => (Magnitude.ofDigits? 16 digits).map (signed false)
  | raw =>
      if isLegacyOctal raw then
        (Magnitude.ofDigits? 8 raw.tail).map (signed false)
      else if raw.isEmpty || !raw.all isLiteralChar then
        none
      else
        ofText? raw

end Number

end EcmaSyntax
